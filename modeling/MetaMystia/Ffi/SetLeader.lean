import MetaMystia.Config
import MetaMystia.Library.Varint
import MetaMystia.Node.NetworkState
import MetaMystia.Session.Router

/-! # `SetLeader` of the FFI layer

The call changes the election and notifies before it serialises the message for the
peers. If the message is over the size limit it returns an error, with the new leader
in place on this node alone.
-/

namespace MetaMystia

/-- What is in `NETWORK` after `InitializeNetwork`: its configuration was validated. -/
structure InitializedNetwork where
  state : NetworkState
  config : NetworkConfig
  valid : config.validate = .ok ()

inductive FfiError
  | notInitialized
  | failed (error : MessageError)
deriving DecidableEq, Repr

def FfiError.errorCode : FfiError → Int32
  | .notInitialized => -1
  | .failed (.invalidArgument _) => -3
  | .failed (.connectionFailed _) => -4
  | .failed (.peerNotFound _) => -5
  | .failed .notLeader => -6
  | .failed .sendQueueFull => -7
  | .failed (.messageTooLarge _) => -8
  | .failed (.serialization _) => -9
  | .failed (.internal _) => -99

/-- What an FFI call leaves in `NETWORK` and returns, with what it announced and enqueued. -/
structure FfiCall where
  network : Option InitializedNetwork
  code : Int32
  notice : Option (Option PeerId)
  enqueued : List (PeerId × RawPacket)

/-- A pointer is null, or to the bytes before the NUL. `describe` is the text of a `Utf8Error`. -/
def cStrToString (describe : List UInt8 → String) (pointer : Option (List UInt8)) :
    Except MessageError String :=
  match pointer with
  | none => .error (.invalidArgument "null string pointer")
  | some bytes =>
    match String.fromUTF8? ⟨bytes.toArray⟩ with
    | some s => .ok s
    | none => .error (.invalidArgument ("invalid UTF-8: " ++ describe bytes))

def setLeader (postcard : Postcard) (trySend : TrySend) (describe : List UInt8 → String)
    (network : Option InitializedNetwork) (peerId : Option (List UInt8)) : FfiCall :=
  let fail (network : Option InitializedNetwork) (error : FfiError) (notice : Option (Option PeerId)) :
      FfiCall := ⟨network, error.errorCode, notice, []⟩
  match cStrToString describe peerId with
  | .error e => fail network (.failed e) none
  | .ok pid =>
    match network with
    | none => fail none .notInitialized none
    | some initialized =>
      let reply := initialized.state.leaderElection.setLeader ⟨pid⟩
      let state := { initialized.state with leaderElection := reply.election }
      let (term, leaderId, assignerId) := reply.value
      match encodeInternal postcard (.leaderAssign term leaderId assignerId)
        initialized.config.maxMessageSize with
      | .error e => fail (some { initialized with state }) (.failed e) reply.notice
      | .ok assign =>
        ⟨some { initialized with state }, 0, reply.notice,
          (state.transport.broadcast trySend assign none).1⟩

/-- A string as `postcard` writes it: the length, then the bytes. -/
def stringBytes (s : String) : List UInt8 := varint s.utf8ByteSize ++ s.toUTF8.data.toList

/-- `LeaderAssign` as `postcard` writes it: the variant, then the fields in order. -/
def assignBytes (term : UInt64) (leaderId assignerId : PeerId) : List UInt8 :=
  10 :: varint term.toNat ++ stringBytes leaderId.id ++ stringBytes assignerId.id

def Postcard.WritesAssign (postcard : Postcard) : Prop :=
  ∀ term leaderId assignerId,
    postcard.toAllocvec (.leaderAssign term leaderId assignerId) =
      .ok (assignBytes term leaderId assignerId)

/-- What `SetLeader` broadcasts on this node. -/
def InitializedNetwork.assignment (self : InitializedNetwork) (leaderId : PeerId) : List UInt8 :=
  assignBytes (self.state.leaderElection.currentTerm + 1) leaderId
    self.state.leaderElection.localPeerId

def InitializedNetwork.AssignmentFits (self : InitializedNetwork) (leaderId : PeerId) : Prop :=
  UInt32.ofNat (self.assignment leaderId).length ≤ self.config.maxMessageSize

instance (self : InitializedNetwork) (leaderId : PeerId) : Decidable (self.AssignmentFits leaderId) :=
  inferInstanceAs (Decidable (_ ≤ _))

/-- An error leaves everything; without one the assignment was broadcast. -/
structure AllOrNothing (trySend : TrySend) (before : InitializedNetwork)
    (peerId : Except MessageError String) (call : FfiCall) : Prop where
  failed : call.code ≠ 0 → call.network = some before ∧ call.notice = none ∧ call.enqueued = []
  succeeded : call.code = 0 → ∃ id, peerId = .ok id ∧
    call.enqueued = (before.state.transport.broadcast trySend
      { msgType := 0x0022, flags := 0, payload := before.assignment ⟨id⟩ } none).1

theorem cStrToString_toUTF8 (describe : List UInt8 → String) (s : String) :
    cStrToString describe (some s.toUTF8.data.toList) = .ok s := by
  have hbytes : (⟨s.toUTF8.data.toList.toArray⟩ : ByteArray) = s.toUTF8 := by
    rw [Array.toArray_toList]
  have hstring : String.fromUTF8? s.toUTF8 = some s := by
    exact dif_pos s.isValidUTF8
  simp only [cStrToString, hbytes, hstring]

/-- What `set_leader` makes of the node. -/
def InitializedNetwork.assigned (self : InitializedNetwork) (leaderId : PeerId) : InitializedNetwork :=
  { self with
    state := { self.state with
      leaderElection := (self.state.leaderElection.setLeader leaderId).election } }

theorem InitializedNetwork.assigned_ne (self : InitializedNetwork) (leaderId : PeerId) :
    self.assigned leaderId ≠ self := by
  intro h
  have hterm : self.state.leaderElection.currentTerm + 1 = self.state.leaderElection.currentTerm :=
    congrArg (·.state.leaderElection.currentTerm) h
  have hnat := congrArg UInt64.toNat hterm
  rw [UInt64.toNat_add, UInt64.toNat_one] at hnat
  have hlt := self.state.leaderElection.currentTerm.toNat_lt
  omega

section

variable {postcard : Postcard} (hpostcard : postcard.WritesAssign) (trySend : TrySend)
  (describe : List UInt8 → String) (initialized : InitializedNetwork)

include hpostcard

theorem encode_assignment (leaderId : PeerId) :
    let reply := initialized.state.leaderElection.setLeader leaderId
    encodeInternal postcard (.leaderAssign reply.value.1 reply.value.2.1 reply.value.2.2)
        initialized.config.maxMessageSize =
      if initialized.AssignmentFits leaderId then
        .ok { msgType := 0x0022, flags := 0, payload := initialized.assignment leaderId }
      else .error (.messageTooLarge (UInt32.ofNat (initialized.assignment leaderId).length)) := by
  intro reply
  have hwrites : postcard.toAllocvec
      (.leaderAssign reply.value.1 reply.value.2.1 reply.value.2.2) =
        .ok (initialized.assignment leaderId) := hpostcard _ _ _
  simp only [encodeInternal, hwrites]
  by_cases hfits : initialized.AssignmentFits leaderId
  · rw [if_pos hfits, if_neg (UInt32.not_lt.mpr hfits)]
    rfl
  · rw [if_neg hfits, if_pos (UInt32.not_le.mp hfits)]

variable {pointer : Option (List UInt8)} {id : String}
  (hid : cStrToString describe pointer = .ok id)

include hid

theorem setLeader_of_fits (h : initialized.AssignmentFits ⟨id⟩) :
    setLeader postcard trySend describe (some initialized) pointer =
      ⟨some (initialized.assigned ⟨id⟩), 0,
        (initialized.state.leaderElection.setLeader ⟨id⟩).notice,
        (initialized.state.transport.broadcast trySend
          { msgType := 0x0022, flags := 0, payload := initialized.assignment ⟨id⟩ } none).1⟩ := by
  have hencoded := encode_assignment hpostcard initialized ⟨id⟩
  rw [if_pos h] at hencoded
  simp only [setLeader, hid, hencoded]
  rfl

/-- Too large for the limit: an error, and the node has the new leader. -/
theorem setLeader_of_not_fits (h : ¬ initialized.AssignmentFits ⟨id⟩) :
    setLeader postcard trySend describe (some initialized) pointer =
      ⟨some (initialized.assigned ⟨id⟩), -8,
        (initialized.state.leaderElection.setLeader ⟨id⟩).notice, []⟩ := by
  have hencoded := encode_assignment hpostcard initialized ⟨id⟩
  rw [if_neg h] at hencoded
  simp only [setLeader, hid, hencoded]
  rfl

end

/-- No id comes out of a null pointer or of bytes that are not UTF-8. -/
theorem cStrToString_error {describe : List UInt8 → String} {pointer : Option (List UInt8)}
    {e : MessageError} (h : cStrToString describe pointer = .error e) :
    ∃ msg, e = .invalidArgument msg := by
  cases pointer with
  | none => exact ⟨_, (Except.error.inj h).symm⟩
  | some bytes =>
    simp only [cStrToString] at h
    split at h
    · cases h
    · exact ⟨_, (Except.error.inj h).symm⟩

theorem setLeader_of_error (postcard : Postcard) (trySend : TrySend) {describe : List UInt8 → String}
    (network : Option InitializedNetwork) {pointer : Option (List UInt8)} {e : MessageError}
    (h : cStrToString describe pointer = .error e) :
    setLeader postcard trySend describe network pointer = ⟨network, -3, none, []⟩ := by
  obtain ⟨msg, rfl⟩ := cStrToString_error h
  simp only [setLeader, h]
  rfl

/-- On every initialised node and for every C string: `SetLeader` changes nothing when it returns
an error and broadcasts the assignment when it returns `OK`, if and only if the string gives no id
or one whose `LeaderAssign` is within `max_message_size`. -/
theorem set_leader_all_or_nothing_iff {postcard : Postcard} (hpostcard : postcard.WritesAssign)
    (trySend : TrySend) (describe : List UInt8 → String) (initialized : InitializedNetwork)
    (pointer : Option (List UInt8)) :
    AllOrNothing trySend initialized (cStrToString describe pointer)
        (setLeader postcard trySend describe (some initialized) pointer) ↔
      ∀ id, cStrToString describe pointer = .ok id → initialized.AssignmentFits ⟨id⟩ := by
  constructor
  · intro h id hid
    by_contra hfits
    rw [setLeader_of_not_fits hpostcard trySend describe initialized hid hfits] at h
    have hcode : (-8 : Int32) ≠ 0 := by decide
    obtain ⟨hnetwork, -, -⟩ := h.failed hcode
    exact initialized.assigned_ne ⟨id⟩ (Option.some.inj hnetwork)
  · intro h
    cases hid : cStrToString describe pointer with
    | error e =>
      rw [setLeader_of_error postcard trySend (some initialized) hid]
      constructor
      · intro _
        exact ⟨rfl, rfl, rfl⟩
      · intro hcode
        have hrefused : (-3 : Int32) ≠ 0 := by decide
        exact absurd hcode hrefused
    | ok id =>
      rw [setLeader_of_fits hpostcard trySend describe initialized hid (h id hid)]
      constructor
      · intro hcode
        exact absurd rfl hcode
      · intro _
        exact ⟨id, rfl, rfl⟩

def assigningPostcard : Postcard where
  toAllocvec
    | .leaderAssign term leaderId assignerId => .ok (assignBytes term leaderId assignerId)
    | _ => .error "unsupported"
  fromBytes _ := .error "unsupported"

/-- Node `a` with this size limit, all else by default. -/
def sampleNetwork (maxMessageSize : UInt32)
    (valid : { NetworkConfig.default with maxMessageSize }.validate = .ok ()) :
    InitializedNetwork :=
  ⟨.new ⟨"a"⟩ "room" 4000 true 500 3 true .hold, { NetworkConfig.default with maxMessageSize }, valid⟩

theorem length_stringBytes (s : String) :
    (stringBytes s).length = (varint s.utf8ByteSize).length + s.utf8ByteSize := by
  have hbytes : s.toUTF8.data.toList.length = s.utf8ByteSize := rfl
  rw [stringBytes, List.length_append, hbytes]

theorem length_assignBytes_le {term : UInt64} {leaderId assignerId : PeerId}
    (hleader : leaderId.id.utf8ByteSize < 128) (hassigner : assignerId.id.utf8ByteSize < 128) :
    (assignBytes term leaderId assignerId).length ≤
      13 + leaderId.id.utf8ByteSize + assignerId.id.utf8ByteSize := by
  have hterm : (varint term.toNat).length ≤ 10 :=
    varint_length_le 9 (term.toNat_lt.trans (by decide))
  have hleaderLength := varint_length_le 0 hleader
  have hassignerLength := varint_length_le 0 hassigner
  simp only [assignBytes, List.length_cons, List.length_append, length_stringBytes]
  omega

theorem lt_length_assignBytes (term : UInt64) (leaderId assignerId : PeerId) :
    leaderId.id.utf8ByteSize < (assignBytes term leaderId assignerId).length := by
  simp only [assignBytes, List.length_cons, List.length_append, length_stringBytes]
  omega

theorem InitializedNetwork.assignmentFits_iff {self : InitializedNetwork} {leaderId : PeerId}
    (h : (self.assignment leaderId).length < 2 ^ 32) :
    self.AssignmentFits leaderId ↔
      (self.assignment leaderId).length ≤ self.config.maxMessageSize.toNat := by
  rw [AssignmentFits, UInt32.le_iff_toNat_le, UInt32.toNat_ofNat_of_lt' h]

theorem set_leader_broadcasts_within_limit :
    let initialized := sampleNetwork 16 rfl
    let pointer := some "b".toUTF8.data.toList
    AllOrNothing (fun _ => .ok ()) initialized (cStrToString (fun _ => "") pointer)
      (setLeader assigningPostcard (fun _ => .ok ()) (fun _ => "") (some initialized) pointer) := by
  intro initialized pointer
  have hlength : (initialized.assignment ⟨"b"⟩).length ≤ 15 :=
    length_assignBytes_le (by decide) (by decide)
  have hlimit : initialized.config.maxMessageSize.toNat = 16 := rfl
  refine (set_leader_all_or_nothing_iff (fun _ _ _ => rfl) _ _ initialized pointer).mpr ?_
  intro id hid
  have hb : "b" = id := Except.ok.inj ((cStrToString_toUTF8 _ "b").symm.trans hid)
  rw [← hb, InitializedNetwork.assignmentFits_iff (by omega)]
  omega

/-- Seventeen bytes of id where sixteen are allowed for the message: an error, with the new leader
in place and announced, and nothing for the peers. -/
theorem oversized_leader_stays_assigned :
    let initialized := sampleNetwork 16 rfl
    let pointer := some "seventeen-letters".toUTF8.data.toList
    let call := setLeader assigningPostcard (fun _ => .ok ()) (fun _ => "") (some initialized) pointer
    call.code = -8 ∧ call.notice = some (some ⟨"seventeen-letters"⟩) ∧ call.enqueued = [] ∧
      (∃ after ∈ call.network,
        after.state.leaderElection.leaderId = some ⟨"seventeen-letters"⟩ ∧
          after.state.leaderElection.currentTerm = 1 ∧
          after.state.leaderElection.state.manualOverride = true) ∧
      ¬ AllOrNothing (fun _ => .ok ()) initialized (cStrToString (fun _ => "") pointer) call := by
  intro initialized pointer call
  have hlength : (initialized.assignment ⟨"seventeen-letters"⟩).length ≤ 31 :=
    length_assignBytes_le (by decide) (by decide)
  have hover : 17 < (initialized.assignment ⟨"seventeen-letters"⟩).length :=
    lt_length_assignBytes _ ⟨"seventeen-letters"⟩ _
  have hlimit : initialized.config.maxMessageSize.toNat = 16 := rfl
  have hlarge : ¬ initialized.AssignmentFits ⟨"seventeen-letters"⟩ := by
    rw [InitializedNetwork.assignmentFits_iff (by omega)]
    omega
  have hcall : call = ⟨some (initialized.assigned ⟨"seventeen-letters"⟩), -8,
      some (some ⟨"seventeen-letters"⟩), []⟩ :=
    setLeader_of_not_fits (fun _ _ _ => rfl) _ _ initialized (cStrToString_toUTF8 _ _) hlarge
  rw [hcall]
  refine ⟨rfl, rfl, rfl, ⟨_, rfl, rfl, rfl, rfl⟩, ?_⟩
  intro h
  have hcode : (-8 : Int32) ≠ 0 := by decide
  exact initialized.assigned_ne _ (Option.some.inj (h.failed hcode).1)

end MetaMystia

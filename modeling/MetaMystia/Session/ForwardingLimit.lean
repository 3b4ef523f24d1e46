import MetaMystia.Library.Varint
import MetaMystia.Session.Router
import MetaMystia.Transport.UserMessages

/-! # The size limit of a centralized broadcast

A broadcast is limited by the size of its payload. Where it goes to the leader first,
the limit applies to the `ForwardedUserData` message around the payload.
-/

namespace MetaMystia

/-- `ForwardedUserData` as `postcard` writes it: the variant, then the fields in order, a byte vector
and a string as their length and their bytes, a `u8` as it is. -/
def forwardedBytes (fromPeerId : PeerId) (originalMsgType : UInt16) (originalFlags : UInt8)
    (payload : List UInt8) : List UInt8 :=
  11 :: varint fromPeerId.id.utf8ByteSize ++ fromPeerId.id.toUTF8.data.toList ++
    varint originalMsgType.toNat ++ originalFlags :: varint payload.length ++ payload

theorem forwardedBytes_length_le {fromPeerId : PeerId} {msgType : UInt16} {flags : UInt8}
    {payload : List UInt8} (hid : fromPeerId.id.utf8ByteSize < 2 ^ 32) (hpayload : payload.length < 2 ^ 32) :
    (forwardedBytes fromPeerId msgType flags payload).length ≤
      payload.length + fromPeerId.id.utf8ByteSize + 15 := by
  have hidVarint := varint_length_le (n := fromPeerId.id.utf8ByteSize) 4 (by omega)
  have htypeVarint := varint_length_le (n := msgType.toNat) 2 (by have := msgType.toNat_lt; omega)
  have hpayloadVarint := varint_length_le (n := payload.length) 4 (by omega)
  have hbytes : fromPeerId.id.toUTF8.data.toList.length = fromPeerId.id.utf8ByteSize := rfl
  simp only [forwardedBytes, List.length_cons, List.length_append, hbytes]
  omega

def Postcard.WritesForwarded (postcard : Postcard) : Prop :=
  ∀ fromPeerId msgType flags payload,
    postcard.toAllocvec (.forwardedUserData fromPeerId msgType flags payload) =
      .ok (forwardedBytes fromPeerId msgType flags payload)

/-- `try_send` fails only on a full queue and on a closed one. -/
def TrySend.Queues (trySend : TrySend) : Prop :=
  ∀ token e, trySend token = .error e →
    e = .sendQueueFull ∨ e = .connectionFailed "send channel closed"

namespace SessionRouter

def forwards (router : SessionRouter) : Bool := router.centralizedMode && !router.isLeader

def RejectsSize (lz4 : Lz4) (postcard : Postcard) (trySend : TrySend) (router : SessionRouter)
    (msgType : UInt16) (data : List UInt8) (userFlags : UInt8) : Prop :=
  ∃ length, router.routeMessage lz4 postcard trySend .broadcast msgType data userFlags =
    .error (.messageTooLarge length)

def WrapperFits (router : SessionRouter) (msgType : UInt16) (data : List UInt8) (userFlags : UInt8) :
    Prop :=
  UInt32.ofNat (forwardedBytes router.localPeerId msgType (userFlags &&& 0xFE) data).length ≤
    router.maxMessageSize

variable {lz4 : Lz4} {postcard : Postcard} {trySend : TrySend} {router : SessionRouter}
  {msgType : UInt16} {data : List UInt8} {userFlags : UInt8}

theorem sendToPeer_not_tooLarge {manager : TransportManager} {peerId : PeerId} {packet : RawPacket}
    {length : UInt32} (hqueues : trySend.Queues) :
    manager.sendToPeer trySend peerId packet ≠ .error (.messageTooLarge length) := by
  unfold TransportManager.sendToPeer
  cases manager.connections.lookup peerId with
  | none => exact nofun
  | some conn =>
    cases htry : trySend (conn.queueFor packet) with
    | ok _ => simp [htry, Except.map]
    | error e => cases hqueues _ e htry <;> simp_all [Except.map]

theorem routeMessage_direct (hmsg : userMessageStart ≤ msgType) (hdirect : router.forwards = false) :
    router.routeMessage lz4 postcard trySend .broadcast msgType data userFlags =
      (encodePacket lz4 msgType data (userFlags &&& 0xFE) router.compressionThreshold
        router.maxMessageSize).map fun packet => (router.transport.broadcast trySend packet none).1 := by
  have hmode : (router.centralizedMode && !router.isLeader) = false := hdirect
  simp only [routeMessage, if_neg (UInt16.not_lt.mpr hmsg), hmode, Bool.false_eq_true, if_false]

theorem routeMessage_forwarded (hmsg : userMessageStart ≤ msgType) (hforwards : router.forwards = true) :
    router.routeMessage lz4 postcard trySend .broadcast msgType data userFlags =
      match router.leaderId with
      | some leader =>
        (encodeInternal postcard (.forwardedUserData router.localPeerId msgType (userFlags &&& 0xFE) data)
          router.maxMessageSize).bind (router.transport.sendToPeer trySend leader)
      | none => .error .notLeader := by
  have hmode : (router.centralizedMode && !router.isLeader) = true := hforwards
  cases hleader : router.leaderId with
  | none => simp only [routeMessage, if_neg (UInt16.not_lt.mpr hmsg), hmode, if_true, hleader]
  | some leader => simp only [routeMessage, if_neg (UInt16.not_lt.mpr hmsg), hmode, if_true, hleader]

theorem not_rejectsSize_of_direct (hmsg : userMessageStart ≤ msgType)
    (hdata : data.length ≤ router.maxMessageSize.toNat) (hdirect : router.forwards = false) :
    ¬ router.RejectsSize lz4 postcard trySend msgType data userFlags := by
  rintro ⟨length, h⟩
  have hlength : data.length < 2 ^ 32 := hdata.trans_lt router.maxMessageSize.toNat_lt
  have hsize : UInt32.ofNat data.length ≤ router.maxMessageSize := by
    rw [UInt32.le_iff_toNat_le, toNat_ofNat_length hlength]
    exact hdata
  obtain ⟨packet, hpacket⟩ : ∃ packet, encodePacket lz4 msgType data (userFlags &&& 0xFE)
      router.compressionThreshold router.maxMessageSize = .ok packet := exists_encodePacket hmsg hsize
  rw [routeMessage_direct hmsg hdirect, hpacket] at h
  cases h

theorem rejectsSize_iff_of_forwards (hpostcard : postcard.WritesForwarded) (hqueues : trySend.Queues)
    (hmsg : userMessageStart ≤ msgType) (hforwards : router.forwards = true)
    (hleader : router.leaderId ≠ none) :
    router.RejectsSize lz4 postcard trySend msgType data userFlags ↔
      ¬ router.WrapperFits msgType data userFlags := by
  obtain ⟨leader, hleader⟩ := Option.ne_none_iff_exists'.mp hleader
  simp only [RejectsSize, routeMessage_forwarded hmsg hforwards, hleader, encodeInternal,
    hpostcard _ _ _ _, WrapperFits, UInt32.not_le]
  split_ifs with hlarge
  · exact iff_of_true ⟨_, rfl⟩ hlarge
  · refine iff_of_false ?_ hlarge
    rintro ⟨length, h⟩
    exact sendToPeer_not_tooLarge hqueues h

theorem not_wrapperFits_of_full (hdata : data.length = router.maxMessageSize.toNat)
    (hlength : (forwardedBytes router.localPeerId msgType (userFlags &&& 0xFE) data).length < 2 ^ 32) :
    ¬ router.WrapperFits msgType data userFlags := by
  unfold WrapperFits
  rw [UInt32.le_iff_toNat_le, toNat_ofNat_length hlength, ← hdata]
  simp only [forwardedBytes, List.length_cons, List.length_append]
  omega

/-- A payload that is 15 bytes and the length of the id below the limit fits. -/
theorem wrapperFits_of_room (hid : router.localPeerId.id.utf8ByteSize < 2 ^ 32)
    (hdata : data.length + router.localPeerId.id.utf8ByteSize + 15 ≤ router.maxMessageSize.toNat) :
    router.WrapperFits msgType data userFlags := by
  have hmax := router.maxMessageSize.toNat_lt
  have hlength : (forwardedBytes router.localPeerId msgType (userFlags &&& 0xFE) data).length ≤
      data.length + router.localPeerId.id.utf8ByteSize + 15 := forwardedBytes_length_le hid (by omega)
  unfold WrapperFits
  rw [UInt32.le_iff_toNat_le, toNat_ofNat_length (by omega)]
  omega

theorem rejectsSize_iff (hpostcard : postcard.WritesForwarded) (hqueues : trySend.Queues)
    (hmsg : userMessageStart ≤ msgType) (hdata : data.length ≤ router.maxMessageSize.toNat)
    (hleader : router.forwards = true → router.leaderId ≠ none) :
    router.RejectsSize lz4 postcard trySend msgType data userFlags ↔
      router.forwards = true ∧ ¬ router.WrapperFits msgType data userFlags := by
  cases hforwards : router.forwards with
  | false => simp [not_rejectsSize_of_direct hmsg hdata hforwards]
  | true => simp [rejectsSize_iff_of_forwards hpostcard hqueues hmsg hforwards (hleader hforwards)]

/-- Two nodes that differ in the centralized mode and in the role only reject the same broadcasts as
too large, except for those that just one of them forwards and whose wrapper does not fit. -/
theorem too_large_independent_of_mode_iff {other : SessionRouter}
    (hother : other = { router with
      centralizedMode := other.centralizedMode
      leaderElection := other.leaderElection })
    (hpostcard : postcard.WritesForwarded) (hqueues : trySend.Queues)
    (hmsg : userMessageStart ≤ msgType) (hdata : data.length ≤ router.maxMessageSize.toNat)
    (hleader : router.forwards = true → router.leaderId ≠ none)
    (hleader' : other.forwards = true → other.leaderId ≠ none) :
    (router.RejectsSize lz4 postcard trySend msgType data userFlags ↔
        other.RejectsSize lz4 postcard trySend msgType data userFlags) ↔
      router.WrapperFits msgType data userFlags ∨ router.forwards = other.forwards := by
  have hsize : other.maxMessageSize = router.maxMessageSize := by rw [hother]
  have hlocal : other.localPeerId = router.localPeerId := by rw [hother]
  have hfits : other.WrapperFits msgType data userFlags ↔ router.WrapperFits msgType data userFlags := by
    simp only [WrapperFits, hsize, hlocal]
  rw [rejectsSize_iff hpostcard hqueues hmsg hdata hleader,
    rejectsSize_iff hpostcard hqueues hmsg (hsize ▸ hdata) hleader', hfits]
  by_cases hwrapper : router.WrapperFits msgType data userFlags
  · simp [hwrapper]
  · simp only [hwrapper, not_false_eq_true, and_true, false_or]
    exact Bool.eq_iff_iff.symm

def forwardingPostcard : Postcard where
  toAllocvec
    | .forwardedUserData fromPeerId msgType flags payload =>
      .ok (forwardedBytes fromPeerId msgType flags payload)
    | _ => .error "unsupported"
  fromBytes _ := .error "unsupported"

def sampleFollower (centralizedMode : Bool) (maxMessageSize : UInt32) : SessionRouter where
  localPeerId := ⟨"b"⟩
  transport := .new ⟨"b"⟩ "session" 4000 true
  leaderElection := ((LeaderElection.new ⟨"b"⟩ true .hold).setLeader ⟨"a"⟩).election
  centralizedMode
  centralizedAutoForward := true
  compressionThreshold := 512
  maxMessageSize

theorem small_message_independent_of_mode :
    (sampleFollower true 64).RejectsSize literalBlock forwardingPostcard (fun _ => .ok ()) 0x0100
        [104, 105] 0 ↔
      (sampleFollower false 64).RejectsSize literalBlock forwardingPostcard (fun _ => .ok ()) 0x0100
        [104, 105] 0 := by
  have hleader (centralizedMode : Bool) : (sampleFollower centralizedMode 64).leaderId ≠ none := by
    cases centralizedMode <;> decide
  have hfits : (sampleFollower true 64).WrapperFits 0x0100 [104, 105] 0 := by
    exact wrapperFits_of_room (by decide) (by decide)
  have hqueues : TrySend.Queues fun _ => .ok () := by simp [TrySend.Queues]
  exact (too_large_independent_of_mode_iff rfl (fun _ _ _ _ => rfl) hqueues (by decide) (by decide)
    (fun _ => hleader true) (fun _ => hleader false)).mpr (.inl hfits)

/-- Eight bytes where eight are allowed: the wrapper has fifteen. -/
theorem full_message_rejected_in_centralized_mode :
    ¬ ∀ (lz4 : Lz4) (postcard : Postcard) (trySend : TrySend) (router other : SessionRouter)
        (msgType : UInt16) (data : List UInt8) (userFlags : UInt8),
      other = { router with
        centralizedMode := other.centralizedMode
        leaderElection := other.leaderElection } →
      postcard.WritesForwarded → trySend.Queues → userMessageStart ≤ msgType →
      data.length ≤ router.maxMessageSize.toNat → router.leaderId ≠ none → other.leaderId ≠ none →
      (router.RejectsSize lz4 postcard trySend msgType data userFlags ↔
        other.RejectsSize lz4 postcard trySend msgType data userFlags) := by
  intro h
  let data : List UInt8 := List.replicate 8 0
  have hqueues : TrySend.Queues fun _ => .ok () := by simp [TrySend.Queues]
  have hpostcard : forwardingPostcard.WritesForwarded := fun _ _ _ _ => rfl
  have hsame := h literalBlock forwardingPostcard (fun _ => .ok ()) (sampleFollower true 8)
    (sampleFollower false 8) 0x0100 data 0 rfl hpostcard hqueues (by decide) (by decide) (by decide)
    (by decide)
  rw [rejectsSize_iff hpostcard hqueues (by decide) (by decide) (fun _ => by decide),
    rejectsSize_iff hpostcard hqueues (by decide) (by decide) (fun _ => by decide)] at hsame
  have hfull : ¬ (sampleFollower true 8).WrapperFits 0x0100 data 0 :=
    not_wrapperFits_of_full rfl
      ((forwardedBytes_length_le (by decide) (by decide)).trans_lt (by decide))
  exact absurd (hsame.mp ⟨by decide, hfull⟩).1 (by decide)

end SessionRouter

end MetaMystia

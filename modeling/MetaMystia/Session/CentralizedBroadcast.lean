import MetaMystia.Library.Runs
import MetaMystia.Session.Router
import MetaMystia.Transport.UserMessages
import Mathlib.Data.List.InsertIdx
import Mathlib.Data.List.Perm.Basic

/-! # Broadcast in centralized mode

A follower wraps its message for the leader, which delivers it and sends it on to
the others; the leader sends its own messages directly. Packets are handled in
any order.
-/

namespace MetaMystia

open Runs

/-- The nodes of a session, and what their queues and their serializers do. -/
structure Session where
  members : Finset PeerId
  router : PeerId → SessionRouter
  trySend : PeerId → TrySend
  lz4 : Lz4
  postcard : Postcard

/-- The packets on their way, each with its sender and its receiver, and the events so far. -/
structure Traffic where
  inFlight : List (PeerId × PeerId × RawPacket)
  received : PeerId → List Received

namespace Session

variable (session : Session)

/-- The frame that the receiver decodes; `none` if one of the codecs refuses the packet. -/
def transmit (src dst : PeerId) (packet : RawPacket) : Option RawPacket :=
  match PacketCodec.encode ⟨(session.router src).maxMessageSize⟩ packet [] with
  | .ok bytes =>
    match PacketCodec.decode ⟨(session.router dst).maxMessageSize⟩ bytes with
    | .ok (some (packet, _)) => some packet
    | _ => none
  | .error _ => none

def routeMessage (x : PeerId) (target : MessageTarget) (msgType : UInt16) (data : List UInt8)
    (userFlags : UInt8) : Except MessageError (List (PeerId × RawPacket)) :=
  (session.router x).routeMessage session.lz4 session.postcard (session.trySend x) target msgType data userFlags

def handleMessage (dst src : PeerId) (packet : RawPacket) :
    List (PeerId × RawPacket) × List Received :=
  (session.router dst).handleMessage session.lz4 session.postcard (session.trySend dst) src packet

def outgoing (src : PeerId) (sends : List (PeerId × RawPacket)) : List (PeerId × PeerId × RawPacket) :=
  sends.map fun send => (src, send.1, send.2)

def started (x : PeerId) (sends : List (PeerId × RawPacket)) : Traffic :=
  ⟨outgoing x sends, fun _ => []⟩

/-- The packet at position `k` arrives and is handled. -/
def step (s : Traffic) (k : Nat) : Option Traffic :=
  match s.inFlight[k]? with
  | some (src, dst, packet) =>
    (session.transmit src dst packet).map fun packet =>
      { inFlight := s.inFlight.eraseIdx k ++ outgoing dst (session.handleMessage dst src packet).1
        received := Function.update s.received dst
          (s.received dst ++ (session.handleMessage dst src packet).2) }
  | none => none

/-- Fully connected, with queues that have room, centralized, and agreed on the leader. -/
structure Centralized (leader : PeerId) : Prop where
  leader_mem : leader ∈ session.members
  localPeerId : ∀ p ∈ session.members, (session.router p).localPeerId = p
  connected : ∀ p ∈ session.members, ∀ q,
    q ∈ (session.router p).transport.connections ↔ q ∈ session.members ∧ q ≠ p
  status : ∀ p ∈ session.members, ∀ entry ∈ (session.router p).transport.connections.entries,
    entry.2.info.status = .connected
  room : ∀ p token, session.trySend p token = .ok ()
  centralizedMode : ∀ p ∈ session.members, (session.router p).centralizedMode = true
  leaderId : ∀ p ∈ session.members, (session.router p).leaderId = some leader
  isLeader : ∀ p ∈ session.members, (session.router p).isLeader = true ↔ p = leader

/-- A user message of `x` whose `ForwardedUserData` fits everywhere and survives `postcard`, and
whose data survive `lz4_flex`. `postcard` writes the payload out in full. -/
structure Deliverable (x : PeerId) (msgType : UInt16) (data : List UInt8) (userFlags : UInt8) :
    Prop where
  user : userMessageStart ≤ msgType
  forwarded : ∃ bytes,
    session.postcard.toAllocvec (.forwardedUserData x msgType (userFlags &&& 0xFE) data) = .ok bytes ∧
    session.postcard.fromBytes bytes =
      .ok (.forwardedUserData x msgType (userFlags &&& 0xFE) data) ∧
    data.length ≤ bytes.length ∧
    ∀ p ∈ session.members, bytes.length ≤ (session.router p).maxMessageSize.toNat
  lz4 : session.lz4.decompressSizePrepended (session.lz4.compressPrependSize data) = .ok data

section

variable {session : Session} {src dst : PeerId} {packet : RawPacket} {s t : Traffic}

def Fits (session : Session) (packet : RawPacket) : Prop :=
  ∀ p ∈ session.members, packet.payload.length ≤ (session.router p).maxMessageSize.toNat

theorem transmit_eq (hfits : session.Fits packet) (hsrc : src ∈ session.members)
    (hdst : dst ∈ session.members) : session.transmit src dst packet = some packet := by
  unfold transmit
  rw [PacketCodec.encode_eq_frame (hfits src hsrc)]
  have hdecode : PacketCodec.decode ⟨(session.router dst).maxMessageSize⟩
      (PacketCodec.frame packet ++ []) = .ok (some (packet, [])) :=
    PacketCodec.decode_frame (hfits dst hdst) []
  rw [List.append_nil] at hdecode
  simp only [List.nil_append, hdecode]

theorem step_eq {k : Nat} (hk : s.inFlight[k]? = some (src, dst, packet)) (hfits : session.Fits packet)
    (hsrc : src ∈ session.members) (hdst : dst ∈ session.members) :
    session.step s k = some
      { inFlight := s.inFlight.eraseIdx k ++ outgoing dst (session.handleMessage dst src packet).1
        received := Function.update s.received dst
          (s.received dst ++ (session.handleMessage dst src packet).2) } := by
  simp only [step, hk, transmit_eq hfits hsrc hdst, Option.map_some]

/-- The user packet is on its way from `src` to each of `todo`; every node that handles it gets
`event`, and in the end each node has the events of `expected`. -/
structure LastHop (session : Session) (src : PeerId) (packet : RawPacket) (event : Received)
    (expected : PeerId → List Received) (todo : List PeerId) (s : Traffic) : Prop where
  inFlight : s.inFlight = outgoing src (todo.map fun dst => (dst, packet))
  members : ∀ dst ∈ todo, dst ∈ session.members
  received : ∀ p, s.received p ++ List.replicate (todo.count p) event = expected p

variable {event : Received} {expected : PeerId → List Received} {todo : List PeerId}

theorem LastHop.step_eq (hs : LastHop session src packet event expected todo s) {k : Nat}
    (hk : todo[k]? = some dst) (hsrc : src ∈ session.members) (hfits : session.Fits packet)
    (hhandle : ∀ p, session.handleMessage p src packet = ([], [event])) :
    ∃ t, session.step s k = some t ∧
      LastHop session src packet event expected (todo.eraseIdx k) t := by
  have hdst : dst ∈ todo := List.mem_of_getElem? hk
  have hflight : s.inFlight[k]? = some (src, dst, packet) := by
    simp [hs.inFlight, outgoing, hk]
  have hcount : ∀ p, todo.count p = (todo.eraseIdx k).count p + if dst = p then 1 else 0 := by
    intro p
    obtain ⟨hlength, rfl⟩ := List.getElem?_eq_some_iff.mp hk
    rw [← (List.getElem_cons_eraseIdx_perm hlength).count_eq p, List.count_cons]
    simp
  refine ⟨_, Session.step_eq hflight hfits hsrc (hs.members dst hdst), ?_, ?_, ?_⟩
  · simp [hhandle, hs.inFlight, outgoing, List.eraseIdx_map]
  · intro p hp
    exact hs.members p (List.mem_of_mem_eraseIdx hp)
  · intro p
    rw [← hs.received p, hcount p, hhandle]
    by_cases hp : dst = p
    · subst hp
      simp [List.replicate_succ]
    · simp only [Function.update_of_ne (Ne.symm hp), if_neg hp, Nat.add_zero]

theorem LastHop.received_of_run (hs : LastHop session src packet event expected todo s)
    (hsrc : src ∈ session.members) (hfits : session.Fits packet)
    (hhandle : ∀ p, session.handleMessage p src packet = ([], [event]))
    {order : List Nat} (hrun : run session.step s order = some t) :
    ∃ todo, LastHop session src packet event expected todo t := by
  refine invariant (P := fun _ _ => True) (I := fun s => ∃ todo, LastHop session src packet event
    expected todo s) ?_ ⟨todo, hs⟩ (along_of_forall (fun _ _ => trivial) _ _) hrun
  rintro s k t ⟨todo, hs⟩ - hstep
  cases hk : todo[k]? with
  | none =>
    have hnone : s.inFlight[k]? = none := by simp [hs.inFlight, outgoing, hk]
    simp [step, hnone] at hstep
  | some dst =>
    obtain ⟨t', ht', hlast⟩ := hs.step_eq hk hsrc hfits hhandle
    obtain rfl : t' = t := Option.some.inj (ht'.symm.trans hstep)
    exact ⟨_, hlast⟩

theorem LastHop.exists_complete (hs : LastHop session src packet event expected todo s)
    (hsrc : src ∈ session.members) (hfits : session.Fits packet)
    (hhandle : ∀ p, session.handleMessage p src packet = ([], [event])) :
    ∃ order t, run session.step s order = some t ∧ t.inFlight = [] := by
  induction todo generalizing s with
  | nil => exact ⟨[], s, rfl, hs.inFlight⟩
  | cons dst rest ih =>
    obtain ⟨m, hm, hlast⟩ := hs.step_eq (k := 0) rfl hsrc hfits hhandle
    obtain ⟨order, t, hrun, hdone⟩ := ih hlast
    exact ⟨0 :: order, t, run_cons_iff.mpr ⟨m, hm, hrun⟩, hdone⟩

theorem LastHop.received_eq (hs : LastHop session src packet event expected todo s)
    (hdone : s.inFlight = []) (p : PeerId) : s.received p = expected p := by
  have htodo : todo = [] := by
    simpa [outgoing, hdone] using hs.inFlight.symm
  simpa [htodo] using hs.received p

variable {leader x : PeerId} {msgType : UInt16} {data : List UInt8} {userFlags : UInt8}

theorem broadcast_eq (hc : session.Centralized leader) (hsrc : src ∈ session.members)
    (packet : RawPacket) (exclude : Option (List PeerId)) :
    ∃ targets : List PeerId,
      ((session.router src).transport.broadcast (session.trySend src) packet exclude).1 =
        targets.map (fun dst => (dst, packet)) ∧
      targets.Nodup ∧
      ∀ q, q ∈ targets ↔ (q ∈ session.members ∧ q ≠ src) ∧
        ¬ exclude.any (fun excluded => excluded.contains q) := by
  let transport := (session.router src).transport
  refine ⟨(transport.broadcastTargets exclude).map Sigma.fst, ?_, ?_, ?_⟩
  · simp [TransportManager.broadcast, hc.room, transport]
  · exact (List.filter_sublist.map _).nodup transport.connections.nodupKeys
  · intro q
    rw [← hc.connected src hsrc q, List.mem_map, AList.mem_keys]
    constructor
    · rintro ⟨entry, hentry, rfl⟩
      obtain ⟨hmem, hkeep⟩ := List.mem_filter.mp hentry
      obtain ⟨_, hkept⟩ := Bool.and_eq_true_iff.mp hkeep
      exact ⟨List.mem_map_of_mem hmem, by simpa using hkept⟩
    · rintro ⟨hmem, hkept⟩
      obtain ⟨entry, hentry, rfl⟩ := List.mem_map.mp hmem
      refine ⟨entry, List.mem_filter.mpr ⟨hentry, ?_⟩, rfl⟩
      rw [hc.status src hsrc entry hentry]
      simpa using hkept

theorem handleMessage_user {compressionThreshold : UInt32}
    (h : Carries session.lz4 msgType data userFlags compressionThreshold packet) (p src : PeerId) :
    session.handleMessage p src packet = ([], [⟨src, data, msgType, packet.flags⟩]) := by
  simp [handleMessage, SessionRouter.handleMessage, h.user, handleUserPacket, h.payload, h.msgType]

theorem Deliverable.data_length (h : session.Deliverable x msgType data userFlags) :
    ∀ p ∈ session.members, data.length ≤ (session.router p).maxMessageSize.toNat := by
  obtain ⟨bytes, _, _, hlength, hfits⟩ := h.forwarded
  intro p hp
  have hbytes := hfits p hp
  omega

theorem exists_packet (h : session.Deliverable x msgType data userFlags)
    (hsrc : src ∈ session.members) (flags : UInt8) :
    ∃ packet,
      encodePacket session.lz4 msgType data flags (session.router src).compressionThreshold
        (session.router src).maxMessageSize = .ok packet ∧
      session.Fits packet ∧
      Carries session.lz4 msgType data flags (session.router src).compressionThreshold packet := by
  have hlength := h.data_length
  have hsize := hlength src hsrc
  have hmax := (session.router src).maxMessageSize.toNat_lt
  obtain ⟨packet, heq, hcarries⟩ := encodePacket_carries session.lz4 flags
    (session.router src).compressionThreshold (session.router src).maxMessageSize h.user
    (by omega) h.lz4 hsize
  exact ⟨packet, heq, fun p hp => hcarries.length.trans (hlength p hp), hcarries⟩

/-- The packets can all be handled, and whatever the order each node ends with `expected`. -/
def Completes (session : Session) (s : Traffic) (expected : PeerId → List Received) : Prop :=
  (∃ order t, run session.step s order = some t ∧ t.inFlight = []) ∧
  ∀ order t, run session.step s order = some t → t.inFlight = [] → ∀ p, t.received p = expected p

theorem completes_nil (received : PeerId → List Received) :
    session.Completes ⟨[], received⟩ received := by
  refine ⟨⟨[], _, rfl, rfl⟩, ?_⟩
  rintro order t hrun - p
  cases order with
  | nil =>
    cases hrun
    rfl
  | cons k rest =>
    obtain ⟨m, hm, _⟩ := run_cons_iff.mp hrun
    cases hm

/-- The last hop: the user packet goes from `src` to each target. -/
theorem completes_lastHop {targets : List PeerId} (received : PeerId → List Received)
    (hsrc : src ∈ session.members) (hfits : session.Fits packet)
    (hhandle : ∀ p, session.handleMessage p src packet = ([], [event]))
    (hmembers : ∀ dst ∈ targets, dst ∈ session.members) (hnodup : targets.Nodup) :
    session.Completes ⟨outgoing src (targets.map fun dst => (dst, packet)), received⟩
      (fun p => received p ++ if p ∈ targets then [event] else []) := by
  have hstart : LastHop session src packet event
      (fun p => received p ++ if p ∈ targets then [event] else []) targets
      ⟨outgoing src (targets.map fun dst => (dst, packet)), received⟩ := by
    refine ⟨rfl, hmembers, ?_⟩
    intro p
    rw [hnodup.count]
    split <;> rfl
  refine ⟨hstart.exists_complete hsrc hfits hhandle, ?_⟩
  intro order t hrun hdone p
  obtain ⟨todo, ht⟩ := hstart.received_of_run hsrc hfits hhandle hrun
  exact ht.received_eq hdone p

/-- The first hop: a single packet, handled at the leader. -/
theorem completes_firstHop {send : PeerId × PeerId × RawPacket} {received : PeerId → List Received}
    (hstep : session.step ⟨[send], received⟩ 0 = some t) (ht : session.Completes t expected) :
    session.Completes ⟨[send], received⟩ expected := by
  obtain ⟨⟨order, u, hrun, hdone⟩, hall⟩ := ht
  refine ⟨⟨0 :: order, u, run_cons_iff.mpr ⟨t, hstep, hrun⟩, hdone⟩, ?_⟩
  intro order u hrun hdone
  cases order with
  | nil =>
    cases hrun
    cases hdone
  | cons k rest =>
    obtain ⟨m, hm, hrest⟩ := run_cons_iff.mp hrun
    cases k with
    | zero =>
      obtain rfl : t = m := Option.some.inj (hstep.symm.trans hm)
      exact hall rest u hrest hdone
    | succ k => cases hm

/-- The packet that takes a follower's message to the leader. -/
def wrapped (bytes : List UInt8) : RawPacket := { msgType := 0x0030, flags := 0, payload := bytes }

theorem routeMessage_follower (hc : session.Centralized leader) (hx : x ∈ session.members)
    (hne : x ≠ leader) (hm : session.Deliverable x msgType data userFlags) {bytes : List UInt8}
    (hbytes : session.postcard.toAllocvec
      (.forwardedUserData x msgType (userFlags &&& 0xFE) data) = .ok bytes)
    (hfits : session.Fits (wrapped bytes)) :
    session.routeMessage x .broadcast msgType data userFlags = .ok [(leader, wrapped bytes)] := by
  have hleader : (session.router x).isLeader = false := by
    simpa using mt (hc.isLeader x hx).mp hne
  have hsize : ¬ (session.router x).maxMessageSize < UInt32.ofNat bytes.length := by
    have hmax := (session.router x).maxMessageSize.toNat_lt
    have hx' : bytes.length ≤ (session.router x).maxMessageSize.toNat := hfits x hx
    rw [lt_ofNat_length_iff _ (by omega)]
    omega
  obtain ⟨conn, hconn⟩ : ∃ conn, (session.router x).transport.connections.lookup leader = some conn := by
    apply Option.isSome_iff_exists.mp
    rw [AList.lookup_isSome]
    exact (hc.connected x hx leader).mpr ⟨hc.leader_mem, Ne.symm hne⟩
  have hencode : encodeInternal session.postcard
      (.forwardedUserData x msgType (userFlags &&& 0xFE) data) (session.router x).maxMessageSize =
      .ok (wrapped bytes) := by
    simp only [encodeInternal, hbytes, if_neg hsize]
    rfl
  have hsend : (session.router x).transport.sendToPeer (session.trySend x) leader (wrapped bytes) =
      .ok [(leader, wrapped bytes)] := by
    simp only [TransportManager.sendToPeer, hconn, hc.room]
    rfl
  simp only [routeMessage, SessionRouter.routeMessage, if_neg (UInt16.not_lt.mpr hm.user),
    hc.centralizedMode x hx, hleader, hc.leaderId x hx, hc.localPeerId x hx, hencode]
  exact hsend

/-- What the leader sends on for a follower. -/
def forwards (session : Session) (leader x : PeerId) (msgType : UInt16) (data : List UInt8)
    (flags : UInt8) : List (PeerId × RawPacket) :=
  ((session.router leader).handleForwardedUserData session.lz4 (session.trySend leader) x msgType
    flags data).2

theorem handleMessage_wrapped {bytes : List UInt8}
    (hbytes : session.postcard.fromBytes bytes =
      .ok (.forwardedUserData x msgType (userFlags &&& 0xFE) data)) :
    session.handleMessage leader src (wrapped bytes) =
      (session.forwards leader x msgType data (userFlags &&& 0xFE),
        [⟨x, data, msgType, userFlags &&& 0xFE⟩]) := by
  have hinternal : (wrapped bytes).isInternal = true := rfl
  have hplain : ¬ (userFlags &&& 0xFE) &&& 0x01 ≠ 0 :=
    not_not_intro (flags_without_compression userFlags).1
  have hdecode : decodeInternal session.postcard (wrapped bytes) =
      .ok (.forwardedUserData x msgType (userFlags &&& 0xFE) data) := by
    simp only [decodeInternal, wrapped, hbytes]
  simp only [handleMessage, SessionRouter.handleMessage, hinternal, hdecode, if_true, forwards,
    SessionRouter.handleForwardedUserData, decodePayload, RawPacket.isCompressed, bne_iff_ne,
    if_neg hplain]

theorem forwards_of_not_autoForward
    (hauto : (session.router leader).centralizedAutoForward = false) (flags : UInt8) :
    session.forwards leader x msgType data flags = [] := by
  simp [forwards, SessionRouter.handleForwardedUserData, hauto]

/-- One user packet that carries the message, sent once to each of the receivers. -/
def Spreads (session : Session) (msgType : UInt16) (data : List UInt8) (flags : UInt8)
    (sends : List (PeerId × RawPacket)) (receivers : PeerId → Prop) : Prop :=
  ∃ (packet : RawPacket) (targets : List PeerId),
    sends = targets.map (fun dst => (dst, packet)) ∧ session.Fits packet ∧
    (∃ threshold, Carries session.lz4 msgType data flags threshold packet) ∧
    targets.Nodup ∧ ∀ q, q ∈ targets ↔ receivers q

theorem broadcast_spreads (hc : session.Centralized leader)
    (hm : session.Deliverable x msgType data userFlags) (hsrc : src ∈ session.members)
    (flags : UInt8) (exclude : Option (List PeerId)) :
    ∃ packet,
      encodePacket session.lz4 msgType data flags (session.router src).compressionThreshold
        (session.router src).maxMessageSize = .ok packet ∧
      session.Spreads msgType data flags
        ((session.router src).transport.broadcast (session.trySend src) packet exclude).1
        (fun q => (q ∈ session.members ∧ q ≠ src) ∧
          ¬ exclude.any (fun excluded => excluded.contains q)) := by
  obtain ⟨packet, hencode, hfits, hcarries⟩ := exists_packet hm hsrc flags
  obtain ⟨targets, hbroadcast, hnodup, hmem⟩ := broadcast_eq hc hsrc packet exclude
  exact ⟨packet, hencode, packet, targets, hbroadcast, hfits, ⟨_, hcarries⟩, hnodup, hmem⟩

theorem Spreads.completes {flags : UInt8} {sends : List (PeerId × RawPacket)}
    {receivers : PeerId → Prop} [DecidablePred receivers]
    (h : session.Spreads msgType data flags sends receivers) (hsrc : src ∈ session.members)
    (hmembers : ∀ q, receivers q → q ∈ session.members) (received : PeerId → List Received) :
    ∃ flags', flags' &&& 0xFE = flags &&& 0xFE ∧
      session.Completes ⟨outgoing src sends, received⟩
        (fun p => received p ++ if receivers p then [⟨src, data, msgType, flags'⟩] else []) := by
  obtain ⟨packet, targets, rfl, hfits, ⟨_, hcarries⟩, hnodup, hmem⟩ := h
  refine ⟨packet.flags, hcarries.flags, ?_⟩
  have hlast := completes_lastHop received hsrc hfits
    (fun p => handleMessage_user hcarries p src)
    (fun dst hdst => hmembers dst ((hmem dst).mp hdst)) hnodup
  simpa only [hmem] using hlast

theorem forwards_of_autoForward (hc : session.Centralized leader)
    (hm : session.Deliverable x msgType data userFlags)
    (hauto : (session.router leader).centralizedAutoForward = true) (flags : UInt8) :
    session.Spreads msgType data (flags &&& 0xFE) (session.forwards leader x msgType data flags)
      (fun q => (q ∈ session.members ∧ q ≠ leader) ∧ q ≠ x) := by
  have hleader : (session.router leader).isLeader = true :=
    (hc.isLeader leader hc.leader_mem).mpr rfl
  obtain ⟨packet, hencode, hspreads⟩ :=
    broadcast_spreads hc hm hc.leader_mem (flags &&& 0xFE) (some [x])
  simp only [forwards, SessionRouter.handleForwardedUserData, SessionRouter.forwardMessage, hleader,
    hauto, hencode, if_neg (UInt16.not_lt.mpr hm.user)]
  simpa [Except.bind] using hspreads

theorem routeMessage_leader (hc : session.Centralized leader)
    (hm : session.Deliverable leader msgType data userFlags) :
    ∃ sends, session.routeMessage leader .broadcast msgType data userFlags = .ok sends ∧
      session.Spreads msgType data (userFlags &&& 0xFE) sends
        (fun q => q ∈ session.members ∧ q ≠ leader) := by
  have hleader : (session.router leader).isLeader = true :=
    (hc.isLeader leader hc.leader_mem).mpr rfl
  obtain ⟨packet, hencode, hspreads⟩ :=
    broadcast_spreads hc hm hc.leader_mem (userFlags &&& 0xFE) none
  refine ⟨_, ?_, by simpa using hspreads⟩
  simp only [routeMessage, SessionRouter.routeMessage, if_neg (UInt16.not_lt.mpr hm.user), hleader,
    hencode, Bool.not_true, Bool.and_false]
  rfl

/-- The events of a broadcast by `x`: the leader gets the message of a follower under the
follower's id, the other followers get what the leader sends, under the leader's id. -/
def outcome (session : Session) (leader x : PeerId) (msgType : UInt16) (data : List UInt8)
    (cleanFlags flags : UInt8) (p : PeerId) : List Received :=
  if p ∈ session.members ∧ p ≠ x then
    if p = leader then [⟨x, data, msgType, cleanFlags⟩]
    else if x = leader ∨ (session.router leader).centralizedAutoForward then
      [⟨leader, data, msgType, flags⟩]
    else []
  else []

theorem broadcast_outcome_leader (hc : session.Centralized leader)
    (hm : session.Deliverable leader msgType data userFlags) :
    ∃ sends flags, session.routeMessage leader .broadcast msgType data userFlags = .ok sends ∧
      flags &&& 0xFE = userFlags &&& 0xFE ∧
      session.Completes (started leader sends)
        (session.outcome leader leader msgType data (userFlags &&& 0xFE) flags) := by
  obtain ⟨sends, hroute, hspreads⟩ := routeMessage_leader hc hm
  obtain ⟨flags, hflags, hcompletes⟩ := hspreads.completes hc.leader_mem
    (fun q hq => hq.1) (fun _ => [])
  refine ⟨sends, flags, hroute, ?_, ?_⟩
  · rw [hflags]
    exact (flags_without_compression userFlags).2
  · have heq : (fun p => [] ++ if p ∈ session.members ∧ p ≠ leader then
        [(⟨leader, data, msgType, flags⟩ : Received)] else []) =
        session.outcome leader leader msgType data (userFlags &&& 0xFE) flags := by
      funext p
      unfold outcome
      split_ifs <;> simp_all
    exact heq ▸ hcompletes

theorem broadcast_outcome_follower (hc : session.Centralized leader) (hx : x ∈ session.members)
    (hne : x ≠ leader) (hm : session.Deliverable x msgType data userFlags) :
    ∃ sends flags, session.routeMessage x .broadcast msgType data userFlags = .ok sends ∧
      flags &&& 0xFE = userFlags &&& 0xFE ∧
      session.Completes (started x sends)
        (session.outcome leader x msgType data (userFlags &&& 0xFE) flags) := by
  obtain ⟨bytes, hencode, hdecode, hlength, hfits⟩ := hm.forwarded
  have hroute := routeMessage_follower hc hx hne hm hencode hfits
  have hstep : session.step (started x [(leader, wrapped bytes)]) 0 = some
      ⟨outgoing leader (session.forwards leader x msgType data (userFlags &&& 0xFE)),
        Function.update (fun _ => []) leader [⟨x, data, msgType, userFlags &&& 0xFE⟩]⟩ := by
    have hfirst : (started x [(leader, wrapped bytes)]).inFlight[0]? =
        some (x, leader, wrapped bytes) := rfl
    rw [step_eq hfirst hfits hx hc.leader_mem, handleMessage_wrapped hdecode]
    rfl
  cases hauto : (session.router leader).centralizedAutoForward with
  | false =>
    rw [forwards_of_not_autoForward hauto] at hstep
    refine ⟨_, userFlags, hroute, rfl, completes_firstHop hstep ?_⟩
    have heq : Function.update (fun _ => []) leader [⟨x, data, msgType, userFlags &&& 0xFE⟩] =
        session.outcome leader x msgType data (userFlags &&& 0xFE) userFlags := by
      funext p
      have hleader := hc.leader_mem
      by_cases hp : p = leader
      · subst hp
        simp [outcome, hleader, Ne.symm hne]
      · simp [outcome, hp, hne, hauto]
    exact heq ▸ completes_nil _
  | true =>
    obtain ⟨flags, hflags, hcompletes⟩ := (forwards_of_autoForward hc hm hauto
      (userFlags &&& 0xFE)).completes hc.leader_mem (fun q hq => hq.1.1)
      (Function.update (fun _ => []) leader [⟨x, data, msgType, userFlags &&& 0xFE⟩])
    refine ⟨_, flags, hroute, ?_, completes_firstHop hstep ?_⟩
    · rw [hflags]
      have hclean := (flags_without_compression userFlags).2
      rw [hclean, hclean]
    · have heq : (fun p =>
          Function.update (fun _ => []) leader [⟨x, data, msgType, userFlags &&& 0xFE⟩] p ++
          if (p ∈ session.members ∧ p ≠ leader) ∧ p ≠ x then
            [(⟨leader, data, msgType, flags⟩ : Received)] else []) =
          session.outcome leader x msgType data (userFlags &&& 0xFE) flags := by
        funext p
        have hleader := hc.leader_mem
        by_cases hp : p = leader
        · subst hp
          simp [outcome, hleader, Ne.symm hne]
        · simp [outcome, hp, hauto]
      exact heq ▸ hcompletes

theorem broadcast_outcome (hc : session.Centralized leader) (hx : x ∈ session.members)
    (hm : session.Deliverable x msgType data userFlags) :
    ∃ sends flags, session.routeMessage x .broadcast msgType data userFlags = .ok sends ∧
      flags &&& 0xFE = userFlags &&& 0xFE ∧
      session.Completes (started x sends)
        (session.outcome leader x msgType data (userFlags &&& 0xFE) flags) := by
  by_cases hne : x = leader
  · subst hne
    exact broadcast_outcome_leader hc hm
  · exact broadcast_outcome_follower hc hx hne hm

def linked : List PeerId → AList fun _ : PeerId => PeerConnection
  | [] => ∅
  | peer :: rest => (linked rest).insert peer ⟨0, none, .new peer "127.0.0.1:4000" 0⟩

theorem mem_linked {peers : List PeerId} {q : PeerId} : q ∈ linked peers ↔ q ∈ peers := by
  induction peers with
  | nil => simp [linked]
  | cons peer rest ih => simp [linked, ih]

theorem status_linked {peers : List PeerId} :
    ∀ entry ∈ (linked peers).entries, entry.2.info.status = .connected := by
  induction peers with
  | nil => simp [linked]
  | cons peer rest ih =>
    intro entry hentry
    rw [linked, AList.entries_insert] at hentry
    cases List.mem_cons.mp hentry with
    | inl hnew =>
      subst hnew
      rfl
    | inr hold => exact ih entry ((List.kerase_sublist _ _).subset hold)

def sampleRouter (peers : List PeerId) (leader : PeerId) (autoForward : Bool) (p : PeerId) :
    SessionRouter where
  localPeerId := p
  transport :=
    { TransportManager.new p "session" 4000 true with connections := linked (peers.filter (· ≠ p)) }
  leaderElection :=
    { LeaderElection.new p true .hold with
      state := { (LeaderElection.new p true .hold).state with
        role := if p = leader then .leader else .follower
        leaderId := some leader } }
  centralizedMode := true
  centralizedAutoForward := autoForward
  compressionThreshold := 512
  maxMessageSize := 65536

/-- `postcard` on one message: variant 11, then the fields in order. -/
def samplePostcard : Postcard where
  toAllocvec msg :=
    if msg = .forwardedUserData ⟨"b"⟩ 0x0100 0x02 [104, 105] then
      .ok [11, 1, 98, 128, 2, 2, 2, 104, 105]
    else .error "unsupported"
  fromBytes bytes :=
    if bytes = [11, 1, 98, 128, 2, 2, 2, 104, 105] then
      .ok (.forwardedUserData ⟨"b"⟩ 0x0100 0x02 [104, 105])
    else .error "unsupported"

def sampleSession (peers : List PeerId) (autoForward : Bool) : Session where
  members := peers.toFinset
  router := sampleRouter peers ⟨"a"⟩ autoForward
  trySend _ _ := .ok ()
  lz4 := literalBlock
  postcard := samplePostcard

theorem sampleSession_centralized (peers : List PeerId) (ha : ⟨"a"⟩ ∈ peers) (autoForward : Bool) :
    (sampleSession peers autoForward).Centralized ⟨"a"⟩ := by
  constructor
  · simpa [sampleSession] using ha
  · exact fun p _ => rfl
  · intro p _ q
    simp [sampleSession, sampleRouter, mem_linked]
  · exact fun p _ => status_linked
  · exact fun p token => rfl
  · exact fun p _ => rfl
  · exact fun p _ => rfl
  · intro p _
    by_cases hp : p = ⟨"a"⟩ <;>
      simp [sampleSession, sampleRouter, SessionRouter.isLeader, LeaderElection.isLeader, hp]

theorem sampleSession_deliverable (peers : List PeerId) (autoForward : Bool) :
    (sampleSession peers autoForward).Deliverable ⟨"b"⟩ 0x0100 [104, 105] 0x03 := by
  refine ⟨by decide, ⟨[11, 1, 98, 128, 2, 2, 2, 104, 105], rfl, rfl, by decide, ?_⟩, rfl⟩
  intro p _
  show 9 ≤ 65536
  omega

/-- The event carries the message: bit 0 of the flags belongs to the compression. -/
def IsCopy (msgType : UInt16) (data : List UInt8) (userFlags : UInt8) (event : Received) : Prop :=
  event.data = data ∧ event.msgType = msgType ∧ event.flags &&& 0xFE = userFlags &&& 0xFE

/-- Each node other than the sender gets the message exactly once; only the leader does if it does
not forward. -/
theorem centralized_broadcast_exactly_once (hc : session.Centralized leader)
    (hx : x ∈ session.members) (hm : session.Deliverable x msgType data userFlags) :
    ∃ sends, session.routeMessage x .broadcast msgType data userFlags = .ok sends ∧
      (∃ order t, run session.step (started x sends) order = some t ∧ t.inFlight = []) ∧
      ∀ order t, run session.step (started x sends) order = some t → t.inFlight = [] →
        ((x = leader ∨ (session.router leader).centralizedAutoForward = true) →
          (∀ p ∈ session.members, p ≠ x →
            ∃ event, t.received p = [event] ∧ IsCopy msgType data userFlags event) ∧
          t.received x = []) ∧
        (x ≠ leader → (session.router leader).centralizedAutoForward = false →
          (∃ event, t.received leader = [event] ∧ IsCopy msgType data userFlags event) ∧
          ∀ p, p ≠ leader → t.received p = []) := by
  obtain ⟨sends, flags, hroute, hflags, hsome, hall⟩ := broadcast_outcome hc hx hm
  have hclean := (flags_without_compression userFlags).2
  refine ⟨sends, hroute, hsome, ?_⟩
  intro order t hrun hdone
  have hreceived := hall order t hrun hdone
  constructor
  · intro hforward
    constructor
    · intro p hp hpx
      rw [hreceived p, outcome, if_pos ⟨hp, hpx⟩]
      by_cases hleader : p = leader
      · rw [if_pos hleader]
        exact ⟨_, rfl, rfl, rfl, hclean⟩
      · rw [if_neg hleader, if_pos hforward]
        exact ⟨_, rfl, rfl, rfl, hflags⟩
    · rw [hreceived x, outcome, if_neg (fun hno => hno.2 rfl)]
  · intro hne hauto
    constructor
    · rw [hreceived leader, outcome, if_pos ⟨hc.leader_mem, Ne.symm hne⟩, if_pos rfl]
      exact ⟨_, rfl, rfl, rfl, hclean⟩
    · intro p hp
      simp [hreceived p, outcome, hp, hne, hauto]

theorem trio_broadcast_exactly_once :
    ∃ sends order t,
      (sampleSession [⟨"a"⟩, ⟨"b"⟩, ⟨"c"⟩] true).routeMessage ⟨"b"⟩ .broadcast 0x0100 [104, 105] 0x03 =
        .ok sends ∧
      run (sampleSession [⟨"a"⟩, ⟨"b"⟩, ⟨"c"⟩] true).step (started ⟨"b"⟩ sends) order = some t ∧
      t.inFlight = [] ∧
      (∀ p ∈ (sampleSession [⟨"a"⟩, ⟨"b"⟩, ⟨"c"⟩] true).members, p ≠ ⟨"b"⟩ →
        ∃ event, t.received p = [event] ∧ IsCopy 0x0100 [104, 105] 0x03 event) ∧
      t.received ⟨"b"⟩ = [] := by
  obtain ⟨sends, hroute, ⟨order, t, hrun, hdone⟩, hall⟩ := centralized_broadcast_exactly_once
    (sampleSession_centralized [⟨"a"⟩, ⟨"b"⟩, ⟨"c"⟩] (by decide) true) (x := ⟨"b"⟩) (by decide)
    (sampleSession_deliverable [⟨"a"⟩, ⟨"b"⟩, ⟨"c"⟩] true)
  exact ⟨sends, order, t, hroute, hrun, hdone, (hall order t hrun hdone).1 (.inr rfl)⟩

/-- With forwarding on, the events of a follower's broadcast all carry its id exactly if there is
no third node: the leader sends the message on under its own id. -/
theorem broadcast_keeps_sender_iff (hc : session.Centralized leader) (hx : x ∈ session.members)
    (hne : x ≠ leader) (hauto : (session.router leader).centralizedAutoForward = true)
    (hm : session.Deliverable x msgType data userFlags) :
    (∀ sends, session.routeMessage x .broadcast msgType data userFlags = .ok sends →
      ∀ order t, run session.step (started x sends) order = some t → t.inFlight = [] →
        ∀ p, ∀ event ∈ t.received p, event.peerId = x) ↔
    ∀ p ∈ session.members, p = x ∨ p = leader := by
  obtain ⟨sends, flags, hroute, _, ⟨order, t, hrun, hdone⟩, hall⟩ := broadcast_outcome hc hx hm
  constructor
  · intro hkeeps p hp
    by_contra hthird
    push Not at hthird
    have hreceived := hall order t hrun hdone p
    rw [outcome, if_pos ⟨hp, hthird.1⟩, if_neg hthird.2, if_pos (.inr hauto)] at hreceived
    have hleader := hkeeps sends hroute order t hrun hdone p _ (hreceived ▸ List.mem_singleton_self _)
    exact hne hleader.symm
  · intro hpair sends' hroute' order t hrun hdone p event hevent
    obtain rfl : sends = sends' := Except.ok.inj (hroute.symm.trans hroute')
    rw [hall order t hrun hdone p, outcome] at hevent
    split_ifs at hevent with hp hleader
    · rw [List.mem_singleton.mp hevent]
    · cases hpair p hp.1 with
      | inl hno => exact absurd hno hp.2
      | inr hno => exact absurd hno hleader
    · cases hevent
    · cases hevent

/-- Two nodes: the only other node is the leader. -/
theorem pair_broadcast_keeps_sender :
    (∀ p ∈ (sampleSession [⟨"a"⟩, ⟨"b"⟩] true).members, p = ⟨"b"⟩ ∨ p = ⟨"a"⟩) ∧
    ∀ sends, (sampleSession [⟨"a"⟩, ⟨"b"⟩] true).routeMessage ⟨"b"⟩ .broadcast 0x0100 [104, 105] 0x03 =
      .ok sends →
    ∀ order t, run (sampleSession [⟨"a"⟩, ⟨"b"⟩] true).step (started ⟨"b"⟩ sends) order = some t →
      t.inFlight = [] → ∀ p, ∀ event ∈ t.received p, event.peerId = ⟨"b"⟩ := by
  have hpair : ∀ p ∈ (sampleSession [⟨"a"⟩, ⟨"b"⟩] true).members, p = ⟨"b"⟩ ∨ p = ⟨"a"⟩ := by decide
  refine ⟨hpair, (broadcast_keeps_sender_iff ?_ ?_ ?_ rfl ?_).mpr hpair⟩
  · exact sampleSession_centralized [⟨"a"⟩, ⟨"b"⟩] (by decide) true
  · decide
  · decide
  · exact sampleSession_deliverable [⟨"a"⟩, ⟨"b"⟩] true

/-- Three nodes: `c` sees the message of `b` as a message of the leader `a`. -/
theorem trio_broadcast_loses_sender :
    ¬ ∀ sends, (sampleSession [⟨"a"⟩, ⟨"b"⟩, ⟨"c"⟩] true).routeMessage ⟨"b"⟩ .broadcast 0x0100
        [104, 105] 0x03 = .ok sends →
      ∀ order t, run (sampleSession [⟨"a"⟩, ⟨"b"⟩, ⟨"c"⟩] true).step (started ⟨"b"⟩ sends) order = some t →
        t.inFlight = [] → ∀ p, ∀ event ∈ t.received p, event.peerId = ⟨"b"⟩ := by
  intro hkeeps
  obtain ⟨sends, flags, hroute, _, ⟨order, t, hrun, hdone⟩, hall⟩ := broadcast_outcome
    (sampleSession_centralized [⟨"a"⟩, ⟨"b"⟩, ⟨"c"⟩] (by decide) true) (x := ⟨"b"⟩) (by decide)
    (sampleSession_deliverable [⟨"a"⟩, ⟨"b"⟩, ⟨"c"⟩] true)
  have hreceived : t.received ⟨"c"⟩ = [⟨⟨"a"⟩, [104, 105], 0x0100, flags⟩] :=
    hall order t hrun hdone ⟨"c"⟩
  have hwrong : (⟨"a"⟩ : PeerId) = ⟨"b"⟩ := hkeeps sends hroute order t hrun hdone ⟨"c"⟩ _
    (hreceived ▸ List.mem_singleton_self _)
  exact absurd hwrong (by decide)

end

end Session

end MetaMystia

import MetaMystia.Library.Cascade
import MetaMystia.Node.NetworkState
import MetaMystia.Session.RoutedMessages
import MetaMystia.Session.ReceivedTypes

/-! # The nodes and the packets between them

A packet is handled by the whole message handler: the connection map, the table,
the election and the router. Packets arrive in any order or not at all, and what a
node is in between is left open: timers, calls and connections may change it.
-/

namespace MetaMystia

/-- What the message handler of a node works on. -/
structure Peer where
  net : NetworkState
  centralizedMode : Bool
  centralizedAutoForward : Bool
  compressionThreshold : UInt32
  maxMessageSize : UInt32

/-- The clocks that a step reads, and the room that it finds in the queues. -/
structure Found where
  now : Clock
  trySend : TrySend

structure Flight where
  src : PeerId
  dst : PeerId
  packet : RawPacket
deriving DecidableEq

/-- A packet has been handled: at which node, and what went to its receive callback. -/
structure HandledPacket where
  node : PeerId
  received : List Received
deriving DecidableEq

namespace Peer

def router (self : Peer) : SessionRouter where
  localPeerId := self.net.transport.localPeerId
  transport := self.net.transport
  leaderElection := self.net.leaderElection
  centralizedMode := self.centralizedMode
  centralizedAutoForward := self.centralizedAutoForward
  compressionThreshold := self.compressionThreshold
  maxMessageSize := self.maxMessageSize

def withNet (self : Peer) (net : NetworkState) : Peer := { self with net }

variable (lz4 : Lz4) (postcard : Postcard)

/-- An internal message on its way into the queues, `sender` being the peer that a reply is for. A
message that is too large or finds no queue is dropped. -/
def post (self : Peer) (trySend : TrySend) (sender : PeerId) : Outgoing → List (PeerId × RawPacket)
  | .reply msg =>
    match (encodeInternal postcard msg self.maxMessageSize).bind
        (self.net.transport.sendToPeer trySend sender) with
    | .ok sends => sends
    | .error _ => []
  | .broadcast msg =>
    match encodeInternal postcard msg self.maxMessageSize with
    | .ok packet => (self.net.transport.broadcast trySend packet none).1
    | .error _ => []
  | .connect _ => []

/-- `handle_message`: the node after it, what it enqueues and what it hands to the callback. -/
def handleMessage (self : Peer) (found : Found) (peerId : PeerId) (packet : RawPacket) :
    Peer × List (PeerId × RawPacket) × List Received :=
  let (sends, received) := self.router.handleMessage lz4 postcard found.trySend peerId packet
  if packet.isInternal then
    match decodeInternal postcard packet with
    | .ok msg =>
      let (net, out) := self.net.handleMessage peerId found.now msg
      let next := self.withNet net
      (next, out.flatMap (next.post postcard found.trySend peerId) ++ sends, received)
    | .error _ => (self, sends, received)
  else (self, sends, received)

end Peer

namespace Overlay

/-- `change` stands for whatever else happens to a node, `post` for what its timers, its calls and
its connections send: any internal message except the `ForwardedUserData` of a broadcast. -/
inductive Call
  | routeMessage (target : MessageTarget) (msgType : UInt16) (data : List UInt8) (userFlags : UInt8)
  | sendFromLeader (msgType : UInt16) (data : List UInt8) (userFlags : UInt8)
  | forwardMessage (fromPeerId : PeerId) (target : ForwardTarget) (msgType : UInt16) (flags : UInt8)
      (payload : List UInt8)
  | post (sender : PeerId) (out : Outgoing)
  | change (peer : Peer)

def forwardsData : Outgoing → Bool
  | .reply (.forwardedUserData ..) => true
  | .broadcast (.forwardedUserData ..) => true
  | _ => false

def Call.message : Call → Option (UInt16 × List UInt8 × UInt8)
  | .routeMessage _ msgType data userFlags => some (msgType, data, userFlags)
  | .sendFromLeader msgType data userFlags => some (msgType, data, userFlags)
  | .forwardMessage _ _ msgType flags payload => some (msgType, payload, flags)
  | .post .. | .change _ => none

/-- Where a packet comes from in the end: the node that has made the call, and its message. -/
structure Origin where
  node : PeerId
  message : Option (UInt16 × List UInt8 × UInt8)

def flights (src : PeerId) (sends : List (PeerId × RawPacket)) : List Flight :=
  sends.map fun send => ⟨src, send.1, send.2⟩

variable (lz4 : Lz4) (postcard : Postcard)

def calls (peer : Peer) (trySend : TrySend) : Call → List (PeerId × RawPacket)
  | .routeMessage target msgType data userFlags =>
    match peer.router.routeMessage lz4 postcard trySend target msgType data userFlags with
    | .ok sends => sends
    | .error _ => []
  | .sendFromLeader msgType data userFlags =>
    match peer.router.sendFromLeader lz4 trySend msgType data userFlags with
    | .ok sends => sends
    | .error _ => []
  | .forwardMessage fromPeerId target msgType flags payload =>
    match peer.router.forwardMessage lz4 trySend fromPeerId target msgType flags payload with
    | .ok sends => sends
    | .error _ => []
  | .post sender out => if forwardsData out then [] else peer.post postcard trySend sender out
  | .change _ => []

def rules : Rules (PeerId → Peer) Flight HandledPacket Origin (PeerId × TrySend × Call) Found where
  handle peers found flight :=
    let (peer, sends, received) := (peers flight.dst).handleMessage lz4 postcard found flight.src flight.packet
    (Function.update peers flight.dst peer, flights flight.dst sends, ⟨flight.dst, received⟩)
  originate peers := fun (node, trySend, call) =>
    let sends := calls lz4 postcard (peers node) trySend call
    let peers := match call with
      | .change peer => Function.update peers node peer
      | _ => peers
    some (⟨node, call.message⟩, peers, flights node sends)

abbrev Run := Cascade (PeerId → Peer) Flight HandledPacket Origin

abbrev Action := Cascade.Action (PeerId × TrySend × Call) Found

end Overlay

def Postcard.RoundTrips (postcard : Postcard) : Prop :=
  ∀ msg bytes, postcard.toAllocvec msg = .ok bytes → postcard.fromBytes bytes = .ok msg

section

variable {lz4 : Lz4} {postcard : Postcard} {trySend : TrySend} {peer : Peer} {packet : RawPacket}

theorem InternalMessage.msgType_lt (msg : InternalMessage) : msg.msgType < userMessageStart := by
  cases msg <;> exact of_decide_eq_true rfl

theorem encodeInternal_decodes (hpostcard : postcard.RoundTrips) {msg : InternalMessage}
    {maxMessageSize : UInt32} (h : encodeInternal postcard msg maxMessageSize = .ok packet) :
    packet.isInternal = true ∧ decodeInternal postcard packet = .ok msg := by
  unfold encodeInternal at h
  cases hbytes : postcard.toAllocvec msg with
  | error e => simp [hbytes] at h
  | ok bytes =>
    simp only [hbytes] at h
    split at h
    · cases h
    · cases h
      exact ⟨decide_eq_true msg.msgType_lt, by simp only [decodeInternal, hpostcard msg bytes hbytes]⟩

/-- The sends go to different peers, all of them connected. -/
structure Peer.Distinct (peer : Peer) (sends : List (PeerId × RawPacket)) : Prop where
  nodup : (sends.map Prod.fst).Nodup
  connected : ∀ send ∈ sends, send.1 ∈ peer.net.transport.connections

theorem Peer.distinct_nil (peer : Peer) : peer.Distinct [] := ⟨List.nodup_nil, by simp⟩

theorem Peer.distinct_single {peerId : PeerId} (h : peerId ∈ peer.net.transport.connections)
    (packet : RawPacket) : peer.Distinct [(peerId, packet)] :=
  ⟨List.nodup_singleton _, by simpa using h⟩

theorem TransportManager.mem_of_sendToPeer {manager : TransportManager} {peerId : PeerId}
    {sends : List (PeerId × RawPacket)} (h : manager.sendToPeer trySend peerId packet = .ok sends) :
    peerId ∈ manager.connections := by
  unfold sendToPeer at h
  cases hlookup : manager.connections.lookup peerId with
  | none => simp [hlookup] at h
  | some conn => exact Assoc.mem_of_lookup hlookup

theorem Peer.distinct_sendToPeer {peerId : PeerId} {sends : List (PeerId × RawPacket)}
    (h : peer.net.transport.sendToPeer trySend peerId packet = .ok sends) : peer.Distinct sends := by
  rw [TransportManager.sends_of_sendToPeer h]
  exact peer.distinct_single (TransportManager.mem_of_sendToPeer h) packet

theorem TransportManager.broadcast_fst (manager : TransportManager) (exclude : Option (List PeerId)) :
    (manager.broadcast trySend packet exclude).1.map Prod.fst =
      ((manager.broadcastTargets exclude).filter fun entry =>
        (trySend (entry.2.queueFor packet)).isOk).map Sigma.fst := by
  simp only [broadcast]
  induction manager.broadcastTargets exclude with
  | nil => rfl
  | cons entry rest ih =>
    rw [List.filterMap_cons, List.filter_cons]
    cases trySend (entry.2.queueFor packet) with
    | ok room => simpa [Except.isOk, Except.toBool] using ih
    | error e => simpa [Except.isOk, Except.toBool] using ih

theorem Peer.distinct_broadcast (peer : Peer) (exclude : Option (List PeerId)) :
    peer.Distinct (peer.net.transport.broadcast trySend packet exclude).1 := by
  have hkeys : ((peer.net.transport.broadcast trySend packet exclude).1.map Prod.fst).Sublist
      peer.net.transport.connections.keys := by
    rw [TransportManager.broadcast_fst]
    exact (List.filter_sublist.trans List.filter_sublist).map _
  refine ⟨hkeys.nodup peer.net.transport.connections.nodupKeys, ?_⟩
  intro send hsend
  exact hkeys.subset (List.mem_map_of_mem hsend)

theorem TransportManager.not_excluded_of_broadcast {manager : TransportManager} {excluded : PeerId}
    {send : PeerId × RawPacket} (h : send ∈ (manager.broadcast trySend packet (some [excluded])).1) :
    send.1 ≠ excluded := by
  have hmem := List.mem_map_of_mem (f := Prod.fst) h
  rw [broadcast_fst] at hmem
  obtain ⟨entry, hentry, hfst⟩ := List.mem_map.mp hmem
  have hkept := (List.mem_filter.mp (List.mem_filter.mp hentry).1).2
  rw [← hfst]
  simpa using (Bool.and_eq_true_iff.mp hkept).2

theorem Peer.post_cases (peer : Peer) (trySend : TrySend) (sender : PeerId) (out : Outgoing) :
    peer.post postcard trySend sender out = [] ∨
    (∃ msg packet, out = .reply msg ∧ encodeInternal postcard msg peer.maxMessageSize = .ok packet ∧
      peer.net.transport.sendToPeer trySend sender packet =
        .ok (peer.post postcard trySend sender out)) ∨
    (∃ msg packet, out = .broadcast msg ∧
      encodeInternal postcard msg peer.maxMessageSize = .ok packet ∧
      peer.post postcard trySend sender out =
        (peer.net.transport.broadcast trySend packet none).1) := by
  cases out with
  | reply msg =>
    cases hencode : encodeInternal postcard msg peer.maxMessageSize with
    | error e => exact .inl (by simp only [post, hencode, Except.bind])
    | ok packet =>
      cases hsend : peer.net.transport.sendToPeer trySend sender packet with
      | error e => exact .inl (by simp only [post, hencode, Except.bind, hsend])
      | ok sends =>
        exact .inr (.inl ⟨msg, packet, rfl, hencode, by simp only [post, hencode, Except.bind, hsend]⟩)
  | broadcast msg =>
    cases hencode : encodeInternal postcard msg peer.maxMessageSize with
    | error e => exact .inl (by simp only [post, hencode])
    | ok packet => exact .inr (.inr ⟨msg, packet, rfl, hencode, by simp only [post, hencode]⟩)
  | connect addr => exact .inl rfl

theorem Peer.distinct_post (peer : Peer) (trySend : TrySend) (sender : PeerId) (out : Outgoing) :
    peer.Distinct (peer.post postcard trySend sender out) := by
  obtain hnone | ⟨_, _, _, _, hsend⟩ | ⟨_, packet, _, _, hsends⟩ := peer.post_cases trySend sender out
  · rw [hnone]
    exact peer.distinct_nil
  · exact peer.distinct_sendToPeer hsend
  · rw [hsends]
    exact peer.distinct_broadcast none

/-- Every internal message that a node posts is read as that message. -/
theorem Peer.decodes_of_post (hpostcard : postcard.RoundTrips) {sender : PeerId} {out : Outgoing}
    {send : PeerId × RawPacket} (h : send ∈ peer.post postcard trySend sender out) :
    send.2.isInternal = true ∧
      ∃ msg, decodeInternal postcard send.2 = .ok msg ∧ (out = .reply msg ∨ out = .broadcast msg) := by
  obtain hnone | ⟨msg, packet, hout, hencode, hsend⟩ | ⟨msg, packet, hout, hencode, hsends⟩ :=
    peer.post_cases trySend sender out
  · rw [hnone] at h
    cases h
  · rw [TransportManager.sends_of_sendToPeer hsend, List.mem_singleton] at h
    obtain ⟨hinternal, hdecode⟩ := encodeInternal_decodes hpostcard hencode
    rw [h]
    exact ⟨hinternal, msg, hdecode, .inl hout⟩
  · obtain ⟨dst, sent⟩ := send
    rw [hsends] at h
    have hsent : (dst, sent) ∈ (peer.router.transport.broadcast trySend packet none).1 := h
    obtain rfl := SessionRouter.packet_of_mem_broadcast hsent
    obtain ⟨hinternal, hdecode⟩ := encodeInternal_decodes hpostcard hencode
    exact ⟨hinternal, msg, hdecode, .inr hout⟩

/-- A user message goes out as one packet, once to each of some connected peers. -/
structure Peer.Spreads (lz4 : Lz4) (peer : Peer) (msgType : UInt16) (data : List UInt8) (flags : UInt8)
    (sends : List (PeerId × RawPacket)) : Prop where
  distinct : peer.Distinct sends
  user : userMessageStart ≤ msgType
  encoded : ∀ send ∈ sends, encodePacket lz4 msgType data (flags &&& 0xFE) peer.compressionThreshold
    peer.maxMessageSize = .ok send.2

theorem Peer.spreads_of_broadcast {msgType : UInt16} {data : List UInt8} {flags : UInt8}
    (huser : userMessageStart ≤ msgType) (exclude : Option (List PeerId))
    (hencode : encodePacket lz4 msgType data (flags &&& 0xFE) peer.compressionThreshold
      peer.maxMessageSize = .ok packet) :
    peer.Spreads lz4 msgType data flags (peer.net.transport.broadcast trySend packet exclude).1 := by
  refine ⟨peer.distinct_broadcast exclude, huser, ?_⟩
  rintro ⟨dst, sent⟩ hsend
  have hsent : (dst, sent) ∈ (peer.router.transport.broadcast trySend packet exclude).1 := hsend
  obtain rfl := SessionRouter.packet_of_mem_broadcast hsent
  exact hencode

theorem Peer.spreads_of_sendToPeer {msgType : UInt16} {data : List UInt8} {flags : UInt8}
    {peerId : PeerId} {sends : List (PeerId × RawPacket)} (huser : userMessageStart ≤ msgType)
    (hsend : (encodePacket lz4 msgType data (flags &&& 0xFE) peer.compressionThreshold
      peer.maxMessageSize).bind (peer.net.transport.sendToPeer trySend peerId) = .ok sends) :
    peer.Spreads lz4 msgType data flags sends := by
  cases hencode : encodePacket lz4 msgType data (flags &&& 0xFE) peer.compressionThreshold
      peer.maxMessageSize with
  | error e => simp [hencode, Except.bind] at hsend
  | ok packet =>
    simp only [hencode, Except.bind] at hsend
    refine ⟨peer.distinct_sendToPeer hsend, huser, ?_⟩
    obtain rfl := TransportManager.sends_of_sendToPeer hsend
    simpa using hencode

/-- Only a broadcast that a follower hands to its leader travels as an internal message. -/
theorem Peer.routeMessage_cases {target : MessageTarget} {msgType : UInt16} {data : List UInt8}
    {flags : UInt8} {sends : List (PeerId × RawPacket)}
    (h : peer.router.routeMessage lz4 postcard trySend target msgType data flags = .ok sends) :
    peer.Spreads lz4 msgType data flags sends ∨
    (target = .broadcast ∧ userMessageStart ≤ msgType ∧
      ∃ leader packet, sends = [(leader, packet)] ∧
      leader ∈ peer.net.transport.connections ∧
      encodeInternal postcard (.forwardedUserData peer.net.transport.localPeerId msgType
        (flags &&& 0xFE) data) peer.maxMessageSize = .ok packet) := by
  unfold SessionRouter.routeMessage at h
  split at h
  · cases h
  next huser =>
  replace huser := UInt16.not_lt.mp huser
  cases target with
  | broadcast =>
    dsimp only at h
    split at h
    · cases hleader : peer.router.leaderId with
      | none => simp [hleader] at h
      | some leader =>
        simp only [hleader] at h
        cases hencode : encodeInternal postcard (.forwardedUserData peer.router.localPeerId msgType
            (flags &&& 0xFE) data) peer.router.maxMessageSize with
        | error e => simp [hencode, Except.bind] at h
        | ok packet =>
          simp only [hencode, Except.bind] at h
          exact .inr ⟨rfl, huser, leader, packet, TransportManager.sends_of_sendToPeer h,
            TransportManager.mem_of_sendToPeer h, hencode⟩
    · cases hencode : encodePacket lz4 msgType data (flags &&& 0xFE) peer.router.compressionThreshold
          peer.router.maxMessageSize with
      | error e => simp [hencode, Except.map] at h
      | ok packet =>
        simp only [hencode, Except.map, Except.ok.injEq] at h
        subst h
        exact .inl (peer.spreads_of_broadcast huser none hencode)
  | toPeer peerId => exact .inl (peer.spreads_of_sendToPeer huser h)
  | toLeader =>
    dsimp only at h
    split at h
    · cases h
      exact .inl ⟨peer.distinct_nil, huser, by simp⟩
    · cases hleader : peer.router.leaderId with
      | none => simp [hleader] at h
      | some leader =>
        simp only [hleader] at h
        exact .inl (peer.spreads_of_sendToPeer huser h)

theorem Peer.sendFromLeader_spreads {msgType : UInt16} {data : List UInt8} {flags : UInt8}
    {sends : List (PeerId × RawPacket)}
    (h : peer.router.sendFromLeader lz4 trySend msgType data flags = .ok sends) :
    peer.Spreads lz4 msgType data flags sends := by
  unfold SessionRouter.sendFromLeader at h
  split at h
  · cases h
  next huser =>
  split at h
  · cases h
  cases hencode : encodePacket lz4 msgType data (flags &&& 0xFE) peer.router.compressionThreshold
      peer.router.maxMessageSize with
  | error e => simp [hencode, Except.map] at h
  | ok packet =>
    simp only [hencode, Except.map, Except.ok.injEq] at h
    subst h
    exact peer.spreads_of_broadcast (UInt16.not_lt.mp huser) none hencode

/-- A message is never forwarded back to the peer that it is from. -/
theorem Peer.forwardMessage_spreads {fromPeerId : PeerId} {target : ForwardTarget} {msgType : UInt16}
    {data : List UInt8} {flags : UInt8} {sends : List (PeerId × RawPacket)}
    (h : peer.router.forwardMessage lz4 trySend fromPeerId target msgType flags data = .ok sends) :
    peer.Spreads lz4 msgType data flags sends ∧
      (target = .broadcast → ∀ send ∈ sends, send.1 ≠ fromPeerId) := by
  unfold SessionRouter.forwardMessage at h
  split at h
  · cases h
  next huser =>
  replace huser := UInt16.not_lt.mp huser
  split at h
  · cases h
  cases target with
  | toPeer peerId => exact ⟨peer.spreads_of_sendToPeer huser h, by simp⟩
  | broadcast =>
    cases hencode : encodePacket lz4 msgType data (flags &&& 0xFE) peer.router.compressionThreshold
        peer.router.maxMessageSize with
    | error e => simp [hencode, Except.bind] at h
    | ok packet =>
      simp only [hencode, Except.bind, Except.ok.injEq] at h
      subst h
      exact ⟨peer.spreads_of_broadcast huser _ hencode,
        fun _ send hsend => TransportManager.not_excluded_of_broadcast hsend⟩

theorem Peer.handleForwardedUserData_spreads (lz4 : Lz4) (peer : Peer) (trySend : TrySend)
    (fromPeerId : PeerId) (msgType : UInt16) (flags : UInt8) (data : List UInt8) :
    (peer.router.handleForwardedUserData lz4 trySend fromPeerId msgType flags data).2 = [] ∨
    (peer.Spreads lz4 msgType data flags
        (peer.router.handleForwardedUserData lz4 trySend fromPeerId msgType flags data).2 ∧
      ∀ send ∈ (peer.router.handleForwardedUserData lz4 trySend fromPeerId msgType flags data).2,
        send.1 ≠ fromPeerId) := by
  unfold SessionRouter.handleForwardedUserData
  simp only
  split
  · cases hforward : peer.router.forwardMessage lz4 trySend fromPeerId .broadcast msgType flags data with
    | error e => exact .inl rfl
    | ok forwarded =>
      obtain ⟨hspreads, hnot⟩ := peer.forwardMessage_spreads hforward
      exact .inr ⟨hspreads, hnot rfl⟩
  · exact .inl rfl

/-- What handling a packet comes to: a forwarded message is handed over and sent on, every other
internal message is answered, and a user packet is handed over. -/
theorem Peer.handleMessage_cases (lz4 : Lz4) (postcard : Postcard) (peer : Peer) (found : Found) (src : PeerId) (packet : RawPacket) :
    (∃ fromPeerId msgType flags data event, packet.isInternal = true ∧
      decodeInternal postcard packet = .ok (.forwardedUserData fromPeerId msgType flags data) ∧
      (peer.handleMessage lz4 postcard found src packet).2.1 =
        (peer.router.handleForwardedUserData lz4 found.trySend fromPeerId msgType flags data).2 ∧
      (peer.handleMessage lz4 postcard found src packet).2.2 = [event] ∧
      event = ⟨fromPeerId, match decodePayload lz4 ⟨msgType, flags, data⟩ with
        | .ok plain => plain
        | .error _ => data, msgType, flags⟩) ∨
    (∃ msg, packet.isInternal = true ∧ decodeInternal postcard packet = .ok msg ∧
      (∀ fromPeerId msgType flags data, msg ≠ .forwardedUserData fromPeerId msgType flags data) ∧
      (peer.handleMessage lz4 postcard found src packet).2.1 =
        (peer.net.handleMessage src found.now msg).2.flatMap
          ((peer.withNet (peer.net.handleMessage src found.now msg).1).post postcard found.trySend src) ∧
      (peer.handleMessage lz4 postcard found src packet).2.2 = []) ∨
    ((∀ msg, packet.isInternal = true → decodeInternal postcard packet ≠ .ok msg) ∧
      (peer.handleMessage lz4 postcard found src packet).2.1 = [] ∧
      (peer.handleMessage lz4 postcard found src packet).2.2 =
        if packet.isInternal then [] else (handleUserPacket lz4 src packet).toList) := by
  unfold Peer.handleMessage SessionRouter.handleMessage
  cases hinternal : packet.isInternal with
  | false => exact .inr (.inr ⟨by simp, by simp, by simp⟩)
  | true =>
    cases hdecode : decodeInternal postcard packet with
    | error e => exact .inr (.inr ⟨by simp, by simp, by simp⟩)
    | ok msg =>
      cases msg with
      | forwardedUserData fromPeerId msgType flags data =>
        exact .inl ⟨fromPeerId, msgType, flags, data, _, rfl, rfl, rfl, rfl, rfl⟩
      | _ => exact .inr (.inl ⟨_, rfl, rfl, by simp, by simp, by simp⟩)

theorem TransportManager.perm_keys_modify (manager : TransportManager) (peerId : PeerId)
    (f : PeerConnection → PeerConnection) :
    (manager.modify peerId f).connections.keys.Perm manager.connections.keys := by
  unfold modify
  cases hlookup : manager.connections.lookup peerId with
  | none => exact .refl _
  | some conn => exact Assoc.perm_keys_replace hlookup

theorem NetworkState.perm_keys_handleMessage (net : NetworkState) (src : PeerId) (now : Clock)
    (msg : InternalMessage) : (net.handleMessage src now msg).1.transport.connections.keys.Perm
      net.transport.connections.keys := by
  cases msg with
  | peerLeave leavingId => exact net.transport.perm_keys_modify leavingId _
  | pong timestampMs =>
    exact (TransportManager.perm_keys_modify _ src _).trans (net.transport.perm_keys_modify src _)
  | handshake remoteId listenPort version sessionId =>
    simp only [handleMessage, handleMembership, transport_peerConnected]
    exact .refl _
  | handshakeAck remoteId listenPort success reason =>
    cases success <;> simp [handleMessage, handleMembership, transport_peerConnected]
  | _ => exact .refl _

theorem NetworkState.localPeerId_handleMessage (net : NetworkState) (src : PeerId) (now : Clock)
    (msg : InternalMessage) :
    (net.handleMessage src now msg).1.transport.localPeerId = net.transport.localPeerId := by
  cases msg with
  | peerLeave leavingId => exact TransportManager.modify_localPeerId
  | pong timestampMs => exact TransportManager.modify_localPeerId.trans TransportManager.modify_localPeerId
  | handshake remoteId listenPort version sessionId =>
    simp only [handleMessage, handleMembership, transport_peerConnected]
  | handshakeAck remoteId listenPort success reason =>
    cases success <;> simp [handleMessage, handleMembership, transport_peerConnected]
  | _ => rfl

theorem Peer.handleMessage_fst (lz4 : Lz4) (postcard : Postcard) (peer : Peer) (found : Found)
    (src : PeerId) (packet : RawPacket) :
    (peer.handleMessage lz4 postcard found src packet).1 = peer ∨
      ∃ msg, (peer.handleMessage lz4 postcard found src packet).1 =
        peer.withNet (peer.net.handleMessage src found.now msg).1 := by
  unfold Peer.handleMessage
  simp only
  split
  · split
    · exact .inr ⟨_, rfl⟩
    · exact .inl rfl
  · exact .inl rfl

theorem Peer.perm_keys_handleMessage (lz4 : Lz4) (postcard : Postcard) (peer : Peer) (found : Found)
    (src : PeerId) (packet : RawPacket) :
    (peer.handleMessage lz4 postcard found src packet).1.net.transport.connections.keys.Perm
      peer.net.transport.connections.keys := by
  obtain heq | ⟨msg, heq⟩ := peer.handleMessage_fst lz4 postcard found src packet
  · rw [heq]
  · rw [heq]
    exact peer.net.perm_keys_handleMessage src found.now msg

theorem Peer.localPeerId_handleMessage (lz4 : Lz4) (postcard : Postcard) (peer : Peer) (found : Found)
    (src : PeerId) (packet : RawPacket) :
    (peer.handleMessage lz4 postcard found src packet).1.net.transport.localPeerId =
      peer.net.transport.localPeerId := by
  obtain heq | ⟨msg, heq⟩ := peer.handleMessage_fst lz4 postcard found src packet
  · rw [heq]
  · rw [heq]
    exact peer.net.localPeerId_handleMessage src found.now msg

end

namespace Overlay

section

open Cascade Runs

variable {lz4 : Lz4} {postcard : Postcard} {Q : PeerId → Peer → Prop}

/-- Whatever else happens to a node leaves it with the property. -/
def Respects (Q : PeerId → Peer → Prop) : Action → Prop
  | .originate (node, _, .change peer) => Q node peer
  | _ => True

theorem forall_of_step {s t : Run}
    (hhandle : ∀ p (peer : Peer) found src packet, Q p peer →
      Q p (peer.handleMessage lz4 postcard found src packet).1)
    (h : ∀ p, Q p (s.state p)) {a : Action} (ha : Respects Q a)
    (hstep : step (rules lz4 postcard) s a = some t) (p : PeerId) : Q p (t.state p) := by
  cases a with
  | handle k found =>
    obtain ⟨⟨cause, src, dst, packet⟩, _, rfl⟩ := Option.map_eq_some_iff.mp hstep
    exact (Function.forall_update_iff s.state Q).mpr
      ⟨hhandle dst _ found src packet (h dst), fun q _ => h q⟩ p
  | lose k =>
    obtain ⟨_, _, rfl⟩ := Option.map_eq_some_iff.mp hstep
    exact h p
  | originate a =>
    obtain ⟨node, trySend, call⟩ := a
    obtain rfl := Option.some.inj hstep
    cases call with
    | change peer => exact (Function.forall_update_iff s.state Q).mpr ⟨ha, fun q _ => h q⟩ p
    | _ => exact h p

/-- A property of the nodes that the handler keeps holds along every run that respects it. -/
theorem along_of_respects
    (hhandle : ∀ p (peer : Peer) found src packet, Q p peer →
      Q p (peer.handleMessage lz4 postcard found src packet).1)
    {peers : PeerId → Peer} (hstart : ∀ p, Q p (peers p)) {acts : List Action}
    (hacts : ∀ a ∈ acts, Respects Q a) :
    Along (step (rules lz4 postcard)) (fun s _ => ∀ p, Q p (s.state p)) (start peers) acts :=
  Along.of_invariant (I := fun s => ∀ p, Q p (s.state p))
    (fun _ _ _ h ha hstep => forall_of_step hhandle h ha hstep) (fun _ _ h _ => h)
    (along_of_forall_mem (fun a ha _ => hacts a ha) _) hstart

end

variable {postcard : Postcard}

theorem calls_cases (lz4 : Lz4) (hpostcard : postcard.RoundTrips) (peer : Peer) (trySend : TrySend)
    (call : Call) :
    calls lz4 postcard peer trySend call = [] ∨
    (∃ msgType data flags, call.message = some (msgType, data, flags) ∧
      peer.Spreads lz4 msgType data flags (calls lz4 postcard peer trySend call)) ∨
    (∃ msgType data flags leader packet, call.message = some (msgType, data, flags) ∧
      userMessageStart ≤ msgType ∧ calls lz4 postcard peer trySend call = [(leader, packet)] ∧
      leader ∈ peer.net.transport.connections ∧ packet.isInternal = true ∧
      decodeInternal postcard packet =
        .ok (.forwardedUserData peer.net.transport.localPeerId msgType (flags &&& 0xFE) data)) ∨
    (∃ sender out, call = .post sender out ∧ forwardsData out = false ∧
      calls lz4 postcard peer trySend call = peer.post postcard trySend sender out) := by
  cases call with
  | routeMessage target msgType data flags =>
    cases hroute : peer.router.routeMessage lz4 postcard trySend target msgType data flags with
    | error e => exact .inl (by simp only [calls, hroute])
    | ok sends =>
      right
      simp only [calls, hroute]
      obtain hspreads | ⟨_, huser, leader, packet, hsends, hleader, hencode⟩ :=
        peer.routeMessage_cases hroute
      · exact .inl ⟨msgType, data, flags, rfl, hspreads⟩
      · obtain ⟨hinternal, hdecode⟩ := encodeInternal_decodes hpostcard hencode
        exact .inr (.inl ⟨msgType, data, flags, leader, packet, rfl, huser, hsends, hleader, hinternal,
          hdecode⟩)
  | sendFromLeader msgType data flags =>
    cases hsend : peer.router.sendFromLeader lz4 trySend msgType data flags with
    | error e => exact .inl (by simp only [calls, hsend])
    | ok sends =>
      refine .inr (.inl ⟨msgType, data, flags, rfl, ?_⟩)
      simp only [calls, hsend]
      exact peer.sendFromLeader_spreads hsend
  | forwardMessage fromPeerId target msgType flags payload =>
    cases hsend : peer.router.forwardMessage lz4 trySend fromPeerId target msgType flags payload with
    | error e => exact .inl (by simp only [calls, hsend])
    | ok sends =>
      refine .inr (.inl ⟨msgType, payload, flags, rfl, ?_⟩)
      simp only [calls, hsend]
      exact (peer.forwardMessage_spreads hsend).1
  | post sender out =>
    cases hforwards : forwardsData out with
    | true => exact .inl (by simp only [calls, hforwards, if_true])
    | false => exact .inr (.inr (.inr ⟨sender, out, rfl, hforwards, by simp [calls, hforwards]⟩))
  | change next => exact .inl rfl

/-- One of a full mesh that takes `a` for its leader. -/
def samplePeer (peers : List PeerId) (p : PeerId) : Peer :=
  let router := Session.sampleRouter peers ⟨"a"⟩ true p
  { net := ⟨router.transport, .new p 500 3, router.leaderElection⟩
    centralizedMode := router.centralizedMode
    centralizedAutoForward := router.centralizedAutoForward
    compressionThreshold := router.compressionThreshold
    maxMessageSize := router.maxMessageSize }

end Overlay

end MetaMystia

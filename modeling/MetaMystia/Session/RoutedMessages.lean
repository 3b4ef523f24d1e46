import MetaMystia.Session.CentralizedBroadcast
import MetaMystia.Session.ForwardingLimit

/-! # What a successful send has done

A send to one peer reports a queue that does not take the packet. A broadcast does
not look at the failures that the transport lists, and a message of the leader to the
leader goes nowhere.
-/

namespace MetaMystia

/-- The queue of user packets. -/
def PeerConnection.userQueue (conn : PeerConnection) : Token :=
  (conn.dataCancel.map Token.data).getD (.control conn.controlCancel)

theorem PeerConnection.queueFor_user {packet : RawPacket} (conn : PeerConnection)
    (h : packet.isInternal = false) : conn.queueFor packet = conn.userQueue := by
  simp [queueFor, userQueue, h]

namespace TransportManager

variable {manager : TransportManager} {trySend : TrySend} {peerId : PeerId} {packet : RawPacket}

theorem sends_of_sendToPeer {sends : List (PeerId × RawPacket)}
    (h : manager.sendToPeer trySend peerId packet = .ok sends) : sends = [(peerId, packet)] := by
  unfold sendToPeer at h
  cases hlookup : manager.connections.lookup peerId with
  | none =>
    rw [hlookup] at h
    cases h
  | some conn =>
    simp only [hlookup] at h
    cases htry : trySend (conn.queueFor packet) with
    | error e =>
      rw [htry] at h
      cases h
    | ok room =>
      rw [htry] at h
      cases h
      rfl

theorem mem_broadcast_iff :
    (peerId, packet) ∈ (manager.broadcast trySend packet none).1 ↔
      ∃ conn, manager.connections.lookup peerId = some conn ∧ conn.info.status = .connected ∧
        trySend (conn.queueFor packet) = .ok () := by
  simp only [broadcast, broadcastTargets, List.mem_filterMap, List.mem_filter, Option.any_none,
    Bool.not_false, Bool.and_true, beq_iff_eq]
  constructor
  · rintro ⟨⟨p, conn⟩, ⟨hentry, hstatus⟩, hsent⟩
    cases htry : trySend (conn.queueFor packet) with
    | error e => simp [htry] at hsent
    | ok room =>
      simp only [htry, Option.some.injEq, Prod.mk.injEq, and_true] at hsent
      subst hsent
      exact ⟨conn, AList.mem_lookup_iff.mpr hentry, hstatus, htry⟩
  · rintro ⟨conn, hlookup, hstatus, htry⟩
    exact ⟨⟨peerId, conn⟩, ⟨AList.mem_lookup_iff.mp hlookup, hstatus⟩, by simp [htry]⟩

theorem mem_broadcast_user_iff (huser : packet.isInternal = false) :
    (peerId, packet) ∈ (manager.broadcast trySend packet none).1 ↔
      ∃ conn, manager.connections.lookup peerId = some conn ∧ conn.info.status = .connected ∧
        trySend conn.userQueue = .ok () := by
  rw [mem_broadcast_iff]
  simp only [PeerConnection.queueFor_user _ huser]

end TransportManager

namespace SessionRouter

section

variable (lz4 : Lz4) (postcard : Postcard) (trySend : TrySend)

/-- What `route_message` enqueues, and what it hands to the receive callback: the router has no
callback manager. -/
def routed (router : SessionRouter) (target : MessageTarget) (msgType : UInt16) (data : List UInt8)
    (userFlags : UInt8) : Except MessageError (List (PeerId × RawPacket) × List Received) :=
  (router.routeMessage lz4 postcard trySend target msgType data userFlags).map fun sends => (sends, [])

/-- The packet that carries the message. -/
def packetFor (router : SessionRouter) (target : MessageTarget) (msgType : UInt16) (data : List UInt8)
    (userFlags : UInt8) : Except MessageError RawPacket :=
  if target = .broadcast ∧ router.forwards then
    encodeInternal postcard (.forwardedUserData router.localPeerId msgType (userFlags &&& 0xFE) data)
      router.maxMessageSize
  else
    encodePacket lz4 msgType data (userFlags &&& 0xFE) router.compressionThreshold router.maxMessageSize

/-- When the call succeeds, the message is in the queue of everyone it is for; one of the leader to
the leader has reached the receive callback. -/
def OkMeansSent (router : SessionRouter) (target : MessageTarget) (msgType : UInt16)
    (data : List UInt8) (userFlags : UInt8) : Prop :=
  ∀ sends received,
    router.routed lz4 postcard trySend target msgType data userFlags = .ok (sends, received) →
    let Enqueued peerId := ∃ packet,
      router.packetFor lz4 postcard target msgType data userFlags = .ok packet ∧ (peerId, packet) ∈ sends
    match target with
    | .toPeer peerId => Enqueued peerId
    | .toLeader =>
      if router.isLeader then ∃ event ∈ received, event.msgType = msgType ∧ event.data = data
      else ∃ leader, router.leaderId = some leader ∧ Enqueued leader
    | .broadcast =>
      if router.forwards then ∃ leader, router.leaderId = some leader ∧ Enqueued leader
      else ∀ peerId ∈ router.transport.connections, Enqueued peerId

/-- The target is not the node itself, and a direct broadcast that is not too large finds every
entry connected and room in its queue. -/
def TakenByAll (router : SessionRouter) (data : List UInt8) : MessageTarget → Prop
  | .toPeer _ => True
  | .toLeader => router.isLeader = false
  | .broadcast => router.forwards = true ∨
    (UInt32.ofNat data.length ≤ router.maxMessageSize →
      ∀ peerId conn, router.transport.connections.lookup peerId = some conn →
        conn.info.status = .connected ∧ trySend conn.userQueue = .ok ())

end

variable {lz4 : Lz4} {postcard : Postcard} {trySend : TrySend} {router : SessionRouter}
  {msgType : UInt16} {data : List UInt8} {userFlags : UInt8}

theorem exists_of_routed {target : MessageTarget} {sends : List (PeerId × RawPacket)}
    {received : List Received}
    (h : router.routed lz4 postcard trySend target msgType data userFlags = .ok (sends, received)) :
    router.routeMessage lz4 postcard trySend target msgType data userFlags = .ok sends ∧ received = [] := by
  unfold routed at h
  cases hroute : router.routeMessage lz4 postcard trySend target msgType data userFlags with
  | error e =>
    rw [hroute] at h
    cases h
  | ok enqueued =>
    rw [hroute] at h
    cases h
    exact ⟨rfl, rfl⟩

theorem enqueued_of_bind {packet : Except MessageError RawPacket} {peerId : PeerId}
    {sends : List (PeerId × RawPacket)}
    (h : packet.bind (router.transport.sendToPeer trySend peerId) = .ok sends) :
    ∃ sent, packet = .ok sent ∧ (peerId, sent) ∈ sends := by
  cases packet with
  | error e => cases h
  | ok sent =>
    obtain rfl := TransportManager.sends_of_sendToPeer h
    exact ⟨sent, rfl, List.mem_singleton_self _⟩

/-- What goes to one peer, the leader or another, is enqueued or reported. -/
theorem okMeansSent_toPeer (hmsg : userMessageStart ≤ msgType) (peerId : PeerId) :
    router.OkMeansSent lz4 postcard trySend (.toPeer peerId) msgType data userFlags := by
  intro sends received h
  obtain ⟨hroute, _⟩ := exists_of_routed h
  simp only [routeMessage, if_neg (UInt16.not_lt.mpr hmsg)] at hroute
  simpa [packetFor] using enqueued_of_bind hroute

theorem okMeansSent_toLeader_iff (hmsg : userMessageStart ≤ msgType) :
    router.OkMeansSent lz4 postcard trySend .toLeader msgType data userFlags ↔
      router.isLeader = false := by
  cases hleader : router.isLeader with
  | true =>
    simp only [Bool.true_eq_false, iff_false]
    intro hsent
    have hok : router.routed lz4 postcard trySend .toLeader msgType data userFlags = .ok ([], []) := by
      simp [routed, routeMessage, UInt16.not_lt.mpr hmsg, hleader, Except.map]
    have hevent := hsent _ _ hok
    simp [hleader] at hevent
  | false =>
    simp only [iff_true]
    intro sends received h
    obtain ⟨hroute, _⟩ := exists_of_routed h
    simp only [routeMessage, if_neg (UInt16.not_lt.mpr hmsg), hleader, Bool.false_eq_true, if_false] at hroute
    cases hid : router.leaderId with
    | none =>
      rw [hid] at hroute
      cases hroute
    | some leader =>
      rw [hid] at hroute
      simpa [hleader, packetFor] using enqueued_of_bind hroute

theorem okMeansSent_forwarded (hmsg : userMessageStart ≤ msgType) (hforwards : router.forwards = true) :
    router.OkMeansSent lz4 postcard trySend .broadcast msgType data userFlags := by
  intro sends received h
  obtain ⟨hroute, _⟩ := exists_of_routed h
  rw [routeMessage_forwarded hmsg hforwards] at hroute
  cases hid : router.leaderId with
  | none =>
    rw [hid] at hroute
    cases hroute
  | some leader =>
    rw [hid] at hroute
    simpa [hforwards, packetFor] using enqueued_of_bind hroute

theorem taken_of_okMeansSent (hmsg : userMessageStart ≤ msgType) (hdirect : router.forwards = false)
    (hsent : router.OkMeansSent lz4 postcard trySend .broadcast msgType data userFlags)
    (hsize : UInt32.ofNat data.length ≤ router.maxMessageSize) {peerId : PeerId} {conn : PeerConnection}
    (hconn : router.transport.connections.lookup peerId = some conn) :
    conn.info.status = .connected ∧ trySend conn.userQueue = .ok () := by
  obtain ⟨packet, hpacket⟩ : ∃ packet, encodePacket lz4 msgType data (userFlags &&& 0xFE)
      router.compressionThreshold router.maxMessageSize = .ok packet := exists_encodePacket hmsg hsize
  have hok : router.routed lz4 postcard trySend .broadcast msgType data userFlags =
      .ok ((router.transport.broadcast trySend packet none).1, []) := by
    rw [routed, routeMessage_direct hmsg hdirect, hpacket]
    rfl
  have hall := hsent _ _ hok
  simp only [hdirect, Bool.false_eq_true, if_false, packetFor, and_false, hpacket] at hall
  obtain ⟨_, heq, hmem⟩ := hall peerId (Assoc.mem_of_lookup hconn)
  cases heq
  have huser : packet.isInternal = false := isInternal_of_encodePacket hmsg hpacket
  obtain ⟨entry, hentry, hstatus, hroom⟩ := (TransportManager.mem_broadcast_user_iff huser).mp hmem
  obtain rfl : conn = entry := Option.some.inj (hconn.symm.trans hentry)
  exact ⟨hstatus, hroom⟩

theorem okMeansSent_of_taken (hmsg : userMessageStart ≤ msgType) (hdirect : router.forwards = false)
    (htaken : UInt32.ofNat data.length ≤ router.maxMessageSize →
      ∀ peerId conn, router.transport.connections.lookup peerId = some conn →
        conn.info.status = .connected ∧ trySend conn.userQueue = .ok ()) :
    router.OkMeansSent lz4 postcard trySend .broadcast msgType data userFlags := by
  intro sends received h
  obtain ⟨hroute, _⟩ := exists_of_routed h
  rw [routeMessage_direct hmsg hdirect] at hroute
  cases hpacket : encodePacket lz4 msgType data (userFlags &&& 0xFE) router.compressionThreshold
      router.maxMessageSize with
  | error e =>
    rw [hpacket] at hroute
    cases hroute
  | ok packet =>
    rw [hpacket] at hroute
    cases hroute
    simp only [hdirect, Bool.false_eq_true, if_false, packetFor, and_false, hpacket]
    intro peerId hmem
    obtain ⟨conn, hconn⟩ := Assoc.exists_lookup_of_mem hmem
    obtain ⟨hstatus, hroom⟩ := htaken (size_of_encodePacket hpacket) peerId conn hconn
    have huser : packet.isInternal = false := isInternal_of_encodePacket hmsg hpacket
    exact ⟨packet, rfl, (TransportManager.mem_broadcast_user_iff huser).mpr
      ⟨conn, hconn, hstatus, hroom⟩⟩

theorem okMeansSent_direct_iff (hmsg : userMessageStart ≤ msgType) (hdirect : router.forwards = false) :
    router.OkMeansSent lz4 postcard trySend .broadcast msgType data userFlags ↔
      (UInt32.ofNat data.length ≤ router.maxMessageSize →
        ∀ peerId conn, router.transport.connections.lookup peerId = some conn →
          conn.info.status = .connected ∧ trySend conn.userQueue = .ok ()) := by
  constructor
  · intro hsent hsize peerId conn hconn
    exact taken_of_okMeansSent hmsg hdirect hsent hsize hconn
  · exact okMeansSent_of_taken hmsg hdirect

/-- A successful call has put the message into the queue of everyone it is for, or has delivered it
at the leader itself, exactly when the leader does not send to the leader and a direct broadcast
finds room everywhere. -/
theorem ok_means_sent_iff (target : MessageTarget) (hmsg : userMessageStart ≤ msgType) :
    router.OkMeansSent lz4 postcard trySend target msgType data userFlags ↔
      router.TakenByAll trySend data target := by
  cases target with
  | toPeer peerId => exact iff_of_true (okMeansSent_toPeer hmsg peerId) trivial
  | toLeader => exact okMeansSent_toLeader_iff hmsg
  | broadcast =>
    cases hforwards : router.forwards with
    | true => exact iff_of_true (okMeansSent_forwarded hmsg hforwards) (.inl hforwards)
    | false =>
      rw [okMeansSent_direct_iff hmsg hforwards, TakenByAll, hforwards]
      simp

/-- Node `a` leads and broadcasts to `b` and `c`, whose queues have room. -/
theorem broadcast_with_room_sent :
    (Session.sampleRouter [⟨"a"⟩, ⟨"b"⟩, ⟨"c"⟩] ⟨"a"⟩ true ⟨"a"⟩).OkMeansSent literalBlock
      Session.samplePostcard (fun _ => .ok ()) .broadcast 0x0100 [104, 105] 0 := by
  refine (ok_means_sent_iff .broadcast (by decide)).mpr (.inr ?_)
  intro _ peerId conn hconn
  exact ⟨Session.status_linked _ (AList.mem_lookup_iff.mp hconn), rfl⟩

/-- The leader sends to the leader; and it broadcasts while the queue of `b` is full. -/
theorem lost_although_ok :
    ¬ (Session.sampleRouter [⟨"a"⟩, ⟨"b"⟩] ⟨"a"⟩ true ⟨"a"⟩).OkMeansSent literalBlock
        Session.samplePostcard (fun _ => .ok ()) .toLeader 0x0100 [104, 105] 0 ∧
      ¬ (Session.sampleRouter [⟨"a"⟩, ⟨"b"⟩] ⟨"a"⟩ true ⟨"a"⟩).OkMeansSent literalBlock
        Session.samplePostcard (fun _ => .error .sendQueueFull) .broadcast 0x0100 [104, 105] 0 := by
  constructor
  · intro hsent
    exact absurd ((okMeansSent_toLeader_iff (by decide)).mp hsent) (by decide)
  · intro hsent
    have hroom := (okMeansSent_direct_iff (by decide) (by decide)).mp hsent (by decide) ⟨"b"⟩ _ rfl
    exact absurd hroom.2 nofun

end SessionRouter

end MetaMystia

import MetaMystia.Session.DeliveredPayload
import MetaMystia.Session.RoutedMessages

/-! # The types of received messages

A received message takes its type from the header of a user packet or from inside a
forwarded message. What a leader sends on has been checked against the user range; what
it delivers from a forwarded message has not.
-/

namespace MetaMystia

def RawPacket.CarriesUserType (postcard : Postcard) (packet : RawPacket) : Prop :=
  packet.isInternal = true → ∀ fromPeerId originalMsgType originalFlags payload,
    decodeInternal postcard packet =
        .ok (.forwardedUserData fromPeerId originalMsgType originalFlags payload) →
      userMessageStart ≤ originalMsgType

/-- The events that a packet causes: those of the node that handles it, and those of any node that
handles what this one forwards. A frame arrives with later ones behind it. -/
inductive Causes (lz4 : Lz4) (postcard : Postcard) :
    SessionRouter → TrySend → PeerId → RawPacket → Received → Prop
  | handled {router trySend peerId packet event}
      (hevent : event ∈ (router.handleMessage lz4 postcard trySend peerId packet).2) :
      Causes lz4 postcard router trySend peerId packet event
  | forwarded {router trySend peerId packet event dst sent bytes later arrived rest}
      {receiver : SessionRouter} {itsTrySend : TrySend}
      (hsent : (dst, sent) ∈ (router.handleMessage lz4 postcard trySend peerId packet).1)
      (hbytes : PacketCodec.encode ⟨router.maxMessageSize⟩ sent [] = .ok bytes)
      (harrived : PacketCodec.decode ⟨receiver.maxMessageSize⟩ (bytes ++ later) =
        .ok (some (arrived, rest)))
      (hevent : Causes lz4 postcard receiver itsTrySend router.localPeerId arrived event) :
      Causes lz4 postcard router trySend peerId packet event

namespace PacketCodec

theorem encode_eq_ok {self : PacketCodec} {item : RawPacket} {bytes : List UInt8}
    (h : self.encode item [] = .ok bytes) : bytes = frame item := by
  unfold encode at h
  split at h
  · cases h
  · exact (Except.ok.inj h).symm

theorem msgType_of_decode_frame {self : PacketCodec} {item arrived : RawPacket}
    {suffix rest : List UInt8} (h : self.decode (frame item ++ suffix) = .ok (some (arrived, rest))) :
    arrived.msgType = item.msgType := by
  obtain ⟨l₀, l₁, l₂, l₃, t₀, t₁, flags, body, hframe, _, _, rfl, _⟩ := decode_item_cases h
  simp only [frame, u32BeBytes, u16BeBytes, List.cons_append, List.nil_append, List.cons.injEq]
    at hframe
  obtain ⟨_, _, _, _, rfl, rfl, _⟩ := hframe
  exact u16OfBeBytes_u16BeBytes item.msgType

end PacketCodec

namespace SessionRouter

variable {lz4 : Lz4} {postcard : Postcard} {trySend : TrySend} {router : SessionRouter}
  {peerId dst : PeerId} {packet sent : RawPacket} {event : Received}

theorem packet_of_mem_broadcast {exclude : Option (List PeerId)}
    (h : (dst, sent) ∈ (router.transport.broadcast trySend packet exclude).1) : sent = packet := by
  obtain ⟨entry, -, hsent⟩ := List.mem_filterMap.mp h
  split at hsent
  · cases hsent
    rfl
  · cases hsent

theorem isInternal_of_forwardMessage {fromPeerId : PeerId} {target : ForwardTarget} {msgType : UInt16}
    {flags : UInt8} {payload : List UInt8} {sends : List (PeerId × RawPacket)}
    (h : router.forwardMessage lz4 trySend fromPeerId target msgType flags payload = .ok sends)
    (hsent : (dst, sent) ∈ sends) : sent.isInternal = false := by
  unfold forwardMessage at h
  split at h
  · cases h
  · next huser =>
    split at h
    · cases h
    · cases hencoded : encodePacket lz4 msgType payload (flags &&& 0xFE) router.compressionThreshold
          router.maxMessageSize with
      | error e =>
        rw [hencoded] at h
        cases h
      | ok encoded =>
        have hpacket : encoded.isInternal = false :=
          isInternal_of_encodePacket (UInt16.not_lt.mp huser) hencoded
        rw [hencoded] at h
        cases target with
        | toPeer target =>
          rw [TransportManager.sends_of_sendToPeer h, List.mem_singleton] at hsent
          cases hsent
          exact hpacket
        | broadcast =>
          cases h
          rw [packet_of_mem_broadcast hsent]
          exact hpacket

theorem isInternal_of_handleForwardedUserData {fromPeerId : PeerId} {originalMsgType : UInt16}
    {originalFlags : UInt8} {payload : List UInt8}
    (hsent : (dst, sent) ∈ (router.handleForwardedUserData lz4 trySend fromPeerId originalMsgType
      originalFlags payload).2) : sent.isInternal = false := by
  simp only [handleForwardedUserData] at hsent
  split at hsent
  · split at hsent
    · next hforwarded => exact isInternal_of_forwardMessage hforwarded hsent
    · cases hsent
  · cases hsent

theorem handleMessage_user (huser : packet.isInternal = false) :
    router.handleMessage lz4 postcard trySend peerId packet =
      ([], (handleUserPacket lz4 peerId packet).toList) := by
  simp [handleMessage, huser]

/-- What `handle_message` makes of an internal packet: nothing here, or one event with the type that
is in a forwarded message. -/
theorem handleMessage_internal (lz4 : Lz4) (trySend : TrySend) (router : SessionRouter)
    (peerId : PeerId) (hinternal : packet.isInternal = true) :
    router.handleMessage lz4 postcard trySend peerId packet = ([], []) ∨
    ∃ fromPeerId originalMsgType originalFlags payload data,
      decodeInternal postcard packet =
        .ok (.forwardedUserData fromPeerId originalMsgType originalFlags payload) ∧
      router.handleMessage lz4 postcard trySend peerId packet =
        ((router.handleForwardedUserData lz4 trySend fromPeerId originalMsgType originalFlags payload).2,
          [⟨fromPeerId, data, originalMsgType, originalFlags⟩]) := by
  cases hmsg : decodeInternal postcard packet with
  | error e => exact .inl (by simp [handleMessage, hinternal, hmsg])
  | ok msg =>
    cases msg with
    | forwardedUserData fromPeerId originalMsgType originalFlags payload =>
      right
      cases hdata : decodePayload lz4 ⟨originalMsgType, originalFlags, payload⟩ with
      | ok data =>
        refine ⟨fromPeerId, originalMsgType, originalFlags, payload, data, rfl, ?_⟩
        simp only [handleMessage, hinternal, hmsg, if_true, handleForwardedUserData, hdata]
      | error e =>
        refine ⟨fromPeerId, originalMsgType, originalFlags, payload, payload, rfl, ?_⟩
        simp only [handleMessage, hinternal, hmsg, if_true, handleForwardedUserData, hdata]
    | _ => exact .inl (by simp [handleMessage, hinternal, hmsg])

theorem isInternal_of_sent
    (hsent : (dst, sent) ∈ (router.handleMessage lz4 postcard trySend peerId packet).1) :
    sent.isInternal = false := by
  cases hinternal : packet.isInternal with
  | false =>
    rw [handleMessage_user hinternal] at hsent
    cases hsent
  | true =>
    obtain heq | ⟨fromPeerId, originalMsgType, originalFlags, payload, data, _, heq⟩ :=
      handleMessage_internal lz4 trySend router peerId hinternal
    · rw [heq] at hsent
      cases hsent
    · rw [heq] at hsent
      exact isInternal_of_handleForwardedUserData hsent

theorem user_of_handleMessage (hcarries : packet.CarriesUserType postcard)
    (hevent : event ∈ (router.handleMessage lz4 postcard trySend peerId packet).2) :
    userMessageStart ≤ event.msgType := by
  cases hinternal : packet.isInternal with
  | false =>
    rw [handleMessage_user hinternal, Option.mem_toList] at hevent
    simp only [handleUserPacket] at hevent
    split at hevent
    · cases hevent
      exact UInt16.not_lt.mp (of_decide_eq_false hinternal)
    · cases hevent
  | true =>
    obtain heq | ⟨fromPeerId, originalMsgType, originalFlags, payload, data, hmsg, heq⟩ :=
      handleMessage_internal lz4 trySend router peerId hinternal
    · rw [heq] at hevent
      cases hevent
    · rw [heq, List.mem_singleton] at hevent
      rw [hevent]
      exact hcarries hinternal _ _ _ _ hmsg

end SessionRouter

variable {lz4 : Lz4} {postcard : Postcard} {router : SessionRouter} {trySend : TrySend}
  {peerId : PeerId} {packet : RawPacket} {event : Received}

/-- By induction on the hops: a packet that arrives at another node is a user packet. -/
theorem Causes.user (h : Causes lz4 postcard router trySend peerId packet event)
    (hcarries : packet.CarriesUserType postcard) : userMessageStart ≤ event.msgType := by
  induction h with
  | handled hevent => exact SessionRouter.user_of_handleMessage hcarries hevent
  | forwarded hsent hbytes harrived _ ih =>
    rw [PacketCodec.encode_eq_ok hbytes] at harrived
    have htype := PacketCodec.msgType_of_decode_frame harrived
    have huser := SessionRouter.isInternal_of_sent hsent
    apply ih
    intro hinternal
    rw [RawPacket.isInternal, htype] at hinternal
    exact absurd (huser.symm.trans hinternal) Bool.false_ne_true

theorem carriesUserType_of_causes
    (h : ∀ event, Causes lz4 postcard router trySend peerId packet event →
      userMessageStart ≤ event.msgType) : packet.CarriesUserType postcard := by
  rintro hinternal fromPeerId originalMsgType originalFlags payload hmsg
  obtain ⟨data, hevent⟩ : ∃ data, ⟨fromPeerId, data, originalMsgType, originalFlags⟩ ∈
      (router.handleMessage lz4 postcard trySend peerId packet).2 := by
    simp only [SessionRouter.handleMessage, hinternal, hmsg, if_true,
      SessionRouter.handleForwardedUserData]
    exact ⟨_, List.mem_singleton_self _⟩
  exact h _ (.handled hevent)

/-- Whatever bytes a peer sends, and whatever states the router is in as the decoded packets are
handled: all the events that they cause, here or at a node they are forwarded to, have user types
if and only if no packet has another type inside a forwarded message. -/
theorem received_types_user_iff (maxMessageSize : UInt32) (chunks : List (List UInt8))
    (routers : Nat → SessionRouter) (trySends : Nat → TrySend) (peerId : PeerId) :
    let packets := (PacketCodec.decodeChunks ⟨maxMessageSize⟩ chunks).items
    (∀ (i : Nat) (packet : RawPacket), packets[i]? = some packet → ∀ event,
        Causes lz4 postcard (routers i) (trySends i) peerId packet event →
          userMessageStart ≤ event.msgType) ↔
      ∀ packet ∈ packets, packet.CarriesUserType postcard := by
  intro packets
  constructor
  · rintro h packet hpacket
    obtain ⟨i, hi⟩ := List.mem_iff_getElem?.mp hpacket
    exact carriesUserType_of_causes (h i packet hi)
  · rintro h i packet hi event hcauses
    exact hcauses.user (h packet (List.mem_of_getElem? hi))

def lowTypePostcard : Postcard where
  toAllocvec _ := .error "unsupported"
  fromBytes bytes :=
    if bytes = [11, 1, 98, 1, 0, 2, 104, 105] then .ok (.forwardedUserData ⟨"b"⟩ 0x0001 0 [104, 105])
    else .error "unsupported"

/-- The stream of a peer with a forwarded message of type 1 in it: the application receives a
message of the type of a handshake. -/
theorem handshake_type_received :
    let packet : RawPacket := ⟨0x0030, 0, [11, 1, 98, 1, 0, 2, 104, 105]⟩
    let router := Session.sampleRouter [⟨"a"⟩, ⟨"b"⟩] ⟨"a"⟩ true ⟨"a"⟩
    packet ∈ (PacketCodec.decodeChunks ⟨64⟩ [PacketCodec.frame packet]).items ∧
      Causes literalBlock lowTypePostcard router (fun _ => .ok ()) ⟨"b"⟩ packet
        ⟨⟨"b"⟩, [104, 105], 0x0001, 0⟩ ∧
      ¬ userMessageStart ≤ 0x0001 := by
  intro packet router
  refine ⟨?_, .handled ?_, by decide⟩
  · rw [decodeChunks_frame (by decide)]
    exact List.mem_singleton_self packet
  · decide +kernel

end MetaMystia

import MetaMystia.Session.CentralizedBroadcast

/-! # The size of delivered payloads

The codec limits what arrives on the wire, and a payload is decompressed after that.
A user packet and a forwarded message each come with their own compression bit.
-/

namespace MetaMystia

/-- `postcard` writes a byte vector out in full, so none is longer than the bytes it is read from. -/
def Postcard.WritesOut (postcard : Postcard) : Prop :=
  ∀ bytes fromPeerId msgType flags payload,
    postcard.fromBytes bytes = .ok (.forwardedUserData fromPeerId msgType flags payload) →
      payload.length ≤ bytes.length

namespace RawPacket

def compressedBlock (postcard : Postcard) (packet : RawPacket) : Option (List UInt8) :=
  if packet.isInternal then
    match decodeInternal postcard packet with
    | .ok (.forwardedUserData _ _ originalFlags payload) =>
      if originalFlags &&& 0x01 != 0 then some payload else none
    | _ => none
  else if packet.isCompressed then some packet.payload
  else none

def InflatesWithin (lz4 : Lz4) (postcard : Postcard) (maxMessageSize : UInt32) (packet : RawPacket) :
    Prop :=
  ∀ block ∈ packet.compressedBlock postcard, ∀ data,
    lz4.decompressSizePrepended block = .ok data → data.length ≤ maxMessageSize.toNat

end RawPacket

variable {lz4 : Lz4} {postcard : Postcard} {trySend : TrySend} {maxMessageSize : UInt32}

theorem decodePayload_cases (lz4 : Lz4) (packet : RawPacket) :
    (packet.isCompressed = false ∧ decodePayload lz4 packet = .ok packet.payload) ∨
    (packet.isCompressed = true ∧ ((∃ data, lz4.decompressSizePrepended packet.payload = .ok data ∧
        decodePayload lz4 packet = .ok data) ∨
      ∃ e e', lz4.decompressSizePrepended packet.payload = .error e ∧
        decodePayload lz4 packet = .error e')) := by
  unfold decodePayload
  cases hbit : packet.isCompressed with
  | false => exact .inl ⟨rfl, rfl⟩
  | true =>
    cases hdata : lz4.decompressSizePrepended packet.payload with
    | ok data => exact .inr ⟨rfl, .inl ⟨data, rfl, rfl⟩⟩
    | error e => exact .inr ⟨rfl, .inr ⟨e, _, rfl, rfl⟩⟩

theorem handleUserPacket_within_iff (peerId : PeerId) {packet : RawPacket}
    (hpayload : packet.payload.length ≤ maxMessageSize.toNat) (huser : packet.isInternal = false) :
    (∀ event ∈ handleUserPacket lz4 peerId packet, event.data.length ≤ maxMessageSize.toNat) ↔
      packet.InflatesWithin lz4 postcard maxMessageSize := by
  obtain ⟨hbit, heq⟩ | ⟨hbit, ⟨data, hdata, heq⟩ | ⟨e, e', hdata, heq⟩⟩ := decodePayload_cases lz4 packet
  · simp [handleUserPacket, heq, RawPacket.InflatesWithin, RawPacket.compressedBlock, huser, hbit,
      hpayload]
  · simp [handleUserPacket, heq, RawPacket.InflatesWithin, RawPacket.compressedBlock, huser, hbit, hdata]
  · simp [handleUserPacket, heq, RawPacket.InflatesWithin, RawPacket.compressedBlock, huser, hbit, hdata]

/-- What a forwarded message delivers is within the limit; it is delivered as it is if it does not
decompress. -/
theorem forwarded_within_iff {router : SessionRouter} (peerId : PeerId) {packet : RawPacket}
    {fromPeerId : PeerId} {originalMsgType : UInt16} {originalFlags : UInt8} {payload : List UInt8}
    (hpayload : payload.length ≤ maxMessageSize.toNat) (hinternal : packet.isInternal = true)
    (hmsg : decodeInternal postcard packet =
      .ok (.forwardedUserData fromPeerId originalMsgType originalFlags payload)) :
    (∀ event ∈ (router.handleMessage lz4 postcard trySend peerId packet).2,
        event.data.length ≤ maxMessageSize.toNat) ↔
      packet.InflatesWithin lz4 postcard maxMessageSize := by
  let userPacket : RawPacket := { msgType := originalMsgType, flags := originalFlags, payload }
  have hblock : packet.compressedBlock postcard =
      if userPacket.isCompressed then some payload else none := by
    simp only [RawPacket.compressedBlock, hinternal, hmsg, if_true]
    rfl
  have hok : ∀ data, decodePayload lz4 userPacket = .ok data →
      (router.handleMessage lz4 postcard trySend peerId packet).2 =
        [⟨fromPeerId, data, originalMsgType, originalFlags⟩] := by
    intro data hdata
    simp only [userPacket] at hdata
    simp only [SessionRouter.handleMessage, hinternal, hmsg, if_true,
      SessionRouter.handleForwardedUserData, hdata]
  have herror : ∀ e, decodePayload lz4 userPacket = .error e →
      (router.handleMessage lz4 postcard trySend peerId packet).2 =
        [⟨fromPeerId, payload, originalMsgType, originalFlags⟩] := by
    intro e hdata
    simp only [userPacket] at hdata
    simp only [SessionRouter.handleMessage, hinternal, hmsg, if_true,
      SessionRouter.handleForwardedUserData, hdata]
  rw [RawPacket.InflatesWithin, hblock]
  obtain ⟨hbit, heq⟩ | ⟨hbit, ⟨data, hdata, heq⟩ | ⟨e, e', hdata, heq⟩⟩ :=
    decodePayload_cases lz4 userPacket
  · rw [hok _ heq]
    simp [hbit, userPacket, hpayload]
  · rw [hok data heq]
    simp [hbit, show lz4.decompressSizePrepended payload = .ok data from hdata]
  · rw [herror _ heq]
    simp [hbit, hpayload, show lz4.decompressSizePrepended payload = .error e from hdata]

/-- Whatever bytes a peer sends: the events that a decoded packet causes carry at most the maximum
size if and only if a compressed payload in it does not decompress to more. -/
theorem delivered_within_limit_iff {chunks : List (List UInt8)} (hpostcard : postcard.WritesOut) :
    ∀ packet ∈ (PacketCodec.decodeChunks ⟨maxMessageSize⟩ chunks).items,
      ∀ (router : SessionRouter) (trySend : TrySend) (peerId : PeerId),
        (∀ event ∈ (router.handleMessage lz4 postcard trySend peerId packet).2,
            event.data.length ≤ maxMessageSize.toNat) ↔
          packet.InflatesWithin lz4 postcard maxMessageSize := by
  rintro packet hpacket router trySend peerId
  have hwire : packet.payload.length ≤ maxMessageSize.toNat :=
    PacketCodec.payload_length_of_mem_decodeChunks hpacket
  cases hinternal : packet.isInternal with
  | false =>
    have hevents : (router.handleMessage lz4 postcard trySend peerId packet).2 =
        (handleUserPacket lz4 peerId packet).toList := by
      simp [SessionRouter.handleMessage, hinternal]
    simp only [hevents, Option.mem_toList]
    exact handleUserPacket_within_iff peerId hwire hinternal
  | true =>
    cases hmsg : decodeInternal postcard packet with
    | error e =>
      simp [SessionRouter.handleMessage, RawPacket.InflatesWithin, RawPacket.compressedBlock, hinternal,
        hmsg]
    | ok msg =>
      cases msg with
      | forwardedUserData fromPeerId originalMsgType originalFlags payload =>
        have hbytes : postcard.fromBytes packet.payload =
            .ok (.forwardedUserData fromPeerId originalMsgType originalFlags payload) := by
          unfold decodeInternal at hmsg
          split at hmsg
          · cases hmsg
            assumption
          · cases hmsg
        have hpayload := hpostcard _ _ _ _ _ hbytes
        exact forwarded_within_iff peerId (hpayload.trans hwire) hinternal hmsg
      | _ =>
        simp [SessionRouter.handleMessage, RawPacket.InflatesWithin, RawPacket.compressedBlock, hinternal,
          hmsg]

theorem decodeChunks_frame {self : PacketCodec} {packet : RawPacket}
    (h : packet.payload.length ≤ self.maxMessageSize.toNat) :
    (self.decodeChunks [PacketCodec.frame packet]).items = [packet] := by
  have hdrain : Framing.drain self.decoder ([packet].flatMap PacketCodec.frame) = ⟨[packet], .ok []⟩ :=
    PacketCodec.drain_frames (by simpa using h)
  rw [PacketCodec.decodeChunks_eq_drain]
  exact congrArg Framing.Stream.items hdrain

theorem samplePostcard_writesOut : Session.samplePostcard.WritesOut := by
  rintro bytes fromPeerId msgType flags payload h
  simp only [Session.samplePostcard] at h
  split_ifs at h with hbytes
  cases h
  subst hbytes
  decide

theorem forwarded_message_within_limit :
    let packet : RawPacket := ⟨0x0030, 0, [11, 1, 98, 128, 2, 2, 2, 104, 105]⟩
    ∀ event ∈ ((Session.sampleRouter [⟨"a"⟩, ⟨"b"⟩] ⟨"a"⟩ false ⟨"a"⟩).handleMessage literalBlock Session.samplePostcard
      (fun _ => .ok ()) ⟨"b"⟩ packet).2, event.data.length ≤ (64 : UInt32).toNat := by
  intro packet
  have hmem : packet ∈ (PacketCodec.decodeChunks ⟨64⟩ [PacketCodec.frame packet]).items := by
    rw [decodeChunks_frame (by decide)]
    exact List.mem_singleton_self packet
  refine (delivered_within_limit_iff samplePostcard_writesOut packet hmem _ _ _).mpr ?_
  have hnone : packet.compressedBlock Session.samplePostcard = none := by decide
  rintro block hblock
  rw [hnone] at hblock
  cases hblock

/-- The block of 24 zeros: one literal, a match of 18 bytes, five literals. -/
def zeroRun : List UInt8 := [24, 0, 0, 0, 0x1E, 0, 1, 0, 0x50, 0, 0, 0, 0, 0]

/-- `lz4_flex` on 24 zeros; everything else is written without matches. -/
def zeroRunBlock : Lz4 where
  compressPrependSize data :=
    if data = List.replicate 24 0 then zeroRun else literalBlock.compressPrependSize data
  decompressSizePrepended block :=
    if block = zeroRun then .ok (List.replicate 24 0) else .ok (block.drop 5)

theorem zeroRunBlock_inverts (data : List UInt8) :
    zeroRunBlock.decompressSizePrepended (zeroRunBlock.compressPrependSize data) = .ok data := by
  by_cases hzeros : data = List.replicate 24 0
  · simp [zeroRunBlock, hzeros]
  · have hblock : literalBlock.compressPrependSize data ≠ zeroRun := by
      -- A block of literals as long as this one begins with the length 9.
      intro hrun
      have hlength : data.length = 9 := by simpa [zeroRun, literalBlock] using congrArg List.length hrun
      simp [zeroRun, literalBlock, hlength] at hrun
    simp only [zeroRunBlock, if_neg hzeros, if_neg hblock]
    rfl

/-- 21 bytes of a hostile peer become 24 bytes, where 16 are allowed. -/
theorem delivered_beyond_limit :
    ¬ ∀ (lz4 : Lz4) (postcard : Postcard),
      (∀ data, lz4.decompressSizePrepended (lz4.compressPrependSize data) = .ok data) →
      postcard.WritesOut → ∀ (maxMessageSize : UInt32) (chunks : List (List UInt8)),
        ∀ packet ∈ (PacketCodec.decodeChunks ⟨maxMessageSize⟩ chunks).items,
          ∀ (router : SessionRouter) (trySend : TrySend) (peerId : PeerId),
            ∀ event ∈ (router.handleMessage lz4 postcard trySend peerId packet).2,
              event.data.length ≤ maxMessageSize.toNat := by
  intro h
  let packet : RawPacket := ⟨0x0100, 1, zeroRun⟩
  have hmem : packet ∈ (PacketCodec.decodeChunks ⟨16⟩ [PacketCodec.frame packet]).items := by
    rw [decodeChunks_frame (by decide)]
    exact List.mem_singleton_self packet
  have hevent : ⟨⟨"b"⟩, List.replicate 24 0, 0x0100, 1⟩ ∈
      ((Session.sampleRouter [⟨"a"⟩, ⟨"b"⟩] ⟨"a"⟩ false ⟨"a"⟩).handleMessage zeroRunBlock
        Session.samplePostcard (fun _ => .ok ()) ⟨"b"⟩ packet).2 := by
    decide +kernel
  have hlength := h zeroRunBlock Session.samplePostcard zeroRunBlock_inverts samplePostcard_writesOut 16 _ packet
    hmem _ _ _ _ hevent
  exact absurd hlength (by decide)

end MetaMystia

import MetaMystia.Transport.PacketCodec

/-! # User messages on the wire

The size limits of the encoder and of the codec agree, and the reserved flag bit
says exactly when the payload was compressed.
-/

namespace MetaMystia

theorem flags_without_compression (flags : UInt8) :
    (flags &&& 0xFE) &&& 0x01 = 0 ∧ (flags &&& 0xFE) &&& 0xFE = flags &&& 0xFE := by
  constructor
  · rw [UInt8.and_assoc]
    exact UInt8.and_zero
  · rw [UInt8.and_assoc]
    rfl

theorem flags_with_compression (flags : UInt8) :
    ((flags &&& 0xFE) ||| 0x01) &&& 0x01 = 1 ∧
      ((flags &&& 0xFE) ||| 0x01) &&& 0xFE = flags &&& 0xFE := by
  have hall : ∀ n : Fin 256, ((UInt8.ofFin n &&& 0xFE) ||| 0x01) &&& 0x01 = 1 ∧
      ((UInt8.ofFin n &&& 0xFE) ||| 0x01) &&& 0xFE = UInt8.ofFin n &&& 0xFE := by decide +kernel
  exact hall flags.toFin

section

variable {lz4 : Lz4} {msgType : UInt16} {data : List UInt8} {userFlags : UInt8}
  {compressionThreshold maxMessageSize : UInt32} {packet : RawPacket}

theorem isInternal_of_encodePacket (hmsg : userMessageStart ≤ msgType)
    (h : encodePacket lz4 msgType data userFlags compressionThreshold maxMessageSize = .ok packet) :
    packet.isInternal = false := by
  have huser : decide (msgType < userMessageStart) = false := decide_eq_false (UInt16.not_lt.mpr hmsg)
  simp only [encodePacket] at h
  split_ifs at h
  · cases h
    exact huser
  · cases h
    exact huser

theorem size_of_encodePacket
    (h : encodePacket lz4 msgType data userFlags compressionThreshold maxMessageSize = .ok packet) :
    UInt32.ofNat data.length ≤ maxMessageSize := by
  simp only [encodePacket] at h
  split_ifs at h with _ hlarge
  · exact UInt32.not_lt.mp hlarge
  · exact UInt32.not_lt.mp hlarge

theorem exists_encodePacket (hmsg : userMessageStart ≤ msgType)
    (hsize : UInt32.ofNat data.length ≤ maxMessageSize) :
    ∃ packet, encodePacket lz4 msgType data userFlags compressionThreshold maxMessageSize = .ok packet := by
  simp only [encodePacket, if_neg (UInt16.not_lt.mpr hmsg), if_neg (UInt32.not_lt.mpr hsize)]
  split_ifs
  · exact ⟨_, rfl⟩
  · exact ⟨_, rfl⟩

end

section

variable (lz4 : Lz4) {msgType : UInt16} {data : List UInt8} (userFlags : UInt8)
  (compressionThreshold maxMessageSize : UInt32)

theorem lt_ofNat_length_iff (limit : UInt32) (hdata : data.length < 2 ^ 32) :
    limit < UInt32.ofNat data.length ↔ limit.toNat < data.length := by
  rw [UInt32.lt_iff_toNat_lt, toNat_ofNat_length hdata]

theorem encodePacket_cases (hmsg : userMessageStart ≤ msgType) (hdata : data.length < 2 ^ 32) :
    (maxMessageSize.toNat < data.length ∧
      encodePacket lz4 msgType data userFlags compressionThreshold maxMessageSize =
        .error (.messageTooLarge (UInt32.ofNat data.length))) ∨
    (data.length ≤ maxMessageSize.toNat ∧
      (compressionThreshold.toNat < data.length ∧
        (lz4.compressPrependSize data).length < data.length) ∧
      encodePacket lz4 msgType data userFlags compressionThreshold maxMessageSize =
        .ok ⟨msgType, (userFlags &&& 0xFE) ||| 0x01, lz4.compressPrependSize data⟩) ∨
    (data.length ≤ maxMessageSize.toNat ∧
      ¬ (compressionThreshold.toNat < data.length ∧
        (lz4.compressPrependSize data).length < data.length) ∧
      encodePacket lz4 msgType data userFlags compressionThreshold maxMessageSize =
        .ok ⟨msgType, userFlags &&& 0xFE, data⟩) := by
  unfold encodePacket
  simp only [if_neg (UInt16.not_lt.mpr hmsg), lt_ofNat_length_iff _ hdata]
  by_cases hsize : maxMessageSize.toNat < data.length
  · exact .inl ⟨hsize, if_pos hsize⟩
  · simp only [if_neg hsize]
    by_cases hshorter : compressionThreshold.toNat < data.length ∧
        (lz4.compressPrependSize data).length < data.length
    · exact .inr (.inl ⟨by omega, hshorter, if_pos hshorter⟩)
    · exact .inr (.inr ⟨by omega, hshorter, if_neg hshorter⟩)

/-- What the packet of an encoded user message carries. -/
structure Carries (lz4 : Lz4) (msgType : UInt16) (data : List UInt8) (userFlags : UInt8)
    (compressionThreshold : UInt32) (packet : RawPacket) : Prop where
  user : packet.isInternal = false
  payload : decodePayload lz4 packet = .ok data
  msgType : packet.msgType = msgType
  flags : packet.flags &&& 0xFE = userFlags &&& 0xFE
  length : packet.payload.length ≤ data.length
  compressed : packet.flags &&& 0x01 ≠ 0 ↔
    compressionThreshold.toNat < data.length ∧ (lz4.compressPrependSize data).length < data.length

theorem encodePacket_carries (hmsg : userMessageStart ≤ msgType) (hdata : data.length < 2 ^ 32)
    (hlz4 : lz4.decompressSizePrepended (lz4.compressPrependSize data) = .ok data)
    (hsize : data.length ≤ maxMessageSize.toNat) :
    ∃ packet,
      encodePacket lz4 msgType data userFlags compressionThreshold maxMessageSize = .ok packet ∧
      Carries lz4 msgType data userFlags compressionThreshold packet := by
  rcases encodePacket_cases lz4 userFlags compressionThreshold maxMessageSize hmsg hdata with
    ⟨hno, _⟩ | ⟨_, hshorter, heq⟩ | ⟨_, hlonger, heq⟩
  · omega
  · obtain ⟨hbit, hrest⟩ := flags_with_compression userFlags
    have hbit' : ((userFlags &&& 0xFE) ||| 0x01) &&& 0x01 ≠ 0 := by
      rw [hbit]
      decide
    refine ⟨_, heq, ?_⟩
    constructor
    · exact decide_eq_false (UInt16.not_lt.mpr hmsg)
    · simp only [decodePayload, RawPacket.isCompressed, bne_iff_ne, if_pos hbit', hlz4]
    · rfl
    · exact hrest
    · exact Nat.le_of_lt hshorter.2
    · exact iff_of_true hbit' hshorter
  · obtain ⟨hbit, hrest⟩ := flags_without_compression userFlags
    have hbit' : ¬ (userFlags &&& 0xFE) &&& 0x01 ≠ 0 := not_not_intro hbit
    refine ⟨_, heq, ?_⟩
    constructor
    · exact decide_eq_false (UInt16.not_lt.mpr hmsg)
    · simp only [decodePayload, RawPacket.isCompressed, bne_iff_ne, if_neg hbit']
    · rfl
    · exact hrest
    · exact Nat.le_refl _
    · exact iff_of_false hbit' hlonger

/-- `MessageTooLarge` is about the uncompressed length, and what is not too large arrives as it
was sent. -/
theorem user_message_survives_wire (hmsg : userMessageStart ≤ msgType)
    (hdata : data.length < 2 ^ 31)
    (hlz4 : lz4.decompressSizePrepended (lz4.compressPrependSize data) = .ok data) :
    ((∃ length, encodePacket lz4 msgType data userFlags compressionThreshold maxMessageSize =
        .error (.messageTooLarge length)) ↔ maxMessageSize.toNat < data.length) ∧
    (data.length ≤ maxMessageSize.toNat → ∃ packet bytes,
      encodePacket lz4 msgType data userFlags compressionThreshold maxMessageSize = .ok packet ∧
      PacketCodec.encode ⟨maxMessageSize⟩ packet [] = .ok bytes ∧
      (∀ suffix, PacketCodec.decode ⟨maxMessageSize⟩ (bytes ++ suffix) =
        .ok (some (packet, suffix))) ∧
      Carries lz4 msgType data userFlags compressionThreshold packet) := by
  have hdata' : data.length < 2 ^ 32 := by omega
  constructor
  · rcases encodePacket_cases lz4 userFlags compressionThreshold maxMessageSize hmsg hdata' with
      ⟨hlarge, heq⟩ | ⟨hsize, _, heq⟩ | ⟨hsize, _, heq⟩
    · exact iff_of_true ⟨_, heq⟩ hlarge
    · rw [heq]
      exact iff_of_false (by rintro ⟨_, hno⟩; cases hno) (by omega)
    · rw [heq]
      exact iff_of_false (by rintro ⟨_, hno⟩; cases hno) (by omega)
  · intro hsize
    obtain ⟨packet, heq, hcarries⟩ :=
      encodePacket_carries lz4 userFlags compressionThreshold maxMessageSize hmsg hdata' hlz4 hsize
    have hpayload : packet.payload.length ≤ maxMessageSize.toNat := by
      have hlength := hcarries.length
      omega
    refine ⟨packet, PacketCodec.frame packet, heq, ?_, ?_, hcarries⟩
    · exact PacketCodec.encode_eq_frame hpayload []
    · intro suffix
      exact PacketCodec.decode_frame hpayload suffix

end

/-- A block without matches: the size, one token, the bytes as literals. `lz4_flex` emits it for
fewer than 13 bytes. -/
def literalBlock : Lz4 where
  compressPrependSize data :=
    [UInt8.ofNat data.length, 0, 0, 0, UInt8.ofNat (16 * data.length)] ++ data
  decompressSizePrepended
    | size :: _ :: _ :: _ :: _ :: literals =>
      if literals.length = size.toNat then .ok literals else .error "literal is out of bounds"
    | _ => .error "expected another byte, found none"

theorem hello_survives_wire :
    ∃ packet bytes,
      encodePacket literalBlock 0x0100 [104, 101, 108, 108, 111] 0x83 0 65536 = .ok packet ∧
      PacketCodec.encode ⟨65536⟩ packet [] = .ok bytes ∧
      (∀ suffix, PacketCodec.decode ⟨65536⟩ (bytes ++ suffix) = .ok (some (packet, suffix))) ∧
      Carries literalBlock 0x0100 [104, 101, 108, 108, 111] 0x83 0 packet :=
  (user_message_survives_wire literalBlock 0x83 0 65536 (by decide) (by decide) rfl).2 (by decide)

end MetaMystia

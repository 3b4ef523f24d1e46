import MetaMystia.Library.Framing
import MetaMystia.Messaging

/-! # Framing of packets

Seven bytes of header, then the payload. The decoder judges a header as soon as
all of it is there, so neither a packet nor a rejection depends on where the
stream was cut.
-/

namespace MetaMystia

/-- `u32::from_be_bytes`. -/
def u32OfBeBytes (a b c d : UInt8) : UInt32 :=
  UInt32.ofNat (((a.toNat * 256 + b.toNat) * 256 + c.toNat) * 256 + d.toNat)

/-- `u16::from_be_bytes`. -/
def u16OfBeBytes (a b : UInt8) : UInt16 := UInt16.ofNat (a.toNat * 256 + b.toNat)

/-- The bytes of `put_u32`. -/
def u32BeBytes (n : UInt32) : List UInt8 :=
  [UInt8.ofNat (n.toNat / 16777216), UInt8.ofNat (n.toNat / 65536), UInt8.ofNat (n.toNat / 256),
    UInt8.ofNat n.toNat]

/-- The bytes of `put_u16`. -/
def u16BeBytes (n : UInt16) : List UInt8 := [UInt8.ofNat (n.toNat / 256), UInt8.ofNat n.toNat]

structure PacketCodec where
  maxMessageSize : UInt32

namespace PacketCodec

open Framing

/-- The packet and the rest of the buffer, or `none` if bytes are missing. -/
def decode (self : PacketCodec) (src : List UInt8) :
    Except MessageError (Option (RawPacket × List UInt8)) :=
  match src with
  | l₀ :: l₁ :: l₂ :: l₃ :: t₀ :: t₁ :: flags :: body =>
    let length := u32OfBeBytes l₀ l₁ l₂ l₃
    if self.maxMessageSize < length then
      .error (.messageTooLarge length)
    else if body.length < length.toNat then
      .ok none
    else
      .ok (some ({ msgType := u16OfBeBytes t₀ t₁, flags, payload := body.take length.toNat },
        body.drop length.toNat))
  | _ => .ok none

def encode (self : PacketCodec) (item : RawPacket) (dst : List UInt8) :
    Except MessageError (List UInt8) :=
  if self.maxMessageSize.toNat < item.payload.length then
    .error (.messageTooLarge (UInt32.ofNat item.payload.length))
  else
    .ok (dst ++ (u32BeBytes (UInt32.ofNat item.payload.length) ++ u16BeBytes item.msgType ++
      [item.flags] ++ item.payload))

def encodeAll (self : PacketCodec) : List RawPacket → List UInt8 → Except MessageError (List UInt8)
  | [], dst => .ok dst
  | item :: rest, dst => (self.encode item dst).bind (self.encodeAll rest)

theorem u32OfBeBytes_u32BeBytes (n : UInt32) :
    u32OfBeBytes (UInt8.ofNat (n.toNat / 16777216)) (UInt8.ofNat (n.toNat / 65536))
      (UInt8.ofNat (n.toNat / 256)) (UInt8.ofNat n.toNat) = n := by
  apply UInt32.toNat_inj.mp
  have hn := n.toNat_lt
  simp only [u32OfBeBytes, UInt32.toNat_ofNat', UInt8.toNat_ofNat']
  omega

theorem u16OfBeBytes_u16BeBytes (n : UInt16) :
    u16OfBeBytes (UInt8.ofNat (n.toNat / 256)) (UInt8.ofNat n.toNat) = n := by
  apply UInt16.toNat_inj.mp
  have hn := n.toNat_lt
  simp only [u16OfBeBytes, UInt16.toNat_ofNat', UInt8.toNat_ofNat']
  omega

variable {self : PacketCodec}

theorem decode_header (self : PacketCodec) (l₀ l₁ l₂ l₃ t₀ t₁ flags : UInt8) (body : List UInt8) :
    (self.maxMessageSize < u32OfBeBytes l₀ l₁ l₂ l₃ ∧
      self.decode (l₀ :: l₁ :: l₂ :: l₃ :: t₀ :: t₁ :: flags :: body) =
        .error (.messageTooLarge (u32OfBeBytes l₀ l₁ l₂ l₃))) ∨
    (¬ self.maxMessageSize < u32OfBeBytes l₀ l₁ l₂ l₃ ∧
      body.length < (u32OfBeBytes l₀ l₁ l₂ l₃).toNat ∧
      self.decode (l₀ :: l₁ :: l₂ :: l₃ :: t₀ :: t₁ :: flags :: body) = .ok none) ∨
    (¬ self.maxMessageSize < u32OfBeBytes l₀ l₁ l₂ l₃ ∧
      (u32OfBeBytes l₀ l₁ l₂ l₃).toNat ≤ body.length ∧
      self.decode (l₀ :: l₁ :: l₂ :: l₃ :: t₀ :: t₁ :: flags :: body) =
        .ok (some ({ msgType := u16OfBeBytes t₀ t₁
                     flags
                     payload := body.take (u32OfBeBytes l₀ l₁ l₂ l₃).toNat },
          body.drop (u32OfBeBytes l₀ l₁ l₂ l₃).toNat))) := by
  unfold decode
  by_cases hsize : self.maxMessageSize < u32OfBeBytes l₀ l₁ l₂ l₃
  · exact .inl ⟨hsize, if_pos hsize⟩
  · by_cases hbody : body.length < (u32OfBeBytes l₀ l₁ l₂ l₃).toNat
    · exact .inr (.inl ⟨hsize, hbody, by simp only [if_neg hsize, if_pos hbody]⟩)
    · exact .inr (.inr ⟨hsize, by omega, by simp only [if_neg hsize, if_neg hbody]⟩)

theorem decode_of_short {src : List UInt8} (h : src.length < 7) : self.decode src = .ok none := by
  unfold decode
  split
  · simp only [List.length_cons] at h
    omega
  · rfl

theorem short_or_header (src : List UInt8) : src.length < 7 ∨
    ∃ l₀ l₁ l₂ l₃ t₀ t₁ flags body, src = l₀ :: l₁ :: l₂ :: l₃ :: t₀ :: t₁ :: flags :: body := by
  match src with
  | l₀ :: l₁ :: l₂ :: l₃ :: t₀ :: t₁ :: flags :: body => exact .inr ⟨_, _, _, _, _, _, _, _, rfl⟩
  | [] | [_] | [_, _] | [_, _, _] | [_, _, _, _] | [_, _, _, _, _] | [_, _, _, _, _, _] =>
    exact .inl (by simp)

/-- A packet comes from a header and a body that holds the payload it announces. -/
theorem decode_item_cases {src rest : List UInt8} {item : RawPacket}
    (h : self.decode src = .ok (some (item, rest))) : ∃ l₀ l₁ l₂ l₃ t₀ t₁ flags body,
      src = l₀ :: l₁ :: l₂ :: l₃ :: t₀ :: t₁ :: flags :: body ∧
      ¬ self.maxMessageSize < u32OfBeBytes l₀ l₁ l₂ l₃ ∧
      (u32OfBeBytes l₀ l₁ l₂ l₃).toNat ≤ body.length ∧
      item = { msgType := u16OfBeBytes t₀ t₁
               flags
               payload := body.take (u32OfBeBytes l₀ l₁ l₂ l₃).toNat } ∧
      rest = body.drop (u32OfBeBytes l₀ l₁ l₂ l₃).toNat := by
  obtain hshort | ⟨l₀, l₁, l₂, l₃, t₀, t₁, flags, body, rfl⟩ := short_or_header src
  · rw [decode_of_short hshort] at h
    cases h
  · obtain ⟨_, heq⟩ | ⟨_, _, heq⟩ | ⟨hsize, hbody, heq⟩ := self.decode_header l₀ l₁ l₂ l₃ t₀ t₁ flags body
    · rw [heq] at h
      cases h
    · rw [heq] at h
      cases h
    · rw [heq] at h
      cases h
      exact ⟨l₀, l₁, l₂, l₃, t₀, t₁, flags, body, rfl, hsize, hbody, rfl, rfl⟩

theorem decode_consumes {src rest : List UInt8} {item : RawPacket}
    (h : self.decode src = .ok (some (item, rest))) : rest.length < src.length := by
  obtain ⟨l₀, l₁, l₂, l₃, t₀, t₁, flags, body, rfl, _, _, _, rfl⟩ := decode_item_cases h
  simp only [List.length_drop, List.length_cons]
  omega

theorem decode_item_append {src rest : List UInt8} {item : RawPacket}
    (h : self.decode src = .ok (some (item, rest))) (more : List UInt8) :
    self.decode (src ++ more) = .ok (some (item, rest ++ more)) := by
  obtain ⟨l₀, l₁, l₂, l₃, t₀, t₁, flags, body, rfl, hsize, hbody, rfl, rfl⟩ := decode_item_cases h
  simp only [List.cons_append]
  obtain ⟨hno, _⟩ | ⟨_, hno, _⟩ | ⟨_, _, heq⟩ :=
    self.decode_header l₀ l₁ l₂ l₃ t₀ t₁ flags (body ++ more)
  · exact absurd hno hsize
  · rw [List.length_append] at hno
    omega
  · rw [heq, List.take_append_of_le_length hbody, List.drop_append_of_le_length hbody]

theorem decode_error_append {src : List UInt8} {e : MessageError} (h : self.decode src = .error e)
    (more : List UInt8) : self.decode (src ++ more) = .error e := by
  obtain hshort | ⟨l₀, l₁, l₂, l₃, t₀, t₁, flags, body, rfl⟩ := short_or_header src
  · rw [decode_of_short hshort] at h
    cases h
  · obtain ⟨hsize, heq⟩ | ⟨_, _, heq⟩ | ⟨_, _, heq⟩ := self.decode_header l₀ l₁ l₂ l₃ t₀ t₁ flags body
    · rw [heq] at h
      cases h
      simp only [List.cons_append]
      rcases self.decode_header l₀ l₁ l₂ l₃ t₀ t₁ flags (body ++ more) with
        ⟨_, heq⟩ | ⟨hno, _⟩ | ⟨hno, _⟩
      · exact heq
      · exact absurd hsize hno
      · exact absurd hsize hno
    · rw [heq] at h
      cases h
    · rw [heq] at h
      cases h

def decoder (self : PacketCodec) : Decoder UInt8 RawPacket MessageError where
  decode := self.decode
  consumes := decode_consumes
  item_append := decode_item_append
  error_append := decode_error_append

theorem decoder_nil : self.decoder.decode [] = .ok none := rfl

/-- A connection that appends each chunk to its buffer and decodes until `None`. -/
def decodeChunks (self : PacketCodec) (chunks : List (List UInt8)) :
    Stream UInt8 RawPacket MessageError :=
  feedAll self.decoder chunks

theorem decodeChunks_eq_drain (self : PacketCodec) (chunks : List (List UInt8)) :
    self.decodeChunks chunks = drain self.decoder chunks.flatten := feedAll_eq_drain decoder_nil chunks

theorem decode_payload_length {src rest : List UInt8} {item : RawPacket}
    (h : self.decode src = .ok (some (item, rest))) : item.payload.length ≤ self.maxMessageSize.toNat := by
  obtain ⟨l₀, l₁, l₂, l₃, t₀, t₁, flags, body, rfl, hsize, _, rfl, _⟩ := decode_item_cases h
  rw [UInt32.not_lt, UInt32.le_iff_toNat_le] at hsize
  simp only [List.length_take]
  omega

/-- No decoded packet is larger than the limit, whatever the peer has sent. -/
theorem payload_length_of_mem_decodeChunks {chunks : List (List UInt8)} {packet : RawPacket}
    (h : packet ∈ (self.decodeChunks chunks).items) :
    packet.payload.length ≤ self.maxMessageSize.toNat := by
  have hdecoded : ∀ buffer item rest, self.decoder.decode buffer = .ok (some (item, rest)) →
      item.payload.length ≤ self.maxMessageSize.toNat := by
    intro buffer item rest hitem
    exact decode_payload_length hitem
  rw [decodeChunks_eq_drain] at h
  exact forall_mem_drain hdecoded _ packet h

def frame (item : RawPacket) : List UInt8 :=
  u32BeBytes (UInt32.ofNat item.payload.length) ++ u16BeBytes item.msgType ++ [item.flags] ++ item.payload

theorem encode_eq_frame {item : RawPacket} (h : item.payload.length ≤ self.maxMessageSize.toNat)
    (dst : List UInt8) : self.encode item dst = .ok (dst ++ frame item) := by
  unfold encode
  rw [if_neg (by omega)]
  rfl

theorem decode_frame {item : RawPacket} (h : item.payload.length ≤ self.maxMessageSize.toNat)
    (suffix : List UInt8) : self.decode (frame item ++ suffix) = .ok (some (item, suffix)) := by
  have hmax := self.maxMessageSize.toNat_lt
  have hlength : (UInt32.ofNat item.payload.length).toNat = item.payload.length :=
    toNat_ofNat_length (by omega)
  have hbytes := u32OfBeBytes_u32BeBytes (UInt32.ofNat item.payload.length)
  have htype := u16OfBeBytes_u16BeBytes item.msgType
  simp only [frame, u32BeBytes, u16BeBytes, List.cons_append, List.nil_append]
  rcases self.decode_header (UInt8.ofNat ((UInt32.ofNat item.payload.length).toNat / 16777216))
    (UInt8.ofNat ((UInt32.ofNat item.payload.length).toNat / 65536))
    (UInt8.ofNat ((UInt32.ofNat item.payload.length).toNat / 256))
    (UInt8.ofNat (UInt32.ofNat item.payload.length).toNat) (UInt8.ofNat (item.msgType.toNat / 256))
    (UInt8.ofNat item.msgType.toNat) item.flags (item.payload ++ suffix) with
    ⟨hno, _⟩ | ⟨_, hno, _⟩ | ⟨_, _, heq⟩
  · rw [hbytes, UInt32.lt_iff_toNat_lt, hlength] at hno
    omega
  · rw [hbytes, hlength, List.length_append] at hno
    omega
  · rw [heq, hbytes, hlength, htype, List.take_left, List.drop_left]

theorem encodeAll_eq {items : List RawPacket}
    (h : ∀ item ∈ items, item.payload.length ≤ self.maxMessageSize.toNat) (dst : List UInt8) :
    self.encodeAll items dst = .ok (dst ++ items.flatMap frame) := by
  induction items generalizing dst with
  | nil => simp [encodeAll]
  | cons item rest ih =>
    rw [encodeAll, encode_eq_frame (h item List.mem_cons_self)]
    show self.encodeAll rest (dst ++ frame item) = _
    rw [ih fun later hlater => h later (List.mem_cons_of_mem _ hlater), List.flatMap_cons,
      List.append_assoc]

theorem drain_frames {items : List RawPacket}
    (h : ∀ item ∈ items, item.payload.length ≤ self.maxMessageSize.toNat) :
    drain self.decoder (items.flatMap frame) = ⟨items, .ok []⟩ := by
  induction items with
  | nil => exact drain_of_none decoder_nil
  | cons item rest ih =>
    have hfirst : self.decoder.decode (frame item ++ rest.flatMap frame) =
        .ok (some (item, rest.flatMap frame)) := decode_frame (h item List.mem_cons_self) _
    rw [List.flatMap_cons, drain_of_some hfirst,
      ih fun later hlater => h later (List.mem_cons_of_mem _ hlater)]

/-- What a connection decodes, and how decoding ends, depends on the stream and not on how it is
cut; the stream of encoded packets decodes to the packets. -/
theorem framing_independent_of_chunks (self : PacketCodec) :
    (∀ items : List RawPacket, (∀ item ∈ items, item.payload.length ≤ self.maxMessageSize.toNat) →
      ∃ bytes, self.encodeAll items [] = .ok bytes ∧
        ∀ chunks : List (List UInt8), chunks.flatten = bytes →
          self.decodeChunks chunks = ⟨items, .ok []⟩) ∧
    ∀ chunks chunks' : List (List UInt8), chunks.flatten = chunks'.flatten →
      self.decodeChunks chunks = self.decodeChunks chunks' := by
  have hstream := self.decodeChunks_eq_drain
  constructor
  · intro items hitems
    refine ⟨items.flatMap frame, by simpa using encodeAll_eq hitems [], ?_⟩
    rintro chunks hchunks
    rw [hstream, hchunks, drain_frames hitems]
  · intro chunks chunks' hsame
    rw [hstream, hstream, hsame]

end PacketCodec

end MetaMystia

import MetaMystia.Library.Checked
import MetaMystia.Transport.PacketCodec

/-! # The format of a packet

`decode` and `encode` here work on the buffer they are handed and say what is in
it afterwards; every index, split and sum of lengths may panic. None does, and
what is accepted are the encodings of the packets within the limit.
-/

namespace MetaMystia.PacketCodec

open Checked

/-- The answer of `decode` and the buffer it leaves. -/
def decodeBuffer (self : PacketCodec) (src : List UInt8) :
    Option (Except MessageError (Option RawPacket) × List UInt8) :=
  if src.length < 7 then
    some (.ok none, src)
  else do
    let length := u32OfBeBytes (← src[0]?) (← src[1]?) (← src[2]?) (← src[3]?)
    if self.maxMessageSize < length then
      some (.error (.messageTooLarge length), src)
    else do
      let total ← add 7 length.toNat
      if src.length < total then do
        -- the capacity to reserve
        let _ ← sub total src.length
        some (.ok none, src)
      else do
        let (header, src) ← splitTo src 7
        let (payload, src) ← splitTo src length.toNat
        let msgType := u16OfBeBytes (← header[4]?) (← header[5]?)
        let flags ← header[6]?
        some (.ok (some { msgType, flags, payload }), src)

/-- The answer of `encode` and the buffer it leaves. -/
def encodeBuffer (self : PacketCodec) (item : RawPacket) (dst : List UInt8) :
    Option (Except MessageError Unit × List UInt8) :=
  if self.maxMessageSize.toNat < item.payload.length then
    some (.error (.messageTooLarge (UInt32.ofNat item.payload.length)), dst)
  else do
    let length := UInt32.ofNat item.payload.length
    let _ ← add 7 item.payload.length
    some (.ok (), dst ++ u32BeBytes length ++ u16BeBytes item.msgType ++ [item.flags] ++ item.payload)

def bufferAfter (src : List UInt8) : Except MessageError (Option (RawPacket × List UInt8)) →
    Except MessageError (Option RawPacket) × List UInt8
  | .error e => (.error e, src)
  | .ok none => (.ok none, src)
  | .ok (some (item, rest)) => (.ok (some item), rest)

theorem add_header (length : UInt32) : add 7 length.toNat = some (7 + length.toNat) := by
  have hlength := length.toNat_lt
  exact add_of_lt (by unfold usizeLimit; omega)

/-- No access panics, and the buffer keeps what was not taken as a packet. -/
theorem decodeBuffer_eq (self : PacketCodec) (src : List UInt8) :
    self.decodeBuffer src = some (bufferAfter src (self.decode src)) := by
  obtain hshort | ⟨l₀, l₁, l₂, l₃, t₀, t₁, flags, body, rfl⟩ := short_or_header src
  · rw [decode_of_short hshort, decodeBuffer, if_pos hshort]
    rfl
  · have hlength : (l₀ :: l₁ :: l₂ :: l₃ :: t₀ :: t₁ :: flags :: body).length = 7 + body.length := by
      simp only [List.length_cons]
      omega
    have hlong : ¬ 7 + body.length < 7 := by omega
    have hheader := splitTo_append [l₀, l₁, l₂, l₃, t₀, t₁, flags] body
    rw [decodeBuffer, hlength, if_neg hlong]
    obtain ⟨hsize, heq⟩ | ⟨hsize, hbody, heq⟩ | ⟨hsize, hbody, heq⟩ :=
      self.decode_header l₀ l₁ l₂ l₃ t₀ t₁ flags body
    · rw [heq]
      simp [hsize, bufferAfter]
    · have hmissing : 7 + body.length < 7 + (u32OfBeBytes l₀ l₁ l₂ l₃).toNat := by omega
      rw [heq]
      simp [hsize, hbody, add_header, sub_of_le hmissing.le, bufferAfter]
    · have hpayload := splitTo_of_le hbody
      have henough : ¬ body.length < (u32OfBeBytes l₀ l₁ l₂ l₃).toNat := by omega
      rw [heq]
      simp only [List.length_cons, List.length_nil, List.cons_append, List.nil_append] at hheader
      simp [hsize, henough, add_header, hheader, hpayload, bufferAfter]

/-- `encode` neither. -/
theorem encodeBuffer_eq (self : PacketCodec) (item : RawPacket) (dst : List UInt8) :
    self.encodeBuffer item dst =
      if self.maxMessageSize.toNat < item.payload.length then
        some (.error (.messageTooLarge (UInt32.ofNat item.payload.length)), dst)
      else some (.ok (), dst ++ frame item) := by
  unfold encodeBuffer
  split_ifs with hsize
  · rfl
  · have hmax := self.maxMessageSize.toNat_lt
    have hsum : 7 + item.payload.length < usizeLimit := by unfold usizeLimit; omega
    simp [add_of_lt hsum, frame]

theorem length_frame (item : RawPacket) : (frame item).length = 7 + item.payload.length := by
  simp only [frame, u32BeBytes, u16BeBytes, List.length_append, List.length_cons, List.length_nil]

theorem u32BeBytes_u32OfBeBytes (a b c d : UInt8) : u32BeBytes (u32OfBeBytes a b c d) = [a, b, c, d] := by
  have ha := a.toNat_lt
  have hb := b.toNat_lt
  have hc := c.toNat_lt
  have hd := d.toNat_lt
  have hvalue : (u32OfBeBytes a b c d).toNat =
      ((a.toNat * 256 + b.toNat) * 256 + c.toNat) * 256 + d.toNat := by
    simp only [u32OfBeBytes, UInt32.toNat_ofNat']
    omega
  simp only [u32BeBytes, hvalue, List.cons.injEq, ← UInt8.toNat_inj, UInt8.toNat_ofNat', and_true]
  omega

theorem u32BeBytes_inj {m n : UInt32} (h : u32BeBytes m = u32BeBytes n) : m = n := by
  have hm := m.toNat_lt
  have hn := n.toNat_lt
  simp only [u32BeBytes, List.cons.injEq, ← UInt8.toNat_inj, UInt8.toNat_ofNat', and_true] at h
  apply UInt32.toNat_inj.mp
  omega

theorem u16BeBytes_u16OfBeBytes (a b : UInt8) : u16BeBytes (u16OfBeBytes a b) = [a, b] := by
  have ha := a.toNat_lt
  have hb := b.toNat_lt
  have hvalue : (u16OfBeBytes a b).toNat = a.toNat * 256 + b.toNat := by
    simp only [u16OfBeBytes, UInt16.toNat_ofNat']
    omega
  simp only [u16BeBytes, hvalue, List.cons.injEq, ← UInt8.toNat_inj, UInt8.toNat_ofNat', and_true]
  omega

/-- A header and the payload that it announces are the encoding of what they decode to. -/
theorem frame_of_header (l₀ l₁ l₂ l₃ t₀ t₁ flags : UInt8) {payload : List UInt8}
    (h : payload.length = (u32OfBeBytes l₀ l₁ l₂ l₃).toNat) :
    frame { msgType := u16OfBeBytes t₀ t₁, flags, payload } =
      l₀ :: l₁ :: l₂ :: l₃ :: t₀ :: t₁ :: flags :: payload := by
  simp only [frame, h, UInt32.ofNat_toNat, u32BeBytes_u32OfBeBytes, u16BeBytes_u16OfBeBytes,
    List.cons_append, List.nil_append]

variable {self : PacketCodec}

theorem decode_item_iff {src rest : List UInt8} {item : RawPacket} :
    self.decode src = .ok (some (item, rest)) ↔
      src = frame item ++ rest ∧ item.payload.length ≤ self.maxMessageSize.toNat := by
  constructor
  · intro h
    refine ⟨?_, decode_payload_length h⟩
    obtain ⟨l₀, l₁, l₂, l₃, t₀, t₁, flags, body, rfl, _, hbody, rfl, rfl⟩ := decode_item_cases h
    rw [frame_of_header l₀ l₁ l₂ l₃ t₀ t₁ flags (List.length_take_of_le hbody)]
    simp only [List.cons_append, List.take_append_drop]
  · rintro ⟨rfl, hsize⟩
    exact decode_frame hsize rest

theorem decode_error_iff {src : List UInt8} {e : MessageError} :
    self.decode src = .error e ↔ ∃ n, e = .messageTooLarge n ∧ self.maxMessageSize < n ∧
      7 ≤ src.length ∧ src.take 4 = u32BeBytes n := by
  obtain hshort | ⟨l₀, l₁, l₂, l₃, t₀, t₁, flags, body, rfl⟩ := short_or_header src
  · rw [decode_of_short hshort]
    constructor
    · exact nofun
    · rintro ⟨n, _, _, hlong, _⟩
      omega
  · have hbytes : (l₀ :: l₁ :: l₂ :: l₃ :: t₀ :: t₁ :: flags :: body).take 4 =
        u32BeBytes (u32OfBeBytes l₀ l₁ l₂ l₃) := (u32BeBytes_u32OfBeBytes l₀ l₁ l₂ l₃).symm
    rw [hbytes]
    have hwithin : ¬ self.maxMessageSize < u32OfBeBytes l₀ l₁ l₂ l₃ → ∀ n, self.maxMessageSize < n →
        u32BeBytes (u32OfBeBytes l₀ l₁ l₂ l₃) ≠ u32BeBytes n := by
      intro hsize n hn heq
      exact hsize (u32BeBytes_inj heq ▸ hn)
    obtain ⟨hsize, heq⟩ | ⟨hsize, _, heq⟩ | ⟨hsize, _, heq⟩ :=
      self.decode_header l₀ l₁ l₂ l₃ t₀ t₁ flags body
    · rw [heq]
      constructor
      · intro h
        cases h
        exact ⟨_, rfl, hsize, by simp, rfl⟩
      · rintro ⟨n, rfl, _, _, hn⟩
        rw [u32BeBytes_inj hn]
    · rw [heq]
      exact ⟨nofun, fun ⟨n, _, hn, _, hsame⟩ => absurd hsame (hwithin hsize n hn)⟩
    · rw [heq]
      exact ⟨nofun, fun ⟨n, _, hn, _, hsame⟩ => absurd hsame (hwithin hsize n hn)⟩

/-- The buffer is a packet within the limit of which some bytes are still missing. -/
def Truncated (self : PacketCodec) (src : List UInt8) : Prop :=
  ∃ item missing, missing ≠ [] ∧ src ++ missing = frame item ∧
    item.payload.length ≤ self.maxMessageSize.toNat

theorem decode_of_truncated {src : List UInt8} (h : self.Truncated src) : self.decode src = .ok none := by
  obtain ⟨item, missing, hmissing, hframe, hsize⟩ := h
  have hwhole : self.decode (src ++ missing) = .ok (some (item, [])) := by
    rw [hframe]
    exact decode_item_iff.mpr ⟨(List.append_nil _).symm, hsize⟩
  -- an answer before the end of the packet would be the answer at its end
  cases hdecode : self.decode src with
  | error e => exact absurd (hwhole.symm.trans (decode_error_append hdecode missing)) nofun
  | ok result =>
    match result with
    | none => rfl
    | some (item', rest) =>
      have hsame := hwhole.symm.trans (decode_item_append hdecode missing)
      simp only [Except.ok.injEq, Option.some.injEq, Prod.mk.injEq] at hsame
      exact absurd (List.append_eq_nil_iff.mp hsame.2.symm).2 hmissing

theorem decode_none_iff {src : List UInt8} :
    self.decode src = .ok none ↔ src.length < 7 ∨ self.Truncated src := by
  constructor
  · intro h
    obtain hshort | ⟨l₀, l₁, l₂, l₃, t₀, t₁, flags, body, rfl⟩ := short_or_header src
    · exact .inl hshort
    · right
      obtain ⟨_, heq⟩ | ⟨hsize, hbody, _⟩ | ⟨_, _, heq⟩ :=
        self.decode_header l₀ l₁ l₂ l₃ t₀ t₁ flags body
      · rw [heq] at h
        cases h
      · let missing := List.replicate ((u32OfBeBytes l₀ l₁ l₂ l₃).toNat - body.length) (0 : UInt8)
        have hmissing : missing.length = (u32OfBeBytes l₀ l₁ l₂ l₃).toNat - body.length :=
          List.length_replicate
        have hlength : (body ++ missing).length = (u32OfBeBytes l₀ l₁ l₂ l₃).toNat := by
          rw [List.length_append, hmissing]
          omega
        refine ⟨_, missing, ?_, (frame_of_header l₀ l₁ l₂ l₃ t₀ t₁ flags hlength).symm, ?_⟩
        · intro hnil
          rw [hnil, List.length_nil] at hmissing
          omega
        · rw [UInt32.not_lt, UInt32.le_iff_toNat_le] at hsize
          exact hlength.trans_le hsize
      · rw [heq] at h
        cases h
  · rintro (hshort | htruncated)
    · exact decode_of_short hshort
    · exact decode_of_truncated htruncated

@[simp] theorem bufferAfter_eq_item {src rest : List UInt8} {item : RawPacket}
    {result : Except MessageError (Option (RawPacket × List UInt8))} :
    bufferAfter src result = (.ok (some item), rest) ↔ result = .ok (some (item, rest)) := by
  match result with
  | .error e => simp [bufferAfter]
  | .ok none => simp [bufferAfter]
  | .ok (some (item', rest')) => simp [bufferAfter]

@[simp] theorem bufferAfter_eq_error {src left : List UInt8} {e : MessageError}
    {result : Except MessageError (Option (RawPacket × List UInt8))} :
    bufferAfter src result = (.error e, left) ↔ result = .error e ∧ left = src := by
  match result with
  | .error e' => simp [bufferAfter, eq_comm]
  | .ok none => simp [bufferAfter]
  | .ok (some (item, rest)) => simp [bufferAfter]

@[simp] theorem bufferAfter_eq_none {src left : List UInt8}
    {result : Except MessageError (Option (RawPacket × List UInt8))} :
    bufferAfter src result = (.ok none, left) ↔ result = .ok none ∧ left = src := by
  match result with
  | .error e => simp [bufferAfter]
  | .ok none => simp [bufferAfter, eq_comm]
  | .ok (some (item, rest)) => simp [bufferAfter]

/-- What `decode` answers to a buffer and leaves in it, in terms of the encodings. -/
structure DecodesFormat (codec : PacketCodec) (src : List UInt8) : Prop where
  answers : ∃ answer left, codec.decodeBuffer src = some (answer, left)
  accepts : ∀ item rest, codec.decodeBuffer src = some (.ok (some item), rest) ↔
    src = frame item ++ rest ∧ item.payload.length ≤ codec.maxMessageSize.toNat
  unique : ∀ item rest item' rest', src = frame item ++ rest → src = frame item' ++ rest' →
    item.payload.length ≤ codec.maxMessageSize.toNat →
    item'.payload.length ≤ codec.maxMessageSize.toNat → item = item' ∧ rest = rest'
  rejects : ∀ e left, codec.decodeBuffer src = some (.error e, left) ↔
    (∃ n, e = .messageTooLarge n ∧ codec.maxMessageSize < n ∧ 7 ≤ src.length ∧
      src.take 4 = u32BeBytes n) ∧ left = src
  waits : ∀ left, codec.decodeBuffer src = some (.ok none, left) ↔
    (src.length < 7 ∨ codec.Truncated src) ∧ left = src

/-- What `encode` appends to a buffer, and when it fails. -/
structure EncodesFormat (codec : PacketCodec) (item : RawPacket) (dst : List UInt8) : Prop where
  appends : item.payload.length ≤ codec.maxMessageSize.toNat →
    codec.encodeBuffer item dst = some (.ok (), dst ++ frame item)
  size : (frame item).length = 7 + item.payload.length
  fails : (∃ e left, codec.encodeBuffer item dst = some (.error e, left)) ↔
    codec.maxMessageSize.toNat < item.payload.length
  untouched : ∀ e left, codec.encodeBuffer item dst = some (.error e, left) → left = dst

theorem decodesFormat (self : PacketCodec) (src : List UInt8) : self.DecodesFormat src where
  answers := ⟨_, _, self.decodeBuffer_eq src⟩
  accepts item rest := by
    rw [decodeBuffer_eq, Option.some.injEq, bufferAfter_eq_item, decode_item_iff]
  unique item rest item' rest' hsrc hsrc' hsize hsize' := by
    have hitem := decode_item_iff.mpr ⟨hsrc, hsize⟩
    have hitem' := decode_item_iff.mpr ⟨hsrc', hsize'⟩
    simpa using hitem.symm.trans hitem'
  rejects e left := by
    rw [decodeBuffer_eq, Option.some.injEq, bufferAfter_eq_error, decode_error_iff]
  waits left := by
    rw [decodeBuffer_eq, Option.some.injEq, bufferAfter_eq_none, decode_none_iff]

theorem encodesFormat (self : PacketCodec) (item : RawPacket) (dst : List UInt8) :
    self.EncodesFormat item dst := by
  have heq := self.encodeBuffer_eq item dst
  constructor
  · intro hsize
    rw [heq, if_neg (by omega)]
  · exact length_frame item
  · constructor
    · rintro ⟨e, left, h⟩
      rw [heq] at h
      split_ifs at h with hsize
      · exact hsize
      · cases h
    · intro hsize
      exact ⟨_, _, by rw [heq, if_pos hsize]⟩
  · rintro e left h
    rw [heq] at h
    split_ifs at h
    · cases h
      rfl
    · cases h

/-- For every limit and every buffer: what the codec accepts are the encodings of the packets within
the limit, what it rejects are the headers that announce more, and it waits for the rest of a packet
that it would accept; nothing panics. -/
theorem accepts_exactly_format (self : PacketCodec) :
    (∀ src, self.DecodesFormat src) ∧ ∀ item dst, self.EncodesFormat item dst :=
  ⟨self.decodesFormat, self.encodesFormat⟩

end MetaMystia.PacketCodec

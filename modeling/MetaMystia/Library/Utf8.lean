import Mathlib.Data.List.Basic

/-! # Prefixes of UTF-8 text

Text is looked at as bytes, and a cut is sound where a character ends. Bytes that
continue a character can be told from bytes that begin one, and a character has
at most four; so the boundary before an index is found by stepping back, at most
three bytes away.
-/

namespace MetaMystia.Utf8

def bytes (s : String) : List UInt8 := s.toUTF8.data.toList

def encode (chars : List Char) : List UInt8 := chars.flatMap String.utf8EncodeChar

/-- The byte does not continue a character. -/
def Begins (byte : UInt8) : Prop := byte < 0x80 ∨ 0xC0 ≤ byte

instance (byte : UInt8) : Decidable (Begins byte) := inferInstanceAs (Decidable (_ ∨ _))

/-- An end of the text, or the place of a byte that begins a character. -/
def isCharBoundary (src : List UInt8) (index : Nat) : Bool :=
  index == 0 || match src[index]? with
    | none => index == src.length
    | some byte => decide (Begins byte)

/-- Step back to a boundary; `none` is a step below zero. -/
def backToBoundary (src : List UInt8) : Nat → Option Nat
  | 0 => if isCharBoundary src 0 then some 0 else none
  | index + 1 => if isCharBoundary src (index + 1) then some (index + 1) else backToBoundary src index

/-- The text before the index; `none` is a cut inside a character, or bytes that are no text. -/
def sliceTo (s : String) (index : Nat) : Option String :=
  if isCharBoundary (bytes s) index then String.fromUTF8? ⟨((bytes s).take index).toArray⟩ else none

/-- The longest beginning of the text within so many bytes. -/
structure LongestPrefix (s : String) (limit : Nat) (front : String) : Prop where
  starts : ∃ rest, s = front ++ rest
  fits : front.utf8ByteSize ≤ limit
  longest : ∀ other rest, s = other ++ rest → other.utf8ByteSize ≤ limit →
    other.utf8ByteSize ≤ front.utf8ByteSize

theorem bytes_eq_encode (s : String) : bytes s = encode s.toList := by
  have h : s.toUTF8 = (encode s.toList).toByteArray := String.utf8Encode_toList.symm
  rw [bytes, h, List.data_toByteArray]

theorem length_bytes (s : String) : (bytes s).length = s.utf8ByteSize := Array.length_toList

@[simp] theorem bytes_append (s t : String) : bytes (s ++ t) = bytes s ++ bytes t := by
  simp only [bytes_eq_encode, encode, String.toList_append, List.flatMap_append]

theorem bytes_inj {s t : String} : bytes s = bytes t ↔ s = t := by
  constructor
  · intro h
    exact String.toByteArray_inj.mp (ByteArray.ext (Array.toList_inj.mp h))
  · rintro rfl
    rfl

/-- One byte a character. -/
theorem length_encode_of_single {chars : List Char} (h : ∀ c ∈ chars, c.utf8Size = 1) :
    (encode chars).length = chars.length := by
  induction chars with
  | nil => rfl
  | cons c rest ih =>
    obtain ⟨hc, hrest⟩ := List.forall_mem_cons.mp h
    simp only [encode, List.flatMap_cons, List.length_append, String.length_utf8EncodeChar, hc,
      List.length_cons] at ih ⊢
    rw [ih hrest, Nat.add_comm]

theorem fromUTF8?_bytes (s : String) : String.fromUTF8? ⟨(bytes s).toArray⟩ = some s := by
  have h : (⟨(bytes s).toArray⟩ : ByteArray) = s.toUTF8 := by
    rw [bytes, Array.toArray_toList]
  rw [h]
  exact dif_pos s.isValidUTF8

/-- A character is one byte that begins it and up to three that continue it. -/
theorem utf8EncodeChar_shape (c : Char) : ∃ first more, String.utf8EncodeChar c = first :: more ∧
    Begins first ∧ more.length ≤ 3 ∧ ∀ byte ∈ more, ¬ Begins byte := by
  have hbegins : ∀ n : Nat, n ≤ 127 ∨ (192 ≤ n ∧ n < 256) → Begins (UInt8.ofNat n) := by
    intro n hn
    simp only [Begins, UInt8.lt_iff_toNat_lt, UInt8.le_iff_toNat_le, UInt8.toNat_ofNat',
      UInt8.reduceToNat]
    omega
  have hcontinues : ∀ n : Nat, ¬ Begins (UInt8.ofNat (n % 64 + 128)) := by
    intro n
    simp only [Begins, UInt8.lt_iff_toNat_lt, UInt8.le_iff_toNat_le, UInt8.toNat_ofNat',
      UInt8.reduceToNat]
    omega
  simp only [String.utf8EncodeChar]
  split_ifs with hone htwo hthree
  · exact ⟨_, _, rfl, hbegins _ (.inl hone), by simp, nofun⟩
  · refine ⟨_, _, rfl, hbegins _ (.inr (by omega)), by simp, ?_⟩
    simp only [List.forall_mem_cons, hcontinues, not_false_eq_true, true_and]
    exact nofun
  · refine ⟨_, _, rfl, hbegins _ (.inr (by omega)), by simp, ?_⟩
    simp only [List.forall_mem_cons, hcontinues, not_false_eq_true, true_and]
    exact nofun
  · refine ⟨_, _, rfl, hbegins _ (.inr (by omega)), by simp, ?_⟩
    simp only [List.forall_mem_cons, hcontinues, not_false_eq_true, true_and]
    exact nofun

/-- A byte below `0x80` stands for its character and is part of no other. -/
theorem mem_utf8EncodeChar_iff {byte : UInt8} (hbyte : byte < 0x80) {c : Char} :
    byte ∈ String.utf8EncodeChar c ↔ c.toNat = byte.toNat := by
  have hsmall : byte.toNat < 128 := UInt8.lt_iff_toNat_lt.mp hbyte
  have hlarge : ∀ n : Nat, 128 ≤ n % 256 → byte ≠ UInt8.ofNat n := by
    rintro n hn rfl
    rw [UInt8.toNat_ofNat'] at hsmall
    omega
  have hval : c.toNat = c.val.toNat := rfl
  simp only [String.utf8EncodeChar, hval]
  split_ifs with hone htwo hthree
  · rw [List.mem_singleton, ← UInt8.toNat_inj, UInt8.toNat_ofNat']
    omega
  · refine iff_of_false ?_ (by omega)
    simp only [List.mem_cons, List.not_mem_nil, or_false, not_or]
    exact ⟨hlarge _ (by omega), hlarge _ (by omega)⟩
  · refine iff_of_false ?_ (by omega)
    simp only [List.mem_cons, List.not_mem_nil, or_false, not_or]
    exact ⟨hlarge _ (by omega), hlarge _ (by omega), hlarge _ (by omega)⟩
  · refine iff_of_false ?_ (by omega)
    simp only [List.mem_cons, List.not_mem_nil, or_false, not_or]
    exact ⟨hlarge _ (by omega), hlarge _ (by omega), hlarge _ (by omega), hlarge _ (by omega)⟩

theorem mem_bytes_iff {c : Char} {byte : UInt8} (hbyte : byte < 0x80) (hc : c.toNat = byte.toNat)
    {s : String} : byte ∈ bytes s ↔ c ∈ s.toList := by
  rw [bytes_eq_encode, encode, List.mem_flatMap]
  constructor
  · rintro ⟨d, hd, hmem⟩
    have heq : d.toNat = c.toNat := ((mem_utf8EncodeChar_iff hbyte).mp hmem).trans hc.symm
    obtain rfl : d = c := Char.toNat_inj.mp heq
    exact hd
  · intro hmem
    exact ⟨c, hmem, (mem_utf8EncodeChar_iff hbyte).mpr hc⟩

theorem bytes_eq_nil_iff {s : String} : bytes s = [] ↔ s = "" :=
  bytes_inj (t := "")

theorem isCharBoundary_nil (index : Nat) : isCharBoundary [] index = true ↔ index = 0 := by
  simp [isCharBoundary]

theorem isCharBoundary_zero (src : List UInt8) : isCharBoundary src 0 = true := rfl

/-- The first byte of a text begins a character. -/
theorem begins_of_encode {chars : List Char} {first : UInt8} (h : (encode chars)[0]? = some first) :
    Begins first := by
  cases chars with
  | nil => exact absurd h nofun
  | cons c rest =>
    obtain ⟨byte, more, hc, hbegins, _⟩ := utf8EncodeChar_shape c
    simp only [encode, List.flatMap_cons, hc, List.cons_append, List.getElem?_cons_zero,
      Option.some.injEq] at h
    exact h ▸ hbegins

/-- Away from its start a text has the boundaries of what follows its first character. -/
theorem isCharBoundary_cons {c : Char} {rest : List Char} {index : Nat} (hpos : 0 < index) :
    isCharBoundary (encode (c :: rest)) index = true ↔
      c.utf8Size ≤ index ∧ isCharBoundary (encode rest) (index - c.utf8Size) = true := by
  obtain ⟨first, more, hc, _, _, hmore⟩ := utf8EncodeChar_shape c
  have hsize : c.utf8Size = more.length + 1 := by
    rw [← String.length_utf8EncodeChar, hc, List.length_cons]
  have hencode : encode (c :: rest) = first :: (more ++ encode rest) := by
    simp only [encode, List.flatMap_cons, hc, List.cons_append]
  obtain ⟨k, rfl⟩ := Nat.exists_eq_add_one.mpr hpos
  rw [hencode, hsize]
  obtain hinside | hbeyond := Nat.lt_or_ge k more.length
  · have hbyte : (more ++ encode rest)[k]? = some more[k] := by
      rw [List.getElem?_append_left hinside, List.getElem?_eq_getElem hinside]
    simp only [isCharBoundary, List.getElem?_cons_succ, hbyte]
    simp [hmore _ (List.getElem_mem hinside), Nat.not_le.mpr hinside]
  · obtain ⟨j, rfl⟩ := Nat.exists_eq_add_of_le hbeyond
    have hindex : more.length + j + 1 - (more.length + 1) = j := by omega
    have hbyte : (more ++ encode rest)[more.length + j]? = (encode rest)[j]? := by
      rw [List.getElem?_append_right hbeyond, Nat.add_sub_cancel_left]
    simp only [isCharBoundary, List.getElem?_cons_succ, hbyte, hindex]
    cases hnext : (encode rest)[j]? with
    | none =>
      have hend := List.getElem?_eq_none_iff.mp hnext
      simp only [Nat.reduceBeqDiff, List.length_cons, List.length_append, Bool.false_or, beq_iff_eq,
        Nat.add_left_cancel_iff, Nat.add_le_add_iff_right, Nat.le_add_right, Bool.or_eq_true,
        true_and, iff_or_self]
      omega
    | some byte =>
      have hstart : j = 0 → Begins byte := by
        rintro rfl
        exact begins_of_encode hnext
      simp only [Nat.reduceBeqDiff, Bool.false_or, decide_eq_true_eq, Nat.add_le_add_iff_right,
        Nat.le_add_right, Bool.or_eq_true, beq_iff_eq, true_and, iff_or_self]
      omega

theorem isCharBoundary_encode_iff {chars : List Char} {index : Nat} :
    isCharBoundary (encode chars) index = true ↔
      ∃ front back, chars = front ++ back ∧ (encode front).length = index := by
  induction chars generalizing index with
  | nil =>
    rw [encode, List.flatMap_nil, isCharBoundary_nil]
    constructor
    · rintro rfl
      exact ⟨[], [], rfl, rfl⟩
    · rintro ⟨front, back, hnil, rfl⟩
      obtain ⟨rfl, _⟩ := List.append_eq_nil_iff.mp hnil.symm
      rfl
  | cons c rest ih =>
    have hcons : ∀ front, (encode (c :: front)).length = c.utf8Size + (encode front).length := by
      intro front
      simp only [encode, List.flatMap_cons, List.length_append, String.length_utf8EncodeChar]
    have hsize := c.utf8Size_pos
    obtain rfl | hpos := Nat.eq_zero_or_pos index
    · exact ⟨fun _ => ⟨[], c :: rest, rfl, rfl⟩, fun _ => isCharBoundary_zero _⟩
    · rw [isCharBoundary_cons hpos, ih]
      constructor
      · rintro ⟨hle, front, back, rfl, hlength⟩
        refine ⟨c :: front, back, rfl, ?_⟩
        rw [hcons]
        omega
      · rintro ⟨front, back, heq, hlength⟩
        cases front with
        | nil =>
          rw [encode, List.flatMap_nil, List.length_nil] at hlength
          omega
        | cons d front =>
          obtain ⟨rfl, rfl⟩ := List.cons.inj heq
          rw [hcons] at hlength
          exact ⟨by omega, front, back, rfl, by omega⟩

/-- The boundaries of a text are the sizes of its beginnings. -/
theorem isCharBoundary_iff {s : String} {index : Nat} :
    isCharBoundary (bytes s) index = true ↔
      ∃ front rest, s = front ++ rest ∧ front.utf8ByteSize = index := by
  rw [bytes_eq_encode, isCharBoundary_encode_iff]
  constructor
  · rintro ⟨front, back, hchars, hlength⟩
    refine ⟨.ofList front, .ofList back, ?_, ?_⟩
    · rw [← String.ofList_append, ← hchars, String.ofList_toList]
    · rw [← length_bytes, bytes_eq_encode, String.toList_ofList, hlength]
  · rintro ⟨front, rest, rfl, hsize⟩
    refine ⟨front.toList, rest.toList, String.toList_append, ?_⟩
    rw [← bytes_eq_encode, length_bytes, hsize]

/-- Stepping back ends at the last boundary up to the index. -/
theorem exists_backToBoundary (src : List UInt8) (limit : Nat) :
    ∃ index, backToBoundary src limit = some index ∧ isCharBoundary src index = true ∧
      index ≤ limit ∧ ∀ other, isCharBoundary src other = true → other ≤ limit → other ≤ index := by
  induction limit with
  | zero => exact ⟨0, rfl, rfl, Nat.le_refl _, fun _ _ => id⟩
  | succ limit ih =>
    rw [backToBoundary]
    split_ifs with hboundary
    · exact ⟨limit + 1, rfl, hboundary, Nat.le_refl _, fun _ _ => id⟩
    · obtain ⟨index, heq, hindex, hle, hlast⟩ := ih
      refine ⟨index, heq, hindex, by omega, ?_⟩
      intro other hother hlimit
      apply hlast other hother
      have hne : other ≠ limit + 1 := by
        rintro rfl
        exact hboundary hother
      omega

theorem sliceTo_append (front rest : String) :
    sliceTo (front ++ rest) front.utf8ByteSize = some front := by
  have hboundary : isCharBoundary (bytes (front ++ rest)) front.utf8ByteSize = true :=
    isCharBoundary_iff.mpr ⟨front, rest, rfl, rfl⟩
  rw [sliceTo, if_pos hboundary, bytes_append, ← length_bytes, List.take_left]
  exact fromUTF8?_bytes front

/-- Stepping back from the limit and cutting there gives the longest beginning within it. -/
theorem exists_longestPrefix (s : String) (limit : Nat) :
    ∃ front, (backToBoundary (bytes s) limit).bind (sliceTo s) = some front ∧
      LongestPrefix s limit front := by
  obtain ⟨index, hback, hindex, hle, hlast⟩ := exists_backToBoundary (bytes s) limit
  obtain ⟨front, rest, rfl, rfl⟩ := isCharBoundary_iff.mp hindex
  refine ⟨front, ?_, ⟨rest, rfl⟩, hle, ?_⟩
  · rw [hback]
    exact sliceTo_append front rest
  · intro other rest' hother hfits
    exact hlast _ (isCharBoundary_iff.mpr ⟨other, rest', hother, rfl⟩) hfits

namespace LongestPrefix

variable {s front : String} {limit : Nat}

/-- The next character does not fit, and it has at most four bytes. -/
theorem gap (h : LongestPrefix s limit front) (hlong : limit < s.utf8ByteSize) :
    limit ≤ front.utf8ByteSize + 3 := by
  obtain ⟨rest, rfl⟩ := h.starts
  have hrest : rest = .ofList rest.toList := String.ofList_toList.symm
  cases hchars : rest.toList with
  | nil =>
    have hempty : rest = "" := hrest.trans (congrArg String.ofList hchars)
    have hfits := h.fits
    rw [hempty, String.append_empty] at hlong
    omega
  | cons c more =>
    have hsplit : front ++ rest = front ++ .ofList [c] ++ .ofList more := by
      rw [hrest, hchars, String.append_assoc, ← String.ofList_append, List.singleton_append]
    have hsize : (front ++ .ofList [c]).utf8ByteSize = front.utf8ByteSize + c.utf8Size := by
      rw [String.utf8ByteSize_append, ← length_bytes (.ofList [c]), bytes_eq_encode,
        String.toList_ofList, encode, List.flatMap_singleton, String.length_utf8EncodeChar]
    have hpos := c.utf8Size_pos
    have hfour := c.utf8Size_le_four
    have hnext := h.longest _ _ hsplit
    omega

theorem unique (h : LongestPrefix s limit front) {other : String}
    (hother : LongestPrefix s limit other) : front = other := by
  obtain ⟨rest, heq⟩ := h.starts
  obtain ⟨rest', heq'⟩ := hother.starts
  have hsize : front.utf8ByteSize = other.utf8ByteSize :=
    Nat.le_antisymm (hother.longest front rest heq h.fits) (h.longest other rest' heq' hother.fits)
  have hbytes : bytes front ++ bytes rest = bytes other ++ bytes rest' := by
    rw [← bytes_append, ← bytes_append, ← heq, ← heq']
  rw [← length_bytes, ← length_bytes] at hsize
  exact bytes_inj.mp (List.append_inj_left hbytes hsize)

end LongestPrefix

end MetaMystia.Utf8

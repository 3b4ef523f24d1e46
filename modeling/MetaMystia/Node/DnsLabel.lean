import MetaMystia.Library.Hex
import MetaMystia.Library.Utf8

/-! # DNS labels

A label has at most 63 bytes. What is longer is cut at a character boundary, which
the loops look for by stepping back from a fixed index: `none` is where they would
step below zero or the slice would panic.
-/

namespace MetaMystia

open Utf8

def maxDnsLabelBytes : Nat := 63

def dnsLabelTruncate (s : String) : Option String :=
  if s.utf8ByteSize ≤ maxDnsLabelBytes then
    some s
  else
    (backToBoundary (bytes s) maxDnsLabelBytes).bind (sliceTo s)

def fnv1a64 (s : String) : UInt64 :=
  (bytes s).foldl (fun h b => (h ^^^ b.toUInt64) * 0x00000100000001b3) 0xcbf29ce484222325

/-- The hash as `{:016x}` writes it. -/
def fnv1a64Hex (s : String) : String := String.ofList (Hex.padded 16 (fnv1a64 s).toNat)

def makeUniqueDnsLabel (s : String) : Option String :=
  if s.utf8ByteSize ≤ maxDnsLabelBytes then
    some s
  else
    -- 17 bytes for the `_` and the digits
    ((backToBoundary (bytes s) (maxDnsLabelBytes - 17)).bind (sliceTo s)).map fun front =>
      front ++ "_" ++ fnv1a64Hex s

/-- What `dns_label_truncate` owes for a text. -/
structure Truncated (s label : String) : Prop where
  size : label.utf8ByteSize ≤ maxDnsLabelBytes
  short : s.utf8ByteSize ≤ maxDnsLabelBytes → label = s
  long : maxDnsLabelBytes < s.utf8ByteSize →
    LongestPrefix s maxDnsLabelBytes label ∧ 60 ≤ label.utf8ByteSize

/-- What `make_unique_dns_label` owes: of a long text the beginning, and the 64-bit FNV-1a hash of all
its bytes, each of which is combined with the hash by xor before the hash is multiplied by the prime. -/
structure Labelled (s label : String) : Prop where
  size : label.utf8ByteSize ≤ maxDnsLabelBytes
  short : s.utf8ByteSize ≤ maxDnsLabelBytes → label = s
  long : maxDnsLabelBytes < s.utf8ByteSize → ∃ front digits,
    label = front ++ "_" ++ String.ofList digits ∧ LongestPrefix s 46 front ∧
      43 ≤ front.utf8ByteSize ∧ Hex.Writes digits 16
        ((bytes s).foldl (fun hash byte => (hash ^^^ byte.toNat) * 0x100000001b3 % 2 ^ 64)
          0xcbf29ce484222325)

theorem exists_dnsLabelTruncate (s : String) :
    ∃ label, dnsLabelTruncate s = some label ∧ Truncated s label := by
  unfold dnsLabelTruncate
  split_ifs with hsize
  · exact ⟨s, rfl, hsize, fun _ => rfl, fun hlong => absurd hsize (by omega)⟩
  · obtain ⟨front, heq, hfront⟩ := exists_longestPrefix s maxDnsLabelBytes
    refine ⟨front, heq, hfront.fits, fun hshort => absurd hshort hsize, ?_⟩
    intro hlong
    have hgap := hfront.gap hlong
    unfold maxDnsLabelBytes at hgap
    exact ⟨hfront, by omega⟩

/-- The hash in unbounded arithmetic, reduced at each byte. -/
theorem toNat_fnv1a64 (s : String) :
    (fnv1a64 s).toNat =
      (bytes s).foldl (fun hash byte => (hash ^^^ byte.toNat) * 0x100000001b3 % 2 ^ 64)
        0xcbf29ce484222325 := by
  refine (List.foldl_hom UInt64.toNat fun hash byte => ?_).symm
  rw [UInt64.toNat_mul, UInt64.toNat_xor, UInt8.toNat_toUInt64]
  rfl

theorem writes_fnv1a64 (s : String) :
    Hex.Writes (Hex.padded 16 (fnv1a64 s).toNat) 16 (fnv1a64 s).toNat := by
  have hhash := (fnv1a64 s).toNat_lt
  exact Hex.writes_padded (by omega) (by omega)

theorem utf8ByteSize_fnv1a64Hex (s : String) : (fnv1a64Hex s).utf8ByteSize = 16 := by
  have hsingle : ∀ c ∈ Hex.lowerDigits, c.utf8Size = 1 := by
    simp [Hex.lowerDigits, Char.utf8Size]
  have hwrites := writes_fnv1a64 s
  have hbytes := length_encode_of_single fun c hc => hsingle c (hwrites.lower c hc)
  rw [fnv1a64Hex, ← length_bytes, bytes_eq_encode, String.toList_ofList, hbytes, hwrites.length]

theorem makeUniqueDnsLabel_of_short {s : String} (hshort : s.utf8ByteSize ≤ maxDnsLabelBytes) :
    makeUniqueDnsLabel s = some s := if_pos hshort

theorem makeUniqueDnsLabel_of_long {s : String} (hlong : maxDnsLabelBytes < s.utf8ByteSize) :
    ∃ front, makeUniqueDnsLabel s = some (front ++ "_" ++ fnv1a64Hex s) ∧
      LongestPrefix s 46 front := by
  obtain ⟨front, heq, hfront⟩ := exists_longestPrefix s (maxDnsLabelBytes - 17)
  refine ⟨front, ?_, hfront⟩
  rw [makeUniqueDnsLabel, if_neg (by omega), heq, Option.map_some]

theorem utf8ByteSize_label {front : String} (s : String) :
    (front ++ "_" ++ fnv1a64Hex s).utf8ByteSize = front.utf8ByteSize + 17 := by
  have hline : "_".utf8ByteSize = 1 := by decide
  rw [String.utf8ByteSize_append, String.utf8ByteSize_append, utf8ByteSize_fnv1a64Hex, hline]

theorem exists_makeUniqueDnsLabel (s : String) :
    ∃ label, makeUniqueDnsLabel s = some label ∧ Labelled s label := by
  obtain hlong | hshort := Nat.lt_or_ge maxDnsLabelBytes s.utf8ByteSize
  · obtain ⟨front, heq, hfront⟩ := makeUniqueDnsLabel_of_long hlong
    have hfits := hfront.fits
    have hgap := hfront.gap (by unfold maxDnsLabelBytes at hlong; omega)
    refine ⟨_, heq, ?_, fun hshort => absurd hshort (by omega), ?_⟩
    · rw [utf8ByteSize_label]
      unfold maxDnsLabelBytes
      omega
    · intro _
      exact ⟨front, _, rfl, hfront, by omega, toNat_fnv1a64 s ▸ writes_fnv1a64 s⟩
  · exact ⟨s, makeUniqueDnsLabel_of_short hshort, hshort, fun _ => rfl,
      fun hlong => absurd hlong (by omega)⟩

/-- For every text both functions return a text, of at most 63 bytes. -/
theorem dns_labels_fit (s : String) :
    (∃ label, dnsLabelTruncate s = some label ∧ Truncated s label) ∧
      ∃ label, makeUniqueDnsLabel s = some label ∧ Labelled s label :=
  ⟨exists_dnsLabelTruncate s, exists_makeUniqueDnsLabel s⟩

end MetaMystia

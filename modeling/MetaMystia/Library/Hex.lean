import Mathlib.Algebra.Group.Nat.Defs
import Mathlib.Data.List.Basic

/-! # Hexadecimal digits of a fixed width

A number is written with the digits it needs and zeros in front of them. Where it
fits the width, this is one digit for each place, and it reads back.
-/

namespace MetaMystia.Hex

def lowerDigits : List Char :=
  ['0', '1', '2', '3', '4', '5', '6', '7', '8', '9', 'a', 'b', 'c', 'd', 'e', 'f']

def value (digits : List Char) : Nat := digits.foldl (fun n c => 16 * n + lowerDigits.idxOf c) 0

/-- The number with zeros in front up to the width. -/
def padded (width n : Nat) : List Char := (Nat.toDigits 16 n).leftpad width '0'

/-- The last places of the number, as many as the width. -/
def places : Nat → Nat → List Char
  | 0, _ => []
  | width + 1, n => places width (n / 16) ++ [(n % 16).digitChar]

/-- So many lowercase digits, which stand for the number. -/
structure Writes (digits : List Char) (width n : Nat) : Prop where
  length : digits.length = width
  lower : ∀ c ∈ digits, c ∈ lowerDigits
  value : value digits = n

theorem places_zero (width : Nat) : places width 0 = List.replicate width '0' := by
  induction width with
  | zero => rfl
  | succ width ih =>
    rw [places, Nat.zero_div, ih, List.replicate_succ']
    rfl

theorem padded_eq_places {width n : Nat} (hn : n < 16 ^ (width + 1)) :
    padded (width + 1) n = places (width + 1) n := by
  induction width generalizing n with
  | zero =>
    have hlt : n < 16 := by omega
    rw [padded, Nat.toDigits_of_lt_base hlt, places, Nat.mod_eq_of_lt hlt]
    rfl
  | succ width ih =>
    obtain hlt | hge := Nat.lt_or_ge n 16
    · rw [padded, Nat.toDigits_of_lt_base hlt, places, Nat.div_eq_of_lt hlt, places_zero,
        Nat.mod_eq_of_lt hlt]
      rfl
    · have hdiv : n / 16 < 16 ^ (width + 1) := by
        rw [Nat.pow_succ] at hn
        omega
      rw [places, ← ih hdiv, padded, padded, Nat.toDigits_of_base_le (by omega) hge, List.leftpad,
        List.leftpad, List.length_append, List.length_singleton, Nat.add_sub_add_right,
        List.append_assoc]

theorem idxOf_digitChar {d : Nat} (hd : d < 16) :
    d.digitChar ∈ lowerDigits ∧ lowerDigits.idxOf d.digitChar = d := by
  have hall : ∀ d < 16, d.digitChar ∈ lowerDigits ∧ lowerDigits.idxOf d.digitChar = d := by decide
  exact hall d hd

theorem writes_places {width n : Nat} (hn : n < 16 ^ width) : Writes (places width n) width n := by
  induction width generalizing n with
  | zero =>
    rw [Nat.pow_zero] at hn
    exact ⟨rfl, nofun, (Nat.lt_one_iff.mp hn).symm⟩
  | succ width ih =>
    have hdiv : n / 16 < 16 ^ width := by
      rw [Nat.pow_succ] at hn
      omega
    obtain ⟨hlength, hlower, hvalue⟩ := ih hdiv
    obtain ⟨hmem, hindex⟩ := idxOf_digitChar (Nat.mod_lt n (by omega))
    constructor
    · rw [places, List.length_append, hlength, List.length_singleton]
    · intro c hc
      obtain hc | hc := List.mem_append.mp hc
      · exact hlower c hc
      · exact List.mem_singleton.mp hc ▸ hmem
    · rw [Hex.value] at hvalue ⊢
      rw [places, List.foldl_append, hvalue, List.foldl_cons, List.foldl_nil, hindex]
      omega

theorem writes_padded {width n : Nat} (hwidth : 0 < width) (hn : n < 16 ^ width) :
    Writes (padded width n) width n := by
  obtain ⟨width, rfl⟩ := Nat.exists_eq_add_one.mpr hwidth
  rw [padded_eq_places hn]
  exact writes_places hn

end MetaMystia.Hex

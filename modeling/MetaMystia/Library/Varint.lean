import Mathlib.Tactic.Ring

/-! # Variable-length integers

Seven bits a byte, the lowest first; every byte but the last has its high bit set.
-/

namespace MetaMystia

def varint (n : Nat) : List UInt8 :=
  if n < 128 then [UInt8.ofNat n] else UInt8.ofNat (n % 128 + 128) :: varint (n / 128)
termination_by n

theorem varint_length_le {n : Nat} (k : Nat) (h : n < 128 ^ (k + 1)) : (varint n).length ≤ k + 1 := by
  induction k generalizing n with
  | zero =>
    rw [varint, if_pos (by omega)]
    exact Nat.le_refl 1
  | succ k ih =>
    rw [varint]
    split
    · simp
    · have hdiv : n / 128 < 128 ^ (k + 1) := by
        rw [Nat.div_lt_iff_lt_mul (by omega)]
        calc n < 128 ^ (k + 1 + 1) := h
          _ = 128 ^ (k + 1) * 128 := by ring
      have hrest := ih hdiv
      simp only [List.length_cons]
      omega

end MetaMystia

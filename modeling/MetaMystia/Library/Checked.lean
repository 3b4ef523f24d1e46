import Mathlib.Algebra.Group.Nat.Defs
import Mathlib.Data.List.Basic

/-! # Operations that panic

Lengths are `usize` on a 64-bit target. An operation is `none` where the program
would panic: on overflow, on underflow and on a split beyond the end.
-/

namespace MetaMystia.Checked

universe u

/-- The first length that does not fit a 64-bit `usize`. -/
def usizeLimit : Nat := 2 ^ 64

def add (a b : Nat) : Option Nat := if a + b < usizeLimit then some (a + b) else none

def sub (a b : Nat) : Option Nat := if b ≤ a then some (a - b) else none

/-- `split_to`: the first bytes, and what stays in the buffer. -/
def splitTo {β : Type u} (src : List β) (mid : Nat) : Option (List β × List β) :=
  if mid ≤ src.length then some (src.take mid, src.drop mid) else none

theorem add_of_lt {a b : Nat} (h : a + b < usizeLimit) : add a b = some (a + b) := if_pos h

theorem sub_of_le {a b : Nat} (h : b ≤ a) : sub a b = some (a - b) := if_pos h

theorem splitTo_of_le {β : Type u} {src : List β} {mid : Nat} (h : mid ≤ src.length) :
    splitTo src mid = some (src.take mid, src.drop mid) := if_pos h

theorem splitTo_append {β : Type u} (front back : List β) :
    splitTo (front ++ back) front.length = some (front, back) := by
  rw [splitTo_of_le (by simp), List.take_left, List.drop_left]

end MetaMystia.Checked

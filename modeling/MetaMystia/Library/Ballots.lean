import Mathlib.Algebra.BigOperators.Group.Finset.Basic
import Mathlib.Algebra.Order.BigOperators.Group.Finset
import Mathlib.Data.Fintype.Card
import Mathlib.Data.Set.Insert
import Mathlib.Logic.Relation

/-! # One ballot a term

Voters cast ballots for candidates, each at most for one candidate of a term. A
candidate may claim a term with any number of ballots, as many as it takes to be
enough. The claims of one term then rest on disjoint sets of voters, whatever
each claimant took to be enough.
-/

namespace MetaMystia

universe u v w

structure Ballots (V : Type u) (T : Type v) (C : Type w) where
  cast : Set (V × T × C)
  claims : Set (C × T × Nat)

namespace Ballots

variable {V : Type u} {T : Type v} {C : Type w} {s s' : Ballots V T C}

def empty : Ballots V T C := ⟨∅, ∅⟩

inductive Step : Ballots V T C → Ballots V T C → Prop
  | vote {s : Ballots V T C} (v : V) (t : T) (c : C) (free : ∀ d, (v, t, d) ∈ s.cast → d = c) :
    Step s { s with cast := insert (v, t, c) s.cast }
  | claim {s : Ballots V T C} (c : C) (t : T) (enough : Nat) (voters : Finset V)
    (size : enough ≤ voters.card) (support : ∀ v ∈ voters, (v, t, c) ∈ s.cast) :
    Step s { s with claims := insert (c, t, enough) s.claims }

/-- What can come of an election that nobody has voted in. -/
def Reachable (s : Ballots V T C) : Prop := Relation.ReflTransGen Step empty s

structure Valid (s : Ballots V T C) : Prop where
  single : ∀ v t c d, (v, t, c) ∈ s.cast → (v, t, d) ∈ s.cast → c = d
  backed : ∀ c t enough, (c, t, enough) ∈ s.claims →
    ∃ voters : Finset V, enough ≤ voters.card ∧ ∀ v ∈ voters, (v, t, c) ∈ s.cast

theorem valid_empty : Valid (empty : Ballots V T C) := ⟨nofun, nofun⟩

theorem Valid.step (h : s.Valid) (hstep : Step s s') : s'.Valid := by
  cases hstep with
  | vote v t c free =>
    constructor
    · rintro v' t' d e (hd | hd) (he | he)
      · cases hd
        cases he
        rfl
      · cases hd
        exact (free e he).symm
      · cases he
        exact free d hd
      · exact h.single v' t' d e hd he
    · intro d t' enough hclaim
      obtain ⟨voters, hsize, hsupport⟩ := h.backed d t' enough hclaim
      exact ⟨voters, hsize, fun v' hv' => .inr (hsupport v' hv')⟩
  | claim c t enough voters size support =>
    refine ⟨h.single, ?_⟩
    rintro d t' enough' (hclaim | hclaim)
    · cases hclaim
      exact ⟨voters, size, support⟩
    · exact h.backed d t' enough' hclaim

theorem Reachable.valid (h : s.Reachable) : s.Valid := by
  induction h with
  | refl => exact valid_empty
  | tail _ hstep ih => exact ih.step hstep

/-- The claims of a term take at most all the voters. -/
theorem Valid.sum_le_card [Fintype V] (h : s.Valid) (t : T) (claimants : Finset C) (enough : C → Nat)
    (hclaims : ∀ c ∈ claimants, (c, t, enough c) ∈ s.claims) :
    ∑ c ∈ claimants, enough c ≤ Fintype.card V := by
  classical
  let supporters : C → Finset V := fun c => Finset.univ.filter fun v => (v, t, c) ∈ s.cast
  have hsize : ∀ c ∈ claimants, enough c ≤ (supporters c).card := by
    intro c hc
    obtain ⟨voters, hle, hsupport⟩ := h.backed c t _ (hclaims c hc)
    apply hle.trans (Finset.card_le_card _)
    intro v hv
    exact Finset.mem_filter.mpr ⟨Finset.mem_univ v, hsupport v hv⟩
  have hdisjoint : (claimants : Set C).PairwiseDisjoint supporters := by
    intro c _ d _ hne
    rw [Function.onFun, Finset.disjoint_left]
    intro v hc hd
    exact hne (h.single v t c d (Finset.mem_filter.mp hc).2 (Finset.mem_filter.mp hd).2)
  calc ∑ c ∈ claimants, enough c
      ≤ ∑ c ∈ claimants, (supporters c).card := Finset.sum_le_sum hsize
    _ = (claimants.biUnion supporters).card := (Finset.card_biUnion hdisjoint).symm
    _ ≤ Fintype.card V := Finset.card_le_univ _

end Ballots

end MetaMystia

import Mathlib.Data.List.Basic

/-! # Numbered slots

A growing list of records, each known by its position. A property of every slot
survives a write to one slot if the written record has it, and a new slot if the
new record has it.
-/

namespace MetaMystia.Slots

universe u

variable {α : Type u} {slots : List α} {P : Nat → α → Prop}

theorem forall_set {i : Nat} {a : α} (ha : P i a)
    (h : ∀ j b, j ≠ i → slots[j]? = some b → P j b) :
    ∀ j b, (slots.set i a)[j]? = some b → P j b := by
  intro j b hb
  rw [List.getElem?_set] at hb
  split at hb
  · next hij =>
    subst hij
    split at hb
    · cases hb
      exact ha
    · cases hb
  · next hij => exact h j b (Ne.symm hij) hb

theorem getElem?_concat_cases {a b : α} {j : Nat} (h : (slots ++ [a])[j]? = some b) :
    slots[j]? = some b ∨ (j = slots.length ∧ a = b) := by
  obtain hj | rfl | hj := Nat.lt_trichotomy j slots.length
  · rw [List.getElem?_append_left hj] at h
    exact .inl h
  · rw [List.getElem?_concat_length] at h
    exact .inr ⟨rfl, Option.some.inj h⟩
  · rw [List.getElem?_eq_none (by simp only [List.length_append, List.length_singleton]; omega)] at h
    cases h

theorem getElem?_concat_of_some {a b : α} {j : Nat} (h : slots[j]? = some b) :
    (slots ++ [a])[j]? = some b := by
  rwa [List.getElem?_append_left (List.getElem?_eq_some_iff.mp h).1]

theorem forall_concat {a : α} (ha : P slots.length a) (h : ∀ j b, slots[j]? = some b → P j b) :
    ∀ j b, (slots ++ [a])[j]? = some b → P j b := by
  intro j b hb
  cases getElem?_concat_cases hb with
  | inl hold => exact h j b hold
  | inr hnew =>
    obtain ⟨rfl, rfl⟩ := hnew
    exact ha

/-- A write that gives the record a property, if it had it or for another reason. -/
theorem exists_mem_set_iff {Q : α → Prop} {N : Prop} {i : Nat} {a old : α} (hold : slots[i]? = some old)
    (h : Q a ↔ Q old ∨ N) : (∃ x ∈ slots.set i a, Q x) ↔ (∃ x ∈ slots, Q x) ∨ N := by
  obtain ⟨hi, rfl⟩ := List.getElem?_eq_some_iff.mp hold
  constructor
  · rintro ⟨x, hx, hQ⟩
    obtain hmem | rfl := List.mem_or_eq_of_mem_set hx
    · exact .inl ⟨x, hmem, hQ⟩
    · exact (h.mp hQ).imp_left fun hQ => ⟨slots[i], List.getElem_mem hi, hQ⟩
  · rintro (⟨x, hx, hQ⟩ | hN)
    · obtain ⟨k, hk, rfl⟩ := List.getElem_of_mem hx
      by_cases hki : k = i
      · subst hki
        exact ⟨a, List.mem_set hi a, h.mpr (.inl hQ)⟩
      · refine ⟨slots[k], List.mem_iff_getElem?.mpr ⟨k, ?_⟩, hQ⟩
        rw [List.getElem?_set_ne (Ne.symm hki), List.getElem?_eq_getElem hk]
    · exact ⟨a, List.mem_set hi a, h.mpr (.inr hN)⟩

theorem countP_set_add {p : α → Bool} {i : Nat} {a b : α} (hb : slots[i]? = some b) :
    (slots.set i a).countP p + (if p b then 1 else 0) = slots.countP p + if p a then 1 else 0 := by
  obtain ⟨hi, rfl⟩ := List.getElem?_eq_some_iff.mp hb
  have hle : (if p slots[i] then 1 else 0) ≤ slots.countP p := by
    split
    · next hp => exact List.countP_pos_iff.mpr ⟨_, List.getElem_mem hi, hp⟩
    · exact Nat.zero_le _
  rw [List.countP_set hi]
  omega

end MetaMystia.Slots

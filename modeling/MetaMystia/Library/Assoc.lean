import Mathlib.Data.List.AList

/-! # Maps under single updates

An insertion either adds a key or replaces the value of one. What a lookup finds
afterwards is the new value at its key, and the old one at every other key.
-/

namespace MetaMystia.Assoc

universe u v

variable {α : Type u} {β : Type v} [DecidableEq α] {m : AList fun _ : α => β} {k j : α} {old a b : β}

theorem mem_of_lookup (h : m.lookup k = some a) : k ∈ m :=
  AList.lookup_isSome.mp (by rw [h]; rfl)

theorem exists_lookup_of_mem (h : k ∈ m) : ∃ a, m.lookup k = some a :=
  Option.isSome_iff_exists.mp (AList.lookup_isSome.mpr h)

/-- What a projection of the values finds after an insertion. -/
theorem map_lookup_insert {γ : Type*} (f : β → γ) :
    ((m.insert k a).lookup j).map f = if j = k then some (f a) else (m.lookup j).map f := by
  split_ifs with heq
  · rw [heq, AList.lookup_insert]
    rfl
  · rw [AList.lookup_insert_ne heq]

theorem lookup_insert_cases (h : (m.insert k a).lookup j = some b) :
    (j = k ∧ a = b) ∨ (j ≠ k ∧ m.lookup j = some b) := by
  obtain rfl | hne := eq_or_ne j k
  · rw [AList.lookup_insert] at h
    exact .inl ⟨rfl, Option.some.inj h⟩
  · rw [AList.lookup_insert_ne hne] at h
    exact .inr ⟨hne, h⟩

theorem lookup_replace_none (hold : m.lookup k = some old) (h : m.lookup j = none) :
    (m.insert k a).lookup j = none := by
  refine AList.lookup_insert_eq_none.mpr ⟨?_, h⟩
  rintro rfl
  cases hold.symm.trans h

theorem length_keys_insert (hnew : k ∉ m) : (m.insert k a).keys.length = m.keys.length + 1 := by
  rw [AList.keys_insert, List.erase_of_not_mem hnew]
  rfl

theorem perm_keys_replace (hold : m.lookup k = some old) : (m.insert k a).keys.Perm m.keys := by
  rw [AList.keys_insert]
  exact (List.perm_cons_erase (mem_of_lookup hold)).symm

theorem length_keys_replace (hold : m.lookup k = some old) :
    (m.insert k a).keys.length = m.keys.length := by
  have hmem : k ∈ m.keys := mem_of_lookup hold
  have hpos : 0 < m.keys.length := List.length_pos_of_mem hmem
  rw [AList.keys_insert, List.length_cons, List.length_erase_of_mem hmem]
  omega

end MetaMystia.Assoc

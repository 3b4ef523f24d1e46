import Mathlib.Data.List.Basic

/-! # Lists joined with a separator

Items joined with one separator, and read back by splitting at it and dropping the
empty pieces. Nothing is lost exactly if no item is empty or has the separator in it.
-/

namespace MetaMystia.Separated

universe u

variable {α : Type u} {sep : α} {items : List (List α)} {l xs : List α}

def joined (sep : α) (items : List (List α)) : List α := [sep].intercalate items

theorem mem_joined {x : α} (hl : l ∈ items) (hx : x ∈ l) : x ∈ joined sep items := by
  unfold joined
  induction items with
  | nil => cases hl
  | cons first rest ih =>
    cases rest with
    | nil =>
      obtain rfl : l = first := by simpa using hl
      simpa using hx
    | cons second rest =>
      rw [List.intercalate_cons_cons, List.mem_append, List.mem_append]
      obtain rfl | hrest := List.mem_cons.mp hl
      · exact .inl (.inl hx)
      · exact .inr (ih hrest)

theorem exists_of_mem_joined {x : α} (h : x ∈ joined sep items) : x = sep ∨ ∃ l ∈ items, x ∈ l := by
  unfold joined at h
  induction items with
  | nil => cases h
  | cons first rest ih =>
    cases rest with
    | nil => exact .inr ⟨first, by simp, by simpa using h⟩
    | cons second rest =>
      rw [List.intercalate_cons_cons, List.mem_append, List.mem_append] at h
      obtain (hfirst | hsep) | hrest := h
      · exact .inr ⟨first, by simp, hfirst⟩
      · exact .inl (by simpa using hsep)
      · obtain heq | ⟨l, hl, hx⟩ := ih hrest
        · exact .inl heq
        · exact .inr ⟨l, List.mem_cons_of_mem _ hl, hx⟩

/-- Encoding item by item keeps the separator in place. -/
theorem flatMap_joined {β : Type u} {f : α → List β} {sep' : β} (hsep : f sep = [sep']) :
    (joined sep items).flatMap f = joined sep' (items.map fun l => l.flatMap f) := by
  unfold joined
  induction items with
  | nil => rfl
  | cons first rest ih =>
    cases rest with
    | nil => simp
    | cons second rest =>
      rw [List.intercalate_cons_cons, List.flatMap_append, List.flatMap_append, ih,
        List.flatMap_singleton, hsep]
      exact (List.intercalate_cons_cons ..).symm

variable [DecidableEq α]

/-- The pieces between the separators, without the empty ones. -/
def pieces (sep : α) (xs : List α) : List (List α) := (xs.splitOn sep).filter (· ≠ [])

/-- The items that can be told apart again. -/
def Separable (sep : α) (items : List (List α)) : Prop := ∀ l ∈ items, l ≠ [] ∧ sep ∉ l

theorem notMem_of_mem_splitOn (h : l ∈ xs.splitOn sep) : sep ∉ l := by
  induction xs generalizing l with
  | nil =>
    obtain rfl : l = [] := by simpa using h
    exact List.not_mem_nil
  | cons x xs ih =>
    rw [List.splitOn_cons_eq_if_modifyHead] at h
    split_ifs at h with hx
    · obtain rfl | hrest := List.mem_cons.mp h
      · exact List.not_mem_nil
      · exact ih hrest
    · cases hsplit : xs.splitOn sep with
      | nil => exact absurd hsplit (List.splitOn_ne_nil sep xs)
      | cons head tail =>
        rw [hsplit] at h ih
        obtain rfl | hrest := List.mem_cons.mp h
        · rw [List.mem_cons, not_or]
          refine ⟨?_, ih List.mem_cons_self⟩
          rintro rfl
          exact hx BEq.rfl
        · exact ih (List.mem_cons_of_mem _ hrest)

theorem separable_pieces : Separable sep (pieces sep xs) := by
  intro l hl
  obtain ⟨hsplit, hne⟩ := List.mem_filter.mp hl
  exact ⟨of_decide_eq_true hne, notMem_of_mem_splitOn hsplit⟩

theorem pieces_joined (h : Separable sep items) : pieces sep (joined sep items) = items := by
  unfold pieces joined
  obtain rfl | hne := eq_or_ne items []
  · simp
  · rw [List.splitOn_intercalate sep (fun l hl => (h l hl).2) hne, List.filter_eq_self]
    intro l hl
    exact decide_eq_true (h l hl).1

/-- In whatever order the pieces come, they are the items if and only if these are separable. -/
theorem pieces_perm_iff : (pieces sep (joined sep items)).Perm items ↔ Separable sep items := by
  constructor
  · intro h l hl
    exact separable_pieces l (h.symm.subset hl)
  · intro h
    rw [pieces_joined h]

end MetaMystia.Separated

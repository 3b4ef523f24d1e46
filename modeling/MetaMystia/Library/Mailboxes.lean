import Mathlib.Data.List.Perm.Basic

/-! # Putting one item into many queues

Queues in numbered slots. `attempt` is one try at one queue: what it leaves there, or
why it fails. Tries at different queues do not see each other, so a loop over
distinct queues may take them in any order, and fails where a single try would.
-/

namespace MetaMystia.Mailboxes

universe u v w

variable {σ : Type u} {ε : Type v} {κ : Type w} (attempt : σ → Except ε σ) (missing : ε)

def put (slots : List σ) (i : Nat) : List σ × Except ε Unit :=
  match slots[i]? with
  | some slot =>
    match attempt slot with
    | .ok next => (slots.set i next, .ok ())
    | .error e => (slots, .error e)
  | none => (slots, .error missing)

/-- One try at the queue of each target in turn, and the targets it failed for. -/
def putAll (slots : List σ) : List (κ × Nat) → List σ × List (κ × ε)
  | [] => (slots, [])
  | (k, i) :: rest =>
    let (next, result) := put attempt missing slots i
    let (last, errors) := putAll next rest
    match result with
    | .ok _ => (last, errors)
    | .error e => (last, (k, e) :: errors)

/-- What a try leaves in a queue. -/
def settle (slot : σ) : σ :=
  match attempt slot with
  | .ok next => next
  | .error _ => slot

/-- The failure of a single try. -/
def failure (slots : List σ) (target : κ × Nat) : Option (κ × ε) :=
  match (put attempt missing slots target.2).2 with
  | .ok _ => none
  | .error e => some (target.1, e)

variable {slots other : List σ} {i j : Nat}

theorem put_fst : (put attempt missing slots i).1 = slots.modify i (settle attempt) := by
  apply List.ext_getElem?
  intro j
  rw [List.getElem?_modify, put]
  cases hslot : slots[i]? with
  | none =>
    by_cases hj : i = j
    · subst hj
      simp [hslot]
    · simp [hj]
  | some slot =>
    obtain ⟨hlt, rfl⟩ := List.getElem?_eq_some_iff.mp hslot
    by_cases hj : i = j
    · subst hj
      cases hnext : attempt slots[i] <;> simp [hnext, settle, hlt]
    · cases hnext : attempt slots[i] <;> simp [hj, hnext]

theorem put_snd_congr (h : other[i]? = slots[i]?) :
    (put attempt missing other i).2 = (put attempt missing slots i).2 := by
  rw [put, put, h]
  cases slots[i]? with
  | none => rfl
  | some slot => cases hnext : attempt slot <;> simp only [hnext]

theorem failure_congr {target : κ × Nat} (h : other[target.2]? = slots[target.2]?) :
    failure attempt missing other target = failure attempt missing slots target := by
  rw [failure, failure, put_snd_congr attempt missing h]

theorem fst_of_failure {target : κ × Nat} {error : κ × ε}
    (h : failure attempt missing slots target = some error) : error.1 = target.1 := by
  unfold failure at h
  cases hresult : (put attempt missing slots target.2).2 with
  | ok value => simp [hresult] at h
  | error e =>
    simp only [hresult, Option.some.injEq] at h
    rw [← h]

theorem putAll_cons (target : κ × Nat) (rest : List (κ × Nat)) :
    putAll attempt missing slots (target :: rest) =
      ((putAll attempt missing (put attempt missing slots target.2).1 rest).1,
        (failure attempt missing slots target).toList ++
          (putAll attempt missing (put attempt missing slots target.2).1 rest).2) := by
  rw [putAll, failure]
  cases hresult : (put attempt missing slots target.2).2 <;> simp [hresult]

theorem putAll_fst (targets : List (κ × Nat)) :
    (putAll attempt missing slots targets).1 =
      targets.foldl (fun acc target => acc.modify target.2 (settle attempt)) slots := by
  induction targets generalizing slots with
  | nil => rfl
  | cons target rest ih => rw [putAll_cons, ih, put_fst, List.foldl_cons]

/-- The loop fails for the targets at whose queue a single try at the start would fail. -/
theorem putAll_snd {targets : List (κ × Nat)} (hnodup : (targets.map Prod.snd).Nodup) :
    (putAll attempt missing slots targets).2 = targets.filterMap (failure attempt missing slots) := by
  induction targets generalizing slots with
  | nil => rfl
  | cons target rest ih =>
    obtain ⟨hfresh, hrest⟩ := List.nodup_cons.mp hnodup
    have hsame : ∀ later ∈ rest, failure attempt missing (put attempt missing slots target.2).1 later =
        failure attempt missing slots later := by
      intro later hlater
      have hne : target.2 ≠ later.2 := by
        rintro heq
        exact hfresh (heq ▸ List.mem_map_of_mem hlater)
      apply failure_congr
      rw [put_fst, List.getElem?_modify_ne _ _ hne]
    rw [putAll_cons, ih hrest, List.filterMap_congr hsame, List.filterMap_cons]
    cases failure attempt missing slots target <;> rfl

theorem modify_comm (f : σ → σ) (slots : List σ) (i j : Nat) :
    (slots.modify i f).modify j f = (slots.modify j f).modify i f := by
  by_cases h : i = j
  · rw [h]
  · exact (List.modify_modify_ne f f slots h)

theorem putAll_fst_perm {targets others : List (κ × Nat)} (h : targets.Perm others) :
    (putAll attempt missing slots targets).1 = (putAll attempt missing slots others).1 := by
  rw [putAll_fst, putAll_fst]
  apply h.foldl_eq'
  intro first _ second _ acc
  exact modify_comm _ acc first.2 second.2

theorem getElem?_putAll_of_notMem {targets : List (κ × Nat)} (h : i ∉ targets.map Prod.snd) :
    (putAll attempt missing slots targets).1[i]? = slots[i]? := by
  rw [putAll_fst]
  induction targets generalizing slots with
  | nil => rfl
  | cons target rest ih =>
    obtain ⟨hne, hrest⟩ : i ≠ target.2 ∧ i ∉ rest.map Prod.snd := by simpa using h
    rw [List.foldl_cons, ih hrest, List.getElem?_modify_ne _ _ (Ne.symm hne)]

theorem getElem?_putAll_of_mem {targets : List (κ × Nat)} (hnodup : (targets.map Prod.snd).Nodup)
    (h : i ∈ targets.map Prod.snd) :
    (putAll attempt missing slots targets).1[i]? = slots[i]?.map (settle attempt) := by
  rw [putAll_fst]
  induction targets generalizing slots with
  | nil => cases h
  | cons target rest ih =>
    obtain ⟨hfresh, hrest⟩ := List.nodup_cons.mp hnodup
    rw [List.foldl_cons]
    obtain rfl | hlater := List.mem_cons.mp h
    · rw [← putAll_fst attempt missing, getElem?_putAll_of_notMem attempt missing hfresh,
        List.getElem?_modify_eq]
      rfl
    · have hne : target.2 ≠ i := fun heq => hfresh (heq ▸ hlater)
      rw [ih hrest hlater, List.getElem?_modify_ne _ _ hne]

theorem map_putAll {β : Type*} {f : σ → β} (hf : ∀ slot, f (settle attempt slot) = f slot)
    (targets : List (κ × Nat)) :
    (putAll attempt missing slots targets).1.map f = slots.map f := by
  rw [putAll_fst]
  induction targets generalizing slots with
  | nil => rfl
  | cons target rest ih =>
    rw [List.foldl_cons, ih]
    apply List.ext_getElem?
    intro j
    rw [List.getElem?_map, List.getElem?_map, List.getElem?_modify]
    by_cases hj : target.2 = j
    · cases slots[j]? <;> simp [hj, hf]
    · simp [hj]

end MetaMystia.Mailboxes

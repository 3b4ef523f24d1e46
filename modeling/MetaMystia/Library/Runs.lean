import Mathlib.Data.Option.Basic
import Mathlib.Tactic.Push
import Mathlib.Data.List.Induction

/-! # Runs of a partial step function

A system is a step function that is undefined on the actions a state does not
enable. The rules below turn a fact about one step into a fact about whole runs;
`Along` is a condition on every step, read in the state the step is taken from.
-/

namespace MetaMystia.Runs

universe u v

variable {σ : Type u} {α : Type v} {step : σ → α → Option σ} {P : σ → α → Prop}

/-- The state after the actions, `none` as soon as one of them is not enabled. -/
def run (step : σ → α → Option σ) : σ → List α → Option σ
  | s, [] => some s
  | s, a :: rest => (step s a).bind fun t => run step t rest

def Along (step : σ → α → Option σ) (P : σ → α → Prop) : σ → List α → Prop
  | _, [] => True
  | s, a :: rest => P s a ∧ ∀ t, step s a = some t → Along step P t rest

instance Along.decidable [∀ s a, Decidable (P s a)] :
    (s : σ) → (acts : List α) → Decidable (Along step P s acts)
  | _, [] => .isTrue trivial
  | s, a :: rest =>
    haveI : Decidable (∀ t, step s a = some t → Along step P t rest) :=
      match step s a with
      | none => .isTrue fun _ h => nomatch h
      | some t =>
        have := Along.decidable t rest
        decidable_of_iff (Along step P t rest)
          ⟨fun h _ ht => Option.some.inj ht ▸ h, fun h => h t rfl⟩
    inferInstanceAs (Decidable (_ ∧ _))

/-- The property holds in every state that the actions pass through. -/
def Throughout (step : σ → α → Option σ) (I : σ → Prop) (s : σ) (acts : List α) : Prop :=
  ∀ front back m, acts = front ++ back → run step s front = some m → I m

/-- Some step of the run has the property in the state it is taken from. -/
def Occurs (step : σ → α → Option σ) (Q : σ → α → Prop) (s : σ) (acts : List α) : Prop :=
  ∃ front a back m, acts = front ++ a :: back ∧ run step s front = some m ∧ Q m a

@[simp] theorem run_nil (s : σ) : run step s [] = some s := rfl

theorem run_cons_iff {s t : σ} {a : α} {rest : List α} :
    run step s (a :: rest) = some t ↔ ∃ m, step s a = some m ∧ run step m rest = some t := by
  simp only [run, Option.bind_eq_some_iff]

theorem run_append_iff {s t : σ} {front back : List α} :
    run step s (front ++ back) = some t ↔
      ∃ m, run step s front = some m ∧ run step m back = some t := by
  induction front generalizing s with
  | nil => simp
  | cons a rest ih =>
    simp only [List.cons_append, run_cons_iff, ih]
    constructor
    · rintro ⟨m, hm, k, hk, ht⟩
      exact ⟨k, ⟨m, hm, hk⟩, ht⟩
    · rintro ⟨k, ⟨m, hm, hk⟩, ht⟩
      exact ⟨m, hm, k, hk, ht⟩

theorem run_concat_iff {s t : σ} {front : List α} {a : α} :
    run step s (front ++ [a]) = some t ↔ ∃ m, run step s front = some m ∧ step m a = some t := by
  simp only [run_append_iff, run_cons_iff, run_nil, Option.some.injEq, exists_eq_right]

theorem along_append_iff {s : σ} {front back : List α} :
    Along step P s (front ++ back) ↔
      Along step P s front ∧ ∀ m, run step s front = some m → Along step P m back := by
  induction front generalizing s with
  | nil => simp [Along]
  | cons a rest ih =>
    simp only [List.cons_append, Along, ih, run_cons_iff]
    constructor
    · rintro ⟨ha, h⟩
      refine ⟨⟨ha, fun t ht => (h t ht).1⟩, ?_⟩
      rintro m ⟨t, ht, hm⟩
      exact (h t ht).2 m hm
    · rintro ⟨⟨ha, hrest⟩, h⟩
      exact ⟨ha, fun t ht => ⟨hrest t ht, fun m hm => h m ⟨t, ht, hm⟩⟩⟩

theorem along_concat_iff {s m : σ} {front : List α} {a : α} (hm : run step s front = some m) :
    Along step P s (front ++ [a]) ↔ Along step P s front ∧ P m a := by
  simp [along_append_iff, Along, hm]

/-- Induction on a run from its start, with the actions taken so far in view. -/
theorem history_induction {s : σ} {I : List α → σ → Prop} (hinit : I [] s)
    (hstep : ∀ front m a t, run step s front = some m → Along step P s front → I front m →
      P m a → step m a = some t → I (front ++ [a]) t)
    {acts : List α} {t : σ} (halong : Along step P s acts) (hrun : run step s acts = some t) :
    I acts t := by
  induction acts using List.reverseRecOn generalizing t with
  | nil =>
    obtain rfl : s = t := by simpa using hrun
    exact hinit
  | append_singleton front a ih =>
    obtain ⟨m, hm, ht⟩ := run_concat_iff.mp hrun
    obtain ⟨hfront, ha⟩ := (along_concat_iff hm).mp halong
    exact hstep front m a t hm hfront (ih hfront hm) ha ht

theorem invariant {I : σ → Prop} (hstep : ∀ s a t, I s → P s a → step s a = some t → I t)
    {s t : σ} {acts : List α} (hs : I s) (halong : Along step P s acts)
    (hrun : run step s acts = some t) : I t :=
  history_induction (I := fun _ => I) hs (fun _ m a t _ _ hm ha ht => hstep m a t hm ha ht)
    halong hrun

/-- What an invariant and the condition of a step imply holds along the run too. -/
theorem Along.of_invariant {I : σ → Prop} {Q : σ → α → Prop}
    (hstep : ∀ s a t, I s → P s a → step s a = some t → I t) (h : ∀ s a, I s → P s a → Q s a)
    {s : σ} {acts : List α} (halong : Along step P s acts) (hs : I s) : Along step Q s acts := by
  induction acts generalizing s with
  | nil => trivial
  | cons a rest ih =>
    obtain ⟨ha, hrest⟩ := halong
    exact ⟨h s a hs ha, fun t ht => ih (hrest t ht) (hstep s a t hs ha ht)⟩

theorem Along.throughout {I J : σ → Prop} (hstep : ∀ s a t, I s → P s a → step s a = some t → I t)
    (h : ∀ s, I s → J s) {s : σ} {acts : List α} (halong : Along step P s acts) (hs : I s) :
    Throughout step J s acts := by
  rintro front back m rfl hm
  exact h m (invariant hstep hs (along_append_iff.mp halong).1 hm)

theorem along_of_forall (h : ∀ s a, P s a) (s : σ) (acts : List α) : Along step P s acts := by
  induction acts generalizing s with
  | nil => trivial
  | cons a rest ih => exact ⟨h s a, fun t _ => ih t⟩

theorem along_of_forall_mem {acts : List α} (h : ∀ a ∈ acts, ∀ s, P s a) (s : σ) :
    Along step P s acts := by
  induction acts generalizing s with
  | nil => trivial
  | cons a rest ih =>
    obtain ⟨ha, hrest⟩ := List.forall_mem_cons.mp h
    exact ⟨ha s, fun t _ => ih hrest t⟩

theorem Along.and {Q : σ → α → Prop} {s : σ} {acts : List α} (hP : Along step P s acts)
    (hQ : Along step Q s acts) : Along step (fun s a => P s a ∧ Q s a) s acts := by
  induction acts generalizing s with
  | nil => trivial
  | cons a rest ih => exact ⟨⟨hP.1, hQ.1⟩, fun t ht => ih (hP.2 t ht) (hQ.2 t ht)⟩

/-- Two conditions that agree wherever an invariant holds agree along every run that starts there. -/
theorem along_congr {I : σ → Prop} {Q : σ → α → Prop}
    (hstep : ∀ s a t, I s → step s a = some t → I t) (h : ∀ s a, I s → (P s a ↔ Q s a))
    {s : σ} (hs : I s) (acts : List α) : Along step P s acts ↔ Along step Q s acts := by
  induction acts generalizing s with
  | nil => exact Iff.rfl
  | cons a rest ih =>
    have hrest : ∀ t, step s a = some t → (Along step P t rest ↔ Along step Q t rest) :=
      fun t ht => ih (hstep s a t hs ht)
    exact and_congr (h s a hs) (forall₂_congr hrest)

/-- A condition that fails along a run fails for the first time at one of its steps. -/
theorem exists_first_failure {s : σ} {acts : List α} (h : ¬ Along step P s acts) :
    ∃ front a back m, acts = front ++ a :: back ∧ run step s front = some m ∧
      Along step P s front ∧ ¬ P m a := by
  induction acts generalizing s with
  | nil => exact absurd trivial h
  | cons a rest ih =>
    by_cases ha : P s a
    · have hrest : ∃ t, step s a = some t ∧ ¬ Along step P t rest := by
        by_contra hno
        push Not at hno
        exact h ⟨ha, hno⟩
      obtain ⟨t, ht, hrest⟩ := hrest
      obtain ⟨front, b, back, m, rfl, hm, hfront, hb⟩ := ih hrest
      refine ⟨a :: front, b, back, m, rfl, run_cons_iff.mpr ⟨t, ht, hm⟩, ⟨ha, ?_⟩, hb⟩
      intro t' ht'
      obtain rfl : t = t' := Option.some.inj (ht.symm.trans ht')
      exact hfront
    · exact ⟨[], a, rest, s, rfl, rfl, trivial, ha⟩

/-- A property holds throughout a run exactly if a condition holds along it, when the condition is
what keeps an invariant that implies the property and a step without it ends the property. -/
theorem throughout_iff_along {I J : σ → Prop} {Q : σ → α → Prop}
    (hstep : ∀ s a t, I s → P s a → Q s a → step s a = some t → I t) (hgood : ∀ s, I s → J s)
    (hbreak : ∀ s a, I s → P s a → ¬ Q s a → ∃ t, step s a = some t ∧ ¬ J t)
    {s : σ} {acts : List α} (halong : Along step P s acts) (hs : I s) :
    Throughout step J s acts ↔ Along step Q s acts := by
  have hboth : ∀ s a t, I s → P s a ∧ Q s a → step s a = some t → I t :=
    fun s a t hs h ht => hstep s a t hs h.1 h.2 ht
  constructor
  · intro hthroughout
    by_contra hnot
    obtain ⟨front, a, back, m, rfl, hm, hfront, ha⟩ := exists_first_failure hnot
    obtain ⟨hbefore, hafter⟩ := along_append_iff.mp halong
    have hinv : I m := invariant hboth hs (hbefore.and hfront) hm
    obtain ⟨t, ht, hfails⟩ := hbreak m a hinv (hafter m hm).1 ha
    exact hfails (hthroughout (front ++ [a]) back t (by simp) (run_concat_iff.mpr ⟨m, hm, ht⟩))
  · intro hkept
    exact (halong.and hkept).throughout hboth hgood hs

/-- What one action establishes and no later step undoes holds at the end of a run that takes it. -/
theorem holds_of_mem {I Q : σ → Prop} {b : α} (hstep : ∀ s a t, I s → P s a → step s a = some t → I t)
    (hestablish : ∀ s t, I s → P s b → step s b = some t → Q t)
    (hkeep : ∀ s a t, I s → P s a → Q s → step s a = some t → Q t) {s t : σ} {acts : List α}
    (hs : I s) (halong : Along step P s acts) (hrun : run step s acts = some t) (hb : b ∈ acts) :
    Q t := by
  have hhistory : I t ∧ (b ∈ acts → Q t) := by
    refine history_induction (I := fun acts t => I t ∧ (b ∈ acts → Q t)) ⟨hs, by simp⟩ ?_ halong hrun
    rintro front m a t _ _ ⟨hm, hfront⟩ ha ht
    refine ⟨hstep m a t hm ha ht, fun hmem => ?_⟩
    obtain hold | hnew := List.mem_append.mp hmem
    · exact hkeep m a t hm ha (hfront hold) ht
    · obtain rfl := List.mem_singleton.mp hnew
      exact hestablish m t hm ha ht
  exact hhistory.2 hb

/-- A simulation of each step by a run of another system is one of each run. -/
theorem exists_run_of_simulation {τ : Type u} {β : Type v} {step' : τ → β → Option τ}
    {P' : τ → β → Prop} {R : σ → τ → Prop}
    (hstep : ∀ s s' a t, R s s' → P s a → step s a = some t →
      ∃ acts' t', Along step' P' s' acts' ∧ run step' s' acts' = some t' ∧ R t t')
    {s t : σ} {s' : τ} {acts : List α} (hs : R s s') (halong : Along step P s acts)
    (hrun : run step s acts = some t) :
    ∃ acts' t', Along step' P' s' acts' ∧ run step' s' acts' = some t' ∧ R t t' := by
  induction acts generalizing s s' with
  | nil =>
    obtain rfl : s = t := by simpa using hrun
    exact ⟨[], s', trivial, rfl, hs⟩
  | cons a rest ih =>
    obtain ⟨m, hm, hrest⟩ := run_cons_iff.mp hrun
    obtain ⟨front, m', hfront, hm', hmid⟩ := hstep s s' a m hs halong.1 hm
    obtain ⟨back, t', hback, ht', hend⟩ := ih hmid (halong.2 m hm) hrest
    refine ⟨front ++ back, t', along_append_iff.mpr ⟨hfront, ?_⟩, run_append_iff.mpr ⟨m', hm', ht'⟩, hend⟩
    intro k hk
    obtain rfl : m' = k := Option.some.inj (hm'.symm.trans hk)
    exact hback

theorem occurs_iff_not_along {Q : σ → α → Prop} {s : σ} {acts : List α} :
    Occurs step Q s acts ↔ ¬ Along step (fun s a => ¬ Q s a) s acts := by
  constructor
  · rintro ⟨front, a, back, m, rfl, hm, ha⟩ halong
    exact ((along_append_iff.mp halong).2 m hm).1 ha
  · intro h
    obtain ⟨front, a, back, m, hacts, hm, _, ha⟩ := exists_first_failure h
    exact ⟨front, a, back, m, hacts, hm, not_not.mp ha⟩

instance Occurs.decidable {Q : σ → α → Prop} [∀ s a, Decidable (Q s a)] (s : σ) (acts : List α) :
    Decidable (Occurs step Q s acts) :=
  decidable_of_iff _ occurs_iff_not_along.symm

theorem occurs_concat_iff {Q : σ → α → Prop} {s m : σ} {front : List α} {a : α}
    (hm : run step s front = some m) :
    Occurs step Q s (front ++ [a]) ↔ Occurs step Q s front ∨ Q m a := by
  rw [occurs_iff_not_along, occurs_iff_not_along, along_concat_iff hm, not_and_or, not_not]

theorem not_occurs_nil {Q : σ → α → Prop} {s : σ} : ¬ Occurs step Q s [] :=
  fun h => occurs_iff_not_along.mp h trivial

end MetaMystia.Runs

import MetaMystia.Library.Runs
import Mathlib.Algebra.BigOperators.Group.List.Basic
import Mathlib.Algebra.GroupWithZero.Nat
import Mathlib.Algebra.Order.BigOperators.Group.List

/-! # Messages that cause messages

A message is handled once or lost, in any order, and what is sent while it is
handled goes back to the same cause. A weight that handling a message does not
increase bounds all that comes of one cause, whatever else is going on.
-/

namespace MetaMystia

universe u v w x y z

/-- What handling a message does, with what is recorded of it, and what begins by itself: its label
and the messages it sends. `K` stands for what is found at the time. -/
structure Rules (S : Type u) (M : Type v) (E : Type w) (O : Type x) (A : Type y) (K : Type z) where
  handle : S → K → M → S × List M × E
  originate : S → A → Option (O × S × List M)

/-- Messages and records carry the number of their cause, and `origins` the labels of the causes. -/
structure Cascade (S : Type u) (M : Type v) (E : Type w) (O : Type x) where
  state : S
  inFlight : List (Nat × M)
  records : List (Nat × E)
  origins : List O

namespace Cascade

inductive Action (A : Type y) (K : Type z)
  | handle (k : Nat) (found : K)
  | lose (k : Nat)
  | originate (a : A)

variable {S : Type u} {M : Type v} {E : Type w} {O : Type x} {A : Type y} {K : Type z}
  {rules : Rules S M E O A K} {I : S → Prop}

open Runs

def start (state : S) : Cascade S M E O := ⟨state, [], [], []⟩

/-- The message at position `k` is handled, or lost. -/
def step (rules : Rules S M E O A K) (s : Cascade S M E O) : Action A K → Option (Cascade S M E O)
  | .handle k found =>
    s.inFlight[k]?.map fun (cause, msg) =>
      let handled := rules.handle s.state found msg
      { s with
        state := handled.1
        inFlight := s.inFlight.eraseIdx k ++ handled.2.1.map fun msg => (cause, msg)
        records := s.records ++ [(cause, handled.2.2)] }
  | .lose k => s.inFlight[k]?.map fun _ => { s with inFlight := s.inFlight.eraseIdx k }
  | .originate a =>
    (rules.originate s.state a).map fun (label, state, sent) =>
      { s with
        state
        inFlight := s.inFlight ++ sent.map fun msg => (s.origins.length, msg)
        origins := s.origins ++ [label] }

/-- The weight of what belongs to one cause. -/
def weightOf {α : Type v} (weight : α → Nat) (cause : Nat) (entries : List (Nat × α)) : Nat :=
  (entries.map fun entry => if entry.1 = cause then weight entry.2 else 0).sum

section Weights

variable {α : Type v} {weight : α → Nat} {cause : Nat}

theorem weightOf_append (front back : List (Nat × α)) :
    weightOf weight cause (front ++ back) = weightOf weight cause front + weightOf weight cause back := by
  simp [weightOf]

theorem weightOf_map_same (items : List α) :
    weightOf weight cause (items.map fun item => (cause, item)) = (items.map weight).sum := by
  simp [weightOf, Function.comp_def]

theorem weightOf_eq_zero {entries : List (Nat × α)} (h : ∀ entry ∈ entries, entry.1 ≠ cause) :
    weightOf weight cause entries = 0 := by
  apply List.sum_eq_zero
  intro weight hweight
  obtain ⟨entry, hentry, rfl⟩ := List.mem_map.mp hweight
  exact if_neg (h entry hentry)

theorem weightOf_map_other {other : Nat} (hne : other ≠ cause) (items : List α) :
    weightOf weight cause (items.map fun item => (other, item)) = 0 := by
  apply weightOf_eq_zero
  simpa using fun _ _ => hne

theorem weightOf_eraseIdx {entries : List (Nat × α)} {k : Nat} {entry : Nat × α}
    (hk : entries[k]? = some entry) : weightOf weight cause entries =
      (if entry.1 = cause then weight entry.2 else 0) + weightOf weight cause (entries.eraseIdx k) := by
  obtain ⟨hlength, rfl⟩ := List.getElem?_eq_some_iff.mp hk
  have hperm := (List.getElem_cons_eraseIdx_perm hlength).map fun entry =>
    if entry.1 = cause then weight entry.2 else 0
  rw [weightOf, ← hperm.sum_eq, List.map_cons, List.sum_cons, weightOf]

end Weights

/-- Every number in use is the number of a cause. -/
structure Numbered (s : Cascade S M E O) : Prop where
  inFlight : ∀ entry ∈ s.inFlight, entry.1 < s.origins.length
  records : ∀ entry ∈ s.records, entry.1 < s.origins.length

theorem numbered_start (state : S) : (start state : Cascade S M E O).Numbered := by
  constructor <;> simp [start]

theorem Numbered.of_step {s t : Cascade S M E O} (h : s.Numbered) {a : Action A K}
    (hstep : step rules s a = some t) : t.Numbered := by
  cases a with
  | handle k found =>
    obtain ⟨entry, hk, rfl⟩ := Option.map_eq_some_iff.mp hstep
    have hcause := h.inFlight entry (List.mem_of_getElem? hk)
    constructor
    · intro other hother
      obtain hother | hother := List.mem_append.mp hother
      · exact h.inFlight other (List.mem_of_mem_eraseIdx hother)
      · obtain ⟨_, _, rfl⟩ := List.mem_map.mp hother
        exact hcause
    · intro other hother
      obtain hother | hother := List.mem_append.mp hother
      · exact h.records other hother
      · obtain rfl := List.mem_singleton.mp hother
        exact hcause
  | lose k =>
    obtain ⟨entry, _, rfl⟩ := Option.map_eq_some_iff.mp hstep
    exact ⟨fun other hother => h.inFlight other (List.mem_of_mem_eraseIdx hother), h.records⟩
  | originate a =>
    obtain ⟨⟨label, state, sent⟩, _, rfl⟩ := Option.map_eq_some_iff.mp hstep
    constructor
    · intro other hother
      rw [List.length_append, List.length_singleton]
      obtain hother | hother := List.mem_append.mp hother
      · exact Nat.lt_succ_of_lt (h.inFlight other hother)
      · obtain ⟨_, _, rfl⟩ := List.mem_map.mp hother
        exact Nat.lt_succ_self _
    · intro other hother
      rw [List.length_append, List.length_singleton]
      exact Nat.lt_succ_of_lt (h.records other hother)

/-- All that has come of a cause, and may still come of it. -/
def charge (weight : M → Nat) (worth : E → Nat) (cause : Nat) (s : Cascade S M E O) : Nat :=
  weightOf weight cause s.inFlight + weightOf worth cause s.records

variable {weight : M → Nat} {worth : E → Nat} {bound : O → Nat}

/-- Handling a message uses up the weight of the message. -/
def Conserves (rules : Rules S M E O A K) (I : S → Prop) (weight : M → Nat) (worth : E → Nat) : Prop :=
  ∀ state found msg, I state →
    ((rules.handle state found msg).2.1.map weight).sum + worth (rules.handle state found msg).2.2 ≤
      weight msg

/-- The messages that a cause sends have at most the weight that its label allows. -/
def Endows (rules : Rules S M E O A K) (I : S → Prop) (weight : M → Nat) (bound : O → Nat) : Prop :=
  ∀ state a label next sent, I state → rules.originate state a = some (label, next, sent) →
    (sent.map weight).sum ≤ bound label

theorem Numbered.charge_step_le {s t : Cascade S M E O} (h : s.Numbered)
    (hconserves : Conserves rules I weight worth) (hendows : Endows rules I weight bound)
    (hI : I s.state) {a : Action A K} (hstep : step rules s a = some t)
    (hcharge : ∀ cause label, s.origins[cause]? = some label → charge weight worth cause s ≤ bound label)
    {cause : Nat} {label : O} (hlabel : t.origins[cause]? = some label) :
    charge weight worth cause t ≤ bound label := by
  cases a with
  | handle k found =>
    obtain ⟨⟨own, msg⟩, hk, rfl⟩ := Option.map_eq_some_iff.mp hstep
    have hold := hcharge cause label hlabel
    have hmsg := hconserves s.state found msg hI
    simp only [charge, weightOf_eraseIdx hk] at hold
    simp only [charge, weightOf_append]
    by_cases hown : own = cause
    · subst hown
      have hrecord : weightOf worth own [(own, (rules.handle s.state found msg).2.2)] =
          worth (rules.handle s.state found msg).2.2 := by simp [weightOf]
      rw [weightOf_map_same, hrecord]
      rw [if_pos rfl] at hold
      omega
    · have hrecord : weightOf worth cause [(own, (rules.handle s.state found msg).2.2)] = 0 := by
        simp [weightOf, hown]
      rw [weightOf_map_other hown, hrecord]
      omega
  | lose k =>
    obtain ⟨entry, hk, rfl⟩ := Option.map_eq_some_iff.mp hstep
    have hold := hcharge cause label hlabel
    simp only [charge, weightOf_eraseIdx hk] at hold
    simp only [charge]
    omega
  | originate a =>
    obtain ⟨⟨own, state, sent⟩, hown, rfl⟩ := Option.map_eq_some_iff.mp hstep
    simp only [charge, weightOf_append]
    by_cases hnew : s.origins.length = cause
    · subst hnew
      obtain rfl : own = label := by simpa using hlabel
      have hsent := hendows s.state a own state sent hI hown
      have hnone : weightOf weight s.origins.length s.inFlight = 0 :=
        weightOf_eq_zero fun entry hentry => (h.inFlight entry hentry).ne
      have hunrecorded : weightOf worth s.origins.length s.records = 0 :=
        weightOf_eq_zero fun entry hentry => (h.records entry hentry).ne
      rw [weightOf_map_same, hnone, hunrecorded]
      omega
    · have hlt : cause < s.origins.length := by
        have hlength := (List.getElem?_eq_some_iff.mp hlabel).1
        simp only [List.length_append, List.length_singleton] at hlength
        omega
      rw [List.getElem?_append_left hlt] at hlabel
      have hold := hcharge cause label hlabel
      rw [weightOf_map_other hnew, Nat.add_zero]
      exact hold

/-- What a weight allows its cause is never exceeded, in whatever order the messages are handled. -/
theorem charge_le (hconserves : Conserves rules I weight worth) (hendows : Endows rules I weight bound)
    {state : S} {acts : List (Action A K)} {t : Cascade S M E O}
    (halong : Along (step rules) (fun s _ => I s.state) (start state) acts)
    (hrun : run (step rules) (start state) acts = some t) {cause : Nat} {label : O}
    (hlabel : t.origins[cause]? = some label) : charge weight worth cause t ≤ bound label := by
  have hinv : t.Numbered ∧ ∀ cause label, t.origins[cause]? = some label →
      charge weight worth cause t ≤ bound label := by
    refine invariant (I := fun t => t.Numbered ∧ ∀ cause label, t.origins[cause]? = some label →
      charge weight worth cause t ≤ bound label) ?_ ⟨numbered_start state, by simp [start]⟩ halong hrun
    rintro s a t ⟨hnumbered, hcharge⟩ hI hstep
    exact ⟨hnumbered.of_step hstep, fun cause label hlabel =>
      hnumbered.charge_step_le hconserves hendows hI hstep hcharge hlabel⟩
  exact hinv.2 cause label hlabel

/-- What is recorded of a cause is worth at most what the cause was allowed. -/
theorem worth_le (hconserves : Conserves rules I weight worth) (hendows : Endows rules I weight bound)
    {state : S} {acts : List (Action A K)} {t : Cascade S M E O}
    (halong : Along (step rules) (fun s _ => I s.state) (start state) acts)
    (hrun : run (step rules) (start state) acts = some t) {cause : Nat} {label : O}
    (hlabel : t.origins[cause]? = some label) : weightOf worth cause t.records ≤ bound label :=
  (Nat.le_add_left _ _).trans (charge_le hconserves hendows halong hrun hlabel)

theorem numbered_of_run {state : S} {acts : List (Action A K)} {t : Cascade S M E O}
    (hrun : run (step rules) (start state) acts = some t) : t.Numbered :=
  invariant (fun _ _ _ h (_ : True) hstep => h.of_step hstep) (numbered_start state)
    (along_of_forall (fun _ _ => trivial) _ _) hrun

/-- A number that no cause has yet stands for nothing. -/
theorem worth_le_of_any {most : Nat} (hconserves : Conserves rules I weight worth)
    (hendows : Endows rules I weight fun _ => most) {state : S} {acts : List (Action A K)}
    {t : Cascade S M E O} (halong : Along (step rules) (fun s _ => I s.state) (start state) acts)
    (hrun : run (step rules) (start state) acts = some t) (cause : Nat) :
    weightOf worth cause t.records ≤ most := by
  cases hlabel : t.origins[cause]? with
  | some label => exact worth_le hconserves hendows halong hrun hlabel
  | none =>
    have hlength := List.getElem?_eq_none_iff.mp hlabel
    rw [weightOf_eq_zero]
    · exact Nat.zero_le _
    · intro entry hentry
      have hlt := (numbered_of_run hrun).records entry hentry
      omega

variable {Bears : O → M → Prop} {Tells : O → E → Prop} {P : A → Prop}

def Action.Begins (P : A → Prop) : Action A K → Prop
  | .originate a => P a
  | _ => True

/-- What the label of a cause says of its messages, handling a message keeps and records. -/
structure Faithful (rules : Rules S M E O A K) (P : A → Prop) (Bears : O → M → Prop)
    (Tells : O → E → Prop) : Prop where
  handled : ∀ state found msg label, Bears label msg →
    (∀ sent ∈ (rules.handle state found msg).2.1, Bears label sent) ∧
      Tells label (rules.handle state found msg).2.2
  originated : ∀ state a label next sent, P a →
    rules.originate state a = some (label, next, sent) → ∀ msg ∈ sent, Bears label msg

structure Told (Bears : O → M → Prop) (Tells : O → E → Prop) (s : Cascade S M E O) : Prop where
  inFlight : ∀ cause msg, (cause, msg) ∈ s.inFlight → ∃ label, s.origins[cause]? = some label ∧ Bears label msg
  records : ∀ cause record, (cause, record) ∈ s.records →
    ∃ label, s.origins[cause]? = some label ∧ Tells label record

theorem Told.of_step {s t : Cascade S M E O} (h : s.Told Bears Tells)
    (hfaithful : Faithful rules P Bears Tells) {a : Action A K} (ha : a.Begins P)
    (hstep : step rules s a = some t) : t.Told Bears Tells := by
  cases a with
  | handle k found =>
    obtain ⟨⟨own, msg⟩, hk, rfl⟩ := Option.map_eq_some_iff.mp hstep
    obtain ⟨label, hlabel, hbears⟩ := h.inFlight own msg (List.mem_of_getElem? hk)
    obtain ⟨hsent, htells⟩ := hfaithful.handled s.state found msg label hbears
    constructor
    · intro cause other hother
      obtain hother | hother := List.mem_append.mp hother
      · exact h.inFlight cause other (List.mem_of_mem_eraseIdx hother)
      · obtain ⟨_, hmem, heq⟩ := List.mem_map.mp hother
        cases heq
        exact ⟨label, hlabel, hsent other hmem⟩
    · intro cause record hrecord
      obtain hrecord | hrecord := List.mem_append.mp hrecord
      · exact h.records cause record hrecord
      · cases List.mem_singleton.mp hrecord
        exact ⟨label, hlabel, htells⟩
  | lose k =>
    obtain ⟨_, _, rfl⟩ := Option.map_eq_some_iff.mp hstep
    exact ⟨fun cause other hother => h.inFlight cause other (List.mem_of_mem_eraseIdx hother), h.records⟩
  | originate a =>
    obtain ⟨⟨own, state, sent⟩, hown, rfl⟩ := Option.map_eq_some_iff.mp hstep
    have hkeep : ∀ {cause : Nat} {label : O}, s.origins[cause]? = some label →
        (s.origins ++ [own])[cause]? = some label := by
      intro cause label hlabel
      rw [List.getElem?_append_left (List.getElem?_eq_some_iff.mp hlabel).1]
      exact hlabel
    constructor
    · intro cause msg hmsg
      obtain hmsg | hmsg := List.mem_append.mp hmsg
      · obtain ⟨label, hlabel, hbears⟩ := h.inFlight cause msg hmsg
        exact ⟨label, hkeep hlabel, hbears⟩
      · obtain ⟨_, hmem, heq⟩ := List.mem_map.mp hmsg
        cases heq
        exact ⟨own, by simp, hfaithful.originated s.state a own state sent ha hown msg hmem⟩
    · intro cause record hrecord
      obtain ⟨label, hlabel, htells⟩ := h.records cause record hrecord
      exact ⟨label, hkeep hlabel, htells⟩

/-- What is recorded of a cause is what the label of the cause says. -/
theorem told_of_run (hfaithful : Faithful rules P Bears Tells) {state : S} {acts : List (Action A K)}
    (hacts : ∀ a ∈ acts, a.Begins P) {t : Cascade S M E O}
    (hrun : run (step rules) (start state) acts = some t) : t.Told Bears Tells := by
  refine invariant (I := Told Bears Tells) (fun s a t h ha hstep => h.of_step hfaithful ha hstep) ?_
    (along_of_forall_mem (fun a ha _ => hacts a ha) _) hrun
  constructor <;> simp [start]

end Cascade

end MetaMystia

import MetaMystia.Library.Runs
import Mathlib.Data.List.Basic

/-! # Initialisation and shutdown from several threads

`InitializeNetwork` checks `NETWORK`, builds a state and a runtime, and publishes
them under two locks; `ShutdownNetwork` takes the state, shuts it down under the
lock of `RUNTIME`, and takes the runtime. Each section under a lock is one step.
A state and its runtime are known by the number of the call that built them.
-/

namespace MetaMystia

open Runs

inductive LifecycleResult
  | initialized
  | alreadyInitialized
  | initializeFailed
  | shutDown
  | notInitialized
deriving DecidableEq, Repr

/-- The section that a call enters next. -/
inductive LifecycleCall
  | checkNetwork
  | build
  | publishNetwork
  | publishRuntime
  | takeNetwork
  | shutdownState (state : Nat)
  | takeRuntime (state : Nat)
  | finished (result : LifecycleResult)
deriving DecidableEq, Repr

def LifecycleCall.isFinished : LifecycleCall → Bool
  | .finished _ => true
  | _ => false

/-- The globals of the FFI layer, the calls in progress, the states on which `shutdown` has run,
and what the calls returned, in the order of their returns. -/
structure Lifecycle where
  network : Option Nat
  runtime : Option Nat
  calls : List LifecycleCall
  shutDown : List Nat
  results : List LifecycleResult
deriving DecidableEq, Repr

namespace Lifecycle

inductive Action
  | initializeNetwork
  | shutdownNetwork
  | proceed (call : Nat)
  | buildFails (call : Nat)
deriving DecidableEq, Repr

def start : Lifecycle := ⟨none, none, [], [], []⟩

def enter (s : Lifecycle) (call : Nat) (stage : LifecycleCall) : Lifecycle :=
  { s with calls := s.calls.set call stage }

def finish (s : Lifecycle) (call : Nat) (result : LifecycleResult) : Lifecycle :=
  { s with calls := s.calls.set call (.finished result), results := s.results ++ [result] }

def proceed (s : Lifecycle) (call : Nat) : LifecycleCall → Option Lifecycle
  | .checkNetwork =>
    if s.network.isSome then some (s.finish call .alreadyInitialized)
    else some (s.enter call .build)
  | .build => some (s.enter call .publishNetwork)
  | .publishNetwork => some ({ s with network := some call }.enter call .publishRuntime)
  | .publishRuntime => some ({ s with runtime := some call }.finish call .initialized)
  | .takeNetwork =>
    match s.network with
    | none => some (s.finish call .notInitialized)
    | some state => some ({ s with network := none }.enter call (.shutdownState state))
  | .shutdownState state =>
    -- Without a runtime the state is dropped as it is.
    let shutDown := if s.runtime.isSome then s.shutDown ++ [state] else s.shutDown
    some ({ s with shutDown }.enter call (.takeRuntime state))
  | .takeRuntime _ => some ({ s with runtime := none }.finish call .shutDown)
  | .finished _ => none

def step (s : Lifecycle) : Action → Option Lifecycle
  | .initializeNetwork => some { s with calls := s.calls ++ [.checkNetwork] }
  | .shutdownNetwork => some { s with calls := s.calls ++ [.takeNetwork] }
  | .proceed call => s.calls[call]?.bind (s.proceed call)
  | .buildFails call =>
    if s.calls[call]? = some .build then some (s.finish call .initializeFailed) else none

/-- A publication finds its global empty, and a shutdown finds the runtime of the state it took. -/
def Undisturbed (s : Lifecycle) : LifecycleCall → Prop
  | .publishNetwork => s.network = none
  | .publishRuntime => s.runtime = none
  | .shutdownState state | .takeRuntime state => s.runtime = some state
  | _ => True

instance (s : Lifecycle) : (stage : LifecycleCall) → Decidable (s.Undisturbed stage)
  | .publishNetwork | .publishRuntime | .shutdownState _ | .takeRuntime _ =>
    inferInstanceAs (Decidable (_ = _))
  | .checkNetwork | .build | .takeNetwork | .finished _ => .isTrue trivial

def Orderly (s : Lifecycle) : Action → Prop
  | .proceed call => ∀ stage ∈ s.calls[call]?, s.Undisturbed stage
  | _ => True

instance (s : Lifecycle) : (a : Action) → Decidable (s.Orderly a)
  | .proceed _ => inferInstanceAs (Decidable (∀ _ ∈ _, _))
  | .initializeNetwork | .shutdownNetwork | .buildFails _ => .isTrue trivial

/-- The state has been stored in `NETWORK`. -/
def Installed (s : Lifecycle) (state : Nat) : Prop :=
  s.calls[state]? = some .publishRuntime ∨ s.calls[state]? = some (.finished .initialized)

/-- A shutdown that has taken the state has still to finish. -/
def Held (s : Lifecycle) (state : Nat) : Prop :=
  .shutdownState state ∈ s.calls ∨ .takeRuntime state ∈ s.calls

def Idle (s : Lifecycle) : Prop := ∀ stage ∈ s.calls, stage.isFinished = true

instance (s : Lifecycle) (state : Nat) : Decidable (s.Installed state) :=
  inferInstanceAs (Decidable (_ ∨ _))

instance (s : Lifecycle) : Decidable s.Idle := inferInstanceAs (Decidable (∀ _ ∈ _, _))

/-- What writing the next stage of a call does to the stages found in the list. -/
structure Written (before : List LifecycleCall) (call : Nat) (old new : LifecycleCall)
    (after : List LifecycleCall) : Prop where
  lookup : ∀ n, after[n]? = if n = call then some new else before[n]?
  mem : ∀ stage ∈ after, stage = new ∨ stage ∈ before
  self : new ∈ after
  keeps : ∀ stage ∈ before, stage ≠ old → stage ∈ after

theorem written_set {calls : List LifecycleCall} {call : Nat} {old : LifecycleCall}
    (h : calls[call]? = some old) (new : LifecycleCall) :
    Written calls call old new (calls.set call new) := by
  obtain ⟨hlt, hold⟩ := List.getElem?_eq_some_iff.mp h
  refine ⟨?_, ?_, List.mem_set hlt new, ?_⟩
  · intro n
    by_cases hn : n = call
    · rw [hn, List.getElem?_set_self hlt, if_pos rfl]
    · rw [List.getElem?_set_ne (Ne.symm hn), if_neg hn]
  · intro stage hstage
    exact (List.mem_or_eq_of_mem_set hstage).symm
  · intro stage hstage hne
    obtain ⟨n, hn, rfl⟩ := List.getElem_of_mem hstage
    have hother : n ≠ call := by
      rintro rfl
      exact hne hold
    exact List.mem_of_getElem? (by rw [List.getElem?_set_ne hother.symm, List.getElem?_eq_getElem hn])

structure Consistent (s : Lifecycle) : Prop where
  running : ∀ n, s.runtime = some n → s.calls[n]? = some (.finished .initialized)
  published : ∀ n, s.network = some n → s.calls[n]? = some .publishRuntime ∨ s.runtime = some n
  kept : ∀ n, s.runtime = some n → s.network = some n ∨ s.Held n
  taken : ∀ n, s.Held n → s.network ≠ some n ∧ s.Installed n
  closed : ∀ n ∈ s.shutDown, s.calls[n]? = some (.finished .initialized)
  retired : ∀ n, s.Installed n →
    s.network = some n ∨ .shutdownState n ∈ s.calls ∨ n ∈ s.shutDown

/-- The stages that the invariant speaks of: those of a call that has set or taken a global. -/
def Marked : LifecycleCall → Bool
  | .publishRuntime | .shutdownState _ | .takeRuntime _ | .finished .initialized => true
  | _ => false

theorem Consistent.quiet {s : Lifecycle} (h : s.Consistent) {calls : List LifecycleCall}
    {results : List LifecycleResult}
    (hmem : ∀ stage, Marked stage = true → (stage ∈ calls ↔ stage ∈ s.calls))
    (hlookup : ∀ stage, Marked stage = true → ∀ n : Nat,
      calls[n]? = some stage ↔ s.calls[n]? = some stage) :
    Consistent { s with calls, results } := by
  have hinit := hlookup (.finished .initialized) rfl
  have hpublish := hlookup .publishRuntime rfl
  have hclose := fun n => hmem (.shutdownState n) rfl
  have hstop := fun n => hmem (.takeRuntime n) rfl
  obtain ⟨hrunning, hpublished, hkept, htaken, hclosed, hretired⟩ := h
  constructor <;> simpa only [Installed, Held, hinit, hpublish, hclose, hstop]

theorem Consistent.quiet_set {s : Lifecycle} (h : s.Consistent) {call : Nat}
    {old new : LifecycleCall} {results : List LifecycleResult} (hcall : s.calls[call]? = some old)
    (hold : Marked old = false) (hnew : Marked new = false) :
    Consistent { s with calls := s.calls.set call new, results } := by
  have hwritten := written_set hcall new
  apply h.quiet
  · intro stage hmarked
    have hne : stage ≠ new ∧ stage ≠ old := by grind
    constructor
    · intro hafter
      exact (hwritten.mem stage hafter).resolve_left hne.1
    · intro hbefore
      exact hwritten.keeps stage hbefore hne.2
  · intro stage hmarked n
    rw [hwritten.lookup]
    grind

theorem Consistent.quiet_concat {s : Lifecycle} (h : s.Consistent) {new : LifecycleCall}
    (hnew : Marked new = false) : Consistent { s with calls := s.calls ++ [new] } := by
  apply h.quiet
  · intro stage hmarked
    simp only [List.mem_append, List.mem_singleton]
    grind
  · intro stage hmarked n
    have hne : new ≠ stage := by
      rintro rfl
      simp [hnew] at hmarked
    rw [List.getElem?_append]
    split
    · rfl
    · next hlen =>
      rw [List.getElem?_eq_none (Nat.le_of_not_lt hlen), List.getElem?_singleton]
      split <;> simp [hne]

theorem Consistent.publishNetwork {s : Lifecycle} (h : s.Consistent) {call : Nat}
    (hcall : s.calls[call]? = some .publishNetwork) (hempty : s.network = none) :
    ({ s with network := some call }.enter call .publishRuntime).Consistent := by
  obtain ⟨hlookup, hmem, _, hkeeps⟩ := written_set hcall .publishRuntime
  obtain ⟨hrunning, hpublished, hkept, htaken, hclosed, hretired⟩ := h
  unfold Held Installed at *
  constructor <;> simp only [enter, Installed, Held] <;> grind

theorem Consistent.publishRuntime {s : Lifecycle} (h : s.Consistent) {call : Nat}
    (hcall : s.calls[call]? = some .publishRuntime) (hempty : s.runtime = none) :
    ({ s with runtime := some call }.finish call .initialized).Consistent := by
  obtain ⟨hlookup, hmem, _, hkeeps⟩ := written_set hcall (.finished .initialized)
  obtain ⟨hrunning, hpublished, hkept, htaken, hclosed, hretired⟩ := h
  unfold Held Installed at *
  constructor <;> simp only [finish, Installed, Held] <;> grind

theorem Consistent.takeNetwork {s : Lifecycle} (h : s.Consistent) {call state : Nat}
    (hcall : s.calls[call]? = some .takeNetwork) (hstate : s.network = some state) :
    ({ s with network := none }.enter call (.shutdownState state)).Consistent := by
  obtain ⟨hlookup, hmem, hself, hkeeps⟩ := written_set hcall (.shutdownState state)
  obtain ⟨hrunning, hpublished, hkept, htaken, hclosed, hretired⟩ := h
  unfold Held Installed at *
  constructor <;> simp only [enter, Installed, Held] <;> grind

theorem Consistent.shutdownState {s : Lifecycle} (h : s.Consistent) {call state : Nat}
    (hcall : s.calls[call]? = some (.shutdownState state)) (hruntime : s.runtime = some state) :
    ({ s with shutDown := s.shutDown ++ [state] }.enter call (.takeRuntime state)).Consistent := by
  obtain ⟨hlookup, hmem, hself, hkeeps⟩ := written_set hcall (.takeRuntime state)
  obtain ⟨hrunning, hpublished, hkept, htaken, hclosed, hretired⟩ := h
  unfold Held Installed at *
  constructor <;> simp only [enter, Installed, Held] <;> grind

theorem Consistent.takeRuntime {s : Lifecycle} (h : s.Consistent) {call state : Nat}
    (hcall : s.calls[call]? = some (.takeRuntime state)) (hruntime : s.runtime = some state) :
    ({ s with runtime := none }.finish call .shutDown).Consistent := by
  have hheld := h.taken state (.inr (List.mem_of_getElem? hcall))
  obtain ⟨hlookup, hmem, _, hkeeps⟩ := written_set hcall (.finished .shutDown)
  obtain ⟨hrunning, hpublished, hkept, htaken, hclosed, hretired⟩ := h
  unfold Held Installed at *
  constructor <;> simp only [finish, Installed, Held] <;> grind

/-- A successful initialisation that no successful shutdown follows. -/
def Unmatched (results : List LifecycleResult) : Prop :=
  ∃ front mid, results = front ++ .initialized :: mid ∧ .shutDown ∉ mid

/-- Between two successful initialisations there is a successful shutdown. -/
def Alternating (results : List LifecycleResult) : Prop :=
  ∀ front mid back, results = front ++ .initialized :: (mid ++ .initialized :: back) →
    .shutDown ∈ mid

theorem eq_concat_of_concat_eq {results front mid : List LifecycleResult} {result : LifecycleResult}
    (h : results ++ [result] = front ++ .initialized :: mid) :
    (mid = [] ∧ result = .initialized ∧ results = front) ∨
      ∃ rest, mid = rest ++ [result] ∧ results = front ++ .initialized :: rest := by
  cases mid using List.reverseRecOn with
  | nil =>
    obtain ⟨rfl, hlast⟩ := List.append_inj' h rfl
    exact .inl ⟨rfl, by simpa using hlast, rfl⟩
  | append_singleton rest last =>
    have hsplit : results ++ [result] = (front ++ .initialized :: rest) ++ [last] := by
      rw [h]
      simp
    obtain ⟨rfl, hlast⟩ := List.append_inj' hsplit rfl
    obtain rfl : result = last := by simpa using hlast
    exact .inr ⟨rest, rfl, rfl⟩

theorem unmatched_of_concat {results : List LifecycleResult} {result : LifecycleResult}
    (h : Unmatched (results ++ [result])) (hresult : result ≠ .initialized) :
    Unmatched results ∧ result ≠ .shutDown := by
  obtain ⟨front, mid, heq, hmid⟩ := h
  obtain ⟨_, hinit, _⟩ | ⟨rest, rfl, hrest⟩ := eq_concat_of_concat_eq heq
  · exact absurd hinit hresult
  · refine ⟨⟨front, rest, hrest, fun hin => hmid (List.mem_append_left _ hin)⟩, ?_⟩
    rintro rfl
    exact hmid (by simp)

theorem Alternating.concat {results : List LifecycleResult} (h : Alternating results)
    {result : LifecycleResult} (hresult : result = .initialized → ¬ Unmatched results) :
    Alternating (results ++ [result]) := by
  intro front mid back heq
  have hsplit : results ++ [result] = (front ++ .initialized :: mid) ++ .initialized :: back := by
    rw [heq]
    simp
  obtain ⟨rfl, hinit, hfront⟩ | ⟨rest, rfl, hrest⟩ := eq_concat_of_concat_eq hsplit
  · by_contra hno
    exact hresult hinit ⟨front, mid, hfront, hno⟩
  · exact h front mid rest (by rw [hrest]; simp)

structure Sound (s : Lifecycle) : Prop extends s.Consistent where
  alternating : Alternating s.results
  matched : Unmatched s.results → s.runtime.isSome = true

/-- A call that returns neither success leaves the order of the successes as it is. -/
theorem Sound.finish_quiet {s : Lifecycle} (h : s.Sound) {call : Nat} {old : LifecycleCall}
    {result : LifecycleResult} (hcall : s.calls[call]? = some old) (hold : Marked old = false)
    (hinit : result ≠ .initialized) : (s.finish call result).Sound where
  toConsistent := h.quiet_set hcall hold (by cases result <;> simp_all [Marked])
  alternating := h.alternating.concat fun heq => absurd heq hinit
  matched hopen := h.matched (unmatched_of_concat hopen hinit).1

theorem Sound.proceed {s t : Lifecycle} (h : s.Sound) {call : Nat} {stage : LifecycleCall}
    (hcall : s.calls[call]? = some stage) (hstage : s.Undisturbed stage)
    (ht : s.proceed call stage = some t) : t.Sound := by
  cases stage with
  | checkNetwork =>
    simp only [Lifecycle.proceed] at ht
    split_ifs at ht
    · obtain rfl := Option.some.inj ht
      exact h.finish_quiet hcall rfl nofun
    · obtain rfl := Option.some.inj ht
      exact ⟨h.quiet_set hcall rfl rfl, h.alternating, h.matched⟩
  | build =>
    obtain rfl := Option.some.inj ht
    exact ⟨h.quiet_set hcall rfl rfl, h.alternating, h.matched⟩
  | publishNetwork =>
    obtain rfl := Option.some.inj ht
    exact ⟨h.publishNetwork hcall hstage, h.alternating, h.matched⟩
  | publishRuntime =>
    obtain rfl := Option.some.inj ht
    refine ⟨h.publishRuntime hcall hstage, h.alternating.concat ?_, fun _ => rfl⟩
    intro _ hopen
    have hsome := h.matched hopen
    rw [show s.runtime = none from hstage] at hsome
    exact absurd hsome nofun
  | takeNetwork =>
    cases hnetwork : s.network with
    | none =>
      simp only [Lifecycle.proceed, hnetwork] at ht
      obtain rfl := Option.some.inj ht
      exact h.finish_quiet hcall rfl nofun
    | some state =>
      simp only [Lifecycle.proceed, hnetwork] at ht
      obtain rfl := Option.some.inj ht
      exact ⟨h.takeNetwork hcall hnetwork, h.alternating, h.matched⟩
  | shutdownState state =>
    have hruntime : s.runtime = some state := hstage
    simp only [Lifecycle.proceed, hruntime, Option.isSome_some, if_true] at ht
    obtain rfl := Option.some.inj ht
    refine ⟨?_, h.alternating, fun _ => rfl⟩
    have hnext := h.shutdownState hcall hruntime
    simpa only [hruntime] using hnext
  | takeRuntime state =>
    obtain rfl := Option.some.inj ht
    refine ⟨h.takeRuntime hcall hstage, h.alternating.concat nofun, ?_⟩
    intro hopen
    exact absurd rfl (unmatched_of_concat hopen nofun).2
  | finished result => exact absurd ht nofun

theorem Sound.step {s t : Lifecycle} {a : Action} (h : s.Sound) (ha : s.Orderly a)
    (ht : s.step a = some t) : t.Sound := by
  cases a with
  | initializeNetwork =>
    obtain rfl := Option.some.inj ht
    exact ⟨h.quiet_concat rfl, h.alternating, h.matched⟩
  | shutdownNetwork =>
    obtain rfl := Option.some.inj ht
    exact ⟨h.quiet_concat rfl, h.alternating, h.matched⟩
  | proceed call =>
    obtain ⟨stage, hcall, ht⟩ := Option.bind_eq_some_iff.mp ht
    exact h.proceed hcall (ha stage hcall) ht
  | buildFails call =>
    simp only [Lifecycle.step] at ht
    split_ifs at ht with hcall
    obtain rfl := Option.some.inj ht
    exact h.finish_quiet hcall rfl nofun

theorem sound_start : start.Sound := by
  refine ⟨⟨nofun, nofun, nofun, ?_, nofun, ?_⟩, ?_, ?_⟩
  · rintro n (hclose | hstop)
    · exact absurd hclose (by simp [start])
    · exact absurd hstop (by simp [start])
  · rintro n (hpublish | hinit)
    · exact absurd hpublish (by simp [start])
    · exact absurd hinit (by simp [start])
  · intro front mid back heq
    simp [start] at heq
  · rintro ⟨front, mid, heq, _⟩
    simp [start] at heq

theorem Consistent.network_isSome_of_idle {s : Lifecycle} (h : s.Consistent) (hidle : s.Idle) :
    s.network.isSome = true ↔ s.runtime.isSome = true := by
  constructor
  · rintro hsome
    obtain ⟨n, hn⟩ := Option.isSome_iff_exists.mp hsome
    cases h.published n hn with
    | inl hcall => exact absurd (hidle _ (List.mem_of_getElem? hcall)) nofun
    | inr hruntime => exact Option.isSome_iff_exists.mpr ⟨n, hruntime⟩
  · rintro hsome
    obtain ⟨n, hn⟩ := Option.isSome_iff_exists.mp hsome
    obtain hnetwork | hclose | hstop := h.kept n hn
    · exact Option.isSome_iff_exists.mpr ⟨n, hnetwork⟩
    · exact absurd (hidle _ hclose) nofun
    · exact absurd (hidle _ hstop) nofun

theorem results_of_proceed {s t : Lifecycle} {call : Nat} {stage : LifecycleCall}
    (ht : s.proceed call stage = some t) :
    t.results = s.results ∨ ∃ result, t.results = s.results ++ [result] ∧ result ≠ .initializeFailed := by
  cases stage with
  | checkNetwork =>
    simp only [Lifecycle.proceed] at ht
    split_ifs at ht
    · obtain rfl := Option.some.inj ht
      exact .inr ⟨_, rfl, nofun⟩
    · obtain rfl := Option.some.inj ht
      exact .inl rfl
  | build | publishNetwork | shutdownState =>
    obtain rfl := Option.some.inj ht
    exact .inl rfl
  | publishRuntime | takeRuntime =>
    obtain rfl := Option.some.inj ht
    exact .inr ⟨_, rfl, nofun⟩
  | takeNetwork =>
    cases hnetwork : s.network with
    | none =>
      simp only [Lifecycle.proceed, hnetwork] at ht
      obtain rfl := Option.some.inj ht
      exact .inr ⟨_, rfl, nofun⟩
    | some state =>
      simp only [Lifecycle.proceed, hnetwork] at ht
      obtain rfl := Option.some.inj ht
      exact .inl rfl
  | finished result => exact absurd ht nofun

theorem initializeFailed_notMem_results {acts : List Action} {t : Lifecycle}
    (hacts : ∀ call, .buildFails call ∉ acts) (hrun : run step start acts = some t) :
    .initializeFailed ∉ t.results := by
  induction acts using List.reverseRecOn generalizing t with
  | nil =>
    obtain rfl := Option.some.inj hrun
    exact nofun
  | append_singleton front a ih =>
    obtain ⟨m, hm, ht⟩ := run_concat_iff.mp hrun
    have hbefore := ih (fun call hin => hacts call (List.mem_append_left _ hin)) hm
    cases a with
    | initializeNetwork | shutdownNetwork =>
      obtain rfl := Option.some.inj ht
      exact hbefore
    | proceed call =>
      obtain ⟨stage, _, ht⟩ := Option.bind_eq_some_iff.mp ht
      obtain hsame | ⟨result, hnew, hresult⟩ := results_of_proceed ht
      · exact hsame ▸ hbefore
      · simp [hnew, hbefore, hresult.symm]
    | buildFails call => exact absurd (List.mem_append_right front List.mem_cons_self) (hacts call)

/-- Any number of concurrent calls, when publications find their globals empty and shutdowns find
the runtime of the state they took: between two successful initialisations there is a successful
shutdown, and the others return `AlreadyInitialized` unless their build failed; a state that was
installed is in `NETWORK`, held by a shutdown about to run, or has been shut down; and when no call
is in progress, `NETWORK` and `RUNTIME` agree. -/
theorem single_initialisation {acts : List Action} {t : Lifecycle}
    (horderly : Along step Orderly start acts) (hrun : run step start acts = some t) :
    Alternating t.results ∧
      ((∀ call, .buildFails call ∉ acts) → .initializeFailed ∉ t.results) ∧
      (∀ state, t.Installed state →
        t.network = some state ∨ .shutdownState state ∈ t.calls ∨ state ∈ t.shutDown) ∧
      (t.Idle → (t.network.isSome = true ↔ t.runtime.isSome = true)) := by
  have hsound : t.Sound := invariant (fun _ _ _ h ha ht => h.step ha ht) sound_start horderly hrun
  exact ⟨hsound.alternating, fun hacts => initializeFailed_notMem_results hacts hrun,
    hsound.retired, hsound.network_isSome_of_idle⟩

/-- The second initialisation checks after the shutdown has taken the state, and publishes its
runtime after the shutdown has taken the old one. -/
theorem initialised_again_after_shutdown :
    let acts := [Action.initializeNetwork, .proceed 0, .proceed 0, .proceed 0, .proceed 0,
      .shutdownNetwork, .proceed 1, .initializeNetwork, .proceed 2, .proceed 2, .proceed 2,
      .proceed 1, .proceed 1, .proceed 2]
    ∃ t, run step start acts = some t ∧ t.results = [.initialized, .shutDown, .initialized] ∧
      Alternating t.results ∧ 0 ∈ t.shutDown := by
  intro acts
  have hsome : (run step start acts).isSome = true := by decide
  obtain ⟨t, hrun⟩ := Option.isSome_iff_exists.mp hsome
  have hcheck : ∀ t ∈ run step start acts, t.results = [.initialized, .shutDown, .initialized] ∧
      t.Installed 0 ∧ t.network ≠ some 0 ∧ .shutdownState 0 ∉ t.calls := by decide
  obtain ⟨hresults, hinstalled, hnetwork, hheld⟩ := hcheck t hrun
  obtain ⟨halternating, _, hretired, _⟩ :=
    single_initialisation (by decide : Along step Orderly start acts) hrun
  exact ⟨t, hrun, hresults, halternating,
    ((hretired 0 hinstalled).resolve_left hnetwork).resolve_left hheld⟩

/-- Two threads initialise: both find `NETWORK` empty, both succeed, and the first state is
replaced without having been shut down. A shutdown between the two publications of an
initialisation leaves a runtime without a state. -/
theorem initialised_twice :
    (∃ t ∈ run step start [.initializeNetwork, .initializeNetwork, .proceed 0, .proceed 1,
        .proceed 0, .proceed 1, .proceed 0, .proceed 0, .proceed 1, .proceed 1],
      ¬ Alternating t.results ∧ t.Installed 0 ∧ t.network = some 1 ∧ t.shutDown = []) ∧
    ∃ t ∈ run step start [.initializeNetwork, .proceed 0, .proceed 0, .proceed 0, .shutdownNetwork,
        .proceed 1, .proceed 1, .proceed 1, .proceed 0],
      t.Idle ∧ t.network.isSome = false ∧ t.runtime.isSome = true := by
  refine ⟨?_, by decide⟩
  refine ⟨⟨some 1, some 1, [.finished .initialized, .finished .initialized], [],
    [.initialized, .initialized]⟩, by decide, ?_, by decide, rfl, rfl⟩
  intro h
  exact absurd (h [] [] [] rfl) nofun

end Lifecycle

end MetaMystia

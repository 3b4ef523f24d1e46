import MetaMystia.Config
import MetaMystia.Library.Runs
import Mathlib.Tactic.Ring

/-! # The loop of a reconnect task

`spawn_reconnect` sleeps, looks at the flag for automatic reconnects and calls
`connect_to`, until an attempt succeeds, the retries are exhausted, the flag is off
or the transport shuts down. The flag, the shutdown and the entry of the peer are
changed by others at any moment.
-/

namespace MetaMystia

open Runs

/-- What ended the task. -/
inductive ReconnectEnd
  | shutdown
  | disabled
  | reconnected
  | exhausted
deriving DecidableEq

inductive ReconnectPhase
  | sleeping
  | checking
  | connecting
  | finished (reason : ReconnectEnd)
deriving DecidableEq

structure ReconnectEvent where
  status : UInt8
  /-- The peer had an entry and automatic reconnects were on when the event was sent. -/
  peerIsBack : Bool
deriving DecidableEq

abbrev ConnectResult := Except NetworkError PeerId

/-- `connected` tells whether the peer has an entry in the connection map. `slept` holds the delays
of the sleeps that are over, `results` what the attempts returned and whether the peer had an entry
then, `events` what was put into `reconnect_event_tx`. -/
structure ReconnectTask where
  delayMs : UInt32
  attempts : UInt8
  phase : ReconnectPhase
  shutdownCancelled : Bool
  autoReconnectEnabled : Bool
  connected : Bool
  slept : List UInt32
  results : List (ConnectResult × Bool)
  events : List ReconnectEvent

/-- `u32::saturating_mul`. -/
def saturatingMul (a b : UInt32) : UInt32 := UInt32.ofNat (min (a.toNat * b.toNat) (2 ^ 32 - 1))

/-- `u8::saturating_add(1)`. -/
def saturatingSucc (a : UInt8) : UInt8 := if a = 255 then a else a + 1

namespace ReconnectTask

inductive Action
  | sleepElapsed
  | checkAutoReconnect
  | connectReturns (result : ConnectResult)
  | cancelled
  | cancelShutdownToken
  | setAutoReconnect (enabled : Bool)
  | setConnected (connected : Bool)

def start (config : NetworkConfig) (autoReconnectEnabled connected : Bool) : ReconnectTask where
  delayMs := config.reconnectInitialMs.toUInt32
  attempts := 0
  phase := .sleeping
  shutdownCancelled := false
  autoReconnectEnabled
  connected
  slept := []
  results := []
  events := []

def finish (s : ReconnectTask) (reason : ReconnectEnd) (status : UInt8) : ReconnectTask :=
  { s with
    phase := .finished reason
    events := s.events ++ [⟨status, s.connected && s.autoReconnectEnabled⟩] }

/-- An attempt has returned. -/
def attempt (config : NetworkConfig) (s : ReconnectTask) : ConnectResult → ReconnectTask
  | .ok _ => s.finish .reconnected 1
  | .error _ =>
    let s := { s with attempts := saturatingSucc s.attempts }
    if config.reconnectMaxRetries > 0 ∧ s.attempts ≥ config.reconnectMaxRetries then
      s.finish .exhausted 2
    else { s with phase := .sleeping, delayMs := min (saturatingMul s.delayMs 2) config.reconnectMaxMs }

def step (config : NetworkConfig) (s : ReconnectTask) : Action → Option ReconnectTask
  | .sleepElapsed =>
    if s.phase = .sleeping then some { s with phase := .checking, slept := s.slept ++ [s.delayMs] }
    else none
  | .checkAutoReconnect =>
    if s.phase = .checking then
      some (if s.autoReconnectEnabled then { s with phase := .connecting } else s.finish .disabled 2)
    else none
  | .connectReturns result =>
    if s.phase = .connecting then
      some ({ s with results := s.results ++ [(result, s.connected)] }.attempt config result)
    else none
  | .cancelled =>
    -- The selects around the sleep and around `connect_to` wait for the token, the check does not.
    if s.shutdownCancelled ∧ (s.phase = .sleeping ∨ s.phase = .connecting) then
      some { s with phase := .finished .shutdown }
    else none
  | .cancelShutdownToken => some { s with shutdownCancelled := true }
  | .setAutoReconnect enabled => some { s with autoReconnectEnabled := enabled }
  | .setConnected connected => some { s with connected }

/-- The delay before attempt `k`. -/
def backoff (config : NetworkConfig) (k : Nat) : Nat :=
  min (config.reconnectInitialMs.toNat * 2 ^ k) config.reconnectMaxMs.toNat

end ReconnectTask

/-- The status that the end of the task is announced with. -/
def ReconnectPhase.announced : ReconnectPhase → Option UInt8
  | .finished .reconnected => some 1
  | .finished .exhausted | .finished .disabled => some 2
  | _ => none

def ReconnectPhase.isFinished : ReconnectPhase → Bool
  | .finished _ => true
  | _ => false

namespace ReconnectTask

def Failed (attempt : ConnectResult × Bool) : Prop := attempt.1.isOk = false

/-- What the task has done so far. -/
structure Accounted (config : NetworkConfig) (t : ReconnectTask) : Prop where
  delays : ∀ k ms, t.slept[k]? = some ms → ms.toNat = backoff config k
  asleep : t.phase = .sleeping → t.slept.length = t.results.length
  awake : t.phase = .checking ∨ t.phase = .connecting → t.slept.length = t.results.length + 1
  announced : t.events.map (·.status) = t.phase.announced.toList
  failed : t.phase ≠ .finished .reconnected → ∀ attempt ∈ t.results, Failed attempt
  reconnected : t.phase = .finished .reconnected → ∃ failures peerId connected,
    t.results = failures ++ [(.ok peerId, connected)] ∧ ∀ attempt ∈ failures, Failed attempt
  exhausted : t.phase = .finished .exhausted →
    0 < config.reconnectMaxRetries ∧ t.results.length = config.reconnectMaxRetries.toNat
  persists : t.phase.isFinished = false → 0 < config.reconnectMaxRetries →
    t.results.length < config.reconnectMaxRetries.toNat
  shutdown : t.phase = .finished .shutdown → t.shutdownCancelled = true

/-- The counters of a task that has not finished, whose attempts have all failed. -/
structure Counting (config : NetworkConfig) (t : ReconnectTask) : Prop where
  delay : t.phase.isFinished = false → t.delayMs.toNat = backoff config t.results.length
  counter : t.phase.isFinished = false → t.attempts.toNat = min t.results.length 255

theorem toNat_min (a b : UInt32) : (min a b).toNat = min a.toNat b.toNat := by
  have hmin : min a b = if a ≤ b then a else b := rfl
  rw [hmin]
  split_ifs with h
  · rw [Nat.min_eq_left (UInt32.le_iff_toNat_le.mp h)]
  · rw [UInt32.le_iff_toNat_le] at h
    omega

theorem saturatingMul_toNat (a b : UInt32) :
    (saturatingMul a b).toNat = min (a.toNat * b.toNat) (2 ^ 32 - 1) := by
  rw [saturatingMul, UInt32.toNat_ofNat']
  omega

/-- Doubling in saturating arithmetic keeps to the unbounded sequence, which the maximum cuts off. -/
theorem backoff_succ {config : NetworkConfig} {delayMs : UInt32} {k : Nat}
    (h : delayMs.toNat = backoff config k) :
    (min (saturatingMul delayMs 2) config.reconnectMaxMs).toNat = backoff config (k + 1) := by
  have hmax := config.reconnectMaxMs.toNat_lt
  have hdouble : config.reconnectInitialMs.toNat * 2 ^ (k + 1) =
      2 * (config.reconnectInitialMs.toNat * 2 ^ k) := by ring
  rw [toNat_min, saturatingMul_toNat, h]
  unfold backoff
  rw [hdouble]
  simp only [UInt32.reduceToNat]
  omega

theorem saturatingSucc_toNat (a : UInt8) : (saturatingSucc a).toNat = min (a.toNat + 1) 255 := by
  have ha := a.toNat_lt
  unfold saturatingSucc
  split_ifs with h
  · subst h
    rfl
  · have hne : a.toNat ≠ 255 := fun heq => h (UInt8.toNat_inj.mp heq)
    rw [UInt8.toNat_add]
    simp only [UInt8.reduceToNat]
    omega

theorem failed_concat {results : List (ConnectResult × Bool)} {e : NetworkError} {connected : Bool}
    (h : ∀ attempt ∈ results, Failed attempt) :
    ∀ attempt ∈ results ++ [(.error e, connected)], Failed attempt := by
  simp only [List.forall_mem_append, List.forall_mem_singleton]
  exact ⟨h, rfl⟩

/-- A failed attempt is the last one exactly when the failures have reached the limit. -/
theorem attempt_error_cases (config : NetworkConfig) (s : ReconnectTask) (e : NetworkError) {n : Nat}
    (hcounter : s.attempts.toNat = min n 255) :
    (0 < config.reconnectMaxRetries ∧ config.reconnectMaxRetries.toNat ≤ n + 1 ∧
      s.attempt config (.error e) = { s with attempts := saturatingSucc s.attempts }.finish .exhausted 2) ∨
    ((0 < config.reconnectMaxRetries → n + 1 < config.reconnectMaxRetries.toNat) ∧
      s.attempt config (.error e) = { s with
        attempts := saturatingSucc s.attempts
        phase := .sleeping
        delayMs := min (saturatingMul s.delayMs 2) config.reconnectMaxMs }) := by
  have hmax := config.reconnectMaxRetries.toNat_lt
  have hcount : (saturatingSucc s.attempts).toNat = min (n + 1) 255 := by
    rw [saturatingSucc_toNat, hcounter]
    omega
  by_cases h : config.reconnectMaxRetries > 0 ∧ saturatingSucc s.attempts ≥ config.reconnectMaxRetries
  · have hreached := UInt8.le_iff_toNat_le.mp h.2
    exact .inl ⟨h.1, by omega, if_pos h⟩
  · refine .inr ⟨?_, if_neg h⟩
    intro hlimited
    have hbelow := UInt8.lt_iff_toNat_lt.mp (UInt8.not_le.mp fun hle => h ⟨hlimited, hle⟩)
    omega

variable {config : NetworkConfig} {s t : ReconnectTask}

theorem Accounted.connectReturns {result : ConnectResult} (h : s.Accounted config)
    (hc : s.Counting config) (hphase : s.phase = .connecting) :
    let t := { s with results := s.results ++ [(result, s.connected)] }.attempt config result
    t.Accounted config ∧ t.Counting config := by
  have hfailed := h.failed (by simp [hphase])
  have hslept := h.awake (.inr hphase)
  have hevents : s.events.map (·.status) = [] := by
    rw [h.announced, hphase]
    rfl
  cases result with
  | ok peerId =>
    constructor
    · exact ⟨h.delays, nofun, by simp [attempt, finish], by simp [attempt, finish, hevents, ReconnectPhase.announced],
        fun hne => absurd rfl hne, fun _ => ⟨s.results, peerId, s.connected, rfl, hfailed⟩, nofun, nofun, nofun⟩
    · exact ⟨nofun, nofun⟩
  | error e =>
    have hunfinished : s.phase.isFinished = false := by rw [hphase]; rfl
    have hpersists := h.persists hunfinished
    have hcounter := hc.counter hunfinished
    have hall : ∀ attempt ∈ s.results ++ [(.error e, s.connected)], Failed attempt :=
      failed_concat hfailed
    have hlength : (s.results ++ [((.error e, s.connected) : ConnectResult × Bool)]).length =
        s.results.length + 1 := by simp
    obtain ⟨hlimited, hreached, heq⟩ | ⟨hbelow, heq⟩ := attempt_error_cases config
      { s with results := s.results ++ [(.error e, s.connected)] } e hcounter
    · have hcount := hpersists hlimited
      have hexact : s.results.length + 1 = config.reconnectMaxRetries.toNat := by omega
      rw [heq]
      constructor
      · exact ⟨h.delays, nofun, by simp [finish], by simp [finish, hevents, ReconnectPhase.announced],
          fun _ => hall, nofun, fun _ => ⟨hlimited, hlength.trans hexact⟩, nofun, nofun⟩
      · exact ⟨nofun, nofun⟩
    · rw [heq]
      constructor
      · exact ⟨h.delays, fun _ => hslept.trans hlength.symm, by simp,
          by simp [hevents, ReconnectPhase.announced], fun _ => hall, nofun, nofun,
          fun _ hlimited => hlength.trans_lt (hbelow hlimited), nofun⟩
      · constructor
        · intro _
          rw [hlength]
          exact backoff_succ (hc.delay hunfinished)
        · intro _
          rw [hlength, saturatingSucc_toNat, hcounter]
          omega

theorem Accounted.sleepElapsed (h : s.Accounted config) (hc : s.Counting config)
    (hphase : s.phase = .sleeping) :
    ({ s with phase := .checking, slept := s.slept ++ [s.delayMs] }).Accounted config := by
  have hslept := h.asleep hphase
  have hdelay := hc.delay (by rw [hphase]; rfl)
  refine ⟨?_, nofun, ?_, ?_, ?_, nofun, nofun, ?_, nofun⟩
  · intro k ms hk
    cases lt_or_ge k s.slept.length with
    | inl hold =>
      rw [List.getElem?_append_left hold] at hk
      exact h.delays k ms hk
    | inr hnew =>
      have hlt := (List.getElem?_eq_some_iff.mp hk).1
      simp only [List.length_append, List.length_singleton] at hlt
      obtain rfl : k = s.slept.length := by omega
      obtain rfl : s.delayMs = ms := by simpa using hk
      rw [hdelay, hslept]
  · simp [hslept]
  · simpa [ReconnectPhase.announced, hphase] using h.announced
  · exact fun _ => h.failed (by simp [hphase])
  · exact fun _ => h.persists (by rw [hphase]; rfl)

theorem Accounted.checkAutoReconnect (h : s.Accounted config) (hphase : s.phase = .checking) :
    (if s.autoReconnectEnabled then { s with phase := .connecting } else s.finish .disabled 2).Accounted
      config := by
  have hslept := h.awake (.inl hphase)
  have hevents : s.events.map (·.status) = [] := by
    rw [h.announced, hphase]
    rfl
  have hfailed := h.failed (by simp [hphase])
  split_ifs
  · exact ⟨h.delays, nofun, fun _ => hslept, by simp [hevents, ReconnectPhase.announced], fun _ => hfailed,
      nofun, nofun, fun _ => h.persists (by rw [hphase]; rfl), nofun⟩
  · exact ⟨h.delays, nofun, by simp [finish], by simp [finish, hevents, ReconnectPhase.announced],
      fun _ => hfailed, nofun, nofun, nofun, nofun⟩

theorem Accounted.cancelled (h : s.Accounted config) (hshutdown : s.shutdownCancelled = true)
    (hphase : s.phase = .sleeping ∨ s.phase = .connecting) :
    ({ s with phase := .finished .shutdown }).Accounted config := by
  have hunfinished : s.phase.announced = none ∧ s.phase ≠ .finished .reconnected := by
    cases hphase with
    | inl hsleeping => simp [hsleeping, ReconnectPhase.announced]
    | inr hconnecting => simp [hconnecting, ReconnectPhase.announced]
  have hevents : s.events.map (·.status) = [] := by
    rw [h.announced, hunfinished.1]
    rfl
  exact ⟨h.delays, nofun, by simp, by simp [hevents, ReconnectPhase.announced],
    fun _ => h.failed hunfinished.2, nofun, nofun, nofun, fun _ => hshutdown⟩

theorem Accounted.step {a : Action} (h : s.Accounted config) (hc : s.Counting config)
    (hstep : s.step config a = some t) : t.Accounted config ∧ t.Counting config := by
  cases a with
  | sleepElapsed =>
    simp only [ReconnectTask.step, Option.ite_none_right_eq_some, Option.some.injEq] at hstep
    obtain ⟨hphase, rfl⟩ := hstep
    have hunfinished : s.phase.isFinished = false := by rw [hphase]; rfl
    exact ⟨h.sleepElapsed hc hphase, fun _ => hc.delay hunfinished, fun _ => hc.counter hunfinished⟩
  | checkAutoReconnect =>
    simp only [ReconnectTask.step, Option.ite_none_right_eq_some, Option.some.injEq] at hstep
    obtain ⟨hphase, rfl⟩ := hstep
    have hunfinished : s.phase.isFinished = false := by rw [hphase]; rfl
    refine ⟨h.checkAutoReconnect hphase, ?_⟩
    split_ifs
    · exact ⟨fun _ => hc.delay hunfinished, fun _ => hc.counter hunfinished⟩
    · exact ⟨nofun, nofun⟩
  | connectReturns result =>
    simp only [ReconnectTask.step, Option.ite_none_right_eq_some, Option.some.injEq] at hstep
    obtain ⟨hphase, rfl⟩ := hstep
    exact h.connectReturns hc hphase
  | cancelled =>
    simp only [ReconnectTask.step, Option.ite_none_right_eq_some, Option.some.injEq] at hstep
    obtain ⟨⟨hshutdown, hphase⟩, rfl⟩ := hstep
    exact ⟨h.cancelled hshutdown hphase, nofun, nofun⟩
  | cancelShutdownToken =>
    obtain rfl := Option.some.inj hstep
    exact ⟨{ h with shutdown := fun _ => rfl }, { hc with }⟩
  | setAutoReconnect enabled | setConnected connected =>
    obtain rfl := Option.some.inj hstep
    exact ⟨{ h with }, { hc with }⟩

theorem accounted_start (hvalid : config.validate = .ok ()) (autoReconnectEnabled connected : Bool) :
    (start config autoReconnectEnabled connected).Accounted config ∧
      (start config autoReconnectEnabled connected).Counting config := by
  have hinitial := NetworkConfig.initial_le_max_of_validate hvalid
  constructor
  · refine ⟨by simp [start], fun _ => rfl, by simp [start], rfl, by simp [start], nofun, nofun, ?_, nofun⟩
    exact fun _ hlimited => UInt8.lt_iff_toNat_lt.mp hlimited
  · constructor
    · intro _
      simp only [start, backoff, UInt16.toNat_toUInt32, List.length_nil, pow_zero, mul_one]
      omega
    · exact fun _ => rfl

/-- Automatic reconnects stay on, nothing shuts down and every attempt fails. -/
def Action.Steady : Action → Prop
  | .setAutoReconnect enabled => enabled = true
  | .cancelShutdownToken => False
  | .connectReturns result => result.isOk = false
  | _ => True

/-- The task finds automatic reconnects off when it has slept. -/
def FindsDisabled (s : ReconnectTask) : Action → Prop
  | .checkAutoReconnect => s.autoReconnectEnabled = false
  | _ => False

/-- The task makes as many attempts as it may, and can always go on before that. -/
structure KeepsTrying (config : NetworkConfig) (t : ReconnectTask) : Prop where
  limited : 0 < config.reconnectMaxRetries → t.results.length ≤ config.reconnectMaxRetries.toNat ∧
    (t.phase.isFinished = true ↔ t.results.length = config.reconnectMaxRetries.toNat)
  unlimited : config.reconnectMaxRetries = 0 → t.phase.isFinished = false
  progress : t.phase.isFinished = false → ∃ a next, a.Steady ∧ t.step config a = some next ∧
    next.phase ≠ t.phase

theorem disabled_step_iff {a : Action} (hstep : s.step config a = some t) :
    t.phase = .finished .disabled ↔ s.phase = .finished .disabled ∨ s.FindsDisabled a := by
  cases a with
  | sleepElapsed =>
    simp only [ReconnectTask.step, Option.ite_none_right_eq_some, Option.some.injEq] at hstep
    obtain ⟨hphase, rfl⟩ := hstep
    simp [hphase, FindsDisabled]
  | checkAutoReconnect =>
    simp only [ReconnectTask.step, Option.ite_none_right_eq_some, Option.some.injEq] at hstep
    obtain ⟨hphase, rfl⟩ := hstep
    split_ifs with henabled <;> simp [hphase, FindsDisabled, finish, henabled]
  | connectReturns result =>
    simp only [ReconnectTask.step, Option.ite_none_right_eq_some, Option.some.injEq] at hstep
    obtain ⟨hphase, rfl⟩ := hstep
    cases result with
    | ok peerId => simp [hphase, FindsDisabled, attempt, finish]
    | error e =>
      simp only [attempt]
      split_ifs <;> simp [hphase, FindsDisabled, finish]
  | cancelled =>
    simp only [ReconnectTask.step, Option.ite_none_right_eq_some, Option.some.injEq] at hstep
    obtain ⟨⟨_, hphase | hphase⟩, rfl⟩ := hstep <;> simp [hphase, FindsDisabled]
  | cancelShutdownToken | setAutoReconnect enabled | setConnected connected =>
    obtain rfl := Option.some.inj hstep
    simp [FindsDisabled]

/-- What a run in which nothing but failures happens keeps. -/
structure Undisturbed (t : ReconnectTask) : Prop where
  enabled : t.autoReconnectEnabled = true
  running : t.shutdownCancelled = false
  ending : ∀ reason, t.phase = .finished reason → reason = .exhausted

theorem Undisturbed.step {a : Action} (h : s.Undisturbed) (ha : a.Steady)
    (hstep : s.step config a = some t) : t.Undisturbed := by
  cases a with
  | sleepElapsed =>
    simp only [ReconnectTask.step, Option.ite_none_right_eq_some, Option.some.injEq] at hstep
    obtain ⟨_, rfl⟩ := hstep
    exact ⟨h.enabled, h.running, nofun⟩
  | checkAutoReconnect =>
    simp only [ReconnectTask.step, Option.ite_none_right_eq_some, Option.some.injEq, if_pos h.enabled]
      at hstep
    obtain ⟨_, rfl⟩ := hstep
    exact ⟨h.enabled, h.running, nofun⟩
  | connectReturns result =>
    simp only [ReconnectTask.step, Option.ite_none_right_eq_some, Option.some.injEq] at hstep
    obtain ⟨_, rfl⟩ := hstep
    cases result with
    | ok peerId => cases ha
    | error e =>
      simp only [attempt]
      split_ifs
      · exact ⟨h.enabled, h.running, fun _ hreason => (ReconnectPhase.finished.inj hreason).symm⟩
      · exact ⟨h.enabled, h.running, nofun⟩
  | cancelled =>
    simp only [ReconnectTask.step, Option.ite_none_right_eq_some, Option.some.injEq, h.running] at hstep
    exact absurd hstep.1.1 nofun
  | cancelShutdownToken => exact absurd ha id
  | setAutoReconnect enabled =>
    obtain rfl := Option.some.inj hstep
    exact ⟨ha, h.running, h.ending⟩
  | setConnected connected =>
    obtain rfl := Option.some.inj hstep
    exact ⟨h.enabled, h.running, h.ending⟩

theorem Undisturbed.keepsTrying (h : t.Undisturbed) (ha : t.Accounted config) :
    t.KeepsTrying config := by
  constructor
  · intro hlimited
    cases hphase : t.phase with
    | finished reason =>
      obtain rfl := h.ending reason hphase
      have hcount := (ha.exhausted hphase).2
      exact ⟨hcount.le, iff_of_true rfl hcount⟩
    | _ =>
      have hcount := ha.persists (by rw [hphase]; rfl) hlimited
      exact ⟨hcount.le, iff_of_false nofun hcount.ne⟩
  · intro hunlimited
    cases hphase : t.phase with
    | finished reason =>
      obtain rfl := h.ending reason hphase
      have hlimited := (ha.exhausted hphase).1
      rw [hunlimited] at hlimited
      exact absurd hlimited (by decide)
    | _ => rfl
  · intro hunfinished
    cases hphase : t.phase with
    | sleeping => exact ⟨.sleepElapsed, _, trivial, if_pos hphase, nofun⟩
    | checking => exact ⟨.checkAutoReconnect, _, trivial, if_pos hphase, by simp [h.enabled]⟩
    | connecting =>
      refine ⟨.connectReturns (.error .messageTooLarge), _, rfl, if_pos hphase, ?_⟩
      simp only [attempt]
      split_ifs <;> exact nofun
    | finished reason =>
      rw [hphase] at hunfinished
      cases hunfinished

/-- The backoff, the number of attempts and the terminal events of a reconnect task, for every
configuration that is accepted and in every run. -/
theorem backoff_and_retries {acts : List Action} {autoReconnectEnabled connected : Bool}
    (hvalid : config.validate = .ok ())
    (hrun : run (step config) (start config autoReconnectEnabled connected) acts = some t) :
    t.Accounted config ∧
    (t.phase = .finished .disabled ↔
      Occurs (step config) FindsDisabled (start config autoReconnectEnabled connected) acts) ∧
    (autoReconnectEnabled = true → (∀ a ∈ acts, a.Steady) → t.KeepsTrying config) := by
  have hall : Along (step config) (fun _ _ => True)
      (start config autoReconnectEnabled connected) acts := along_of_forall (fun _ _ => trivial) _ acts
  have haccounted : t.Accounted config ∧ t.Counting config :=
    invariant (I := fun t => t.Accounted config ∧ t.Counting config)
      (fun _ _ _ h _ hstep => h.1.step h.2 hstep) (accounted_start hvalid _ _) hall hrun
  refine ⟨haccounted.1, ?_, ?_⟩
  · refine history_induction (P := fun _ _ => True) (I := fun front m => m.phase = .finished .disabled ↔
      Occurs (step config) FindsDisabled (start config autoReconnectEnabled connected) front)
      ?_ ?_ hall hrun
    · exact iff_of_false (by simp [start]) not_occurs_nil
    · rintro front m a n hm - ih - hstep
      rw [occurs_concat_iff hm, ← ih]
      exact disabled_step_iff hstep
  · rintro henabled hsteady
    have halong : Along (step config) (fun _ a => a.Steady)
        (start config autoReconnectEnabled connected) acts :=
      along_of_forall_mem (fun a ha _ => hsteady a ha) _
    have h : t.Undisturbed :=
      invariant (I := Undisturbed) (fun _ _ _ h ha hstep => h.step ha hstep)
        ⟨henabled, rfl, fun _ hphase => absurd hphase (by simp [start])⟩ halong hrun
    exact h.keepsTrying haccounted.1

/-- Two failures where two retries are allowed: the delays are 1000 and 2000 ms. -/
theorem two_retries_exhausted :
    let config := { NetworkConfig.default with reconnectMaxRetries := 2 }
    let failure := Action.connectReturns (.error (.handshakeFailed "connection closed"))
    ∃ t, run (step config) (start config true false) [.sleepElapsed, .checkAutoReconnect, failure,
      .sleepElapsed, .checkAutoReconnect, failure] = some t ∧ t.slept = [1000, 2000] ∧
      t.Accounted config ∧ t.KeepsTrying config := by
  intro config failure
  obtain ⟨t, hrun, hslept⟩ : ∃ t, run (step config) (start config true false) [.sleepElapsed,
      .checkAutoReconnect, failure, .sleepElapsed, .checkAutoReconnect, failure] = some t ∧
      t.slept = [1000, 2000] := ⟨_, rfl, by decide⟩
  obtain ⟨haccounted, _, hkeeps⟩ := backoff_and_retries (by decide) hrun
  refine ⟨t, hrun, hslept, haccounted, hkeeps rfl ?_⟩
  simp [Action.Steady, failure, Except.isOk, Except.toBool]

end ReconnectTask

end MetaMystia

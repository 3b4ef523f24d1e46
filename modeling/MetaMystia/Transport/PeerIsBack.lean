import MetaMystia.Transport.ConnectTasks
import MetaMystia.Transport.ReconnectTask

/-! # A reconnect task whose peer is back

While a task sleeps, its peer may connect on another path. The next attempt then ends
with `AlreadyConnected`, which the loop counts as a failure.
-/

namespace MetaMystia

open Runs

namespace ReconnectTask

def foundBack (peerId : PeerId) : ConnectResult × Bool := (.error (.alreadyConnected peerId), true)

/-- An attempt that finds the peer connected is the last one and ends with the event 1, and the task
never gives up on a connected peer. -/
structure StopsWhenBack (peerId : PeerId) (t : ReconnectTask) : Prop where
  ends : ∀ front back, t.results = front ++ foundBack peerId :: back →
    back = [] ∧ t.phase.isFinished = true ∧ t.events.map (·.status) = [1]
  persists : ∀ event ∈ t.events, event.status = 2 → event.peerIsBack = false

/-- No attempt ends with `AlreadyConnected` while the peer is connected, and none that exhausts the
retries fails while it is. -/
def Harmless (config : NetworkConfig) (peerId : PeerId) (s : ReconnectTask) : Action → Prop
  | .connectReturns (.error e) => s.connected = true → e ≠ .alreadyConnected peerId ∧
    (s.autoReconnectEnabled = true → 0 < config.reconnectMaxRetries →
      saturatingSucc s.attempts < config.reconnectMaxRetries)
  | _ => True

instance (config : NetworkConfig) (peerId : PeerId) (s : ReconnectTask) :
    (a : Action) → Decidable (s.Harmless config peerId a)
  | .connectReturns (.error _) => inferInstanceAs (Decidable (_ → _))
  | .connectReturns (.ok _) | .sleepElapsed | .checkAutoReconnect | .cancelled | .cancelShutdownToken
  | .setAutoReconnect _ | .setConnected _ => .isTrue trivial

structure Reported (t : ReconnectTask) : Prop where
  quiet : t.phase.isFinished = false → t.events = []
  succeeded : t.events.map (·.status) = [1] → ∃ failures peerId connected,
    t.results = failures ++ [(.ok peerId, connected)]

variable {config : NetworkConfig} {s t : ReconnectTask} {peerId : PeerId}

theorem reported_of_unfinished (h : t.events = []) : t.Reported :=
  ⟨fun _ => h, fun hone => absurd hone (by simp [h])⟩

theorem Reported.step {a : Action} (h : s.Reported) (hstep : s.step config a = some t) : t.Reported := by
  cases a with
  | sleepElapsed =>
    simp only [ReconnectTask.step, Option.ite_none_right_eq_some, Option.some.injEq] at hstep
    obtain ⟨hphase, rfl⟩ := hstep
    exact reported_of_unfinished (h.quiet (by rw [hphase]; rfl))
  | checkAutoReconnect =>
    simp only [ReconnectTask.step, Option.ite_none_right_eq_some, Option.some.injEq] at hstep
    obtain ⟨hphase, rfl⟩ := hstep
    have hquiet := h.quiet (by rw [hphase]; rfl)
    split_ifs
    · exact reported_of_unfinished hquiet
    · exact ⟨by simp [finish, ReconnectPhase.isFinished], by simp [finish, hquiet]⟩
  | connectReturns result =>
    simp only [ReconnectTask.step, Option.ite_none_right_eq_some, Option.some.injEq] at hstep
    obtain ⟨hphase, rfl⟩ := hstep
    have hquiet := h.quiet (by rw [hphase]; rfl)
    cases result with
    | ok peerId => exact ⟨fun hunfinished => (by cases hunfinished), fun _ => ⟨s.results, peerId, s.connected, rfl⟩⟩
    | error e =>
      simp only [attempt]
      split_ifs
      · exact ⟨by simp [finish, ReconnectPhase.isFinished], by simp [finish, hquiet]⟩
      · exact reported_of_unfinished hquiet
  | cancelled =>
    simp only [ReconnectTask.step, Option.ite_none_right_eq_some, Option.some.injEq] at hstep
    obtain ⟨_, rfl⟩ := hstep
    exact ⟨fun hunfinished => (by cases hunfinished), h.succeeded⟩
  | cancelShutdownToken | setAutoReconnect enabled | setConnected connected =>
    obtain rfl := Option.some.inj hstep
    exact { h with }

def Clean (peerId : PeerId) (t : ReconnectTask) : Prop :=
  (∀ attempt ∈ t.results, attempt ≠ foundBack peerId) ∧
    ∀ event ∈ t.events, event.status = 2 → event.peerIsBack = false

theorem stopsWhenBack_iff (h : t.Reported) : t.StopsWhenBack peerId ↔ t.Clean peerId := by
  constructor
  · intro hstops
    refine ⟨?_, hstops.persists⟩
    rintro attempt hattempt rfl
    obtain ⟨front, back, hresults⟩ := List.append_of_mem hattempt
    obtain ⟨rfl, _, hone⟩ := hstops.ends front back hresults
    obtain ⟨failures, peer, connected, hlast⟩ := h.succeeded hone
    have hsame := (List.append_inj' (hresults.symm.trans hlast) rfl).2
    cases List.singleton_inj.mp hsame
  · rintro ⟨hnone, hevents⟩
    refine ⟨?_, hevents⟩
    intro front back hresults
    exact absurd rfl (hnone (foundBack peerId) (by simp [hresults]))

theorem foundBack_iff {e : NetworkError} {connected : Bool} :
    (Except.error e, connected) = foundBack peerId ↔ e = .alreadyConnected peerId ∧ connected = true := by
  simp [foundBack]

theorem clean_attempt_iff {e : NetworkError} (hquiet : s.events = []) :
    ({ s with results := s.results ++ [(Except.error e, s.connected)] }.attempt config
      (.error e)).Clean peerId ↔
      s.Clean peerId ∧ s.Harmless config peerId (.connectReturns (.error e)) := by
  have hclean : s.Clean peerId ↔ ∀ attempt ∈ s.results, attempt ≠ foundBack peerId := by
    simp [Clean, hquiet]
  rw [hclean]
  by_cases hlast : config.reconnectMaxRetries > 0 ∧ saturatingSucc s.attempts ≥ config.reconnectMaxRetries
  · have hattempt : { s with results := s.results ++ [(Except.error e, s.connected)] }.attempt config
        (.error e) = { s with
          results := s.results ++ [(Except.error e, s.connected)]
          attempts := saturatingSucc s.attempts }.finish .exhausted 2 := if_pos hlast
    have hlimit : ¬ saturatingSucc s.attempts < config.reconnectMaxRetries := UInt8.not_lt.mpr hlast.2
    rw [hattempt]
    simp only [Clean, finish, hquiet, List.forall_mem_append, List.forall_mem_singleton,
      List.nil_append, Harmless, hlimit, foundBack_iff, ne_eq, not_and, forall_const]
    cases s.connected <;> cases s.autoReconnectEnabled <;> simp [hlast.1]
  · have hattempt : { s with results := s.results ++ [(Except.error e, s.connected)] }.attempt config
        (.error e) = { s with
          results := s.results ++ [(Except.error e, s.connected)]
          attempts := saturatingSucc s.attempts
          phase := .sleeping
          delayMs := min (saturatingMul s.delayMs 2) config.reconnectMaxMs } := if_neg hlast
    have hlimit : 0 < config.reconnectMaxRetries →
        saturatingSucc s.attempts < config.reconnectMaxRetries := by
      intro hlimited
      exact UInt8.not_le.mp fun hle => hlast ⟨hlimited, hle⟩
    rw [hattempt]
    simp only [Clean, hquiet, List.forall_mem_append, List.forall_mem_singleton, Harmless,
      foundBack_iff, ne_eq, not_and]
    cases s.connected with
    | false => simp
    | true => simpa using fun _ _ _ => hlimit

theorem clean_step_iff {a : Action} (h : s.Reported) (hstep : s.step config a = some t) :
    t.Clean peerId ↔ s.Clean peerId ∧ s.Harmless config peerId a := by
  cases a with
  | sleepElapsed | cancelled =>
    simp only [ReconnectTask.step, Option.ite_none_right_eq_some, Option.some.injEq] at hstep
    obtain ⟨_, rfl⟩ := hstep
    simp [Clean, Harmless]
  | checkAutoReconnect =>
    simp only [ReconnectTask.step, Option.ite_none_right_eq_some, Option.some.injEq] at hstep
    obtain ⟨_, rfl⟩ := hstep
    split_ifs with henabled
    · simp [Clean, Harmless]
    · simp [Clean, Harmless, finish, henabled, or_imp, forall_and]
  | connectReturns result =>
    simp only [ReconnectTask.step, Option.ite_none_right_eq_some, Option.some.injEq] at hstep
    obtain ⟨hphase, rfl⟩ := hstep
    cases result with
    | ok peer => simp [Clean, Harmless, attempt, finish, foundBack, or_imp, forall_and]
    | error e => exact clean_attempt_iff (h.quiet (by rw [hphase]; rfl))
  | cancelShutdownToken | setAutoReconnect enabled | setConnected connected =>
    obtain rfl := Option.some.inj hstep
    simp [Clean, Harmless]

/-- In every run, a task stops at the first attempt that finds its peer connected, and does not give
it up, if and only if no attempt finds the peer connected and no failure exhausts the retries while
it is. -/
theorem stops_when_back_iff {acts : List Action} {autoReconnectEnabled connected : Bool}
    (hrun : run (step config) (start config autoReconnectEnabled connected) acts = some t) :
    t.StopsWhenBack peerId ↔ Along (step config) (Harmless config peerId)
      (start config autoReconnectEnabled connected) acts := by
  have hinv : t.Reported ∧ (t.Clean peerId ↔ Along (step config) (Harmless config peerId)
      (start config autoReconnectEnabled connected) acts) := by
    refine history_induction (P := fun _ _ => True) (I := fun front m => m.Reported ∧
      (m.Clean peerId ↔ Along (step config) (Harmless config peerId)
        (start config autoReconnectEnabled connected) front))
      ?_ ?_ (along_of_forall (fun _ _ => trivial) _ acts) hrun
    · exact ⟨reported_of_unfinished rfl, iff_of_true ⟨by simp [start], by simp [start]⟩ trivial⟩
    · rintro front m a n hm - ⟨hreported, hclean⟩ - hstep
      refine ⟨hreported.step hstep, ?_⟩
      rw [along_concat_iff hm, ← hclean]
      exact clean_step_iff hreported hstep
  rw [stopsWhenBack_iff hinv.1, hinv.2]

theorem reconnected_after_failure :
    let acts : List Action := [.sleepElapsed, .checkAutoReconnect,
      .connectReturns (.error (.handshakeFailed "connection closed")), .sleepElapsed,
      .checkAutoReconnect, .connectReturns (.ok ⟨"b"⟩)]
    ∃ t, run (step .default) (start .default true false) acts = some t ∧ t.StopsWhenBack ⟨"b"⟩ := by
  intro acts
  have hharmless : Along (step .default) (Harmless .default ⟨"b"⟩) (start .default true false) acts := by
    decide
  obtain ⟨t, hrun⟩ : ∃ t, run (step .default) (start .default true false) acts = some t := ⟨_, rfl⟩
  exact ⟨t, hrun, (stops_when_back_iff hrun).mpr hharmless⟩

/-- The peer connects while the task sleeps; the only attempt allowed finds that out and counts as a
failure. -/
theorem given_up_when_back :
    let config := { NetworkConfig.default with reconnectMaxRetries := 1 }
    ¬ ∀ acts t, run (step config) (start config true false) acts = some t → t.StopsWhenBack ⟨"b"⟩ := by
  intro config h
  have hstops := h [.setConnected true, .sleepElapsed, .checkAutoReconnect,
    .connectReturns (.error (.alreadyConnected ⟨"b"⟩))] _ rfl
  exact absurd (hstops.ends [] [] rfl).2.2 (by decide)

/-- The reconnect tasks beside the connection map count their failures as this loop does, and end
where its next sleep would be cut off. -/
theorem attempt_eq_fail {maxConnections : Nat} {shutdownCancelled : Bool} {addr : String}
    {phase : ConnectPhase} {e : NetworkError} :
    ConnectTask.fail ⟨maxConnections, config.reconnectMaxRetries⟩ shutdownCancelled
        ⟨.reconnect peerId addr s.attempts, phase⟩ =
      ⟨.reconnect peerId addr (s.attempt config (.error e)).attempts,
        if (s.attempt config (.error e)).phase.isFinished || shutdownCancelled then .finished
        else .sleeping⟩ := by
  have hfail : ConnectTask.fail ⟨maxConnections, config.reconnectMaxRetries⟩ shutdownCancelled
      ⟨.reconnect peerId addr s.attempts, phase⟩ =
      ⟨.reconnect peerId addr (saturatingSucc s.attempts),
        if config.reconnectMaxRetries > 0 ∧ saturatingSucc s.attempts ≥ config.reconnectMaxRetries then
          .finished
        else if shutdownCancelled then .finished
        else .sleeping⟩ := rfl
  rw [hfail]
  simp only [attempt]
  split_ifs <;> simp_all [finish, ReconnectPhase.isFinished]

end ReconnectTask

end MetaMystia

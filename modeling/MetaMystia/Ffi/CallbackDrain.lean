import MetaMystia.Library.Runs

/-! # Shutting the callback thread down

Any thread may call `send_event`; one thread calls `drain_and_shutdown` and then
`join_thread`; the callback thread runs `callback_loop`. The loop looks at the flag
before each event, so that once the flag is set it receives one event at most, and
only if it has looked before. What else was accepted by then stays in the queue.
-/

namespace MetaMystia

open Runs

inductive CallbackEvent
  | connectionResult (addr : String) (success : Bool) (errorCode : Int32)
  | leaderChanged (leaderId : Option String)
  | peerStatusChanged (peerId : String) (status : Int32)
  | received (peerId : String) (data : List UInt8) (msgType : UInt16) (flags : UInt8)
  | reconnect (peerId : String) (status : UInt8)
deriving DecidableEq

inductive CallbackThread
  | loading
  | receiving
  | dispatching (event : CallbackEvent)
  | exited
deriving DecidableEq

inductive DrainCall
  | idle
  | called
  | stored
  | dropped
  | joined
deriving DecidableEq

/-- `dispatched` holds what was passed to `dispatch_event`, `accepted` the events whose `try_send`
succeeded, and `before` those of them that were accepted when `drain_and_shutdown` was called. -/
structure CallbackManager where
  shutdown : Bool
  eventTx : Bool
  queue : List CallbackEvent
  thread : CallbackThread
  drain : DrainCall
  dispatched : List CallbackEvent
  accepted : List CallbackEvent
  before : List CallbackEvent
deriving DecidableEq

namespace CallbackManager

inductive Action
  | sendEvent (event : CallbackEvent)
  | callDrain
  | storeShutdown
  | dropSender
  | loadShutdown
  | blockingRecv
  | dispatchEvent
  | joinThread

def start : CallbackManager := ⟨false, true, [], .loading, .idle, [], [], []⟩

def capacity : Nat := 1024

def sendEvent (s : CallbackManager) (event : CallbackEvent) : CallbackManager :=
  -- `try_send` fails on a full queue and on one whose receiver is gone.
  if s.eventTx && decide (s.queue.length < capacity) && s.thread != .exited then
    { s with queue := s.queue ++ [event], accepted := s.accepted ++ [event] }
  else s

def step (s : CallbackManager) : Action → Option CallbackManager
  | .sendEvent event => some (s.sendEvent event)
  | .callDrain =>
    if s.drain = .idle then some { s with drain := .called, before := s.accepted } else none
  | .storeShutdown =>
    if s.drain = .called then some { s with drain := .stored, shutdown := true } else none
  | .dropSender =>
    if s.drain = .stored then some { s with drain := .dropped, eventTx := false } else none
  | .loadShutdown =>
    if s.thread = .loading then
      some { s with thread := if s.shutdown then .exited else .receiving }
    else none
  | .blockingRecv =>
    if s.thread = .receiving then
      match s.queue with
      | event :: rest => some { s with queue := rest, thread := .dispatching event }
      | [] => if s.eventTx then none else some { s with thread := .exited }
    else none
  | .dispatchEvent =>
    match s.thread with
    | .dispatching event =>
      some { s with thread := .loading, dispatched := s.dispatched ++ [event] }
    | _ => none
  | .joinThread =>
    if s.drain = .dropped ∧ s.thread = .exited then some { s with drain := .joined } else none

/-- The events of `before` that are still in the queue, which holds the end of `accepted`. -/
def undelivered (s : CallbackManager) : List CallbackEvent :=
  s.before.drop (s.accepted.length - s.queue.length)

/-- The events that the thread receives after it has last looked at the flag. -/
def stillReceives (s : CallbackManager) : Nat := if s.thread = .receiving then 1 else 0

def lost (s : CallbackManager) : List CallbackEvent := s.undelivered.drop s.stillReceives

/-- When the flag is set, at most one event accepted before the call is in the queue, and that one only
if the thread is in `blocking_recv`, or on its way there. -/
def SetsFlagLate (s : CallbackManager) : Action → Prop
  | .storeShutdown => s.undelivered.length ≤ s.stillReceives
  | _ => True

instance (s : CallbackManager) : (a : Action) → Decidable (s.SetsFlagLate a)
  | .storeShutdown => inferInstanceAs (Decidable (_ ≤ _))
  | .sendEvent _ | .callDrain | .dropSender | .loadShutdown | .blockingRecv | .dispatchEvent
  | .joinThread => .isTrue trivial

def inFlight (s : CallbackManager) : List CallbackEvent :=
  match s.thread with
  | .dispatching event => [event]
  | _ => []

structure Valid (s : CallbackManager) : Prop where
  fifo : s.accepted = s.dispatched ++ s.inFlight ++ s.queue
  earlier : s.before <+: s.accepted
  flag : s.shutdown = true ↔ s.drain ≠ .idle ∧ s.drain ≠ .called
  sender : s.eventTx = false → s.shutdown = true
  stopped : s.thread = .exited → s.shutdown = true
  joined : s.drain = .joined → s.thread = .exited

theorem loadShutdown_cases {s t : CallbackManager} (hstep : s.step .loadShutdown = some t) :
    s.thread = .loading ∧ (s.shutdown = true ∧ t = { s with thread := .exited } ∨
      s.shutdown = false ∧ t = { s with thread := .receiving }) := by
  simp only [step, Option.ite_none_right_eq_some, Option.some.injEq] at hstep
  obtain ⟨hloading, rfl⟩ := hstep
  cases hflag : s.shutdown with
  | true => exact ⟨hloading, .inl ⟨rfl, rfl⟩⟩
  | false => exact ⟨hloading, .inr ⟨rfl, rfl⟩⟩

theorem blockingRecv_cases {s t : CallbackManager} (hstep : s.step .blockingRecv = some t) :
    s.thread = .receiving ∧
      ((∃ event rest, s.queue = event :: rest ∧
        t = { s with queue := rest, thread := .dispatching event }) ∨
      s.queue = [] ∧ s.eventTx = false ∧ t = { s with thread := .exited }) := by
  simp only [step, Option.ite_none_right_eq_some] at hstep
  obtain ⟨hreceiving, hstep⟩ := hstep
  cases hqueue : s.queue with
  | cons event rest =>
    simp only [hqueue, Option.some.injEq] at hstep
    exact ⟨hreceiving, .inl ⟨event, rest, rfl, hstep.symm⟩⟩
  | nil =>
    simp only [hqueue, Option.ite_none_left_eq_some, Option.some.injEq, Bool.not_eq_true] at hstep
    obtain ⟨hsender, rfl⟩ := hstep
    exact ⟨hreceiving, .inr ⟨rfl, hsender, rfl⟩⟩

theorem dispatchEvent_cases {s t : CallbackManager} (hstep : s.step .dispatchEvent = some t) :
    ∃ event, s.thread = .dispatching event ∧
      t = { s with thread := .loading, dispatched := s.dispatched ++ [event] } := by
  cases hthread : s.thread with
  | dispatching event =>
    simp only [step, hthread, Option.some.injEq] at hstep
    exact ⟨event, rfl, hstep.symm⟩
  | _ => simp [step, hthread] at hstep

theorem valid_start : start.Valid where
  fifo := rfl
  earlier := List.prefix_refl _
  flag := by decide
  sender := nofun
  stopped := nofun
  joined := nofun

theorem Valid.step {s t : CallbackManager} {a : Action} (h : s.Valid) (hstep : s.step a = some t) :
    t.Valid := by
  cases a with
  | sendEvent event =>
    obtain rfl := Option.some.inj hstep
    unfold sendEvent
    split_ifs
    · refine ⟨?_, h.earlier.trans (List.prefix_append _ _), h.flag, h.sender, h.stopped, h.joined⟩
      rw [h.fifo, List.append_assoc]
      rfl
    · exact h
  | callDrain =>
    simp only [CallbackManager.step, Option.ite_none_right_eq_some, Option.some.injEq] at hstep
    obtain ⟨hidle, rfl⟩ := hstep
    have hunset : s.shutdown ≠ true := fun hset => (h.flag.mp hset).1 hidle
    exact ⟨h.fifo, List.prefix_refl _, by simp [hunset], h.sender, h.stopped, nofun⟩
  | storeShutdown =>
    simp only [CallbackManager.step, Option.ite_none_right_eq_some, Option.some.injEq] at hstep
    obtain ⟨hcalled, rfl⟩ := hstep
    exact ⟨h.fifo, h.earlier, by simp, fun _ => rfl, fun _ => rfl, nofun⟩
  | dropSender =>
    simp only [CallbackManager.step, Option.ite_none_right_eq_some, Option.some.injEq] at hstep
    obtain ⟨hstored, rfl⟩ := hstep
    have hset : s.shutdown = true := h.flag.mpr (by simp [hstored])
    exact ⟨h.fifo, h.earlier, by simp [hset], fun _ => hset, fun _ => hset, nofun⟩
  | loadShutdown =>
    obtain ⟨hloading, ⟨hflag, rfl⟩ | ⟨_, rfl⟩⟩ := loadShutdown_cases hstep
    · exact ⟨by simpa [inFlight, hloading] using h.fifo, h.earlier, h.flag, h.sender, fun _ => hflag,
        fun _ => rfl⟩
    · refine ⟨by simpa [inFlight, hloading] using h.fifo, h.earlier, h.flag, h.sender, nofun, ?_⟩
      intro hjoined
      cases hloading.symm.trans (h.joined hjoined)
  | blockingRecv =>
    obtain ⟨hreceiving, ⟨event, rest, hqueue, rfl⟩ | ⟨hqueue, hsender, rfl⟩⟩ := blockingRecv_cases hstep
    · refine ⟨by simpa [inFlight, hreceiving, hqueue] using h.fifo, h.earlier, h.flag, h.sender, nofun, ?_⟩
      intro hjoined
      cases hreceiving.symm.trans (h.joined hjoined)
    · exact ⟨by simpa [inFlight, hreceiving] using h.fifo, h.earlier, h.flag, h.sender,
        fun _ => h.sender hsender, fun _ => rfl⟩
  | dispatchEvent =>
    obtain ⟨event, hdispatching, rfl⟩ := dispatchEvent_cases hstep
    refine ⟨by simpa [inFlight, hdispatching] using h.fifo, h.earlier, h.flag, h.sender, nofun, ?_⟩
    intro hjoined
    cases hdispatching.symm.trans (h.joined hjoined)
  | joinThread =>
    simp only [CallbackManager.step, Option.ite_none_right_eq_some, Option.some.injEq] at hstep
    obtain ⟨⟨hdropped, hexited⟩, rfl⟩ := hstep
    have hset : s.shutdown = true := h.flag.mpr (by simp [hdropped])
    exact ⟨h.fifo, h.earlier, by simp [hset], h.sender, h.stopped, fun _ => hexited⟩

theorem lost_step {s t : CallbackManager} {a : Action} (h : s.Valid) (hset : s.shutdown = true)
    (hstep : s.step a = some t) : t.shutdown = true ∧ t.lost = s.lost := by
  cases a with
  | sendEvent event =>
    obtain rfl := Option.some.inj hstep
    unfold sendEvent
    split_ifs
    · refine ⟨hset, ?_⟩
      simp only [lost, undelivered, stillReceives, List.length_append, List.length_singleton,
        Nat.add_sub_add_right]
    · exact ⟨hset, rfl⟩
  | callDrain =>
    simp only [CallbackManager.step, Option.ite_none_right_eq_some, Option.some.injEq] at hstep
    exact absurd hstep.1 (h.flag.mp hset).1
  | storeShutdown =>
    simp only [CallbackManager.step, Option.ite_none_right_eq_some, Option.some.injEq] at hstep
    exact absurd hstep.1 (h.flag.mp hset).2
  | dropSender | joinThread =>
    simp only [CallbackManager.step, Option.ite_none_right_eq_some, Option.some.injEq] at hstep
    obtain ⟨_, rfl⟩ := hstep
    exact ⟨hset, rfl⟩
  | loadShutdown =>
    obtain ⟨hloading, ⟨_, rfl⟩ | ⟨hunset, _⟩⟩ := loadShutdown_cases hstep
    · exact ⟨hset, by simp [lost, undelivered, stillReceives, hloading]⟩
    · cases hset.symm.trans hunset
  | blockingRecv =>
    obtain ⟨hreceiving, ⟨event, rest, hqueue, rfl⟩ | ⟨hqueue, _, rfl⟩⟩ := blockingRecv_cases hstep
    · refine ⟨hset, ?_⟩
      have hlength : rest.length < s.accepted.length := by
        have hfifo := congrArg List.length h.fifo
        simp only [hqueue, List.length_append, List.length_cons] at hfifo
        omega
      have hnext : s.accepted.length - rest.length = s.accepted.length - s.queue.length + 1 := by
        rw [hqueue, List.length_cons]
        omega
      simp [lost, undelivered, stillReceives, hreceiving, hnext]
    · have hnone : s.before.length ≤ s.accepted.length := h.earlier.length_le
      have hdrop : s.before.drop s.accepted.length = [] := List.drop_eq_nil_of_le hnone
      exact ⟨hset, by simp [lost, undelivered, stillReceives, hreceiving, hqueue, hdrop]⟩
  | dispatchEvent =>
    obtain ⟨event, hdispatching, rfl⟩ := dispatchEvent_cases hstep
    exact ⟨hset, by simp [lost, undelivered, stillReceives, hdispatching]⟩

/-- The step that sets the flag decides; the others change neither side. -/
theorem flagged_step {s t : CallbackManager} {a : Action} (h : s.Valid) (hstep : s.step a = some t) :
    (a = .storeShutdown ∧ s.shutdown = false ∧ t.shutdown = true ∧ t.lost = s.lost) ∨
      (a ≠ .storeShutdown ∧ t.shutdown = s.shutdown ∧ (s.shutdown = true → t.lost = s.lost)) := by
  cases hset : s.shutdown with
  | true =>
    obtain ⟨hset', hlost⟩ := lost_step h hset hstep
    refine .inr ⟨?_, hset', fun _ => hlost⟩
    rintro rfl
    simp only [CallbackManager.step, Option.ite_none_right_eq_some] at hstep
    exact (h.flag.mp hset).2 hstep.1
  | false =>
    cases a with
    | storeShutdown =>
      simp only [CallbackManager.step, Option.ite_none_right_eq_some, Option.some.injEq] at hstep
      obtain ⟨_, rfl⟩ := hstep
      exact .inl ⟨rfl, rfl, rfl, rfl⟩
    | sendEvent event =>
      obtain rfl := Option.some.inj hstep
      refine .inr ⟨by simp, ?_, by simp⟩
      unfold sendEvent
      split_ifs <;> exact hset
    | callDrain | dropSender | joinThread =>
      simp only [CallbackManager.step, Option.ite_none_right_eq_some, Option.some.injEq] at hstep
      obtain ⟨_, rfl⟩ := hstep
      exact .inr ⟨by simp, hset, by simp⟩
    | loadShutdown =>
      obtain ⟨_, ⟨_, rfl⟩ | ⟨_, rfl⟩⟩ := loadShutdown_cases hstep <;> exact .inr ⟨by simp, hset, by simp⟩
    | blockingRecv =>
      obtain ⟨_, ⟨_, _, _, rfl⟩ | ⟨_, _, rfl⟩⟩ := blockingRecv_cases hstep <;>
        exact .inr ⟨by simp, hset, by simp⟩
    | dispatchEvent =>
      obtain ⟨_, _, rfl⟩ := dispatchEvent_cases hstep
      exact .inr ⟨by simp, hset, by simp⟩

theorem Valid.dispatched_cases {s : CallbackManager} (h : s.Valid) (hexited : s.thread = .exited) :
    s.before <+: s.dispatched ∧ s.lost = [] ∨ s.before = s.dispatched ++ s.lost ∧ s.lost ≠ [] := by
  have hfifo : s.accepted = s.dispatched ++ s.queue := by simpa [inFlight, hexited] using h.fifo
  have hlost : s.lost = s.before.drop s.dispatched.length := by
    have hlength := congrArg List.length hfifo
    rw [List.length_append] at hlength
    have hqueue : s.accepted.length - s.queue.length = s.dispatched.length := by omega
    simp [lost, undelivered, stillReceives, hexited, hqueue]
  have hdispatched : s.dispatched <+: s.accepted := hfifo ▸ List.prefix_append _ _
  cases Nat.lt_or_ge s.dispatched.length s.before.length with
  | inl hless =>
    have hearlier := List.prefix_of_prefix_length_le hdispatched h.earlier (Nat.le_of_lt hless)
    refine .inr ⟨?_, ?_⟩
    · rw [hlost, ← List.prefix_iff_eq_append.mp hearlier]
      simp
    · rw [hlost]
      simpa [List.drop_eq_nil_iff] using hless
  | inr hle =>
    refine .inl ⟨List.prefix_of_prefix_length_le h.earlier hdispatched hle, ?_⟩
    rw [hlost]
    exact List.drop_eq_nil_of_le hle

/-- Once `join_thread` has returned, the events accepted before the call of `drain_and_shutdown` are
the first that were dispatched, in their order, if and only if at most one of them was in the queue
when the flag was set, and that one only while the thread was receiving. -/
theorem delivered_before_exit_iff {acts : List Action} {t : CallbackManager}
    (hrun : run step start acts = some t) (hjoined : t.drain = .joined) :
    t.before <+: t.dispatched ↔ Along step SetsFlagLate start acts := by
  have hinv : t.Valid ∧ (Along step SetsFlagLate start acts ↔ (t.shutdown = true → t.lost = [])) := by
    refine history_induction (P := fun _ _ => True)
      (I := fun front m => m.Valid ∧
        (Along step SetsFlagLate start front ↔ (m.shutdown = true → m.lost = [])))
      ⟨valid_start, by simp [Along, start]⟩ ?_ (along_of_forall (fun _ _ => trivial) start acts) hrun
    rintro front m a n hm - ⟨hvalid, halong⟩ - hstep
    refine ⟨hvalid.step hstep, ?_⟩
    rw [along_concat_iff hm, halong]
    obtain ⟨rfl, hunset, hset, hlost⟩ | ⟨hother, hset, hlost⟩ := flagged_step hvalid hstep
    · rw [hset, hlost]
      simp [hunset, SetsFlagLate, lost, List.drop_eq_nil_iff]
    · have hfree : m.SetsFlagLate a := by
        cases a with
        | storeShutdown => exact absurd rfl hother
        | _ => trivial
      rw [hset]
      constructor
      · rintro ⟨h, _⟩ hflag
        rw [hlost hflag]
        exact h hflag
      · exact fun h => ⟨fun hflag => hlost hflag ▸ h hflag, hfree⟩
  obtain ⟨hvalid, halong⟩ := hinv
  have hexited := hvalid.joined hjoined
  have hset := hvalid.stopped hexited
  rw [halong]
  obtain ⟨hstarts, hnone⟩ | ⟨hsplit, hsome⟩ := hvalid.dispatched_cases hexited
  · exact ⟨fun _ _ => hnone, fun _ => hstarts⟩
  · constructor
    · intro hstarts
      have hlength := hstarts.length_le
      rw [hsplit, List.length_append] at hlength
      exact absurd (List.length_eq_zero_iff.mp (by omega)) hsome
    · exact fun h => absurd (h hset) hsome

/-- The thread waits for events when the flag is set, and takes the one that is queued. -/
theorem queued_event_delivered :
    let acts : List Action := [.loadShutdown, .sendEvent (.leaderChanged (some "b")), .callDrain,
      .storeShutdown, .dropSender, .blockingRecv, .dispatchEvent, .loadShutdown, .joinThread]
    ∃ t, run step start acts = some t ∧
      (t.before <+: t.dispatched ↔ Along step SetsFlagLate start acts) := by
  intro acts
  exact ⟨_, rfl, delivered_before_exit_iff rfl rfl⟩

/-- The flag is set while the thread dispatches the first of two events. -/
theorem queued_event_lost :
    ¬ ∀ acts t, run step start acts = some t → t.drain = .joined → t.before <+: t.dispatched := by
  intro h
  have hstarts := h [.loadShutdown, .sendEvent (.leaderChanged (some "b")), .blockingRecv,
    .sendEvent (.peerStatusChanged "b" 1), .callDrain, .storeShutdown, .dispatchEvent, .loadShutdown,
    .dropSender, .joinThread] _ rfl rfl
  exact absurd hstarts.length_le (by decide)

end CallbackManager

end MetaMystia

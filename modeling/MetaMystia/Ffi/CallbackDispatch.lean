import MetaMystia.Ffi.CallbackDrain
import Mathlib.Logic.Function.Basic

/-! # The callbacks that are called

The five slots may be filled and cleared by any thread at any time. `dispatch_event` copies the
callback out of the slot of its event and gives the lock back before the call, so that a call can
still be made with a callback that has been replaced or cleared since.
-/

namespace MetaMystia

open Runs

inductive CallbackKind
  | connectionResult
  | leaderChanged
  | peerStatus
  | receive
  | reconnect
deriving DecidableEq

/-- What a callback is called with. A pointer to a C string is the text it points to. -/
inductive CallbackCall
  | connectionResult (addr : String) (success : UInt8) (errorCode : Int32)
  | leaderChanged (leader : String)
  | peerStatus (peer : String) (status : Int32)
  | receive (peer : String) (data : List UInt8) (length : Int32) (msgType : UInt16) (flags : UInt8)
  | reconnect (peer : String) (status : UInt8)
deriving DecidableEq

def CallbackCall.kind : CallbackCall → CallbackKind
  | .connectionResult .. => .connectionResult
  | .leaderChanged _ => .leaderChanged
  | .peerStatus .. => .peerStatus
  | .receive .. => .receive
  | .reconnect .. => .reconnect

/-- `CString::new`, which refuses a text with a zero byte in it. -/
def cString (text : String) : Option String :=
  if Char.ofNat 0 ∈ text.toList then none else some text

namespace CallbackEvent

/-- The slot that `dispatch_event` reads for the event. -/
def kind : CallbackEvent → CallbackKind
  | .connectionResult .. => .connectionResult
  | .leaderChanged _ => .leaderChanged
  | .peerStatusChanged .. => .peerStatus
  | .received .. => .receive
  | .reconnect .. => .reconnect

def call : CallbackEvent → Option CallbackCall
  | .connectionResult addr success errorCode =>
    (cString addr).map fun cAddr => .connectionResult cAddr (if success then 1 else 0) errorCode
  | .leaderChanged leaderId =>
    (cString (leaderId.getD "")).map fun cLeader => .leaderChanged cLeader
  | .peerStatusChanged peerId status => (cString peerId).map fun cPeer => .peerStatus cPeer status
  | .received peerId data msgType flags =>
    -- `data.len() as i32` keeps the low 32 bits.
    (cString peerId).map fun cPeer =>
      .receive cPeer data (Int32.ofNat data.length) msgType flags
  | .reconnect peerId status => (cString peerId).map fun cPeer => .reconnect cPeer status

theorem kind_of_call {event : CallbackEvent} {call : CallbackCall} (h : event.call = some call) :
    call.kind = event.kind := by
  cases event with
  | _ =>
    obtain ⟨_, _, rfl⟩ := Option.map_eq_some_iff.mp h
    rfl

end CallbackEvent

/-- `cb` is the local variable of `dispatch_event` between the read of the slot and the call; `calls`
holds the calls that were made, each with the callback that was called. -/
structure CallbackDispatch (F : Type) where
  manager : CallbackManager
  callbacks : CallbackKind → Option F
  cb : Option (Option F)
  calls : List (F × CallbackCall)

namespace CallbackDispatch

variable {F : Type}

inductive Action (F : Type)
  | manager (a : CallbackManager.Action)
  | readCallback
  | registerConnectionResultCallback (cb : Option F)
  | registerLeaderChangedCallback (cb : Option F)
  | registerPeerStatusCallback (cb : Option F)
  | registerReceiveCallback (cb : Option F)
  | registerReconnectCallback (cb : Option F)

def Action.registers : Action F → Option CallbackKind
  | .manager _ | .readCallback => none
  | .registerConnectionResultCallback _ => some .connectionResult
  | .registerLeaderChangedCallback _ => some .leaderChanged
  | .registerPeerStatusCallback _ => some .peerStatus
  | .registerReceiveCallback _ => some .receive
  | .registerReconnectCallback _ => some .reconnect

def start : CallbackDispatch F := ⟨.start, fun _ => none, none, []⟩

def register (s : CallbackDispatch F) (kind : CallbackKind) (cb : Option F) : CallbackDispatch F :=
  { s with callbacks := Function.update s.callbacks kind cb }

def registerConnectionResultCallback (s : CallbackDispatch F) (cb : Option F) :
    CallbackDispatch F :=
  s.register .connectionResult cb

def registerLeaderChangedCallback (s : CallbackDispatch F) (cb : Option F) : CallbackDispatch F :=
  s.register .leaderChanged cb

def registerPeerStatusCallback (s : CallbackDispatch F) (cb : Option F) : CallbackDispatch F :=
  s.register .peerStatus cb

def registerReceiveCallback (s : CallbackDispatch F) (cb : Option F) : CallbackDispatch F :=
  s.register .receive cb

def registerReconnectCallback (s : CallbackDispatch F) (cb : Option F) : CallbackDispatch F :=
  s.register .reconnect cb

def made (cb : Option F) (event : CallbackEvent) : Option (F × CallbackCall) :=
  cb.bind fun f => event.call.map fun call => (f, call)

def step (s : CallbackDispatch F) : Action F → Option (CallbackDispatch F)
  | .readCallback =>
    match s.manager.thread, s.cb with
    | .dispatching event, none => some { s with cb := some (s.callbacks event.kind) }
    | _, _ => none
  | .manager .dispatchEvent =>
    -- The slot is read first; the thread is back in its loop after the call.
    match s.manager.thread, s.cb with
    | .dispatching event, some cb =>
      (s.manager.step .dispatchEvent).map fun m =>
        { s with manager := m, cb := none, calls := s.calls ++ (made cb event).toList }
    | _, _ => none
  | .manager a => (s.manager.step a).map fun m => { s with manager := m }
  | .registerConnectionResultCallback cb => some (s.registerConnectionResultCallback cb)
  | .registerLeaderChangedCallback cb => some (s.registerLeaderChangedCallback cb)
  | .registerPeerStatusCallback cb => some (s.registerPeerStatusCallback cb)
  | .registerReceiveCallback cb => some (s.registerReceiveCallback cb)
  | .registerReconnectCallback cb => some (s.registerReconnectCallback cb)

/-- The events whose slot has been read. -/
def taken (s : CallbackDispatch F) : List CallbackEvent :=
  s.manager.dispatched ++ if s.cb.isSome then s.manager.inFlight else []

def pending (s : CallbackDispatch F) : List (F × CallbackCall) :=
  s.cb.elim [] fun cb => s.manager.inFlight.filterMap (made cb)

/-- The calls that nothing can take back: those made and the pending one. -/
def due (s : CallbackDispatch F) : List (F × CallbackCall) := s.calls ++ s.pending

def callsOf (kind : CallbackKind) (calls : List (F × CallbackCall)) : List (F × CallbackCall) :=
  calls.filter fun c => c.2.kind = kind

structure Valid (s : CallbackDispatch F) : Prop where
  manager : s.manager.Valid
  reading : s.cb.isSome = true → ∃ event, s.manager.thread = .dispatching event

end CallbackDispatch

theorem CallbackManager.dispatching_kept {s t : CallbackManager} {a : CallbackManager.Action}
    (ha : a ≠ .dispatchEvent) (hstep : s.step a = some t) :
    t.dispatched = s.dispatched ∧
      ∀ event, s.thread = .dispatching event → t.thread = .dispatching event := by
  cases a with
  | sendEvent event =>
    obtain rfl := Option.some.inj hstep
    unfold sendEvent
    split_ifs <;> exact ⟨rfl, fun _ h => h⟩
  | callDrain | storeShutdown | dropSender | joinThread =>
    simp only [CallbackManager.step, Option.ite_none_right_eq_some, Option.some.injEq] at hstep
    obtain ⟨_, rfl⟩ := hstep
    exact ⟨rfl, fun _ h => h⟩
  | loadShutdown =>
    obtain ⟨hloading, ⟨_, rfl⟩ | ⟨_, rfl⟩⟩ := loadShutdown_cases hstep <;>
      exact ⟨rfl, fun event h => by cases hloading.symm.trans h⟩
  | blockingRecv =>
    obtain ⟨hreceiving, ⟨_, _, _, rfl⟩ | ⟨_, _, rfl⟩⟩ := blockingRecv_cases hstep <;>
      exact ⟨rfl, fun event h => by cases hreceiving.symm.trans h⟩
  | dispatchEvent => exact absurd rfl ha

namespace CallbackDispatch

variable {F : Type}

theorem step_cases {s t : CallbackDispatch F} {a : Action F} (hstep : s.step a = some t) :
    (∃ kind cb, a.registers = some kind ∧ t = s.register kind cb) ∨
    (∃ event, a = .readCallback ∧ s.manager.thread = .dispatching event ∧ s.cb = none ∧
      t = { s with cb := some (s.callbacks event.kind) }) ∨
    (∃ event cb m, a = .manager .dispatchEvent ∧ s.manager.thread = .dispatching event ∧
      s.cb = some cb ∧ s.manager.step .dispatchEvent = some m ∧
      t = { s with manager := m, cb := none, calls := s.calls ++ (made cb event).toList }) ∨
    (∃ b m, a = .manager b ∧ b ≠ .dispatchEvent ∧ s.manager.step b = some m ∧
      t = { s with manager := m }) := by
  cases a with
  | readCallback =>
    simp only [step] at hstep
    split at hstep
    next event hthread hcb =>
      exact .inr (.inl ⟨event, rfl, hthread, hcb, (Option.some.inj hstep).symm⟩)
    next => cases hstep
  | manager b =>
    cases b with
    | dispatchEvent =>
      simp only [step] at hstep
      split at hstep
      next event cb hthread hcb =>
        obtain ⟨m, hm, rfl⟩ := Option.map_eq_some_iff.mp hstep
        exact .inr (.inr (.inl ⟨event, cb, m, rfl, hthread, hcb, hm, rfl⟩))
      next => cases hstep
    | _ =>
      simp only [step, Option.map_eq_some_iff] at hstep
      obtain ⟨m, hm, rfl⟩ := hstep
      exact .inr (.inr (.inr ⟨_, m, rfl, by simp, hm, rfl⟩))
  | _ =>
    obtain rfl := Option.some.inj hstep
    exact .inl ⟨_, _, rfl, rfl⟩

theorem Valid.step {s t : CallbackDispatch F} {a : Action F} (h : s.Valid)
    (hstep : s.step a = some t) : t.Valid := by
  obtain ⟨_, _, _, rfl⟩ | ⟨event, _, hthread, _, rfl⟩ | ⟨_, _, m, _, _, _, hm, rfl⟩ |
    ⟨b, m, _, hb, hm, rfl⟩ := step_cases hstep
  · exact ⟨h.manager, h.reading⟩
  · exact ⟨h.manager, fun _ => ⟨event, hthread⟩⟩
  · exact ⟨h.manager.step hm, nofun⟩
  · refine ⟨h.manager.step hm, fun hcb => ?_⟩
    obtain ⟨event, hthread⟩ := h.reading hcb
    exact ⟨event, (CallbackManager.dispatching_kept hb hm).2 event hthread⟩

theorem valid_start : (start : CallbackDispatch F).Valid :=
  ⟨CallbackManager.valid_start, nofun⟩

/-- A step reads the slot of one event, and the call is due from then on, or it changes neither what
has been read nor what is due. -/
theorem step_effect {s t : CallbackDispatch F} {a : Action F} (h : s.Valid)
    (hstep : s.step a = some t) :
    (∃ event, t.taken = s.taken ++ [event] ∧
      t.due = s.due ++ (made (s.callbacks event.kind) event).toList ∧ t.callbacks = s.callbacks) ∨
    (t.taken = s.taken ∧ t.due = s.due ∧
      ∀ kind, a.registers ≠ some kind → t.callbacks kind = s.callbacks kind) := by
  obtain ⟨kind, cb, ha, rfl⟩ | ⟨event, _, hthread, hcb, rfl⟩ |
    ⟨event, cb, m, _, hthread, hcb, hm, rfl⟩ | ⟨b, m, _, hb, hm, rfl⟩ := step_cases hstep
  · refine .inr ⟨rfl, rfl, fun other hother => Function.update_of_ne ?_ _ _⟩
    rintro rfl
    exact hother ha
  · refine .inl ⟨event, ?_, ?_, rfl⟩
    · simp [taken, hcb, CallbackManager.inFlight, hthread]
    · cases hmade : made (s.callbacks event.kind) event <;>
        simp [due, pending, hcb, CallbackManager.inFlight, hthread, hmade]
  · obtain ⟨_, hevent, rfl⟩ := CallbackManager.dispatchEvent_cases hm
    obtain rfl := CallbackThread.dispatching.inj (hthread.symm.trans hevent)
    refine .inr ⟨?_, ?_, fun _ _ => rfl⟩
    · simp [taken, hcb, CallbackManager.inFlight, hthread]
    · cases hmade : made cb event <;>
        simp [due, pending, hcb, CallbackManager.inFlight, hthread, hmade]
  · obtain ⟨hdispatched, hkept⟩ := CallbackManager.dispatching_kept hb hm
    have hinFlight : s.cb.isSome = true → m.inFlight = s.manager.inFlight := by
      intro hcb
      obtain ⟨event, hthread⟩ := h.reading hcb
      simp only [CallbackManager.inFlight, hthread, hkept event hthread]
    cases hcb : s.cb with
    | none =>
      refine .inr ⟨?_, ?_, fun _ _ => rfl⟩
      · simp [taken, hcb, hdispatched]
      · simp [due, pending, hcb]
    | some cb =>
      rw [hcb] at hinFlight
      refine .inr ⟨?_, ?_, fun _ _ => rfl⟩
      · simp [taken, hcb, hdispatched, hinFlight rfl]
      · simp [due, pending, hcb, hinFlight rfl]

theorem kind_of_made {cb : Option F} {event : CallbackEvent} {c : F × CallbackCall}
    (h : made cb event = some c) : c.2.kind = event.kind := by
  obtain ⟨f, _, hcall⟩ := Option.bind_eq_some_iff.mp h
  obtain ⟨call, hevent, rfl⟩ := Option.map_eq_some_iff.mp hcall
  exact CallbackEvent.kind_of_call hevent

theorem callsOf_append (kind : CallbackKind) (front back : List (F × CallbackCall)) :
    callsOf kind (front ++ back) = callsOf kind front ++ callsOf kind back :=
  List.filter_append ..

theorem callsOf_made (kind : CallbackKind) (cb : Option F) (event : CallbackEvent) :
    callsOf kind (made cb event).toList =
      if event.kind = kind then (made cb event).toList else [] := by
  cases hmade : made cb event with
  | none => simp [callsOf]
  | some c => by_cases hkind : event.kind = kind <;> simp [callsOf, kind_of_made hmade, hkind]

/-- From `s` to `t` the slot is unchanged, and every event of the kind whose slot was read in between
makes its call with what is in it. -/
def Continues (kind : CallbackKind) (s t : CallbackDispatch F) : Prop :=
  t.callbacks kind = s.callbacks kind ∧ ∃ events, t.taken = s.taken ++ events ∧
    callsOf kind t.due = callsOf kind s.due ++
      (events.filter fun event => event.kind = kind).filterMap (made (s.callbacks kind))

theorem Continues.refl (kind : CallbackKind) (s : CallbackDispatch F) : Continues kind s s :=
  ⟨rfl, [], by simp, by simp⟩

theorem Continues.trans {kind : CallbackKind} {s t u : CallbackDispatch F}
    (hst : Continues kind s t) (htu : Continues kind t u) : Continues kind s u := by
  obtain ⟨hslot, events, htaken, hdue⟩ := hst
  obtain ⟨hslot', events', htaken', hdue'⟩ := htu
  refine ⟨hslot'.trans hslot, events ++ events', ?_, ?_⟩
  · rw [htaken', htaken, List.append_assoc]
  · rw [hdue', hdue, hslot, List.filter_append, List.filterMap_append, List.append_assoc]

theorem Continues.of_step {kind : CallbackKind} {s t : CallbackDispatch F} {a : Action F}
    (h : s.Valid) (ha : a.registers ≠ some kind) (hstep : s.step a = some t) :
    Continues kind s t := by
  obtain ⟨event, htaken, hdue, hslots⟩ | ⟨htaken, hdue, hslots⟩ := step_effect h hstep
  · refine ⟨by rw [hslots], [event], htaken, ?_⟩
    rw [hdue, callsOf_append, callsOf_made]
    by_cases hkind : event.kind = kind
    · subst hkind
      cases hmade : made (s.callbacks event.kind) event <;> simp [hmade]
    · simp [hkind]
  · exact ⟨hslots kind ha, [], by simp [htaken], by simp [hdue]⟩

theorem valid_run {s t : CallbackDispatch F} {acts : List (Action F)} (h : s.Valid)
    (hrun : run step s acts = some t) : t.Valid :=
  invariant (P := fun _ _ => True) (fun _ _ _ h _ hstep => h.step hstep) h
    (along_of_forall (fun _ _ => trivial) s acts) hrun

theorem Continues.of_run {kind : CallbackKind} {s t : CallbackDispatch F} {acts : List (Action F)}
    (h : s.Valid) (hacts : ∀ a ∈ acts, a.registers ≠ some kind) (hrun : run step s acts = some t) :
    Continues kind s t := by
  induction acts generalizing s with
  | nil =>
    obtain rfl : s = t := by simpa using hrun
    exact Continues.refl kind s
  | cons a rest ih =>
    obtain ⟨m, hm, ht⟩ := run_cons_iff.mp hrun
    obtain ⟨ha, hrest⟩ := List.forall_mem_cons.mp hacts
    exact (Continues.of_step h ha hm).trans (ih (h.step hm) hrest ht)

theorem length_pending_le (s : CallbackDispatch F) : s.pending.length ≤ 1 := by
  unfold pending
  cases s.cb with
  | none => simp
  | some cb =>
    refine Nat.le_trans (List.length_filterMap_le _ _) ?_
    unfold CallbackManager.inFlight
    split <;> simp

/-- While nobody writes the slot of a kind, each event of the kind whose slot is read makes one call,
in the order of the events, with what is in the slot. Once the slot has been cleared, at most one more
call is made: the one for which `dispatch_event` had already read the slot. -/
theorem calls_follow_slot {kind : CallbackKind} {s t : CallbackDispatch F}
    {front back : List (Action F)} (hfront : run step start front = some s)
    (hback : ∀ a ∈ back, a.registers ≠ some kind) (hrun : run step s back = some t) :
    Continues kind s t ∧ (s.callbacks kind = none →
      callsOf kind t.calls <+: callsOf kind s.calls ++ callsOf kind s.pending ∧
      (callsOf kind t.calls).length ≤ (callsOf kind s.calls).length + 1) := by
  have hcontinues := Continues.of_run (valid_run valid_start hfront) hback hrun
  refine ⟨hcontinues, fun hcleared => ?_⟩
  obtain ⟨_, events, _, hdue⟩ := hcontinues
  have hnone : (events.filter fun event => event.kind = kind).filterMap
      (made (s.callbacks kind)) = [] := by
    simp [hcleared, made]
  rw [hnone, List.append_nil, due, due, callsOf_append, callsOf_append] at hdue
  have hearlier : callsOf kind t.calls <+: callsOf kind s.calls ++ callsOf kind s.pending := by
    rw [← hdue]
    exact List.prefix_append _ _
  have hpending : (callsOf kind s.pending).length ≤ 1 :=
    Nat.le_trans (List.length_filter_le _ _) s.length_pending_le
  have hlength := hearlier.length_le
  rw [List.length_append] at hlength
  exact ⟨hearlier, by omega⟩

/-- The callback is cleared between the read of its slot and the call. -/
theorem cleared_callback_called :
    let front : List (Action Nat) := [.registerReconnectCallback (some 0), .manager .loadShutdown,
      .manager (.sendEvent (.reconnect "b" 0)), .manager (.sendEvent (.reconnect "b" 1)),
      .manager .blockingRecv, .readCallback, .registerReconnectCallback none]
    let back : List (Action Nat) := [.manager .dispatchEvent, .manager .loadShutdown,
      .manager .blockingRecv, .readCallback, .manager .dispatchEvent]
    ∃ s t, run step start front = some s ∧ run step s back = some t ∧ Continues .reconnect s t ∧
      (callsOf .reconnect t.calls).length ≤ (callsOf .reconnect s.calls).length + 1 ∧
      t.calls = [(0, .reconnect "b" 0)] := by
  intro front back
  have h := @calls_follow_slot Nat .reconnect _ _ front back rfl (by decide) rfl
  exact ⟨_, _, rfl, rfl, h.1, (h.2 rfl).2, rfl⟩

/-- The calls, made and due, are the events that were read, less those that make none. -/
def OncePerEvent (s : CallbackDispatch F) : Prop :=
  (s.due.map Prod.snd).Sublist (s.taken.filterMap CallbackEvent.call)

theorem snd_made (cb : Option F) (event : CallbackEvent) :
    ((made cb event).toList.map Prod.snd).Sublist event.call.toList := by
  cases cb with
  | none => simp [made]
  | some f => cases hcall : event.call <;> simp [made, hcall]

theorem OncePerEvent.step {s t : CallbackDispatch F} {a : Action F} (hvalid : s.Valid)
    (h : s.OncePerEvent) (hstep : s.step a = some t) : t.OncePerEvent := by
  obtain ⟨event, htaken, hdue, _⟩ | ⟨htaken, hdue, _⟩ := step_effect hvalid hstep
  · rw [OncePerEvent, htaken, hdue, List.map_append, List.filterMap_append]
    refine h.append ?_
    have hcall : [event].filterMap CallbackEvent.call = event.call.toList := by
      cases hcall : event.call <;> simp [hcall]
    rw [hcall]
    exact snd_made _ event
  · rwa [OncePerEvent, htaken, hdue]

theorem once_run {s : CallbackDispatch F} {acts : List (Action F)}
    (hrun : run step start acts = some s) : s.OncePerEvent :=
  (invariant (P := fun _ _ => True) (I := fun s => s.Valid ∧ s.OncePerEvent)
    (fun _ _ _ h _ hstep => ⟨h.1.step hstep, h.2.step h.1 hstep⟩)
    ⟨valid_start, List.Sublist.refl _⟩ (along_of_forall (fun _ _ => trivial) start acts) hrun).2

theorem Valid.taken_prefix {s : CallbackDispatch F} (h : s.Valid) :
    s.taken <+: s.manager.accepted := by
  rw [h.manager.fifo, taken]
  split
  · exact List.prefix_append _ _
  · rw [List.append_nil, List.append_assoc]
    exact List.prefix_append _ _

/-- After the thread has left its loop, nothing is due and nothing is called any more. -/
theorem exited_step {s t : CallbackDispatch F} {a : Action F} (hexited : s.manager.thread = .exited)
    (hstep : s.step a = some t) : t.manager.thread = .exited ∧ t.calls = s.calls := by
  obtain ⟨_, _, _, rfl⟩ | ⟨event, _, hthread, _, _⟩ | ⟨event, _, _, _, hthread, _, _, _⟩ |
    ⟨b, m, _, hb, hm, rfl⟩ := step_cases hstep
  · exact ⟨hexited, rfl⟩
  · cases hexited.symm.trans hthread
  · cases hexited.symm.trans hthread
  · refine ⟨?_, rfl⟩
    cases b with
    | sendEvent event =>
      obtain rfl := Option.some.inj hm
      unfold CallbackManager.sendEvent
      split_ifs <;> exact hexited
    | callDrain | storeShutdown | dropSender | joinThread =>
      simp only [CallbackManager.step, Option.ite_none_right_eq_some, Option.some.injEq] at hm
      obtain ⟨_, rfl⟩ := hm
      exact hexited
    | loadShutdown => cases hexited.symm.trans (CallbackManager.loadShutdown_cases hm).1
    | blockingRecv => cases hexited.symm.trans (CallbackManager.blockingRecv_cases hm).1
    | dispatchEvent => exact absurd rfl hb

/-- In every run, each accepted event is called at most once and the calls are in the order in which
the events were accepted; once `join_thread` has returned, no callback is called any more, whatever is
sent or registered after it. -/
theorem calls_once_until_joined {s : CallbackDispatch F} {front : List (Action F)}
    (hfront : run step start front = some s) :
    (s.calls.map Prod.snd).Sublist (s.manager.accepted.filterMap CallbackEvent.call) ∧
    (s.manager.drain = .joined → ∀ back t, run step s back = some t → t.calls = s.calls) := by
  have hvalid := valid_run valid_start hfront
  constructor
  · have hcalls : (s.calls.map Prod.snd).Sublist (s.due.map Prod.snd) :=
      (List.sublist_append_left _ _).map _
    exact (hcalls.trans (once_run hfront)).trans (hvalid.taken_prefix.sublist.filterMap _)
  · intro hjoined back t hrun
    refine (invariant (P := fun _ _ => True)
      (I := fun m => m.manager.thread = .exited ∧ m.calls = s.calls) ?_
      ⟨hvalid.manager.joined hjoined, rfl⟩ (along_of_forall (fun _ _ => trivial) s back) hrun).2
    rintro m a n ⟨hexited, hcalls⟩ - hstep
    obtain ⟨hexited', hcalls'⟩ := exited_step hexited hstep
    exact ⟨hexited', hcalls'.trans hcalls⟩

theorem called_once_then_joined :
    let front : List (Action Nat) := [.registerPeerStatusCallback (some 0),
      .manager (.sendEvent (.peerStatusChanged "b" 2)), .manager .loadShutdown,
      .manager .blockingRecv, .readCallback, .manager .dispatchEvent, .manager .loadShutdown,
      .manager .callDrain, .manager .storeShutdown, .manager .dropSender, .manager .blockingRecv,
      .manager .joinThread]
    ∃ s, run step start front = some s ∧ s.calls = [(0, .peerStatus "b" 2)] ∧
      (s.calls.map Prod.snd).Sublist (s.manager.accepted.filterMap CallbackEvent.call) ∧
      (s.manager.drain = .joined → ∀ back t, run step s back = some t → t.calls = s.calls) := by
  intro front
  exact ⟨_, rfl, rfl, @calls_once_until_joined Nat _ front rfl⟩

def LosesOthers (kind : CallbackKind) (s : CallbackDispatch F) : Action F → Prop
  | .manager .storeShutdown => ∀ event ∈ s.manager.lost, event.kind ≠ kind
  | _ => True

instance (kind : CallbackKind) (s : CallbackDispatch F) :
    (a : Action F) → Decidable (LosesOthers kind s a)
  | .manager .storeShutdown =>
    inferInstanceAs (Decidable (∀ event ∈ s.manager.lost, event.kind ≠ kind))
  | .manager (.sendEvent _) | .manager .callDrain | .manager .dropSender | .manager .loadShutdown
  | .manager .blockingRecv | .manager .dispatchEvent | .manager .joinThread | .readCallback | .registerConnectionResultCallback _ | .registerLeaderChangedCallback _
  | .registerPeerStatusCallback _ | .registerReceiveCallback _ | .registerReconnectCallback _ =>
    .isTrue trivial

/-- Once the flag is set, no event of the kind is lost. -/
def KeepsKind (kind : CallbackKind) (s : CallbackDispatch F) : Prop :=
  s.manager.shutdown = true → ∀ event ∈ s.manager.lost, event.kind ≠ kind

theorem keepsKind_manager {kind : CallbackKind} {s t : CallbackDispatch F} {a : CallbackManager.Action}
    (hvalid : s.Valid) (h : s.KeepsKind kind)
    (ha : a = .storeShutdown → ∀ event ∈ s.manager.lost, event.kind ≠ kind)
    (hstep : s.manager.step a = some t.manager) : t.KeepsKind kind := by
  obtain ⟨rfl, _, _, hlost⟩ | ⟨_, hset, hlost⟩ := CallbackManager.flagged_step hvalid.manager hstep
  · intro _
    rw [hlost]
    exact ha rfl
  · intro hflag
    rw [hset] at hflag
    rw [hlost hflag]
    exact h hflag

theorem keepsKind_step {kind : CallbackKind} {s t : CallbackDispatch F} {a : Action F}
    (hvalid : s.Valid) (h : s.KeepsKind kind) (ha : LosesOthers kind s a) (hstep : s.step a = some t) :
    t.KeepsKind kind := by
  obtain ⟨_, _, _, rfl⟩ | ⟨_, _, _, _, rfl⟩ | ⟨_, _, m, rfl, _, _, hm, rfl⟩ |
    ⟨b, m, rfl, _, hm, rfl⟩ := step_cases hstep
  · exact h
  · exact h
  · exact keepsKind_manager hvalid h (fun hno => by cases hno) hm
  · refine keepsKind_manager hvalid h ?_ hm
    rintro rfl
    exact ha

theorem kind_dispatched {kind : CallbackKind} {s : CallbackDispatch F} (hvalid : s.Valid)
    (h : s.KeepsKind kind) (hexited : s.manager.thread = .exited) :
    (s.manager.before.filter fun event => event.kind = kind) <+:
      s.manager.dispatched.filter fun event => event.kind = kind := by
  obtain ⟨hstarts, _⟩ | ⟨hsplit, _⟩ := hvalid.manager.dispatched_cases hexited
  · exact hstarts.filter _
  · have hlost : (s.manager.lost.filter fun event => event.kind = kind) = [] := by
      simpa [List.filter_eq_nil_iff] using h (hvalid.manager.stopped hexited)
    exact ⟨[], by rw [hsplit, List.filter_append, hlost, List.append_nil, List.append_nil]⟩

/-- A callback that is registered before any event is read, and left in its slot, has been called for
every event of its kind accepted before `drain_and_shutdown` by the time `join_thread` returns, unless
such an event was in the queue when the flag was set and was not the one that the thread still
received. -/
theorem registered_callback_gets_all {kind : CallbackKind} {f : F} {s t : CallbackDispatch F}
    {front back : List (Action F)} (hfront : run step start front = some s) (htaken : s.taken = [])
    (hslot : s.callbacks kind = some f) (hback : ∀ a ∈ back, a.registers ≠ some kind)
    (hrun : run step s back = some t) (hkept : Along step (LosesOthers kind) start (front ++ back))
    (hjoined : t.manager.drain = .joined) :
    ((t.manager.before.filter fun event => event.kind = kind).filterMap CallbackEvent.call).map
      (fun call => (f, call)) <+: callsOf kind t.calls := by
  have hrun' : run step start (front ++ back) = some t := run_append_iff.mpr ⟨s, hfront, hrun⟩
  have hinv : t.Valid ∧ t.KeepsKind kind :=
    invariant (I := fun m => m.Valid ∧ m.KeepsKind kind)
      (fun _ _ _ h ha hstep => ⟨h.1.step hstep, keepsKind_step h.1 h.2 ha hstep⟩)
      ⟨valid_start, fun hflag => by cases hflag⟩ hkept hrun'
  obtain ⟨hvalid, hkeeps⟩ := hinv
  have hexited := hvalid.manager.joined hjoined
  have hcb : t.cb = none := by
    cases hcb : t.cb with
    | none => rfl
    | some cb =>
      obtain ⟨event, hthread⟩ := hvalid.reading (by rw [hcb]; rfl)
      cases hexited.symm.trans hthread
  have htaken' : t.taken = t.manager.dispatched := by simp [taken, hcb]
  -- Nothing was read before `s`, so nothing was due there either.
  have hnone : s.due = [] := by
    have honce := once_run hfront
    rw [OncePerEvent, htaken] at honce
    exact List.map_eq_nil_iff.mp (List.sublist_nil.mp honce)
  obtain ⟨-, events, hevents, hdue⟩ := Continues.of_run (valid_run valid_start hfront) hback hrun
  rw [htaken, List.nil_append, htaken'] at hevents
  have hcalls : callsOf kind t.calls =
      (t.manager.dispatched.filter fun event => event.kind = kind).filterMap (made (some f)) := by
    have hdue' : t.due = t.calls := by simp [due, pending, hcb]
    rw [hdue', hnone, hslot, ← hevents] at hdue
    simpa [callsOf] using hdue
  have hmade : made (some f) = fun event => event.call.map fun call => (f, call) := rfl
  rw [hcalls, hmade, List.map_filterMap]
  exact (kind_dispatched hvalid hkeeps hexited).filterMap _

/-- The flag is set while the message is dispatched and a status is in the queue: the status is lost. -/
theorem registered_callback_gets_message :
    let front : List (Action Nat) := [.registerReceiveCallback (some 0)]
    let back : List (Action Nat) := [.manager (.sendEvent (.received "b" [104, 105] 256 3)),
      .manager .loadShutdown, .manager .blockingRecv, .readCallback,
      .manager (.sendEvent (.peerStatusChanged "b" 0)), .manager .callDrain, .manager .storeShutdown,
      .manager .dispatchEvent, .manager .loadShutdown, .manager .dropSender, .manager .joinThread]
    ∃ t, run step start (front ++ back) = some t ∧
      [(0, .receive "b" [104, 105] 2 256 3)] <+: callsOf .receive t.calls := by
  intro front back
  exact ⟨_, rfl, @registered_callback_gets_all Nat .receive 0 _ _ front back rfl rfl rfl (by decide) rfl
    (by decide) rfl⟩

end CallbackDispatch

end MetaMystia

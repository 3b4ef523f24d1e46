import Mathlib.Data.List.Chain
import MetaMystia.Node.MembershipEvents
import MetaMystia.Node.NetworkState

/-! # Peer status callbacks

The membership event watcher turns every event into a `PeerStatusChanged` callback.
The ping task reports the peers that have timed out by a callback of its own, beside
the event that its status update sends.
-/

namespace MetaMystia

open Runs

namespace MembershipManager

def Op.peerId : Op → PeerId
  | .addPeer peerId _ _ | .removePeer peerId | .updateStatus peerId _ | .updateLastSeen peerId _
  | .handlePong peerId _ _ _ => peerId

/-- The calls of the message handler and of `DisconnectPeer`: they set no status but `Connected`. -/
def Op.byHandler : Op → Bool
  | .updateStatus _ newStatus => newStatus == .connected
  | _ => true

/-- The status of a peer, one that is not in the table counting as disconnected. -/
def shownStatus (self : MembershipManager) (peerId : PeerId) : PeerStatus :=
  (self.getPeerStatus peerId).getD .disconnected

end MembershipManager

namespace NetworkState

/-- The message handler changes the membership by calls of its kind only. -/
theorem membership_handleMembership (s : NetworkState) (peerId : PeerId) (now : Clock)
    (msg : InternalMessage) :
    ∃ ops : List MembershipManager.Op, (∀ op ∈ ops, op.byHandler = true) ∧
      (s.handleMembership peerId now msg).1.membership = ops.foldl MembershipManager.apply s.membership := by
  have hconnected (p : PeerId) : ∃ ops : List MembershipManager.Op, (∀ op ∈ ops, op.byHandler = true) ∧
      (s.peerConnected p now).membership = ops.foldl MembershipManager.apply s.membership := by
    unfold peerConnected
    cases haddr : s.transport.getPeerAddr p with
    | none => exact ⟨[], by simp, rfl⟩
    | some addr =>
      cases hadd : s.membership.addPeer p addr now.instant with
      | ok added =>
        exact ⟨[.addPeer p addr now.instant], by simp [MembershipManager.Op.byHandler],
          by simp [MembershipManager.apply, hadd]⟩
      | error e =>
        exact ⟨[.updateStatus p .connected, .updateLastSeen p now.instant],
          by simp [MembershipManager.Op.byHandler], by simp [MembershipManager.apply, hadd]⟩
  cases msg with
  | handshake remoteId listenPort version sessionId => exact hconnected remoteId
  | handshakeAck remoteId listenPort success reason =>
    cases success with
    | true => exact hconnected remoteId
    | false => exact ⟨[], by simp, rfl⟩
  | peerLeave leavingId => exact ⟨[.removePeer leavingId], by simp [MembershipManager.Op.byHandler], rfl⟩
  | ping timestampMs | heartbeat term leaderId timestampMs | heartbeatResponse term timestampMs =>
    exact ⟨[.updateLastSeen peerId now.instant], by simp [MembershipManager.Op.byHandler], rfl⟩
  | pong timestampMs =>
    exact ⟨[.handlePong peerId timestampMs now.instant now.timestampMs],
      by simp [MembershipManager.Op.byHandler], rfl⟩
  | _ => exact ⟨[], by simp, rfl⟩

theorem membership_disconnectPeer (s : NetworkState) (peerId : PeerId) (fits : Bool) :
    (s.disconnectPeer peerId fits).membership = s.membership ∨
      (s.disconnectPeer peerId fits).membership = s.membership.apply (.removePeer peerId) := by
  cases s.disconnectPeer_cases peerId fits with
  | inl heq => exact .inl (congrArg membership heq)
  | inr heq => exact .inr (congrArg membership heq)

theorem membership_markTimedOut (s : NetworkState) (peerId : PeerId) :
    (s.markTimedOut peerId).membership = s.membership.apply (.updateStatus peerId .disconnected) := rfl

end NetworkState

/-- The status that the watcher reports for an event. -/
def MembershipEvent.shown (event : MembershipEvent) : PeerStatus := event.outcome.getD .disconnected

/-- `received` counts the events that the watcher has received. `timedOut` is what is left of the
list of the ping task's tick, `reporting` is set while the status of its first peer is updated and
the peer is not yet reported. `entryChanges` records every change of a shown status. -/
structure StatusCallbacks where
  calls : MembershipCalls
  received : Nat
  timedOut : List PeerId
  reporting : Bool
  callbacks : List (PeerId × PeerStatus)
  entryChanges : List (PeerId × PeerStatus)

namespace StatusCallbacks

inductive Action
  | call (op : MembershipManager.Op)
  | send (call : Nat)
  | watch
  | checkTimeouts (now : Nat)
  | updateTimedOut
  | reportTimedOut

def start (manager : MembershipManager) : StatusCallbacks := ⟨.start manager, 0, [], false, [], []⟩

def call (s : StatusCallbacks) (op : MembershipManager.Op) : StatusCallbacks :=
  let calls := s.calls.call op
  let status := calls.manager.shownStatus op.peerId
  { s with
    calls
    entryChanges :=
      if status = s.calls.manager.shownStatus op.peerId then s.entryChanges
      else s.entryChanges ++ [(op.peerId, status)] }

def step (s : StatusCallbacks) : Action → Option StatusCallbacks
  | .call op => if op.byHandler then some (s.call op) else none
  | .send call => (s.calls.step (.send call)).map fun calls => { s with calls }
  | .watch =>
    s.calls.outbox.sent[s.received]?.map fun event =>
      { s with received := s.received + 1, callbacks := s.callbacks ++ [(event.peerId, event.shown)] }
  | .checkTimeouts now =>
    if s.timedOut = [] then some { s with timedOut := s.calls.manager.checkTimeouts now } else none
  | .updateTimedOut =>
    match s.timedOut, s.reporting with
    | peerId :: _, false => some { s.call (.updateStatus peerId .disconnected) with reporting := true }
    | _, _ => none
  | .reportTimedOut =>
    match s.timedOut, s.reporting with
    | peerId :: rest, true =>
      some { s with
        timedOut := rest
        reporting := false
        callbacks := s.callbacks ++ [(peerId, .disconnected)] }
    | _, _ => none

/-- The callbacks, or the changes, of one peer. -/
def statusesOf (peerId : PeerId) (reports : List (PeerId × PeerStatus)) : List PeerStatus :=
  (Outbox.about Prod.fst peerId reports).map Prod.snd

/-- The ping task does not find the peer timed out, and calls send their events about the peer in
the order in which they changed its entry. -/
def Undisturbed (peerId : PeerId) (s : StatusCallbacks) : Action → Prop
  | .checkTimeouts now => peerId ∉ s.calls.manager.checkTimeouts now
  | .send call => s.calls.outbox.Oldest MembershipEvent.peerId peerId call
  | _ => True

instance (peerId : PeerId) (s : StatusCallbacks) : (a : Action) → Decidable (Undisturbed peerId s a)
  | .checkTimeouts _ => inferInstanceAs (Decidable (¬ _))
  | .send call => inferInstanceAs (Decidable (s.calls.outbox.Oldest MembershipEvent.peerId peerId call))
  | .call _ | .watch | .updateTimedOut | .reportTimedOut => .isTrue trivial

/-- Every event has been sent and received. -/
def Consumed (s : StatusCallbacks) : Prop :=
  s.calls.outbox.pending = [] ∧ s.received = s.calls.outbox.sent.length

/-- One callback for each change of the entry, and no two in a row with the same status. -/
def OncePerChange (s : StatusCallbacks) (peerId : PeerId) : Prop :=
  (statusesOf peerId s.callbacks).IsChain (· ≠ ·) ∧
    (statusesOf peerId s.callbacks).length = (statusesOf peerId s.entryChanges).length

variable {s t : StatusCallbacks} {peerId : PeerId}

theorem statusesOf_concat_of_eq {reports : List (PeerId × PeerStatus)} {report : PeerId × PeerStatus}
    (h : report.1 = peerId) :
    statusesOf peerId (reports ++ [report]) = statusesOf peerId reports ++ [report.2] := by
  simp [statusesOf, Outbox.about_cons_of_eq h]

theorem statusesOf_concat_of_ne {reports : List (PeerId × PeerStatus)} {report : PeerId × PeerStatus}
    (h : report.1 ≠ peerId) :
    statusesOf peerId (reports ++ [report]) = statusesOf peerId reports := by
  simp [statusesOf, Outbox.about_cons_of_ne h]

/-- What a run in which the peer does not time out keeps. -/
structure Faithful (s : StatusCallbacks) (peerId : PeerId) : Prop where
  ordered : s.calls.outbox.Ordered MembershipEvent.peerId peerId
  untimed : peerId ∉ s.timedOut
  received : s.received ≤ s.calls.outbox.sent.length
  reported : statusesOf peerId s.callbacks =
    (Outbox.about MembershipEvent.peerId peerId (s.calls.outbox.sent.take s.received)).map
      MembershipEvent.shown
  recorded : statusesOf peerId s.entryChanges =
    (Outbox.about MembershipEvent.peerId peerId s.calls.outbox.changes).map MembershipEvent.shown
  member : s.calls.manager.getPeerStatus peerId = none ∨
    s.calls.manager.getPeerStatus peerId = some .connected
  chain : (statusesOf peerId s.entryChanges).IsChain (· ≠ ·)
  current : (statusesOf peerId s.entryChanges).getLastD .disconnected =
    s.calls.manager.shownStatus peerId

theorem faithful_start (manager : MembershipManager) (h : manager.peers = ∅) :
    (start manager).Faithful peerId where
  ordered := Outbox.ordered_empty
  untimed := List.not_mem_nil
  received := Nat.le_refl 0
  reported := rfl
  recorded := rfl
  member := .inl (by simp [start, MembershipCalls.start, MembershipManager.getPeerStatus, h])
  chain := List.IsChain.nil
  current := by
    simp [start, MembershipCalls.start, MembershipManager.shownStatus, MembershipManager.getPeerStatus,
      statusesOf, h]

theorem peerId_of_causes {op : MembershipManager.Op} {event : MembershipEvent} (h : op.Causes event) :
    event.peerId = op.peerId := by
  cases op <;> cases event <;> simp_all [MembershipManager.Op.Causes, MembershipManager.Op.peerId]

theorem outcome_of_causes {op : MembershipManager.Op} {event : MembershipEvent} (h : op.Causes event)
    (hop : op.byHandler) : event.outcome = none ∨ event.outcome = some .connected := by
  cases op <;> cases event <;> simp_all [MembershipManager.Op.Causes, MembershipManager.Op.byHandler]

theorem entryChanges_call (s : StatusCallbacks) (op : MembershipManager.Op) :
    (s.call op).entryChanges =
      if (s.calls.call op).manager.shownStatus op.peerId = s.calls.manager.shownStatus op.peerId then
        s.entryChanges
      else s.entryChanges ++ [(op.peerId, (s.calls.call op).manager.shownStatus op.peerId)] := rfl

theorem statusesOf_entryChanges_call (s : StatusCallbacks) (op : MembershipManager.Op)
    (h : (s.calls.call op).manager.shownStatus peerId = s.calls.manager.shownStatus peerId ∨
      op.peerId ≠ peerId) :
    statusesOf peerId (s.call op).entryChanges = statusesOf peerId s.entryChanges := by
  rw [entryChanges_call]
  split_ifs with hsame
  · rfl
  · refine statusesOf_concat_of_ne ?_
    rintro rfl
    exact h.elim hsame fun hne => hne rfl

/-- A call that changes nothing about the peer. -/
theorem Faithful.call_of_keeps (h : s.Faithful peerId) {op : MembershipManager.Op}
    {events : List MembershipEvent} (hbox : (s.calls.call op).outbox = s.calls.outbox.record events)
    (hevents : Outbox.about MembershipEvent.peerId peerId events = [])
    (hstatus : (s.calls.call op).manager.getPeerStatus peerId = s.calls.manager.getPeerStatus peerId) :
    (s.call op).Faithful peerId := by
  have hshown : (s.calls.call op).manager.shownStatus peerId = s.calls.manager.shownStatus peerId :=
    congrArg (·.getD .disconnected) hstatus
  have hchanges := s.statusesOf_entryChanges_call op (.inl hshown)
  have hcalls : (s.call op).calls = s.calls.call op := rfl
  constructor
  · rw [hcalls, hbox]
    exact h.ordered.record events
  · exact h.untimed
  · rw [hcalls, hbox]
    exact h.received
  · rw [hcalls, hbox]
    exact h.reported
  · rw [hchanges, hcalls, hbox, Outbox.record, Outbox.about_append, hevents, List.append_nil]
    exact h.recorded
  · rw [hcalls, hstatus]
    exact h.member
  · rw [hchanges]
    exact h.chain
  · rw [hchanges, hcalls, hshown]
    exact h.current

/-- A call that changes the entry of the peer, to something that was not shown before. -/
theorem Faithful.call_of_changes (h : s.Faithful peerId) {op : MembershipManager.Op}
    {event : MembershipEvent} (hp : op.peerId = peerId) (hkey : event.peerId = peerId)
    (hbox : (s.calls.call op).outbox = s.calls.outbox.record [event])
    (houtcome : event.outcome = none ∨ event.outcome = some .connected)
    (hbefore : s.calls.manager.getPeerStatus peerId ≠ event.outcome)
    (hafter : (s.calls.call op).manager.getPeerStatus peerId = event.outcome) :
    (s.call op).Faithful peerId := by
  have hshown : (s.calls.call op).manager.shownStatus op.peerId = event.shown := by
    rw [hp, MembershipManager.shownStatus, hafter, MembershipEvent.shown]
  have hnew : s.calls.manager.shownStatus peerId ≠ event.shown := by
    rcases h.member with hold | hold <;> rcases houtcome with hnext | hnext <;>
      simp_all [MembershipManager.shownStatus, MembershipEvent.shown]
  have hentry : (s.call op).entryChanges = s.entryChanges ++ [(op.peerId, event.shown)] := by
    rw [entryChanges_call, hshown, hp]
    exact if_neg hnew.symm
  have hcalls : (s.call op).calls = s.calls.call op := rfl
  constructor
  · rw [hcalls, hbox]
    exact h.ordered.record _
  · exact h.untimed
  · rw [hcalls, hbox]
    exact h.received
  · rw [hcalls, hbox]
    exact h.reported
  · rw [hentry, hcalls, hbox, statusesOf_concat_of_eq hp, h.recorded, Outbox.record,
      Outbox.about_append, Outbox.about_cons_of_eq hkey]
    simp
  · rw [hcalls, hafter]
    exact houtcome
  · rw [hentry, statusesOf_concat_of_eq hp, List.isChain_append]
    refine ⟨h.chain, List.IsChain.singleton _, ?_⟩
    rintro last hlast status hstatus
    have hcurrent := h.current
    rw [List.getLastD_eq_getLast?, Option.mem_def.mp hlast] at hcurrent
    obtain rfl : event.shown = status := by simpa using hstatus
    exact fun heq => hnew (hcurrent.symm.trans heq)
  · rw [hentry, statusesOf_concat_of_eq hp, hcalls, ← hp, hshown]
    simp

theorem Faithful.call (h : s.Faithful peerId) {op : MembershipManager.Op}
    (hop : op.byHandler = true ∨ op.peerId ≠ peerId) : (s.call op).Faithful peerId := by
  obtain ⟨hbox, hstatus⟩ | ⟨event, hcauses, hbox, hbefore, hafter, hothers⟩ := s.calls.call_cases op
  · have hnone : (s.calls.call op).outbox = s.calls.outbox.record [] := by simp [hbox, Outbox.record]
    exact h.call_of_keeps hnone rfl (hstatus peerId)
  · have hevent := peerId_of_causes hcauses
    by_cases hp : op.peerId = peerId
    · have hkey : event.peerId = peerId := hevent.trans hp
      have houtcome := outcome_of_causes hcauses (hop.resolve_right (not_not.mpr hp))
      rw [hkey] at hbefore hafter
      exact h.call_of_changes hp hkey hbox houtcome hbefore hafter
    · refine h.call_of_keeps hbox ?_ (hothers peerId ?_)
      · exact Outbox.about_cons_of_ne (hevent.trans_ne hp)
      · exact (hevent.trans_ne hp).symm

theorem Faithful.send (h : s.Faithful peerId) {call : Nat} {calls : MembershipCalls}
    (holdest : s.calls.outbox.Oldest MembershipEvent.peerId peerId call)
    (hsend : s.calls.step (.send call) = some calls) : ({ s with calls }).Faithful peerId := by
  obtain ⟨outbox, hbox, rfl⟩ := Option.map_eq_some_iff.mp hsend
  have hordered := h.ordered.send holdest hbox
  obtain ⟨event, front, back, _, _, _, _, rfl⟩ := Outbox.send_cases hbox
  have htake : (s.calls.outbox.sent ++ [event]).take s.received = s.calls.outbox.sent.take s.received :=
    List.take_append_of_le_length h.received
  refine ⟨hordered, h.untimed, ?_, ?_, h.recorded, h.member, h.chain, h.current⟩
  · exact h.received.trans (by simp)
  · simpa only [htake] using h.reported

theorem Faithful.watch (h : s.Faithful peerId) {event : MembershipEvent}
    (hevent : s.calls.outbox.sent[s.received]? = some event) :
    ({ s with received := s.received + 1, callbacks := s.callbacks ++ [(event.peerId, event.shown)] }
      ).Faithful peerId := by
  obtain ⟨hlt, rfl⟩ := List.getElem?_eq_some_iff.mp hevent
  refine ⟨h.ordered, h.untimed, hlt, ?_, h.recorded, h.member, h.chain, h.current⟩
  simp only [List.take_succ_eq_append_getElem hlt, Outbox.about_append, List.map_append, ← h.reported]
  by_cases hkey : s.calls.outbox.sent[s.received].peerId = peerId
  · rw [statusesOf_concat_of_eq hkey, Outbox.about_cons_of_eq hkey]
    simp
  · rw [statusesOf_concat_of_ne hkey, Outbox.about_cons_of_ne hkey]
    simp

theorem Faithful.ne_of_timedOut (h : s.Faithful peerId) {timedOut : PeerId} {rest : List PeerId}
    (hlist : s.timedOut = timedOut :: rest) : timedOut ≠ peerId := by
  rintro rfl
  exact h.untimed (hlist ▸ List.mem_cons_self)

theorem Faithful.step {a : Action} (h : s.Faithful peerId) (ha : Undisturbed peerId s a)
    (hstep : s.step a = some t) : t.Faithful peerId := by
  cases a with
  | call op =>
    simp only [StatusCallbacks.step] at hstep
    split_ifs at hstep with hop
    obtain rfl := Option.some.inj hstep
    exact h.call (.inl hop)
  | send call =>
    obtain ⟨calls, hsend, rfl⟩ := Option.map_eq_some_iff.mp hstep
    exact h.send ha hsend
  | watch =>
    obtain ⟨event, hevent, rfl⟩ := Option.map_eq_some_iff.mp hstep
    exact h.watch hevent
  | checkTimeouts now =>
    simp only [StatusCallbacks.step] at hstep
    split_ifs at hstep
    obtain rfl := Option.some.inj hstep
    exact { h with untimed := ha }
  | updateTimedOut =>
    simp only [StatusCallbacks.step] at hstep
    split at hstep
    · rename_i timedOut rest hlist _
      obtain rfl := Option.some.inj hstep
      have hcall : (s.call (.updateStatus timedOut .disconnected)).Faithful peerId :=
        h.call (.inr (h.ne_of_timedOut hlist))
      exact { hcall with }
    · exact absurd hstep nofun
  | reportTimedOut =>
    simp only [StatusCallbacks.step] at hstep
    split at hstep
    · rename_i timedOut rest hlist _
      obtain rfl := Option.some.inj hstep
      refine { h with untimed := ?_, reported := ?_ }
      · exact fun hmem => h.untimed (hlist ▸ List.mem_cons_of_mem _ hmem)
      · exact (statusesOf_concat_of_ne (h.ne_of_timedOut hlist)).trans h.reported
    · exact absurd hstep nofun

/-- In every run in which a peer does not time out and calls send their events about it in the order
of their changes: once all events are consumed, there was one callback for each change of its entry,
and never two in a row with the same status. -/
theorem one_callback_per_change {localPeerId : PeerId} {heartbeatIntervalMs : UInt16}
    {heartbeatTimeoutMultiplier : UInt8} {acts : List Action}
    (hquiet : Along StatusCallbacks.step (Undisturbed peerId)
      (start (.new localPeerId heartbeatIntervalMs heartbeatTimeoutMultiplier)) acts)
    (hrun : run StatusCallbacks.step
      (start (.new localPeerId heartbeatIntervalMs heartbeatTimeoutMultiplier)) acts = some t)
    (hdone : t.Consumed) : t.OncePerChange peerId := by
  have h : t.Faithful peerId :=
    invariant (I := fun s => s.Faithful peerId) (fun _ _ _ h ha hstep => h.step ha hstep)
      (faithful_start _ rfl) hquiet hrun
  obtain ⟨hpending, hreceived⟩ := hdone
  have hsame : statusesOf peerId t.callbacks = statusesOf peerId t.entryChanges := by
    have hordered := h.ordered
    rw [Outbox.Ordered, hpending, List.append_nil] at hordered
    rw [h.reported, h.recorded, hreceived, List.take_length, hordered]
  constructor
  · rw [hsame]
    exact h.chain
  · rw [hsame]

/-- A peer joins and leaves while the ping task finds nobody timed out. -/
theorem one_callback_for_join_and_leave :
    let acts : List Action := [.call (.addPeer ⟨"b"⟩ "10.0.0.2:4000" 0), .send 0, .watch,
      .checkTimeouts 400, .call (.removePeer ⟨"b"⟩), .send 0, .watch]
    ∃ t, run step (start (.new ⟨"a"⟩ 500 3)) acts = some t ∧ t.OncePerChange ⟨"b"⟩ := by
  intro acts
  have hquiet : Along step (Undisturbed ⟨"b"⟩) (start (.new ⟨"a"⟩ 500 3)) acts := by
    decide
  exact ⟨_, rfl, one_callback_per_change hquiet rfl ⟨rfl, rfl⟩⟩

/-- A peer joins and times out: the ping task reports it, and so does the watcher. -/
theorem timeout_reported_twice :
    ¬ ∀ acts t, run step (start (.new ⟨"a"⟩ 500 3)) acts = some t → t.Consumed →
      ∀ p, t.OncePerChange p := by
  intro h
  have honce := h [.call (.addPeer ⟨"b"⟩ "10.0.0.2:4000" 0), .send 0, .watch, .checkTimeouts 2000,
    .updateTimedOut, .send 0, .reportTimedOut, .watch] _ rfl ⟨rfl, rfl⟩ ⟨"b"⟩
  exact absurd honce.2 (by decide)

end StatusCallbacks

end MetaMystia

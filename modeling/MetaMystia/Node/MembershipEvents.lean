import MetaMystia.Library.Outbox
import MetaMystia.Library.Runs
import MetaMystia.Membership

/-! # Membership events of concurrent calls

`add_peer`, `remove_peer` and `update_status` change the table under the write lock
and send their event after they have released it. The message handler, the ping task
and `DisconnectPeer` call them from different threads, so two events can be sent in
the order opposite to that of the changes they announce.
-/

namespace MetaMystia

open Runs

@[simp] def MembershipEvent.peerId : MembershipEvent → PeerId
  | .joined peerId => peerId
  | .left peerId => peerId
  | .statusChanged peerId _ _ => peerId

/-- What the change that an event announces leaves in the table. -/
@[simp] def MembershipEvent.outcome : MembershipEvent → Option PeerStatus
  | .joined _ => some .connected
  | .left _ => none
  | .statusChanged _ _ new => some new

namespace MembershipManager

inductive Op
  | addPeer (peerId : PeerId) (addr : String) (now : Nat)
  | removePeer (peerId : PeerId)
  | updateStatus (peerId : PeerId) (newStatus : PeerStatus)
  | updateLastSeen (peerId : PeerId) (now : Nat)
  | handlePong (peerId : PeerId) (sentTimestampMs : UInt64) (now : Nat) (nowMs : UInt64)
deriving DecidableEq

/-- The event that a call sends when it changes the table. -/
def Op.Causes : Op → MembershipEvent → Prop
  | .addPeer peerId _ _, .joined joined => joined = peerId
  | .removePeer peerId, .left left => left = peerId
  | .updateStatus peerId newStatus, .statusChanged changed _ new => changed = peerId ∧ new = newStatus
  | _, _ => False

def apply (self : MembershipManager) : Op → MembershipManager
  | .addPeer peerId addr now =>
    match self.addPeer peerId addr now with
    | .ok added => added
    | .error _ => self
  | .removePeer peerId => self.removePeer peerId
  | .updateStatus peerId newStatus => self.updateStatus peerId newStatus
  | .updateLastSeen peerId now => self.updateLastSeen peerId now
  | .handlePong peerId sentTimestampMs now nowMs => self.handlePong peerId sentTimestampMs now nowMs

/-- One change of the table and the event that tells it. -/
structure Announces (manager next : MembershipManager) (event : MembershipEvent) : Prop where
  sent : next.eventTx = manager.eventTx ++ [event]
  before : manager.getPeerStatus event.peerId ≠ event.outcome
  after : next.getPeerStatus event.peerId = event.outcome
  others : ∀ p, p ≠ event.peerId → next.getPeerStatus p = manager.getPeerStatus p

variable {self : MembershipManager} {peerId : PeerId}

theorem getPeerStatus_eq_none_iff : self.getPeerStatus peerId = none ↔ peerId ∉ self.peers := by
  rw [getPeerStatus, Option.map_eq_none_iff, AList.lookup_eq_none]

theorem status_insert {info : PeerInfo} {events : List MembershipEvent} {peer : PeerId} :
    ({ self with peers := self.peers.insert peerId info, eventTx := events }).getPeerStatus peer =
      if peer = peerId then some info.status else self.getPeerStatus peer :=
  Assoc.map_lookup_insert PeerInfo.status

/-- A call leaves every status as it is and sends nothing, or changes one peer and tells so. -/
theorem apply_cases (self : MembershipManager) (op : Op) :
    ((self.apply op).eventTx = self.eventTx ∧
      ∀ p, (self.apply op).getPeerStatus p = self.getPeerStatus p) ∨
    ∃ event, op.Causes event ∧ self.Announces (self.apply op) event := by
  cases op with
  | addPeer peerId addr now =>
    obtain ⟨_, heq⟩ | ⟨hnew, heq⟩ := self.addPeer_cases peerId addr now
    · exact .inl (by simp [apply, heq])
    · refine .inr ⟨.joined peerId, rfl, by simp [apply, heq], ?_, ?_, ?_⟩
      · simp [getPeerStatus_eq_none_iff.mpr hnew]
      · simp [apply, heq, status_insert, PeerInfo.new]
      · intro p hne
        simp [apply, heq, status_insert, show p ≠ peerId from hne]
  | removePeer peerId =>
    obtain ⟨_, heq⟩ | ⟨hmem, heq⟩ := self.removePeer_cases peerId
    · exact .inl (by simp [apply, heq])
    · refine .inr ⟨.left peerId, rfl, by simp [apply, heq], ?_, ?_, ?_⟩
      · exact fun hnone => getPeerStatus_eq_none_iff.mp hnone hmem
      · simp [apply, heq, getPeerStatus]
      · intro p hne
        exact removePeer_status_of_ne hne
  | updateStatus peerId newStatus =>
    obtain ⟨_, heq⟩ | ⟨info, hinfo, hnew, heq⟩ := self.updateStatus_cases peerId newStatus
    · exact .inl (by simp [apply, heq])
    · have hold : self.getPeerStatus peerId = some info.status := by
        rw [getPeerStatus, hinfo]
        rfl
      refine .inr ⟨.statusChanged peerId info.status newStatus, ⟨rfl, rfl⟩, by simp [apply, heq], ?_, ?_, ?_⟩
      · simpa [hold] using hnew
      · simp [apply, heq, status_insert]
      · intro p hne
        simp [apply, heq, status_insert, show p ≠ peerId from hne]
  | updateLastSeen peerId now =>
    exact .inl ⟨updateLastSeen_eventTx now, fun _ => updateLastSeen_status now⟩
  | handlePong peerId sentTimestampMs now nowMs =>
    exact .inl ⟨handlePong_eventTx sentTimestampMs now nowMs,
      fun _ => handlePong_status sentTimestampMs now nowMs⟩

end MembershipManager

/-- One membership manager under concurrent calls. The events are in `outbox` only: `eventTx` of
the manager is empty between the steps. -/
structure MembershipCalls where
  manager : MembershipManager
  outbox : Outbox MembershipEvent

namespace MembershipCalls

inductive Action
  | call (op : MembershipManager.Op)
  | send (call : Nat)

def start (manager : MembershipManager) : MembershipCalls := ⟨{ manager with eventTx := [] }, .empty⟩

def call (s : MembershipCalls) (op : MembershipManager.Op) : MembershipCalls :=
  let updated := ({ s.manager with eventTx := [] }).apply op
  ⟨{ updated with eventTx := [] }, s.outbox.record updated.eventTx⟩

def step (s : MembershipCalls) : Action → Option MembershipCalls
  | .call op => some (s.call op)
  | .send call => (s.outbox.send call).map fun outbox => { s with outbox }

def lastSent (s : MembershipCalls) (peerId : PeerId) : Option MembershipEvent :=
  Outbox.lastAbout MembershipEvent.peerId peerId s.outbox.sent

/-- The event of the call that was the last to change the entry of the peer. -/
def lastChange (s : MembershipCalls) (peerId : PeerId) : Option MembershipEvent :=
  Outbox.lastAbout MembershipEvent.peerId peerId s.outbox.changes

/-- The event tells what the table says now. -/
def Tells (s : MembershipCalls) : MembershipEvent → Prop
  | .left peerId => peerId ∉ s.manager.peers
  | .joined peerId => peerId ∈ s.manager.peers ∧ s.lastChange peerId = some (.joined peerId)
  | .statusChanged peerId _ new =>
    s.manager.getPeerStatus peerId = some new ∧ s.lastChange peerId ≠ some (.joined peerId)

instance (s : MembershipCalls) : (event : MembershipEvent) → Decidable (s.Tells event)
  | .left _ => inferInstanceAs (Decidable (¬ _))
  | .joined _ => inferInstanceAs (Decidable (_ ∧ _))
  | .statusChanged _ _ _ => inferInstanceAs (Decidable (_ ∧ _))

/-- An event that does not tell what the table says is not the last one: another call about the
peer is still to send its event. -/
def Settles (s : MembershipCalls) : Action → Prop
  | .call _ => True
  | .send call =>
    ∀ event ∈ s.outbox.pending[call]?, ¬ s.Tells event →
      ∃ other ∈ s.outbox.pending.eraseIdx call, other.peerId = event.peerId

instance (s : MembershipCalls) : (a : Action) → Decidable (s.Settles a)
  | .call _ => .isTrue trivial
  | .send call => inferInstanceAs (Decidable (∀ event ∈ s.outbox.pending[call]?, _ → _))

/-- No call about the peer is still to send its event. -/
def Finished (s : MembershipCalls) (peerId : PeerId) : Prop :=
  ∀ event ∈ s.outbox.pending, event.peerId ≠ peerId

/-- The last event about the peer agrees with the table. -/
structure EndsOnTruth (s : MembershipCalls) (peerId : PeerId) : Prop where
  absent : s.lastSent peerId = none ∨ s.lastSent peerId = some (.left peerId) ↔
    peerId ∉ s.manager.peers
  added : s.lastSent peerId = some (.joined peerId) ↔
    peerId ∈ s.manager.peers ∧ s.lastChange peerId = some (.joined peerId)
  connected : s.lastSent peerId = some (.joined peerId) →
    s.manager.getPeerStatus peerId = some .connected
  changed : ∀ new, (∃ old, s.lastSent peerId = some (.statusChanged peerId old new)) ↔
    s.manager.getPeerStatus peerId = some new ∧ s.lastChange peerId ≠ some (.joined peerId)

theorem call_cases (s : MembershipCalls) (op : MembershipManager.Op) :
    ((s.call op).outbox = s.outbox ∧
      ∀ p, (s.call op).manager.getPeerStatus p = s.manager.getPeerStatus p) ∨
    ∃ event, op.Causes event ∧ (s.call op).outbox = s.outbox.record [event] ∧
      s.manager.getPeerStatus event.peerId ≠ event.outcome ∧
      (s.call op).manager.getPeerStatus event.peerId = event.outcome ∧
      ∀ p, p ≠ event.peerId → (s.call op).manager.getPeerStatus p = s.manager.getPeerStatus p := by
  obtain ⟨hquiet, hstatus⟩ | ⟨event, hcauses, h⟩ := ({ s.manager with eventTx := [] }).apply_cases op
  · refine .inl ⟨?_, hstatus⟩
    simp [call, hquiet, Outbox.record]
  · refine .inr ⟨event, hcauses, ?_, h.before, h.after, h.others⟩
    simp [call, h.sent]

/-- The table has what the last change of each entry left there. -/
def Recorded (s : MembershipCalls) : Prop :=
  ∀ p, s.manager.getPeerStatus p = (s.lastChange p).bind MembershipEvent.outcome

theorem Recorded.step {s t : MembershipCalls} {a : Action} (h : s.Recorded) (hstep : s.step a = some t) :
    t.Recorded := by
  cases a with
  | call op =>
    obtain rfl := Option.some.inj hstep
    intro p
    obtain ⟨hbox, hstatus⟩ | ⟨event, _, hbox, _, hafter, hothers⟩ := s.call_cases op
    · rw [lastChange, hbox, hstatus]
      exact h p
    · rw [lastChange, hbox, Outbox.record]
      by_cases hp : event.peerId = p
      · rw [Outbox.lastAbout_concat_of_eq hp, ← hp, hafter]
        rfl
      · rw [Outbox.lastAbout_concat_of_ne hp, hothers p (Ne.symm hp)]
        exact h p
  | send call =>
    obtain ⟨outbox, hsend, rfl⟩ := Option.map_eq_some_iff.mp hstep
    obtain ⟨event, front, back, _, _, _, _, rfl⟩ := Outbox.send_cases hsend
    exact h

theorem EndsOnTruth.congr {s t : MembershipCalls} {peerId : PeerId} (h : s.EndsOnTruth peerId)
    (hsent : t.lastSent peerId = s.lastSent peerId)
    (hstatus : t.manager.getPeerStatus peerId = s.manager.getPeerStatus peerId)
    (hchange : t.lastChange peerId = s.lastChange peerId) : t.EndsOnTruth peerId := by
  have hmem : peerId ∈ t.manager.peers ↔ peerId ∈ s.manager.peers := by
    rw [← not_iff_not, ← MembershipManager.getPeerStatus_eq_none_iff, hstatus,
      MembershipManager.getPeerStatus_eq_none_iff]
  constructor
  · rw [hsent, hmem]
    exact h.absent
  · rw [hsent, hmem, hchange]
    exact h.added
  · rw [hsent, hstatus]
    exact h.connected
  · rw [hsent, hstatus, hchange]
    exact h.changed

/-- The last event agrees with the table when it tells what the table says. -/
theorem endsOnTruth_of_tells {s : MembershipCalls} {event : MembershipEvent} (hrecorded : s.Recorded)
    (hsent : s.lastSent event.peerId = some event) (h : s.Tells event) : s.EndsOnTruth event.peerId := by
  cases event with
  | joined peerId =>
    obtain ⟨hmem, hchange⟩ := h
    have hstatus : s.manager.getPeerStatus peerId = some .connected := by
      rw [hrecorded, hchange]
      rfl
    constructor <;> simp_all
  | left peerId =>
    have hstatus := MembershipManager.getPeerStatus_eq_none_iff.mpr h
    constructor <;> simp_all [Tells]
  | statusChanged peerId old new =>
    obtain ⟨hstatus, hchange⟩ := h
    have hmem := MembershipManager.mem_peers_of_status hstatus
    constructor <;> simp_all

theorem EndsOnTruth.tells {s : MembershipCalls} {event : MembershipEvent}
    (h : s.EndsOnTruth event.peerId) (hsent : s.lastSent event.peerId = some event) : s.Tells event := by
  cases event with
  | joined peerId => exact h.added.mp hsent
  | left peerId => exact h.absent.mp (.inr hsent)
  | statusChanged peerId old new => exact (h.changed new).mp ⟨old, hsent⟩

/-- Every peer about which no event is still to be sent has its last event agree with the table. -/
def Truthful (s : MembershipCalls) : Prop := ∀ p, s.Finished p → s.EndsOnTruth p

theorem Truthful.call {s : MembershipCalls} (h : s.Truthful) (op : MembershipManager.Op) :
    (s.call op).Truthful := by
  intro p hfinished
  obtain ⟨hbox, hstatus⟩ | ⟨event, _, hbox, _, _, hothers⟩ := s.call_cases op
  · rw [Finished, hbox] at hfinished
    exact (h p hfinished).congr (by rw [lastSent, hbox, lastSent]) (hstatus p)
      (by rw [lastChange, hbox, lastChange])
  · simp only [Finished, hbox, Outbox.record, List.forall_mem_append, List.forall_mem_singleton]
      at hfinished
    obtain ⟨hold, hnew⟩ := hfinished
    refine (h p hold).congr ?_ (hothers p (Ne.symm hnew)) ?_
    · simp only [lastSent, hbox, Outbox.record]
    · simp only [lastChange, hbox, Outbox.record, Outbox.lastAbout_concat_of_ne hnew]

theorem Truthful.send {s t : MembershipCalls} {call : Nat} (h : s.Truthful) (hrecorded : s.Recorded)
    (hsettles : s.Settles (.send call)) (hstep : s.step (.send call) = some t) : t.Truthful := by
  have ht : t.Recorded := hrecorded.step hstep
  obtain ⟨outbox, hsend, rfl⟩ := Option.map_eq_some_iff.mp hstep
  obtain ⟨event, front, back, hevent, _, hpending, herase, rfl⟩ := Outbox.send_cases hsend
  intro p hfinished
  by_cases hp : event.peerId = p
  · subst hp
    refine endsOnTruth_of_tells ht (Outbox.lastAbout_concat_of_eq rfl) ?_
    by_contra hnot
    obtain ⟨other, hother, hsame⟩ := hsettles event hevent hnot
    exact hfinished other (herase ▸ hother) hsame
  · refine (h p ?_).congr (Outbox.lastAbout_concat_of_ne hp) rfl rfl
    intro other hother
    rw [hpending] at hother
    cases List.mem_append.mp hother with
    | inl hfront => exact hfinished other (List.mem_append_left _ hfront)
    | inr hrest =>
      obtain rfl | hback := List.mem_cons.mp hrest
      · exact hp
      · exact hfinished other (List.mem_append_right _ hback)

/-- In an interleaving of calls, every peer's last event agrees with the table whenever all calls
about the peer have finished, if and only if every event that is sent although it does not tell
what the table says is followed by the event of another call about its peer that was still to come. -/
theorem events_end_on_truth_iff {localPeerId : PeerId} {heartbeatIntervalMs : UInt16}
    {heartbeatTimeoutMultiplier : UInt8} {acts : List Action} :
    Along step Settles (start (.new localPeerId heartbeatIntervalMs heartbeatTimeoutMultiplier)) acts ↔
      Throughout step Truthful
        (start (.new localPeerId heartbeatIntervalMs heartbeatTimeoutMultiplier)) acts := by
  refine (throughout_iff_along (P := fun _ _ => True) (I := fun s => Recorded s ∧ Truthful s) ?_
    (fun _ h => h.2) ?_ (along_of_forall (fun _ _ => trivial) _ _) ?_).symm
  · rintro s a t ⟨hrecorded, htruthful⟩ _ ha hstep
    refine ⟨hrecorded.step hstep, ?_⟩
    cases a with
    | call op =>
      obtain rfl := Option.some.inj hstep
      exact htruthful.call op
    | send call => exact htruthful.send hrecorded ha hstep
  · rintro m a _ _ hfails
    cases a with
    | call op => exact absurd trivial hfails
    | send call =>
      simp only [Settles, Option.mem_def, not_forall] at hfails
      obtain ⟨event, hevent, hwrong, hnone⟩ := hfails
      let box : Outbox MembershipEvent := { m.outbox with
        pending := m.outbox.pending.eraseIdx call
        sent := m.outbox.sent ++ [event] }
      have hsend : m.step (.send call) = some ⟨m.manager, box⟩ := by
        simp [step, Outbox.send, hevent, box]
      have hfinished : Finished ⟨m.manager, box⟩ event.peerId := by
        intro other hother hsame
        exact hnone ⟨other, hother, hsame⟩
      refine ⟨⟨m.manager, box⟩, hsend, ?_⟩
      intro htruthful
      exact hwrong ((htruthful event.peerId hfinished).tells (Outbox.lastAbout_concat_of_eq rfl))
  · refine ⟨fun _ => rfl, fun p _ => ?_⟩
    constructor <;> simp [start, lastSent, lastChange, Outbox.lastAbout, Outbox.empty,
      MembershipManager.new, MembershipManager.getPeerStatus]

/-- The message handler adds a peer that reconnects while `DisconnectPeer` removes it: the peer was
removed last, and `Joined` is the last event. -/
theorem events_end_on_joined :
    ¬ ∀ acts t, run step (start (.new ⟨"a"⟩ 500 3)) acts = some t → t.outbox.pending = [] →
      ∀ p, t.EndsOnTruth p := by
  intro h
  have htruth := h [.call (.addPeer ⟨"b"⟩ "10.0.0.2:4000" 0), .call (.removePeer ⟨"b"⟩), .send 1, .send 0]
    _ rfl rfl ⟨"b"⟩
  exact absurd (htruth.added.mp rfl).1 (by decide)

end MembershipCalls

end MetaMystia

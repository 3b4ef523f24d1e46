import MetaMystia.Node.MembershipEvents

/-! # The membership events as a log

With no two calls at the same time, the events are sent in the order of the
changes. Read from the empty table, they give the status of every peer; `eventTx`
holds all of them, as nothing is received here.
-/

namespace MetaMystia

namespace MembershipEvent

/-- The statuses of the peers after the event, as its reader knows them. -/
def record (status : PeerId → Option PeerStatus) (event : MembershipEvent) :
    PeerId → Option PeerStatus :=
  Function.update status event.peerId event.outcome

def replay (status : PeerId → Option PeerStatus) (events : List MembershipEvent) :
    PeerId → Option PeerStatus :=
  events.foldl record status

theorem replay_concat (status : PeerId → Option PeerStatus) (events : List MembershipEvent)
    (event : MembershipEvent) : replay status (events ++ [event]) = event.record (replay status events) :=
  List.foldl_concat record status event events

end MembershipEvent

namespace MembershipManager

/-- The calls that send events. -/
def Op.Logged : Op → Prop
  | .addPeer .. | .removePeer _ | .updateStatus .. => True
  | .updateLastSeen .. | .handlePong .. => False

def Fails (self : MembershipManager) : Op → Prop
  | .addPeer peerId addr now => ∃ error, self.addPeer peerId addr now = .error error
  | _ => False

/-- The event tells a change of this table. -/
def Fits (self : MembershipManager) : MembershipEvent → Prop
  | .joined peerId => self.hasPeer peerId = false
  | .left peerId => self.hasPeer peerId = true
  | .statusChanged peerId old new => self.getPeerStatus peerId = some old ∧ old ≠ new

/-- A call changes the table and sends one event that tells the change, or leaves everything. -/
structure LogsExactly (manager : MembershipManager) (op : Op) : Prop where
  quiet : manager.Fails op ∨ (manager.apply op).peers = manager.peers → manager.apply op = manager
  loud : manager.apply op ≠ manager → ∃ event, op.Causes event ∧ manager.Fits event ∧
    (manager.apply op).eventTx = manager.eventTx ++ [event]

theorem logged_cases (self : MembershipManager) {op : Op} (hop : op.Logged) :
    self.apply op = self ∨ ∃ event, ¬ self.Fails op ∧ op.Causes event ∧ self.Fits event ∧
      (self.apply op).eventTx = self.eventTx ++ [event] := by
  cases op with
  | addPeer peerId addr now =>
    obtain ⟨_, heq⟩ | ⟨hnew, heq⟩ := self.addPeer_cases peerId addr now
    · exact .inl (by rw [apply, heq])
    · refine .inr ⟨.joined peerId, ?_, rfl, ?_, by rw [apply, heq]⟩
      · rintro ⟨error, herror⟩
        rw [heq] at herror
        cases herror
      · exact decide_eq_false hnew
  | removePeer peerId =>
    obtain ⟨_, heq⟩ | ⟨hmem, heq⟩ := self.removePeer_cases peerId
    · exact .inl (by rw [apply, heq])
    · exact .inr ⟨.left peerId, id, rfl, decide_eq_true hmem, by rw [apply, heq]⟩
  | updateStatus peerId newStatus =>
    obtain ⟨_, heq⟩ | ⟨info, hinfo, hnew, heq⟩ := self.updateStatus_cases peerId newStatus
    · exact .inl (by rw [apply, heq])
    · have hold : self.getPeerStatus peerId = some info.status := by
        rw [getPeerStatus, hinfo]
        rfl
      exact .inr ⟨.statusChanged peerId info.status newStatus, id, ⟨rfl, rfl⟩, ⟨hold, hnew⟩,
        by rw [apply, heq]⟩
  | updateLastSeen | handlePong => exact absurd hop id

theorem logsExactly (self : MembershipManager) {op : Op} (hop : op.Logged) : self.LogsExactly op := by
  obtain hsame | ⟨event, hsucceeds, hcauses, hfits, hsent⟩ := self.logged_cases hop
  · exact ⟨fun _ => hsame, fun hne => absurd hsame hne⟩
  · refine ⟨?_, fun _ => ⟨event, hcauses, hfits, hsent⟩⟩
    rintro (hfails | hpeers)
    · exact absurd hfails hsucceeds
    · -- The status of the peer has changed, so the table has.
      have hstatus : ∀ p, (self.apply op).getPeerStatus p = self.getPeerStatus p := by
        intro p
        rw [getPeerStatus, hpeers, getPeerStatus]
      obtain ⟨hquiet, _⟩ | ⟨other, _, hannounces⟩ := self.apply_cases op
      · exact absurd (hsent.symm.trans hquiet) (by simp)
      · exact absurd ((hstatus other.peerId).symm.trans hannounces.after) hannounces.before

theorem Announces.record_eq {self next : MembershipManager} {event : MembershipEvent}
    (h : self.Announces next event) : event.record self.getPeerStatus = next.getPeerStatus := by
  funext p
  by_cases hp : p = event.peerId
  · subst hp
    rw [MembershipEvent.record, Function.update_self, h.after]
  · rw [MembershipEvent.record, Function.update_of_ne hp, h.others p hp]

theorem replay_apply {self : MembershipManager} {status : PeerId → Option PeerStatus}
    (h : MembershipEvent.replay status self.eventTx = self.getPeerStatus) (op : Op) :
    MembershipEvent.replay status (self.apply op).eventTx = (self.apply op).getPeerStatus := by
  obtain ⟨hquiet, hstatus⟩ | ⟨event, _, hannounces⟩ := self.apply_cases op
  · rw [hquiet, h]
    funext p
    exact (hstatus p).symm
  · rw [hannounces.sent, MembershipEvent.replay_concat, h, hannounces.record_eq]

theorem replay_foldl (localPeerId : PeerId) (intervalMs : UInt16) (multiplier : UInt8) (ops : List Op) :
    MembershipEvent.replay (fun _ => none) (ops.foldl apply (.new localPeerId intervalMs multiplier)).eventTx =
      (ops.foldl apply (.new localPeerId intervalMs multiplier)).getPeerStatus := by
  induction ops using List.reverseRecOn with
  | nil => rfl
  | append_singleton front op ih =>
    rw [List.foldl_concat]
    exact replay_apply ih op

/-- The events sent so far replay from the empty table to the statuses of all peers after every
prefix of the calls; each call sends the one event that tells its change of the table, or leaves
the manager as it was. -/
theorem events_are_log {localPeerId : PeerId} {intervalMs : UInt16} {multiplier : UInt8}
    {ops : List Op} (hops : ∀ op ∈ ops, op.Logged) :
    (∀ front back, ops = front ++ back →
        MembershipEvent.replay (fun _ => none)
            (front.foldl apply (.new localPeerId intervalMs multiplier)).eventTx =
          (front.foldl apply (.new localPeerId intervalMs multiplier)).getPeerStatus) ∧
      ∀ front op back, ops = front ++ op :: back →
        (front.foldl apply (.new localPeerId intervalMs multiplier)).LogsExactly op := by
  constructor
  · rintro front back _
    exact replay_foldl localPeerId intervalMs multiplier front
  · rintro front op back rfl
    exact logsExactly _ (hops op (by simp))

/-- Peer `b` joins, a second `add_peer` fails, `b` times out and leaves while `c` joins. -/
theorem events_are_log_of_two_peers :
    let ops := [Op.addPeer ⟨"b"⟩ "10.0.0.2:9" 1, .addPeer ⟨"b"⟩ "10.0.0.3:9" 2,
      .addPeer ⟨"c"⟩ "10.0.0.4:9" 3, .updateStatus ⟨"b"⟩ .disconnected,
      .updateStatus ⟨"b"⟩ .disconnected, .removePeer ⟨"b"⟩]
    let last := ops.foldl apply (.new ⟨"a"⟩ 500 3)
    last.eventTx = [.joined ⟨"b"⟩, .joined ⟨"c"⟩, .statusChanged ⟨"b"⟩ .connected .disconnected,
        .left ⟨"b"⟩] ∧
      MembershipEvent.replay (fun _ => none) last.eventTx = last.getPeerStatus := by
  intro ops last
  have hops : ∀ op ∈ ops, op.Logged := by simp [ops, Op.Logged]
  exact ⟨by decide, (events_are_log hops).1 ops [] (by simp)⟩

end MembershipManager

end MetaMystia

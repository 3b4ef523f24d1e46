import MetaMystia.Node.NodeTasks

/-! # Which losses of a connection are retried

A read task that has left its loop consults `should_reconnect`, which the message
handler clears when it gets to a `PeerLeave`. The flag of an entry is off exactly
when a `PeerLeave` naming the peer was handled while that entry was in the map.
The ping task removes the entry before the read task sees it, be it the entry of a
connection that came up after the peer was found timed out.
-/

namespace MetaMystia

open Runs TransportManager

/-- The peer that a `PeerLeave` names. -/
def InternalMessage.leaver : InternalMessage → Option PeerId
  | .peerLeave peerId => some peerId
  | _ => none

namespace Node

/-- The handler has handled a `PeerLeave` from `sender` that names the peer while the entry of this
generation was in the map. -/
def LeaveHandled (config : ConnectConfig) (net : NetworkState) (sender peerId : PeerId)
    (generation : Nat) (acts : List Action) : Prop :=
  Occurs (step config)
    (fun s a => s.HandlesLeave sender peerId a ∧
      (s.net.transport.connections.lookup peerId).map (·.controlCancel) = some generation)
    (start net) acts

instance (config : ConnectConfig) (net : NetworkState) (sender peerId : PeerId) (generation : Nat)
    (acts : List Action) : Decidable (LeaveHandled config net sender peerId generation acts) :=
  inferInstanceAs (Decidable (Occurs ..))

/-- Generations are fresh, and the flag of an entry tells whether its peer has left. -/
structure Flagged (config : ConnectConfig) (net : NetworkState) (acts : List Action) (s : Node) :
    Prop where
  numbered : s.toTransport.Numbered
  handled : ∀ sender p generation, LeaveHandled config net sender p generation acts →
    generation < s.net.transport.nextGeneration
  flag : ∀ p conn, s.net.transport.connections.lookup p = some conn →
    (conn.info.shouldReconnect = false ↔
      ∃ sender, LeaveHandled config net sender p conn.controlCancel acts)

variable {config : ConnectConfig} {net : NetworkState} {front : List Action} {m s t : Node} {a : Action}

theorem numbered_step (h : s.toTransport.Numbered) (hstep : s.step config a = some t) :
    t.toTransport.Numbered := by
  cases step_effect hstep with
  | @register i now origin peerId peerAddr _ hi hnew htransport hread =>
    refine h.registers ⟨hnew, .new peerId peerAddr now, ?_⟩
    rw [toTransport, htransport, hread]
    rfl
  | keep hkeeps =>
    refine h.shrinks ⟨?_, hkeeps.transport.counter, hkeeps.readTasks⟩
    intro p new hnew
    obtain ⟨conn, hconn, hgen, _⟩ := hkeeps.transport.old p new hnew
    exact ⟨conn, hconn, hgen.symm⟩

theorem nextGeneration_le_of_step (hstep : s.step config a = some t) :
    s.net.transport.nextGeneration ≤ t.net.transport.nextGeneration := by
  cases step_effect hstep with
  | register _ _ htransport =>
    rw [htransport]
    exact Nat.le_succ _
  | keep hkeeps => exact hkeeps.transport.counter

theorem leaveHandled_concat_iff {sender p : PeerId} {generation : Nat}
    (hm : run (step config) (start net) front = some m) :
    LeaveHandled config net sender p generation (front ++ [a]) ↔
      LeaveHandled config net sender p generation front ∨ (m.HandlesLeave sender p a ∧
        (m.net.transport.connections.lookup p).map (·.controlCancel) = some generation) :=
  occurs_concat_iff hm

theorem Flagged.step (h : Flagged config net front m)
    (hm : run (step config) (start net) front = some m) (hstep : m.step config a = some t) :
    Flagged config net (front ++ [a]) t := by
  have hhandled : ∀ sender p generation, LeaveHandled config net sender p generation (front ++ [a]) →
      generation < m.net.transport.nextGeneration := by
    intro sender p generation hleave
    obtain hold | ⟨_, hentry⟩ := (leaveHandled_concat_iff hm).mp hleave
    · exact h.handled sender p generation hold
    · obtain ⟨conn, hconn, rfl⟩ := Option.map_eq_some_iff.mp hentry
      exact h.numbered.fresh p conn hconn
  refine ⟨numbered_step h.numbered hstep, ?_, ?_⟩
  · intro sender p generation hleave
    exact (hhandled sender p generation hleave).trans_le (nextGeneration_le_of_step hstep)
  · intro p new hnew
    cases step_effect hstep with
    | register _ _ htransport =>
      rw [htransport] at hnew
      obtain ⟨rfl, rfl⟩ | ⟨_, hold⟩ := Assoc.lookup_insert_cases hnew
      · -- a fresh generation: nothing was handled while this entry was in the map
        constructor
        · intro hoff
          cases hoff
        · rintro ⟨sender, hleave⟩
          exact absurd (hhandled sender p _ hleave) (Nat.lt_irrefl _)
      · rw [h.flag p new hold]
        simp only [leaveHandled_concat_iff hm, HandlesLeave, false_and, or_false]
    | keep hkeeps =>
      obtain ⟨conn, hconn, hgen, _, hflag⟩ := hkeeps.transport.old p new hnew
      rw [hflag, h.flag p conn hconn]
      simp only [leaveHandled_concat_iff hm, hconn, hgen, Option.map_some, and_true, exists_or]

theorem flagged_start (hempty : net.transport.connections = ∅) : Flagged config net [] (start net) := by
  refine ⟨Transport.numbered_start net.transport hempty, ?_, ?_⟩
  · exact fun _ _ _ hleave => absurd hleave not_occurs_nil
  · simp [start, hempty]

theorem flagged_run (hempty : net.transport.connections = ∅) {acts : List Action}
    (hrun : run (step config) (start net) acts = some s) : Flagged config net acts s :=
  history_induction (P := fun _ _ => True) (flagged_start hempty)
    (fun _ _ _ _ hm _ h _ hstep => h.step hm hstep) (along_of_forall (fun _ _ => trivial) _ _) hrun

end Node

theorem TransportManager.cleanup_snd {self : TransportManager} {peerId : PeerId} {conn : PeerConnection}
    (h : self.connections.lookup peerId = some conn) :
    (self.cleanup peerId).2 =
      if conn.info.shouldReconnect && !self.shutdownCancelled && self.autoReconnectEnabled then
        some conn.info.addr
      else none := by
  simp only [cleanup, h]

theorem TransportManager.cleanup_snd_eq_none_iff {self : TransportManager} {peerId : PeerId}
    {conn : PeerConnection} (h : self.connections.lookup peerId = some conn) :
    (self.cleanup peerId).2 = none ↔ conn.info.shouldReconnect = false ∨
      self.autoReconnectEnabled = false ∨ self.shutdownCancelled = true := by
  rw [cleanup_snd h]
  cases conn.info.shouldReconnect <;> cases self.autoReconnectEnabled <;>
    cases self.shutdownCancelled <;> simp

namespace Node

variable {config : ConnectConfig} {net : NetworkState} {front : List Action} {m s t : Node} {a : Action}

theorem cleanup_cases {generation : Nat} (h : s.step config (.connecting (.cleanup generation)) = some t) :
    ∃ task, s.exitedTask generation = some task ∧
      t.tasks = s.tasks ++ ((s.net.transport.cleanup task.peerId).2.map fun addr =>
        (⟨.reconnect task.peerId addr 0, .sleeping⟩ : ConnectTask)).toList ∧
      t.reconnectEvents =
        s.reconnectEvents ++ ((s.net.transport.cleanup task.peerId).2.map fun _ => task.peerId).toList := by
  simp only [step, isTaskAction, if_true, Option.map_eq_some_iff] at h
  obtain ⟨c, hc, rfl⟩ := h
  simp only [Connecting.step] at hc
  split at hc
  · next task hfind =>
    cases hc
    refine ⟨task, hfind, rfl, ?_⟩
    simp only [lostEvents, exitedTask]
    rw [show s.readTasks = s.connecting.readTasks from rfl, hfind]
  · cases hc

/-- All unfinished read tasks of this generation belong to the peer. -/
def ReadsFor (generation : Nat) (peerId : PeerId) (s : Node) : Prop :=
  generation < s.net.transport.nextGeneration ∧
    ∀ task ∈ s.readTasks, task.generation = generation → task.peerId = peerId

theorem ReadsFor.step {generation : Nat} {peerId : PeerId} (h : ReadsFor generation peerId s)
    (hstep : s.step config a = some t) : ReadsFor generation peerId t := by
  refine ⟨h.1.trans_le (nextGeneration_le_of_step hstep), ?_⟩
  intro task htask hgen
  cases step_effect hstep with
  | register _ _ _ hread =>
    rw [hread] at htask
    cases List.mem_append.mp htask with
    | inl hold => exact h.2 task hold hgen
    | inr hnew =>
      obtain rfl := List.mem_singleton.mp hnew
      exact absurd (hgen ▸ h.1) (Nat.lt_irrefl _)
  | keep hkeeps =>
    obtain ⟨old, hold, hpeer, hgen'⟩ := hkeeps.readTasks task htask
    exact hpeer ▸ h.2 old hold (hgen'.trans hgen)

theorem readsFor_of_readingTask (h : s.toTransport.Numbered) {generation : Nat} {task : ReadTask}
    (htask : s.readingTask generation = some task) : ReadsFor generation task.peerId s := by
  obtain ⟨hmem, hgen⟩ : task ∈ s.readTasks ∧ task.generation = generation := ReadTask.of_find htask
  refine ⟨hgen ▸ h.taskFresh task hmem, ?_⟩
  intro other hother hsame
  exact h.taskPeer other hother task hmem (hsame.trans hgen.symm)

theorem readsFor_run {generation : Nat} {peerId : PeerId} (h : ReadsFor generation peerId s)
    {acts : List Action} (hrun : run (step config) s acts = some t) : ReadsFor generation peerId t :=
  invariant (P := fun _ _ => True) (fun _ _ _ h _ hstep => h.step hstep) h
    (along_of_forall (fun _ _ => trivial) _ _) hrun

/-- For a peer whose control read task has read its `PeerLeave`: the cleanup of the task starts no
reconnect and emits no reconnect event if and only if no entry of the peer is left, or reconnects
are off, or the shutdown has begun, or the handler has already handled a `PeerLeave` that names the
peer while the entry was in the map. -/
theorem graceful_leave_not_retried_iff (hempty : net.transport.connections = ∅) {rest : List Action}
    {generation : Nat} {task : ReadTask} (hfront : run (step config) (start net) front = some m)
    (hreader : m.readingTask generation = some task)
    (hrun : run (step config) (start net) (front ++ .read generation (.peerLeave task.peerId) :: rest) =
      some s)
    (hcleanup : s.step config (.connecting (.cleanup generation)) = some t) :
    (t.tasks = s.tasks ∧ t.reconnectEvents = s.reconnectEvents) ↔
      s.net.transport.connections.lookup task.peerId = none ∨
      s.net.transport.autoReconnectEnabled = false ∨ s.net.transport.shutdownCancelled = true ∨
      ∃ conn sender, s.net.transport.connections.lookup task.peerId = some conn ∧
        LeaveHandled config net sender task.peerId conn.controlCancel
          (front ++ .read generation (.peerLeave task.peerId) :: rest) := by
  obtain ⟨exited, hexited, htasks, hevents⟩ := cleanup_cases hcleanup
  have hpeer : exited.peerId = task.peerId := by
    obtain ⟨mid, hmid, hlater⟩ := run_append_iff.mp hrun
    obtain rfl : m = mid := Option.some.inj (hfront.symm.trans hmid)
    have hreads := readsFor_run (readsFor_of_readingTask (flagged_run hempty hfront).numbered hreader) hlater
    obtain ⟨hmem, hgen⟩ := ReadTask.of_find hexited
    exact hreads.2 exited hmem hgen
  have hnone : (t.tasks = s.tasks ∧ t.reconnectEvents = s.reconnectEvents) ↔
      (s.net.transport.cleanup task.peerId).2 = none := by
    rw [htasks, hevents, hpeer]
    cases (s.net.transport.cleanup task.peerId).2 <;> simp
  rw [hnone]
  cases hlookup : s.net.transport.connections.lookup task.peerId with
  | none => simp [cleanup, hlookup]
  | some conn =>
    rw [cleanup_snd_eq_none_iff hlookup, (flagged_run hempty hrun).flag task.peerId conn hlookup]
    constructor
    · rintro (⟨sender, hleave⟩ | hoff | hdown)
      · exact .inr (.inr (.inr ⟨conn, sender, rfl, hleave⟩))
      · exact .inr (.inl hoff)
      · exact .inr (.inr (.inl hdown))
    · rintro (hno | hoff | hdown | ⟨_, sender, ⟨⟩, hleave⟩)
      · cases hno
      · exact .inr (.inl hoff)
      · exact .inr (.inr hdown)
      · exact .inl ⟨sender, hleave⟩

/-- Peer `b` connects. -/
def peerRegistered : List Action :=
  [.connecting .accept, .connecting (.checkLimit 0),
    .connecting (.handshake 0 (.handshake ⟨"b"⟩ 4000 1 "room") "10.0.0.2"),
    .connecting (.register 0 0)]

/-- The handler gets to the `PeerLeave` before the read task takes the lock. -/
theorem handled_leave_not_retried :
    ∃ s ∈ run (step ⟨8, 0⟩) (start sampleNet) (peerRegistered ++ .read 0 (.peerLeave ⟨"b"⟩) ::
        [.connecting (.leaveLoop 0), .handle ⟨0, 0⟩]),
      ∃ t ∈ s.step ⟨8, 0⟩ (.connecting (.cleanup 0)),
        t.tasks = s.tasks ∧ t.reconnectEvents = s.reconnectEvents := by
  have hbefore : ∃ m ∈ run (step ⟨8, 0⟩) (start sampleNet) peerRegistered,
      m.readingTask 0 = some ⟨⟨"b"⟩, 0, false⟩ := by decide +kernel
  have hafter : ∃ s ∈ run (step ⟨8, 0⟩) (start sampleNet) (peerRegistered ++
        .read 0 (.peerLeave ⟨"b"⟩) :: [.connecting (.leaveLoop 0), .handle ⟨0, 0⟩]),
      (∃ conn ∈ s.net.transport.connections.lookup ⟨"b"⟩, LeaveHandled ⟨8, 0⟩ sampleNet ⟨"b"⟩ ⟨"b"⟩
        conn.controlCancel (peerRegistered ++ .read 0 (.peerLeave ⟨"b"⟩) ::
          [.connecting (.leaveLoop 0), .handle ⟨0, 0⟩])) ∧
      (s.step ⟨8, 0⟩ (.connecting (.cleanup 0))).isSome := by decide +kernel
  obtain ⟨m, hm, hreader⟩ := hbefore
  obtain ⟨s, hs, ⟨conn, hconn, hleave⟩, hsome⟩ := hafter
  obtain ⟨t, ht⟩ := Option.isSome_iff_exists.mp hsome
  exact ⟨s, hs, t, ht, (graceful_leave_not_retried_iff rfl hm hreader hs ht).mpr
    (.inr (.inr (.inr ⟨conn, _, hconn, hleave⟩)))⟩

/-- The read task takes the lock while the `PeerLeave` is still in the queue. -/
theorem queued_leave_retried :
    ∃ m ∈ run (step ⟨8, 0⟩) (start sampleNet) peerRegistered,
      m.readingTask 0 = some ⟨⟨"b"⟩, 0, false⟩ ∧
      ∃ s ∈ run (step ⟨8, 0⟩) (start sampleNet) (peerRegistered ++ .read 0 (.peerLeave ⟨"b"⟩) ::
          [.connecting (.leaveLoop 0)]),
        ∃ t ∈ s.step ⟨8, 0⟩ (.connecting (.cleanup 0)),
          t.tasks = s.tasks ++ [⟨.reconnect ⟨"b"⟩ "10.0.0.2:4000" 0, .sleeping⟩] ∧
          t.reconnectEvents = s.reconnectEvents ++ [⟨"b"⟩] := by
  decide +kernel

/-- Automatic reconnects are enabled and the shutdown has not begun. -/
def Reconnecting (s : Node) : Prop :=
  s.net.transport.autoReconnectEnabled = true ∧ s.net.transport.shutdownCancelled = false

instance (s : Node) : Decidable s.Reconnecting := inferInstanceAs (Decidable (_ ∧ _))

/-- When the ping task gets to disconnect a peer that it found timed out, the peer has no entry, and a
`PeerLeave` does not name another peer that has one. -/
def LeftToReader (s : Node) : Action → Prop
  | .disconnectTimedOut fits => fits = true →
    ∀ p ∈ s.timedOut.head?, p ∉ s.net.transport.connections
  | .handle _ => ∀ entry ∈ s.incoming.head?, ∀ p ∈ entry.2.leaver,
    entry.1 = p ∨ p ∉ s.net.transport.connections
  | _ => True

instance (s : Node) : (a : Action) → Decidable (s.LeftToReader a)
  | .disconnectTimedOut _ => inferInstanceAs (Decidable (_ → _))
  | .handle _ => inferInstanceAs (Decidable (∀ entry ∈ s.incoming.head?, _))
  | .connecting _ | .read .. | .deliver .. | .watch | .checkTimeouts _ | .updateTimedOut | .electionTick _
  | .disconnectPeer .. | .setLeader _ | .enableAutoElection _ => .isTrue trivial

theorem sender_of_leaveHandled (hreader : Along (step config) LeftToReader (start net) front)
    {sender p : PeerId} {generation : Nat}
    (h : LeaveHandled config net sender p generation front) : sender = p := by
  obtain ⟨before, action, after, s, rfl, hs, hhandles, hentry⟩ := h
  obtain ⟨conn, hconn, _⟩ := Option.map_eq_some_iff.mp hentry
  have haction : s.LeftToReader action := ((along_append_iff.mp hreader).2 s hs).1
  cases action with
  | handle now =>
    exact (haction (sender, .peerLeave p) hhandles p rfl).resolve_right (not_not.mpr (Assoc.mem_of_lookup hconn))
  | _ => exact absurd hhandles id

/-- As long as reconnects are enabled, the ping task disconnects no peer that has an entry and every
`PeerLeave` comes from the peer it names: whenever an entry leaves the map other than by a call of
`DisconnectPeer` or after a `PeerLeave` from the peer, a reconnect to its address is started. -/
theorem involuntary_loss_retried (hempty : net.transport.connections = ∅)
    (hon : Along (step config) (fun s _ => s.Reconnecting) (start net) (front ++ [a]))
    (hreader : Along (step config) LeftToReader (start net) (front ++ [a]))
    (hm : run (step config) (start net) front = some m) (hstep : m.step config a = some t) {p : PeerId}
    {conn : PeerConnection} (hentry : m.net.transport.connections.lookup p = some conn)
    (hgone : t.net.transport.connections.lookup p = none) :
    (∃ fits, a = .disconnectPeer p fits) ∨ LeaveHandled config net p p conn.controlCancel front ∨
      ⟨.reconnect p conn.info.addr 0, .sleeping⟩ ∈ t.tasks := by
  obtain ⟨hfront, haction⟩ := (along_concat_iff hm).mp hreader
  obtain ⟨hauto, hup⟩ := ((along_concat_iff hm).mp hon).2
  have hdrops : m.Drops p a := by
    cases step_effect hstep with
    | register hi hnew htransport =>
      rw [htransport] at hgone
      exact absurd ((AList.mem_insert _).mpr (.inr (Assoc.mem_of_lookup hentry)))
        (AList.lookup_eq_none.mp hgone)
    | keep hkeeps => exact hkeeps.transport.gone p conn hentry hgone
  cases a with
  | disconnectPeer peer fits =>
    obtain ⟨rfl, _⟩ := hdrops
    exact .inl ⟨fits, rfl⟩
  | disconnectTimedOut fits =>
    exact absurd (Assoc.mem_of_lookup hentry) (haction hdrops.2 p hdrops.1)
  | connecting action =>
    cases action with
    | cleanup generation =>
      obtain ⟨task, htask, rfl⟩ := hdrops
      obtain ⟨_, hexited, htasks, _⟩ := cleanup_cases hstep
      obtain rfl := Option.some.inj (htask.symm.trans hexited)
      cases hflag : conn.info.shouldReconnect with
      | false =>
        obtain ⟨sender, hleave⟩ := ((flagged_run hempty hm).flag task.peerId conn hentry).mp hflag
        exact .inr (.inl (sender_of_leaveHandled hfront hleave ▸ hleave))
      | true =>
        refine .inr (.inr ?_)
        rw [htasks, cleanup_snd hentry]
        simp [hflag, hauto, hup]
    | _ => exact absurd hdrops id
  | _ => exact absurd hdrops id

/-- The read task of `b` sees the end of the stream. -/
theorem lost_peer_retried :
    ∃ m ∈ run (step ⟨8, 0⟩) (start sampleNet) (peerRegistered ++ [.connecting (.leaveLoop 0)]),
      ∃ t ∈ m.step ⟨8, 0⟩ (.connecting (.cleanup 0)),
        (∃ fits, (.connecting (.cleanup 0) : Action) = .disconnectPeer ⟨"b"⟩ fits) ∨
        LeaveHandled ⟨8, 0⟩ sampleNet ⟨"b"⟩ ⟨"b"⟩ 0 (peerRegistered ++ [.connecting (.leaveLoop 0)]) ∨
        ⟨.reconnect ⟨"b"⟩ "10.0.0.2:4000" 0, .sleeping⟩ ∈ t.tasks := by
  have hlost : ∃ m ∈ run (step ⟨8, 0⟩) (start sampleNet) (peerRegistered ++ [.connecting (.leaveLoop 0)]),
      m.net.transport.connections.lookup ⟨"b"⟩ =
        some ⟨0, none, .new ⟨"b"⟩ "10.0.0.2:4000" 0⟩ ∧
      ∃ t ∈ m.step ⟨8, 0⟩ (.connecting (.cleanup 0)),
        t.net.transport.connections.lookup ⟨"b"⟩ = none := by decide +kernel
  obtain ⟨m, hm, hentry, t, ht, hgone⟩ := hlost
  exact ⟨m, hm, t, ht, involuntary_loss_retried rfl (by decide +kernel) (by decide +kernel) hm ht hentry
    hgone⟩

/-- The ping task declares `b` timed out: when its read task has finished, nothing retries. -/
theorem timed_out_peer_not_retried :
    ∃ m ∈ run (step ⟨8, 0⟩) (start sampleNet) (peerRegistered ++
        [.deliver ⟨"b"⟩ (.handshake ⟨"b"⟩ 4000 1 "room"), .handle ⟨0, 0⟩]),
      m.Reconnecting ∧ ⟨"b"⟩ ∈ m.net.transport.connections ∧
      ∃ s ∈ run (step ⟨8, 0⟩) m [.checkTimeouts 2000, .updateTimedOut, .disconnectTimedOut true,
          .connecting (.leaveLoop 0), .connecting (.cleanup 0)],
        s.Reconnecting ∧ ⟨"b"⟩ ∉ s.net.transport.connections ∧ s.readTasks = [] ∧
        s.tasks = [⟨.inbound, .finished⟩] ∧ s.reconnectEvents = [] := by
  decide +kernel

end Node

end MetaMystia

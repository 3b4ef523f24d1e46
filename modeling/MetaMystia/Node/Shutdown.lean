import Mathlib.Algebra.Order.BigOperators.Group.List
import MetaMystia.Node.Reconnects

/-! # After the shutdown

Every entry of the connection map has a control read task of its own, which removes
the entry of its peer at its end. Tasks that connect may still register a peer after
the shutdown token is cancelled: its tokens are cancelled from the start, and its
read task leaves at once. No reconnect is started any more, but a task whose sleep is
over may make one more attempt.
-/

namespace MetaMystia

open Runs TransportManager

namespace Transport

variable {s next : Transport}

/-- Every entry has an unfinished read task of its generation. -/
def Owned (s : Transport) : Prop :=
  ∀ p conn, s.manager.connections.lookup p = some conn →
    ∃ task ∈ s.tasks, task.peerId = p ∧ task.generation = conn.controlCancel

theorem owned_start (manager : TransportManager) (hempty : manager.connections = ∅) :
    Owned (start manager) := by
  intro p conn hconn
  simp [start, hempty] at hconn

theorem Owned.registers (h : Owned s) {peerId : PeerId} (hnext : Registers s peerId next) :
    Owned next := by
  obtain ⟨_, info, rfl⟩ := hnext
  intro p conn hconn
  obtain ⟨rfl, rfl⟩ | ⟨_, hold⟩ := Assoc.lookup_insert_cases hconn
  · exact ⟨_, List.mem_append_right _ (List.mem_singleton_self _), rfl, rfl⟩
  · obtain ⟨task, htask, hpeer, hgen⟩ := h p conn hold
    exact ⟨task, List.mem_append_left _ htask, hpeer, hgen⟩

/-- Entries may go away and lose nothing of what identifies them, while the read tasks stay. -/
theorem Owned.keeps (h : Owned s)
    (hentries : ∀ p new, next.manager.connections.lookup p = some new →
      ∃ old, s.manager.connections.lookup p = some old ∧ new.controlCancel = old.controlCancel)
    (htasks : ∀ task ∈ s.tasks, ∃ new ∈ next.tasks, new.peerId = task.peerId ∧
      new.generation = task.generation) : Owned next := by
  intro p new hnew
  obtain ⟨old, hold, hsame⟩ := hentries p new hnew
  obtain ⟨task, htask, hpeer, hgen⟩ := h p old hold
  obtain ⟨kept, hkept, hpeer', hgen'⟩ := htasks task htask
  exact ⟨kept, hkept, hpeer'.trans hpeer, hgen'.trans (hgen.trans hsame.symm)⟩

/-- A read task removes the entry of its peer, so no entry loses its own task. -/
theorem Owned.cleanup (h : Owned s) (hnumbered : Numbered s) {reader : ReadTask}
    (hreader : reader ∈ s.tasks) :
    Owned { manager := s.manager.tearDown reader.peerId
            tasks := s.tasks.filter fun task => task.generation != reader.generation } := by
  intro p conn hconn
  have hother : p ≠ reader.peerId := by
    rintro rfl
    rw [lookup_tearDown_self] at hconn
    cases hconn
  obtain ⟨task, htask, rfl, hgen⟩ := h p conn (lookup_of_tearDown hconn)
  have hstays : task.generation ≠ reader.generation :=
    fun hsame => hother (hnumbered.taskPeer task htask reader hreader hsame)
  exact ⟨task, List.mem_filter.mpr ⟨htask, by simpa using hstays⟩, rfl, hgen⟩

theorem Numbered.shutdown (h : Numbered s) : Numbered ⟨s.manager.shutdown, s.tasks⟩ :=
  h.step (a := .shutdown) rfl

end Transport

namespace NetworkState

variable {s : NetworkState}

theorem shutdownCancelled_handleMembership (peerId : PeerId) (now : Clock) (msg : InternalMessage) :
    (s.handleMembership peerId now msg).1.transport.shutdownCancelled = s.transport.shutdownCancelled := by
  cases msg with
  | peerLeave leavingId => exact modify_shutdownCancelled
  | handshake remoteId => rw [handleMembership, transport_peerConnected]
  | handshakeAck remoteId _ success =>
    cases success with
    | false => rfl
    | true => simp only [handleMembership, if_true, transport_peerConnected]
  | pong timestampMs => exact modify_shutdownCancelled.trans modify_shutdownCancelled
  | _ => rfl

theorem shutdownCancelled_disconnectTimedOut (fits : Bool) (peerId : PeerId) :
    (s.disconnectTimedOut fits peerId).transport.shutdownCancelled = s.transport.shutdownCancelled := by
  unfold disconnectTimedOut
  obtain ⟨e, heq⟩ | heq := s.transport.disconnectPeer_cases peerId fits
  · simp only [heq]
  · simp only [heq, tearDown_shutdownCancelled]

end NetworkState

def ConnectTask.Reconnecting (task : ConnectTask) : Prop :=
  match task.origin with
  | .reconnect .. => True
  | _ => False

/-- The attempts that the task may still begin once the shutdown token is cancelled. -/
def ConnectTask.attemptsLeft (task : ConnectTask) : Nat :=
  match task.phase with
  | .sleeping | .checking => 1
  | _ => 0

namespace Node

variable {config : ConnectConfig} {s t : Node} {a : Action}

inductive ClosingAction
  | task (action : Action)
  | shutdown

/-- The task that looks at the flag, and begins an attempt if reconnects are on. -/
def ClosingAction.attempt : ClosingAction → Option Nat
  | .task (.connecting (.checkAutoReconnect i)) => some i
  | _ => none

def attemptsIn (i : Nat) (acts : List ClosingAction) : Nat := acts.countP fun a => a.attempt == some i

def attemptsLeft (s : Node) (i : Nat) : Nat := ((s.tasks[i]?).map ConnectTask.attemptsLeft).getD 0

/-- The steps of other tasks than those that connect. -/
theorem step_elsewhere (ha : ∀ action, a ≠ .connecting action) (h : s.step config a = some t) :
    t.readTasks = s.readTasks ∧
    t.net.transport.shutdownCancelled = s.net.transport.shutdownCancelled ∧
    ∃ more, t.tasks = s.tasks ++ more ∧
      ∀ task ∈ more, ¬ task.Reconnecting ∧ task.attemptsLeft = 0 := by
  cases a with
  | connecting action => exact absurd rfl (ha action)
  | read generation msg =>
    obtain ⟨task, _, rfl⟩ := Option.map_eq_some_iff.mp h
    exact ⟨rfl, rfl, [], by simp⟩
  | handle now =>
    simp only [step] at h
    split at h
    · next peerId msg rest hqueue =>
      cases h
      refine ⟨rfl, NetworkState.shutdownCancelled_handleMembership .., _, rfl, ?_⟩
      intro task htask
      obtain ⟨out, _, hdialled⟩ := List.mem_filterMap.mp htask
      cases out with
      | connect addr =>
        cases hdialled
        exact ⟨id, rfl⟩
      | _ => cases hdialled
    · cases h
  | watch =>
    obtain ⟨net, hnet, rfl⟩ := Option.map_eq_some_iff.mp h
    obtain ⟨_, _, _, rfl⟩ | ⟨_, _, _, _, rfl⟩ := NetworkState.watch_cases hnet <;>
      exact ⟨rfl, rfl, [], by simp⟩
  | checkTimeouts now =>
    simp only [step, Option.ite_none_right_eq_some, Option.some.injEq] at h
    obtain ⟨_, rfl⟩ := h
    exact ⟨rfl, rfl, [], by simp⟩
  | updateTimedOut =>
    obtain ⟨_, _, _, _, rfl⟩ := updateTimedOut_cases h
    exact ⟨rfl, rfl, [], by simp⟩
  | disconnectTimedOut fits =>
    obtain ⟨_, _, _, _, rfl⟩ := disconnectTimedOut_cases h
    exact ⟨rfl, NetworkState.shutdownCancelled_disconnectTimedOut .., [], by simp⟩
  | electionTick now =>
    cases h
    refine ⟨rfl, ?_, [], by simp⟩
    rw [s.net.electionTick_fst now]
  | disconnectPeer peerId fits =>
    cases h
    refine ⟨rfl, ?_, [], by simp⟩
    simp only [NetworkState.disconnectPeer]
    obtain ⟨e, heq⟩ | heq := s.net.transport.disconnectPeer_cases peerId fits
    · simp only [heq]
    · simp only [heq, tearDown_shutdownCancelled]
  | deliver | setLeader | enableAutoElection =>
    cases h
    exact ⟨rfl, rfl, [], by simp⟩

theorem shutdownCancelled_step (hcancelled : s.net.transport.shutdownCancelled = true)
    (h : s.step config a = some t) : t.net.transport.shutdownCancelled = true := by
  by_cases hconnecting : ∃ action, a = .connecting action
  · obtain ⟨action, rfl⟩ := hconnecting
    simp only [step, Option.ite_none_right_eq_some, Option.map_eq_some_iff] at h
    obtain ⟨_, c, hc, rfl⟩ := h
    cases Connecting.step_effect hc with
    | manage hshrinks => exact hshrinks.shutdown hcancelled
    | cleanup => exact tearDown_shutdownCancelled.trans hcancelled
    | _ => exact hcancelled
  · rwa [(step_elsewhere (fun action heq => hconnecting ⟨action, heq⟩) h).2.1]

/-- Every reconnect task is one of before, and what it begins is an attempt that it had left. -/
structure WindsDown (s : Node) (acts : List ClosingAction) (t : Node) : Prop where
  started : ∀ (i : Nat) (task : ConnectTask), t.tasks[i]? = some task → task.Reconnecting →
    ∃ old : ConnectTask, s.tasks[i]? = some old ∧ old.Reconnecting
  attempts : ∀ i, attemptsIn i acts + t.attemptsLeft i ≤ s.attemptsLeft i

theorem WindsDown.refl (s : Node) : WindsDown s [] s where
  started _ task htask hre := ⟨task, htask, hre⟩
  attempts _ := Nat.le_of_eq (Nat.zero_add _)

theorem WindsDown.trans {u : Node} {front back : List ClosingAction} (h : WindsDown s front t)
    (h' : WindsDown t back u) : WindsDown s (front ++ back) u where
  started i task htask hre := by
    obtain ⟨mid, hmid, hre'⟩ := h'.started i task htask hre
    exact h.started i mid hmid hre'
  attempts i := by
    have hfront := h.attempts i
    have hback := h'.attempts i
    simp only [attemptsIn, List.countP_append] at hfront hback ⊢
    omega

theorem attemptsLeft_of_some {i : Nat} {task : ConnectTask} (hi : s.tasks[i]? = some task) :
    s.attemptsLeft i = task.attemptsLeft := by
  simp [attemptsLeft, hi]

/-- A step that is no attempt: no slot has more attempts left than before. -/
theorem WindsDown.quiet {a : ClosingAction} (ha : a.attempt = none)
    (h : ∀ (i : Nat) (task : ConnectTask), t.tasks[i]? = some task →
      (task.Reconnecting → ∃ old : ConnectTask, s.tasks[i]? = some old ∧ old.Reconnecting) ∧
        task.attemptsLeft ≤ s.attemptsLeft i) : WindsDown s [a] t where
  started i task htask := (h i task htask).1
  attempts i := by
    have hnone : attemptsIn i [a] = 0 := by simp [attemptsIn, ha]
    rw [hnone, Nat.zero_add]
    cases hi : t.tasks[i]? with
    | none => simp [attemptsLeft, hi]
    | some task =>
      rw [attemptsLeft_of_some hi]
      exact (h i task hi).2

theorem WindsDown.append {a : ClosingAction} (ha : a.attempt = none) {more : List ConnectTask}
    (htasks : t.tasks = s.tasks ++ more)
    (hmore : ∀ task ∈ more, ¬ task.Reconnecting ∧ task.attemptsLeft = 0) : WindsDown s [a] t := by
  refine .quiet ha ?_
  intro i task htask
  rw [htasks, List.getElem?_append] at htask
  split at htask
  · exact ⟨fun hre => ⟨task, htask, hre⟩, Nat.le_of_eq (attemptsLeft_of_some htask).symm⟩
  · obtain ⟨hnot, hzero⟩ := hmore task (List.mem_of_getElem? htask)
    exact ⟨fun hre => absurd hre hnot, by omega⟩

theorem WindsDown.set {a : ClosingAction} (ha : a.attempt = none) {i : Nat} {old new : ConnectTask}
    (htasks : t.tasks = s.tasks.set i new) (hi : s.tasks[i]? = some old)
    (hre : new.Reconnecting → old.Reconnecting) (hleft : new.attemptsLeft ≤ old.attemptsLeft) :
    WindsDown s [a] t := by
  refine .quiet ha ?_
  rw [htasks]
  refine Slots.forall_set ⟨fun h => ⟨old, hi, hre h⟩, ?_⟩ ?_
  · rwa [attemptsLeft_of_some hi]
  · intro j task _ htask
    exact ⟨fun h => ⟨task, htask, h⟩, Nat.le_of_eq (attemptsLeft_of_some htask).symm⟩

end Node

end MetaMystia

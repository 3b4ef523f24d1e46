import MetaMystia.Transport.ConnectTasks

/-! # After a manual disconnect

`disconnect_peer` removes the entry, and with it the flag that keeps the node from
reconnecting. A task that is already on its way to the peer is not told: the
disconnect is final as far as there is no such task and none is started later.

`answers` tells which peers may answer at an address, at any time.
-/

namespace MetaMystia

open Runs TransportManager

def Origin.addr : Origin → Option String
  | .inbound => none
  | .outbound addr => some addr
  | .reconnect _ addr _ => some addr

namespace Connecting

/-- The unfinished task is about to register the peer, or is going to an address where the peer
answers. -/
def HeadsFor (answers : String → PeerId → Bool) (p : PeerId) (task : ConnectTask) : Prop :=
  task.phase ≠ .finished ∧ ((∃ addr, task.phase = .ready p addr) ∨
    ∃ addr, task.origin.addr = some addr ∧ answers addr p = true)

def dialled : Action → Option String
  | .connectTo addr => some addr
  | _ => none

/-- The peer that a successful handshake has met, with the origin of the task. -/
def met (s : Connecting) : Action → Option (Origin × PeerId)
  | .handshake i msg _ => (s.tasks[i]?).bind fun task =>
    match s.answer task.origin msg with
    | .ok (peerId, _) => some (task.origin, peerId)
    | .error _ => none
  | _ => none

/-- The address of the entry that a cleanup finds, if it is to be reconnected. -/
def lost (s : Connecting) : Action → Option String
  | .cleanup generation =>
    (s.readTasks.find? fun task => task.generation == generation && task.exited).bind fun task =>
      ((s.manager.connections.lookup task.peerId).filter fun conn =>
        conn.info.shouldReconnect && !s.manager.shutdownCancelled && s.manager.autoReconnectEnabled).map
          fun conn => conn.info.addr
  | _ => none

/-- Who answers a dialled address is one of those that may answer there. -/
def Consistent (answers : String → PeerId → Bool) (s : Connecting) (a : Action) : Prop :=
  ∀ found ∈ s.met a, ∀ addr ∈ found.1.addr, answers addr found.2 = true

/-- No new outbound attempt and no inbound handshake concerns the peer. -/
def Unconcerned (answers : String → PeerId → Bool) (p : PeerId) (s : Connecting) (a : Action) : Prop :=
  (∀ addr ∈ dialled a, answers addr p = false) ∧ ∀ found ∈ s.met a, found.1 = .inbound → found.2 ≠ p

def LosesOthers (answers : String → PeerId → Bool) (p : PeerId) (s : Connecting) (a : Action) : Prop :=
  ∀ addr ∈ s.lost a, answers addr p = false

section

variable {config : ConnectConfig} {answers : String → PeerId → Bool} {s t : Connecting} {i : Nat}
  {p : PeerId} {a : Action} {old task : ConnectTask}

instance : Decidable (s.Consistent answers a) :=
  inferInstanceAs (Decidable (∀ found ∈ s.met a, ∀ addr ∈ found.1.addr, answers addr found.2 = true))

instance : Decidable (s.Unconcerned answers p a) :=
  inferInstanceAs (Decidable ((∀ addr ∈ dialled a, answers addr p = false) ∧
    ∀ found ∈ s.met a, found.1 = .inbound → found.2 ≠ p))

instance : Decidable (s.LosesOthers answers p a) :=
  inferInstanceAs (Decidable (∀ addr ∈ s.lost a, answers addr p = false))

structure Clear (answers : String → PeerId → Bool) (p : PeerId) (s : Connecting) : Prop where
  absent : s.manager.connections.lookup p = none
  free : ∀ task ∈ s.tasks, ¬ HeadsFor answers p task

theorem Clear.setTask (hs : Clear answers p s) (htask : ¬ HeadsFor answers p task) :
    Clear answers p (s.setTask i task) := by
  refine ⟨hs.absent, ?_⟩
  intro new hnew
  cases List.mem_or_eq_of_mem_set hnew with
  | inl hold => exact hs.free new hold
  | inr heq =>
    subst heq
    exact htask

theorem Clear.mono (hs : Clear answers p s) {manager : TransportManager} {readTasks : List ReadTask}
    {more : List ConnectTask} (habsent : manager.connections.lookup p = none)
    (hmore : ∀ task ∈ more, (∀ addr, task.phase ≠ .ready p addr) ∧
      ∀ addr ∈ task.origin.addr, answers addr p = false) :
    Clear answers p { manager, readTasks, tasks := s.tasks ++ more } := by
  refine ⟨habsent, ?_⟩
  rintro task htask ⟨hlive, hheads⟩
  cases List.mem_append.mp htask with
  | inl hold => exact hs.free task hold ⟨hlive, hheads⟩
  | inr hnew =>
    obtain ⟨hready, haddr⟩ := hmore task hnew
    obtain ⟨addr, hphase⟩ | ⟨addr, horigin, hanswers⟩ := hheads
    · exact hready addr hphase
    · exact Bool.noConfusion (hanswers.symm.trans (haddr addr horigin))

theorem Clear.setManager (hs : Clear answers p s) {manager : TransportManager}
    {readTasks : List ReadTask} (habsent : manager.connections.lookup p = none) :
    Clear answers p { manager, readTasks, tasks := s.tasks } :=
  ⟨habsent, hs.free⟩

theorem addr_fail (config : ConnectConfig) (s : Connecting) (task : ConnectTask) :
    (s.fail config task).origin.addr = task.origin.addr := by
  unfold Connecting.fail ConnectTask.fail
  split
  · next h => rw [h]; rfl
  · rfl

theorem fail_not_ready (config : ConnectConfig) (s : Connecting) (task : ConnectTask) (k : PeerId)
    (addr : String) : (s.fail config task).phase ≠ .ready k addr := by
  intro hno
  cases fail_phase config s task with
  | inl h => rw [h.1] at hno; cases hno
  | inr h => rw [h] at hno; cases hno

/-- A task that goes on to the same address, not yet about to register. -/
theorem Clear.continue (hs : Clear answers p s) (hi : s.tasks[i]? = some old)
    (hlive : old.phase ≠ .finished) (haddr : task.origin.addr = old.origin.addr)
    (hready : ∀ addr, task.phase ≠ .ready p addr) : Clear answers p (s.setTask i task) := by
  refine hs.setTask ?_
  rintro ⟨_, ⟨addr, hphase⟩ | ⟨addr, horigin, hanswers⟩⟩
  · exact hready addr hphase
  · exact hs.free old (List.mem_of_getElem? hi) ⟨hlive, .inr ⟨addr, haddr ▸ horigin, hanswers⟩⟩

theorem Clear.handshake (hs : Clear answers p s) {origin : Origin} {msg : InternalMessage}
    {peerIp : String} (hi : s.tasks[i]? = some ⟨origin, .checked⟩)
    (hconsistent : s.Consistent answers (.handshake i msg peerIp))
    (hunconcerned : s.Unconcerned answers p (.handshake i msg peerIp)) {peerId : PeerId}
    {listenPort : UInt16} {notify : InternalMessage}
    (hok : s.answer origin msg = .ok (peerId, listenPort, notify)) (peerAddr : String) :
    Clear answers p (s.setTask i ⟨origin, .ready peerId peerAddr⟩) := by
  have hmet : s.met (.handshake i msg peerIp) = some (origin, peerId) := by
    simp only [met, hi, Option.bind_some, hok]
  have haway : ∀ addr ∈ origin.addr, answers addr p = false := by
    intro addr horigin
    by_contra hanswers
    rw [Bool.not_eq_false] at hanswers
    exact hs.free _ (List.mem_of_getElem? hi) ⟨by simp, .inr ⟨addr, horigin, hanswers⟩⟩
  refine hs.setTask ?_
  rintro ⟨_, ⟨addr, hphase⟩ | ⟨addr, horigin, hanswers⟩⟩
  · obtain ⟨rfl, _⟩ := ConnectPhase.ready.inj hphase
    -- only an inbound handshake is with a peer that was not dialled
    cases horigin : origin.addr with
    | none =>
      refine hunconcerned.2 _ hmet ?_ rfl
      cases origin with
      | inbound => rfl
      | outbound addr => cases horigin
      | reconnect k addr attempts => cases horigin
    | some addr =>
      have hanswers := hconsistent _ hmet addr horigin
      exact Bool.noConfusion (hanswers.symm.trans (haway addr horigin))
  · exact Bool.noConfusion (hanswers.symm.trans (haway addr horigin))

theorem Clear.register (hs : Clear answers p s) {origin : Origin} {peerId : PeerId}
    {peerAddr : String} (hi : s.tasks[i]? = some ⟨origin, .ready peerId peerAddr⟩)
    {conn : PeerConnection} {nextGeneration : Nat} {readTasks : List ReadTask} :
    Clear answers p
      { manager := { s.manager with
          connections := s.manager.connections.insert peerId conn
          nextGeneration }
        readTasks
        tasks := s.tasks.set i ⟨origin, .finished⟩ } := by
  have hne : p ≠ peerId := by
    rintro rfl
    exact hs.free _ (List.mem_of_getElem? hi) ⟨by simp, .inl ⟨peerAddr, rfl⟩⟩
  have hfinished : Clear answers p (s.setTask i ⟨origin, .finished⟩) := hs.setTask fun h => h.1 rfl
  refine ⟨?_, hfinished.free⟩
  rw [AList.lookup_insert_ne hne]
  exact hs.absent

theorem lost_of_cleanup {generation : Nat} {readTask : ReadTask} {addr : String}
    (hfind : (s.readTasks.find? fun task => task.generation == generation && task.exited) =
      some readTask)
    (haddr : (s.manager.cleanup readTask.peerId).2 = some addr) :
    s.lost (.cleanup generation) = some addr := by
  unfold TransportManager.cleanup at haddr
  cases hlookup : s.manager.connections.lookup readTask.peerId with
  | none =>
    simp only [hlookup] at haddr
    cases haddr
  | some conn =>
    simp only [hlookup, Option.ite_none_right_eq_some] at haddr
    simp only [lost, hfind, Option.bind_some, hlookup, Option.filter, if_pos haddr.1]
    exact haddr.2

theorem Clear.step (hs : Clear answers p s) (hconsistent : s.Consistent answers a)
    (hunconcerned : s.Unconcerned answers p a) (hothers : s.LosesOthers answers p a)
    (h : s.step config a = some t) : Clear answers p t := by
  cases step_effect h with
  | accept =>
    refine hs.mono hs.absent ?_
    simp [Origin.addr]
  | connectTo =>
    refine hs.mono hs.absent ?_
    intro task htask
    obtain rfl := List.mem_singleton.mp htask
    exact ⟨nofun, hunconcerned.1⟩
  | stop => exact hs.setTask fun h => h.1 rfl
  | sleepElapsed hi => exact hs.continue hi (by simp) rfl nofun
  | attempt hi => exact hs.continue hi (by simp) rfl nofun
  | fail hi hbusy =>
    exact hs.continue hi hbusy.2 (addr_fail config s _) (fail_not_ready config s _ p)
  | check hi => exact hs.continue hi (by simp) rfl nofun
  | handshake hi hok => exact hs.handshake hi hconsistent hunconcerned hok _
  | register hi => exact hs.register hi
  | manage hshrinks => exact hs.setManager (hshrinks.absent p hs.absent)
  | cleanup hfind =>
    refine hs.mono (lookup_tearDown_none hs.absent) ?_
    intro new hnew
    rw [Option.mem_toList, Option.map_eq_some_iff] at hnew
    obtain ⟨addr, haddr, rfl⟩ := hnew
    refine ⟨nofun, ?_⟩
    rintro _ ⟨rfl⟩
    exact hothers addr (lost_of_cleanup hfind haddr)

end

end Connecting

end MetaMystia

import MetaMystia.Library.Slots
import MetaMystia.Transport.Handshake
import MetaMystia.Transport.Teardown

/-! # The tasks that establish connections

Inbound handshakes, `connect_to` calls and reconnect tasks of one node run beside
its connection map and its control read tasks. Each may be suspended between the
check of `max_connections`, the handshake and `register_connection`: the limit
holds as long as no task passes the check while the tasks past it can fill the map.
-/

namespace MetaMystia

open Runs TransportManager

inductive Origin
  | inbound
  | outbound (addr : String)
  | reconnect (peerId : PeerId) (addr : String) (attempts : UInt8)
deriving DecidableEq

/-- `checking` is before the look at the flag for automatic reconnects, `waiting` before the check of
the limit, `checked` after it; `ready` is about to register. -/
inductive ConnectPhase
  | sleeping
  | checking
  | waiting
  | checked
  | ready (peerId : PeerId) (peerAddr : String)
  | finished
deriving DecidableEq

structure ConnectTask where
  origin : Origin
  phase : ConnectPhase
deriving DecidableEq

structure ConnectConfig where
  maxConnections : Nat
  reconnectMaxRetries : UInt8

structure Connecting where
  manager : TransportManager
  readTasks : List ReadTask
  tasks : List ConnectTask

def TransportManager.connectionCount (self : TransportManager) : Nat := self.connections.keys.length

/-- The attempt has failed: a reconnect task sleeps again until its retries are exhausted. A delay is
not zero, so a sleep that begins after the cancel is cut off by the shutdown token at once. -/
def ConnectTask.fail (config : ConnectConfig) (shutdownCancelled : Bool) (task : ConnectTask) :
    ConnectTask :=
  match task.origin with
  | .reconnect peerId addr attempts =>
    let attempts := if attempts = 255 then attempts else attempts + 1
    { origin := .reconnect peerId addr attempts
      phase := if 0 < config.reconnectMaxRetries ∧ config.reconnectMaxRetries ≤ attempts then .finished
        else if shutdownCancelled then .finished
        else .sleeping }
  | _ => { task with phase := .finished }

namespace Connecting

inductive Action
  | accept
  | connectTo (addr : String)
  | sleepElapsed (i : Nat)
  | checkAutoReconnect (i : Nat)
  | cancelled (i : Nat)
  | checkLimit (i : Nat)
  | handshake (i : Nat) (msg : InternalMessage) (peerIp : String)
  | giveUp (i : Nat)
  | register (i : Nat) (now : Nat)
  | registerDataChannel (peerId : PeerId)
  | setShouldReconnect (peerId : PeerId) (shouldReconnect : Bool)
  | setAutoReconnect (enabled : Bool)
  | disconnectPeer (peerId : PeerId) (fits : Bool)
  | leaveLoop (generation : Nat)
  | cleanup (generation : Nat)
  | cancelShutdownToken
deriving DecidableEq

def start (manager : TransportManager) : Connecting := ⟨manager, [], []⟩

def setTask (s : Connecting) (i : Nat) (task : ConnectTask) : Connecting :=
  { s with tasks := s.tasks.set i task }

/-- The side of the handshake that the task is on. -/
def answer (s : Connecting) (origin : Origin) (msg : InternalMessage) :
    Except NetworkError (PeerId × UInt16 × InternalMessage) :=
  match origin with
  | .inbound => (s.manager.processHandshakeMessage msg).2
  | _ => receiveHandshakeAck msg

def fail (config : ConnectConfig) (s : Connecting) (task : ConnectTask) : ConnectTask :=
  task.fail config s.manager.shutdownCancelled

def step (config : ConnectConfig) (s : Connecting) : Action → Option Connecting
  | .accept => some { s with tasks := s.tasks ++ [⟨.inbound, .waiting⟩] }
  | .connectTo addr => some { s with tasks := s.tasks ++ [⟨.outbound addr, .waiting⟩] }
  | .sleepElapsed i =>
    -- A select takes any of its branches that are ready: the sleep counts also after the cancel.
    match s.tasks[i]? with
    | some ⟨origin, .sleeping⟩ => some (s.setTask i ⟨origin, .checking⟩)
    | _ => none
  | .checkAutoReconnect i =>
    match s.tasks[i]? with
    | some ⟨origin, .checking⟩ =>
      some (s.setTask i ⟨origin, if s.manager.autoReconnectEnabled then .waiting else .finished⟩)
    | _ => none
  | .cancelled i =>
    match s.tasks[i]? with
    | some ⟨.reconnect peerId addr attempts, phase⟩ =>
      if s.manager.shutdownCancelled ∧ (phase = .sleeping ∨ phase = .waiting ∨ phase = .checked) then
        some (s.setTask i ⟨.reconnect peerId addr attempts, .finished⟩)
      else none
    | _ => none
  | .checkLimit i =>
    match s.tasks[i]? with
    | some ⟨origin, .waiting⟩ =>
      some (s.setTask i (if config.maxConnections ≤ s.manager.connectionCount then
        s.fail config ⟨origin, .waiting⟩ else ⟨origin, .checked⟩))
    | _ => none
  | .handshake i msg peerIp =>
    match s.tasks[i]? with
    | some ⟨origin, .checked⟩ =>
      some (s.setTask i (match s.answer origin msg with
        | .ok (peerId, listenPort, _) => ⟨origin, .ready peerId (peerIp ++ ":" ++ toString listenPort)⟩
        | .error _ => s.fail config ⟨origin, .checked⟩))
    | _ => none
  | .giveUp i =>
    match s.tasks[i]? with
    | some ⟨origin, .waiting⟩ => some (s.setTask i (s.fail config ⟨origin, .waiting⟩))
    | some ⟨origin, .checked⟩ => some (s.setTask i (s.fail config ⟨origin, .checked⟩))
    | _ => none
  | .register i now =>
    match s.tasks[i]? with
    | some ⟨origin, .ready peerId peerAddr⟩ =>
      match s.manager.registerConnection peerId peerAddr now with
      | .ok manager =>
        some
          { manager
            readTasks := s.readTasks ++
              [{ peerId, generation := s.manager.nextGeneration, exited := false }]
            tasks := s.tasks.set i ⟨origin, .finished⟩ }
      | .error _ => some (s.setTask i (s.fail config ⟨origin, .ready peerId peerAddr⟩))
    | _ => none
  | .registerDataChannel peerId => some { s with manager := s.manager.registerDataChannel peerId }
  | .setShouldReconnect peerId shouldReconnect =>
    some { s with manager := s.manager.setShouldReconnect peerId shouldReconnect }
  | .setAutoReconnect enabled =>
    some { s with manager := { s.manager with autoReconnectEnabled := enabled } }
  | .disconnectPeer peerId fits =>
    match s.manager.disconnectPeer peerId fits with
    | .ok manager => some { s with manager }
    | .error _ => some s
  | .leaveLoop generation =>
    if s.readTasks.any fun task => task.generation == generation && !task.exited then
      some { s with
        readTasks := s.readTasks.map fun task =>
          if task.generation = generation then { task with exited := true } else task }
    else none
  | .cleanup generation =>
    match s.readTasks.find? fun task => task.generation == generation && task.exited with
    | some task =>
      some
        { manager := (s.manager.cleanup task.peerId).1
          readTasks := s.readTasks.filter fun task => task.generation != generation
          tasks := s.tasks ++ (((s.manager.cleanup task.peerId).2).map fun addr =>
            ⟨.reconnect task.peerId addr 0, .sleeping⟩).toList }
    | none => none
  | .cancelShutdownToken => some { s with manager := { s.manager with shutdownCancelled := true } }

/-- The task has passed the check of the limit and may still register. -/
def Admitted (task : ConnectTask) : Bool :=
  match task.phase with
  | .checked | .ready _ _ => true
  | _ => false

def admitted (s : Connecting) : Nat := s.tasks.countP Admitted

/-- A task passes the check only if there is room for it beside the entries and the tasks that
have passed the check. -/
def LeavesRoom (config : ConnectConfig) (s : Connecting) : Action → Prop
  | .checkLimit _ => s.manager.connectionCount < config.maxConnections →
    s.manager.connectionCount + s.admitted < config.maxConnections
  | _ => True

instance (config : ConnectConfig) (s : Connecting) :
    (a : Action) → Decidable (s.LeavesRoom config a)
  | .checkLimit _ => inferInstanceAs (Decidable (_ → _))
  | .accept | .connectTo _ | .sleepElapsed _ | .checkAutoReconnect _ | .cancelled _ | .handshake .. | .giveUp _ | .register .. | .registerDataChannel _
  | .setShouldReconnect .. | .setAutoReconnect _ | .disconnectPeer .. | .leaveLoop _ | .cleanup _
  | .cancelShutdownToken => .isTrue trivial

end Connecting

namespace TransportManager

variable {self : TransportManager} {peerId : PeerId}

theorem connectionCount_insert (hnew : peerId ∉ self.connections) (conn : PeerConnection)
    (nextGeneration : Nat) :
    connectionCount { self with connections := self.connections.insert peerId conn, nextGeneration } =
      self.connectionCount + 1 :=
  Assoc.length_keys_insert hnew

theorem connectionCount_modify (f : PeerConnection → PeerConnection) :
    (self.modify peerId f).connectionCount = self.connectionCount := by
  unfold modify
  cases hlookup : self.connections.lookup peerId with
  | none => rfl
  | some conn => exact Assoc.length_keys_replace hlookup

theorem connectionCount_registerDataChannel :
    (self.registerDataChannel peerId).connectionCount = self.connectionCount := by
  unfold registerDataChannel
  cases hlookup : self.connections.lookup peerId with
  | none => rfl
  | some conn => exact Assoc.length_keys_replace hlookup

theorem connectionCount_tearDown : (self.tearDown peerId).connectionCount ≤ self.connectionCount := by
  unfold tearDown
  cases self.connections.lookup peerId with
  | none => exact Nat.le_refl _
  | some conn =>
    simp only [connectionCount, AList.keys_erase]
    exact List.length_erase_le

/-- What the operations other than a registration do: entries only go away. -/
structure Shrinks (manager next : TransportManager) : Prop where
  count : next.connectionCount ≤ manager.connectionCount
  absent : ∀ peer, manager.connections.lookup peer = none → next.connections.lookup peer = none
  shutdown : manager.shutdownCancelled = true → next.shutdownCancelled = true

theorem Shrinks.refl (self : TransportManager) : Shrinks self self :=
  ⟨Nat.le_refl _, fun _ => id, id⟩

theorem shrinks_modify (f : PeerConnection → PeerConnection) : Shrinks self (self.modify peerId f) :=
  ⟨Nat.le_of_eq (connectionCount_modify f), fun _ => lookup_modify_none, modify_shutdownCancelled.trans⟩

theorem shrinks_registerDataChannel : Shrinks self (self.registerDataChannel peerId) :=
  ⟨Nat.le_of_eq connectionCount_registerDataChannel, fun _ => lookup_registerDataChannel_none,
    registerDataChannel_shutdownCancelled.trans⟩

theorem shrinks_tearDown : Shrinks self (self.tearDown peerId) :=
  ⟨connectionCount_tearDown, fun _ => lookup_tearDown_none, tearDown_shutdownCancelled.trans⟩

end TransportManager

namespace Connecting

section

variable {config : ConnectConfig} {s t : Connecting} {i : Nat} {old task : ConnectTask} {more : List ConnectTask}

theorem fail_phase (config : ConnectConfig) (s : Connecting) (task : ConnectTask) :
    ((s.fail config task).phase = .sleeping ∧ s.manager.shutdownCancelled = false) ∨
      (s.fail config task).phase = .finished := by
  unfold Connecting.fail ConnectTask.fail
  split
  · cases s.manager.shutdownCancelled with
    | false => exact (ite_eq_or_eq _ _ _).symm.imp_left fun h => ⟨h, rfl⟩
    | true => exact .inr (ite_self _)
  · exact .inr rfl

theorem admitted_fail (config : ConnectConfig) (s : Connecting) (task : ConnectTask) :
    Admitted (s.fail config task) = false := by
  cases fail_phase config s task with
  | inl h => rw [Admitted, h.1]
  | inr h => rw [Admitted, h]

def load (s : Connecting) : Nat := s.manager.connectionCount + s.admitted

theorem load_setTask (hi : s.tasks[i]? = some old) :
    (s.setTask i task).load + (if Admitted old then 1 else 0) =
      s.load + if Admitted task then 1 else 0 := by
  have hcount := Slots.countP_set_add (p := Admitted) (a := task) hi
  simp only [load, admitted, setTask]
  omega

theorem load_setTask_le (hi : s.tasks[i]? = some old) (h : Admitted task = true → Admitted old = true) :
    (s.setTask i task).load ≤ s.load := by
  have hload : (s.setTask i task).load + (if Admitted old then 1 else 0) =
      s.load + if Admitted task then 1 else 0 := load_setTask hi
  split at hload
  · split at hload <;> omega
  · next hold =>
    rw [if_neg (mt h hold)] at hload
    omega

theorem load_append (hnew : ∀ task ∈ more, Admitted task = false) {manager : TransportManager}
    {readTasks : List ReadTask} (hcount : manager.connectionCount ≤ s.manager.connectionCount) :
    load { manager, readTasks, tasks := s.tasks ++ more } ≤ s.load := by
  have hnone : more.countP Admitted = 0 := List.countP_eq_zero.mpr (by simpa using hnew)
  simp only [load, admitted, List.countP_append, hnone]
  omega

inductive Effect (config : ConnectConfig) (s : Connecting) : Action → Connecting → Prop
  | accept : Effect config s .accept { s with tasks := s.tasks ++ [⟨.inbound, .waiting⟩] }
  | connectTo {addr : String} :
    Effect config s (.connectTo addr) { s with tasks := s.tasks ++ [⟨.outbound addr, .waiting⟩] }
  | stop {a : Action} {i : Nat} {old : ConnectTask} (hi : s.tasks[i]? = some old) :
    Effect config s a (s.setTask i { old with phase := .finished })
  | sleepElapsed {i : Nat} {origin : Origin} (hi : s.tasks[i]? = some ⟨origin, .sleeping⟩) :
    Effect config s (.sleepElapsed i) (s.setTask i ⟨origin, .checking⟩)
  | attempt {i : Nat} {origin : Origin} (hi : s.tasks[i]? = some ⟨origin, .checking⟩) :
    Effect config s (.checkAutoReconnect i) (s.setTask i ⟨origin, .waiting⟩)
  | fail {a : Action} {i : Nat} {old : ConnectTask} (hi : s.tasks[i]? = some old)
    (hbusy : old.phase ≠ .sleeping ∧ old.phase ≠ .finished) :
    Effect config s a (s.setTask i (s.fail config old))
  | check {i : Nat} {origin : Origin} (hi : s.tasks[i]? = some ⟨origin, .waiting⟩)
    (hroom : s.manager.connectionCount < config.maxConnections) :
    Effect config s (.checkLimit i) (s.setTask i ⟨origin, .checked⟩)
  | handshake {i : Nat} {msg : InternalMessage} {peerIp : String} {origin : Origin} {peerId : PeerId}
    {listenPort : UInt16} {notify : InternalMessage} (hi : s.tasks[i]? = some ⟨origin, .checked⟩)
    (hok : s.answer origin msg = .ok (peerId, listenPort, notify)) :
    Effect config s (.handshake i msg peerIp)
      (s.setTask i ⟨origin, .ready peerId (peerIp ++ ":" ++ toString listenPort)⟩)
  | register {i now : Nat} {origin : Origin} {peerId : PeerId} {peerAddr : String}
    (hi : s.tasks[i]? = some ⟨origin, .ready peerId peerAddr⟩)
    (hnew : peerId ∉ s.manager.connections) :
    Effect config s (.register i now)
      { manager := { s.manager with
          connections := s.manager.connections.insert peerId
            { controlCancel := s.manager.nextGeneration
              dataCancel := none
              info := .new peerId peerAddr now }
          nextGeneration := s.manager.nextGeneration + 1 }
        readTasks := s.readTasks ++ [{ peerId, generation := s.manager.nextGeneration, exited := false }]
        tasks := s.tasks.set i ⟨origin, .finished⟩ }
  | manage {a : Action} {manager : TransportManager} {readTasks : List ReadTask}
    (h : s.manager.Shrinks manager) : Effect config s a { manager, readTasks, tasks := s.tasks }
  | cleanup {generation : Nat} {readTask : ReadTask}
    (hfind : (s.readTasks.find? fun task => task.generation == generation && task.exited) =
      some readTask) :
    Effect config s (.cleanup generation)
      { manager := s.manager.tearDown readTask.peerId
        readTasks := s.readTasks.filter fun task => task.generation != generation
        tasks := s.tasks ++ (((s.manager.cleanup readTask.peerId).2).map fun addr =>
          ⟨.reconnect readTask.peerId addr 0, .sleeping⟩).toList }

theorem step_effect {a : Action} (h : s.step config a = some t) : Effect config s a t := by
  cases a with
  | accept =>
    cases h
    exact .accept
  | connectTo addr =>
    cases h
    exact .connectTo
  | sleepElapsed i =>
    simp only [step] at h
    split at h
    · next origin hi =>
      cases h
      exact .sleepElapsed hi
    · cases h
  | checkAutoReconnect i =>
    simp only [step] at h
    split at h
    · next origin hi =>
      cases h
      split
      · exact .attempt hi
      · exact .stop hi
    · cases h
  | cancelled i =>
    simp only [step] at h
    split at h
    · next hi =>
      simp only [Option.ite_none_right_eq_some, Option.some.injEq] at h
      obtain ⟨_, rfl⟩ := h
      exact .stop hi
    · cases h
  | checkLimit i =>
    simp only [step] at h
    split at h
    · next origin hi =>
      cases h
      split
      · exact .fail hi ⟨nofun, nofun⟩
      · next hroom => exact .check hi (Nat.lt_of_not_le hroom)
    · cases h
  | handshake i msg peerIp =>
    simp only [step] at h
    split at h
    · next origin hi =>
      cases h
      split
      · next hok => exact .handshake hi hok
      · exact .fail hi ⟨nofun, nofun⟩
    · cases h
  | giveUp i =>
    simp only [step] at h
    split at h
    · next hi =>
      cases h
      exact .fail hi ⟨nofun, nofun⟩
    · next hi =>
      cases h
      exact .fail hi ⟨nofun, nofun⟩
    · cases h
  | register i now =>
    simp only [step] at h
    split at h
    · next origin peerId peerAddr hi =>
      obtain ⟨_, heq⟩ | ⟨hnew, heq⟩ := s.manager.registerConnection_cases peerId peerAddr now
      · rw [heq] at h
        cases h
        exact .fail hi ⟨nofun, nofun⟩
      · rw [heq] at h
        cases h
        exact .register hi hnew
    · cases h
  | registerDataChannel peerId =>
    cases h
    exact .manage shrinks_registerDataChannel
  | setShouldReconnect peerId shouldReconnect =>
    cases h
    exact .manage (shrinks_modify _)
  | setAutoReconnect enabled =>
    cases h
    exact .manage ⟨Nat.le_refl _, fun _ => id, id⟩
  | disconnectPeer peerId fits =>
    obtain ⟨e, heq⟩ | heq := s.manager.disconnectPeer_cases peerId fits
    · simp only [step, heq, Option.some.injEq] at h
      subst h
      exact .manage (Shrinks.refl _)
    · simp only [step, heq, Option.some.injEq] at h
      subst h
      exact .manage shrinks_tearDown
  | leaveLoop generation =>
    simp only [step, Option.ite_none_right_eq_some, Option.some.injEq] at h
    obtain ⟨_, rfl⟩ := h
    exact .manage (Shrinks.refl _)
  | cleanup generation =>
    simp only [step] at h
    split at h
    · next readTask hfind =>
      cases h
      rw [cleanup_fst]
      exact .cleanup hfind
    · cases h
  | cancelShutdownToken =>
    cases h
    exact .manage ⟨Nat.le_refl _, fun _ => id, fun _ => rfl⟩

theorem step_load (hs : s.load ≤ config.maxConnections) {a : Action} (ha : s.LeavesRoom config a)
    (h : s.step config a = some t) : t.load ≤ config.maxConnections := by
  suffices hle : t.load ≤ s.load ∨ t.load ≤ config.maxConnections by omega
  cases step_effect h with
  | accept => exact .inl (load_append (by simp [Admitted]) (Nat.le_refl _))
  | connectTo => exact .inl (load_append (by simp [Admitted]) (Nat.le_refl _))
  | stop hi => exact .inl (load_setTask_le hi nofun)
  | sleepElapsed hi => exact .inl (load_setTask_le hi nofun)
  | attempt hi => exact .inl (load_setTask_le hi nofun)
  | fail hi => exact .inl (load_setTask_le hi (by simp [admitted_fail]))
  | @check i origin hi hroom =>
    have hbelow := ha hroom
    have hload : (s.setTask i ⟨origin, .checked⟩).load + 0 = s.load + 1 := load_setTask hi
    simp only [load] at hload ⊢
    omega
  | handshake hi => exact .inl (load_setTask_le hi fun _ => rfl)
  | @register i now origin peerId peerAddr hi hnew =>
    have hcount : (s.tasks.set i ⟨origin, .finished⟩).countP Admitted + 1 =
        s.tasks.countP Admitted + 0 := Slots.countP_set_add hi
    simp only [load, admitted, connectionCount_insert hnew]
    omega
  | manage hshrinks => exact .inl (Nat.add_le_add_right hshrinks.count _)
  | cleanup =>
    refine .inl (load_append ?_ connectionCount_tearDown)
    intro new hnew
    rw [Option.mem_toList, Option.map_eq_some_iff] at hnew
    obtain ⟨addr, _, rfl⟩ := hnew
    rfl

/-- As long as a task passes the check only when there is room for it and for all that have passed
before, the map stays within the limit. -/
theorem connections_within_limit (config : ConnectConfig) (manager : TransportManager)
    (hempty : manager.connections = ∅) (acts : List Action)
    (halong : Along (step config) (LeavesRoom config) (start manager) acts)
    (hrun : run (step config) (start manager) acts = some s) :
    s.manager.connectionCount ≤ config.maxConnections := by
  have hstart : (start manager).load ≤ config.maxConnections := by
    simp [load, start, admitted, connectionCount, hempty]
  have hload := invariant (I := fun s => s.load ≤ config.maxConnections)
    (fun s a t hs ha h => step_load hs ha h) hstart halong hrun
  exact (Nat.le_add_right _ _).trans hload

end

def sampleManager : TransportManager := .new ⟨"a"⟩ "room" 4000 true

/-- The second inbound handshake passes the check after the first has registered. -/
theorem second_handshake_rejected :
    ∃ s, run (step ⟨1, 0⟩) (start sampleManager)
        [.accept, .accept, .checkLimit 0, .handshake 0 (.handshake ⟨"b"⟩ 4000 1 "room") "10.0.0.2",
          .register 0 0, .checkLimit 1] = some s ∧
      s.manager.connectionCount ≤ 1 := by
  have hsome : (run (step ⟨1, 0⟩) (start sampleManager)
      [.accept, .accept, .checkLimit 0, .handshake 0 (.handshake ⟨"b"⟩ 4000 1 "room") "10.0.0.2",
        .register 0 0, .checkLimit 1]).isSome = true := by decide +kernel
  obtain ⟨s, hrun⟩ := Option.isSome_iff_exists.mp hsome
  exact ⟨s, hrun, connections_within_limit ⟨1, 0⟩ sampleManager rfl _ (by decide +kernel) hrun⟩

/-- Two inbound handshakes pass the check before either has registered. -/
theorem limit_exceeded :
    ¬ ∀ acts s, run (step ⟨1, 0⟩) (start sampleManager) acts = some s →
      s.manager.connectionCount ≤ 1 := by
  intro h
  have hcount : ((run (step ⟨1, 0⟩) (start sampleManager)
      [.accept, .accept, .checkLimit 0, .checkLimit 1,
        .handshake 0 (.handshake ⟨"b"⟩ 4000 1 "room") "10.0.0.2",
        .handshake 1 (.handshake ⟨"c"⟩ 4000 1 "room") "10.0.0.3", .register 0 0,
        .register 1 0]).map fun s => s.manager.connectionCount) = some 2 := by decide +kernel
  obtain ⟨s, hrun, htwo⟩ := Option.map_eq_some_iff.mp hcount
  have hle := h _ s hrun
  omega

end Connecting

end MetaMystia

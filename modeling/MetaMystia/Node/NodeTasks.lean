import MetaMystia.Node.NetworkState
import MetaMystia.Transport.ConnectTasks

/-! # One node with all its tasks

The message handler, the membership watcher, the ping and election timers and the
calls of the C interface run beside the tasks that establish connections and the
control read tasks. The read tasks feed the incoming queue, and the handler may be
arbitrarily far behind. `Retains` says what a step can do to the connection map.
-/

namespace MetaMystia

open Runs TransportManager

/-- `timedOut` is what is left of the list of the ping task's tick, `marked` is set while the status
of its first peer is updated and the peer is not yet disconnected. `reconnectEvents` holds the peers
for which a reconnect event of status 0 was emitted. -/
structure Node where
  net : NetworkState
  timedOut : List PeerId
  marked : Bool
  readTasks : List ReadTask
  tasks : List ConnectTask
  incoming : List (PeerId × InternalMessage)
  reconnectEvents : List PeerId

namespace Node

/-- `deliver` stands for the notify packet of a handshake and for packets of data channels. -/
inductive Action
  | connecting (action : Connecting.Action)
  | read (generation : Nat) (msg : InternalMessage)
  | deliver (peerId : PeerId) (msg : InternalMessage)
  | handle (now : Clock)
  | watch
  | checkTimeouts (now : Nat)
  | updateTimedOut
  | disconnectTimedOut (fits : Bool)
  | electionTick (now : Clock)
  | disconnectPeer (peerId : PeerId) (fits : Bool)
  | setLeader (leaderId : PeerId)
  | enableAutoElection (enable : Bool)

def start (net : NetworkState) : Node := ⟨net, [], false, [], [], [], []⟩

/-- The part of the node that the connecting tasks and the control read tasks work on. -/
def connecting (s : Node) : Connecting := ⟨s.net.transport, s.readTasks, s.tasks⟩

def setConnecting (s : Node) (c : Connecting) : Node :=
  { s with net := { s.net with transport := c.manager }, readTasks := c.readTasks, tasks := c.tasks }

/-- The read task that cleans up, once it has left its loop. -/
def exitedTask (s : Node) (generation : Nat) : Option ReadTask :=
  s.readTasks.find? fun task => task.generation == generation && task.exited

def readingTask (s : Node) (generation : Nat) : Option ReadTask :=
  s.readTasks.find? fun task => task.generation == generation && !task.exited

/-- The reconnect event of status 0 that goes with a `spawn_reconnect`. -/
def lostEvents (s : Node) : Connecting.Action → List PeerId
  | .cleanup generation =>
    match s.exitedTask generation with
    | some task => ((s.net.transport.cleanup task.peerId).2.map fun _ => task.peerId).toList
    | none => []
  | _ => []

/-- The flag and the entry are changed by the handler and by calls, not by the connecting tasks. -/
def isTaskAction : Connecting.Action → Bool
  | .setShouldReconnect .. | .disconnectPeer .. => false
  | _ => true

def dialled : Outgoing → Option ConnectTask
  | .connect addr => some ⟨.outbound addr, .waiting⟩
  | _ => none

def step (config : ConnectConfig) (s : Node) : Action → Option Node
  | .connecting action =>
    if isTaskAction action then
      (s.connecting.step config action).map fun c =>
        { s.setConnecting c with reconnectEvents := s.reconnectEvents ++ s.lostEvents action }
    else none
  | .read generation msg =>
    (s.readingTask generation).map fun task =>
      { s with incoming := s.incoming ++ [(task.peerId, msg)] }
  | .deliver peerId msg => some { s with incoming := s.incoming ++ [(peerId, msg)] }
  | .handle now =>
    match s.incoming with
    | (peerId, msg) :: rest =>
      let (net, out) := s.net.handleMessage peerId now msg
      some { s with net, incoming := rest, tasks := s.tasks ++ out.filterMap dialled }
    | [] => none
  | .watch => s.net.watch.map fun net => { s with net }
  | .checkTimeouts now =>
    if s.timedOut = [] then some { s with timedOut := s.net.membership.checkTimeouts now } else none
  | .updateTimedOut =>
    match s.timedOut, s.marked with
    | peerId :: _, false => some { s with net := s.net.markTimedOut peerId, marked := true }
    | _, _ => none
  | .disconnectTimedOut fits =>
    match s.timedOut, s.marked with
    | peerId :: rest, true =>
      some { s with net := s.net.disconnectTimedOut fits peerId, timedOut := rest, marked := false }
    | _, _ => none
  | .electionTick now => some { s with net := (s.net.electionTick now).1 }
  | .disconnectPeer peerId fits => some { s with net := s.net.disconnectPeer peerId fits }
  | .setLeader leaderId =>
    some { s with net := { s.net with
      leaderElection := (s.net.leaderElection.setLeader leaderId).election } }
  | .enableAutoElection enable =>
    some { s with net := { s.net with
      leaderElection := (s.net.leaderElection.enableAutoElection enable).election } }

/-- The step handles a `PeerLeave` that names the peer. -/
def HandlesLeave (s : Node) (sender peerId : PeerId) : Action → Prop
  | .handle _ => s.incoming.head? = some (sender, .peerLeave peerId)
  | _ => False

instance (s : Node) (sender peerId : PeerId) : (a : Action) → Decidable (s.HandlesLeave sender peerId a)
  | .handle _ => inferInstanceAs (Decidable (_ = _))
  | .connecting _ | .read .. | .deliver .. | .watch | .checkTimeouts _ | .updateTimedOut
  | .disconnectTimedOut _ | .electionTick _ | .disconnectPeer .. | .setLeader _
  | .enableAutoElection _ => .isFalse id

/-- The step may take the entry of this peer down. -/
def Drops (s : Node) (peerId : PeerId) : Action → Prop
  | .disconnectPeer peer fits => peer = peerId ∧ fits = true
  | .disconnectTimedOut fits => s.timedOut.head? = some peerId ∧ fits = true
  | .connecting (.cleanup generation) => ∃ task, s.exitedTask generation = some task ∧ task.peerId = peerId
  | _ => False

end Node

/-- Entries are kept as far as a reconnect is concerned, except that `leaves` lose the flag and
`drops` may go away. -/
structure TransportManager.Retains (manager next : TransportManager) (leaves drops : PeerId → Prop) :
    Prop where
  old : ∀ p new, next.connections.lookup p = some new →
    ∃ conn, manager.connections.lookup p = some conn ∧ new.controlCancel = conn.controlCancel ∧
      new.info.addr = conn.info.addr ∧
      (new.info.shouldReconnect = false ↔ conn.info.shouldReconnect = false ∨ leaves p)
  gone : ∀ p conn, manager.connections.lookup p = some conn → next.connections.lookup p = none → drops p
  counter : manager.nextGeneration ≤ next.nextGeneration
  localPeerId : next.localPeerId = manager.localPeerId

namespace TransportManager

variable {self next last : TransportManager} {leaves drops : PeerId → Prop} {peerId : PeerId}

theorem Retains.of_connections (hconnections : next.connections = self.connections)
    (hcounter : self.nextGeneration ≤ next.nextGeneration) (hlocal : next.localPeerId = self.localPeerId) :
    Retains self next (fun _ => False) drops where
  old _ new h := ⟨new, hconnections ▸ h, rfl, rfl, by simp⟩
  gone p conn hsome hnone := by
    rw [hconnections, hsome] at hnone
    cases hnone
  counter := hcounter
  localPeerId := hlocal

theorem Retains.refl (self : TransportManager) : Retains self self (fun _ => False) drops :=
  .of_connections rfl (Nat.le_refl _) rfl

theorem Retains.trans (h : Retains self next leaves drops) (h' : Retains next last leaves drops) :
    Retains self last leaves drops where
  old p new hnew := by
    obtain ⟨mid, hmid, hgen, haddr, hflag⟩ := h'.old p new hnew
    obtain ⟨conn, hconn, hgen', haddr', hflag'⟩ := h.old p mid hmid
    refine ⟨conn, hconn, hgen.trans hgen', haddr.trans haddr', ?_⟩
    rw [hflag, hflag', or_assoc, or_self]
  gone p conn hconn hlast := by
    cases hmid : next.connections.lookup p with
    | none => exact h.gone p conn hconn hmid
    | some mid => exact h'.gone p mid hmid hlast
  counter := h.counter.trans h'.counter
  localPeerId := h'.localPeerId.trans h.localPeerId

theorem Retains.congr {leaves' drops' : PeerId → Prop} (h : Retains self next leaves drops)
    (hleaves : ∀ p, leaves p ↔ leaves' p) (hdrops : ∀ p, drops p → drops' p) :
    Retains self next leaves' drops' where
  old p new hnew := by
    obtain ⟨conn, hconn, hgen, haddr, hflag⟩ := h.old p new hnew
    exact ⟨conn, hconn, hgen, haddr, by rw [hflag, hleaves]⟩
  gone p conn hconn hnone := hdrops p (h.gone p conn hconn hnone)
  counter := h.counter
  localPeerId := h.localPeerId

theorem lookup_of_modify_none {f : PeerConnection → PeerConnection} {peer : PeerId}
    (h : (self.modify peerId f).connections.lookup peer = none) :
    self.connections.lookup peer = none := by
  unfold modify at h
  cases hlookup : self.connections.lookup peerId with
  | none => simpa [hlookup] using h
  | some conn =>
    simp only [hlookup] at h
    exact (AList.lookup_insert_eq_none.mp h).2

/-- A change of an entry that leaves its token and its address alone. -/
theorem Retains.of_modify {f : PeerConnection → PeerConnection}
    (hf : ∀ conn, (f conn).controlCancel = conn.controlCancel ∧ (f conn).info.addr = conn.info.addr)
    (hleaves : ∀ conn, (f conn).info.shouldReconnect = false ↔
      conn.info.shouldReconnect = false ∨ leaves peerId) (hother : ∀ p, p ≠ peerId → ¬ leaves p) :
    Retains self (self.modify peerId f) leaves drops where
  old p new hnew := by
    obtain ⟨conn, hconn, ⟨rfl, rfl⟩ | ⟨hne, rfl⟩⟩ := lookup_of_modify hnew
    · exact ⟨conn, hconn, (hf conn).1, (hf conn).2, hleaves conn⟩
    · exact ⟨new, hconn, rfl, rfl, by simp [hother p hne]⟩
  gone p conn hconn hnone := absurd (hconn.symm.trans (lookup_of_modify_none hnone)) nofun
  counter := Nat.le_of_eq modify_nextGeneration.symm
  localPeerId := modify_localPeerId

theorem retains_setShouldReconnect :
    Retains self (self.setShouldReconnect peerId false) (· = peerId) drops :=
  .of_modify (fun _ => ⟨rfl, rfl⟩) (by simp) fun _ hne => hne

theorem retains_updateLastSeen (now : Nat) :
    Retains self (self.updateLastSeen peerId now) (fun _ => False) drops :=
  .of_modify (fun _ => ⟨rfl, rfl⟩) (by simp) fun _ _ => id

theorem retains_updateRtt (rttMs : UInt32) (now : Nat) :
    Retains self (self.updateRtt peerId rttMs now) (fun _ => False) drops :=
  .of_modify (fun _ => ⟨rfl, rfl⟩) (by simp) fun _ _ => id

theorem retains_tearDown : Retains self (self.tearDown peerId) (fun _ => False) (· = peerId) where
  old p new hnew := ⟨new, lookup_of_tearDown hnew, rfl, rfl, by simp⟩
  gone p conn hconn hnone := by
    by_contra hne
    rw [lookup_tearDown_of_ne hne] at hnone
    exact absurd (hconn.symm.trans hnone) nofun
  counter := Nat.le_of_eq tearDown_nextGeneration.symm
  localPeerId := tearDown_localPeerId

theorem retains_registerDataChannel :
    Retains self (self.registerDataChannel peerId) (fun _ => False) drops := by
  unfold registerDataChannel
  cases hlookup : self.connections.lookup peerId with
  | none => exact .of_connections rfl (Nat.le_succ _) rfl
  | some old =>
    refine ⟨?_, ?_, Nat.le_succ _, rfl⟩
    · intro p new hnew
      obtain ⟨rfl, rfl⟩ | ⟨_, hold⟩ := Assoc.lookup_insert_cases hnew
      · exact ⟨old, hlookup, rfl, rfl, by simp⟩
      · exact ⟨new, hold, rfl, rfl, by simp⟩
    · intro p conn hconn hnone
      exact absurd (hconn.symm.trans (AList.lookup_insert_eq_none.mp hnone).2) nofun

theorem retains_disconnectPeer {fits : Bool} (h : self.disconnectPeer peerId fits = .ok next) :
    Retains self next (fun _ => False) fun p => peerId = p ∧ fits = true := by
  cases fits with
  | false => cases h
  | true =>
    cases h
    exact retains_tearDown.congr (fun _ => Iff.rfl) fun p hp => ⟨hp.symm, rfl⟩

end TransportManager

namespace NetworkState

variable {s : NetworkState} {drops : PeerId → Prop}

theorem retains_disconnectTimedOut {fits : Bool} {peerId : PeerId}
    (hdrops : fits = true → drops peerId) :
    s.transport.Retains (s.disconnectTimedOut fits peerId).transport (fun _ => False) drops := by
  unfold disconnectTimedOut
  cases h : s.transport.disconnectPeer peerId fits with
  | error e => exact .refl _
  | ok next =>
    refine (retains_disconnectPeer h).congr (fun _ => Iff.rfl) ?_
    rintro p ⟨rfl, hfits⟩
    exact hdrops hfits

theorem retains_timeouts {fits : Bool} {timedOut : List PeerId}
    (hdrops : ∀ p ∈ timedOut, fits = true → drops p) :
    s.transport.Retains (timedOut.foldl (timeoutPeer fits) s).transport (fun _ => False) drops := by
  induction timedOut generalizing s with
  | nil => exact .refl _
  | cons peerId rest ih =>
    have hfirst : s.transport.Retains (s.timeoutPeer fits peerId).transport (fun _ => False) drops :=
      retains_disconnectTimedOut (s := s.markTimedOut peerId) (hdrops peerId List.mem_cons_self)
    exact hfirst.trans (ih fun p hp => hdrops p (List.mem_cons_of_mem _ hp))

theorem retains_handleMembership (peerId : PeerId) (now : Clock) (msg : InternalMessage) :
    s.transport.Retains (s.handleMembership peerId now msg).1.transport (fun p => msg = .peerLeave p)
      drops := by
  cases msg with
  | peerLeave leavingId =>
    refine retains_setShouldReconnect.congr (fun p => ?_) fun _ => id
    rw [InternalMessage.peerLeave.injEq, eq_comm]
  | handshake remoteId =>
    rw [handleMembership, transport_peerConnected]
    exact (Retains.refl _).congr (by simp) fun _ => id
  | handshakeAck remoteId _ success =>
    cases success with
    | false => exact (Retains.refl _).congr (by simp) fun _ => id
    | true =>
      simp only [handleMembership, if_true, transport_peerConnected]
      exact (Retains.refl _).congr (by simp) fun _ => id
  | pong timestampMs =>
    have hseen : s.transport.Retains (s.transport.updateLastSeen peerId now.instant) (fun _ => False)
        drops := retains_updateLastSeen now.instant
    exact (hseen.trans (retains_updateRtt _ now.instant)).congr (by simp) fun _ => id
  | _ => exact (Retains.refl _).congr (by simp) fun _ => id

end NetworkState

namespace Connecting

variable {config : ConnectConfig} {s t : Connecting}

/-- The actions of a connecting task before it registers. -/
def isTaskStep : Action → Bool
  | .accept | .connectTo _ | .sleepElapsed _ | .checkAutoReconnect _ | .cancelled _ | .checkLimit _
  | .handshake .. | .giveUp _ => true
  | _ => false

theorem step_before_register {a : Action} (ha : isTaskStep a = true) (h : s.step config a = some t) :
    t.manager = s.manager ∧ t.readTasks = s.readTasks := by
  cases a with
  | accept | connectTo addr =>
    cases h
    exact ⟨rfl, rfl⟩
  | sleepElapsed i | checkAutoReconnect i | checkLimit i | handshake i msg peerIp =>
    simp only [step] at h
    split at h
    · cases h
      exact ⟨rfl, rfl⟩
    · cases h
  | cancelled i =>
    simp only [step] at h
    split at h
    · simp only [Option.ite_none_right_eq_some, Option.some.injEq] at h
      obtain ⟨_, rfl⟩ := h
      exact ⟨rfl, rfl⟩
    · cases h
  | giveUp i =>
    simp only [step] at h
    split at h
    · cases h
      exact ⟨rfl, rfl⟩
    · cases h
      exact ⟨rfl, rfl⟩
    · cases h
  | _ => cases ha

end Connecting

namespace Node

variable {config : ConnectConfig} {s t : Node}

/-- The connection map with the control read tasks. -/
def toTransport (s : Node) : Transport := ⟨s.net.transport, s.readTasks⟩

/-- What a step other than a registration keeps of the entries and of the read tasks. -/
structure Keeps (s : Node) (a : Action) (t : Node) : Prop where
  transport : s.net.transport.Retains t.net.transport (fun p => ∃ sender, s.HandlesLeave sender p a)
    fun p => s.Drops p a
  readTasks : ∀ task ∈ t.readTasks, ∃ old ∈ s.readTasks, old.peerId = task.peerId ∧
    old.generation = task.generation

inductive Effect (s : Node) : Action → Node → Prop
  | register {i now : Nat} {origin : Origin} {peerId : PeerId} {peerAddr : String} {t : Node}
    (hi : s.tasks[i]? = some ⟨origin, .ready peerId peerAddr⟩) (hnew : peerId ∉ s.net.transport.connections)
    (htransport : t.net.transport = { s.net.transport with
      connections := s.net.transport.connections.insert peerId
        { controlCancel := s.net.transport.nextGeneration
          dataCancel := none
          info := .new peerId peerAddr now }
      nextGeneration := s.net.transport.nextGeneration + 1 })
    (hread : t.readTasks = s.readTasks ++
      [{ peerId, generation := s.net.transport.nextGeneration, exited := false }]) :
    Effect s (.connecting (.register i now)) t
  | keep {a : Action} {t : Node} (h : Keeps s a t) : Effect s a t

theorem Keeps.of_transport {a : Action} (ha : ∀ sender p, ¬ s.HandlesLeave sender p a)
    (h : s.net.transport.Retains t.net.transport (fun _ => False) fun p => s.Drops p a)
    (hread : t.readTasks = s.readTasks) : Keeps s a t where
  transport := h.congr (by simp [ha]) fun _ => id
  readTasks task htask := ⟨task, hread ▸ htask, rfl, rfl⟩

theorem effect_connecting {action : Connecting.Action}
    (h : s.step config (.connecting action) = some t) : Effect s (.connecting action) t := by
  simp only [step, Option.ite_none_right_eq_some, Option.map_eq_some_iff] at h
  obtain ⟨hkind, c, hc, rfl⟩ := h
  have quiet : ∀ sender p, ¬ s.HandlesLeave sender p (.connecting action) := fun _ _ => id
  have before : Connecting.isTaskStep action = true →
      Effect s (.connecting action) { s.setConnecting c with
        reconnectEvents := s.reconnectEvents ++ s.lostEvents action } := by
    intro haction
    obtain ⟨hmanager, hread⟩ := Connecting.step_before_register haction hc
    refine .keep (.of_transport quiet ?_ hread)
    simp only [setConnecting, hmanager]
    exact .refl _
  cases action with
  | accept | connectTo | sleepElapsed | checkAutoReconnect | cancelled | checkLimit | handshake | giveUp =>
    exact before rfl
  | register i now =>
    simp only [Connecting.step] at hc
    split at hc
    · next origin peerId peerAddr hi =>
      obtain ⟨_, heq⟩ | ⟨hnew, heq⟩ := s.net.transport.registerConnection_cases peerId peerAddr now
      · simp only [connecting, heq, Option.some.injEq] at hc
        subst hc
        exact .keep (.of_transport quiet (.refl _) rfl)
      · simp only [connecting, heq, Option.some.injEq] at hc
        subst hc
        exact .register hi hnew rfl rfl
    · cases hc
  | registerDataChannel peerId =>
    cases hc
    exact .keep (.of_transport quiet retains_registerDataChannel rfl)
  | setShouldReconnect | disconnectPeer => cases hkind
  | setAutoReconnect enabled =>
    cases hc
    exact .keep (.of_transport quiet (.of_connections rfl (Nat.le_refl _) rfl) rfl)
  | cancelShutdownToken =>
    cases hc
    exact .keep (.of_transport quiet (.of_connections rfl (Nat.le_refl _) rfl) rfl)
  | leaveLoop generation =>
    simp only [Connecting.step, Option.ite_none_right_eq_some, Option.some.injEq] at hc
    obtain ⟨_, rfl⟩ := hc
    refine .keep ⟨(Retains.refl _).congr (by simp [quiet]) fun _ => id, ?_⟩
    intro task htask
    obtain ⟨old, hold, rfl⟩ := List.mem_map.mp htask
    refine ⟨old, hold, ?_⟩
    split <;> exact ⟨rfl, rfl⟩
  | cleanup generation =>
    simp only [Connecting.step] at hc
    split at hc
    · next task hfind =>
      cases hc
      refine .keep ⟨?_, ?_⟩
      · simp only [setConnecting, connecting, cleanup_fst]
        exact retains_tearDown.congr (by simp [quiet]) fun p hp => ⟨task, hfind, hp.symm⟩
      · intro old hold
        exact ⟨old, List.mem_of_mem_filter hold, rfl, rfl⟩
    · cases hc

theorem updateTimedOut_cases (h : s.step config .updateTimedOut = some t) :
    ∃ peerId rest, s.timedOut = peerId :: rest ∧ s.marked = false ∧
      t = { s with net := s.net.markTimedOut peerId, marked := true } := by
  simp only [step] at h
  split at h
  · next peerId rest htimedOut hmarked =>
    cases h
    exact ⟨peerId, rest, htimedOut, hmarked, rfl⟩
  · cases h

theorem disconnectTimedOut_cases {fits : Bool} (h : s.step config (.disconnectTimedOut fits) = some t) :
    ∃ peerId rest, s.timedOut = peerId :: rest ∧ s.marked = true ∧
      t = { s with
        net := s.net.disconnectTimedOut fits peerId
        timedOut := rest
        marked := false } := by
  simp only [step] at h
  split at h
  · next peerId rest htimedOut hmarked =>
    cases h
    exact ⟨peerId, rest, htimedOut, hmarked, rfl⟩
  · cases h

theorem step_effect {a : Action} (h : s.step config a = some t) : Effect s a t := by
  cases a with
  | connecting action => exact effect_connecting h
  | read generation msg =>
    obtain ⟨task, _, rfl⟩ := Option.map_eq_some_iff.mp h
    exact .keep (.of_transport (fun _ _ => id) (.refl _) rfl)
  | deliver peerId msg =>
    cases h
    exact .keep (.of_transport (fun _ _ => id) (.refl _) rfl)
  | handle now =>
    simp only [step] at h
    split at h
    · next peerId msg rest hqueue =>
      cases h
      refine .keep ⟨(NetworkState.retains_handleMembership peerId now msg).congr ?_ fun _ => id, ?_⟩
      · simp [HandlesLeave, hqueue]
      · exact fun task htask => ⟨task, htask, rfl, rfl⟩
    · cases h
  | watch =>
    obtain ⟨net, hnet, rfl⟩ := Option.map_eq_some_iff.mp h
    refine .keep (.of_transport (fun _ _ => id) ?_ rfl)
    obtain ⟨_, _, _, rfl⟩ | ⟨_, _, _, _, rfl⟩ := NetworkState.watch_cases hnet <;> exact .refl _
  | checkTimeouts now =>
    simp only [step, Option.ite_none_right_eq_some, Option.some.injEq] at h
    obtain ⟨_, rfl⟩ := h
    exact .keep (.of_transport (fun _ _ => id) (.refl _) rfl)
  | updateTimedOut =>
    obtain ⟨peerId, rest, _, _, rfl⟩ := updateTimedOut_cases h
    exact .keep (.of_transport (fun _ _ => id) (.refl _) rfl)
  | disconnectTimedOut fits =>
    obtain ⟨peerId, rest, htimedOut, _, rfl⟩ := disconnectTimedOut_cases h
    refine .keep (.of_transport (fun _ _ => id) (NetworkState.retains_disconnectTimedOut ?_) rfl)
    exact fun hfits => ⟨by rw [htimedOut, List.head?_cons], hfits⟩
  | electionTick now =>
    cases h
    refine .keep (.of_transport (fun _ _ => id) ?_ rfl)
    rw [s.net.electionTick_fst now]
    exact .refl _
  | disconnectPeer peerId fits =>
    cases h
    refine .keep (.of_transport (fun _ _ => id) ?_ rfl)
    simp only [NetworkState.disconnectPeer]
    cases hok : s.net.transport.disconnectPeer peerId fits with
    | error e => exact .refl _
    | ok next => exact retains_disconnectPeer hok
  | setLeader leaderId =>
    cases h
    exact .keep (.of_transport (fun _ _ => id) (.refl _) rfl)
  | enableAutoElection enable =>
    cases h
    exact .keep (.of_transport (fun _ _ => id) (.refl _) rfl)

/-- The list of the ping task comes from its check. -/
theorem mem_timedOut_of_step {a : Action} {p : PeerId} (h : s.step config a = some t)
    (hp : p ∈ t.timedOut) :
    p ∈ s.timedOut ∨ ∃ now, a = .checkTimeouts now ∧ p ∈ s.net.membership.checkTimeouts now := by
  cases a with
  | connecting action =>
    simp only [step, Option.ite_none_right_eq_some, Option.map_eq_some_iff] at h
    obtain ⟨_, c, _, rfl⟩ := h
    exact .inl hp
  | read generation msg =>
    obtain ⟨_, _, rfl⟩ := Option.map_eq_some_iff.mp h
    exact .inl hp
  | handle now =>
    simp only [step] at h
    split at h
    · cases h
      exact .inl hp
    · cases h
  | watch =>
    obtain ⟨_, _, rfl⟩ := Option.map_eq_some_iff.mp h
    exact .inl hp
  | checkTimeouts now =>
    simp only [step, Option.ite_none_right_eq_some, Option.some.injEq] at h
    obtain ⟨_, rfl⟩ := h
    exact .inr ⟨now, rfl, hp⟩
  | updateTimedOut =>
    obtain ⟨_, _, _, _, rfl⟩ := updateTimedOut_cases h
    exact .inl hp
  | disconnectTimedOut fits =>
    obtain ⟨_, _, htimedOut, _, rfl⟩ := disconnectTimedOut_cases h
    exact .inl (htimedOut ▸ List.mem_cons_of_mem _ hp)
  | deliver | electionTick | disconnectPeer | setLeader | enableAutoElection =>
    cases h
    exact .inl hp

/-- The steps of the ping task for the peers of its list, one after the other. -/
def timeoutSteps (fits : Bool) (timedOut : List PeerId) : List Action :=
  timedOut.flatMap fun _ => [.updateTimedOut, .disconnectTimedOut fits]

theorem run_timeoutSteps (config : ConnectConfig) (fits : Bool) (hmarked : s.marked = false) :
    run (step config) s (timeoutSteps fits s.timedOut) = some
      { s with
        net := s.timedOut.foldl (NetworkState.timeoutPeer fits) s.net
        timedOut := [] } := by
  obtain ⟨net, timedOut, marked, readTasks, tasks, incoming, reconnectEvents⟩ := s
  obtain rfl : marked = false := hmarked
  induction timedOut generalizing net with
  | nil => rfl
  | cons peerId rest ih => exact ih (net.timeoutPeer fits peerId)

/-- A tick in which nothing comes in between does what `pingTick` does. -/
theorem run_pingTick (now : Nat) (fits : Bool) (htimedOut : s.timedOut = []) (hmarked : s.marked = false) :
    run (step config) s
        (.checkTimeouts now :: timeoutSteps fits (s.net.membership.checkTimeouts now)) =
      some { s with net := s.net.pingTick now fits } := by
  let found : Node := { s with timedOut := s.net.membership.checkTimeouts now }
  have hrest := run_timeoutSteps config (s := found) fits hmarked
  rw [← htimedOut] at hrest
  exact run_cons_iff.mpr ⟨found, if_pos htimedOut, hrest⟩

/-- What a step makes of the membership. -/
inductive MembershipEffect (s t : Node) : Action → Prop
  | keep {a : Action} (h : t.net.membership = s.net.membership) : MembershipEffect s t a
  | handle {now : Clock} (sender : PeerId) (msg : InternalMessage)
    (h : t.net.membership = (s.net.handleMembership sender now msg).1.membership) :
    MembershipEffect s t (.handle now)
  | watch {next : NetworkState} (hwatch : s.net.watch = some next)
    (h : t.net.membership = next.membership) : MembershipEffect s t .watch
  | updateTimedOut {peerId : PeerId} (htimedOut : peerId ∈ s.timedOut)
    (h : t.net.membership = s.net.membership.updateStatus peerId .disconnected) :
    MembershipEffect s t .updateTimedOut
  | disconnectPeer {peerId : PeerId} {fits : Bool}
    (h : t.net.membership = (s.net.disconnectPeer peerId fits).membership) :
    MembershipEffect s t (.disconnectPeer peerId fits)

theorem step_membership {a : Action} (h : s.step config a = some t) : MembershipEffect s t a := by
  cases a with
  | connecting action =>
    simp only [step, Option.ite_none_right_eq_some, Option.map_eq_some_iff] at h
    obtain ⟨_, c, _, rfl⟩ := h
    exact .keep rfl
  | read generation msg =>
    obtain ⟨_, _, rfl⟩ := Option.map_eq_some_iff.mp h
    exact .keep rfl
  | handle now =>
    simp only [step] at h
    split at h
    · next peerId msg rest hqueue =>
      cases h
      exact .handle peerId msg rfl
    · cases h
  | watch =>
    obtain ⟨net, hnet, rfl⟩ := Option.map_eq_some_iff.mp h
    exact .watch hnet rfl
  | checkTimeouts now =>
    simp only [step, Option.ite_none_right_eq_some, Option.some.injEq] at h
    obtain ⟨_, rfl⟩ := h
    exact .keep rfl
  | updateTimedOut =>
    obtain ⟨peerId, rest, htimedOut, _, rfl⟩ := updateTimedOut_cases h
    exact .updateTimedOut (htimedOut ▸ List.mem_cons_self) rfl
  | disconnectTimedOut fits =>
    obtain ⟨_, _, _, _, rfl⟩ := disconnectTimedOut_cases h
    exact .keep rfl
  | electionTick now =>
    cases h
    refine .keep ?_
    rw [s.net.electionTick_fst now]
  | disconnectPeer peerId fits =>
    cases h
    exact .disconnectPeer rfl
  | deliver | setLeader | enableAutoElection =>
    cases h
    exact .keep rfl

def sampleNet : NetworkState := .new ⟨"a"⟩ "room" 4000 true 500 3 true .hold

end Node

end MetaMystia

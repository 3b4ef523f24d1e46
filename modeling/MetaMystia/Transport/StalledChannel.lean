import MetaMystia.Library.Runs
import MetaMystia.Library.Slots
import MetaMystia.Session.Router

/-! # Channels whose write task has ended

Each channel has a queue, a write task and a read task. A write task that gives up
only ends: it cancels no token and leaves the connection map alone. The channel is
abandoned by its read task, which leaves its loop when the socket ends or when the
token is cancelled; while the remote keeps the socket open, the entry stays and
its queue has no reader.
-/

namespace MetaMystia

open Runs

def Token.generation : Token → Nat
  | .control generation => generation
  | .data generation => generation

/-- `clearing`: the read task of a data channel that has found its token not cancelled. -/
inductive ReadPhase
  | reading
  | leftLoop
  | clearing
  | finished
deriving DecidableEq, Repr

structure ChannelTasks where
  peerId : PeerId
  token : Token
  writing : Bool
  queue : List RawPacket
  readPhase : ReadPhase
deriving DecidableEq

/-- The tasks of the channel with token of generation `g` are at index `g`. -/
structure Channels where
  manager : TransportManager
  channels : List ChannelTasks

namespace TransportManager

/-- What the read task of a data channel does at its end. -/
def clearDataChannel (self : TransportManager) (peerId : PeerId) : TransportManager :=
  self.modify peerId fun conn => { conn with dataCancel := none }

end TransportManager

namespace Channels

open TransportManager

inductive TaskAction
  | endOfStream
  | write
  | failWrite
  | stopWriting
  | stopReading
  | cleanup
deriving DecidableEq, Repr

inductive Action
  | register (peerId : PeerId) (peerAddr : String) (now : Nat)
  | registerDataChannel (peerId : PeerId)
  | disconnectPeer (peerId : PeerId) (fits : Bool)
  | cancelShutdownToken
  | shutdown
  | sendToPeer (peerId : PeerId) (packet : RawPacket)
  | task (channel : Nat) (action : TaskAction)

def start (manager : TransportManager) : Channels := ⟨manager, []⟩

def opened (peerId : PeerId) (token : Token) : ChannelTasks := ⟨peerId, token, true, [], .reading⟩

/-- The slot of a data channel whose peer is gone: no task was spawned. -/
def aborted (peerId : PeerId) (token : Token) : ChannelTasks := ⟨peerId, token, false, [], .finished⟩

def setChannel (s : Channels) (channel : Nat) (c : ChannelTasks) : Channels :=
  { s with channels := s.channels.set channel c }

/-- `try_send` at the queues of this node. -/
def trySend (capacity : Nat) (s : Channels) : TrySend := fun token =>
  match s.channels[token.generation]? with
  | some c =>
    if !c.writing then .error (.connectionFailed "send channel closed")
    else if c.queue.length < capacity then .ok ()
    else .error .sendQueueFull
  | none => .error (.connectionFailed "send channel closed")

/-- Some sender of the queue is left: the entry of the peer still has it. -/
def hasSender (s : Channels) (c : ChannelTasks) : Bool :=
  match s.manager.connections.lookup c.peerId with
  | some conn => c.token ∈ PeerConnection.tokens conn
  | none => false

def enqueue (s : Channels) (token : Token) (packet : RawPacket) : Channels :=
  match s.channels[token.generation]? with
  | some c => s.setChannel token.generation { c with queue := c.queue ++ [packet] }
  | none => s

/-- What the read task of a channel does once it has left its loop. -/
def cleanupStep (s : Channels) (channel : Nat) (c : ChannelTasks) : Option Channels :=
  match c.token, c.readPhase with
  | .control _, .leftLoop =>
    some { manager := (s.manager.cleanup c.peerId).1
           channels := s.channels.set channel { c with readPhase := .finished } }
  | .data _, .leftLoop =>
    some (s.setChannel channel
      { c with readPhase := if s.manager.isCancelled c.token then .finished else .clearing })
  | .data _, .clearing =>
    some { manager := s.manager.clearDataChannel c.peerId
           channels := s.channels.set channel { c with readPhase := .finished } }
  | _, _ => none

/-- The steps of the tasks of one channel. Only `endOfStream` waits for the network: a queued packet
is written or given up within `write_timeout_ms`. -/
def taskStep (s : Channels) (channel : Nat) (c : ChannelTasks) : TaskAction → Option Channels
  | .endOfStream =>
    if c.readPhase = .reading then some (s.setChannel channel { c with readPhase := .leftLoop })
    else none
  | .write =>
    match c.writing, c.queue with
    | true, _ :: rest => some (s.setChannel channel { c with queue := rest })
    | _, _ => none
  | .failWrite =>
    match c.writing, c.queue with
    | true, _ :: _ => some (s.setChannel channel { c with writing := false, queue := [] })
    | _, _ => none
  | .stopWriting =>
    if c.writing = true ∧
        (s.manager.isCancelled c.token = true ∨ (c.queue = [] ∧ s.hasSender c = false)) then
      some (s.setChannel channel { c with writing := false, queue := [] })
    else none
  | .stopReading =>
    if c.readPhase = .reading ∧ s.manager.isCancelled c.token = true then
      some (s.setChannel channel { c with readPhase := .leftLoop })
    else none
  | .cleanup => s.cleanupStep channel c

def step (capacity : Nat) (s : Channels) : Action → Option Channels
  | .register peerId peerAddr now =>
    match s.manager.registerConnection peerId peerAddr now with
    | .ok manager =>
      some { manager
             channels := s.channels ++ [opened peerId (.control s.manager.nextGeneration)] }
    | .error _ => some s
  | .registerDataChannel peerId =>
    let token := Token.data s.manager.nextGeneration
    some { manager := s.manager.registerDataChannel peerId
           channels := s.channels ++
             [if peerId ∈ s.manager.connections then opened peerId token else aborted peerId token] }
  | .disconnectPeer peerId fits =>
    match s.manager.disconnectPeer peerId fits with
    | .ok manager => some { s with manager }
    | .error _ => some s
  | .cancelShutdownToken => some { s with manager := { s.manager with shutdownCancelled := true } }
  | .shutdown => some { s with manager := s.manager.shutdown }
  | .sendToPeer peerId packet =>
    match s.manager.connections.lookup peerId,
      s.manager.sendToPeer (s.trySend capacity) peerId packet with
    | some conn, .ok _ => some (s.enqueue (conn.queueFor packet) packet)
    | _, _ => some s
  | .task channel action =>
    match s.channels[channel]? with
    | some c => s.taskStep channel c action
    | none => none

/-- A write gives up only when the read task of its channel has left its loop or is about to. -/
def Unstalled (s : Channels) : Action → Prop
  | .task channel .failWrite => ∀ c ∈ s.channels[channel]?,
    c.readPhase ≠ .reading ∨ s.manager.isCancelled c.token = true
  | _ => True

/-- The steps of a task that wait neither for the network nor for a call. -/
def internal : List TaskAction := [.write, .failWrite, .stopWriting, .stopReading, .cleanup]

/-- Only external steps are enabled. -/
def Quiescent (s : Channels) : Prop :=
  ∀ channel < s.channels.length, ∀ c ∈ s.channels[channel]?, ∀ action ∈ internal,
    s.taskStep channel c action = none

instance (s : Channels) : (a : Action) → Decidable (s.Unstalled a)
  | .task _ .failWrite => inferInstanceAs (Decidable (∀ _ ∈ _, _))
  | .register .. | .registerDataChannel _ | .disconnectPeer .. | .cancelShutdownToken | .shutdown
  | .sendToPeer .. | .task _ .endOfStream | .task _ .write | .task _ .stopWriting
  | .task _ .stopReading | .task _ .cleanup => .isTrue trivial

instance (s : Channels) : Decidable s.Quiescent :=
  inferInstanceAs (Decidable (∀ channel < _, ∀ c ∈ s.channels[channel]?, ∀ action ∈ internal, _ = none))

structure Tended (m : TransportManager) (peerId : PeerId) (token : Token) (c : ChannelTasks) :
    Prop where
  peer : c.peerId = peerId
  same : c.token = token
  control : ∀ g, token = .control g → c.readPhase = .reading ∨ c.readPhase = .leftLoop
  finished : c.readPhase = .finished → m.shutdownCancelled = true
  writing : c.writing = false → c.readPhase = .reading → m.shutdownCancelled = true

/-- The tokens of an entry are not cancelled one by one, and their tasks tend to the entry: only
the shutdown token ends them before they have cleaned up. -/
structure Watched (s : Channels) : Prop where
  length : s.channels.length = s.manager.nextGeneration
  fresh : ∀ token ∈ s.manager.cancelled, token.generation < s.manager.nextGeneration
  tended : ∀ p conn, s.manager.connections.lookup p = some conn →
    ∀ token ∈ PeerConnection.tokens conn, token ∉ s.manager.cancelled ∧
      ∃ c, s.channels[token.generation]? = some c ∧ Tended s.manager p token c

variable {s t : Channels}

/-- A new peer, with the tasks of its control channel. -/
def registered (s : Channels) (peerId : PeerId) (info : PeerInfo) : Channels where
  manager := { s.manager with
    connections := s.manager.connections.insert peerId
      { controlCancel := s.manager.nextGeneration, dataCancel := none, info }
    nextGeneration := s.manager.nextGeneration + 1 }
  channels := s.channels ++ [opened peerId (.control s.manager.nextGeneration)]

def dataRegistered (s : Channels) (peerId : PeerId) : Channels where
  manager := s.manager.registerDataChannel peerId
  channels := s.channels ++
    [if peerId ∈ s.manager.connections then opened peerId (.data s.manager.nextGeneration)
      else aborted peerId (.data s.manager.nextGeneration)]

/-- What a step does. A registration of a known peer, a `disconnect_peer` that fails and a send that
fails do nothing. -/
inductive Effect (s : Channels) : Action → Channels → Prop
  | idle {a : Action} : Effect s a s
  | register {peerId : PeerId} {peerAddr : String} {now : Nat}
      (hnew : peerId ∉ s.manager.connections) :
      Effect s (.register peerId peerAddr now) (s.registered peerId (.new peerId peerAddr now))
  | registerDataChannel {peerId : PeerId} :
      Effect s (.registerDataChannel peerId) (s.dataRegistered peerId)
  | disconnect {peerId : PeerId} {fits : Bool} :
      Effect s (.disconnectPeer peerId fits) { s with manager := s.manager.tearDown peerId }
  | cancelShutdownToken :
      Effect s .cancelShutdownToken { s with manager := { s.manager with shutdownCancelled := true } }
  | shutdown : Effect s .shutdown { s with manager := s.manager.shutdown }
  | enqueue {peerId : PeerId} {packet : RawPacket} {channel : Nat} {c : ChannelTasks}
      (hc : s.channels[channel]? = some c) :
      Effect s (.sendToPeer peerId packet)
        (s.setChannel channel { c with queue := c.queue ++ [packet] })
  | leaveLoop {channel : Nat} {action : TaskAction} {c : ChannelTasks}
      (hc : s.channels[channel]? = some c) (hreading : c.readPhase = .reading) :
      Effect s (.task channel action) (s.setChannel channel { c with readPhase := .leftLoop })
  | write {channel : Nat} {c : ChannelTasks} {rest : List RawPacket}
      (hc : s.channels[channel]? = some c) :
      Effect s (.task channel .write) (s.setChannel channel { c with queue := rest })
  | endWrite {channel : Nat} {action : TaskAction} {c : ChannelTasks}
      (hc : s.channels[channel]? = some c)
      (hcause : action = .failWrite ∨ s.manager.isCancelled c.token = true ∨ s.hasSender c = false) :
      Effect s (.task channel action) (s.setChannel channel { c with writing := false, queue := [] })
  | cleanup {channel g : Nat} {c : ChannelTasks} (hc : s.channels[channel]? = some c)
      (htoken : c.token = .control g) :
      Effect s (.task channel .cleanup)
        (Channels.setChannel { s with manager := s.manager.tearDown c.peerId } channel
          { c with readPhase := .finished })
  | check {channel g : Nat} {c : ChannelTasks} (hc : s.channels[channel]? = some c)
      (htoken : c.token = .data g) (hleft : c.readPhase = .leftLoop) :
      Effect s (.task channel .cleanup)
        (s.setChannel channel
          { c with readPhase := if s.manager.isCancelled c.token then .finished else .clearing })
  | clear {channel g : Nat} {c : ChannelTasks} (hc : s.channels[channel]? = some c)
      (htoken : c.token = .data g) (hphase : c.readPhase = .clearing) :
      Effect s (.task channel .cleanup)
        (Channels.setChannel { s with manager := s.manager.clearDataChannel c.peerId } channel
          { c with readPhase := .finished })

theorem taskStep_effect {channel : Nat} {c : ChannelTasks} {action : TaskAction}
    (hc : s.channels[channel]? = some c) (ht : s.taskStep channel c action = some t) :
    Effect s (.task channel action) t := by
  cases action with
  | endOfStream =>
    simp only [taskStep] at ht
    split_ifs at ht with hreading
    cases ht
    exact .leaveLoop hc hreading
  | write =>
    simp only [taskStep] at ht
    split at ht
    · cases ht
      exact .write hc
    · cases ht
  | failWrite =>
    simp only [taskStep] at ht
    split at ht
    · cases ht
      exact .endWrite hc (.inl rfl)
    · cases ht
  | stopWriting =>
    simp only [taskStep] at ht
    split_ifs at ht with hstop
    cases ht
    obtain hcancelled | ⟨_, hclosed⟩ := hstop.2
    · exact .endWrite hc (.inr (.inl hcancelled))
    · exact .endWrite hc (.inr (.inr hclosed))
  | stopReading =>
    simp only [taskStep] at ht
    split_ifs at ht with hstop
    cases ht
    exact .leaveLoop hc hstop.1
  | cleanup =>
    simp only [taskStep, cleanupStep] at ht
    split at ht
    · next g htoken _ =>
      cases ht
      rw [cleanup_fst]
      exact .cleanup hc htoken
    · next g htoken hleft =>
      cases ht
      exact .check hc htoken hleft
    · next g htoken hphase =>
      cases ht
      exact .clear hc htoken hphase
    · cases ht

theorem step_effect {capacity : Nat} {a : Action} (ht : s.step capacity a = some t) :
    Effect s a t := by
  cases a with
  | register peerId peerAddr now =>
    obtain ⟨_, heq⟩ | ⟨hnew, heq⟩ := s.manager.registerConnection_cases peerId peerAddr now
    · simp only [step, heq, Option.some.injEq] at ht
      exact ht ▸ .idle
    · simp only [step, heq, Option.some.injEq] at ht
      exact ht ▸ .register hnew
  | registerDataChannel peerId =>
    cases ht
    exact .registerDataChannel
  | disconnectPeer peerId fits =>
    obtain ⟨e, heq⟩ | heq := s.manager.disconnectPeer_cases peerId fits
    · simp only [step, heq, Option.some.injEq] at ht
      exact ht ▸ .idle
    · simp only [step, heq, Option.some.injEq] at ht
      exact ht ▸ .disconnect
  | cancelShutdownToken =>
    cases ht
    exact .cancelShutdownToken
  | shutdown =>
    cases ht
    exact .shutdown
  | sendToPeer peerId packet =>
    simp only [step] at ht
    split at ht <;> cases ht
    · unfold Channels.enqueue
      split
      · next c hc => exact .enqueue hc
      · exact .idle
    · exact .idle
  | task channel action =>
    simp only [step] at ht
    split at ht
    · next c hc => exact taskStep_effect hc ht
    · cases ht

theorem Tended.setManager {m next : TransportManager} {p : PeerId} {token : Token} {c : ChannelTasks}
    (h : Tended m p token c) (hshutdown : m.shutdownCancelled = true → next.shutdownCancelled = true) :
    Tended next p token c :=
  ⟨h.peer, h.same, h.control, fun hphase => hshutdown (h.finished hphase),
    fun hwriting hphase => hshutdown (h.writing hwriting hphase)⟩

theorem Watched.setManager (h : s.Watched) {m : TransportManager}
    (hnext : m.nextGeneration = s.manager.nextGeneration)
    (hshutdown : s.manager.shutdownCancelled = true → m.shutdownCancelled = true)
    (hfresh : ∀ token ∈ m.cancelled, token.generation < m.nextGeneration)
    (hentries : ∀ p conn, m.connections.lookup p = some conn →
      ∃ old, s.manager.connections.lookup p = some old ∧
        ∀ token ∈ PeerConnection.tokens conn, token ∈ PeerConnection.tokens old ∧ token ∉ m.cancelled) :
    Watched { s with manager := m } := by
  refine ⟨h.length.trans hnext.symm, hfresh, ?_⟩
  intro p conn hconn token htoken
  obtain ⟨old, hold, htokens⟩ := hentries p conn hconn
  obtain ⟨hmem, hlive⟩ := htokens token htoken
  obtain ⟨_, c, hc, htended⟩ := h.tended p old hold token hmem
  exact ⟨hlive, c, hc, htended.setManager hshutdown⟩

theorem Watched.setChannel (h : s.Watched) {channel : Nat} {c c' : ChannelTasks}
    (hc : s.channels[channel]? = some c)
    (htended : ∀ p conn token, s.manager.connections.lookup p = some conn →
      token ∈ PeerConnection.tokens conn → token ∉ s.manager.cancelled →
      Tended s.manager p token c → Tended s.manager p token c') :
    (s.setChannel channel c').Watched := by
  refine ⟨by simpa [Channels.setChannel] using h.length, h.fresh, ?_⟩
  intro p conn hconn token htoken
  obtain ⟨hlive, found, hfound, hold⟩ := h.tended p conn hconn token htoken
  refine ⟨hlive, ?_⟩
  by_cases hchannel : token.generation = channel
  · subst hchannel
    obtain rfl : found = c := Option.some.inj (hfound.symm.trans hc)
    have hlt := (List.getElem?_eq_some_iff.mp hc).1
    exact ⟨c', by simp [Channels.setChannel, hlt], htended p conn token hconn htoken hlive hold⟩
  · exact ⟨found, by rwa [Channels.setChannel, List.getElem?_set_ne (Ne.symm hchannel)], hold⟩

theorem Watched.token_lt (h : s.Watched) {p : PeerId} {conn : PeerConnection}
    (hconn : s.manager.connections.lookup p = some conn) {token : Token}
    (htoken : token ∈ PeerConnection.tokens conn) :
    token.generation < s.manager.nextGeneration := by
  obtain ⟨_, c, hc, _⟩ := h.tended p conn hconn token htoken
  rw [← h.length]
  exact (List.getElem?_eq_some_iff.mp hc).1

theorem Watched.peer_eq (h : s.Watched) {p q : PeerId} {c d : PeerConnection} {token : Token}
    (hc : s.manager.connections.lookup p = some c) (hd : s.manager.connections.lookup q = some d)
    (htoken : token ∈ PeerConnection.tokens c) (hother : token ∈ PeerConnection.tokens d) :
    p = q := by
  obtain ⟨_, first, hfirst, hp⟩ := h.tended p c hc token htoken
  obtain ⟨_, second, hsecond, hq⟩ := h.tended q d hd token hother
  obtain rfl : first = second := Option.some.inj (hfirst.symm.trans hsecond)
  exact hp.peer.symm.trans hq.peer

theorem Watched.tearDown (h : s.Watched) (peerId : PeerId) :
    Watched { s with manager := s.manager.tearDown peerId } := by
  apply h.setManager
  · exact tearDown_nextGeneration
  · exact tearDown_shutdownCancelled.trans
  · intro token htoken
    rw [tearDown_cancelled, List.mem_append] at htoken
    rw [tearDown_nextGeneration]
    cases htoken with
    | inl hold => exact h.fresh token hold
    | inr hnew =>
      cases hconn : s.manager.connections.lookup peerId with
      | none => simp [hconn] at hnew
      | some conn => exact h.token_lt hconn (by simpa [hconn] using hnew)
  · intro p conn hconn
    have hold := lookup_of_tearDown hconn
    refine ⟨conn, hold, ?_⟩
    intro token htoken
    refine ⟨htoken, ?_⟩
    rw [tearDown_cancelled, List.mem_append]
    rintro (hcancelled | htorn)
    · exact (h.tended p conn hold token htoken).1 hcancelled
    · cases hother : s.manager.connections.lookup peerId with
      | none => simp [hother] at htorn
      | some torn =>
        -- The token would be of the entry that is gone.
        obtain rfl := h.peer_eq hold hother htoken (by simpa [hother] using htorn)
        rw [lookup_tearDown_self] at hconn
        cases hconn

theorem Watched.clearDataChannel (h : s.Watched) (peerId : PeerId) :
    Watched { s with manager := s.manager.clearDataChannel peerId } := by
  apply h.setManager
  · exact modify_nextGeneration
  · exact modify_shutdownCancelled.trans
  · intro token htoken
    rw [TransportManager.clearDataChannel, modify_cancelled] at htoken
    rw [TransportManager.clearDataChannel, modify_nextGeneration]
    exact h.fresh token htoken
  · intro p conn hconn
    obtain ⟨old, hold, hcases⟩ := lookup_of_modify hconn
    refine ⟨old, hold, ?_⟩
    intro token htoken
    have hmem : token ∈ PeerConnection.tokens old := by
      obtain ⟨_, rfl⟩ | ⟨_, rfl⟩ := hcases
      · simp only [PeerConnection.tokens, Option.map_none, Option.toList_none,
          List.mem_singleton] at htoken
        exact htoken ▸ List.mem_cons_self
      · exact htoken
    rw [TransportManager.clearDataChannel, modify_cancelled]
    exact ⟨hmem, (h.tended p old hold token hmem).1⟩

theorem Watched.cancelShutdownToken (h : s.Watched) :
    Watched { s with manager := { s.manager with shutdownCancelled := true } } := by
  apply h.setManager
  · rfl
  · exact fun _ => rfl
  · exact h.fresh
  · intro p conn hconn
    exact ⟨conn, hconn, fun token htoken => ⟨htoken, (h.tended p conn hconn token htoken).1⟩⟩

theorem Watched.shutdown (h : s.Watched) : Watched { s with manager := s.manager.shutdown } := by
  apply h.setManager
  · rfl
  · exact id
  · intro token htoken
    simp only [TransportManager.shutdown, List.mem_append, List.mem_flatMap] at htoken
    obtain hold | ⟨entry, hentry, htoken⟩ := htoken
    · exact h.fresh token hold
    · exact h.token_lt (AList.mem_lookup_iff.mpr hentry) htoken
  · intro p conn hconn
    cases hconn

theorem tended_opened {m : TransportManager} (peerId : PeerId) (token : Token) :
    Tended m peerId token (opened peerId token) :=
  ⟨rfl, rfl, fun _ _ => .inl rfl, nofun, nofun⟩

/-- A new channel, and an entry whose tokens are old ones or that of the channel. -/
theorem Watched.opens (h : s.Watched) {m : TransportManager} {c : ChannelTasks}
    (hnext : m.nextGeneration = s.manager.nextGeneration + 1)
    (hshutdown : m.shutdownCancelled = s.manager.shutdownCancelled)
    (hfresh : ∀ token ∈ m.cancelled, token.generation < s.manager.nextGeneration)
    (hentries : ∀ p conn, m.connections.lookup p = some conn → ∀ token ∈ PeerConnection.tokens conn,
      (token.generation = s.manager.nextGeneration ∧ c = opened p token) ∨
      ∃ old, s.manager.connections.lookup p = some old ∧ token ∈ PeerConnection.tokens old ∧
        token ∉ m.cancelled) :
    Watched { manager := m, channels := s.channels ++ [c] } := by
  refine ⟨by simp [h.length, hnext], fun token htoken => ?_, ?_⟩
  · have hlt := hfresh token htoken
    simp only [hnext]
    omega
  · intro p conn hconn token htoken
    obtain ⟨hgeneration, rfl⟩ | ⟨old, hold, hmem, hlive⟩ := hentries p conn hconn token htoken
    · refine ⟨?_, opened p token, ?_, tended_opened p token⟩
      · intro hcancelled
        have hlt := hfresh token hcancelled
        omega
      · rw [hgeneration, ← h.length, List.getElem?_concat_length]
    · obtain ⟨_, found, hfound, htended⟩ := h.tended p old hold token hmem
      exact ⟨hlive, found, Slots.getElem?_concat_of_some hfound, htended.setManager hshutdown.trans⟩

theorem Watched.register (h : s.Watched) (peerId : PeerId) (info : PeerInfo) :
    (s.registered peerId info).Watched := by
  apply h.opens
  · rfl
  · rfl
  · exact h.fresh
  · intro p conn hconn token htoken
    obtain ⟨rfl, rfl⟩ | ⟨_, hold⟩ := Assoc.lookup_insert_cases hconn
    · obtain rfl : token = .control s.manager.nextGeneration := by
        simpa [PeerConnection.tokens] using htoken
      exact .inl ⟨rfl, rfl⟩
    · exact .inr ⟨conn, hold, htoken, (h.tended p conn hold token htoken).1⟩

theorem Watched.registerDataChannel (h : s.Watched) (peerId : PeerId) :
    (s.dataRegistered peerId).Watched := by
  unfold dataRegistered
  cases hlookup : s.manager.connections.lookup peerId with
  | none =>
    have hmanager : s.manager.registerDataChannel peerId =
        { s.manager with nextGeneration := s.manager.nextGeneration + 1 } := by
      simp [TransportManager.registerDataChannel, hlookup]
    rw [hmanager]
    apply h.opens
    · rfl
    · rfl
    · exact h.fresh
    · intro p conn hconn token htoken
      exact .inr ⟨conn, hconn, htoken, (h.tended p conn hconn token htoken).1⟩
  | some old =>
    have hmem : peerId ∈ s.manager.connections := Assoc.mem_of_lookup hlookup
    have hmanager : s.manager.registerDataChannel peerId =
        { s.manager with
          connections := s.manager.connections.insert peerId
            { old with dataCancel := some s.manager.nextGeneration }
          cancelled := s.manager.cancelled ++ (old.dataCancel.map Token.data).toList
          nextGeneration := s.manager.nextGeneration + 1 } := by
      simp [TransportManager.registerDataChannel, hlookup]
    rw [hmanager, if_pos hmem]
    have hdropped : ∀ token ∈ (old.dataCancel.map Token.data).toList,
        token ∈ PeerConnection.tokens old := fun token h => List.mem_cons_of_mem _ h
    apply h.opens
    · rfl
    · rfl
    · intro token htoken
      cases List.mem_append.mp htoken with
      | inl hcancelled => exact h.fresh token hcancelled
      | inr hdata => exact h.token_lt hlookup (hdropped token hdata)
    · intro p conn hconn token htoken
      obtain ⟨rfl, rfl⟩ | ⟨hne, hold⟩ := Assoc.lookup_insert_cases hconn
      · obtain rfl | hdata := List.mem_cons.mp htoken
        · refine .inr ⟨old, hlookup, List.mem_cons_self, ?_⟩
          intro hcancelled
          cases List.mem_append.mp hcancelled with
          | inl hin => exact (h.tended _ old hlookup _ List.mem_cons_self).1 hin
          | inr hdata => cases hold : old.dataCancel <;> simp [hold] at hdata
        · obtain rfl : token = .data s.manager.nextGeneration := by simpa using hdata
          exact .inl ⟨rfl, rfl⟩
      · refine .inr ⟨conn, hold, htoken, ?_⟩
        intro hcancelled
        cases List.mem_append.mp hcancelled with
        | inl hin => exact (h.tended p conn hold token htoken).1 hin
        | inr hdata => exact hne (h.peer_eq hold hlookup htoken (hdropped token hdata))

theorem shutdownCancelled_of_isCancelled {m : TransportManager} {token : Token}
    (h : m.isCancelled token = true) (hlive : token ∉ m.cancelled) : m.shutdownCancelled = true := by
  simpa [TransportManager.isCancelled, hlive] using h

theorem Watched.leaveLoop (h : s.Watched) {channel : Nat} {c : ChannelTasks}
    (hc : s.channels[channel]? = some c) :
    (s.setChannel channel { c with readPhase := .leftLoop }).Watched := by
  refine h.setChannel hc ?_
  intro p conn token _ _ _ ht
  exact ⟨ht.peer, ht.same, fun _ _ => .inr rfl, nofun, fun _ hno => absurd hno nofun⟩

theorem Watched.endWrite (h : s.Watched) {channel : Nat} {c : ChannelTasks}
    (hc : s.channels[channel]? = some c)
    (hcause : c.readPhase ≠ .reading ∨ s.manager.isCancelled c.token = true ∨
      s.hasSender c = false) :
    (s.setChannel channel { c with writing := false, queue := [] }).Watched := by
  refine h.setChannel hc ?_
  intro p conn token hconn htoken hlive ht
  refine ⟨ht.peer, ht.same, ht.control, ht.finished, ?_⟩
  intro _ hreading
  obtain hleft | hcancelled | hclosed := hcause
  · exact absurd hreading hleft
  · exact shutdownCancelled_of_isCancelled hcancelled (ht.same ▸ hlive)
  · -- The entry has a sender of the queue.
    obtain rfl := ht.peer
    have hsender : s.hasSender c = true := by
      simp only [hasSender, hconn, ht.same]
      exact decide_eq_true htoken
    exact absurd (hclosed.symm.trans hsender) nofun

/-- The read task of the control channel removes the entry of its peer. -/
theorem Watched.cleanup (h : s.Watched) {channel : Nat} {c : ChannelTasks}
    (hc : s.channels[channel]? = some c) :
    (Channels.setChannel { s with manager := s.manager.tearDown c.peerId } channel
      { c with readPhase := .finished }).Watched := by
  refine (h.tearDown c.peerId).setChannel hc ?_
  intro p conn token hconn _ _ ht
  rw [← ht.peer, lookup_tearDown_self] at hconn
  cases hconn

theorem Watched.check (h : s.Watched) {channel g : Nat} {c : ChannelTasks}
    (hc : s.channels[channel]? = some c) (htoken : c.token = .data g) :
    (s.setChannel channel
      { c with readPhase := if s.manager.isCancelled c.token then .finished else .clearing }).Watched := by
  refine h.setChannel hc ?_
  intro p conn token _ _ hlive ht
  have hdata : token = .data g := ht.same.symm.trans htoken
  refine ⟨ht.peer, ht.same, fun _ hno => absurd (hdata.symm.trans hno) nofun, ?_, ?_⟩
  · intro hfinished
    cases hcancelled : s.manager.isCancelled c.token with
    | true => exact shutdownCancelled_of_isCancelled hcancelled (ht.same ▸ hlive)
    | false => simp [hcancelled] at hfinished
  · intro _ hreading
    cases hcancelled : s.manager.isCancelled c.token <;> simp [hcancelled] at hreading

/-- After the write the entry of the peer has no data channel any more. -/
theorem Watched.clear (h : s.Watched) {channel g : Nat} {c : ChannelTasks}
    (hc : s.channels[channel]? = some c) (htoken : c.token = .data g) :
    (Channels.setChannel { s with manager := s.manager.clearDataChannel c.peerId } channel
      { c with readPhase := .finished }).Watched := by
  refine (h.clearDataChannel c.peerId).setChannel hc ?_
  intro p conn token hconn hin _ ht
  have hdata : token = .data g := ht.same.symm.trans htoken
  obtain ⟨old, _, hcases⟩ := lookup_of_modify hconn
  obtain ⟨_, rfl⟩ | ⟨hne, _⟩ := hcases
  · simp [PeerConnection.tokens, hdata] at hin
  · exact absurd ht.peer.symm hne

theorem Watched.step {capacity : Nat} {a : Action} (h : s.Watched) (ha : s.Unstalled a)
    (ht : s.step capacity a = some t) : t.Watched := by
  cases step_effect ht with
  | idle => exact h
  | register => exact h.register _ _
  | registerDataChannel => exact h.registerDataChannel _
  | disconnect => exact h.tearDown _
  | cancelShutdownToken => exact h.cancelShutdownToken
  | shutdown => exact h.shutdown
  | enqueue hc | write hc =>
    refine h.setChannel hc ?_
    intro p conn token _ _ _ ht
    exact ⟨ht.peer, ht.same, ht.control, ht.finished, ht.writing⟩
  | leaveLoop hc => exact h.leaveLoop hc
  | endWrite hc hcause =>
    apply h.endWrite hc
    obtain rfl | hcancelled | hclosed := hcause
    · cases ha _ hc with
      | inl hleft => exact .inl hleft
      | inr hcancelled => exact .inr (.inl hcancelled)
    · exact .inr (.inl hcancelled)
    · exact .inr (.inr hclosed)
  | cleanup hc => exact h.cleanup hc
  | check hc htoken => exact h.check hc htoken
  | clear hc htoken => exact h.clear hc htoken

theorem Quiescent.taskStep_eq_none (h : s.Quiescent) {channel : Nat} {c : ChannelTasks}
    (hc : s.channels[channel]? = some c) {action : TaskAction} (haction : action ∈ internal) :
    s.taskStep channel c action = none :=
  h channel (List.getElem?_eq_some_iff.mp hc).1 c hc action haction

/-- In a quiescent state the read task of the control channel still reads: otherwise it would clean
up, and it would leave its loop if its token were cancelled. -/
theorem Watched.shutdownCancelled_of_quiescent (h : s.Watched) (hquiet : s.Quiescent) {p : PeerId}
    {conn : PeerConnection} (hconn : s.manager.connections.lookup p = some conn) :
    s.manager.shutdownCancelled = false := by
  obtain ⟨_, c, hc, ht⟩ := h.tended p conn hconn (.control conn.controlCancel) List.mem_cons_self
  cases ht.control _ rfl with
  | inl hreading =>
    have hstop := hquiet.taskStep_eq_none hc (by decide : TaskAction.stopReading ∈ internal)
    cases hshutdown : s.manager.shutdownCancelled with
    | false => rfl
    | true => simp [Channels.taskStep, hreading, TransportManager.isCancelled, hshutdown] at hstop
  | inr hleft =>
    have hcleanup := hquiet.taskStep_eq_none hc (by decide : TaskAction.cleanup ∈ internal)
    simp [Channels.taskStep, Channels.cleanupStep, ht.same, hleft] at hcleanup

theorem Watched.writing_of_quiescent (h : s.Watched) (hquiet : s.Quiescent) {p : PeerId}
    {conn : PeerConnection} (hconn : s.manager.connections.lookup p = some conn) {token : Token}
    (htoken : token ∈ PeerConnection.tokens conn) :
    ∃ c, s.channels[token.generation]? = some c ∧ c.writing = true := by
  have hshutdown := h.shutdownCancelled_of_quiescent hquiet hconn
  obtain ⟨_, c, hc, ht⟩ := h.tended p conn hconn token htoken
  refine ⟨c, hc, ?_⟩
  have hcleanup := hquiet.taskStep_eq_none hc (by decide : TaskAction.cleanup ∈ internal)
  cases hphase : c.readPhase with
  | reading =>
    cases hwriting : c.writing with
    | true => rfl
    | false => exact absurd (hshutdown.symm.trans (ht.writing hwriting hphase)) nofun
  | leftLoop =>
    cases htoken : c.token <;>
      simp [Channels.taskStep, Channels.cleanupStep, htoken, hphase] at hcleanup
  | clearing =>
    cases token with
    | control g => simpa [hphase] using ht.control g rfl
    | data g => simp [Channels.taskStep, Channels.cleanupStep, ht.same, hphase] at hcleanup
  | finished => exact absurd (hshutdown.symm.trans (ht.finished hphase)) nofun

theorem queueFor_mem_tokens (conn : PeerConnection) (packet : RawPacket) :
    conn.queueFor packet ∈ PeerConnection.tokens conn := by
  unfold PeerConnection.queueFor PeerConnection.tokens
  split
  · exact List.mem_cons_self
  · cases conn.dataCancel <;> simp

theorem Watched.trySend_of_quiescent (h : s.Watched) (hquiet : s.Quiescent) (capacity : Nat)
    {p : PeerId} {conn : PeerConnection} (hconn : s.manager.connections.lookup p = some conn)
    (packet : RawPacket) (msg : String) :
    s.trySend capacity (conn.queueFor packet) ≠ .error (.connectionFailed msg) := by
  obtain ⟨c, hc, hwriting⟩ := h.writing_of_quiescent hquiet hconn (queueFor_mem_tokens conn packet)
  simp only [trySend, hc, hwriting, Bool.not_true, Bool.false_eq_true, if_false]
  split <;> nofun

/-- In every run in which a write gives up only on a channel whose read task has left its loop, or
is about to: when only external steps are enabled, every queue of every entry has its write task,
so neither a send nor a broadcast meets a closed queue. -/
theorem stalled_channel_abandoned (capacity : Nat) (localPeerId : PeerId) (sessionId : String)
    (listenPort : UInt16) (auto : Bool) {acts : List Action}
    (hunstalled : Along (step capacity) Unstalled
      (start (.new localPeerId sessionId listenPort auto)) acts)
    (hrun : run (step capacity) (start (.new localPeerId sessionId listenPort auto)) acts = some s)
    (hquiet : s.Quiescent) :
    (∀ peerId conn, s.manager.connections.lookup peerId = some conn →
      (∃ control, s.channels[conn.controlCancel]? = some control ∧ control.writing = true) ∧
      (∀ g, conn.dataCancel = some g →
        ∃ data, s.channels[g]? = some data ∧ data.writing = true) ∧
      ∀ packet msg, s.manager.sendToPeer (s.trySend capacity) peerId packet ≠
        .error (.connectionFailed msg)) ∧
    ∀ packet exclude, ∀ failure ∈ (s.manager.broadcast (s.trySend capacity) packet exclude).2,
      ∀ msg, failure.2 ≠ .connectionFailed msg := by
  have hstart : (start (.new localPeerId sessionId listenPort auto)).Watched :=
    ⟨rfl, nofun, fun _ _ hconn => nomatch hconn⟩
  have h : s.Watched := invariant (fun _ _ _ h ha ht => h.step ha ht) hstart hunstalled hrun
  refine ⟨?_, ?_⟩
  · intro peerId conn hconn
    refine ⟨h.writing_of_quiescent hquiet hconn List.mem_cons_self, ?_, ?_⟩
    · intro g hg
      have hmem : Token.data g ∈ PeerConnection.tokens conn := by simp [PeerConnection.tokens, hg]
      exact h.writing_of_quiescent hquiet hconn hmem
    · intro packet msg hfailed
      have hopen := h.trySend_of_quiescent hquiet capacity hconn packet msg
      simp only [TransportManager.sendToPeer, hconn] at hfailed
      cases hsend : s.trySend capacity (conn.queueFor packet) with
      | ok value => simp [hsend, Except.map] at hfailed
      | error e =>
        simp only [hsend, Except.map, Except.error.injEq] at hfailed
        exact hopen (hsend.trans (congrArg _ hfailed))
  · intro packet exclude failure hfailure msg hmsg
    obtain ⟨entry, hentry, hresult⟩ := List.mem_filterMap.mp hfailure
    have hconn := AList.mem_lookup_iff.mpr (List.mem_filter.mp hentry).1
    split at hresult
    · cases hresult
    · next e hsend =>
      cases hresult
      exact h.trySend_of_quiescent hquiet capacity hconn packet msg (hsend.trans (congrArg _ hmsg))

def userPacket : RawPacket := ⟨0x0100, 0, [1]⟩

def openedPair : List Action :=
  [.register ⟨"b"⟩ "10.0.0.2:4000" 0, .registerDataChannel ⟨"b"⟩, .sendToPeer ⟨"b"⟩ userPacket]

/-- The data channel's socket ends before its write gives up: the read task clears the channel. -/
theorem closed_data_channel_abandoned :
    let acts := openedPair ++ [.task 1 .endOfStream, .task 1 .failWrite, .task 1 .cleanup,
      .task 1 .cleanup]
    ∃ s ∈ run (step 8) (start (.new ⟨"a"⟩ "room" 4000 true)) acts,
      ∀ conn ∈ s.manager.connections.lookup ⟨"b"⟩, conn.dataCancel = none ∧
        ∀ msg, s.manager.sendToPeer (s.trySend 8) ⟨"b"⟩ userPacket ≠
          .error (.connectionFailed msg) := by
  intro acts
  have hfinal : ∃ s ∈ run (step 8) (start (.new ⟨"a"⟩ "room" 4000 true)) acts, s.Quiescent ∧
      ∀ conn ∈ s.manager.connections.lookup ⟨"b"⟩, conn.dataCancel = none := by decide +kernel
  have hunstalled : Along (step 8) Unstalled (start (.new ⟨"a"⟩ "room" 4000 true)) acts := by
    decide +kernel
  obtain ⟨s, hrun, hquiet, hcleared⟩ := hfinal
  refine ⟨s, hrun, ?_⟩
  intro conn hconn
  obtain ⟨hentries, _⟩ := stalled_channel_abandoned 8 ⟨"a"⟩ "room" 4000 true hunstalled hrun hquiet
  exact ⟨hcleared conn hconn, fun msg => (hentries ⟨"b"⟩ conn hconn).2.2 userPacket msg⟩

/-- The data channel's write times out while the remote keeps the socket open and sends nothing:
no step is left, the entry keeps the data channel, and every user message fails. -/
theorem stalled_data_channel_kept :
    ∃ s ∈ run (step 8) (start (.new ⟨"a"⟩ "room" 4000 true)) (openedPair ++ [.task 1 .failWrite]),
      s.Quiescent ∧ ⟨"b"⟩ ∈ s.manager.connections ∧
      (∃ control ∈ s.channels[0]?, control.writing = true) ∧
      (∃ data ∈ s.channels[1]?, data.writing = false) ∧
      (∀ conn ∈ s.manager.connections.lookup ⟨"b"⟩, conn.dataCancel = some 1) ∧
      s.manager.sendToPeer (s.trySend 8) ⟨"b"⟩ userPacket =
        .error (.connectionFailed "send channel closed") := by
  decide +kernel

end Channels

end MetaMystia

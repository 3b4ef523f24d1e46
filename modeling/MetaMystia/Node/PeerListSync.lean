import MetaMystia.Node.NetworkState
import MetaMystia.Transport.LinkIdentity

/-! # Who connects to whom after a node has joined

Node `c` connects to `a`, which is connected to `b` among others. The acceptor
answers with the list of its peers, and `c` connects to those with a larger id;
`b` is told nothing. The messages that the handshake causes are handled in any
order that the queues allow.
-/

namespace MetaMystia

open Runs TransportManager

inductive Trio
  | a
  | b
  | c
deriving DecidableEq, Repr

/-- The peers that `handle_message` starts a `connect_to` towards, with their addresses. -/
def NetworkState.connectTargets (self : NetworkState) : InternalMessage → List (PeerId × String)
  | .peerListSync peers => peers.filter fun (peerId, _) =>
    !(peerId == self.transport.localPeerId || self.membership.hasPeer peerId ||
      self.transport.hasPeer peerId) && !decide (peerId < self.transport.localPeerId)
  | _ => []

/-- `incoming` holds the queue of each node's message handler, `started` the calls of `connect_to`
that the handlers have spawned; `notified` tells which side has passed its notify packet on. -/
structure Joining where
  nodes : Trio → NetworkState
  socket : Socket Trio
  notified : Side → Bool
  incoming : Trio → List (PeerId × InternalMessage)
  started : Trio → List (PeerId × String)

namespace NetworkState

variable {self : NetworkState} {peerId peer : PeerId}

theorem peersToConnect_eq (self : NetworkState) (peers : List (PeerId × String)) :
    self.peersToConnect peers =
      (self.connectTargets (.peerListSync peers)).map fun target => .connect target.2 := rfl

theorem mem_connectTargets_iff {peers : List (PeerId × String)} {addr : String}
    (hlocal : peerId ≠ self.transport.localPeerId) (hmembership : peerId ∉ self.membership.peers)
    (htransport : peerId ∉ self.transport.connections) :
    (peerId, addr) ∈ self.connectTargets (.peerListSync peers) ↔
      (peerId, addr) ∈ peers ∧ self.transport.localPeerId < peerId := by
  simp only [connectTargets, List.mem_filter, MembershipManager.hasPeer, TransportManager.hasPeer,
    hlocal, hmembership, htransport, decide_false, Bool.or_false, Bool.not_eq_true',
    Bool.and_eq_true, decide_eq_false_iff_not, not_lt, beq_eq_false_iff_ne, ne_eq, not_false_eq_true,
    true_and]
  constructor
  · rintro ⟨hmem, hle⟩
    exact ⟨hmem, lt_of_le_of_ne hle (Ne.symm hlocal)⟩
  · rintro ⟨hmem, hlt⟩
    exact ⟨hmem, le_of_lt hlt⟩

end NetworkState

namespace Joining

inductive Action
  | processHandshake
  | receiveHandshakeAck
  | register (side : Side) (peerIp : String) (now : Nat)
  | notify (side : Side)
  | read (side : Side)
  | handle (host : Trio) (now : Clock)

def idOf (s : Joining) (host : Trio) : PeerId := (s.nodes host).transport.localPeerId

def start (nodes : Trio → NetworkState) : Joining where
  nodes
  socket :=
    { owner := fun
        | .initiator => .c
        | .acceptor => .a
      ends := fun
        | .initiator => .awaiting
        | .acceptor => .idle
      wire := fun
        | .initiator => []
        | .acceptor => [(nodes .c).transport.handshake]
      broken := false }
  notified _ := false
  incoming _ := []
  started _ := []

/-- The packet that mirrors the handshake for the local message handler. -/
def notifyPacket (s : Joining) (peerId : PeerId) : Side → InternalMessage
  | .initiator => .handshakeAck peerId (s.nodes .a).transport.listenPort true none
  | .acceptor => .handshake peerId (s.nodes .c).transport.listenPort protocolVersion
    (s.nodes .c).transport.sessionId

/-- What a handler's message brings into the queue of another node. -/
def receives (s : Joining) (host : Trio) (peerId : PeerId) (receiver : Trio) :
    Outgoing → List (PeerId × InternalMessage)
  | .reply msg => if s.idOf receiver = peerId then [(s.idOf host, msg)] else []
  | .broadcast msg =>
    if s.idOf receiver ∈ (s.nodes host).transport.connections then [(s.idOf host, msg)] else []
  | .connect _ => []

def handled (s : Joining) (host : Trio) (peerId : PeerId) (msg : InternalMessage)
    (rest : List (PeerId × InternalMessage)) (now : Clock) : Joining :=
  let (state, out) := (s.nodes host).handleMessage peerId now msg
  { s with
    nodes := Function.update s.nodes host state
    incoming := fun receiver => Function.update s.incoming host rest receiver ++
      out.flatMap (s.receives host peerId receiver)
    started := Function.update s.started host
      (s.started host ++ (s.nodes host).connectTargets msg) }

def step (s : Joining) : Action → Option Joining
  | .processHandshake =>
    (s.socket.step (fun _ => protocolVersion) (fun host => (s.nodes host).transport)
      .processHandshake).map fun socket => { s with socket }
  | .receiveHandshakeAck =>
    (s.socket.step (fun _ => protocolVersion) (fun host => (s.nodes host).transport)
      .receiveHandshakeAck).map fun socket => { s with socket }
  | .register side peerIp now =>
    match s.socket.ends side with
    | .ready peerId listenPort =>
      let host := s.socket.owner side
      match (s.nodes host).transport.registerConnection peerId
          (peerIp ++ ":" ++ toString listenPort) now with
      | .ok transport =>
        some { s with
          nodes := Function.update s.nodes host { s.nodes host with transport }
          socket := s.socket.setEnd side
            (.registered peerId (s.nodes host).transport.nextGeneration) }
      | .error _ => some { s with socket := s.socket.setEnd side .dropping }
    | _ => none
  | .notify side =>
    match s.socket.ends side, s.notified side with
    | .registered peerId _, false =>
      let host := s.socket.owner side
      some { s with
        notified := Function.update s.notified side true
        incoming := Function.update s.incoming host
          (s.incoming host ++ [(peerId, s.notifyPacket peerId side)]) }
    | _, _ => none
  | .read side =>
    match s.socket.ends side, s.socket.wire side with
    | .registered peerId _, msg :: rest =>
      let host := s.socket.owner side
      some { s with
        socket := s.socket.setWire side rest
        incoming := Function.update s.incoming host (s.incoming host ++ [(peerId, msg)]) }
    | _, _ => none
  | .handle host now =>
    match s.incoming host with
    | (peerId, msg) :: rest => some (s.handled host peerId msg rest now)
    | [] => none

def isRegistered : SocketEnd → Bool
  | .registered _ _ => true
  | _ => false

/-- The handshake is complete and everything it caused has been handled. -/
def Settled (s : Joining) : Prop :=
  (∀ side, isRegistered (s.socket.ends side) = true ∧ s.notified side = true ∧
    s.socket.wire side = []) ∧ ∀ host, s.incoming host = []

instance (s : Joining) : Decidable s.Settled :=
  decidable_of_iff ((∀ side ∈ [Side.initiator, .acceptor],
      isRegistered (s.socket.ends side) = true ∧ s.notified side = true ∧ s.socket.wire side = []) ∧
    ∀ host ∈ [Trio.a, .b, .c], s.incoming host = [])
    ⟨fun h => ⟨fun side => h.1 side (by cases side <;> simp), fun host => h.2 host (by cases host <;> simp)⟩,
      fun h => ⟨fun side _ => h.1 side, fun host _ => h.2 host⟩⟩

/-- One node has started a `connect_to` towards the other. -/
def Started (s : Joining) (host target : Trio) : Prop :=
  ∃ addr, (s.idOf target, addr) ∈ s.started host

/-- `b` is a peer of `a`; `c` is of the same session, and neither a peer of `a` nor acquainted
with `b`. -/
structure Apart (nodes : Trio → NetworkState) (conn : PeerConnection) : Prop where
  listed : (nodes .a).transport.connections.lookup (nodes .b).transport.localPeerId = some conn
  named : conn.info.peerId = (nodes .b).transport.localPeerId
  connected : conn.info.status = .connected
  session : (nodes .c).transport.sessionId = (nodes .a).transport.sessionId
  unregistered : (nodes .c).transport.localPeerId ∉ (nodes .a).transport.connections
  distinct : (nodes .a).transport.localPeerId ≠ (nodes .b).transport.localPeerId
  unconnected : (nodes .b).transport.localPeerId ∉ (nodes .c).transport.connections
  unknown : (nodes .b).transport.localPeerId ∉ (nodes .c).membership.peers

theorem Apart.mem_peerList {nodes : Trio → NetworkState} {conn : PeerConnection}
    (h : Apart nodes conn) :
    ((nodes .b).transport.localPeerId, conn.info.addr) ∈ (nodes .a).transport.getPeerListForSync := by
  unfold getPeerListForSync
  refine List.mem_map.mpr ⟨⟨_, conn⟩, List.mem_filter.mpr ⟨AList.mem_lookup_iff.mp h.listed, ?_⟩, ?_⟩
  · simp [h.connected]
  · simp [h.named]

theorem Apart.ne {nodes : Trio → NetworkState} {conn : PeerConnection} (h : Apart nodes conn) :
    (nodes .b).transport.localPeerId ≠ (nodes .c).transport.localPeerId := by
  intro heq
  apply h.unregistered
  rw [← heq]
  exact Assoc.mem_of_lookup h.listed

/-- The messages that the handshake causes, at any of the nodes. -/
def Caused (nodes : Trio → NetworkState) : InternalMessage → Prop
  | .handshake .. | .handshakeAck .. => True
  | .peerListSync peers => peers = (nodes .a).transport.getPeerListForSync
  | _ => False

/-- Where the list of peers is: still to be sent, behind the ack on the wire, or past the ack, on
its way to the handler of `c` or handled. -/
inductive Stage (nodes : Trio → NetworkState) (s : Joining) : Prop
  | asked (acceptor : s.socket.ends .acceptor = .idle) (initiator : s.socket.ends .initiator = .awaiting)
    (forth : s.socket.wire .acceptor = [(nodes .c).transport.handshake])
    (back : s.socket.wire .initiator = []) (same : s.nodes .a = nodes .a)
    (unheard : s.incoming .a = [])
  | answered (acceptor : s.socket.ends .acceptor ≠ .idle)
    (initiator : s.socket.ends .initiator = .awaiting)
    (back : s.socket.wire .initiator = [(nodes .a).transport.handshakeAck true none,
      .peerListSync (nodes .a).transport.getPeerListForSync])
  | passed (acceptor : s.socket.ends .acceptor ≠ .idle)
    (initiator : s.socket.ends .initiator ≠ .awaiting)
    (sync : .peerListSync (nodes .a).transport.getPeerListForSync ∈ s.socket.wire .initiator ∨
      (∃ peerId, (peerId, .peerListSync (nodes .a).transport.getPeerListForSync) ∈ s.incoming .c) ∨
      ((nodes .c).transport.localPeerId < (nodes .b).transport.localPeerId → s.Started .c .b))

structure Progress (nodes : Trio → NetworkState) (s : Joining) : Prop where
  ids : ∀ host, s.idOf host = (nodes host).transport.localPeerId
  owners : s.socket.owner .initiator = .c ∧ s.socket.owner .acceptor = .a
  silent : s.incoming .b = [] ∧ s.started .b = []
  unconnected : (nodes .b).transport.localPeerId ∉ (s.nodes .c).transport.connections
  unknown : (nodes .b).transport.localPeerId ∉ (s.nodes .c).membership.peers
  found : ∀ peerId, (s.socket.ends .initiator).peer = some peerId →
    peerId = (nodes .a).transport.localPeerId
  wired : ∀ side, ∀ msg ∈ s.socket.wire side, Caused nodes msg
  queued : ∀ host, ∀ entry ∈ s.incoming host, Caused nodes entry.2
  sound : s.Started .c .b →
    (nodes .c).transport.localPeerId < (nodes .b).transport.localPeerId
  stage : Stage nodes s

variable {nodes : Trio → NetworkState} {conn : PeerConnection} {s t : Joining}

/-- The messages of a handshake change no connection map and make the handler send nothing. -/
theorem handleMessage_of_caused {msg : InternalMessage} (h : Caused nodes msg) (self : NetworkState)
    (peerId : PeerId) (now : Clock) :
    (self.handleMessage peerId now msg).1.transport = self.transport ∧
      (∀ peer, peer ∉ self.transport.connections → peer ∉ self.membership.peers →
        peer ∉ (self.handleMessage peerId now msg).1.membership.peers) ∧
      ∀ o ∈ (self.handleMessage peerId now msg).2, ∃ addr, o = .connect addr := by
  cases msg with
  | handshake remoteId port version session =>
    exact ⟨self.transport_peerConnected remoteId now,
      fun _ => NetworkState.notMem_peers_peerConnected now, nofun⟩
  | handshakeAck remoteId port success reason =>
    cases success with
    | true =>
      exact ⟨self.transport_peerConnected remoteId now,
        fun _ => NetworkState.notMem_peers_peerConnected now, nofun⟩
    | false => exact ⟨rfl, fun _ _ hmembership => hmembership, nofun⟩
  | peerListSync peers =>
    refine ⟨rfl, fun _ _ hmembership => hmembership, ?_⟩
    intro o ho
    obtain ⟨target, _, rfl⟩ := List.mem_map.mp ho
    exact ⟨_, rfl⟩
  | _ => exact absurd h id

theorem incoming_handled (s : Joining) {msg : InternalMessage} (h : Caused nodes msg) (host : Trio)
    (peerId : PeerId) (rest : List (PeerId × InternalMessage)) (now : Clock) :
    (s.handled host peerId msg rest now).incoming = Function.update s.incoming host rest := by
  funext receiver
  have hsends : ((s.nodes host).handleMessage peerId now msg).2.flatMap
      (s.receives host peerId receiver) = [] := by
    rw [List.flatMap_eq_nil_iff]
    intro o ho
    obtain ⟨addr, rfl⟩ := (handleMessage_of_caused h (s.nodes host) peerId now).2.2 o ho
    rfl
  simp only [handled, hsends, List.append_nil]

theorem Progress.idOf_handled (h : s.Progress nodes) {msg : InternalMessage}
    (hmsg : Caused nodes msg) (host : Trio) (peerId : PeerId)
    (rest : List (PeerId × InternalMessage)) (now : Clock) (x : Trio) :
    (s.handled host peerId msg rest now).idOf x = (nodes x).transport.localPeerId := by
  rw [← h.ids x]
  unfold idOf handled
  by_cases hx : x = host
  · subst hx
    simp [(handleMessage_of_caused hmsg (s.nodes x) peerId now).1]
  · simp [Function.update_of_ne hx]

theorem Progress.started_handled_iff (h : s.Progress nodes) {msg : InternalMessage}
    (hmsg : Caused nodes msg) (host : Trio) (peerId : PeerId)
    (rest : List (PeerId × InternalMessage)) (now : Clock) :
    (s.handled host peerId msg rest now).Started .c .b ↔ s.Started .c .b ∨
      (host = .c ∧ ∃ addr, ((nodes .b).transport.localPeerId, addr) ∈
        (s.nodes .c).connectTargets msg) := by
  unfold Started
  rw [h.idOf_handled hmsg, h.ids]
  by_cases hhost : host = .c
  · subst hhost
    simp only [Joining.handled, Function.update_self, List.mem_append, true_and, exists_or]
  · simp only [Joining.handled, Function.update_of_ne (Ne.symm hhost), hhost, false_and, or_false]

/-- The handler of `c` connects to `b` when it handles the list, and only if its id is smaller. -/
theorem Progress.target_iff (hapart : Apart nodes conn) (h : s.Progress nodes) {msg : InternalMessage}
    (hmsg : Caused nodes msg) :
    (∃ addr, ((nodes .b).transport.localPeerId, addr) ∈ (s.nodes .c).connectTargets msg) ↔
      msg = .peerListSync (nodes .a).transport.getPeerListForSync ∧
        (nodes .c).transport.localPeerId < (nodes .b).transport.localPeerId := by
  have hc : (s.nodes .c).transport.localPeerId = (nodes .c).transport.localPeerId := h.ids .c
  cases msg with
  | peerListSync peers =>
    obtain rfl : peers = (nodes .a).transport.getPeerListForSync := hmsg
    simp only [NetworkState.mem_connectTargets_iff (hc ▸ hapart.ne) h.unknown h.unconnected, hc, true_and]
    constructor
    · rintro ⟨_, _, hlt⟩
      exact hlt
    · intro hlt
      exact ⟨_, hapart.mem_peerList, hlt⟩
  | _ => simp [NetworkState.connectTargets]

theorem Progress.stage_handled (hapart : Apart nodes conn) (h : s.Progress nodes) {host : Trio}
    {peerId : PeerId} {msg : InternalMessage} {rest : List (PeerId × InternalMessage)} (now : Clock)
    (hmsg : Caused nodes msg) (hqueue : s.incoming host = (peerId, msg) :: rest) :
    Stage nodes (s.handled host peerId msg rest now) := by
  have hincoming := s.incoming_handled hmsg host peerId rest now
  have hstarted := h.started_handled_iff hmsg host peerId rest now
  cases h.stage with
  | asked hacceptor hinitiator hforth hback hsame hunheard =>
    have ha : host ≠ .a := by
      rintro rfl
      rw [hunheard] at hqueue
      cases hqueue
    refine .asked hacceptor hinitiator hforth hback ?_ ?_
    · simpa [Joining.handled, Function.update_of_ne (Ne.symm ha)] using hsame
    · rw [hincoming, Function.update_of_ne (Ne.symm ha), hunheard]
  | answered hacceptor hinitiator hback => exact .answered hacceptor hinitiator hback
  | passed hacceptor hinitiator hsync =>
    refine .passed hacceptor hinitiator ?_
    obtain hwire | ⟨sender, hsync⟩ | hdone := hsync
    · exact .inl hwire
    · by_cases hhost : host = .c
      · subst hhost
        rw [hqueue] at hsync
        obtain heq | hrest := List.mem_cons.mp hsync
        · refine .inr (.inr fun hlt => hstarted.mpr (.inr ⟨rfl, ?_⟩))
          exact (h.target_iff hapart hmsg).mpr ⟨(Prod.mk.inj heq).2.symm, hlt⟩
        · exact .inr (.inl ⟨sender, by rwa [hincoming, Function.update_self]⟩)
      · exact .inr (.inl ⟨sender, by rwa [hincoming, Function.update_of_ne (Ne.symm hhost)]⟩)
    · exact .inr (.inr fun hlt => hstarted.mpr (.inl (hdone hlt)))

theorem Progress.handled (hapart : Apart nodes conn) (h : s.Progress nodes) {host : Trio}
    {peerId : PeerId} {msg : InternalMessage} {rest : List (PeerId × InternalMessage)} (now : Clock)
    (hqueue : s.incoming host = (peerId, msg) :: rest) :
    (s.handled host peerId msg rest now).Progress nodes := by
  have hmsg : Caused nodes msg := h.queued host (peerId, msg) (hqueue ▸ List.mem_cons_self)
  obtain ⟨htransport, hmembership, _⟩ := handleMessage_of_caused hmsg (s.nodes host) peerId now
  have hincoming := s.incoming_handled hmsg host peerId rest now
  have hb : host ≠ .b := by
    rintro rfl
    rw [h.silent.1] at hqueue
    cases hqueue
  refine ⟨h.idOf_handled hmsg host peerId rest now, h.owners, ⟨?_, ?_⟩, ?_, ?_, h.found, h.wired, ?_, ?_,
    h.stage_handled hapart now hmsg hqueue⟩
  · rw [hincoming, Function.update_of_ne (Ne.symm hb)]
    exact h.silent.1
  · simpa [Joining.handled, Function.update_of_ne (Ne.symm hb)] using h.silent.2
  · by_cases hhost : host = .c
    · subst hhost
      simpa [Joining.handled, htransport] using h.unconnected
    · simpa [Joining.handled, Function.update_of_ne (Ne.symm hhost)] using h.unconnected
  · by_cases hhost : host = .c
    · subst hhost
      simpa [Joining.handled] using hmembership _ h.unconnected h.unknown
    · simpa [Joining.handled, Function.update_of_ne (Ne.symm hhost)] using h.unknown
  · intro x entry hentry
    rw [hincoming] at hentry
    by_cases hx : x = host
    · subst hx
      rw [Function.update_self] at hentry
      exact h.queued x entry (hqueue ▸ List.mem_cons_of_mem _ hentry)
    · rw [Function.update_of_ne hx] at hentry
      exact h.queued x entry hentry
  · intro hstarted
    obtain hold | ⟨_, htarget⟩ := (h.started_handled_iff hmsg host peerId rest now).mp hstarted
    · exact h.sound hold
    · exact ((h.target_iff hapart hmsg).mp htarget).2

theorem Apart.processHandshakeMessage (hapart : Apart nodes conn) :
    (nodes .a).transport.processHandshakeMessageAt protocolVersion (nodes .c).transport.handshake =
      ([(nodes .a).transport.handshakeAck true none,
          .peerListSync (nodes .a).transport.getPeerListForSync],
        .ok ((nodes .c).transport.localPeerId, (nodes .c).transport.listenPort,
          (nodes .c).transport.handshake)) := by
  have hlist : (nodes .a).transport.getPeerListForSync.isEmpty = false :=
    List.isEmpty_eq_false_iff_exists_mem.mpr ⟨_, hapart.mem_peerList⟩
  simp [processHandshakeMessageAt, handshake, handshakeAt, hapart.session, hapart.unregistered, hlist]

theorem Progress.processHandshake (hapart : Apart nodes conn) (h : s.Progress nodes)
    (ht : s.step .processHandshake = some t) : t.Progress nodes := by
  obtain ⟨socket, hsocket, rfl⟩ := Option.map_eq_some_iff.mp ht
  simp only [Socket.step] at hsocket
  split at hsocket
  · next msg rest _ hidle hwire =>
    cases h.stage with
    | answered hacceptor => exact absurd hidle hacceptor
    | passed hacceptor => exact absurd hidle hacceptor
    | asked _ hinitiator hforth hback hsame hunheard =>
      obtain ⟨rfl, rfl⟩ : msg = (nodes .c).transport.handshake ∧ rest = [] := by
        simpa [hwire] using hforth
      rw [h.owners.2, hsame, hapart.processHandshakeMessage, hback] at hsocket
      cases hsocket
      refine ⟨h.ids, h.owners, h.silent, h.unconnected, h.unknown, ?_, ?_, h.queued, h.sound, ?_⟩
      · intro peerId hpeer
        exact h.found peerId (by simpa [Socket.setEnd, Socket.setWire] using hpeer)
      · intro side msg hmsg
        cases side with
        | initiator =>
          have hcases : msg = (nodes .a).transport.handshakeAck true none ∨
              msg = .peerListSync (nodes .a).transport.getPeerListForSync := by
            simpa [Socket.setEnd, Socket.setWire] using hmsg
          obtain rfl | rfl := hcases
          · exact trivial
          · exact rfl
        | acceptor => simp [Socket.setEnd, Socket.setWire] at hmsg
      · refine .answered ?_ ?_ ?_
        · simp [Socket.setEnd, Socket.setWire, Duplex.afterHandshake]
        · simpa [Socket.setEnd, Socket.setWire] using hinitiator
        · simp [Socket.setEnd, Socket.setWire]
  · cases hsocket

theorem Progress.receiveHandshakeAck (h : s.Progress nodes)
    (ht : s.step .receiveHandshakeAck = some t) : t.Progress nodes := by
  obtain ⟨socket, hsocket, rfl⟩ := Option.map_eq_some_iff.mp ht
  simp only [Socket.step] at hsocket
  split at hsocket
  · next msg rest _ hawaiting hwire =>
    cases h.stage with
    | asked _ _ _ hback => simp [hwire] at hback
    | passed _ hinitiator => exact absurd hawaiting hinitiator
    | answered hacceptor _ hback =>
      obtain ⟨rfl, rfl⟩ : msg = (nodes .a).transport.handshakeAck true none ∧
          rest = [.peerListSync (nodes .a).transport.getPeerListForSync] := by
        simpa [hwire] using hback
      cases hsocket
      refine ⟨h.ids, h.owners, h.silent, h.unconnected, h.unknown, ?_, ?_, h.queued, h.sound, ?_⟩
      · intro peerId hpeer
        obtain ⟨port, notify, hok⟩ :=
          Socket.peer_afterHandshake (by simpa [Socket.setEnd, Socket.setWire] using hpeer)
        cases hok
        rfl
      · intro side msg hmsg
        cases side with
        | initiator =>
          obtain rfl : msg = .peerListSync (nodes .a).transport.getPeerListForSync := by
            simpa [Socket.setEnd, Socket.setWire] using hmsg
          exact rfl
        | acceptor => exact h.wired .acceptor msg (by simpa [Socket.setEnd, Socket.setWire] using hmsg)
      · refine .passed ?_ ?_ (.inl ?_)
        · simpa [Socket.setEnd, Socket.setWire] using hacceptor
        · simp [Socket.setEnd, Socket.setWire, TransportManager.receiveHandshakeAck, handshakeAck,
            Duplex.afterHandshake]
        · simp [Socket.setEnd, Socket.setWire]
  · cases hsocket

/-- An end that is written over by a later phase of its task keeps the stage. -/
theorem Stage.setEnd {side : Side} {e : SocketEnd} {next : Trio → NetworkState}
    (h : Stage nodes s) (hbusy : s.socket.ends side ≠ .idle ∧ s.socket.ends side ≠ .awaiting)
    (he : e ≠ .idle ∧ e ≠ .awaiting) (hids : ∀ x, (next x).transport.localPeerId = s.idOf x) :
    Stage nodes { s with nodes := next, socket := s.socket.setEnd side e } := by
  cases side with
  | initiator =>
    cases h with
    | asked _ hinitiator => exact absurd hinitiator hbusy.2
    | answered _ hinitiator => exact absurd hinitiator hbusy.2
    | passed hacceptor _ hsync =>
      refine .passed ?_ ?_ ?_
      · simpa [Socket.setEnd] using hacceptor
      · simpa [Socket.setEnd] using he.2
      · simpa [Socket.setEnd, Started, idOf, hids] using hsync
  | acceptor =>
    cases h with
    | asked hacceptor => exact absurd hacceptor hbusy.1
    | answered _ hinitiator hback =>
      refine .answered ?_ ?_ hback
      · simpa [Socket.setEnd] using he.1
      · simpa [Socket.setEnd] using hinitiator
    | passed _ hinitiator hsync =>
      refine .passed ?_ ?_ ?_
      · simpa [Socket.setEnd] using he.1
      · simpa [Socket.setEnd] using hinitiator
      · simpa [Socket.setEnd, Started, idOf, hids] using hsync

theorem Progress.setEnd {side : Side} {e : SocketEnd} {next : Trio → NetworkState}
    (h : s.Progress nodes) (hbusy : s.socket.ends side ≠ .idle ∧ s.socket.ends side ≠ .awaiting)
    (he : e ≠ .idle ∧ e ≠ .awaiting)
    (hpeer : ∀ peerId, e.peer = some peerId → (s.socket.ends side).peer = some peerId)
    (hids : ∀ x, (next x).transport.localPeerId = s.idOf x)
    (hconnections : (nodes .b).transport.localPeerId ∉ (next .c).transport.connections)
    (hmembership : (next .c).membership = (s.nodes .c).membership) :
    Progress nodes { s with nodes := next, socket := s.socket.setEnd side e } := by
  refine ⟨fun x => (hids x).trans (h.ids x), h.owners, h.silent, hconnections, hmembership ▸ h.unknown,
    ?_, h.wired, h.queued, ?_, h.stage.setEnd hbusy he hids⟩
  · intro peerId hfound
    apply h.found
    cases side with
    | initiator => exact hpeer peerId (by simpa [Socket.setEnd] using hfound)
    | acceptor => simpa [Socket.setEnd] using hfound
  · intro hstarted
    exact h.sound (by simpa [Started, idOf, hids] using hstarted)

theorem Progress.register (hapart : Apart nodes conn) (h : s.Progress nodes) {side : Side}
    {peerIp : String} {now : Nat} (ht : s.step (.register side peerIp now) = some t) :
    t.Progress nodes := by
  simp only [step] at ht
  split at ht
  · next peerId port hready =>
    have hbusy : s.socket.ends side ≠ .idle ∧ s.socket.ends side ≠ .awaiting := by simp [hready]
    rcases (s.nodes (s.socket.owner side)).transport.registerConnection_cases peerId
      (peerIp ++ ":" ++ toString port) now with ⟨_, heq⟩ | ⟨_, heq⟩
    · rw [heq] at ht
      cases ht
      exact h.setEnd hbusy ⟨nofun, nofun⟩ nofun (fun _ => rfl) h.unconnected rfl
    · rw [heq] at ht
      cases ht
      refine h.setEnd hbusy ⟨by simp, by simp⟩ ?_ ?_ ?_ ?_
      · intro p hp
        rw [hready]
        exact hp
      · intro x
        by_cases hx : x = s.socket.owner side
        · subst hx
          simp [idOf]
        · simp [idOf, Function.update_of_ne hx]
      · cases side with
        | acceptor =>
          rw [h.owners.2]
          simpa using h.unconnected
        | initiator =>
          have hpeer := h.found peerId (by rw [hready]; rfl)
          rw [h.owners.1]
          simpa [hpeer, Ne.symm hapart.distinct] using h.unconnected
      · by_cases hc : s.socket.owner side = .c
        · simp [hc]
        · simp [Function.update_of_ne (Ne.symm hc)]
  · cases ht

/-- A message that the handshake causes reaches the handler of a node other than `b`. -/
theorem Progress.enqueue (h : s.Progress nodes) {host : Trio} {entry : PeerId × InternalMessage}
    {socket : Socket Trio} {notified : Side → Bool} (hhost : host ≠ .b)
    (hentry : Caused nodes entry.2) (howner : socket.owner = s.socket.owner)
    (hends : socket.ends = s.socket.ends)
    (hwire : ∀ side, ∀ msg ∈ socket.wire side, msg ∈ s.socket.wire side)
    (hstage : Stage nodes { s with
      socket, notified
      incoming := Function.update s.incoming host (s.incoming host ++ [entry]) }) :
    Progress nodes { s with
      socket, notified
      incoming := Function.update s.incoming host (s.incoming host ++ [entry]) } := by
  refine ⟨h.ids, howner ▸ h.owners, ⟨?_, h.silent.2⟩, h.unconnected, h.unknown, hends ▸ h.found,
    fun side msg hmsg => h.wired side msg (hwire side msg hmsg), ?_, h.sound, hstage⟩
  · simpa [Function.update_of_ne (Ne.symm hhost)] using h.silent.1
  · intro x found hfound
    by_cases hx : x = host
    · subst hx
      simp only [Function.update_self, List.mem_append, List.mem_singleton] at hfound
      obtain hold | rfl := hfound
      · exact h.queued x found hold
      · exact hentry
    · simp only [Function.update_of_ne hx] at hfound
      exact h.queued x found hfound

theorem Progress.owner_ne (h : s.Progress nodes) (side : Side) : s.socket.owner side ≠ .b := by
  cases side with
  | initiator => simp [h.owners.1]
  | acceptor => simp [h.owners.2]

theorem Progress.notify (h : s.Progress nodes) {side : Side} (ht : s.step (.notify side) = some t) :
    t.Progress nodes := by
  simp only [step] at ht
  split at ht
  · next peerId generation hregistered _ =>
    cases ht
    refine h.enqueue (h.owner_ne side) ?_ rfl rfl (fun _ _ hmsg => hmsg) ?_
    · cases side <;> exact trivial
    · cases h.stage with
      | asked hacceptor hinitiator =>
        cases side with
        | initiator => exact absurd (hinitiator.symm.trans hregistered) nofun
        | acceptor => exact absurd (hacceptor.symm.trans hregistered) nofun
      | answered hacceptor hinitiator hback => exact .answered hacceptor hinitiator hback
      | passed hacceptor hinitiator hsync =>
        refine .passed hacceptor hinitiator ?_
        obtain hwire | ⟨sender, hin⟩ | hdone := hsync
        · exact .inl hwire
        · refine .inr (.inl ⟨sender, ?_⟩)
          by_cases hc : s.socket.owner side = .c
          · simp [hc, hin]
          · simpa [Function.update_of_ne (Ne.symm hc)] using hin
        · exact .inr (.inr hdone)
  · cases ht

theorem Progress.read (h : s.Progress nodes) {side : Side} (ht : s.step (.read side) = some t) :
    t.Progress nodes := by
  simp only [step] at ht
  split at ht
  · next peerId generation msg rest hregistered hwire =>
    cases ht
    refine h.enqueue (h.owner_ne side) (h.wired side msg (hwire ▸ List.mem_cons_self)) rfl rfl ?_ ?_
    · intro side' msg' hmsg
      by_cases hside : side' = side
      · subst hside
        rw [hwire]
        exact List.mem_cons_of_mem _ (by simpa [Socket.setWire] using hmsg)
      · simpa [Socket.setWire, Function.update_of_ne hside] using hmsg
    · cases side with
      | acceptor =>
        cases h.stage with
        | asked hacceptor => exact absurd (hacceptor.symm.trans hregistered) (by simp)
        | answered hacceptor hinitiator hback =>
          exact .answered hacceptor hinitiator (by simpa [Socket.setWire] using hback)
        | passed hacceptor hinitiator hsync =>
          refine .passed hacceptor hinitiator ?_
          simpa [Socket.setWire, h.owners.2, Started, idOf] using hsync
      | initiator =>
        cases h.stage with
        | asked _ hinitiator => exact absurd (hinitiator.symm.trans hregistered) (by simp)
        | answered _ hinitiator => exact absurd (hinitiator.symm.trans hregistered) (by simp)
        | passed hacceptor hinitiator hsync =>
          refine .passed hacceptor hinitiator ?_
          simp only [h.owners.1, Function.update_self, Socket.setWire, List.mem_append,
            List.mem_singleton, Prod.mk.injEq]
          obtain hin | ⟨sender, hin⟩ | hdone := hsync
          · rw [hwire] at hin
            obtain rfl | hrest := List.mem_cons.mp hin
            · exact .inr (.inl ⟨peerId, .inr ⟨rfl, rfl⟩⟩)
            · exact .inl hrest
          · exact .inr (.inl ⟨sender, .inl hin⟩)
          · exact .inr (.inr hdone)
  · cases ht

theorem Progress.step (hapart : Apart nodes conn) (h : s.Progress nodes) {action : Action}
    (ht : s.step action = some t) : t.Progress nodes := by
  cases action with
  | processHandshake => exact h.processHandshake hapart ht
  | receiveHandshakeAck => exact h.receiveHandshakeAck ht
  | register side peerIp now => exact h.register hapart ht
  | notify side => exact h.notify ht
  | read side => exact h.read ht
  | handle host now =>
    simp only [Joining.step] at ht
    split at ht
    · next peerId msg rest hqueue =>
      cases ht
      exact h.handled hapart now hqueue
    · cases ht

theorem progress_start (hapart : Apart nodes conn) : (start nodes).Progress nodes := by
  refine ⟨fun _ => rfl, ⟨rfl, rfl⟩, ⟨rfl, rfl⟩, hapart.unconnected, hapart.unknown, nofun, ?_, nofun, ?_,
    .asked rfl rfl rfl rfl rfl rfl⟩
  · rintro side msg hmsg
    cases side with
    | initiator => exact absurd hmsg nofun
    | acceptor =>
      obtain rfl := List.mem_singleton.mp hmsg
      exact trivial
  · rintro ⟨_, hno⟩
    exact absurd hno nofun

/-- After `c` has joined through `a`, for every peer `b` of `a` with which `c` is not acquainted:
`b` starts no `connect_to` towards `c`, and `c` starts one towards `b` if and only if its id is the
smaller one. So exactly one of them does when `c` has the smaller id, and neither otherwise. -/
theorem peer_list_sync_connects_iff (hapart : Apart nodes conn) {acts : List Action}
    (hrun : run step (start nodes) acts = some s) (hsettled : s.Settled) :
    (Xor (s.Started .b .c) (s.Started .c .b) ↔ s.idOf .c < s.idOf .b) ∧
      (s.Started .c .b ↔ s.idOf .c < s.idOf .b) ∧ ¬ s.Started .b .c := by
  have h : s.Progress nodes := invariant (P := fun _ _ => True)
    (fun _ _ _ h _ ht => h.step hapart ht) (progress_start hapart)
    (along_of_forall (fun _ _ => trivial) _ _) hrun
  have hb : ¬ s.Started .b .c := by
    rintro ⟨addr, hin⟩
    rw [h.silent.2] at hin
    cases hin
  have hc : s.Started .c .b ↔ s.idOf .c < s.idOf .b := by
    rw [h.ids, h.ids]
    refine ⟨h.sound, ?_⟩
    obtain ⟨hregistered, _, hwire⟩ := hsettled.1 .initiator
    cases h.stage with
    | asked _ hinitiator => simp [hinitiator, isRegistered] at hregistered
    | answered _ hinitiator => simp [hinitiator, isRegistered] at hregistered
    | passed _ _ hsync =>
      obtain hin | ⟨sender, hin⟩ | hdone := hsync
      · rw [hwire] at hin
        cases hin
      · rw [hsettled.2 .c] at hin
        cases hin
      · exact hdone
  refine ⟨?_, hc, hb⟩
  rw [← hc]
  simp [Xor, hb]

/-- Node `a` with a connection to `b`, and a node `c` that knows nobody. -/
def sampleTrio (b c : PeerId) : Trio → NetworkState
  | .a =>
    let state := NetworkState.new ⟨"a"⟩ "room" 4000 true 500 3 true .hold
    { state with
      transport := { state.transport with
        connections := (∅ : AList fun _ : PeerId => PeerConnection).insert b
          { controlCancel := 0, dataCancel := none, info := .new b "10.0.0.2:4000" 0 }
        nextGeneration := 1 } }
  | .b => .new b "room" 4000 true 500 3 true .hold
  | .c => .new c "room" 4000 true 500 3 true .hold

theorem apart_sampleTrio {b c : PeerId} (hb : b ≠ ⟨"a"⟩) (hc : c ≠ b) :
    Apart (sampleTrio b c)
      { controlCancel := 0, dataCancel := none, info := .new b "10.0.0.2:4000" 0 } := by
  refine ⟨AList.lookup_insert .., rfl, rfl, rfl, ?_, Ne.symm hb, ?_, ?_⟩
  · intro hin
    obtain heq | hno := (AList.mem_insert _).mp hin
    · exact hc heq
    · exact absurd hno (by simp)
  · simp [sampleTrio, NetworkState.new, TransportManager.new]
  · simp [sampleTrio, NetworkState.new, MembershipManager.new]

/-- `c` handles the list of peers before its own notify packet. -/
def joinActs : List Action :=
  [.processHandshake, .register .acceptor "10.0.0.3" 0, .receiveHandshakeAck,
    .register .initiator "10.0.0.1" 0, .read .initiator, .notify .initiator, .handle .c ⟨0, 0⟩,
    .handle .c ⟨0, 0⟩, .notify .acceptor, .handle .a ⟨0, 0⟩]

/-- The ids of the source's own mesh test: the joining node has the smaller one. -/
theorem smaller_id_connects :
    ∃ s ∈ run step (start (sampleTrio ⟨"pls_b"⟩ ⟨"pls_aa"⟩)) joinActs,
      Xor (s.Started .b .c) (s.Started .c .b) := by
  have hfinal : ∃ s ∈ run step (start (sampleTrio ⟨"pls_b"⟩ ⟨"pls_aa"⟩)) joinActs,
      s.Settled ∧ s.idOf .c < s.idOf .b := by decide +kernel
  obtain ⟨s, hrun, hsettled, hlt⟩ := hfinal
  have hapart := apart_sampleTrio (by decide : (⟨"pls_b"⟩ : PeerId) ≠ ⟨"a"⟩)
    (by decide : (⟨"pls_aa"⟩ : PeerId) ≠ ⟨"pls_b"⟩)
  exact ⟨s, hrun, (peer_list_sync_connects_iff hapart hrun hsettled).1.mpr hlt⟩

/-- The joining node has the larger id: neither node starts a connection. -/
theorem larger_id_left_unconnected :
    Apart (sampleTrio ⟨"b"⟩ ⟨"c"⟩)
      { controlCancel := 0, dataCancel := none, info := .new ⟨"b"⟩ "10.0.0.2:4000" 0 } ∧
    ∃ s ∈ run step (start (sampleTrio ⟨"b"⟩ ⟨"c"⟩)) joinActs, s.Settled ∧
      s.started .b = [] ∧ s.started .c = [] ∧ ¬ Xor (s.Started .b .c) (s.Started .c .b) := by
  refine ⟨apart_sampleTrio (by decide) (by decide), ?_⟩
  have hfinal : ∃ s ∈ run step (start (sampleTrio ⟨"b"⟩ ⟨"c"⟩)) joinActs, s.Settled ∧
      s.started .b = [] ∧ s.started .c = [] := by decide +kernel
  obtain ⟨s, hrun, hsettled, hb, hc⟩ := hfinal
  refine ⟨s, hrun, hsettled, hb, hc, ?_⟩
  simp [Xor, Started, hb, hc]

end Joining

end MetaMystia

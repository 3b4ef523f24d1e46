import MetaMystia.Transport.Addresses
import MetaMystia.Transport.DataChannelCleanup

/-! # Which node is at the other end of a data channel

A data channel is a second socket. The node with the smaller id dials the address of the
entry, a moment after it has made it, and the ack does not tell it who has answered; the
other side attaches the socket to whatever peer the handshake names.
-/

namespace MetaMystia

open Runs TransportManager

universe u

namespace TransportManager

/-- `open_data_channel` goes on to dial: the peer is still there and has no data channel. -/
def opensDataChannel (self : TransportManager) (peerId : PeerId) : Bool :=
  match self.connections.lookup peerId with
  | some conn => conn.dataCancel.isNone
  | none => false

def dataChannelHandshake (self : TransportManager) : InternalMessage :=
  .dataChannelHandshake self.localPeerId

/-- The message sent back on the socket, and the peer to attach it to. -/
def handleIncomingDataChannel (self : TransportManager) :
    InternalMessage → List InternalMessage × Except NetworkError PeerId
  | .dataChannelHandshake peerId =>
    let known := self.hasPeer peerId
    ([.dataChannelHandshakeAck self.localPeerId known],
      if known then .ok peerId
      else .error (.handshakeFailed ("data channel from unknown peer " ++ peerId.id)))
  | _ => ([], .error (.handshakeFailed "expected DataChannelHandshake"))

def receiveDataChannelAck : InternalMessage → Except NetworkError Unit
  | .dataChannelHandshakeAck _ true => .ok ()
  | _ => .error (.handshakeFailed "data channel handshake rejected")

/-- No entry is given a data channel. -/
def KeepsData (before after : TransportManager) : Prop :=
  before.nextGeneration ≤ after.nextGeneration ∧
    ∀ k g, after.dataSlot k = some g → before.dataSlot k = some g

variable {self : TransportManager} {peerId : PeerId}

theorem KeepsData.refl (self : TransportManager) : self.KeepsData self :=
  ⟨Nat.le_refl _, fun _ _ h => h⟩

theorem keepsData_tearDown : self.KeepsData (self.tearDown peerId) := by
  refine ⟨Nat.le_of_eq tearDown_nextGeneration.symm, ?_⟩
  intro k g hslot
  rw [dataSlot_tearDown] at hslot
  split at hslot
  · cases hslot
  · exact hslot

theorem keepsData_clearDataChannel : self.KeepsData (self.clearDataChannel peerId) := by
  refine ⟨Nat.le_of_eq modify_nextGeneration.symm, ?_⟩
  intro k g hslot
  rw [dataSlot_clearDataChannel] at hslot
  split at hslot
  · cases hslot
  · exact hslot

end TransportManager

/-- `accepted`: the ack is sent and the channel not yet attached. -/
inductive DataEnd
  | idle
  | awaiting (peerId : PeerId)
  | accepted (peerId : PeerId)
  | attached (peerId : PeerId) (generation : Nat) (phase : ReadPhase)
  | closed
deriving DecidableEq

/-- `wire side` holds the handshake messages on their way to that side. -/
structure DataSocket (ι : Type u) where
  owner : Side → ι
  ends : Side → DataEnd
  wire : Side → List InternalMessage

/-- `opening` holds the tasks that wait to open a data channel, with the address they were given. -/
structure DataNetwork (ι : Type u) where
  network : Network ι
  opening : List (ι × PeerId × String)
  dials : List (DataSocket ι)

/-- The peer that an end stands for. -/
def DataEnd.peer : DataEnd → Option PeerId
  | .awaiting peerId => some peerId
  | .accepted peerId => some peerId
  | .attached peerId _ _ => some peerId
  | .idle | .closed => none

def DataSocket.setEnd {ι : Type u} (s : DataSocket ι) (side : Side) (e : DataEnd) : DataSocket ι :=
  { s with ends := Function.update s.ends side e }

def DataSocket.setWire {ι : Type u} (s : DataSocket ι) (side : Side) (msgs : List InternalMessage) :
    DataSocket ι :=
  { s with wire := Function.update s.wire side msgs }

/-- An end of `a` was attached as this peer's data channel of this generation, and the other end is `b`'s. -/
def DataSocket.Attaches {ι : Type u} (s : DataSocket ι) (a : ι) (peerId : PeerId) (generation : Nat)
    (b : ι) : Prop :=
  ∃ side phase, s.owner side = a ∧ s.owner side.other = b ∧
    s.ends side = .attached peerId generation phase

namespace DataSocket

variable {ι : Type u} {id : ι → PeerId} {s : DataSocket ι} {a b : ι} {peerId p : PeerId} {generation g : Nat}

/-- `known`: an end stands for the owner of the other end. `asked`: so does the handshake. -/
structure Sound (id : ι → PeerId) (s : DataSocket ι) : Prop where
  known : ∀ side peerId, (s.ends side).peer = some peerId → peerId = id (s.owner side.other)
  asked : ∀ msg ∈ s.wire .acceptor, msg = .dataChannelHandshake (id (s.owner .initiator))

theorem ends_setEnd_cases {side side' : Side} {e f : DataEnd} (h : (s.setEnd side e).ends side' = f) :
    (side' = side ∧ e = f) ∨ (side' ≠ side ∧ s.ends side' = f) := by
  by_cases hside : side' = side
  · subst hside
    exact .inl ⟨rfl, by simpa [DataSocket.setEnd] using h⟩
  · exact .inr ⟨hside, by simpa [DataSocket.setEnd, Function.update_of_ne hside] using h⟩

theorem Sound.setEnd (h : s.Sound id) {side : Side} {e : DataEnd}
    (he : ∀ peerId, e.peer = some peerId → peerId = id (s.owner side.other)) :
    (s.setEnd side e).Sound id := by
  refine ⟨?_, h.asked⟩
  intro side' peerId hpeer
  obtain ⟨rfl, heq⟩ | ⟨_, hwas⟩ :=
    ends_setEnd_cases (rfl : (s.setEnd side e).ends side' = (s.setEnd side e).ends side')
  · exact he peerId (heq ▸ hpeer)
  · exact h.known side' peerId (hwas ▸ hpeer)

/-- An end that is written goes on standing for the peer it stood for. -/
theorem Sound.setEnd_same (h : s.Sound id) {side : Side} {e : DataEnd}
    (he : ∀ peerId, e.peer = some peerId → (s.ends side).peer = some peerId) : (s.setEnd side e).Sound id :=
  h.setEnd fun peerId hpeer => h.known side peerId (he peerId hpeer)

theorem Sound.setWire (h : s.Sound id) {side : Side} {msgs : List InternalMessage}
    (hmsgs : side = .acceptor → ∀ msg ∈ msgs, msg ∈ s.wire .acceptor) : (s.setWire side msgs).Sound id := by
  refine ⟨h.known, ?_⟩
  cases side with
  | initiator => simpa [DataSocket.setWire] using h.asked
  | acceptor =>
    intro msg hmsg
    exact h.asked msg (hmsgs rfl msg (by simpa [DataSocket.setWire] using hmsg))

theorem attaches_setWire {side : Side} {msgs : List InternalMessage} :
    (s.setWire side msgs).Attaches a p g b ↔ s.Attaches a p g b := Iff.rfl

/-- The write of one end changes what this end is attached as and nothing else. -/
theorem attaches_setEnd_iff {side : Side} {e : DataEnd} :
    (s.setEnd side e).Attaches a p g b ↔
      (∃ phase, s.owner side = a ∧ s.owner side.other = b ∧ e = .attached p g phase) ∨
      ∃ side' phase, side' ≠ side ∧ s.owner side' = a ∧ s.owner side'.other = b ∧
        s.ends side' = .attached p g phase := by
  constructor
  · rintro ⟨side', phase, ha, hb, hend⟩
    obtain ⟨rfl, heq⟩ | ⟨hne, hwas⟩ := ends_setEnd_cases hend
    · exact .inl ⟨phase, ha, hb, heq⟩
    · exact .inr ⟨side', phase, hne, ha, hb, hwas⟩
  · rintro (⟨phase, ha, hb, rfl⟩ | ⟨side', phase, hne, ha, hb, hwas⟩)
    · exact ⟨side, phase, ha, hb, by simp [DataSocket.setEnd]⟩
    · exact ⟨side', phase, ha, hb, by simpa [DataSocket.setEnd, Function.update_of_ne hne] using hwas⟩

/-- A write that neither attaches the end nor changes what it is attached as. -/
theorem attaches_setEnd_same {side : Side} {e : DataEnd}
    (he : ∀ p g, (∃ phase, e = .attached p g phase) ↔ ∃ phase, s.ends side = .attached p g phase) :
    (s.setEnd side e).Attaches a p g b ↔ s.Attaches a p g b := by
  rw [attaches_setEnd_iff]
  constructor
  · rintro (⟨phase, ha, hb, heq⟩ | ⟨side', phase, _, ha, hb, hwas⟩)
    · obtain ⟨phase', hwas⟩ := (he p g).mp ⟨phase, heq⟩
      exact ⟨side, phase', ha, hb, hwas⟩
    · exact ⟨side', phase, ha, hb, hwas⟩
  · rintro ⟨side', phase, ha, hb, hend⟩
    by_cases hside : side' = side
    · subst hside
      obtain ⟨phase', heq⟩ := (he p g).mpr ⟨phase, hend⟩
      exact .inl ⟨phase', ha, hb, heq⟩
    · exact .inr ⟨side', phase, hside, ha, hb, hend⟩

end DataSocket

variable {ι : Type u} [DecidableEq ι]

/-- The task that `register_connection` spawns beside the two of the control channel. -/
def Network.spawned (s : Network ι) : Network.Action ι → List (ι × PeerId × String)
  | .register i side peerIp _ =>
    match s.sockets[i]? with
    | some socket =>
      match socket.ends side with
      | .ready peerId listenPort =>
        if peerId ∉ (s.transports (socket.owner side)).connections ∧
            (s.transports (socket.owner side)).localPeerId < peerId then
          [(socket.owner side, peerId, peerIp ++ ":" ++ toString listenPort)]
        else []
      | _ => []
    | none => []
  | _ => []

namespace DataNetwork

inductive Action (ι : Type u)
  | network (action : Network.Action ι)
  | openDataChannel (j : Nat)
  | answer (j : Nat)
  | attach (j : Nat)
  | receiveAck (j : Nat)
  | giveUp (j : Nat) (side : Side)
  | leaveLoop (j : Nat) (side : Side)
  | cleanup (j : Nat) (side : Side)

def start (network : Network ι) : DataNetwork ι := ⟨network, [], []⟩

def setDial (s : DataNetwork ι) (j : Nat) (socket : DataSocket ι) : DataNetwork ι :=
  { s with dials := s.dials.set j socket }

/-- `register_data_channel` at one end: without an entry the socket is dropped. -/
def registerAt (s : DataNetwork ι) (j : Nat) (socket : DataSocket ι) (side : Side) (peerId : PeerId) :
    DataNetwork ι :=
  let transport := s.network.transports (socket.owner side)
  { s with
    network := s.network.setTransport (socket.owner side) (transport.registerDataChannel peerId)
    dials := s.dials.set j (socket.setEnd side
      (if peerId ∈ transport.connections then .attached peerId transport.nextGeneration .reading
       else .closed)) }

/-- What the read task of a data channel does after its loop, one lock at a time. -/
def cleanupAt (s : DataNetwork ι) (j : Nat) (socket : DataSocket ι) (side : Side) : Option (DataNetwork ι) :=
  let transport := s.network.transports (socket.owner side)
  match socket.ends side with
  | .attached peerId generation .leftLoop =>
    some (s.setDial j (socket.setEnd side (.attached peerId generation
      (if transport.isCancelled (.data generation) then .finished else .clearing))))
  | .attached peerId generation .clearing =>
    some { s with
      network := s.network.setTransport (socket.owner side) (transport.clearDataChannel peerId)
      dials := s.dials.set j (socket.setEnd side (.attached peerId generation .finished)) }
  | _ => none

/-- `listener` is the node that listens at an address. An end may be given up at any of its awaits,
and a read task may leave its loop at any time. -/
def step (version : ι → UInt16) (listener : String → Option ι) (s : DataNetwork ι) :
    Action ι → Option (DataNetwork ι)
  | .network (.registerDataChannel _ _) => none
  | .network action =>
    (s.network.step version action).map fun network =>
      { s with network, opening := s.opening ++ s.network.spawned action }
  | .openDataChannel j =>
    match s.opening[j]? with
    | some (a, peerId, addr) =>
      let s := { s with opening := s.opening.eraseIdx j }
      match (s.network.transports a).opensDataChannel peerId, listener addr with
      | true, some b =>
        some { s with
          dials := s.dials ++
            [{ owner := fun
                 | .initiator => a
                 | .acceptor => b
               ends := fun
                 | .initiator => .awaiting peerId
                 | .acceptor => .idle
               wire := fun
                 | .initiator => []
                 | .acceptor => [(s.network.transports a).dataChannelHandshake] }] }
      | _, _ => some s
    | none => none
  | .answer j =>
    match s.dials[j]? with
    | some socket =>
      match socket.ends .acceptor, socket.wire .acceptor with
      | .idle, msg :: rest =>
        let (acks, result) := (s.network.transports (socket.owner .acceptor)).handleIncomingDataChannel msg
        let e := match result with
          | .ok peerId => .accepted peerId
          | .error _ => .closed
        some (s.setDial j (((socket.setEnd .acceptor e).setWire .acceptor rest).setWire .initiator
          (socket.wire .initiator ++ acks)))
      | _, _ => none
    | none => none
  | .attach j =>
    match s.dials[j]? with
    | some socket =>
      match socket.ends .acceptor with
      | .accepted peerId => some (s.registerAt j socket .acceptor peerId)
      | _ => none
    | none => none
  | .receiveAck j =>
    match s.dials[j]? with
    | some socket =>
      match socket.ends .initiator, socket.wire .initiator with
      | .awaiting peerId, msg :: rest =>
        match TransportManager.receiveDataChannelAck msg with
        | .ok () => some (s.registerAt j (socket.setWire .initiator rest) .initiator peerId)
        | .error _ => some (s.setDial j (socket.setEnd .initiator .closed))
      | _, _ => none
    | none => none
  | .giveUp j side =>
    match s.dials[j]? with
    | some socket =>
      match socket.ends side with
      | .idle | .awaiting _ | .accepted _ => some (s.setDial j (socket.setEnd side .closed))
      | _ => none
    | none => none
  | .leaveLoop j side =>
    match s.dials[j]? with
    | some socket =>
      match socket.ends side with
      | .attached peerId generation .reading =>
        some (s.setDial j (socket.setEnd side (.attached peerId generation .leftLoop)))
      | _ => none
    | none => none
  | .cleanup j side =>
    match s.dials[j]? with
    | some socket => s.cleanupAt j socket side
    | none => none

def AttachedAt (s : DataNetwork ι) (a : ι) (peerId : PeerId) (generation : Nat) (b : ι) : Prop :=
  ∃ socket ∈ s.dials, socket.Attaches a peerId generation b

end DataNetwork

namespace Network

variable {version : ι → UInt16} {s t : Network ι}

/-- What holds at the node of the new transport holds at the others, which are as they were. -/
theorem keepsData_setTransport {a : ι} {transport : TransportManager}
    (h : (s.transports a).KeepsData transport) (c : ι) :
    (s.transports c).KeepsData ((s.setTransport a transport).transports c) :=
  s.forall_setTransport (fun c m => (s.transports c).KeepsData m) h (fun c _ => .refl (s.transports c)) c

/-- Apart from `register_data_channel` no step gives an entry a data channel. -/
theorem step_keepsData {action : Action ι} (hno : ∀ a p, action ≠ .registerDataChannel a p)
    (hstep : s.step version action = some t) (c : ι) : (s.transports c).KeepsData (t.transports c) := by
  cases action with
  | connect a b =>
    cases hstep
    exact .refl _
  | socket i action =>
    simp only [Network.step] at hstep
    split at hstep
    · obtain ⟨socket', _, rfl⟩ := Option.map_eq_some_iff.mp hstep
      exact .refl _
    · cases hstep
  | register i side peerIp now =>
    simp only [Network.step] at hstep
    split at hstep
    · next socket hi =>
      split at hstep
      · next peerId port _ =>
        obtain ⟨_, heq⟩ | ⟨hnew, heq⟩ := (s.transports (socket.owner side)).registerConnection_cases peerId
          (peerIp ++ ":" ++ toString port) now
        · rw [heq] at hstep
          cases hstep
          exact .refl _
        · rw [heq] at hstep
          cases hstep
          refine keepsData_setTransport ⟨Nat.le_succ _, ?_⟩ c
          intro k g hslot
          obtain ⟨conn, hconn, hdata⟩ := Option.bind_eq_some_iff.mp hslot
          obtain ⟨_, rfl⟩ | ⟨_, hwas⟩ := Assoc.lookup_insert_cases hconn
          · cases hdata
          · exact Option.bind_eq_some_iff.mpr ⟨conn, hwas, hdata⟩
      · cases hstep
    · cases hstep
  | cleanup i side =>
    simp only [Network.step] at hstep
    split at hstep
    · split at hstep
      · cases hstep
        rw [cleanup_fst]
        exact keepsData_setTransport keepsData_tearDown c
      · cases hstep
    · cases hstep
  | registerDataChannel a p => exact absurd rfl (hno a p)
  | disconnectPeer a peerId fits =>
    obtain ⟨e, heq⟩ | heq := (s.transports a).disconnectPeer_cases peerId fits
    · simp only [Network.step, heq, Option.some.injEq] at hstep
      exact hstep ▸ .refl _
    · simp only [Network.step, heq, Option.some.injEq] at hstep
      exact hstep ▸ keepsData_setTransport keepsData_tearDown c
  | cancelShutdownToken a =>
    cases hstep
    apply keepsData_setTransport
    exact ⟨Nat.le_refl _, fun _ _ h => h⟩
  | shutdown a =>
    cases hstep
    apply keepsData_setTransport
    refine ⟨Nat.le_refl _, ?_⟩
    intro k g hslot
    cases hslot

end Network

namespace DataNetwork

variable {ι : Type u} {id : ι → PeerId} {session : ι → String} {version : ι → UInt16} {ip : ι → String}
  {listenPort : ι → UInt16} {listener : String → Option ι} {s t : DataNetwork ι} {a b : ι}
  {peerId p : PeerId} {g : Nat}

/-- `opening`: a task that waits to dial has the address of its peer. `slots` and `owns`: the data
channel of an entry is one that was attached for its peer. -/
structure Placed (id : ι → PeerId) (session : ι → String) (version : ι → UInt16) (ip : ι → String)
    (listenPort : ι → UInt16) (s : DataNetwork ι) : Prop where
  isolated : s.network.Isolated id session version
  addressed : s.network.Addressed id ip listenPort
  opening : ∀ task ∈ s.opening, ∃ b, task.2.1 = id b ∧ task.2.2 = listenerAddr ip listenPort b
  dials : ∀ socket ∈ s.dials, socket.Sound id
  fresh : ∀ a peerId generation b, s.AttachedAt a peerId generation b →
    generation < (s.network.transports a).nextGeneration
  slots : ∀ a k generation, (s.network.transports a).dataSlot k = some generation →
    ∃ b, s.AttachedAt a k generation b
  owns : ∀ a k generation peerId b, (s.network.transports a).dataSlot k = some generation →
    s.AttachedAt a peerId generation b → peerId = k

theorem placed_start {network : Network ι} (hs : network.Isolated id session version)
    (haddressed : network.Addressed id ip listenPort)
    (hnone : ∀ a k, (network.transports a).dataSlot k = none) :
    (start network).Placed id session version ip listenPort := by
  refine ⟨hs, haddressed, nofun, nofun, ?_, ?_, ?_⟩
  · rintro a p g b ⟨socket, hmem, _⟩
    cases hmem
  · intro a k g hslot
    cases (hnone a k).symm.trans hslot
  · rintro a k g p b _ ⟨socket, hmem, _⟩
    cases hmem

/-- A step that attaches nothing and gives no entry a data channel. -/
theorem Placed.mono (h : s.Placed id session version ip listenPort)
    (hs : t.network.Isolated id session version) (haddressed : t.network.Addressed id ip listenPort)
    (hopening : ∀ task ∈ t.opening, ∃ b, task.2.1 = id b ∧ task.2.2 = listenerAddr ip listenPort b)
    (hdials : ∀ socket ∈ t.dials, socket.Sound id)
    (hattached : ∀ a p g b, t.AttachedAt a p g b ↔ s.AttachedAt a p g b)
    (hnetwork : ∀ c, (s.network.transports c).KeepsData (t.network.transports c)) :
    t.Placed id session version ip listenPort := by
  refine ⟨hs, haddressed, hopening, hdials, ?_, ?_, ?_⟩
  · intro a p g b hend
    exact Nat.lt_of_lt_of_le (h.fresh a p g b ((hattached a p g b).mp hend)) (hnetwork a).1
  · intro a k g hslot
    obtain ⟨b, hb⟩ := h.slots a k g ((hnetwork a).2 k g hslot)
    exact ⟨b, (hattached a k g b).mpr hb⟩
  · intro a k g p b hslot hend
    exact h.owns a k g p b ((hnetwork a).2 k g hslot) ((hattached a p g b).mp hend)

theorem attachedAt_setDial {j : Nat} {old socket : DataSocket ι} (hj : s.dials[j]? = some old)
    (hattaches : ∀ a p g b, socket.Attaches a p g b ↔ old.Attaches a p g b) (a : ι) (p : PeerId) (g : Nat)
    (b : ι) : (s.setDial j socket).AttachedAt a p g b ↔ s.AttachedAt a p g b := by
  have hcases : socket.Attaches a p g b ↔ old.Attaches a p g b ∨ False := by rw [hattaches, or_false]
  rw [AttachedAt, setDial, Slots.exists_mem_set_iff hj hcases, or_false]
  rfl

theorem Placed.setDial (h : s.Placed id session version ip listenPort) {j : Nat} {old socket : DataSocket ι}
    (hj : s.dials[j]? = some old) (hsound : socket.Sound id)
    (hattaches : ∀ a p g b, socket.Attaches a p g b ↔ old.Attaches a p g b) :
    (s.setDial j socket).Placed id session version ip listenPort := by
  refine h.mono h.isolated h.addressed h.opening ?_ (attachedAt_setDial hj hattaches)
    fun _ => .refl _
  intro x hx
  obtain hmem | rfl := List.mem_or_eq_of_mem_set hx
  · exact h.dials x hmem
  · exact hsound

/-- The address that the spawned task is given is the one that goes into the entry. -/
theorem spawned_addr {n : Network ι} (hs : n.Isolated id session version)
    (haddressed : n.Addressed id ip listenPort) {action : Network.Action ι} (hip : n.SeesIp ip action)
    {task : ι × PeerId × String} (htask : task ∈ n.spawned action) :
    ∃ b, task.2.1 = id b ∧ task.2.2 = listenerAddr ip listenPort b := by
  unfold Network.spawned at htask
  split at htask
  · next i side peerIp now =>
    split at htask
    · next socket hi =>
      split at htask
      · next peerId port hready =>
        split at htask
        · obtain rfl := List.mem_singleton.mp htask
          obtain rfl := (haddressed.sockets i socket hi).ready side peerId port hready
          obtain rfl := hip socket hi
          obtain ⟨rfl, _⟩ := (hs.sockets i socket hi).known side peerId (by rw [hready]; rfl)
          exact ⟨_, rfl, rfl⟩
        · cases htask
      · cases htask
    · cases htask
  · cases htask

variable [DecidableEq ι]

theorem Placed.network (h : s.Placed id session version ip listenPort) {action : Network.Action ι}
    (hno : ∀ a p, action ≠ .registerDataChannel a p) (hip : s.network.SeesIp ip action) {n : Network ι}
    (hstep : s.network.step version action = some n) :
    Placed id session version ip listenPort
      { s with network := n, opening := s.opening ++ s.network.spawned action } := by
  refine h.mono (h.isolated.step hstep) (h.addressed.step h.isolated hip hstep) ?_ h.dials
    (fun _ _ _ _ => Iff.rfl) (Network.step_keepsData hno hstep)
  intro task htask
  obtain hold | hnew := List.mem_append.mp htask
  · exact h.opening task hold
  · exact spawned_addr h.isolated h.addressed hip hnew

/-- Without an entry nothing is attached; otherwise the end is, under a new generation. -/
theorem attachedAt_registerAt (peerId : PeerId) {j : Nat} {old socket : DataSocket ι} {side : Side}
    (hj : s.dials[j]? = some old) (hattaches : ∀ a p g b, socket.Attaches a p g b ↔ old.Attaches a p g b)
    (hnew : ∀ p g phase, socket.ends side ≠ .attached p g phase) (a : ι) (p : PeerId) (g : Nat) (b : ι) :
    (s.registerAt j socket side peerId).AttachedAt a p g b ↔ s.AttachedAt a p g b ∨
      (peerId ∈ (s.network.transports (socket.owner side)).connections ∧ socket.owner side = a ∧
        socket.owner side.other = b ∧ p = peerId ∧
        g = (s.network.transports (socket.owner side)).nextGeneration) := by
  apply Slots.exists_mem_set_iff hj
  rw [DataSocket.attaches_setEnd_iff, ← hattaches]
  constructor
  · rintro (⟨phase, ha, hb, heq⟩ | ⟨side', phase, _, ha, hb, hend⟩)
    · split at heq
      · next hmem =>
        cases heq
        exact .inr ⟨hmem, ha, hb, rfl, rfl⟩
      · cases heq
    · exact .inl ⟨side', phase, ha, hb, hend⟩
  · rintro (⟨side', phase, ha, hb, hend⟩ | ⟨hmem, ha, hb, rfl, rfl⟩)
    · refine .inr ⟨side', phase, ?_, ha, hb, hend⟩
      rintro rfl
      exact hnew p g phase hend
    · exact .inl ⟨.reading, ha, hb, if_pos hmem⟩

theorem Placed.registerAt (h : s.Placed id session version ip listenPort) {j : Nat} {old socket : DataSocket ι}
    {side : Side} (hj : s.dials[j]? = some old) (hsound : socket.Sound id)
    (hattaches : ∀ a p g b, socket.Attaches a p g b ↔ old.Attaches a p g b)
    (hpeer : (socket.ends side).peer = some peerId)
    (hnew : ∀ p g phase, socket.ends side ≠ .attached p g phase) :
    (s.registerAt j socket side peerId).Placed id session version ip listenPort := by
  have hends := attachedAt_registerAt peerId hj hattaches hnew
  have hstep : s.network.step version (.registerDataChannel (socket.owner side) peerId) =
      some (s.registerAt j socket side peerId).network := rfl
  have hip : s.network.SeesIp ip (.registerDataChannel (socket.owner side) peerId) := trivial
  have hsound' : ∀ x ∈ (s.registerAt j socket side peerId).dials, x.Sound id := by
    intro x hx
    obtain hmem | rfl := List.mem_or_eq_of_mem_set hx
    · exact h.dials x hmem
    · apply hsound.setEnd_same
      intro p hp
      split at hp
      · exact hpeer.trans hp
      · cases hp
  by_cases hmem : peerId ∈ (s.network.transports (socket.owner side)).connections
  · have hslot : ∀ c k, ((s.registerAt j socket side peerId).network.transports c).dataSlot k =
        if c = socket.owner side ∧ k = peerId then
          some (s.network.transports (socket.owner side)).nextGeneration
        else (s.network.transports c).dataSlot k := by
      intro c k
      by_cases hc : c = socket.owner side
      · subst hc
        simp [DataNetwork.registerAt, dataSlot_registerDataChannel hmem]
      · simp [DataNetwork.registerAt, Network.transports_setTransport_of_ne _ hc, hc]
    have hnext : ∀ c, (s.network.transports c).nextGeneration +
        (if c = socket.owner side then 1 else 0) =
          ((s.registerAt j socket side peerId).network.transports c).nextGeneration := by
      intro c
      by_cases hc : c = socket.owner side
      · subst hc
        simp [DataNetwork.registerAt, registerDataChannel_nextGeneration]
      · simp [DataNetwork.registerAt, Network.transports_setTransport_of_ne _ hc, hc]
    refine ⟨h.isolated.step hstep, h.addressed.step h.isolated hip hstep, h.opening, hsound', ?_, ?_, ?_⟩
    · intro c p g b hend
      rw [← hnext]
      obtain hold | ⟨_, rfl, _, _, rfl⟩ := (hends c p g b).mp hend
      · have hlt := h.fresh c p g b hold
        omega
      · rw [if_pos rfl]
        omega
    · intro c k g hk
      rw [hslot] at hk
      split at hk
      · next hself =>
        obtain ⟨rfl, rfl⟩ := hself
        cases hk
        exact ⟨_, (hends _ _ _ _).mpr (.inr ⟨hmem, rfl, rfl, rfl, rfl⟩)⟩
      · obtain ⟨b, hb⟩ := h.slots c k g hk
        exact ⟨b, (hends _ _ _ _).mpr (.inl hb)⟩
    · intro c k g p b hk hend
      rw [hslot] at hk
      split at hk
      · next hself =>
        obtain ⟨rfl, rfl⟩ := hself
        cases hk
        obtain hold | ⟨_, _, _, rfl, _⟩ := (hends _ _ _ _).mp hend
        · exact absurd (h.fresh _ p _ b hold) (Nat.lt_irrefl _)
        · rfl
      · obtain hold | ⟨_, rfl, _, _, rfl⟩ := (hends _ _ _ _).mp hend
        · exact h.owns c k g p b hk hold
        · obtain ⟨d, hd⟩ := h.slots _ k _ hk
          exact absurd (h.fresh _ k _ d hd) (Nat.lt_irrefl _)
  · refine h.mono (h.isolated.step hstep) (h.addressed.step h.isolated hip hstep) h.opening hsound' ?_ ?_
    · intro a p g b
      rw [hends]
      simp [hmem]
    · refine Network.keepsData_setTransport ⟨?_, ?_⟩
      · rw [registerDataChannel_nextGeneration]
        exact Nat.le_succ _
      · intro k g hk
        have hlookup : (s.network.transports (socket.owner side)).connections.lookup peerId = none :=
          AList.lookup_eq_none.mpr hmem
        simpa [TransportManager.registerDataChannel, hlookup, dataSlot] using hk

theorem Placed.clearDataChannel (h : s.Placed id session version ip listenPort) {j : Nat}
    {socket : DataSocket ι} {side : Side} {peerId : PeerId} {generation : Nat} {phase : ReadPhase}
    (hj : s.dials[j]? = some socket) (hend : socket.ends side = .attached peerId generation phase) :
    Placed id session version ip listenPort
      { s with
        network := s.network.setTransport (socket.owner side)
          ((s.network.transports (socket.owner side)).clearDataChannel peerId)
        dials := s.dials.set j (socket.setEnd side (.attached peerId generation .finished)) } := by
  have hlookup : ∀ k conn, ((s.network.transports (socket.owner side)).clearDataChannel
      peerId).connections.lookup k = some conn → ∃ old,
        (s.network.transports (socket.owner side)).connections.lookup k = some old ∧
          old.controlCancel = conn.controlCancel ∧ old.info = conn.info := by
    intro k conn hconn
    obtain ⟨old, hold, hcases⟩ := lookup_of_modify hconn
    refine ⟨old, hold, ?_⟩
    obtain ⟨_, rfl⟩ | ⟨_, rfl⟩ := hcases
    · exact ⟨rfl, rfl⟩
    · exact ⟨rfl, rfl⟩
  have hsound : ∀ x ∈ s.dials.set j (socket.setEnd side (.attached peerId generation .finished)),
      x.Sound id := by
    intro x hx
    obtain hmem | rfl := List.mem_or_eq_of_mem_set hx
    · exact h.dials x hmem
    · refine (h.dials socket (List.mem_of_getElem? hj)).setEnd_same ?_
      intro p hp
      rwa [hend]
  refine h.mono ?_ ?_ h.opening hsound (attachedAt_setDial hj ?_)
    (Network.keepsData_setTransport keepsData_clearDataChannel)
  · refine h.isolated.setTransport modify_localPeerId modify_sessionId
      (Nat.le_of_eq modify_nextGeneration.symm) ?_
    intro k conn hconn
    obtain ⟨old, hold, hcontrol, _⟩ := hlookup k conn hconn
    exact ⟨old, hold, hcontrol⟩
  · refine h.addressed.setTransport modify_listenPort ?_
    intro k conn hconn
    obtain ⟨old, hold, _, hinfo⟩ := hlookup k conn hconn
    exact hinfo ▸ h.addressed.addressed _ k old hold
  · intro a p g b
    apply DataSocket.attaches_setEnd_same
    intro p g
    simp [hend]

/-- A registration that happens finds the IP of the node at the other end. -/
def SeesIp (ip : ι → String) (s : DataNetwork ι) : Action ι → Prop
  | .network action => s.network.SeesIp ip action
  | _ => True

instance (ip : ι → String) (s : DataNetwork ι) : (a : Action ι) → Decidable (s.SeesIp ip a)
  | .network action => inferInstanceAs (Decidable (s.network.SeesIp ip action))
  | .openDataChannel _ | .answer _ | .attach _ | .receiveAck _ | .giveUp .. | .leaveLoop .. | .cleanup .. =>
    .isTrue trivial

/-- What is dialled is the address of the peer, and the node that listens there is the peer. -/
theorem Placed.openDataChannel (h : s.Placed id session version ip listenPort)
    (hlistener : ∀ b, listener (listenerAddr ip listenPort b) = some b) {j : Nat}
    (hstep : s.step version listener (.openDataChannel j) = some t) :
    t.Placed id session version ip listenPort := by
  simp only [step] at hstep
  split at hstep
  · next a peerId addr hj =>
    obtain ⟨c, rfl, rfl⟩ := h.opening _ (List.mem_of_getElem? hj)
    have hopening : ∀ task ∈ s.opening.eraseIdx j,
        ∃ b, task.2.1 = id b ∧ task.2.2 = listenerAddr ip listenPort b :=
      fun task htask => h.opening task (List.mem_of_mem_eraseIdx htask)
    split at hstep
    · next b _ hdialled =>
      obtain rfl : c = b := Option.some.inj ((hlistener c).symm.trans hdialled)
      cases hstep
      refine h.mono h.isolated h.addressed hopening ?_ ?_ fun _ => .refl _
      · intro x hx
        obtain hmem | hnew := List.mem_append.mp hx
        · exact h.dials x hmem
        · obtain rfl := List.mem_singleton.mp hnew
          refine ⟨?_, ?_⟩
          · intro side p hp
            cases side <;> cases hp
            rfl
          · intro msg hmsg
            rw [List.mem_singleton.mp hmsg, dataChannelHandshake, (h.isolated.same a).1]
      · intro a' p g b
        constructor
        · rintro ⟨x, hx, hend⟩
          obtain hmem | hnew := List.mem_append.mp hx
          · exact ⟨x, hmem, hend⟩
          · obtain rfl := List.mem_singleton.mp hnew
            obtain ⟨side, phase, _, _, hno⟩ := hend
            cases side <;> cases hno
        · rintro ⟨x, hx, hend⟩
          exact ⟨x, List.mem_append_left _ hx, hend⟩
    · cases hstep
      exact h.mono h.isolated h.addressed hopening h.dials (fun _ _ _ _ => Iff.rfl) fun _ => .refl _
  · cases hstep

theorem Placed.answer (h : s.Placed id session version ip listenPort) {j : Nat}
    (hstep : s.step version listener (.answer j) = some t) : t.Placed id session version ip listenPort := by
  simp only [step] at hstep
  split at hstep
  · next socket hj =>
    have hsound := h.dials socket (List.mem_of_getElem? hj)
    split at hstep
    · next msg rest hidle hwire =>
      obtain rfl := hsound.asked msg (hwire ▸ List.mem_cons_self)
      cases hstep
      refine h.setDial hj ?_ ?_
      · refine DataSocket.Sound.setWire (DataSocket.Sound.setWire (hsound.setEnd ?_) ?_) nofun
        · intro p hp
          simp only [handleIncomingDataChannel] at hp
          cases hknown : (s.network.transports (socket.owner .acceptor)).hasPeer (id (socket.owner .initiator)) with
          | true =>
            simp only [hknown, if_true] at hp
            cases hp
            rfl
          | false =>
            simp only [hknown, Bool.false_eq_true, if_false] at hp
            cases hp
        · intro _ msg hmsg
          exact hwire ▸ List.mem_cons_of_mem _ hmsg
      · intro a p g b
        rw [DataSocket.attaches_setWire, DataSocket.attaches_setWire]
        refine DataSocket.attaches_setEnd_same ?_
        intro p g
        rw [hidle]
        split <;> simp
    · cases hstep
  · cases hstep

theorem Placed.attach (h : s.Placed id session version ip listenPort) {j : Nat}
    (hstep : s.step version listener (.attach j) = some t) : t.Placed id session version ip listenPort := by
  simp only [step] at hstep
  split at hstep
  · next socket hj =>
    split at hstep
    · next peerId haccepted =>
      cases hstep
      exact h.registerAt hj (h.dials socket (List.mem_of_getElem? hj)) (fun _ _ _ _ => Iff.rfl)
        (by simp [haccepted, DataEnd.peer]) (by simp [haccepted])
    · cases hstep
  · cases hstep

theorem Placed.receiveAck (h : s.Placed id session version ip listenPort) {j : Nat}
    (hstep : s.step version listener (.receiveAck j) = some t) : t.Placed id session version ip listenPort := by
  simp only [step] at hstep
  split at hstep
  · next socket hj =>
    have hsound := h.dials socket (List.mem_of_getElem? hj)
    split at hstep
    · next peerId msg rest hawaiting hwire =>
      split at hstep
      · cases hstep
        exact h.registerAt hj (hsound.setWire nofun) (fun _ _ _ _ => Iff.rfl)
          (by simp [DataSocket.setWire, hawaiting, DataEnd.peer])
          (by simp [DataSocket.setWire, hawaiting])
      · cases hstep
        refine h.setDial hj (hsound.setEnd_same nofun) ?_
        intro a p g b
        exact DataSocket.attaches_setEnd_same (by simp [hawaiting])
    · cases hstep
  · cases hstep

theorem Placed.cleanupAt (h : s.Placed id session version ip listenPort) {j : Nat} {socket : DataSocket ι}
    {side : Side} (hj : s.dials[j]? = some socket) (hstep : s.cleanupAt j socket side = some t) :
    t.Placed id session version ip listenPort := by
  simp only [DataNetwork.cleanupAt] at hstep
  split at hstep
  · next peerId generation hend =>
    cases hstep
    refine h.setDial hj ?_ ?_
    · refine (h.dials socket (List.mem_of_getElem? hj)).setEnd_same ?_
      intro p hp
      rwa [hend]
    · intro a p g b
      exact DataSocket.attaches_setEnd_same (by simp [hend])
  · next peerId generation hend =>
    cases hstep
    exact h.clearDataChannel hj hend
  · cases hstep

theorem Placed.step (h : s.Placed id session version ip listenPort)
    (hlistener : ∀ b, listener (listenerAddr ip listenPort b) = some b) {action : Action ι}
    (hip : s.SeesIp ip action) (hstep : s.step version listener action = some t) :
    t.Placed id session version ip listenPort := by
  cases action with
  | network action =>
    have hno : ∀ a p, action ≠ .registerDataChannel a p := by
      rintro a p rfl
      cases hstep
    have hmap : (s.network.step version action).map (fun network =>
        { s with network, opening := s.opening ++ s.network.spawned action }) = some t := by
      cases action <;> first | exact hstep | exact absurd rfl (hno _ _)
    obtain ⟨n, hn, rfl⟩ := Option.map_eq_some_iff.mp hmap
    exact h.network hno hip hn
  | openDataChannel j => exact h.openDataChannel hlistener hstep
  | answer j => exact h.answer hstep
  | attach j => exact h.attach hstep
  | receiveAck j => exact h.receiveAck hstep
  | giveUp j side =>
    simp only [DataNetwork.step] at hstep
    split at hstep
    · next socket hj =>
      have hgiven : ∀ e : DataEnd, socket.ends side = e → (∀ p g phase, e ≠ .attached p g phase) →
          (s.setDial j (socket.setEnd side .closed)).Placed id session version ip listenPort := by
        intro e he hne
        refine h.setDial hj ((h.dials socket (List.mem_of_getElem? hj)).setEnd_same nofun) ?_
        intro a p g b
        refine DataSocket.attaches_setEnd_same ?_
        intro p g
        simp [he, hne]
      split at hstep <;> cases hstep
      · next hend => exact hgiven _ hend nofun
      · next hend => exact hgiven _ hend nofun
      · next hend => exact hgiven _ hend nofun
    · cases hstep
  | leaveLoop j side =>
    simp only [DataNetwork.step] at hstep
    split at hstep
    · next socket hj =>
      split at hstep
      · next peerId generation hend =>
        cases hstep
        refine h.setDial hj ?_ ?_
        · refine (h.dials socket (List.mem_of_getElem? hj)).setEnd_same ?_
          intro p hp
          rwa [hend]
        · intro a p g b
          exact DataSocket.attaches_setEnd_same (by simp [hend])
      · cases hstep
    · cases hstep
  | cleanup j side =>
    simp only [DataNetwork.step] at hstep
    split at hstep
    · next socket hj => exact h.cleanupAt hj hstep
    · cases hstep

/-- The channels of an entry lead to one node, which has the id of the entry and is of the same
session and build; so do the data channels that a later one has replaced. -/
theorem channels_lead_to_peer (version : ι → UInt16) (id : ι → PeerId) (session : ι → String)
    (ip : ι → String) (listenPort : ι → UInt16) (autoReconnect : ι → Bool) (listener : String → Option ι)
    (acts : List (Action ι)) {k : PeerId} {conn : PeerConnection} (hids : Function.Injective id)
    (hlistener : ∀ b, listener (listenerAddr ip listenPort b) = some b)
    (hip : Along (step version listener) (SeesIp ip)
      (start (Network.start id session listenPort autoReconnect)) acts)
    (hrun : run (step version listener) (start (Network.start id session listenPort autoReconnect)) acts =
      some s)
    (hentry : (s.network.transports a).connections.lookup k = some conn) :
    ∃ b, k = id b ∧ Socket.SameRoom session version a b ∧ s.network.EndAt a k conn.controlCancel b ∧
      (∀ g ∈ conn.dataCancel, s.AttachedAt a k g b ∧ ∀ p c, s.AttachedAt a p g c → p = k ∧ c = b) ∧
      ∀ g c, s.AttachedAt a k g c → c = b := by
  have h : s.Placed id session version ip listenPort :=
    invariant (fun s action t hs hip hstep => hs.step hlistener hip hstep)
      (placed_start Network.isolated_start Network.addressed_start fun _ _ => rfl) hip hrun
  have hknown : ∀ p g c, s.AttachedAt a p g c → p = id c := by
    rintro p g c ⟨socket, hmem, side, phase, rfl, rfl, hend⟩
    exact (h.dials socket hmem).known side p (by rw [hend]; rfl)
  obtain ⟨b, hend⟩ := h.isolated.entries a k conn hentry
  have hpeer : k = id b ∧ Socket.SameRoom session version a b := by
    obtain ⟨i, side, socket, hi, rfl, rfl, hregistered⟩ := hend
    exact (h.isolated.sockets i socket hi).known side k (by rw [hregistered]; rfl)
  obtain ⟨hk, hroom⟩ := hpeer
  refine ⟨b, hk, hroom, hend, ?_, ?_⟩
  · intro g hg
    have hslot : (s.network.transports a).dataSlot k = some g := by
      rw [dataSlot, hentry]
      exact hg
    have hsame : ∀ p c, s.AttachedAt a p g c → p = k ∧ c = b := by
      intro p c hattached
      obtain rfl := h.owns a k g p c hslot hattached
      exact ⟨rfl, hids ((hknown _ _ _ hattached).symm.trans hk)⟩
    obtain ⟨c, hattached⟩ := h.slots a k g hslot
    obtain ⟨_, rfl⟩ := hsame k c hattached
    exact ⟨hattached, hsame⟩
  · intro g c hattached
    exact hids ((hknown _ _ _ hattached).symm.trans hk)

/-- What the listeners of the two nodes of `pairIds` are found at. -/
def pairListener (addr : String) : Option Bool :=
  if addr = "10.0.0.1:4000" then some true else if addr = "10.0.0.2:4000" then some false else none

def pairRun : List (Action Bool) :=
  [.network (.connect true false), .network (.socket 0 .processHandshake),
    .network (.register 0 .acceptor "10.0.0.1" 0), .network (.socket 0 .receiveHandshakeAck),
    .network (.register 0 .initiator "10.0.0.2" 0), .openDataChannel 0, .answer 0, .attach 0, .receiveAck 0]

/-- Two nodes over both channels. -/
theorem linked_pair_channels :
    ∃ s conn b g, run (step (fun _ => 1) pairListener)
        (start (Network.start Network.pairIds (fun _ => "room") (fun _ => 4000) fun _ => true)) pairRun =
        some s ∧
      (s.network.transports true).connections.lookup ⟨"b"⟩ = some conn ∧ conn.dataCancel = some g ∧
      ⟨"b"⟩ = Network.pairIds b ∧ s.network.EndAt true ⟨"b"⟩ conn.controlCancel b ∧
      s.AttachedAt true ⟨"b"⟩ g b := by
  have hsome : (((run (step (fun _ => 1) pairListener)
      (start (Network.start Network.pairIds (fun _ => "room") (fun _ => 4000) fun _ => true)) pairRun).bind
      fun s => (s.network.transports true).connections.lookup ⟨"b"⟩).bind
      fun conn => conn.dataCancel).isSome = true := by decide +kernel
  have hids : ∀ a b, Network.pairIds a = Network.pairIds b → a = b := by decide
  obtain ⟨g, hg⟩ := Option.isSome_iff_exists.mp hsome
  obtain ⟨conn, hconn, hdata⟩ := Option.bind_eq_some_iff.mp hg
  obtain ⟨s, hrun, hlookup⟩ := Option.bind_eq_some_iff.mp hconn
  obtain ⟨b, hk, _, hend, hdatas, _⟩ := channels_lead_to_peer _ _ _ Network.pairIps _ _ _ _
    (fun a b h => hids a b h) (by decide) (by decide +kernel) hrun hlookup
  exact ⟨s, conn, b, g, hrun, hlookup, hdata, hk, hend, (hdatas g hdata).1⟩

end DataNetwork

end MetaMystia

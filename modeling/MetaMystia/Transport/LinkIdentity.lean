import MetaMystia.Library.Slots
import MetaMystia.Transport.SimultaneousConnect

/-! # Who is at the other end of a link

Any number of nodes, of any sessions and builds, open sockets to each other's
listeners. The initiator never sees the acceptor's session: it relies on the ack,
which the acceptor sends without an error only after its own checks.
-/

namespace MetaMystia

open Runs TransportManager

universe u

inductive Side
  | initiator
  | acceptor
deriving DecidableEq

def Side.other : Side → Side
  | .initiator => .acceptor
  | .acceptor => .initiator

/-- `wire side` holds the messages on their way to that side. -/
structure Socket (ι : Type u) where
  owner : Side → ι
  ends : Side → SocketEnd
  wire : Side → List InternalMessage
  broken : Bool

structure Network (ι : Type u) where
  transports : ι → TransportManager
  sockets : List (Socket ι)

/-- The peer a handshake has found at the other side. -/
def SocketEnd.peer : SocketEnd → Option PeerId
  | .ready peerId _ => some peerId
  | .registered peerId _ => some peerId
  | _ => none

inductive SocketAction
  | processHandshake
  | receiveHandshakeAck
  | giveUp (side : Side)
  | drop (side : Side)
  | send (side : Side) (msg : InternalMessage)
  | read (side : Side)
  | breakSocket

namespace Socket

variable {ι : Type u}

def setEnd (s : Socket ι) (side : Side) (e : SocketEnd) : Socket ι :=
  { s with ends := Function.update s.ends side e }

def setWire (s : Socket ι) (side : Side) (msgs : List InternalMessage) : Socket ι :=
  { s with wire := Function.update s.wire side msgs }

/-- The steps of the two handshake tasks and of the tasks of a registered end that leave the
connection maps alone. A handshake may be given up at any of its awaits; nothing arrives over a
broken socket. -/
def step (version : ι → UInt16) (transports : ι → TransportManager) (s : Socket ι) :
    SocketAction → Option (Socket ι)
  | .processHandshake =>
    match s.broken, s.ends .acceptor, s.wire .acceptor with
    | false, .idle, msg :: rest =>
      let (acks, result) := (transports (s.owner .acceptor)).processHandshakeMessageAt
        (version (s.owner .acceptor)) msg
      some (((s.setEnd .acceptor (Duplex.afterHandshake result)).setWire .acceptor rest).setWire
        .initiator (s.wire .initiator ++ acks))
    | _, _, _ => none
  | .receiveHandshakeAck =>
    match s.broken, s.ends .initiator, s.wire .initiator with
    | false, .awaiting, msg :: rest =>
      some ((s.setEnd .initiator (Duplex.afterHandshake (TransportManager.receiveHandshakeAck msg))).setWire
        .initiator rest)
    | _, _, _ => none
  | .giveUp side =>
    match s.ends side with
    | .idle | .awaiting | .ready _ _ => some (s.setEnd side .dropping)
    | _ => none
  | .drop side =>
    match s.ends side with
    | .dropping => some (s.setEnd side .dropped)
    | _ => none
  | .send side msg =>
    match (s.ends side).peer with
    | some _ => some (if s.broken then s else s.setWire side.other (s.wire side.other ++ [msg]))
    | none => none
  | .read side =>
    match s.broken, s.ends side, s.wire side with
    | false, .registered _ _, _ :: rest => some (s.setWire side rest)
    | _, _, _ => none
  | .breakSocket => some { s with broken := true }

end Socket

namespace Network

variable {ι : Type u} [DecidableEq ι]

inductive Action (ι : Type u)
  | connect (a b : ι)
  | socket (i : Nat) (action : SocketAction)
  | register (i : Nat) (side : Side) (peerIp : String) (now : Nat)
  | cleanup (i : Nat) (side : Side)
  | registerDataChannel (a : ι) (peerId : PeerId)
  | disconnectPeer (a : ι) (peerId : PeerId) (fits : Bool)
  | cancelShutdownToken (a : ι)
  | shutdown (a : ι)

def start (id : ι → PeerId) (session : ι → String) (listenPort : ι → UInt16)
    (autoReconnect : ι → Bool) : Network ι where
  transports a := .new (id a) (session a) (listenPort a) (autoReconnect a)
  sockets := []

def setTransport (s : Network ι) (a : ι) (transport : TransportManager) : Network ι :=
  { s with transports := Function.update s.transports a transport }

def setSocket (s : Network ι) (i : Nat) (socket : Socket ι) : Network ι :=
  { s with sockets := s.sockets.set i socket }

/-- `connect` stands for every `connect_to` that reaches the listener of `b` and sends its
handshake, whoever called it. -/
def step (version : ι → UInt16) (s : Network ι) : Action ι → Option (Network ι)
  | .connect a b =>
    some { s with
      sockets := s.sockets ++
        [{ owner := fun
             | .initiator => a
             | .acceptor => b
           ends := fun
             | .initiator => .awaiting
             | .acceptor => .idle
           wire := fun
             | .initiator => []
             | .acceptor => [(s.transports a).handshakeAt (version a)]
           broken := false }] }
  | .socket i action =>
    match s.sockets[i]? with
    | some socket => (socket.step version s.transports action).map (s.setSocket i)
    | none => none
  | .register i side peerIp now =>
    match s.sockets[i]? with
    | some socket =>
      match socket.ends side with
      | .ready peerId listenPort =>
        match (s.transports (socket.owner side)).registerConnection peerId
            (peerIp ++ ":" ++ toString listenPort) now with
        | .ok transport =>
          some ((s.setTransport (socket.owner side) transport).setSocket i
            (socket.setEnd side
              (.registered peerId (s.transports (socket.owner side)).nextGeneration)))
        | .error _ => some (s.setSocket i (socket.setEnd side .dropping))
      | _ => none
    | none => none
  | .cleanup i side =>
    match s.sockets[i]? with
    | some socket =>
      match socket.ends side with
      | .registered peerId _ =>
        some ((s.setTransport (socket.owner side)
          ((s.transports (socket.owner side)).cleanup peerId).1).setSocket i
          (socket.setEnd side .dropped))
      | _ => none
    | none => none
  | .registerDataChannel a peerId =>
    some (s.setTransport a ((s.transports a).registerDataChannel peerId))
  | .disconnectPeer a peerId fits =>
    match (s.transports a).disconnectPeer peerId fits with
    | .ok transport => some (s.setTransport a transport)
    | .error _ => some s
  | .cancelShutdownToken a =>
    some (s.setTransport a { s.transports a with shutdownCancelled := true })
  | .shutdown a => some (s.setTransport a (s.transports a).shutdown)

/-- An end of node `a` is registered under this peer id and generation; `b` has the other end. -/
def EndAt (s : Network ι) (a : ι) (peerId : PeerId) (generation : Nat) (b : ι) : Prop :=
  ∃ (i : Nat) (side : Side) (socket : Socket ι), s.sockets[i]? = some socket ∧
    socket.owner side = a ∧ socket.owner side.other = b ∧
    socket.ends side = .registered peerId generation

end Network

namespace Socket

variable {ι : Type u} {id : ι → PeerId} {session : ι → String} {version : ι → UInt16}
  {transports : ι → TransportManager} {s t : Socket ι}

def SameNodes (id : ι → PeerId) (session : ι → String) (transports : ι → TransportManager) : Prop :=
  ∀ a, (transports a).localPeerId = id a ∧ (transports a).sessionId = session a

def SameRoom (session : ι → String) (version : ι → UInt16) (a b : ι) : Prop :=
  session a = session b ∧ version a = version b

/-- `known`: a side that has found a peer has found the owner of the other side. `asked`: an
acceptor that has not answered is waiting for the initiator's handshake. `answered`: the first
message of an acceptor is its ack. -/
structure Sound (id : ι → PeerId) (session : ι → String) (version : ι → UInt16) (s : Socket ι) :
    Prop where
  known : ∀ side peerId, (s.ends side).peer = some peerId →
    peerId = id (s.owner side.other) ∧
    SameRoom session version (s.owner side) (s.owner side.other)
  asked : s.ends .acceptor = .idle → s.wire .initiator = [] ∧ (s.ends .initiator).peer = none ∧
    ∀ msg ∈ s.wire .acceptor, ∃ port, msg = .handshake (id (s.owner .initiator)) port
      (version (s.owner .initiator)) (session (s.owner .initiator))
  answered : s.ends .initiator = .awaiting →
    ((s.ends .acceptor).peer ≠ none → s.wire .initiator ≠ []) ∧
    ∀ msg ∈ (s.wire .initiator).head?, ∀ peerId port notify,
      TransportManager.receiveHandshakeAck msg = .ok (peerId, port, notify) →
        peerId = id (s.owner .acceptor) ∧
        SameRoom session version (s.owner .initiator) (s.owner .acceptor)

theorem peer_afterHandshake {result : Except NetworkError (PeerId × UInt16 × InternalMessage)}
    {peerId : PeerId} (h : (Duplex.afterHandshake result).peer = some peerId) :
    ∃ port notify, result = .ok (peerId, port, notify) := by
  cases result with
  | error e => cases h
  | ok value =>
    obtain ⟨p, port, notify⟩ := value
    cases h
    exact ⟨port, notify, rfl⟩

theorem Sound.processHandshake (hs : Sound id session version s)
    (hsame : SameNodes id session transports) (h : s.step version transports .processHandshake = some t) :
    Sound id session version t := by
  simp only [step] at h
  split at h
  · next msg rest _ hidle hwire =>
    obtain ⟨hback, hinit, hforth⟩ := hs.asked hidle
    obtain ⟨port, rfl⟩ := hforth msg (hwire ▸ List.mem_cons_self)
    obtain ⟨ack, more, result, heq, hvouches, hresult⟩ :=
      processHandshakeMessageAt_handshake (transports (s.owner .acceptor))
        (version (s.owner .acceptor)) (id (s.owner .initiator)) port (version (s.owner .initiator))
        (session (s.owner .initiator))
    obtain ⟨hid, hsession⟩ := hsame (s.owner .acceptor)
    simp only [heq, hback, Option.some.injEq] at h
    subst h
    constructor
    · intro side peerId hpeer
      cases side with
      | initiator => exact hs.known .initiator peerId (by simpa [setEnd, setWire] using hpeer)
      | acceptor =>
        obtain ⟨_, _, hok⟩ := peer_afterHandshake (by simpa [setEnd, setWire] using hpeer)
        obtain ⟨hp, hversion, hroom⟩ := hresult _ _ _ hok
        exact ⟨hp, (hroom.trans hsession).symm, hversion.symm⟩
    · intro hidle
      have hno : Duplex.afterHandshake result = .idle := by simpa [setEnd, setWire] using hidle
      cases result <;> cases hno
    · intro _
      refine ⟨by simp [setEnd, setWire], ?_⟩
      intro msg hmsg p port notify hok
      obtain rfl : ack = msg := by simpa [setEnd, setWire] using hmsg
      obtain ⟨hp, hversion, hroom⟩ := hvouches p port notify hok
      exact ⟨hp.trans hid, hroom.trans hsession, hversion⟩
  · cases h

theorem Sound.receiveHandshakeAck (hs : Sound id session version s)
    (h : s.step version transports .receiveHandshakeAck = some t) : Sound id session version t := by
  simp only [step] at h
  split at h
  · next msg rest _ hawaiting hwire =>
    obtain ⟨_, hack⟩ := hs.answered hawaiting
    cases h
    constructor
    · intro side peerId hpeer
      cases side with
      | initiator =>
        obtain ⟨port, notify, hok⟩ := peer_afterHandshake (by simpa [setEnd, setWire] using hpeer)
        exact hack msg (by simp [hwire]) peerId port notify hok
      | acceptor => exact hs.known .acceptor peerId (by simpa [setEnd, setWire] using hpeer)
    · intro hidle
      have hno := (hs.asked (by simpa [setEnd, setWire] using hidle)).1
      rw [hwire] at hno
      cases hno
    · intro hno
      have hno : Duplex.afterHandshake (TransportManager.receiveHandshakeAck msg) = .awaiting := by
        simpa [setEnd, setWire] using hno
      cases hresult : TransportManager.receiveHandshakeAck msg <;> rw [hresult] at hno <;> cases hno
  · cases h

theorem Sound.setEnd (hs : Sound id session version s) {side : Side} {e : SocketEnd}
    (hbusy : e ≠ .idle ∧ e ≠ .awaiting)
    (hpeer : ∀ peerId, e.peer = some peerId → (s.ends side).peer = some peerId) :
    Sound id session version (s.setEnd side e) := by
  have hends : ∀ side' peerId, ((s.setEnd side e).ends side').peer = some peerId →
      (s.ends side').peer = some peerId := by
    intro side' peerId h
    by_cases hside : side' = side
    · subst hside
      exact hpeer peerId (by simpa [Socket.setEnd] using h)
    · simpa [Socket.setEnd, Function.update_of_ne hside] using h
  constructor
  · intro side' peerId h
    exact hs.known side' peerId (hends side' peerId h)
  · intro hidle
    cases side with
    | acceptor => exact absurd (by simpa [Socket.setEnd] using hidle) hbusy.1
    | initiator =>
      obtain ⟨hback, hinit, hforth⟩ := hs.asked (by simpa [Socket.setEnd] using hidle)
      refine ⟨hback, ?_, hforth⟩
      apply Option.eq_none_iff_forall_ne_some.mpr
      intro peerId h
      rw [hends .initiator peerId h] at hinit
      cases hinit
  · intro hawaiting
    cases side with
    | initiator => exact absurd (by simpa [Socket.setEnd] using hawaiting) hbusy.2
    | acceptor =>
      obtain ⟨hwire, hack⟩ := hs.answered (by simpa [Socket.setEnd] using hawaiting)
      refine ⟨?_, hack⟩
      intro hsome
      obtain ⟨peerId, hpeer⟩ := Option.ne_none_iff_exists'.mp hsome
      exact hwire (by simp [hends .acceptor peerId hpeer])

theorem busy_of_peer {side : Side} (h : (s.ends side).peer ≠ none) :
    s.ends side ≠ .idle ∧ s.ends side ≠ .awaiting := by
  constructor
  · intro hidle
    exact h (by rw [hidle]; rfl)
  · intro hawaiting
    exact h (by rw [hawaiting]; rfl)

/-- Once an end knows its peer, the acceptor has had the handshake. -/
theorem Sound.acceptor_busy (hs : Sound id session version s) {side : Side}
    (hpeer : (s.ends side).peer ≠ none) : s.ends .acceptor ≠ .idle := by
  intro hidle
  obtain ⟨_, hinit, _⟩ := hs.asked hidle
  cases side with
  | initiator => exact absurd hinit hpeer
  | acceptor => exact absurd hidle (busy_of_peer hpeer).1

theorem Sound.send (hs : Sound id session version s) {side : Side} (hpeer : (s.ends side).peer ≠ none)
    (msg : InternalMessage) :
    Sound id session version (s.setWire side.other (s.wire side.other ++ [msg])) := by
  refine ⟨hs.known, fun hidle => absurd hidle (hs.acceptor_busy hpeer), ?_⟩
  · intro hawaiting
    cases side with
    | initiator => exact absurd hawaiting (busy_of_peer hpeer).2
    | acceptor =>
      obtain ⟨hwire, hack⟩ := hs.answered hawaiting
      obtain ⟨first, rest, hfirst⟩ := List.exists_cons_of_ne_nil (hwire hpeer)
      refine ⟨by simp [setWire, Side.other], ?_⟩
      intro msg hmsg
      exact hack msg (by simpa [setWire, Side.other, hfirst] using hmsg)

theorem Sound.read (hs : Sound id session version s) {side : Side} (hpeer : (s.ends side).peer ≠ none)
    (rest : List InternalMessage) : Sound id session version (s.setWire side rest) := by
  refine ⟨hs.known, fun hidle => absurd hidle (hs.acceptor_busy hpeer), ?_⟩
  · intro hawaiting
    cases side with
    | initiator => exact absurd hawaiting (busy_of_peer hpeer).2
    | acceptor => simpa [setWire] using hs.answered hawaiting

theorem Sound.step (hs : Sound id session version s) (hsame : SameNodes id session transports)
    {action : SocketAction} (h : s.step version transports action = some t) :
    Sound id session version t := by
  cases action with
  | processHandshake => exact hs.processHandshake hsame h
  | receiveHandshakeAck => exact hs.receiveHandshakeAck h
  | giveUp side =>
    simp only [Socket.step] at h
    split at h <;> cases h <;> exact hs.setEnd ⟨nofun, nofun⟩ nofun
  | drop side =>
    simp only [Socket.step] at h
    split at h <;> cases h
    exact hs.setEnd ⟨nofun, nofun⟩ nofun
  | send side msg =>
    simp only [Socket.step] at h
    split at h
    · next peerId hpeer =>
      cases h
      split
      · exact hs
      · exact hs.send (by simp [hpeer]) msg
    · cases h
  | read side =>
    simp only [Socket.step] at h
    split at h
    · next hend hwire =>
      cases h
      exact hs.read (by simp [hend, SocketEnd.peer]) _
    · cases h
  | breakSocket =>
    cases h
    exact ⟨hs.known, hs.asked, hs.answered⟩

theorem ends_setEnd_cases {side side' : Side} {e f : SocketEnd} (h : (s.setEnd side e).ends side' = f) :
    (side' = side ∧ e = f) ∨ (side' ≠ side ∧ s.ends side' = f) := by
  by_cases hside : side' = side
  · subst hside
    exact .inl ⟨rfl, by simpa [Socket.setEnd] using h⟩
  · exact .inr ⟨hside, by simpa [Socket.setEnd, Function.update_of_ne hside] using h⟩

theorem registered_setEnd {side side' : Side} (hold : ∀ p g, s.ends side ≠ .registered p g)
    {peerId : PeerId} {generation : Nat} (e : SocketEnd)
    (h : s.ends side' = .registered peerId generation) :
    (s.setEnd side e).ends side' = .registered peerId generation := by
  have hside : side' ≠ side := by
    rintro rfl
    exact hold peerId generation h
  simpa [Socket.setEnd, Function.update_of_ne hside] using h

theorem registered_setEnd_iff {side side' : Side} {e : SocketEnd}
    (hold : ∀ p g, s.ends side ≠ .registered p g) (he : ∀ p g, e ≠ .registered p g)
    {peerId : PeerId} {generation : Nat} :
    (s.setEnd side e).ends side' = .registered peerId generation ↔
      s.ends side' = .registered peerId generation := by
  constructor
  · intro h
    obtain ⟨_, hno⟩ | ⟨_, hwas⟩ := ends_setEnd_cases h
    · exact absurd hno (he peerId generation)
    · exact hwas
  · exact registered_setEnd hold e

theorem afterHandshake_ne_registered
    (result : Except NetworkError (PeerId × UInt16 × InternalMessage)) (p : PeerId) (g : Nat) :
    Duplex.afterHandshake result ≠ .registered p g := by
  unfold Duplex.afterHandshake
  split <;> nofun

/-- These steps register no end and take none down. -/
theorem step_registered {action : SocketAction} (h : s.step version transports action = some t) :
    t.owner = s.owner ∧ ∀ side peerId generation,
      t.ends side = .registered peerId generation ↔ s.ends side = .registered peerId generation := by
  cases action with
  | processHandshake =>
    simp only [step] at h
    split at h
    · next hidle _ =>
      cases h
      refine ⟨rfl, fun _ _ _ => registered_setEnd_iff ?_ (afterHandshake_ne_registered _)⟩
      simp [hidle]
    · cases h
  | receiveHandshakeAck =>
    simp only [step] at h
    split at h
    · next hawaiting _ =>
      cases h
      refine ⟨rfl, fun _ _ _ => registered_setEnd_iff ?_ (afterHandshake_ne_registered _)⟩
      simp [hawaiting]
    · cases h
  | giveUp side =>
    simp only [step] at h
    split at h
    · next hend =>
      cases h
      exact ⟨rfl, fun _ _ _ => registered_setEnd_iff (by simp [hend]) (by simp)⟩
    · next hend =>
      cases h
      exact ⟨rfl, fun _ _ _ => registered_setEnd_iff (by simp [hend]) (by simp)⟩
    · next hend =>
      cases h
      exact ⟨rfl, fun _ _ _ => registered_setEnd_iff (by simp [hend]) (by simp)⟩
    · cases h
  | drop side =>
    simp only [step] at h
    split at h
    · next hend =>
      cases h
      exact ⟨rfl, fun _ _ _ => registered_setEnd_iff (by simp [hend]) (by simp)⟩
    · cases h
  | send side msg =>
    simp only [step] at h
    split at h
    · cases h
      split <;> exact ⟨rfl, fun _ _ _ => Iff.rfl⟩
    · cases h
  | read side =>
    simp only [step] at h
    split at h
    · cases h
      exact ⟨rfl, fun _ _ _ => Iff.rfl⟩
    · cases h
  | breakSocket =>
    cases h
    exact ⟨rfl, fun _ _ _ => Iff.rfl⟩

end Socket

namespace Network

variable {ι : Type u} {id : ι → PeerId} {session : ι → String}
  {version : ι → UInt16} {s t : Network ι} {a b : ι} {peerId : PeerId} {generation : Nat}

@[simp] theorem transports_setSocket (s : Network ι) (i : Nat) (socket : Socket ι) :
    (s.setSocket i socket).transports = s.transports := rfl

theorem EndAt.of_setSocket {i : Nat} {socket : Socket ι}
    (h : (s.setSocket i socket).EndAt a peerId generation b) :
    s.EndAt a peerId generation b ∨ ∃ side, socket.owner side = a ∧ socket.owner side.other = b ∧
      socket.ends side = .registered peerId generation := by
  obtain ⟨j, side, other, hj, hend⟩ := h
  rw [setSocket, List.getElem?_set] at hj
  split at hj
  · split at hj
    · cases hj
      exact .inr ⟨side, hend⟩
    · cases hj
  · exact .inl ⟨j, side, other, hj, hend⟩

theorem EndAt.setSocket {i : Nat} {old : Socket ι} (hi : s.sockets[i]? = some old)
    (h : s.EndAt a peerId generation b) (socket : Socket ι) :
    (s.setSocket i socket).EndAt a peerId generation b ∨
      ∃ side, old.owner side = a ∧ old.owner side.other = b ∧
        old.ends side = .registered peerId generation := by
  obtain ⟨j, side, other, hj, hend⟩ := h
  by_cases hij : i = j
  · subst hij
    obtain rfl : old = other := Option.some.inj (hi.symm.trans hj)
    exact .inr ⟨side, hend⟩
  · exact .inl ⟨j, side, other, by rwa [Network.setSocket, List.getElem?_set_ne hij], hend⟩

theorem EndAt.of_written {i : Nat} {old socket : Socket ι} {side : Side}
    (hi : s.sockets[i]? = some old) (hend : socket.ends side = .registered peerId generation) :
    (s.setSocket i socket).EndAt (socket.owner side) peerId generation (socket.owner side.other) := by
  have hlength : i < s.sockets.length := (List.getElem?_eq_some_iff.mp hi).1
  exact ⟨i, side, socket, by simp [Network.setSocket, hlength], rfl, rfl, hend⟩

/-- The entries of a node are over registered ends, and a generation has one peer. -/
structure Isolated (id : ι → PeerId) (session : ι → String) (version : ι → UInt16) (s : Network ι) :
    Prop where
  same : Socket.SameNodes id session s.transports
  sockets : ∀ (i : Nat) (socket : Socket ι), s.sockets[i]? = some socket →
    socket.Sound id session version
  fresh : ∀ a peerId generation b, s.EndAt a peerId generation b →
    generation < (s.transports a).nextGeneration
  entries : ∀ a k conn, (s.transports a).connections.lookup k = some conn →
    ∃ b, s.EndAt a k conn.controlCancel b
  owns : ∀ a k conn peerId b, (s.transports a).connections.lookup k = some conn →
    s.EndAt a peerId conn.controlCancel b → peerId = k

theorem isolated_start {listenPort : ι → UInt16} {autoReconnect : ι → Bool} :
    Isolated id session version (start id session listenPort autoReconnect) := by
  constructor
  · exact fun a => ⟨rfl, rfl⟩
  · exact fun i socket h => nomatch h
  · rintro a peerId generation b ⟨i, side, socket, h, _⟩
    cases h
  · intro a k conn h
    cases h
  · intro a k conn peerId b h
    cases h

/-- Nothing is registered: entries and registered ends only go away. -/
theorem Isolated.mono (hs : Isolated id session version s)
    (hsame : Socket.SameNodes id session t.transports)
    (hsockets : ∀ (i : Nat) (socket : Socket ι), t.sockets[i]? = some socket →
      socket.Sound id session version)
    (hends : ∀ a peerId generation b, t.EndAt a peerId generation b → s.EndAt a peerId generation b)
    (hnext : ∀ a, (s.transports a).nextGeneration ≤ (t.transports a).nextGeneration)
    (hentries : ∀ a k conn, (t.transports a).connections.lookup k = some conn →
      (∃ old, (s.transports a).connections.lookup k = some old ∧
        old.controlCancel = conn.controlCancel) ∧
      ∀ generation b, s.EndAt a k generation b → t.EndAt a k generation b) :
    Isolated id session version t := by
  refine ⟨hsame, hsockets, ?_, ?_, ?_⟩
  · intro a peerId generation b h
    exact Nat.lt_of_lt_of_le (hs.fresh a peerId generation b (hends a peerId generation b h)) (hnext a)
  · intro a k conn h
    obtain ⟨⟨old, hold, hgeneration⟩, hkept⟩ := hentries a k conn h
    obtain ⟨b, hb⟩ := hs.entries a k old hold
    exact ⟨b, hkept _ b (hgeneration ▸ hb)⟩
  · intro a k conn peerId b h hend
    obtain ⟨⟨old, hold, hgeneration⟩, _⟩ := hentries a k conn h
    exact hs.owns a k old peerId b hold (hgeneration ▸ hends a peerId _ b hend)

theorem Isolated.setSocket (hs : Isolated id session version s) {i : Nat} {old socket : Socket ι}
    (hi : s.sockets[i]? = some old) (hsound : socket.Sound id session version)
    (howner : socket.owner = old.owner)
    (hends : ∀ side peerId generation, socket.ends side = .registered peerId generation ↔
      old.ends side = .registered peerId generation) :
    Isolated id session version (s.setSocket i socket) := by
  apply hs.mono
  · exact hs.same
  · exact Slots.forall_set hsound fun j other _ => hs.sockets j other
  · intro a peerId generation b h
    cases h.of_setSocket with
    | inl hold => exact hold
    | inr hwritten =>
      obtain ⟨side, ha, hb, hend⟩ := hwritten
      rw [howner] at ha hb
      exact ⟨i, side, old, hi, ha, hb, (hends side peerId generation).mp hend⟩
  · exact fun _ => Nat.le_refl _
  · intro a k conn h
    refine ⟨⟨conn, h, rfl⟩, ?_⟩
    intro generation b hend
    cases hend.setSocket hi socket with
    | inl hkept => exact hkept
    | inr hold =>
      obtain ⟨side, ha, hb, hregistered⟩ := hold
      rw [← ha, ← hb, ← howner]
      exact EndAt.of_written hi ((hends side k generation).mpr hregistered)

theorem sound_connected (hs : Socket.SameNodes id session s.transports) (a b : ι) :
    Socket.Sound id session version
      { owner := fun
          | .initiator => a
          | .acceptor => b
        ends := fun
          | .initiator => .awaiting
          | .acceptor => .idle
        wire := fun
          | .initiator => []
          | .acceptor => [(s.transports a).handshakeAt (version a)]
        broken := false } := by
  constructor
  · intro side peerId h
    cases side <;> cases h
  · intro _
    refine ⟨rfl, rfl, ?_⟩
    intro msg hmsg
    refine ⟨(s.transports a).listenPort, ?_⟩
    obtain ⟨hid, hsession⟩ := hs a
    rw [List.mem_singleton.mp hmsg, handshakeAt, hid, hsession]
  · intro _
    exact ⟨fun hno => absurd rfl hno, by simp⟩

theorem Isolated.connect (hs : Isolated id session version s) {socket : Socket ι}
    (hsound : socket.Sound id session version) (hends : ∀ side, (socket.ends side).peer = none) :
    Isolated id session version { s with sockets := s.sockets ++ [socket] } := by
  apply hs.mono
  · exact hs.same
  · exact Slots.forall_concat hsound hs.sockets
  · rintro a peerId generation b ⟨i, side, other, hi, hend⟩
    cases Slots.getElem?_concat_cases hi with
    | inl hold => exact ⟨i, side, other, hold, hend⟩
    | inr hnew =>
      obtain ⟨_, rfl⟩ := hnew
      have hno := hends side
      rw [hend.2.2] at hno
      cases hno
  · exact fun _ => Nat.le_refl _
  · intro a k conn h
    refine ⟨⟨conn, h, rfl⟩, ?_⟩
    rintro generation b ⟨i, side, other, hi, hend⟩
    exact ⟨i, side, other, Slots.getElem?_concat_of_some hi, hend⟩

theorem endAt_register_iff {i : Nat} {socket : Socket ι} {side : Side} {port : UInt16}
    (hi : s.sockets[i]? = some socket) (hready : socket.ends side = .ready peerId port)
    (generation : Nat) (c : ι) (p : PeerId) (g : Nat) (d : ι) :
    (s.setSocket i (socket.setEnd side (.registered peerId generation))).EndAt c p g d ↔
      s.EndAt c p g d ∨ (socket.owner side = c ∧ socket.owner side.other = d ∧ peerId = p ∧
        generation = g) := by
  constructor
  · intro h
    cases h.of_setSocket with
    | inl hwas => exact .inl hwas
    | inr hwritten =>
      obtain ⟨side', hc, hd, hend⟩ := hwritten
      obtain ⟨rfl, heq⟩ | ⟨_, hwas⟩ := Socket.ends_setEnd_cases hend
      · obtain ⟨hp, hg⟩ := SocketEnd.registered.inj heq
        exact .inr ⟨hc, hd, hp, hg⟩
      · exact .inl ⟨i, side', socket, hi, hc, hd, hwas⟩
  · rintro (h | ⟨rfl, rfl, rfl, rfl⟩)
    · cases h.setSocket hi (socket.setEnd side (.registered peerId generation)) with
      | inl hkept => exact hkept
      | inr hwas =>
        obtain ⟨side', hc, hd, hend⟩ := hwas
        rw [← hc, ← hd]
        exact EndAt.of_written hi (Socket.registered_setEnd (by simp [hready]) _ hend)
    · have hwritten : (socket.setEnd side (.registered peerId generation)).ends side =
          .registered peerId generation := by
        simp [Socket.setEnd]
      exact EndAt.of_written hi hwritten

variable [DecidableEq ι]

@[simp] theorem transports_setTransport_self (s : Network ι) (a : ι) (transport : TransportManager) :
    (s.setTransport a transport).transports a = transport :=
  Function.update_self ..

theorem transports_setTransport_of_ne (s : Network ι) {a c : ι} (hc : c ≠ a)
    (transport : TransportManager) : (s.setTransport a transport).transports c = s.transports c :=
  Function.update_of_ne hc ..

/-- What holds of the new transport at its node and of the others as they were holds of all. -/
theorem forall_setTransport (s : Network ι) {a : ι} {transport : TransportManager}
    (P : ι → TransportManager → Prop) (hself : P a transport)
    (hothers : ∀ c, c ≠ a → P c (s.transports c)) (c : ι) :
    P c ((s.setTransport a transport).transports c) :=
  (Function.forall_update_iff s.transports P).mpr ⟨hself, hothers⟩ c

theorem sameNodes_update (hs : Socket.SameNodes id session s.transports)
    {transport : TransportManager} (hid : transport.localPeerId = (s.transports a).localPeerId)
    (hsession : transport.sessionId = (s.transports a).sessionId) :
    Socket.SameNodes id session (Function.update s.transports a transport) := by
  refine s.forall_setTransport (fun c m => m.localPeerId = id c ∧ m.sessionId = session c) ?_
    fun c _ => hs c
  exact ⟨hid.trans (hs a).1, hsession.trans (hs a).2⟩

theorem Isolated.setTransport (hs : Isolated id session version s) {transport : TransportManager}
    (hid : transport.localPeerId = (s.transports a).localPeerId)
    (hsession : transport.sessionId = (s.transports a).sessionId)
    (hnext : (s.transports a).nextGeneration ≤ transport.nextGeneration)
    (hentries : ∀ k conn, transport.connections.lookup k = some conn →
      ∃ old, (s.transports a).connections.lookup k = some old ∧
        old.controlCancel = conn.controlCancel) :
    Isolated id session version (s.setTransport a transport) := by
  apply hs.mono
  · exact sameNodes_update hs.same hid hsession
  · exact hs.sockets
  · exact fun _ _ _ _ h => h
  · exact s.forall_setTransport (fun c m => (s.transports c).nextGeneration ≤ m.nextGeneration) hnext
      fun _ _ => Nat.le_refl _
  · intro c k conn h
    refine ⟨?_, fun _ _ h => h⟩
    refine s.forall_setTransport
      (fun c m => m.connections.lookup k = some conn →
        ∃ old, (s.transports c).connections.lookup k = some old ∧
          old.controlCancel = conn.controlCancel) (hentries k conn) ?_ c h
    exact fun _ _ hold => ⟨conn, hold, rfl⟩

theorem Isolated.register (hs : Isolated id session version s) {i : Nat} {socket : Socket ι}
    {side : Side} {port : UInt16} (hi : s.sockets[i]? = some socket)
    (hready : socket.ends side = .ready peerId port) {transport : TransportManager}
    (hid : transport.localPeerId = (s.transports (socket.owner side)).localPeerId)
    (hsession : transport.sessionId = (s.transports (socket.owner side)).sessionId)
    (hnext : transport.nextGeneration = (s.transports (socket.owner side)).nextGeneration + 1)
    (hlookup : ∀ k conn, transport.connections.lookup k = some conn →
      (k = peerId ∧ conn.controlCancel = (s.transports (socket.owner side)).nextGeneration) ∨
      (s.transports (socket.owner side)).connections.lookup k = some conn) :
    Isolated id session version
      ((s.setTransport (socket.owner side) transport).setSocket i
        (socket.setEnd side
          (.registered peerId (s.transports (socket.owner side)).nextGeneration))) := by
  have hends := endAt_register_iff hi hready (s.transports (socket.owner side)).nextGeneration
  have hold : ∀ c p g d, s.EndAt c p g d → g < (s.transports c).nextGeneration := hs.fresh
  refine ⟨sameNodes_update hs.same hid hsession, ?_, ?_, ?_, ?_⟩
  · refine Slots.forall_set ?_ fun j other _ => hs.sockets j other
    refine (hs.sockets i socket hi).setEnd ⟨nofun, nofun⟩ ?_
    intro p hp
    rw [hready]
    exact hp
  · intro c p g d h
    obtain hwas | ⟨rfl, rfl, rfl, rfl⟩ := (hends c p g d).mp h
    · by_cases hc : c = socket.owner side
      · subst hc
        have hlt := hold _ p g d hwas
        simp only [transports_setSocket, transports_setTransport_self, hnext]
        omega
      · simpa [transports_setTransport_of_ne _ hc] using hold c p g d hwas
    · simp only [transports_setSocket, transports_setTransport_self, hnext]
      omega
  · intro c k conn h
    by_cases hc : c = socket.owner side
    · subst hc
      obtain ⟨rfl, hg⟩ | hwas := hlookup k conn (by simpa using h)
      · exact ⟨_, (hends _ _ _ _).mpr (.inr ⟨rfl, rfl, rfl, hg.symm⟩)⟩
      · obtain ⟨b, hb⟩ := hs.entries _ k conn hwas
        exact ⟨b, (hends _ _ _ _).mpr (.inl hb)⟩
    · obtain ⟨b, hb⟩ := hs.entries c k conn
        (by simpa [transports_setTransport_of_ne _ hc] using h)
      exact ⟨b, (hends _ _ _ _).mpr (.inl hb)⟩
  · intro c k conn p b h hend
    by_cases hc : c = socket.owner side
    · subst hc
      obtain ⟨rfl, hg⟩ | hwas := hlookup k conn (by simpa using h)
      · obtain hwas | ⟨_, _, hp, _⟩ := (hends _ _ _ _).mp hend
        · have hlt := hold _ p _ b hwas
          omega
        · exact hp.symm
      · obtain ⟨d, hd⟩ := hs.entries _ k conn hwas
        have hlt := hold _ k _ d hd
        obtain hwas' | ⟨_, _, _, hg⟩ := (hends _ _ _ _).mp hend
        · exact hs.owns _ k conn p b hwas hwas'
        · omega
    · have hwas : (s.transports c).connections.lookup k = some conn := by
        simpa [transports_setTransport_of_ne _ hc] using h
      obtain hend | ⟨hno, _⟩ := (hends _ _ _ _).mp hend
      · exact hs.owns c k conn p b hwas hend
      · exact absurd hno.symm hc

theorem Isolated.cleanup (hs : Isolated id session version s) {i : Nat} {socket : Socket ι}
    {side : Side} (hi : s.sockets[i]? = some socket)
    (hregistered : socket.ends side = .registered peerId generation) :
    Isolated id session version
      ((s.setTransport (socket.owner side)
        ((s.transports (socket.owner side)).tearDown peerId)).setSocket i
        (socket.setEnd side .dropped)) := by
  apply hs.mono
  · exact sameNodes_update hs.same tearDown_localPeerId tearDown_sessionId
  · refine Slots.forall_set ?_ fun j other _ => hs.sockets j other
    exact (hs.sockets i socket hi).setEnd ⟨nofun, nofun⟩ nofun
  · intro c p g d h
    cases EndAt.of_setSocket h with
    | inl hwas => exact hwas
    | inr hwritten =>
      obtain ⟨side', hc, hd, hend⟩ := hwritten
      obtain ⟨_, hno⟩ | ⟨_, hwas⟩ := Socket.ends_setEnd_cases hend
      · cases hno
      · exact ⟨i, side', socket, hi, hc, hd, hwas⟩
  · exact s.forall_setTransport (fun c m => (s.transports c).nextGeneration ≤ m.nextGeneration)
      (Nat.le_of_eq tearDown_nextGeneration.symm) fun _ _ => Nat.le_refl _
  · intro c k conn h
    have hkept : (s.transports c).connections.lookup k = some conn ∧
        ¬ (c = socket.owner side ∧ k = peerId) := by
      by_cases hc : c = socket.owner side
      · subst hc
        replace h : ((s.transports (socket.owner side)).tearDown peerId).connections.lookup k =
            some conn := by
          simpa using h
        refine ⟨lookup_of_tearDown h, ?_⟩
        rintro ⟨_, rfl⟩
        rw [lookup_tearDown_self] at h
        cases h
      · exact ⟨by simpa [transports_setTransport_of_ne _ hc] using h,
          fun hno => hc hno.1⟩
    refine ⟨⟨conn, hkept.1, rfl⟩, ?_⟩
    intro g d hend
    cases EndAt.setSocket hi hend (socket.setEnd side .dropped) with
    | inl h => exact h
    | inr hwas =>
      obtain ⟨side', hc, hd, hend⟩ := hwas
      have hside : side' ≠ side := by
        rintro rfl
        rw [hregistered] at hend
        obtain ⟨hp, _⟩ := SocketEnd.registered.inj hend
        exact hkept.2 ⟨hc.symm, hp.symm⟩
      have hsame : (socket.setEnd side .dropped).ends side' = .registered k g := by
        simpa [Socket.setEnd, Function.update_of_ne hside] using hend
      rw [← hc, ← hd]
      exact EndAt.of_written hi hsame

theorem Isolated.step (hs : Isolated id session version s) {action : Action ι}
    (h : s.step version action = some t) : Isolated id session version t := by
  cases action with
  | connect a b =>
    cases h
    refine hs.connect (sound_connected hs.same a b) ?_
    intro side
    cases side <;> rfl
  | socket i action =>
    simp only [Network.step] at h
    split at h
    · next socket hi =>
      obtain ⟨socket', hstep, rfl⟩ := Option.map_eq_some_iff.mp h
      obtain ⟨howner, hends⟩ := Socket.step_registered hstep
      exact hs.setSocket hi ((hs.sockets i socket hi).step hs.same hstep) howner hends
    · cases h
  | register i side peerIp now =>
    simp only [Network.step] at h
    split at h
    · next socket hi =>
      split at h
      · next peerId port hready =>
        rcases (s.transports (socket.owner side)).registerConnection_cases peerId
          (peerIp ++ ":" ++ toString port) now with ⟨_, heq⟩ | ⟨_, heq⟩
        · rw [heq] at h
          cases h
          refine hs.setSocket hi ((hs.sockets i socket hi).setEnd ⟨nofun, nofun⟩ nofun) rfl ?_
          exact fun _ _ _ => Socket.registered_setEnd_iff (by simp [hready]) (by simp)
        · rw [heq] at h
          cases h
          refine hs.register hi hready rfl rfl rfl ?_
          intro k conn hconn
          obtain ⟨hk, rfl⟩ | ⟨_, hwas⟩ := Assoc.lookup_insert_cases hconn
          · exact .inl ⟨hk, rfl⟩
          · exact .inr hwas
      · cases h
    · cases h
  | cleanup i side =>
    simp only [Network.step] at h
    split at h
    · next socket hi =>
      split at h
      · next hregistered =>
        cases h
        rw [cleanup_fst]
        exact hs.cleanup hi hregistered
      · cases h
    · cases h
  | registerDataChannel a peerId =>
    cases h
    refine hs.setTransport registerDataChannel_localPeerId registerDataChannel_sessionId ?_
      fun _ _ => lookup_of_registerDataChannel
    rw [registerDataChannel_nextGeneration]
    omega
  | disconnectPeer a peerId fits =>
    obtain ⟨e, heq⟩ | heq := (s.transports a).disconnectPeer_cases peerId fits
    · simp only [Network.step, heq, Option.some.injEq] at h
      exact h ▸ hs
    · simp only [Network.step, heq, Option.some.injEq] at h
      subst h
      exact hs.setTransport tearDown_localPeerId tearDown_sessionId
        (Nat.le_of_eq tearDown_nextGeneration.symm) fun k conn hconn =>
          ⟨conn, lookup_of_tearDown hconn, rfl⟩
  | cancelShutdownToken a =>
    cases h
    exact hs.setTransport rfl rfl (Nat.le_refl _) fun k conn hconn => ⟨conn, hconn, rfl⟩
  | shutdown a =>
    cases h
    refine hs.setTransport rfl rfl (Nat.le_refl _) ?_
    intro k conn hconn
    cases hconn

/-- An entry of a node is over a socket, and it names the owner of the socket's other end, a node
of the same session and version. -/
theorem entry_names_other_end (version : ι → UInt16) (id : ι → PeerId) (session : ι → String)
    (listenPort : ι → UInt16) (autoReconnect : ι → Bool) (acts : List (Action ι)) {k : PeerId}
    {conn : PeerConnection}
    (hrun : run (step version) (start id session listenPort autoReconnect) acts = some s)
    (hentry : (s.transports a).connections.lookup k = some conn) :
    (∃ peerId b, s.EndAt a peerId conn.controlCancel b) ∧
    ∀ peerId b, s.EndAt a peerId conn.controlCancel b →
      k = (s.transports b).localPeerId ∧
      (s.transports a).sessionId = (s.transports b).sessionId ∧ version a = version b := by
  have hs : Isolated id session version s := invariant (P := fun _ _ => True)
    (fun s action t hs _ h => hs.step h) isolated_start (along_of_forall (fun _ _ => trivial) _ _) hrun
  obtain ⟨c, hc⟩ := hs.entries a k conn hentry
  refine ⟨⟨k, c, hc⟩, ?_⟩
  intro peerId b hend
  obtain rfl := hs.owns a k conn peerId b hentry hend
  obtain ⟨i, side, socket, hi, rfl, rfl, hregistered⟩ := hend
  obtain ⟨hpeer, hsession, hversion⟩ := (hs.sockets i socket hi).known side peerId
    (by rw [hregistered]; rfl)
  obtain ⟨hid, hroom⟩ := hs.same (socket.owner side.other)
  exact ⟨hpeer.trans hid.symm,
    ((hs.same (socket.owner side)).2.trans hsession).trans hroom.symm, hversion⟩

/-- Two nodes of one session, linked over one socket. -/
theorem linked_pair_entry :
    ∃ s conn, run (step fun _ => 1)
        (start (fun first : Bool => if first then ⟨"a"⟩ else ⟨"b"⟩) (fun _ => "room")
          (fun _ => 4000) (fun _ => true))
        [.connect true false, .socket 0 .processHandshake, .register 0 .acceptor "10.0.0.1" 0,
          .socket 0 .receiveHandshakeAck, .register 0 .initiator "10.0.0.2" 0] = some s ∧
      (s.transports true).connections.lookup ⟨"b"⟩ = some conn ∧
      (∃ peerId b, s.EndAt true peerId conn.controlCancel b) ∧
      ∀ peerId b, s.EndAt true peerId conn.controlCancel b →
        ⟨"b"⟩ = (s.transports b).localPeerId ∧
        (s.transports true).sessionId = (s.transports b).sessionId ∧ (1 : UInt16) = 1 := by
  have hentry : ((run (step fun _ => 1)
      (start (fun first : Bool => if first then ⟨"a"⟩ else ⟨"b"⟩) (fun _ => "room") (fun _ => 4000)
        (fun _ => true))
      [.connect true false, .socket 0 .processHandshake, .register 0 .acceptor "10.0.0.1" 0,
        .socket 0 .receiveHandshakeAck, .register 0 .initiator "10.0.0.2" 0]).bind fun s =>
      (s.transports true).connections.lookup ⟨"b"⟩).isSome = true := by decide +kernel
  obtain ⟨conn, hconn⟩ := Option.isSome_iff_exists.mp hentry
  obtain ⟨s, hrun, hlookup⟩ := Option.bind_eq_some_iff.mp hconn
  exact ⟨s, conn, hrun, hlookup, entry_names_other_end _ _ _ _ _ _ hrun hlookup⟩

end Network

end MetaMystia

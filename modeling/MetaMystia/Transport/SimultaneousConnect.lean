import MetaMystia.Library.Runs
import MetaMystia.Transport.Handshake

/-! # Two nodes connect to each other at once

Each node opens one socket to the other's listener. A node keeps the first of
its two ends that reaches `register_connection` and drops the other, on its own:
a link remains exactly when no socket is dropped after the other one was.
-/

namespace MetaMystia

inductive Host
  | a
  | b
deriving DecidableEq

def Host.other : Host → Host
  | .a => .b
  | .b => .a

/-- One end of a socket, as the task that owns it sees it. `ready` is about to register, `dropping`
has got its error and `registered` has its read task running. -/
inductive SocketEnd
  | idle
  | awaiting
  | ready (peerId : PeerId) (listenPort : UInt16)
  | dropping
  | dropped
  | registered (peerId : PeerId) (generation : Nat)
deriving DecidableEq

/-- A socket is named by the node that opened it. `wires socket host` holds the messages on their
way to `host`. -/
structure Duplex where
  transports : Host → TransportManager
  ends : Host → Host → SocketEnd
  wires : Host → Host → List InternalMessage

namespace Duplex

open Runs TransportManager

inductive Action
  | connect (host : Host)
  | processHandshake (socket : Host)
  | receiveHandshakeAck (socket : Host)
  | register (socket host : Host) (peerIp : String) (now : Nat)
  | drop (socket host : Host)
  | read (socket host : Host)
  | endOfStream (socket host : Host)

def start (transports : Host → TransportManager) : Duplex where
  transports := transports
  ends _ _ := .idle
  wires _ _ := []

def setEnd (s : Duplex) (socket host : Host) (e : SocketEnd) : Duplex :=
  { s with ends := fun x n => if x = socket ∧ n = host then e else s.ends x n }

def setWire (s : Duplex) (socket host : Host) (msgs : List InternalMessage) : Duplex :=
  { s with wires := fun x n => if x = socket ∧ n = host then msgs else s.wires x n }

def setTransport (s : Duplex) (host : Host) (transport : TransportManager) : Duplex :=
  { s with transports := Function.update s.transports host transport }

/-- What a handshake leaves its task with: a connection to register, or a socket to drop. -/
def afterHandshake : Except NetworkError (PeerId × UInt16 × InternalMessage) → SocketEnd
  | .ok (peerId, listenPort, _) => .ready peerId listenPort
  | .error _ => .dropping

def step (s : Duplex) : Action → Option Duplex
  | .connect host =>
    if s.ends host host = .idle then
      some ((s.setEnd host host .awaiting).setWire host host.other
        (s.wires host host.other ++ [(s.transports host).handshake]))
    else none
  | .processHandshake socket =>
    match s.ends socket socket.other, s.wires socket socket.other with
    | .idle, msg :: rest =>
      let (acks, result) := (s.transports socket.other).processHandshakeMessage msg
      some (((s.setEnd socket socket.other (afterHandshake result)).setWire socket socket.other rest).setWire
        socket socket (s.wires socket socket ++ acks))
    | _, _ => none
  | .receiveHandshakeAck socket =>
    match s.ends socket socket, s.wires socket socket with
    | .awaiting, msg :: rest =>
      some ((s.setEnd socket socket (afterHandshake (receiveHandshakeAck msg))).setWire socket socket rest)
    | _, _ => none
  | .register socket host peerIp now =>
    match s.ends socket host with
    | .ready peerId listenPort =>
      match (s.transports host).registerConnection peerId (peerIp ++ ":" ++ toString listenPort) now with
      | .ok transport =>
        some ((s.setTransport host transport).setEnd socket host
          (.registered peerId (s.transports host).nextGeneration))
      | .error _ => some (s.setEnd socket host .dropping)
    | _ => none
  | .drop socket host =>
    match s.ends socket host with
    | .dropping => some (s.setEnd socket host .dropped)
    | _ => none
  | .read socket host =>
    match s.ends socket host, s.wires socket host with
    | .registered _ _, _ :: rest => some (s.setWire socket host rest)
    | _, _ => none
  | .endOfStream socket host =>
    match s.ends socket host, s.wires socket host with
    | .registered peerId _, [] =>
      if s.ends socket host.other = .dropped then
        some ((s.setTransport host ((s.transports host).cleanup peerId).1).setEnd socket host .dropped)
      else none
    | _, _ => none

/-- The node's entry for the other one exists and is over this socket. -/
def Over (s : Duplex) (socket host : Host) : Prop :=
  ∃ peerId generation conn, s.ends socket host = .registered peerId generation ∧
    (s.transports host).connections.lookup (s.transports host.other).localPeerId = some conn ∧
    conn.controlCancel = generation

def Linked (s : Duplex) : Prop := ∃ socket, s.Over socket .a ∧ s.Over socket .b

/-- A socket is dropped only while both ends of the other one are in place. -/
def Intact (s : Duplex) : Action → Prop
  | .drop socket _ => s.ends socket.other .a ≠ .dropped ∧ s.ends socket.other .b ≠ .dropped
  | _ => True

instance (s : Duplex) : (a : Action) → Decidable (s.Intact a)
  | .drop .. => inferInstanceAs (Decidable (_ ∧ _))
  | .connect _ | .processHandshake _ | .receiveHandshakeAck _ | .register .. | .read .. | .endOfStream .. =>
    .isTrue trivial

def Settled (e : SocketEnd) : Prop := e ≠ .idle ∧ e ≠ .awaiting

/-- The phases of one socket: the initiator's end, the acceptor's end, the messages on their way
to the initiator and those to the acceptor. -/
def SocketOk (initiator acceptor : TransportManager) (e f : SocketEnd)
    (back forth : List InternalMessage) : Prop :=
  (e = .idle ∧ f = .idle ∧ back = [] ∧ forth = []) ∨
  (e = .awaiting ∧ f = .idle ∧ back = [] ∧ forth = [initiator.handshake]) ∨
  (e = .awaiting ∧ Settled f ∧ ∃ reason more, back = acceptor.handshakeAck true reason :: more) ∨
  (Settled e ∧ Settled f)

/-- What holds at one node, `peer` being the id of the other: at most one end is open, and then the
entry for the peer is over it. -/
structure HostOk (peer : PeerId) (transport : TransportManager) (ends : Host → SocketEnd) : Prop where
  ready : ∀ socket peerId listenPort, ends socket = .ready peerId listenPort → peerId = peer
  opened : ∀ socket peerId generation, ends socket = .registered peerId generation →
    peerId = peer ∧ ∃ conn, transport.connections.lookup peer = some conn ∧ conn.controlCancel = generation
  single : ∀ x y p q g k, ends x = .registered p g → ends y = .registered q k → x = y

structure SameNode (m m' : TransportManager) : Prop where
  localPeerId : m.localPeerId = m'.localPeerId
  listenPort : m.listenPort = m'.listenPort
  sessionId : m.sessionId = m'.sessionId

structure Sound (initial : Host → TransportManager) (s : Duplex) : Prop where
  same : ∀ host, SameNode (s.transports host) (initial host)
  sockets : ∀ x, SocketOk (initial x) (initial x.other) (s.ends x x) (s.ends x x.other)
    (s.wires x x) (s.wires x x.other)
  hosts : ∀ n, HostOk (initial n.other).localPeerId (s.transports n) fun x => s.ends x n

variable {initial : Host → TransportManager} {s s' : Duplex} {x n : Host}

theorem eq_or_eq_other (x n : Host) : n = x ∨ n = x.other := by
  cases x <;> cases n <;> simp [Host.other]

@[simp] theorem other_other (x : Host) : x.other.other = x := by cases x <;> rfl

@[simp] theorem other_ne (x : Host) : x.other ≠ x := by cases x <;> nofun

@[simp] theorem ne_other (x : Host) : x ≠ x.other := by cases x <;> nofun

theorem sound_start (initial : Host → TransportManager) : Sound initial (start initial) where
  same _ := ⟨rfl, rfl, rfl⟩
  sockets _ := .inl ⟨rfl, rfl, rfl, rfl⟩
  hosts _ := by constructor <;> simp [start]

/-- A step on one end of one socket concerns that socket and that node only. -/
theorem Sound.update (h : Sound initial s) (x n : Host)
    (hends : ∀ y m, ¬ (y = x ∧ m = n) → s'.ends y m = s.ends y m)
    (hwires : ∀ y m, y ≠ x → s'.wires y m = s.wires y m)
    (htransports : ∀ m, m ≠ n → s'.transports m = s.transports m)
    (hsame : SameNode (s'.transports n) (initial n))
    (hsocket : SocketOk (initial x) (initial x.other) (s'.ends x x) (s'.ends x x.other)
      (s'.wires x x) (s'.wires x x.other))
    (hhost : HostOk (initial n.other).localPeerId (s'.transports n) fun y => s'.ends y n) :
    Sound initial s' := by
  refine ⟨?_, ?_, ?_⟩
  · intro m
    by_cases hm : m = n
    · exact hm ▸ hsame
    · rw [htransports m hm]
      exact h.same m
  · intro y
    by_cases hy : y = x
    · exact hy ▸ hsocket
    · rw [hends y y (by simp [hy]), hends y y.other (by simp [hy]), hwires y y hy, hwires y y.other hy]
      exact h.sockets y
  · intro m
    by_cases hm : m = n
    · exact hm ▸ hhost
    · rw [htransports m hm]
      have hsame : (fun y => s'.ends y m) = fun y => s.ends y m := by
        funext y
        exact hends y m (by simp [hm])
      rw [hsame]
      exact h.hosts m

/-- Once the handshake is over at an end, what that end does keeps the phase of its socket. -/
theorem Sound.socket_settled (h : Sound initial s) (hbefore : Settled (s.ends x n))
    (hafter : Settled (s'.ends x n)) (hend : s'.ends x n.other = s.ends x n.other)
    (hwire : s'.wires x n.other = s.wires x n.other) :
    SocketOk (initial x) (initial x.other) (s'.ends x x) (s'.ends x x.other)
      (s'.wires x x) (s'.wires x x.other) := by
  cases eq_or_eq_other x n with
  | inl hn =>
    subst hn
    obtain ⟨he, _⟩ | ⟨he, _⟩ | ⟨he, _⟩ | ⟨_, hf⟩ := h.sockets n
    · exact absurd he hbefore.1
    · exact absurd he hbefore.2
    · exact absurd he hbefore.2
    · rw [hend]
      exact .inr (.inr (.inr ⟨hafter, hf⟩))
  | inr hn =>
    subst hn
    rw [other_other] at hend hwire
    obtain ⟨_, hf, _⟩ | ⟨_, hf, _⟩ | ⟨he, _, hack⟩ | ⟨he, _⟩ := h.sockets x
    · exact absurd hf hbefore.1
    · exact absurd hf hbefore.1
    · rw [hend, hwire]
      exact .inr (.inr (.inl ⟨he, hafter, hack⟩))
    · rw [hend]
      exact .inr (.inr (.inr ⟨he, hafter⟩))

theorem HostOk.set {peer : PeerId} {transport : TransportManager} {ends : Host → SocketEnd}
    (h : HostOk peer transport ends) {e : SocketEnd}
    (hready : ∀ peerId listenPort, e = .ready peerId listenPort → peerId = peer)
    (hopen : ∀ peerId generation, e ≠ .registered peerId generation) :
    HostOk peer transport fun y => if y = x then e else ends y := by
  refine ⟨?_, ?_, ?_⟩
  · intro y peerId listenPort hy
    split at hy
    · exact hready peerId listenPort hy
    · exact h.ready y peerId listenPort hy
  · intro y peerId generation hy
    split at hy
    · exact absurd hy (hopen peerId generation)
    · exact h.opened y peerId generation hy
  · intro y z p q g k hy hz
    split at hy
    · exact absurd hy (hopen p g)
    · split at hz
      · exact absurd hz (hopen q k)
      · exact h.single y z p q g k hy hz

theorem HostOk.register {peer : PeerId} {transport transport' : TransportManager}
    {ends : Host → SocketEnd} (h : HostOk peer transport ends) {generation : Nat}
    (hnew : peer ∉ transport.connections)
    (hentry : ∃ conn, transport'.connections.lookup peer = some conn ∧ conn.controlCancel = generation) :
    HostOk peer transport' fun y => if y = x then .registered peer generation else ends y := by
  have hclosed : ∀ y p g, ends y ≠ .registered p g := by
    intro y p g hy
    obtain ⟨_, conn, hconn, _⟩ := h.opened y p g hy
    exact hnew (Assoc.mem_of_lookup hconn)
  refine ⟨?_, ?_, ?_⟩
  · intro y peerId listenPort hy
    split at hy
    · exact absurd hy nofun
    · exact h.ready y peerId listenPort hy
  · intro y peerId g hy
    split at hy
    · obtain ⟨rfl, rfl⟩ : peer = peerId ∧ generation = g := by simpa using hy
      exact ⟨rfl, hentry⟩
    · exact absurd hy (hclosed y peerId g)
  · intro y z p q g k hy hz
    split at hy
    · rename_i hyx
      split at hz
      · rename_i hzx
        rw [hyx, hzx]
      · exact absurd hz (hclosed z q k)
    · exact absurd hy (hclosed y p g)

theorem HostOk.close {peer : PeerId} {transport transport' : TransportManager}
    {ends : Host → SocketEnd} (h : HostOk peer transport ends) {peerId : PeerId} {generation : Nat}
    (hopen : ends x = .registered peerId generation) :
    HostOk peer transport' fun y => if y = x then .dropped else ends y := by
  have hclosed : ∀ y p g, y ≠ x → ends y ≠ .registered p g := by
    intro y p g hne hy
    exact hne (h.single y x p peerId g generation hy hopen)
  refine ⟨?_, ?_, ?_⟩
  · intro y p l hy
    split at hy
    · exact absurd hy nofun
    · exact h.ready y p l hy
  · intro y p g hy
    split at hy
    · exact absurd hy nofun
    · exact absurd hy (hclosed y p g ‹_›)
  · intro y z p q g k hy _
    split at hy
    · exact absurd hy nofun
    · exact absurd hy (hclosed y p g ‹_›)

theorem Sound.setEnd (h : Sound initial s) {e : SocketEnd} (hbefore : Settled (s.ends x n))
    (hafter : Settled e) {transport : TransportManager} (hsame : SameNode transport (initial n))
    (hhost : HostOk (initial n.other).localPeerId transport fun y => if y = x then e else s.ends y n) :
    Sound initial ((s.setTransport n transport).setEnd x n e) := by
  refine h.update x n ?_ ?_ ?_ ?_ ?_ ?_
  · intro y m hne
    simp [Duplex.setEnd, setTransport, hne]
  · exact fun _ _ _ => rfl
  · exact fun m hm => Function.update_of_ne hm ..
  · simpa [Duplex.setEnd, setTransport] using hsame
  · refine h.socket_settled hbefore ?_ ?_ rfl
    · simpa [Duplex.setEnd] using hafter
    · simp [Duplex.setEnd, setTransport]
  · simpa [Duplex.setEnd, setTransport] using hhost

theorem Sound.setEnd_same (h : Sound initial s) {e : SocketEnd} (hbefore : Settled (s.ends x n))
    (hafter : Settled e)
    (hhost : HostOk (initial n.other).localPeerId (s.transports n) fun y =>
      if y = x then e else s.ends y n) : Sound initial (s.setEnd x n e) := by
  have hsound := h.setEnd hbefore hafter (h.same n) hhost
  rwa [setTransport, Function.update_eq_self] at hsound

theorem handshake_congr {m m' : TransportManager} (h : SameNode m m') : m.handshake = m'.handshake := by
  simp [handshake, handshakeAt, h.localPeerId, h.listenPort, h.sessionId]

theorem handshakeAck_congr {m m' : TransportManager} (h : SameNode m m') (success : Bool)
    (errorReason : Option String) :
    m.handshakeAck success errorReason = m'.handshakeAck success errorReason := by
  simp [handshakeAck, h.localPeerId, h.listenPort]

theorem Sound.connect (h : Sound initial s) (hidle : s.ends x x = .idle) :
    Sound initial ((s.setEnd x x .awaiting).setWire x x.other
      (s.wires x x.other ++ [(s.transports x).handshake])) := by
  refine h.update x x ?_ ?_ ?_ ?_ ?_ ?_
  · intro y m hne
    simp [Duplex.setEnd, setWire, hne]
  · intro y m hy
    simp [Duplex.setEnd, setWire, hy]
  · exact fun _ _ => rfl
  · exact h.same x
  · obtain ⟨_, hf, hback, hforth⟩ | ⟨he, _⟩ | ⟨he, _⟩ | ⟨he, _⟩ := h.sockets x
    · refine .inr (.inl ?_)
      simp [Duplex.setEnd, setWire, hf, hback, hforth, handshake_congr (h.same x)]
    · simp [hidle] at he
    · simp [hidle] at he
    · exact absurd hidle he.1
  · simpa [Duplex.setEnd, setWire] using (h.hosts x).set (x := x) (e := .awaiting) nofun nofun

theorem Sound.processHandshake (h : Sound initial s)
    (hsession : (initial x).sessionId = (initial x.other).sessionId)
    (hidle : s.ends x x.other = .idle) {msg : InternalMessage} {rest : List InternalMessage}
    (hmsg : s.wires x x.other = msg :: rest) :
    Sound initial (((s.setEnd x x.other
      (afterHandshake ((s.transports x.other).processHandshakeMessage msg).2)).setWire x x.other rest).setWire
      x x (s.wires x x ++ ((s.transports x.other).processHandshakeMessage msg).1)) := by
  obtain ⟨hwaiting, hback, rfl⟩ : s.ends x x = .awaiting ∧ s.wires x x = [] ∧ msg = (initial x).handshake := by
    obtain ⟨_, _, _, hforth⟩ | ⟨he, _, hback, hforth⟩ | ⟨_, hf, _⟩ | ⟨_, hf⟩ := h.sockets x
    · simp [hmsg] at hforth
    · rw [hmsg] at hforth
      exact ⟨he, hback, (List.cons.inj hforth).1⟩
    · exact absurd hidle hf.1
    · exact absurd hidle hf.1
  obtain ⟨hresult, hready, reason, more, hacks⟩ :
      Settled (afterHandshake ((s.transports x.other).processHandshakeMessage (initial x).handshake).2) ∧
      HostOk (initial x.other.other).localPeerId (s.transports x.other) (fun y => if y = x then
        afterHandshake ((s.transports x.other).processHandshakeMessage (initial x).handshake).2
        else s.ends y x.other) ∧
      ∃ reason more, ((s.transports x.other).processHandshakeMessage (initial x).handshake).1 =
        (initial x.other).handshakeAck true reason :: more := by
    rcases processHandshakeMessage_handshake (hsession.trans (h.same x.other).sessionId.symm) with
      ⟨_, heq⟩ | ⟨_, more, heq⟩
    · rw [heq]
      refine ⟨⟨nofun, nofun⟩, (h.hosts x.other).set nofun nofun, some "already_connected", [], ?_⟩
      rw [handshakeAck_congr (h.same x.other)]
    · rw [heq]
      refine ⟨⟨nofun, nofun⟩, (h.hosts x.other).set ?_ nofun, none, more, ?_⟩
      · intro peerId listenPort hready
        obtain ⟨rfl, _⟩ : (initial x).localPeerId = peerId ∧ (initial x).listenPort = listenPort := by
          simpa [afterHandshake] using hready
        rw [other_other]
      · rw [handshakeAck_congr (h.same x.other)]
  refine h.update x x.other ?_ ?_ ?_ ?_ ?_ ?_
  · intro y m hne
    simp [Duplex.setEnd, setWire, hne]
  · intro y m hy
    simp [Duplex.setEnd, setWire, hy]
  · exact fun _ _ => rfl
  · exact h.same x.other
  · refine .inr (.inr (.inl ⟨?_, ?_, reason, more, ?_⟩))
    · simpa [Duplex.setEnd, setWire] using hwaiting
    · simpa [Duplex.setEnd, setWire] using hresult
    · simp [Duplex.setEnd, setWire, hback, hacks]
  · simpa [Duplex.setEnd, setWire] using hready

theorem Sound.receiveHandshakeAck (h : Sound initial s) (hwaiting : s.ends x x = .awaiting)
    {msg : InternalMessage} {rest : List InternalMessage} (hmsg : s.wires x x = msg :: rest) :
    Sound initial ((s.setEnd x x (afterHandshake (receiveHandshakeAck msg))).setWire x x rest) := by
  obtain ⟨hsettled, reason, rfl⟩ : Settled (s.ends x x.other) ∧
      ∃ reason, msg = (initial x.other).handshakeAck true reason := by
    obtain ⟨he, _⟩ | ⟨_, _, hback, _⟩ | ⟨_, hf, reason, more, hback⟩ | ⟨he, _⟩ := h.sockets x
    · simp [hwaiting] at he
    · simp [hmsg] at hback
    · rw [hmsg] at hback
      exact ⟨hf, reason, (List.cons.inj hback).1⟩
    · exact absurd hwaiting he.2
  obtain ⟨hresult, hready⟩ :
      Settled (afterHandshake (TransportManager.receiveHandshakeAck
        ((initial x.other).handshakeAck true reason))) ∧
      HostOk (initial x.other).localPeerId (s.transports x) (fun y => if y = x then
        afterHandshake (TransportManager.receiveHandshakeAck
          ((initial x.other).handshakeAck true reason)) else s.ends y x) := by
    by_cases hreason : reason = some "already_connected"
    · subst hreason
      have hdropping : afterHandshake (TransportManager.receiveHandshakeAck
          ((initial x.other).handshakeAck true (some "already_connected"))) = .dropping := rfl
      rw [hdropping]
      exact ⟨⟨by simp, by simp⟩, (h.hosts x).set (by simp) (by simp)⟩
    · have heq : TransportManager.receiveHandshakeAck ((initial x.other).handshakeAck true reason) =
          .ok ((initial x.other).localPeerId, (initial x.other).listenPort,
            (initial x.other).handshakeAck true none) := by
        simp [TransportManager.receiveHandshakeAck, handshakeAck, hreason]
      rw [heq]
      refine ⟨⟨by simp [afterHandshake], by simp [afterHandshake]⟩,
        (h.hosts x).set ?_ (by simp [afterHandshake])⟩
      intro peerId listenPort hready
      obtain ⟨rfl, _⟩ : (initial x.other).localPeerId = peerId ∧ (initial x.other).listenPort = listenPort := by
        simpa [afterHandshake] using hready
      rfl
  refine h.update x x ?_ ?_ ?_ ?_ ?_ ?_
  · intro y m hne
    simp [Duplex.setEnd, setWire, hne]
  · intro y m hy
    simp [Duplex.setEnd, setWire, hy]
  · exact fun _ _ => rfl
  · exact h.same x
  · refine .inr (.inr (.inr ⟨?_, ?_⟩))
    · simpa [Duplex.setEnd, setWire] using hresult
    · simpa [Duplex.setEnd, setWire] using hsettled
  · simpa [Duplex.setEnd, setWire] using hready

theorem Sound.register (h : Sound initial s) {peerId : PeerId} {listenPort : UInt16}
    (hready : s.ends x n = .ready peerId listenPort) {transport : TransportManager} {peerAddr : String}
    {now : Nat} (hregister : (s.transports n).registerConnection peerId peerAddr now = .ok transport) :
    Sound initial ((s.setTransport n transport).setEnd x n
      (.registered peerId (s.transports n).nextGeneration)) := by
  obtain rfl := (h.hosts n).ready x peerId listenPort hready
  have hbefore : Settled (s.ends x n) := by
    rw [hready]
    exact ⟨nofun, nofun⟩
  rcases (s.transports n).registerConnection_cases (initial n.other).localPeerId peerAddr now with
    ⟨_, heq⟩ | ⟨hnew, heq⟩
  · exact absurd (heq.symm.trans hregister) nofun
  · obtain rfl := Except.ok.inj (heq.symm.trans hregister)
    refine h.setEnd (e := .registered _ _) hbefore ⟨nofun, nofun⟩ ⟨?_, ?_, ?_⟩
      ((h.hosts n).register hnew ?_)
    · exact (h.same n).localPeerId
    · exact (h.same n).listenPort
    · exact (h.same n).sessionId
    · exact ⟨_, AList.lookup_insert _, rfl⟩

theorem tearDown_same {m m' : TransportManager} (h : SameNode m m') (peerId : PeerId) :
    SameNode (m.tearDown peerId) m' := by
  unfold tearDown
  cases m.connections.lookup peerId with
  | none => exact h
  | some conn => exact ⟨h.localPeerId, h.listenPort, h.sessionId⟩

theorem Sound.read (h : Sound initial s) {peerId : PeerId} {generation : Nat}
    (hopen : s.ends x n = .registered peerId generation) (rest : List InternalMessage) :
    Sound initial (s.setWire x n rest) := by
  have hsettled : Settled (s.ends x n) := by
    rw [hopen]
    exact ⟨nofun, nofun⟩
  refine h.update x n (fun _ _ _ => rfl) ?_ (fun _ _ => rfl) (h.same n) ?_ (h.hosts n)
  · intro y m hy
    simp [setWire, hy]
  · refine h.socket_settled hsettled hsettled rfl ?_
    simp [setWire]

theorem step_cases {a : Action} (hstep : s.step a = some s') :
    (∃ x, s.ends x x = .idle ∧ s' = (s.setEnd x x .awaiting).setWire x x.other
      (s.wires x x.other ++ [(s.transports x).handshake])) ∨
    (∃ x msg rest, s.ends x x.other = .idle ∧ s.wires x x.other = msg :: rest ∧
      s' = ((s.setEnd x x.other
        (afterHandshake ((s.transports x.other).processHandshakeMessage msg).2)).setWire x x.other rest).setWire
        x x (s.wires x x ++ ((s.transports x.other).processHandshakeMessage msg).1)) ∨
    (∃ x msg rest, s.ends x x = .awaiting ∧ s.wires x x = msg :: rest ∧
      s' = (s.setEnd x x (afterHandshake (receiveHandshakeAck msg))).setWire x x rest) ∨
    (∃ x n peerId listenPort peerAddr now transport, s.ends x n = .ready peerId listenPort ∧
      (s.transports n).registerConnection peerId peerAddr now = .ok transport ∧
      s' = (s.setTransport n transport).setEnd x n (.registered peerId (s.transports n).nextGeneration)) ∨
    (∃ x n peerId listenPort, s.ends x n = .ready peerId listenPort ∧ s' = s.setEnd x n .dropping) ∨
    (∃ x n, a = .drop x n ∧ s.ends x n = .dropping ∧ s' = s.setEnd x n .dropped) ∨
    (∃ x n peerId generation rest, s.ends x n = .registered peerId generation ∧ s' = s.setWire x n rest) ∨
    (∃ x n peerId generation, s.ends x n = .registered peerId generation ∧
      s.ends x n.other = .dropped ∧
      s' = (s.setTransport n ((s.transports n).tearDown peerId)).setEnd x n .dropped) := by
  cases a with
  | connect x =>
    simp only [step, Option.ite_none_right_eq_some, Option.some.injEq] at hstep
    obtain ⟨hidle, rfl⟩ := hstep
    exact .inl ⟨x, hidle, rfl⟩
  | processHandshake x =>
    simp only [step] at hstep
    split at hstep
    · rename_i msg rest hidle hmsg
      exact .inr (.inl ⟨x, msg, rest, hidle, hmsg, (Option.some.inj hstep).symm⟩)
    · exact absurd hstep nofun
  | receiveHandshakeAck x =>
    simp only [step] at hstep
    split at hstep
    · rename_i msg rest hwaiting hmsg
      exact .inr (.inr (.inl ⟨x, msg, rest, hwaiting, hmsg, (Option.some.inj hstep).symm⟩))
    · exact absurd hstep nofun
  | register x n peerIp now =>
    simp only [step] at hstep
    split at hstep
    · rename_i peerId listenPort hready
      split at hstep
      · rename_i transport hregister
        exact .inr (.inr (.inr (.inl ⟨x, n, peerId, listenPort, _, now, transport, hready, hregister,
          (Option.some.inj hstep).symm⟩)))
      · exact .inr (.inr (.inr (.inr (.inl ⟨x, n, peerId, listenPort, hready,
          (Option.some.inj hstep).symm⟩))))
    · exact absurd hstep nofun
  | drop x n =>
    simp only [step] at hstep
    split at hstep
    · rename_i hdropping
      exact .inr (.inr (.inr (.inr (.inr (.inl ⟨x, n, rfl, hdropping, (Option.some.inj hstep).symm⟩)))))
    · exact absurd hstep nofun
  | read x n =>
    simp only [step] at hstep
    split at hstep
    · rename_i peerId generation _ rest hopen _
      exact .inr (.inr (.inr (.inr (.inr (.inr (.inl ⟨x, n, peerId, generation, rest, hopen,
        (Option.some.inj hstep).symm⟩))))))
    · exact absurd hstep nofun
  | endOfStream x n =>
    simp only [step] at hstep
    split at hstep
    · rename_i peerId generation hopen _
      simp only [Option.ite_none_right_eq_some, Option.some.injEq, cleanup_fst] at hstep
      exact .inr (.inr (.inr (.inr (.inr (.inr (.inr ⟨x, n, peerId, generation, hopen, hstep.1,
        hstep.2.symm⟩))))))
    · exact absurd hstep nofun

theorem sound_step (hsession : ∀ x y, (initial x).sessionId = (initial y).sessionId)
    (h : Sound initial s) {a : Action} (hstep : s.step a = some s') : Sound initial s' := by
  have hsettled : ∀ {e : SocketEnd}, e ≠ .idle → e ≠ .awaiting → Settled e := fun h h' => ⟨h, h'⟩
  rcases step_cases hstep with ⟨x, hidle, rfl⟩ | ⟨x, msg, rest, hidle, hmsg, rfl⟩ |
    ⟨x, msg, rest, hwaiting, hmsg, rfl⟩ | ⟨x, n, _, _, _, _, _, hready, hregister, rfl⟩ |
    ⟨x, n, _, _, hready, rfl⟩ | ⟨x, n, _, hdropping, rfl⟩ | ⟨x, n, _, _, rest, hopen, rfl⟩ |
    ⟨x, n, peerId, _, hopen, _, rfl⟩
  · exact h.connect hidle
  · exact h.processHandshake (hsession _ _) hidle hmsg
  · exact h.receiveHandshakeAck hwaiting hmsg
  · exact h.register hready hregister
  · exact h.setEnd_same (hsettled (by simp [hready]) (by simp [hready])) ⟨nofun, nofun⟩
      ((h.hosts n).set nofun nofun)
  · exact h.setEnd_same (hsettled (by simp [hdropping]) (by simp [hdropping])) ⟨nofun, nofun⟩
      ((h.hosts n).set nofun nofun)
  · exact h.read hopen rest
  · exact h.setEnd (e := .dropped) (hsettled (by simp [hopen]) (by simp [hopen])) ⟨nofun, nofun⟩
      (tearDown_same (h.same n) peerId) ((h.hosts n).close hopen)

theorem sound_run (hsession : ∀ x y, (initial x).sessionId = (initial y).sessionId)
    {acts : List Action} (hrun : run step (start initial) acts = some s) : Sound initial s :=
  invariant (P := fun _ _ => True) (fun _ _ _ h _ hstep => sound_step hsession h hstep)
    (sound_start initial) (along_of_forall (fun _ _ => trivial) _ acts) hrun

theorem Sound.final (h : Sound initial s) (hquiet : ∀ a, s.step a = none) (x n : Host) :
    (∃ peerId generation, s.ends x n = .registered peerId generation) ∨ s.ends x n = .dropped := by
  have hinitiator : s.ends x x ≠ .idle := by
    intro hidle
    simpa [step, hidle] using hquiet (.connect x)
  have hsettled : Settled (s.ends x x) ∧ Settled (s.ends x x.other) := by
    obtain ⟨he, _⟩ | ⟨_, hf, _, hforth⟩ | ⟨he, _, _, _, hback⟩ | hsettled := h.sockets x
    · exact absurd he hinitiator
    · simpa [step, hf, hforth] using hquiet (.processHandshake x)
    · simpa [step, he, hback] using hquiet (.receiveHandshakeAck x)
    · exact hsettled
  have hend : Settled (s.ends x n) := by
    cases eq_or_eq_other x n with
    | inl hn => exact hn ▸ hsettled.1
    | inr hn => exact hn ▸ hsettled.2
  cases hn : s.ends x n with
  | idle => exact absurd hn hend.1
  | awaiting => exact absurd hn hend.2
  | ready peerId listenPort =>
    have hstuck := hquiet (.register x n "" 0)
    simp only [step, hn] at hstuck
    split at hstuck <;> exact absurd hstuck nofun
  | dropping => simpa [step, hn] using hquiet (.drop x n)
  | dropped => exact .inr rfl
  | registered peerId generation => exact .inl ⟨peerId, generation, rfl⟩

theorem afterHandshake_ne_dropped (result : Except NetworkError (PeerId × UInt16 × InternalMessage)) :
    afterHandshake result ≠ .dropped := by
  cases result <;> nofun

/-- A step changes at most one end, and drops it only by a `drop` or because the other end of the
socket is dropped. -/
theorem step_ends {a : Action} (hstep : s.step a = some s') :
    s'.ends = s.ends ∨ ∃ x n e, (∀ y m, s'.ends y m = if y = x ∧ m = n then e else s.ends y m) ∧
      s.ends x n ≠ .dropped ∧ (e = .dropped → a = .drop x n ∨ s.ends x n.other = .dropped) := by
  rcases step_cases hstep with ⟨x, hidle, rfl⟩ | ⟨x, msg, rest, hidle, hmsg, rfl⟩ |
    ⟨x, msg, rest, hwaiting, hmsg, rfl⟩ | ⟨x, n, _, _, _, _, _, hready, _, rfl⟩ |
    ⟨x, n, _, _, hready, rfl⟩ | ⟨x, n, rfl, hdropping, rfl⟩ | ⟨x, n, _, _, rest, _, rfl⟩ |
    ⟨x, n, peerId, _, hopen, hother, rfl⟩
  · exact .inr ⟨x, x, _, fun _ _ => rfl, by simp [hidle], nofun⟩
  · exact .inr ⟨x, x.other, _, fun _ _ => rfl, by simp [hidle],
      fun h => absurd h (afterHandshake_ne_dropped _)⟩
  · exact .inr ⟨x, x, _, fun _ _ => rfl, by simp [hwaiting],
      fun h => absurd h (afterHandshake_ne_dropped _)⟩
  · exact .inr ⟨x, n, _, fun _ _ => rfl, by simp [hready], nofun⟩
  · exact .inr ⟨x, n, _, fun _ _ => rfl, by simp [hready], nofun⟩
  · exact .inr ⟨x, n, _, fun _ _ => rfl, by simp [hdropping], fun _ => .inl rfl⟩
  · exact .inl rfl
  · exact .inr ⟨x, n, _, fun _ _ => rfl, by simp [hopen], fun _ => .inr hother⟩

def Dropped (s : Duplex) (socket : Host) : Prop := ∃ host, s.ends socket host = .dropped

theorem dropped_step {a : Action} (hstep : s.step a = some s') (h : Dropped s x) : Dropped s' x := by
  obtain ⟨n, hn⟩ := h
  cases step_ends hstep with
  | inl hsame => exact ⟨n, by rw [hsame, hn]⟩
  | inr hset =>
    obtain ⟨y, m, e, hends, hbefore, _⟩ := hset
    refine ⟨n, ?_⟩
    rw [hends, if_neg, hn]
    rintro ⟨rfl, rfl⟩
    exact hbefore hn

theorem dropped_run {acts : List Action} (hrun : run step s acts = some s') (h : Dropped s x) :
    Dropped s' x :=
  invariant (P := fun _ _ => True) (fun _ _ _ h _ hstep => dropped_step hstep h) h
    (along_of_forall (fun _ _ => trivial) _ acts) hrun

theorem dropped_of_drop (hstep : s.step (.drop x n) = some s') : Dropped s' x := by
  simp only [step] at hstep
  split at hstep
  · obtain rfl := Option.some.inj hstep
    exact ⟨n, by simp [Duplex.setEnd]⟩
  · exact absurd hstep nofun

theorem dropped_of_step {a : Action} (hstep : s.step a = some s') (h : Dropped s' x) :
    Dropped s x ∨ ∃ n, a = .drop x n := by
  obtain ⟨n, hn⟩ := h
  cases step_ends hstep with
  | inl hsame => exact .inl ⟨n, by rw [← hsame, hn]⟩
  | inr hset =>
    obtain ⟨y, m, e, hends, _, he⟩ := hset
    rw [hends] at hn
    split at hn
    · rename_i heq
      obtain ⟨rfl, rfl⟩ := heq
      cases he hn with
      | inl hdrop => exact .inr ⟨n, hdrop⟩
      | inr hother => exact .inl ⟨n.other, hother⟩
    · exact .inl ⟨n, hn⟩

theorem intact_iff : s.Intact (.drop x n) ↔ ¬ Dropped s x.other := by
  constructor
  · rintro ⟨ha, hb⟩ ⟨m, hm⟩
    cases m with
    | a => exact ha hm
    | b => exact hb hm
  · intro h
    exact ⟨fun ha => h ⟨.a, ha⟩, fun hb => h ⟨.b, hb⟩⟩

/-- As long as every drop finds the other socket in place, one socket is never dropped. -/
theorem not_both_dropped {acts : List Action} (hintact : Along step Intact (start initial) acts)
    (hrun : run step (start initial) acts = some s) : ∃ x, ¬ Dropped s x := by
  refine invariant (I := fun s => ∃ x, ¬ Dropped s x) ?_ ⟨.a, ?_⟩ hintact hrun
  · rintro s a s' ⟨x, hx⟩ ha hstep
    by_cases hdrop : ∃ n, a = .drop x n
    · obtain ⟨n, rfl⟩ := hdrop
      refine ⟨x.other, fun hother => ?_⟩
      cases dropped_of_step hstep hother with
      | inl hbefore => exact intact_iff.mp ha hbefore
      | inr hsame =>
        obtain ⟨m, hm⟩ := hsame
        exact other_ne x (Action.drop.inj hm).1.symm
    · exact ⟨x, fun h => (dropped_of_step hstep h).elim hx hdrop⟩
  · rintro ⟨m, hm⟩
    exact absurd hm nofun

theorem Sound.over (h : Sound initial s) {peerId : PeerId} {generation : Nat}
    (hopen : s.ends x n = .registered peerId generation) : s.Over x n := by
  obtain ⟨_, conn, hconn, hgen⟩ := (h.hosts n).opened x peerId generation hopen
  refine ⟨peerId, generation, conn, hopen, ?_, hgen⟩
  rw [(h.same n.other).localPeerId]
  exact hconn

/-- When nothing more can happen, the nodes have a common connection exactly if no socket was
dropped after the other one. -/
theorem linked_iff_intact (initial : Host → TransportManager)
    (hsession : (initial .a).sessionId = (initial .b).sessionId) (acts : List Action)
    (hrun : run step (start initial) acts = some s) (hquiet : ∀ a, s.step a = none) :
    s.Linked ↔ Along step Intact (start initial) acts := by
  have hsessions : ∀ x y, (initial x).sessionId = (initial y).sessionId := by
    intro x y
    cases x <;> cases y <;> simp [hsession]
  have hsound := sound_run hsessions hrun
  constructor
  · rintro ⟨c, hover⟩
    by_contra hnot
    obtain ⟨front, a, back, m, rfl, hfront, _, ha⟩ := exists_first_failure hnot
    obtain ⟨m', hfront', hback⟩ := run_append_iff.mp hrun
    obtain rfl : m = m' := Option.some.inj (hfront.symm.trans hfront')
    obtain ⟨next, hstep, hrest⟩ := run_cons_iff.mp hback
    have hdropped : ∀ x, Dropped s x := by
      cases a with
      | drop x n =>
        rw [intact_iff, not_not] at ha
        intro y
        cases eq_or_eq_other x y with
        | inl hy => exact hy ▸ dropped_run hrest (dropped_of_drop hstep)
        | inr hy => exact hy ▸ dropped_run hrest (dropped_step hstep ha)
      | connect | processHandshake | receiveHandshakeAck | register | read | endOfStream =>
        exact absurd trivial ha
    obtain ⟨n, hn⟩ := hdropped c
    cases n with
    | a =>
      obtain ⟨_, _, _, hopen, _⟩ := hover.1
      simp [hn] at hopen
    | b =>
      obtain ⟨_, _, _, hopen, _⟩ := hover.2
      simp [hn] at hopen
  · intro hintact
    obtain ⟨x, hx⟩ := not_both_dropped hintact hrun
    have hopen : ∀ n, s.Over x n := by
      intro n
      cases hsound.final hquiet x n with
      | inl hregistered =>
        obtain ⟨peerId, generation, hregistered⟩ := hregistered
        exact hsound.over hregistered
      | inr hdropped => exact absurd ⟨n, hdropped⟩ hx
    exact ⟨x, hopen .a, hopen .b⟩

def strangers : Host → TransportManager
  | .a => .new ⟨"a"⟩ "session" 4001 true
  | .b => .new ⟨"b"⟩ "session" 4002 true

/-- Node `a` is through with its socket before node `b` begins. -/
def oneAfterTheOther : List Action :=
  [.connect .a, .processHandshake .a, .register .a .b "10.0.0.1" 0, .receiveHandshakeAck .a,
    .register .a .a "10.0.0.2" 1, .connect .b, .processHandshake .b, .drop .b .a,
    .receiveHandshakeAck .b, .drop .b .b]

/-- Both nodes accept, and each then registers its own socket first. -/
def crossing : List Action :=
  [.connect .a, .connect .b, .processHandshake .a, .processHandshake .b, .receiveHandshakeAck .a,
    .receiveHandshakeAck .b, .register .a .a "10.0.0.2" 0, .register .b .b "10.0.0.1" 0,
    .register .a .b "10.0.0.1" 1, .register .b .a "10.0.0.2" 1, .drop .a .b, .drop .b .a,
    .endOfStream .a .a, .endOfStream .b .b]

theorem linked_one_after_the_other :
    ∃ s, run step (start strangers) oneAfterTheOther = some s ∧ (∀ a, s.step a = none) ∧ s.Linked := by
  obtain ⟨s, hrun, hquiet⟩ : ∃ s, run step (start strangers) oneAfterTheOther = some s ∧
      ∀ a, s.step a = none := by
    refine ⟨_, rfl, ?_⟩
    intro a
    cases a with
    | connect x => cases x <;> rfl
    | processHandshake x => cases x <;> rfl
    | receiveHandshakeAck x => cases x <;> rfl
    | register x n peerIp now => cases x <;> cases n <;> rfl
    | drop x n => cases x <;> cases n <;> rfl
    | read x n => cases x <;> cases n <;> rfl
    | endOfStream x n => cases x <;> cases n <;> rfl
  exact ⟨s, hrun, hquiet, (linked_iff_intact strangers rfl oneAfterTheOther hrun hquiet).mpr (by decide)⟩

theorem crossing_leaves_no_connection :
    ∃ s, run step (start strangers) crossing = some s ∧ (∀ a, s.step a = none) ∧ ¬ s.Linked ∧
      ∀ n, (s.transports n).connections.lookup (s.transports n.other).localPeerId = none := by
  obtain ⟨s, hrun, hquiet, hempty⟩ : ∃ s, run step (start strangers) crossing = some s ∧
      (∀ a, s.step a = none) ∧
      ∀ n, (s.transports n).connections.lookup (s.transports n.other).localPeerId = none := by
    refine ⟨_, rfl, ?_, ?_⟩
    · intro a
      cases a with
      | connect x => cases x <;> rfl
      | processHandshake x => cases x <;> rfl
      | receiveHandshakeAck x => cases x <;> rfl
      | register x n peerIp now => cases x <;> cases n <;> rfl
      | drop x n => cases x <;> cases n <;> rfl
      | read x n => cases x <;> cases n <;> rfl
      | endOfStream x n => cases x <;> cases n <;> rfl
    · intro n
      cases n <;> decide
  refine ⟨s, hrun, hquiet, ?_, hempty⟩
  rintro ⟨c, ⟨_, _, _, _, hentry, _⟩, _⟩
  simp [hempty] at hentry

end Duplex

end MetaMystia

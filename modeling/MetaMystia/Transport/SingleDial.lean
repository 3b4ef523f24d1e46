import MetaMystia.Transport.LinkIdentity

/-! # When each pair of nodes is dialled once

Discovery lets only the node with the smaller id dial. If every pair opens one socket
at most, neither duplicate check of a handshake ever fails, whatever the nodes do at
the same time: each socket ends as a link, and its two ends are the entries of the
two nodes for each other.
-/

namespace MetaMystia

open Runs TransportManager

universe u

variable {ι : Type u} {id : ι → PeerId} {session : ι → String} {version : ι → UInt16}
  {transports : ι → TransportManager}

namespace Socket

/-- The socket is between the two nodes, whichever of them opened it. -/
def Joins (s : Socket ι) (a b : ι) : Prop :=
  (s.owner .initiator = a ∧ s.owner .acceptor = b) ∨ (s.owner .acceptor = a ∧ s.owner .initiator = b)

instance [DecidableEq ι] (s : Socket ι) (a b : ι) : Decidable (s.Joins a b) :=
  inferInstanceAs (Decidable (_ ∨ _))

def Known (e : SocketEnd) : Prop := e.peer ≠ none

/-- The handshake is asked, answered or over, and nothing has gone wrong. -/
structure Underway (id : ι → PeerId) (s : Socket ι) : Prop where
  whole : s.broken = false
  apart : s.owner .initiator ≠ s.owner .acceptor
  phase : (s.ends .initiator = .awaiting ∧ s.ends .acceptor = .idle ∧ s.wire .acceptor ≠ []) ∨
    (s.ends .initiator = .awaiting ∧ Known (s.ends .acceptor) ∧ ∃ port more,
      s.wire .initiator = .handshakeAck (id (s.owner .acceptor)) port true none :: more) ∨
    (Known (s.ends .initiator) ∧ Known (s.ends .acceptor))

variable {s t : Socket ι}

theorem Joins.symm {a b : ι} (h : s.Joins a b) : s.Joins b a := by
  obtain ⟨ha, hb⟩ | ⟨ha, hb⟩ := h
  · exact .inr ⟨hb, ha⟩
  · exact .inl ⟨hb, ha⟩

theorem joins_owner (s : Socket ι) (side : Side) : s.Joins (s.owner side) (s.owner side.other) := by
  cases side with
  | initiator => exact .inl ⟨rfl, rfl⟩
  | acceptor => exact .inr ⟨rfl, rfl⟩

theorem Underway.owner_ne (h : Underway id s) (side : Side) : s.owner side ≠ s.owner side.other := by
  cases side with
  | initiator => exact h.apart
  | acceptor => exact h.apart.symm

theorem ends_setEnd_self (s : Socket ι) (side : Side) (e : SocketEnd) : (s.setEnd side e).ends side = e :=
  Function.update_self ..

theorem ends_setEnd_of_ne (s : Socket ι) {side side' : Side} (h : side' ≠ side) (e : SocketEnd) :
    (s.setEnd side e).ends side' = s.ends side' :=
  Function.update_of_ne h ..

theorem wire_setWire_of_ne (s : Socket ι) {side side' : Side} (h : side' ≠ side)
    (msgs : List InternalMessage) : (s.setWire side msgs).wire side' = s.wire side' :=
  Function.update_of_ne h ..

/-- An end that still waits is not dropped, and neither is one that knows its peer. -/
theorem Underway.not_dropped (h : Underway id s) (side : Side) :
    s.ends side ≠ .dropping ∧ s.ends side ≠ .dropped := by
  have hknown : ∀ e : SocketEnd, Known e → e ≠ .dropping ∧ e ≠ .dropped := by
    rintro e he
    exact ⟨fun hno => he (by rw [hno]; rfl), fun hno => he (by rw [hno]; rfl)⟩
  obtain ⟨hawaiting, hidle, _⟩ | ⟨hawaiting, hacceptor, _⟩ | ⟨hinitiator, hacceptor⟩ := h.phase
  · cases side with
    | initiator => simp [hawaiting]
    | acceptor => simp [hidle]
  · cases side with
    | initiator => simp [hawaiting]
    | acceptor => exact hknown _ hacceptor
  · cases side with
    | initiator => exact hknown _ hinitiator
    | acceptor => exact hknown _ hacceptor

/-- An end that knows its peer goes on knowing it. -/
theorem Underway.setEnd (h : Underway id s) {side : Side} {e : SocketEnd} (hbefore : Known (s.ends side))
    (hafter : Known e) : Underway id (s.setEnd side e) := by
  refine ⟨h.whole, h.apart, ?_⟩
  cases side with
  | initiator =>
    obtain ⟨hawaiting, _⟩ | ⟨hawaiting, _⟩ | ⟨_, hacceptor⟩ := h.phase
    · exact absurd (by rw [hawaiting]; rfl) hbefore
    · exact absurd (by rw [hawaiting]; rfl) hbefore
    · refine .inr (.inr ⟨?_, ?_⟩)
      · rwa [ends_setEnd_self]
      · rwa [ends_setEnd_of_ne s (by simp)]
  | acceptor =>
    obtain ⟨_, hidle, _⟩ | ⟨hawaiting, _, hwire⟩ | ⟨hinitiator, _⟩ := h.phase
    · exact absurd (by rw [hidle]; rfl) hbefore
    · refine .inr (.inl ⟨?_, ?_, hwire⟩)
      · rwa [ends_setEnd_of_ne s (by simp)]
      · rwa [ends_setEnd_self]
    · refine .inr (.inr ⟨?_, ?_⟩)
      · rwa [ends_setEnd_of_ne s (by simp)]
      · rwa [ends_setEnd_self]

/-- The acceptor finds no entry for the initiator. -/
theorem Underway.processHandshake (h : Underway id s) (hsound : Sound id session version s)
    (hsame : SameNodes id session transports) (hroom : ∀ a b, SameRoom session version a b)
    (hnew : s.ends .acceptor = .idle →
      id (s.owner .initiator) ∉ (transports (s.owner .acceptor)).connections)
    (hstep : s.step version transports .processHandshake = some t) : Underway id t := by
  simp only [step] at hstep
  split at hstep
  · next msg rest _ hidle hwire =>
    obtain ⟨hback, _, hforth⟩ := hsound.asked hidle
    obtain ⟨port, rfl⟩ := hforth msg (hwire ▸ List.mem_cons_self)
    obtain ⟨hid, hsession⟩ := hsame (s.owner .acceptor)
    obtain ⟨hrooms, hversions⟩ := hroom (s.owner .initiator) (s.owner .acceptor)
    rw [hversions, hrooms, ← hsession] at hstep
    obtain ⟨hmem, _⟩ | ⟨more, result, heq⟩ := processHandshakeMessageAt_same
      (transports (s.owner .acceptor)) (id (s.owner .initiator)) port (version (s.owner .acceptor))
    · exact absurd hmem (hnew hidle)
    · rw [heq] at hstep
      cases hstep
      refine ⟨h.whole, h.apart, .inr (.inl ⟨?_, ?_, ?_⟩)⟩
      · obtain ⟨hawaiting, _⟩ | ⟨hawaiting, _⟩ | ⟨_, hknown⟩ := h.phase
        · simpa [setWire, Socket.setEnd] using hawaiting
        · simpa [setWire, Socket.setEnd] using hawaiting
        · exact absurd (by rw [hidle]; rfl) hknown
      · obtain ⟨peerId, listenPort, notify⟩ := result
        simp [setWire, Socket.setEnd, Duplex.afterHandshake, Known, SocketEnd.peer]
      · refine ⟨(transports (s.owner .acceptor)).listenPort, more, ?_⟩
        simp [setWire, Socket.setEnd, hback, handshakeAck, hid]
  · cases hstep

theorem Underway.receiveHandshakeAck (h : Underway id s)
    (hstep : s.step version transports .receiveHandshakeAck = some t) (hsound : Sound id session version s) :
    Underway id t := by
  simp only [step] at hstep
  split at hstep
  · next msg rest _ hawaiting hwire =>
    obtain ⟨_, hidle, _⟩ | ⟨_, hacceptor, port, more, hack⟩ | ⟨hknown, _⟩ := h.phase
    · rw [(hsound.asked hidle).1] at hwire
      cases hwire
    · obtain ⟨rfl, rfl⟩ := List.cons.inj (hwire.symm.trans hack)
      cases hstep
      refine ⟨h.whole, h.apart, .inr (.inr ⟨?_, ?_⟩)⟩
      · simp [setWire, Socket.setEnd, TransportManager.receiveHandshakeAck, Duplex.afterHandshake, Known,
          SocketEnd.peer]
      · simpa [setWire, Socket.setEnd] using hacceptor
    · exact absurd (by rw [hawaiting]; rfl) hknown
  · cases hstep

theorem Underway.send (h : Underway id s) {side : Side} (hknown : Known (s.ends side))
    (msg : InternalMessage) : Underway id (s.setWire side.other (s.wire side.other ++ [msg])) := by
  refine ⟨h.whole, h.apart, ?_⟩
  obtain ⟨hawaiting, hidle, _⟩ | ⟨hawaiting, hacceptor, port, more, hack⟩ | hmet := h.phase
  · cases side with
    | initiator => exact absurd (by rw [hawaiting]; rfl) hknown
    | acceptor => exact absurd (by rw [hidle]; rfl) hknown
  · cases side with
    | initiator => exact absurd (by rw [hawaiting]; rfl) hknown
    | acceptor =>
      refine .inr (.inl ⟨hawaiting, hacceptor, port, more ++ [msg], ?_⟩)
      simp [setWire, Side.other, hack]
  · exact .inr (.inr hmet)

theorem Underway.read (h : Underway id s) {side : Side} (hknown : Known (s.ends side))
    (msgs : List InternalMessage) : Underway id (s.setWire side msgs) := by
  refine ⟨h.whole, h.apart, ?_⟩
  obtain ⟨hawaiting, hidle, _⟩ | ⟨hawaiting, hacceptor, hack⟩ | hmet := h.phase
  · cases side with
    | initiator => exact absurd (by rw [hawaiting]; rfl) hknown
    | acceptor => exact absurd (by rw [hidle]; rfl) hknown
  · cases side with
    | initiator => exact absurd (by rw [hawaiting]; rfl) hknown
    | acceptor =>
      refine .inr (.inl ⟨hawaiting, hacceptor, ?_⟩)
      rwa [wire_setWire_of_ne s (by simp)]
  · exact .inr (.inr hmet)

/-- Nothing is given up and no socket breaks. -/
def Steady : SocketAction → Prop
  | .giveUp _ | .breakSocket => False
  | _ => True

instance : (action : SocketAction) → Decidable (Steady action)
  | .giveUp _ | .breakSocket => .isFalse fun h => h
  | .processHandshake | .receiveHandshakeAck | .drop _ | .send .. | .read _ => .isTrue trivial

theorem Underway.step (h : Underway id s) (hsound : Sound id session version s)
    (hsame : SameNodes id session transports) (hroom : ∀ a b, SameRoom session version a b)
    (hnew : s.ends .acceptor = .idle →
      id (s.owner .initiator) ∉ (transports (s.owner .acceptor)).connections)
    {action : SocketAction} (haction : Steady action) (hstep : s.step version transports action = some t) :
    Underway id t := by
  cases action with
  | processHandshake => exact h.processHandshake hsound hsame hroom hnew hstep
  | receiveHandshakeAck => exact h.receiveHandshakeAck hstep hsound
  | giveUp side => exact absurd haction (fun h => h)
  | drop side =>
    simp only [Socket.step] at hstep
    split at hstep
    · next hdropping => exact absurd hdropping (h.not_dropped side).1
    · cases hstep
  | send side msg =>
    simp only [Socket.step, h.whole, Bool.false_eq_true, if_false] at hstep
    split at hstep
    · next peerId hpeer =>
      cases hstep
      exact h.send (by simp [Known, hpeer]) msg
    · cases hstep
  | read side =>
    simp only [Socket.step] at hstep
    split at hstep
    · next hregistered _ =>
      cases hstep
      exact h.read (by simp [Known, hregistered, SocketEnd.peer]) _
    · cases hstep
  | breakSocket => exact absurd haction (fun h => h)

end Socket

namespace Network

/-- Every socket is on its way to be a link, and registered ends are entries. -/
structure Dialling (id : ι → PeerId) (s : Network ι) : Prop where
  underway : ∀ (i : Nat) (socket : Socket ι), s.sockets[i]? = some socket → socket.Underway id
  alone : ∀ (i j : Nat) (x y : Socket ι) (a b : ι), s.sockets[i]? = some x → s.sockets[j]? = some y →
    x.Joins a b → y.Joins a b → i = j
  entered : ∀ a peerId generation b, s.EndAt a peerId generation b →
    ∃ conn, (s.transports a).connections.lookup peerId = some conn ∧ conn.controlCancel = generation
  running : ∀ a generation, (s.transports a).isCancelled (.control generation) = false

variable {s t : Network ι} {a b : ι}

/-- An entry for the owner of the other end is over this very socket, registered at this end. -/
theorem Dialling.registered_of_mem (h : Dialling id s) (hids : Function.Injective id)
    (hs : Isolated id session version s) {i : Nat} {socket : Socket ι} (hi : s.sockets[i]? = some socket)
    {side : Side} (hmem : id (socket.owner side.other) ∈ (s.transports (socket.owner side)).connections) :
    ∃ peerId generation, socket.ends side = .registered peerId generation := by
  obtain ⟨conn, hconn⟩ := Assoc.exists_lookup_of_mem hmem
  obtain ⟨c, j, side', other, hj, hself, hother, hregistered⟩ := hs.entries _ _ conn hconn
  have hpeer : id (other.owner side'.other) = id (socket.owner side.other) :=
    ((hs.sockets j other hj).known side' _ (by rw [hregistered]; rfl)).1.symm
  have hjoins : other.Joins (socket.owner side) (socket.owner side.other) := by
    rw [← hself, ← hids hpeer]
    exact other.joins_owner side'
  obtain rfl : j = i := h.alone j i other socket _ _ hj hi hjoins (socket.joins_owner side)
  obtain rfl : other = socket := Option.some.inj (hj.symm.trans hi)
  by_cases hside : side' = side
  · exact ⟨_, _, hside ▸ hregistered⟩
  · have hcross : side' = side.other := by cases side <;> cases side' <;> simp_all [Side.other]
    rw [hcross] at hself
    exact absurd hself.symm ((h.underway j other hj).owner_ne side)

/-- A write that keeps the owners keeps each socket the only one between its nodes. -/
theorem Dialling.alone_set (h : Dialling id s) {i : Nat} {old socket : Socket ι}
    (hi : s.sockets[i]? = some old) (howner : socket.owner = old.owner) (j k : Nat) (x y : Socket ι)
    (a b : ι) (hx : (s.sockets.set i socket)[j]? = some x) (hy : (s.sockets.set i socket)[k]? = some y)
    (hjoins : x.Joins a b) (hjoins' : y.Joins a b) : j = k := by
  have hslots : ∀ (j : Nat) (x : Socket ι), (s.sockets.set i socket)[j]? = some x →
      ∃ y : Socket ι, s.sockets[j]? = some y ∧ x.owner = y.owner :=
    Slots.forall_set ⟨old, hi, howner⟩ fun j x _ hx => ⟨x, hx, rfl⟩
  obtain ⟨x', hx', hsame⟩ := hslots j x hx
  obtain ⟨y', hy', hsame'⟩ := hslots k y hy
  refine h.alone j k x' y' a b hx' hy' ?_ ?_
  · rwa [Socket.Joins, ← hsame]
  · rwa [Socket.Joins, ← hsame']

/-- A step that registers nothing and keeps what identifies sockets and entries. -/
theorem Dialling.setSocket (h : Dialling id s) {i : Nat} {old socket : Socket ι}
    (hi : s.sockets[i]? = some old) (hunderway : socket.Underway id) (howner : socket.owner = old.owner)
    (hends : ∀ side peerId generation, socket.ends side = .registered peerId generation ↔
      old.ends side = .registered peerId generation) : Dialling id (s.setSocket i socket) := by
  refine ⟨Slots.forall_set hunderway fun j x _ => h.underway j x, h.alone_set hi howner, ?_, h.running⟩
  intro a peerId generation b hend
  obtain hold | ⟨side, ha, hb, hregistered⟩ := hend.of_setSocket
  · exact h.entered a peerId generation b hold
  · rw [howner] at ha hb
    exact h.entered a peerId generation b ⟨i, side, old, hi, ha, hb, (hends _ _ _).mp hregistered⟩

/-- The end's own node has no entry for the peer yet. -/
theorem Dialling.not_mem_of_ready (h : Dialling id s) (hids : Function.Injective id)
    (hs : Isolated id session version s) {i : Nat} {socket : Socket ι} (hi : s.sockets[i]? = some socket)
    {side : Side} {peerId : PeerId} {port : UInt16} (hready : socket.ends side = .ready peerId port) :
    peerId ∉ (s.transports (socket.owner side)).connections := by
  intro hmem
  obtain ⟨rfl, _⟩ := (hs.sockets i socket hi).known side peerId (by rw [hready]; rfl)
  obtain ⟨p, generation, hregistered⟩ := h.registered_of_mem hids hs hi hmem
  rw [hready] at hregistered
  cases hregistered

/-- An acceptor that has not answered belongs to a node with no entry for the initiator. -/
theorem Dialling.not_mem_of_idle (h : Dialling id s) (hids : Function.Injective id)
    (hs : Isolated id session version s) {i : Nat} {socket : Socket ι} (hi : s.sockets[i]? = some socket)
    (hidle : socket.ends .acceptor = .idle) :
    id (socket.owner .initiator) ∉ (s.transports (socket.owner .acceptor)).connections := by
  intro hmem
  have hmem' : id (socket.owner (Side.other .acceptor)) ∈
      (s.transports (socket.owner .acceptor)).connections := hmem
  obtain ⟨p, generation, hregistered⟩ := h.registered_of_mem hids hs hi hmem'
  rw [hidle] at hregistered
  cases hregistered

theorem dialling_start {listenPort : ι → UInt16} {autoReconnect : ι → Bool} :
    Dialling id (start id session listenPort autoReconnect) := by
  refine ⟨nofun, nofun, ?_, fun _ _ => rfl⟩
  rintro a peerId generation b ⟨i, side, socket, hi, _⟩
  cases hi

/-- The read task of this end leaves its loop: the stream has ended or its token is cancelled. -/
def mayEnd (s : Network ι) (i : Nat) (side : Side) : Bool :=
  match s.sockets[i]? with
  | some socket =>
    match socket.ends side with
    | .registered _ generation => socket.broken || socket.ends side.other == .dropped ||
        (s.transports (socket.owner side)).isCancelled (.control generation)
    | _ => false
  | none => false

/-- No stream has ended, so no read task does. -/
theorem Dialling.mayEnd_eq_false (h : Dialling id s) (i : Nat) (side : Side) : s.mayEnd i side = false := by
  unfold mayEnd
  split
  · next socket hi =>
    have hunderway := h.underway i socket hi
    split
    · have hother := (hunderway.not_dropped side.other).2
      simp [hunderway.whole, hother, h.running]
    · rfl
  · rfl

/-- Two nodes are joined by one socket at most, no read task ends on its own, and nothing is given
up, disconnected or shut down. -/
def Calm (s : Network ι) : Action ι → Prop
  | .connect a b => a ≠ b ∧ ∀ socket ∈ s.sockets, ¬ socket.Joins a b
  | .socket _ action => Socket.Steady action
  | .cleanup i side => s.mayEnd i side = true
  | .disconnectPeer .. | .cancelShutdownToken _ | .shutdown _ => False
  | _ => True

instance [DecidableEq ι] (s : Network ι) : (a : Action ι) → Decidable (s.Calm a)
  | .connect .. => inferInstanceAs (Decidable (_ ∧ _))
  | .socket _ action => inferInstanceAs (Decidable (Socket.Steady action))
  | .cleanup .. => inferInstanceAs (Decidable (_ = _))
  | .disconnectPeer .. | .cancelShutdownToken _ | .shutdown _ => .isFalse fun h => h
  | .register .. | .registerDataChannel .. => .isTrue trivial

/-- Each end of the socket is the entry of its node for the node at the other end. -/
def Linked (id : ι → PeerId) (s : Network ι) (socket : Socket ι) : Prop :=
  ∀ side, ∃ conn, (s.transports (socket.owner side)).connections.lookup (id (socket.owner side.other)) =
      some conn ∧
    socket.ends side = .registered (id (socket.owner side.other)) conn.controlCancel

/-- The nodes a node has an entry for are those it shares a socket with, once both ends are up. -/
theorem mem_connections_iff (hids : Function.Injective id) (hs : Isolated id session version s)
    (hlinked : ∀ socket ∈ s.sockets, Linked id s socket) (a b : ι) :
    id b ∈ (s.transports a).connections ↔ ∃ socket ∈ s.sockets, socket.Joins a b := by
  constructor
  · intro hmem
    obtain ⟨conn, hconn⟩ := Assoc.exists_lookup_of_mem hmem
    obtain ⟨c, i, side, socket, hi, rfl, rfl, hregistered⟩ := hs.entries _ _ conn hconn
    obtain ⟨hpeer, _⟩ := (hs.sockets i socket hi).known side _ (by rw [hregistered]; rfl)
    rw [hids hpeer]
    exact ⟨socket, List.mem_of_getElem? hi, socket.joins_owner side⟩
  · rintro ⟨socket, hmem, hjoins⟩
    obtain ⟨side, rfl, rfl⟩ : ∃ side, socket.owner side = a ∧ socket.owner side.other = b := by
      obtain ⟨ha, hb⟩ | ⟨ha, hb⟩ := hjoins
      · exact ⟨.initiator, ha, hb⟩
      · exact ⟨.acceptor, ha, hb⟩
    obtain ⟨conn, hconn, _⟩ := hlinked socket hmem side
    exact AList.lookup_isSome.mp (by simp [hconn])

variable [DecidableEq ι]

theorem Dialling.connect (h : Dialling id s) (hne : a ≠ b)
    (hfirst : ∀ socket ∈ s.sockets, ¬ socket.Joins a b)
    (hstep : s.step version (.connect a b) = some t) : Dialling id t := by
  cases hstep
  refine ⟨?_, ?_, ?_, h.running⟩
  · refine Slots.forall_concat ?_ h.underway
    exact ⟨rfl, hne, .inl ⟨rfl, rfl, by simp⟩⟩
  · intro i j x y c d hx hy hjoins hjoins'
    obtain hx | ⟨hi, rfl⟩ := Slots.getElem?_concat_cases hx
    · obtain hy | ⟨hj, rfl⟩ := Slots.getElem?_concat_cases hy
      · exact h.alone i j x y c d hx hy hjoins hjoins'
      · refine absurd ?_ (hfirst x (List.mem_of_getElem? hx))
        obtain ⟨rfl, rfl⟩ | ⟨rfl, rfl⟩ := hjoins'
        · exact hjoins
        · exact hjoins.symm
    · obtain hy | ⟨hj, rfl⟩ := Slots.getElem?_concat_cases hy
      · refine absurd ?_ (hfirst y (List.mem_of_getElem? hy))
        obtain ⟨rfl, rfl⟩ | ⟨rfl, rfl⟩ := hjoins
        · exact hjoins'
        · exact hjoins'.symm
      · exact hi.trans hj.symm
  · rintro c peerId generation d ⟨i, side, x, hx, hc, hd, hregistered⟩
    obtain hx | ⟨_, rfl⟩ := Slots.getElem?_concat_cases hx
    · exact h.entered c peerId generation d ⟨i, side, x, hx, hc, hd, hregistered⟩
    · cases side <;> cases hregistered

theorem Dialling.register (h : Dialling id s) (hids : Function.Injective id)
    (hs : Isolated id session version s) {i : Nat} {side : Side} {peerIp : String} {now : Nat}
    (hstep : s.step version (.register i side peerIp now) = some t) : Dialling id t := by
  simp only [step] at hstep
  split at hstep
  · next socket hi =>
    split at hstep
    · next peerId port hready =>
      have hnew := h.not_mem_of_ready hids hs hi hready
      obtain ⟨hmem, _⟩ | ⟨_, heq⟩ := (s.transports (socket.owner side)).registerConnection_cases peerId
        (peerIp ++ ":" ++ toString port) now
      · exact absurd hmem hnew
      · simp only [heq, Option.some.injEq] at hstep
        subst hstep
        refine ⟨?_, h.alone_set hi rfl, ?_, ?_⟩
        · refine Slots.forall_set ?_ fun j x _ => h.underway j x
          exact (h.underway i socket hi).setEnd (by simp [Socket.Known, hready, SocketEnd.peer])
            (by simp [Socket.Known, SocketEnd.peer])
        · intro c p g d hend
          obtain hold | ⟨rfl, rfl, rfl, rfl⟩ := (endAt_register_iff hi hready _ c p g d).mp hend
          · obtain ⟨conn, hconn, hg⟩ := h.entered c p g d hold
            refine ⟨conn, ?_, hg⟩
            by_cases hc : c = socket.owner side
            · subst hc
              have hp : p ≠ peerId := by
                rintro rfl
                exact hnew (AList.lookup_isSome.mp (by simp [hconn]))
              simpa [AList.lookup_insert_ne hp] using hconn
            · simpa [transports_setTransport_of_ne _ hc] using hconn
          · simp
        · exact s.forall_setTransport (fun _ m => ∀ generation, m.isCancelled (.control generation) = false)
            (h.running _) fun c _ => h.running c
    · cases hstep
  · cases hstep

theorem Dialling.registerDataChannel (h : Dialling id s) (a : ι) (peerId : PeerId) :
    Dialling id (s.setTransport a ((s.transports a).registerDataChannel peerId)) := by
  refine ⟨h.underway, h.alone, ?_, ?_⟩
  · intro c p g d hend
    obtain ⟨conn, hconn, hg⟩ := h.entered c p g d hend
    by_cases hc : c = a
    · subst hc
      have hlookup := (s.transports c).registerDataChannel_lookup peerId p
      rw [hconn] at hlookup
      obtain ⟨conn', hconn', hg'⟩ := Option.map_eq_some_iff.mp hlookup
      exact ⟨conn', by simpa using hconn', hg'.trans hg⟩
    · exact ⟨conn, by simpa [transports_setTransport_of_ne _ hc] using hconn, hg⟩
  · refine s.forall_setTransport (fun _ m => ∀ generation, m.isCancelled (.control generation) = false)
      ?_ fun c _ => h.running c
    intro generation
    rw [registerDataChannel_isCancelled]
    exact h.running a generation

theorem Dialling.step (h : Dialling id s) (hids : Function.Injective id)
    (hroom : ∀ a b, Socket.SameRoom session version a b) (hs : Isolated id session version s)
    {action : Action ι} (hcalm : s.Calm action) (hstep : s.step version action = some t) :
    Dialling id t := by
  cases action with
  | connect a b => exact h.connect hcalm.1 hcalm.2 hstep
  | socket i action =>
    simp only [Network.step] at hstep
    split at hstep
    · next socket hi =>
      obtain ⟨socket', hsocket, rfl⟩ := Option.map_eq_some_iff.mp hstep
      obtain ⟨howner, hends⟩ := Socket.step_registered hsocket
      refine h.setSocket hi ?_ howner hends
      exact (h.underway i socket hi).step (hs.sockets i socket hi) hs.same hroom
        (h.not_mem_of_idle hids hs hi) hcalm hsocket
    · cases hstep
  | register i side peerIp now => exact h.register hids hs hstep
  | cleanup i side =>
    rw [Calm, h.mayEnd_eq_false] at hcalm
    cases hcalm
  | registerDataChannel a peerId =>
    cases hstep
    exact h.registerDataChannel a peerId
  | disconnectPeer a peerId fits => exact absurd hcalm (fun h => h)
  | cancelShutdownToken a => exact absurd hcalm (fun h => h)
  | shutdown a => exact absurd hcalm (fun h => h)

/-- No handshake task and no registration has a step to take. -/
def Quiet (version : ι → UInt16) (s : Network ι) : Prop :=
  ∀ i, s.step version (.socket i .processHandshake) = none ∧
    s.step version (.socket i .receiveHandshakeAck) = none ∧
    ∀ side peerIp now, s.step version (.register i side peerIp now) = none

theorem Quiet.not_ready (h : s.Quiet version) {i : Nat} {socket : Socket ι} (hi : s.sockets[i]? = some socket)
    (side : Side) (peerId : PeerId) (port : UInt16) : socket.ends side ≠ .ready peerId port := by
  intro hready
  have hstuck := (h i).2.2 side "" 0
  simp only [Network.step, hi, hready] at hstuck
  split at hstuck <;> cases hstuck

/-- The handshake tasks of a socket that is underway can always go on to the end. -/
theorem Dialling.registered (h : Dialling id s) (hquiet : s.Quiet version) {i : Nat} {socket : Socket ι}
    (hi : s.sockets[i]? = some socket) (side : Side) :
    ∃ peerId generation, socket.ends side = .registered peerId generation := by
  have hunderway := h.underway i socket hi
  have hmet : Socket.Known (socket.ends .initiator) ∧ Socket.Known (socket.ends .acceptor) := by
    obtain ⟨_, hidle, hwire⟩ | ⟨hawaiting, _, port, more, hwire⟩ | hmet := hunderway.phase
    · obtain ⟨msg, rest, hmsg⟩ := List.exists_cons_of_ne_nil hwire
      have hstuck := (hquiet i).1
      simp [Network.step, Socket.step, hi, hunderway.whole, hidle, hmsg] at hstuck
    · have hstuck := (hquiet i).2.1
      simp [Network.step, Socket.step, hi, hunderway.whole, hawaiting, hwire] at hstuck
    · exact hmet
  have hknown : Socket.Known (socket.ends side) := by
    cases side with
    | initiator => exact hmet.1
    | acceptor => exact hmet.2
  cases hend : socket.ends side with
  | registered peerId generation => exact ⟨peerId, generation, rfl⟩
  | ready peerId port => exact absurd hend (hquiet.not_ready hi side peerId port)
  | idle => exact absurd (by rw [hend]; rfl) hknown
  | awaiting => exact absurd (by rw [hend]; rfl) hknown
  | dropping => exact absurd (by rw [hend]; rfl) hknown
  | dropped => exact absurd (by rw [hend]; rfl) hknown

theorem Dialling.linked (h : Dialling id s) (hs : Isolated id session version s)
    (hquiet : s.Quiet version) {i : Nat} {socket : Socket ι} (hi : s.sockets[i]? = some socket) :
    Linked id s socket := by
  intro side
  obtain ⟨peerId, generation, hregistered⟩ := h.registered hquiet hi side
  obtain ⟨rfl, _⟩ := (hs.sockets i socket hi).known side peerId (by rw [hregistered]; rfl)
  obtain ⟨conn, hconn, rfl⟩ := h.entered _ _ generation _ ⟨i, side, socket, hi, rfl, rfl, hregistered⟩
  exact ⟨conn, hconn, hregistered⟩

def bothRegistered (socket : Socket ι) : Bool :=
  match socket.ends .initiator, socket.ends .acceptor with
  | .registered _ _, .registered _ _ => true
  | _, _ => false

theorem quiet_of_registered (h : s.sockets.all bothRegistered = true) : s.Quiet version := by
  have hends : ∀ (i : Nat) (socket : Socket ι), s.sockets[i]? = some socket →
      ∀ side, ∃ peerId generation, socket.ends side = .registered peerId generation := by
    intro i socket hi side
    have hboth := List.all_eq_true.mp h socket (List.mem_of_getElem? hi)
    unfold bothRegistered at hboth
    split at hboth
    · next hinitiator hacceptor =>
      cases side with
      | initiator => exact ⟨_, _, hinitiator⟩
      | acceptor => exact ⟨_, _, hacceptor⟩
    · cases hboth
  intro i
  cases hi : s.sockets[i]? with
  | none => simp [Network.step, hi]
  | some socket =>
    obtain ⟨p, g, hinitiator⟩ := hends i socket hi .initiator
    obtain ⟨q, k, hacceptor⟩ := hends i socket hi .acceptor
    refine ⟨?_, ?_, ?_⟩
    · simp [Network.step, Socket.step, hi, hacceptor]
    · simp [Network.step, Socket.step, hi, hinitiator]
    · intro side peerIp now
      obtain ⟨r, l, hend⟩ := hends i socket hi side
      simp [Network.step, hi, hend]

/-- Nodes of one session and build with distinct ids, of which no two open more than one socket:
no end is ever dropped, and once the handshakes are over each socket is a link and the entries of
a node are the nodes it has a socket with. -/
theorem single_dials_link (version : ι → UInt16) (id : ι → PeerId) (session : ι → String)
    (listenPort : ι → UInt16) (autoReconnect : ι → Bool) (acts : List (Action ι))
    (hids : Function.Injective id) (hroom : ∀ a b, Socket.SameRoom session version a b)
    (hcalm : Along (step version) Calm (start id session listenPort autoReconnect) acts)
    (hrun : run (step version) (start id session listenPort autoReconnect) acts = some s) :
    (∀ socket ∈ s.sockets, ∀ side, socket.ends side ≠ .dropping ∧ socket.ends side ≠ .dropped) ∧
    (s.Quiet version → (∀ socket ∈ s.sockets, Linked id s socket) ∧
      ∀ a b, id b ∈ (s.transports a).connections ↔ ∃ socket ∈ s.sockets, socket.Joins a b) := by
  have hboth : Isolated id session version s ∧ Dialling id s := by
    refine invariant (I := fun s => Isolated id session version s ∧ Dialling id s) ?_
      ⟨isolated_start, dialling_start⟩ hcalm hrun
    intro s action t hs hcalm hstep
    exact ⟨hs.1.step hstep, hs.2.step hids hroom hs.1 hcalm hstep⟩
  obtain ⟨hs, hdialling⟩ := hboth
  refine ⟨?_, ?_⟩
  · intro socket hmem side
    obtain ⟨i, hi⟩ := List.mem_iff_getElem?.mp hmem
    exact (hdialling.underway i socket hi).not_dropped side
  · intro hquiet
    have hlinked : ∀ socket ∈ s.sockets, Linked id s socket := by
      intro socket hmem
      obtain ⟨i, hi⟩ := List.mem_iff_getElem?.mp hmem
      exact hdialling.linked hs hquiet hi
    exact ⟨hlinked, mem_connections_iff hids hs hlinked⟩

/-- The dial of the last pair is answered while the first two are under way. -/
def trioDials : List (Action PeerId) :=
  [.connect ⟨"a"⟩ ⟨"b"⟩, .connect ⟨"a"⟩ ⟨"c"⟩, .connect ⟨"b"⟩ ⟨"c"⟩, .socket 2 .processHandshake,
    .socket 0 .processHandshake,
    .register 2 .acceptor "10.0.0.2" 0, .socket 2 .receiveHandshakeAck, .socket 1 .processHandshake,
    .register 0 .acceptor "10.0.0.1" 0, .socket 0 .receiveHandshakeAck, .register 2 .initiator "10.0.0.3" 0,
    .registerDataChannel ⟨"c"⟩ ⟨"b"⟩, .register 0 .initiator "10.0.0.2" 0, .socket 1 .receiveHandshakeAck,
    .register 1 .initiator "10.0.0.3" 0, .register 1 .acceptor "10.0.0.1" 0]

/-- Three nodes: the smaller id dials, and the handshakes of the three sockets interleave. -/
theorem three_dials_link :
    ∃ s, run (step fun _ => 1) (start (fun a => a) (fun _ => "room") (fun _ => 4000) fun _ => true)
        trioDials = some s ∧
      (∀ socket ∈ s.sockets, ∀ side, socket.ends side ≠ .dropping ∧ socket.ends side ≠ .dropped) ∧
      (∀ socket ∈ s.sockets, Linked (fun a => a) s socket) ∧
      ∀ a b, b ∈ (s.transports a).connections ↔ ∃ socket ∈ s.sockets, socket.Joins a b := by
  have hends : ((run (step fun _ => 1) (start (fun a => a) (fun _ => "room") (fun _ => 4000) fun _ => true)
      trioDials).map fun s => s.sockets.all bothRegistered) = some true := by decide +kernel
  obtain ⟨s, hrun, hregistered⟩ := Option.map_eq_some_iff.mp hends
  obtain ⟨hdropped, hquiet⟩ := single_dials_link _ _ _ _ _ trioDials (fun a b h => h)
    (fun _ _ => ⟨rfl, rfl⟩) (by decide +kernel) hrun
  obtain ⟨hlinked, hmesh⟩ := hquiet (quiet_of_registered hregistered)
  exact ⟨s, hrun, hdropped, hlinked, hmesh⟩

end Network

end MetaMystia

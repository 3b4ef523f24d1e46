import MetaMystia.Transport.LinkIdentity
import Mathlib.Data.List.Infix

/-! # What `connect_to` reports

`connect_to` reports success when it registers the connection, when the peer has
been registered meanwhile, and when the acceptor answers "already_connected".
The last is the acceptor's opinion: it may still hold the entry of a connection
that the initiator has lost, by a restart for instance.
-/

namespace MetaMystia

open Runs TransportManager

universe u

variable {ι : Type u}

/-- The process at one end is gone; what it has sent may still arrive. -/
def Socket.abandon [DecidableEq ι] (s : Socket ι) (a : ι) : Socket ι :=
  { s with ends := fun side => if s.owner side = a then .dropped else s.ends side }

namespace Network

inductive LifeAction (ι : Type u)
  | act (action : Action ι)
  | restart (a : ι) (listenPort : UInt16)

/-- A new process under the same peer id, with an empty connection map. -/
def restart [DecidableEq ι] (s : Network ι) (a : ι) (listenPort : UInt16) : Network ι where
  transports := Function.update s.transports a
    (.new (s.transports a).localPeerId (s.transports a).sessionId listenPort
      (s.transports a).autoReconnectEnabled)
  sockets := s.sockets.map (·.abandon a)

def lifeStep [DecidableEq ι] (version : ι → UInt16) (s : Network ι) : LifeAction ι → Option (Network ι)
  | .act action => s.step version action
  | .restart a listenPort => some (s.restart a listenPort)

/-- The call of `connect_to`, known by its socket, that returns at this step, and its result. A
handshake that is given up returns some other error. -/
def connectToReturns (s : Network ι) : LifeAction ι → Option (Nat × Except NetworkError PeerId)
  | .act (.socket i .receiveHandshakeAck) =>
    match s.sockets[i]? with
    | some socket =>
      match socket.broken, socket.ends .initiator, socket.wire .initiator with
      | false, .awaiting, msg :: _ =>
        match receiveHandshakeAck msg with
        | .ok _ => none
        | .error e => some (i, .error e)
      | _, _, _ => none
    | none => none
  | .act (.register i .initiator peerIp now) =>
    match s.sockets[i]? with
    | some socket =>
      match socket.ends .initiator with
      | .ready peerId listenPort =>
        match (s.transports (socket.owner .initiator)).registerConnection peerId
            (peerIp ++ ":" ++ toString listenPort) now with
        | .ok _ => some (i, .ok peerId)
        | .error (.duplicatePeerId id) => some (i, .error (.alreadyConnected id))
        | .error e => some (i, .error e)
      | _ => none
    | none => none
  | _ => none

/-- `ConnectToPeer` reports this result as success, for this peer. -/
def Success (result : Except NetworkError PeerId) (peerId : PeerId) : Prop :=
  result = .ok peerId ∨ result = .error (.alreadyConnected peerId)

/-- At some moment after the call's socket was opened, the node had an entry for the peer. -/
def HeldDuring [DecidableEq ι] (version : ι → UInt16) (initial : Network ι)
    (acts : List (LifeAction ι)) (call : Nat) (a : ι) (peerId : PeerId) : Prop :=
  ∃ front, front <+: acts ∧ ∃ m, run (lifeStep version) initial front = some m ∧
    call < m.sockets.length ∧ peerId ∈ (m.transports a).connections

/-- An acceptor that finds the sender of a handshake in its map is in the sender's map. -/
def Mutual (s : Network ι) : LifeAction ι → Prop
  | .act (.socket i .processHandshake) => ∀ socket ∈ s.sockets[i]?,
    (s.transports (socket.owner .initiator)).localPeerId ∈
      (s.transports (socket.owner .acceptor)).connections →
    (s.transports (socket.owner .acceptor)).localPeerId ∈
      (s.transports (socket.owner .initiator)).connections
  | _ => True

instance (s : Network ι) : (action : LifeAction ι) → Decidable (s.Mutual action)
  | .act (.socket i .processHandshake) =>
    inferInstanceAs (Decidable (∀ socket ∈ s.sockets[i]?, _ → _))
  | .restart .. | .act (.connect ..) | .act (.register ..) | .act (.cleanup ..)
  | .act (.registerDataChannel ..) | .act (.disconnectPeer ..) | .act (.cancelShutdownToken _)
  | .act (.shutdown _) | .act (.socket _ .receiveHandshakeAck) | .act (.socket _ (.giveUp _))
  | .act (.socket _ (.drop _)) | .act (.socket _ (.send ..)) | .act (.socket _ (.read _))
  | .act (.socket _ .breakSocket) => .isTrue trivial

instance [DecidableEq ι] (version : ι → UInt16) (initial : Network ι) (acts : List (LifeAction ι))
    (call : Nat) (a : ι) (peerId : PeerId) :
    Decidable (HeldDuring version initial acts call a peerId) :=
  decidable_of_iff (∃ front ∈ acts.inits, ∃ m ∈ run (lifeStep version) initial front,
    call < m.sockets.length ∧ peerId ∈ (m.transports a).connections) (by
      simp only [HeldDuring, List.mem_inits, Option.mem_def])

end Network

namespace Socket

variable {id : ι → PeerId} {session : ι → String} {version : ι → UInt16}
  {transports : ι → TransportManager} {s t : Socket ι}

/-- An initiator that still waits has the same answer before it; only the acceptor's answer to the
handshake puts one there. -/
theorem Sound.awaiting_of_step (hs : Sound id session version s) {action : SocketAction}
    (haction : action ≠ .processHandshake) (h : s.step version transports action = some t)
    (hawaiting : t.ends .initiator = .awaiting) :
    s.ends .initiator = .awaiting ∧ (t.wire .initiator).head? = (s.wire .initiator).head? := by
  cases action with
  | processHandshake => exact absurd rfl haction
  | receiveHandshakeAck =>
    simp only [Socket.step] at h
    split at h
    · next msg rest _ _ _ =>
      cases h
      have hno : Duplex.afterHandshake (TransportManager.receiveHandshakeAck msg) = .awaiting := by
        simpa [Socket.setEnd, Socket.setWire] using hawaiting
      cases hresult : TransportManager.receiveHandshakeAck msg <;> rw [hresult] at hno <;> cases hno
    · cases h
  | giveUp side | drop side =>
    simp only [Socket.step] at h
    split at h <;> cases h <;>
    · obtain ⟨_, hno⟩ | ⟨_, hwas⟩ := ends_setEnd_cases hawaiting
      · cases hno
      · exact ⟨hwas, rfl⟩
  | send side msg =>
    simp only [Socket.step] at h
    split at h
    · next peerId hpeer =>
      cases h
      split at hawaiting
      · next hbroken => simpa [hbroken] using hawaiting
      · next hbroken =>
        have hpeer : (s.ends side).peer ≠ none := by simp [hpeer]
        have hwas : s.ends .initiator = .awaiting := hawaiting
        cases side with
        | initiator => exact absurd hwas (busy_of_peer hpeer).2
        | acceptor =>
          obtain ⟨first, rest, hfirst⟩ := List.exists_cons_of_ne_nil ((hs.answered hwas).1 hpeer)
          exact ⟨hwas, by simp [hbroken, setWire, Side.other, hfirst]⟩
    · cases h
  | read side =>
    simp only [Socket.step] at h
    split at h
    · next hend hwire =>
      cases h
      have hwas : s.ends .initiator = .awaiting := hawaiting
      cases side with
      | initiator => exact absurd (hwas.symm.trans hend) (by simp)
      | acceptor => exact ⟨hwas, by simp [setWire]⟩
    · cases h
  | breakSocket =>
    cases h
    exact ⟨hawaiting, rfl⟩

end Socket

namespace Network

variable {id : ι → PeerId} {s : Network ι} {a : ι} {peerId : PeerId}

/-- The call still waits for its answer, and the answer on its way to it claims that this peer is
connected already. -/
def Claimed (s : Network ι) (call : Nat) (a : ι) (peerId : PeerId) : Prop :=
  ∃ socket, s.sockets[call]? = some socket ∧ socket.owner .initiator = a ∧
    socket.ends .initiator = .awaiting ∧ ∃ msg ∈ (socket.wire .initiator).head?,
      receiveHandshakeAck msg = .error (.alreadyConnected peerId)

/-- A socket that is written over makes no claim that was not made before. -/
theorem Claimed.of_setSocket {i call : Nat} {old socket : Socket ι}
    (h : (s.setSocket i socket).Claimed call a peerId) (hi : s.sockets[i]? = some old)
    (howner : socket.owner = old.owner)
    (hsame : socket.ends .initiator = .awaiting → old.ends .initiator = .awaiting ∧
      (socket.wire .initiator).head? = (old.wire .initiator).head?) : s.Claimed call a peerId := by
  obtain ⟨found, hfound, rfl, hawaiting, msg, hmsg, hclaim⟩ := h
  rw [setSocket, List.getElem?_set] at hfound
  split at hfound
  · next hcall =>
    subst hcall
    split at hfound
    · cases hfound
      obtain ⟨hwas, hhead⟩ := hsame hawaiting
      exact ⟨old, hi, by rw [howner], hwas, msg, hhead ▸ hmsg, hclaim⟩
    · cases hfound
  · exact ⟨found, hfound, rfl, hawaiting, msg, hmsg, hclaim⟩

theorem Claimed.of_setEnd {i call : Nat} {old : Socket ι} {side : Side} {e : SocketEnd}
    (h : (s.setSocket i (old.setEnd side e)).Claimed call a peerId)
    (hi : s.sockets[i]? = some old) (he : e ≠ .awaiting) : s.Claimed call a peerId := by
  refine h.of_setSocket hi rfl ?_
  intro hawaiting
  obtain ⟨_, hno⟩ | ⟨_, hwas⟩ := Socket.ends_setEnd_cases hawaiting
  · exact absurd hno he
  · exact ⟨hwas, rfl⟩

variable {room : String} {build : UInt16}

/-- An acceptor that answers "already_connected" has the initiator in its map. -/
theorem claimed_of_processHandshake {i call : Nat} {old socket : Socket ι}
    (hs : Isolated id (fun _ => room) (fun _ => build) s) (hi : s.sockets[i]? = some old)
    (hstep : old.step (fun _ => build) s.transports .processHandshake = some socket)
    (h : (s.setSocket i socket).Claimed call a peerId) :
    s.Claimed call a peerId ∨
      (call = i ∧ old.owner .initiator = a ∧
        peerId = (s.transports (old.owner .acceptor)).localPeerId ∧
        (s.transports a).localPeerId ∈ (s.transports (old.owner .acceptor)).connections) := by
  have hsound := hs.sockets i old hi
  simp only [Socket.step] at hstep
  split at hstep
  · next msg rest _ hidle hwire =>
    obtain ⟨hback, _, hforth⟩ := hsound.asked hidle
    obtain ⟨port, rfl⟩ := hforth msg (hwire ▸ List.mem_cons_self)
    rw [hback, ← (hs.same (old.owner .acceptor)).2] at hstep
    obtain ⟨found, hfound, rfl, hawaiting, ack, hack, hclaim⟩ := h
    rw [setSocket, List.getElem?_set] at hfound
    split at hfound
    · next hcall =>
      subst hcall
      split at hfound
      · cases hfound
        rcases processHandshakeMessageAt_same (s.transports (old.owner .acceptor))
            (id (old.owner .initiator)) port build with ⟨hin, heq⟩ | ⟨more, result, heq⟩
        · rw [heq] at hstep
          cases hstep
          obtain rfl : (s.transports (old.owner .acceptor)).handshakeAck true
              (some "already_connected") = ack := by
            simpa [Socket.setEnd, Socket.setWire] using hack
          cases hclaim
          exact .inr ⟨rfl, rfl, rfl, (hs.same (old.owner .initiator)).1 ▸ hin⟩
        · rw [heq] at hstep
          cases hstep
          obtain rfl : (s.transports (old.owner .acceptor)).handshakeAck true none = ack := by
            simpa [Socket.setEnd, Socket.setWire] using hack
          cases hclaim
      · cases hfound
    · exact .inl ⟨found, hfound, rfl, hawaiting, ack, hack, hclaim⟩
  · cases hstep

end Network

variable [DecidableEq ι]

namespace Socket

variable {id : ι → PeerId} {session : ι → String} {version : ι → UInt16}
  {transports : ι → TransportManager} {s t : Socket ι} {a : ι}

theorem ends_abandon_cases (s : Socket ι) (a : ι) (side : Side) :
    (s.owner side = a ∧ (s.abandon a).ends side = .dropped) ∨
      (s.owner side ≠ a ∧ (s.abandon a).ends side = s.ends side) := by
  by_cases h : s.owner side = a
  · exact .inl ⟨h, if_pos h⟩
  · exact .inr ⟨h, if_neg h⟩

theorem ends_of_abandon {side : Side} {e : SocketEnd} (h : (s.abandon a).ends side = e)
    (he : e ≠ .dropped) : s.owner side ≠ a ∧ s.ends side = e := by
  obtain ⟨_, hdropped⟩ | ⟨hside, hsame⟩ := s.ends_abandon_cases a side
  · exact absurd (h.symm.trans hdropped) he
  · exact ⟨hside, hsame.symm.trans h⟩

theorem peer_of_abandon {side : Side} {peerId : PeerId}
    (h : ((s.abandon a).ends side).peer = some peerId) : (s.ends side).peer = some peerId := by
  obtain ⟨_, hdropped⟩ | ⟨_, hsame⟩ := s.ends_abandon_cases a side
  · rw [hdropped] at h
    cases h
  · rwa [hsame] at h

theorem Sound.abandon (hs : Sound id session version s) (a : ι) :
    Sound id session version (s.abandon a) := by
  refine ⟨fun side peerId h => hs.known side peerId (peer_of_abandon h), ?_, ?_⟩
  · intro hidle
    obtain ⟨hwire, hinit, hforth⟩ := hs.asked (ends_of_abandon hidle nofun).2
    refine ⟨hwire, ?_, hforth⟩
    apply Option.eq_none_iff_forall_ne_some.mpr
    intro peerId h
    rw [peer_of_abandon h] at hinit
    cases hinit
  · intro hawaiting
    obtain ⟨hwire, hack⟩ := hs.answered (ends_of_abandon hawaiting nofun).2
    refine ⟨?_, hack⟩
    intro hsome
    obtain ⟨peerId, hpeer⟩ := Option.ne_none_iff_exists'.mp hsome
    exact hwire (by simp [peer_of_abandon hpeer])

end Socket

namespace Network

variable {id : ι → PeerId} {session : ι → String} {version : ι → UInt16} {s t : Network ι}
  {a b c : ι} {peerId : PeerId} {generation : Nat} {room : String} {build : UInt16}

theorem endAt_restart_iff {listenPort : UInt16} :
    (s.restart a listenPort).EndAt b peerId generation c ↔
      b ≠ a ∧ s.EndAt b peerId generation c := by
  constructor
  · rintro ⟨i, side, socket, hi, rfl, rfl, hend⟩
    obtain ⟨old, hold, rfl⟩ := Option.map_eq_some_iff.mp ((List.getElem?_map ..).symm.trans hi)
    obtain ⟨hside, hwas⟩ := Socket.ends_of_abandon hend nofun
    exact ⟨hside, i, side, old, hold, rfl, rfl, hwas⟩
  · rintro ⟨hb, i, side, socket, hi, rfl, rfl, hend⟩
    refine ⟨i, side, socket.abandon a, ?_, rfl, rfl, ?_⟩
    · simp [restart, hi]
    · exact (if_neg hb).trans hend

theorem lookup_of_restart {listenPort : UInt16} {k : PeerId} {conn : PeerConnection}
    (h : ((s.restart a listenPort).transports b).connections.lookup k = some conn) :
    b ≠ a ∧ (s.transports b).connections.lookup k = some conn := by
  by_cases hb : b = a
  · subst hb
    simp [restart, TransportManager.new] at h
  · exact ⟨hb, by simpa [restart, Function.update_of_ne hb] using h⟩

theorem Isolated.restart (hs : Isolated id session version s) (a : ι) (listenPort : UInt16) :
    Isolated id session version (s.restart a listenPort) := by
  constructor
  · exact sameNodes_update hs.same rfl rfl
  · intro i socket hi
    obtain ⟨old, hold, rfl⟩ := Option.map_eq_some_iff.mp ((List.getElem?_map ..).symm.trans hi)
    exact (hs.sockets i old hold).abandon a
  · intro c peerId generation b hend
    obtain ⟨hc, hwas⟩ := endAt_restart_iff.mp hend
    have hlt := hs.fresh c peerId generation b hwas
    simpa [Network.restart, Function.update_of_ne hc] using hlt
  · intro c k conn hconn
    obtain ⟨hc, hwas⟩ := lookup_of_restart hconn
    obtain ⟨b, hend⟩ := hs.entries c k conn hwas
    exact ⟨b, endAt_restart_iff.mpr ⟨hc, hend⟩⟩
  · intro c k conn peerId b hconn hend
    exact hs.owns c k conn peerId b (lookup_of_restart hconn).2 (endAt_restart_iff.mp hend).2

theorem Isolated.lifeStep (hs : Isolated id session version s) {action : LifeAction ι}
    (h : s.lifeStep version action = some t) : Isolated id session version t := by
  cases action with
  | act action => exact hs.step h
  | restart a listenPort =>
    cases h
    exact hs.restart a listenPort

theorem claimed_of_lifeStep {action : LifeAction ι} {call : Nat}
    (hs : Isolated id (fun _ => room) (fun _ => build) s) (hmutual : s.Mutual action)
    (hstep : s.lifeStep (fun _ => build) action = some t) (h : t.Claimed call a peerId) :
    s.Claimed call a peerId ∨
      (call < s.sockets.length ∧ peerId ∈ (s.transports a).connections) := by
  cases action with
  | restart b listenPort =>
    cases hstep
    obtain ⟨socket, hcall, rfl, hawaiting, msg, hmsg, hclaim⟩ := h
    obtain ⟨old, hold, rfl⟩ := Option.map_eq_some_iff.mp ((List.getElem?_map ..).symm.trans hcall)
    exact .inl ⟨old, hold, rfl, (Socket.ends_of_abandon hawaiting (by simp)).2, msg, hmsg, hclaim⟩
  | act action =>
    cases action with
    | connect b c =>
      cases hstep
      obtain ⟨socket, hcall, rfl, hawaiting, msg, hmsg, hclaim⟩ := h
      cases Slots.getElem?_concat_cases hcall with
      | inl hold => exact .inl ⟨socket, hold, rfl, hawaiting, msg, hmsg, hclaim⟩
      | inr hnew =>
        obtain ⟨_, rfl⟩ := hnew
        cases hmsg
    | socket i action =>
      simp only [lifeStep, Network.step] at hstep
      split at hstep
      · next old hi =>
        obtain ⟨socket, hsocket, rfl⟩ := Option.map_eq_some_iff.mp hstep
        by_cases haction : action = .processHandshake
        · subst haction
          obtain hclaimed | ⟨rfl, rfl, rfl, hin⟩ := claimed_of_processHandshake hs hi hsocket h
          · exact .inl hclaimed
          · exact .inr ⟨(List.getElem?_eq_some_iff.mp hi).1, hmutual old hi hin⟩
        · exact .inl (h.of_setSocket hi (Socket.step_registered hsocket).1
            ((hs.sockets i old hi).awaiting_of_step haction hsocket))
      · cases hstep
    | register i side peerIp now =>
      simp only [lifeStep, Network.step] at hstep
      split at hstep
      · next old hi =>
        split at hstep
        · split at hstep <;> cases hstep
          · exact .inl (h.of_setEnd hi (by simp))
          · exact .inl (h.of_setEnd hi (by simp))
        · cases hstep
      · cases hstep
    | cleanup i side =>
      simp only [lifeStep, Network.step] at hstep
      split at hstep
      · next old hi =>
        split at hstep
        · cases hstep
          exact .inl (h.of_setEnd hi (by simp))
        · cases hstep
      · cases hstep
    | registerDataChannel b p => cases hstep; exact .inl h
    | disconnectPeer b p fits =>
      simp only [lifeStep, Network.step] at hstep
      split at hstep <;> cases hstep <;> exact .inl h
    | cancelShutdownToken b => cases hstep; exact .inl h
    | shutdown b => cases hstep; exact .inl h

theorem HeldDuring.concat {version : ι → UInt16} {initial : Network ι} {acts : List (LifeAction ι)}
    {call : Nat} (h : HeldDuring version initial acts call a peerId) (action : LifeAction ι) :
    HeldDuring version initial (acts ++ [action]) call a peerId := by
  obtain ⟨front, hfront, hheld⟩ := h
  exact ⟨front, hfront.trans (List.prefix_append acts [action]), hheld⟩

theorem held_of_claimed {listenPort : ι → UInt16} {autoReconnect : ι → Bool}
    {acts : List (LifeAction ι)} {call : Nat}
    (hmutual : Along (lifeStep fun _ => build) Mutual
      (start id (fun _ => room) listenPort autoReconnect) acts)
    (hrun : run (lifeStep fun _ => build) (start id (fun _ => room) listenPort autoReconnect) acts =
      some s)
    (h : s.Claimed call a peerId) :
    HeldDuring (fun _ => build) (start id (fun _ => room) listenPort autoReconnect) acts call a
      peerId := by
  have hall : Isolated id (fun _ => room) (fun _ => build) s ∧ ∀ call a peerId,
      s.Claimed call a peerId → HeldDuring (fun _ => build)
        (start id (fun _ => room) listenPort autoReconnect) acts call a peerId := by
    refine history_induction (I := fun acts s => Isolated id (fun _ => room) (fun _ => build) s ∧
      ∀ call a peerId, s.Claimed call a peerId → HeldDuring (fun _ => build)
        (start id (fun _ => room) listenPort autoReconnect) acts call a peerId) ?_ ?_ hmutual hrun
    · refine ⟨isolated_start, ?_⟩
      rintro call a peerId ⟨socket, hno, _⟩
      cases hno
    · rintro front m action t hm _ ⟨hisolated, hheld⟩ haction ht
      refine ⟨hisolated.lifeStep ht, ?_⟩
      intro call a peerId hclaimed
      cases claimed_of_lifeStep hisolated haction ht hclaimed with
      | inl hbefore => exact (hheld call a peerId hbefore).concat action
      | inr hnow => exact ⟨front, List.prefix_append front [action], m, hm, hnow⟩
  exact hall.2 call a peerId h

/-- The three ways to report success: the acceptor's answer, an entry that is there, and an entry
that this step makes. -/
theorem connectToReturns_success {action : LifeAction ι} {call : Nat}
    {result : Except NetworkError PeerId} (hstep : s.lifeStep version action = some t)
    (hreturn : s.connectToReturns action = some (call, result)) (hsuccess : Success result peerId) :
    ∃ socket, s.sockets[call]? = some socket ∧ (s.Claimed call (socket.owner .initiator) peerId ∨
      peerId ∈ (s.transports (socket.owner .initiator)).connections ∨
      (s.sockets.length ≤ t.sockets.length ∧
        peerId ∈ (t.transports (socket.owner .initiator)).connections)) := by
  unfold connectToReturns at hreturn
  split at hreturn
  · split at hreturn
    · next socket hi =>
      split at hreturn
      · next msg rest _ hawaiting hwire =>
        split at hreturn
        · cases hreturn
        · next e herror =>
          cases hreturn
          refine ⟨socket, hi, .inl ⟨socket, hi, rfl, hawaiting, msg, by simp [hwire], ?_⟩⟩
          obtain hno | heq := hsuccess
          · cases hno
          · cases heq
            exact herror
      · cases hreturn
    · cases hreturn
  · next i peerIp now =>
    split at hreturn
    · next socket hi =>
      split at hreturn
      · next p port hready =>
        rcases (s.transports (socket.owner .initiator)).registerConnection_cases p
          (peerIp ++ ":" ++ toString port) now with ⟨hin, heq⟩ | ⟨_, heq⟩
        · rw [heq] at hreturn
          cases hreturn
          obtain hno | hsame := hsuccess
          · cases hno
          · cases hsame
            exact ⟨socket, hi, .inr (.inl hin)⟩
        · rw [heq] at hreturn
          simp only [lifeStep, Network.step, hi, hready, heq, Option.some.injEq] at hstep
          cases hreturn
          subst hstep
          obtain hsame | hno := hsuccess
          · cases hsame
            refine ⟨socket, hi, .inr (.inr ⟨?_, ?_⟩)⟩
            · simp [setSocket, setTransport]
            · simp
          · cases hno
      · cases hreturn
    · cases hreturn
  · cases hreturn

/-- For every run of connects, losses and restarts of nodes of one session in which an acceptor
that finds the sender of a handshake in its map is in the sender's map: whenever `connect_to`
returns a success for a peer, the node had an entry for that peer during the call. -/
theorem reported_success_is_link (id : ι → PeerId) (room : String) (build : UInt16)
    (listenPort : ι → UInt16) (autoReconnect : ι → Bool) {acts : List (LifeAction ι)}
    {action : LifeAction ι} {call : Nat} {result : Except NetworkError PeerId}
    (hmutual : Along (lifeStep fun _ => build) Mutual
      (start id (fun _ => room) listenPort autoReconnect) acts)
    (hrun : run (lifeStep fun _ => build) (start id (fun _ => room) listenPort autoReconnect) acts =
      some s)
    (hstep : s.lifeStep (fun _ => build) action = some t)
    (hreturn : s.connectToReturns action = some (call, result)) (hsuccess : Success result peerId) :
    ∃ socket, s.sockets[call]? = some socket ∧
      HeldDuring (fun _ => build) (start id (fun _ => room) listenPort autoReconnect)
        (acts ++ [action]) call (socket.owner .initiator) peerId := by
  obtain ⟨socket, hcall, hcases⟩ := connectToReturns_success hstep hreturn hsuccess
  have hlength : call < s.sockets.length := (List.getElem?_eq_some_iff.mp hcall).1
  refine ⟨socket, hcall, ?_⟩
  obtain hclaimed | hbefore | ⟨hle, hafter⟩ := hcases
  · exact (held_of_claimed hmutual hrun hclaimed).concat action
  · exact ⟨acts, List.prefix_append acts [action], s, hrun, hlength, hbefore⟩
  · exact ⟨acts ++ [action], List.prefix_rfl, t, run_concat_iff.mpr ⟨s, hrun, hstep⟩,
      Nat.lt_of_lt_of_le hlength hle, hafter⟩

def samplePair : Network Bool :=
  start (fun first => if first then ⟨"a"⟩ else ⟨"b"⟩) (fun _ => "room") (fun _ => 4000) (fun _ => true)

/-- Node `a` connects to `b`. -/
def linkPair : List (LifeAction Bool) :=
  [.act (.connect true false), .act (.socket 0 .processHandshake),
    .act (.register 0 .acceptor "10.0.0.1" 0), .act (.socket 0 .receiveHandshakeAck),
    .act (.register 0 .initiator "10.0.0.2" 0)]

/-- A second `connect_to` over a link that both nodes have. -/
theorem second_connect_reports_link :
    let acts := linkPair ++ [.act (.connect true false), .act (.socket 1 .processHandshake)]
    (∃ s ∈ run (lifeStep fun _ => 1) samplePair acts,
      s.connectToReturns (.act (.socket 1 .receiveHandshakeAck)) =
        some (1, .error (.alreadyConnected ⟨"b"⟩))) ∧
      HeldDuring (fun _ => 1) samplePair (acts ++ [.act (.socket 1 .receiveHandshakeAck)]) 1 true
        ⟨"b"⟩ := by
  intro acts
  have hreturn : ∃ s ∈ run (lifeStep fun _ => 1) samplePair acts,
      s.connectToReturns (.act (.socket 1 .receiveHandshakeAck)) =
        some (1, .error (.alreadyConnected ⟨"b"⟩)) ∧
      (s.lifeStep (fun _ => 1) (.act (.socket 1 .receiveHandshakeAck))).isSome = true ∧
      ∀ socket ∈ s.sockets[1]?, socket.owner .initiator = true := by decide +kernel
  have hmutual : Along (lifeStep fun _ => 1) Mutual samplePair acts := by decide +kernel
  obtain ⟨s, hrun, hresult, hstep, howner⟩ := hreturn
  obtain ⟨t, ht⟩ := Option.isSome_iff_exists.mp hstep
  obtain ⟨socket, hsocket, hheld⟩ :=
    reported_success_is_link _ _ _ _ _ hmutual hrun ht hresult (.inr rfl)
  exact ⟨⟨s, hrun, hresult⟩, howner socket hsocket ▸ hheld⟩

/-- Node `a` restarts and connects to `b` again before `b` has noticed: `b` answers
"already_connected", `connect_to` reports that as success, and `a` never had an entry for `b`. -/
theorem restarted_node_reports_no_link :
    let acts := linkPair ++ [.restart true 4000, .act (.connect true false),
      .act (.socket 1 .processHandshake)]
    (∃ s ∈ run (lifeStep fun _ => 1) samplePair acts,
      s.connectToReturns (.act (.socket 1 .receiveHandshakeAck)) =
        some (1, .error (.alreadyConnected ⟨"b"⟩)) ∧
      (s.lifeStep (fun _ => 1) (.act (.socket 1 .receiveHandshakeAck))).isSome = true ∧
      ∀ socket ∈ s.sockets[1]?, socket.owner .initiator = true) ∧
      ¬ HeldDuring (fun _ => 1) samplePair (acts ++ [.act (.socket 1 .receiveHandshakeAck)]) 1 true
        ⟨"b"⟩ := by
  decide +kernel

end Network

end MetaMystia

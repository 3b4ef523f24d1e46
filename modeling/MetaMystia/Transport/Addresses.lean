import MetaMystia.Transport.LinkIdentity

/-! # Where peers listen

An entry keeps the address to dial its peer at: the IP of the socket and the port that
the handshake names. Data channels, reconnects and the peer lists for other nodes all
take it from there.
-/

namespace MetaMystia

open Runs TransportManager

universe u

variable {ι : Type u} {id : ι → PeerId} {session : ι → String} {version : ι → UInt16}
  {ip : ι → String} {listenPort : ι → UInt16} {transports : ι → TransportManager}

def listenerAddr (ip : ι → String) (listenPort : ι → UInt16) (a : ι) : String :=
  ip a ++ ":" ++ toString (listenPort a)

namespace TransportManager

variable {self : TransportManager}

/-- An ack names the port of the acceptor; the port that the acceptor keeps is the one it was told. -/
theorem processHandshakeMessageAt_ports (self : TransportManager) (expected : UInt16)
    (msg : InternalMessage) :
    (∀ ack ∈ (self.processHandshakeMessageAt expected msg).1.head?, ∀ p port notify,
      receiveHandshakeAck ack = .ok (p, port, notify) → port = self.listenPort) ∧
    ∀ p port notify, (self.processHandshakeMessageAt expected msg).2 = .ok (p, port, notify) →
      ∃ theirs room, msg = .handshake p port theirs room := by
  have hack : ∀ success reason p port notify,
      receiveHandshakeAck (self.handshakeAck success reason) = .ok (p, port, notify) →
        port = self.listenPort := by
    intro success reason p port notify h
    simp only [receiveHandshakeAck, handshakeAck] at h
    split at h
    · split at h <;> cases h
    · split at h
      · cases h
      · cases h
        rfl
  cases msg with
  | handshake peerId port theirs room =>
    simp only [processHandshakeMessageAt]
    split
    · simpa using hack _ _
    split
    · simpa using hack _ _
    split
    · simpa using hack _ _
    · refine ⟨?_, ?_⟩
      · rintro ack hhead
        obtain rfl := Option.some.inj hhead
        exact hack _ _
      · intro p q notify h
        cases h
        exact ⟨_, _, rfl⟩
  | _ => simp [processHandshakeMessageAt]

end TransportManager

namespace Socket

variable {s t : Socket ι}

/-- `ready`: the port found in a handshake is the one the other node listens at. `asked` and
`answered`: so it is in the handshake, and in an ack that lets the initiator go on. -/
structure Ported (listenPort : ι → UInt16) (s : Socket ι) : Prop where
  ready : ∀ side p port, s.ends side = .ready p port → port = listenPort (s.owner side.other)
  asked : s.ends .acceptor = .idle → ∀ msg ∈ s.wire .acceptor, ∀ p port theirs room,
    msg = .handshake p port theirs room → port = listenPort (s.owner .initiator)
  answered : s.ends .initiator = .awaiting → ∀ msg ∈ (s.wire .initiator).head?, ∀ p port notify,
    receiveHandshakeAck msg = .ok (p, port, notify) → port = listenPort (s.owner .acceptor)

theorem afterHandshake_ready {result : Except NetworkError (PeerId × UInt16 × InternalMessage)}
    {p : PeerId} {port : UInt16} (h : Duplex.afterHandshake result = .ready p port) :
    ∃ notify, result = .ok (p, port, notify) := by
  cases result with
  | error e => cases h
  | ok value =>
    obtain ⟨q, q', notify⟩ := value
    cases h
    exact ⟨notify, rfl⟩

theorem Ported.processHandshake (h : Ported listenPort s) (hsound : Sound id session version s)
    (hports : ∀ a, (transports a).listenPort = listenPort a)
    (hstep : s.step version transports .processHandshake = some t) : Ported listenPort t := by
  simp only [step] at hstep
  split at hstep
  · next msg rest _ hidle hwire =>
    obtain ⟨hback, _, _⟩ := hsound.asked hidle
    obtain ⟨hacks, hresult⟩ := (transports (s.owner .acceptor)).processHandshakeMessageAt_ports
      (version (s.owner .acceptor)) msg
    cases hstep
    refine ⟨?_, ?_, ?_⟩
    · intro side p port hready
      cases side with
      | initiator => exact h.ready .initiator p port (by simpa [setEnd, setWire] using hready)
      | acceptor =>
        obtain ⟨notify, hok⟩ := afterHandshake_ready (by simpa [setEnd, setWire] using hready)
        obtain ⟨theirs, room, rfl⟩ := hresult p port notify hok
        exact h.asked hidle _ (hwire ▸ List.mem_cons_self) p port theirs room rfl
    · intro hno
      have hno : Duplex.afterHandshake ((transports (s.owner .acceptor)).processHandshakeMessageAt
          (version (s.owner .acceptor)) msg).2 = .idle := by simpa [setEnd, setWire] using hno
      unfold Duplex.afterHandshake at hno
      split at hno <;> cases hno
    · intro _ ack hack p port notify hok
      have hhead : ack ∈ ((transports (s.owner .acceptor)).processHandshakeMessageAt
          (version (s.owner .acceptor)) msg).1.head? := by
        simpa [setEnd, setWire, hback] using hack
      exact (hacks ack hhead p port notify hok).trans (hports _)
  · cases hstep

theorem Ported.receiveHandshakeAck (h : Ported listenPort s) (hsound : Sound id session version s)
    (hstep : s.step version transports .receiveHandshakeAck = some t) : Ported listenPort t := by
  simp only [step] at hstep
  split at hstep
  · next msg rest _ hawaiting hwire =>
    cases hstep
    refine ⟨?_, ?_, ?_⟩
    · intro side p port hready
      cases side with
      | initiator =>
        obtain ⟨notify, hok⟩ := afterHandshake_ready (by simpa [setEnd, setWire] using hready)
        exact h.answered hawaiting msg (by simp [hwire]) p port notify hok
      | acceptor => exact h.ready .acceptor p port (by simpa [setEnd, setWire] using hready)
    · intro hidle
      have hno := (hsound.asked (by simpa [setEnd, setWire] using hidle)).1
      rw [hwire] at hno
      cases hno
    · intro hno
      have hno : Duplex.afterHandshake (TransportManager.receiveHandshakeAck msg) = .awaiting := by
        simpa [setEnd, setWire] using hno
      unfold Duplex.afterHandshake at hno
      split at hno <;> cases hno
  · cases hstep

/-- An end whose handshake is over, one way or the other. -/
theorem Ported.setEnd (h : Ported listenPort s) {side : Side} {e : SocketEnd}
    (he : e = .dropping ∨ e = .dropped ∨ ∃ p g, e = .registered p g) : Ported listenPort (s.setEnd side e) := by
  have hends : ∀ side' f, (s.setEnd side e).ends side' = f → e = f ∨ s.ends side' = f := by
    intro side' f hf
    obtain ⟨_, heq⟩ | ⟨_, hwas⟩ := ends_setEnd_cases hf
    · exact .inl heq
    · exact .inr hwas
  refine ⟨?_, ?_, ?_⟩
  · intro side' p port hend
    obtain rfl | hwas := hends side' _ hend
    · simp at he
    · exact h.ready side' p port hwas
  · intro hidle
    obtain rfl | hwas := hends .acceptor _ hidle
    · simp at he
    · exact h.asked hwas
  · intro hawaiting
    obtain rfl | hwas := hends .initiator _ hawaiting
    · simp at he
    · exact h.answered hwas

theorem Ported.step (h : Ported listenPort s) (hsound : Sound id session version s)
    (hports : ∀ a, (transports a).listenPort = listenPort a) {action : SocketAction}
    (hstep : s.step version transports action = some t) : Ported listenPort t := by
  cases action with
  | processHandshake => exact h.processHandshake hsound hports hstep
  | receiveHandshakeAck => exact h.receiveHandshakeAck hsound hstep
  | giveUp side =>
    simp only [Socket.step] at hstep
    split at hstep <;> cases hstep <;> exact h.setEnd (.inl rfl)
  | drop side =>
    simp only [Socket.step] at hstep
    split at hstep <;> cases hstep
    exact h.setEnd (.inr (.inl rfl))
  | send side msg =>
    simp only [Socket.step] at hstep
    split at hstep
    · next peerId hpeer =>
      have hknown : (s.ends side).peer ≠ none := by simp [hpeer]
      cases hstep
      split
      · exact h
      refine ⟨h.ready, fun hidle => absurd hidle (hsound.acceptor_busy hknown), ?_⟩
      intro hawaiting
      cases side with
      | initiator => exact absurd hawaiting (busy_of_peer hknown).2
      | acceptor =>
        obtain ⟨first, rest, hfirst⟩ :=
          List.exists_cons_of_ne_nil ((hsound.answered hawaiting).1 hknown)
        intro msg hmsg
        exact h.answered hawaiting msg (by simpa [setWire, Side.other, hfirst] using hmsg)
    · cases hstep
  | read side =>
    simp only [Socket.step] at hstep
    split at hstep
    · next hend hwire =>
      have hknown : (s.ends side).peer ≠ none := by simp [hend, SocketEnd.peer]
      cases hstep
      refine ⟨h.ready, fun hidle => absurd hidle (hsound.acceptor_busy hknown), ?_⟩
      intro hawaiting
      cases side with
      | initiator => exact absurd hawaiting (busy_of_peer hknown).2
      | acceptor => simpa [setWire] using h.answered hawaiting
    · cases hstep
  | breakSocket =>
    cases hstep
    exact ⟨h.ready, h.asked, h.answered⟩

end Socket

namespace TransportManager

variable {self : TransportManager} {peerId peer : PeerId} {conn : PeerConnection}

theorem info_of_registerDataChannel
    (h : (self.registerDataChannel peerId).connections.lookup peer = some conn) :
    ∃ old, self.connections.lookup peer = some old ∧ old.info = conn.info := by
  unfold registerDataChannel at h
  split at h
  · next old hold =>
    obtain ⟨rfl, rfl⟩ | ⟨_, hwas⟩ := Assoc.lookup_insert_cases h
    · exact ⟨old, hold, rfl⟩
    · exact ⟨conn, hwas, rfl⟩
  · exact ⟨conn, h, rfl⟩

theorem registerDataChannel_listenPort : (self.registerDataChannel peerId).listenPort = self.listenPort := by
  unfold registerDataChannel
  cases self.connections.lookup peerId <;> rfl

theorem modify_listenPort {f : PeerConnection → PeerConnection} :
    (self.modify peerId f).listenPort = self.listenPort := by
  unfold modify
  cases self.connections.lookup peerId <;> rfl

theorem modify_sessionId {f : PeerConnection → PeerConnection} :
    (self.modify peerId f).sessionId = self.sessionId := by
  unfold modify
  cases self.connections.lookup peerId <;> rfl

theorem tearDown_listenPort : (self.tearDown peerId).listenPort = self.listenPort := by
  unfold tearDown
  cases self.connections.lookup peerId <;> rfl

end TransportManager

namespace Network

variable {s t : Network ι}

/-- What an entry keeps about the peer `k`: its id and the address it listens at. -/
def Names (id : ι → PeerId) (ip : ι → String) (listenPort : ι → UInt16) (k : PeerId) (info : PeerInfo) :
    Prop :=
  ∃ b, k = id b ∧ info.peerId = k ∧ info.addr = listenerAddr ip listenPort b

structure Addressed (id : ι → PeerId) (ip : ι → String) (listenPort : ι → UInt16) (s : Network ι) :
    Prop where
  ports : ∀ a, (s.transports a).listenPort = listenPort a
  sockets : ∀ (i : Nat) (socket : Socket ι), s.sockets[i]? = some socket → socket.Ported listenPort
  addressed : ∀ a k conn, (s.transports a).connections.lookup k = some conn →
    Names id ip listenPort k conn.info

theorem addressed_start {autoReconnect : ι → Bool} :
    Addressed id ip listenPort (start id session listenPort autoReconnect) :=
  ⟨fun _ => rfl, nofun, nofun⟩

theorem Addressed.setSocket (h : Addressed id ip listenPort s) {i : Nat} {socket : Socket ι}
    (hported : socket.Ported listenPort) : Addressed id ip listenPort (s.setSocket i socket) :=
  ⟨h.ports, Slots.forall_set hported fun j x _ => h.sockets j x, h.addressed⟩

/-- The address is where the node with this id listens, and it is of the same session and build. -/
def LeadsTo (id : ι → PeerId) (session : ι → String) (version : ι → UInt16) (ip : ι → String)
    (listenPort : ι → UInt16) (a : ι) (k : PeerId) (addr : String) : Prop :=
  ∃ b, k = id b ∧ addr = listenerAddr ip listenPort b ∧ Socket.SameRoom session version a b

theorem leadsTo_of_lookup (hids : Function.Injective id) (h : Addressed id ip listenPort s)
    (hs : Isolated id session version s) {a : ι} {k : PeerId} {conn : PeerConnection}
    (hconn : (s.transports a).connections.lookup k = some conn) :
    conn.info.peerId = k ∧ LeadsTo id session version ip listenPort a k conn.info.addr := by
  obtain ⟨b, rfl, hself, haddr⟩ := h.addressed a k conn hconn
  obtain ⟨c, i, side, socket, hi, rfl, rfl, hregistered⟩ := hs.entries a _ conn hconn
  obtain ⟨hpeer, hroom⟩ := (hs.sockets i socket hi).known side _ (by rw [hregistered]; rfl)
  exact ⟨hself, b, rfl, haddr, hids hpeer ▸ hroom⟩

variable [DecidableEq ι]

/-- A registration finds the IP of the node at the other end. -/
def SeesIp (ip : ι → String) (s : Network ι) : Action ι → Prop
  | .register i side peerIp _ => ∀ socket ∈ s.sockets[i]?, peerIp = ip (socket.owner side.other)
  | _ => True

instance (ip : ι → String) (s : Network ι) : (a : Action ι) → Decidable (s.SeesIp ip a)
  | .register .. => inferInstanceAs (Decidable (∀ _ ∈ _, _))
  | .connect .. | .socket .. | .cleanup .. | .registerDataChannel .. | .disconnectPeer ..
  | .cancelShutdownToken _ | .shutdown _ => .isTrue trivial

theorem Addressed.setTransport (h : Addressed id ip listenPort s) {a : ι} {transport : TransportManager}
    (hport : transport.listenPort = (s.transports a).listenPort)
    (hentries : ∀ k conn, transport.connections.lookup k = some conn →
      Names id ip listenPort k conn.info) :
    Addressed id ip listenPort (s.setTransport a transport) := by
  refine ⟨?_, h.sockets, ?_⟩
  · exact s.forall_setTransport (fun c m => m.listenPort = listenPort c) (hport.trans (h.ports a))
      fun c _ => h.ports c
  · exact s.forall_setTransport (fun _ m => ∀ k conn, m.connections.lookup k = some conn →
      Names id ip listenPort k conn.info) hentries fun c _ => h.addressed c

theorem Addressed.tearDown (h : Addressed id ip listenPort s) (a : ι) (peerId : PeerId) :
    Addressed id ip listenPort (s.setTransport a ((s.transports a).tearDown peerId)) :=
  h.setTransport tearDown_listenPort fun k conn hconn => h.addressed a k conn (lookup_of_tearDown hconn)

theorem Addressed.connect (h : Addressed id ip listenPort s) (a b : ι)
    (hstep : s.step version (.connect a b) = some t) : Addressed id ip listenPort t := by
  cases hstep
  refine ⟨h.ports, ?_, h.addressed⟩
  refine Slots.forall_concat ?_ h.sockets
  refine ⟨?_, ?_, ?_⟩
  · intro side p port hready
    cases side <;> cases hready
  · intro _ msg hmsg p port theirs room heq
    obtain rfl := List.mem_singleton.mp hmsg
    cases heq
    exact h.ports a
  · intro _ msg hmsg
    cases hmsg

theorem Addressed.register (h : Addressed id ip listenPort s) (hs : Isolated id session version s)
    {i : Nat} {side : Side} {peerIp : String} {now : Nat} (hip : s.SeesIp ip (.register i side peerIp now))
    (hstep : s.step version (.register i side peerIp now) = some t) : Addressed id ip listenPort t := by
  simp only [step] at hstep
  split at hstep
  · next socket hi =>
    split at hstep
    · next peerId port hready =>
      obtain rfl := (h.sockets i socket hi).ready side peerId port hready
      obtain rfl := hip socket hi
      obtain ⟨rfl, _⟩ := (hs.sockets i socket hi).known side peerId (by rw [hready]; rfl)
      obtain ⟨_, heq⟩ | ⟨_, heq⟩ := (s.transports (socket.owner side)).registerConnection_cases
        (id (socket.owner side.other)) (listenerAddr ip listenPort (socket.owner side.other)) now
      · rw [listenerAddr] at heq
        rw [heq] at hstep
        cases hstep
        exact h.setSocket ((h.sockets i socket hi).setEnd (.inl rfl))
      · rw [listenerAddr] at heq
        rw [heq] at hstep
        cases hstep
        refine Addressed.setSocket ?_ ((h.sockets i socket hi).setEnd (.inr (.inr ⟨_, _, rfl⟩)))
        refine h.setTransport rfl ?_
        intro k conn hconn
        obtain ⟨rfl, rfl⟩ | ⟨_, hwas⟩ := Assoc.lookup_insert_cases hconn
        · exact ⟨_, rfl, rfl, rfl⟩
        · exact h.addressed _ k conn hwas
    · cases hstep
  · cases hstep

theorem Addressed.step (h : Addressed id ip listenPort s) (hs : Isolated id session version s)
    {action : Action ι} (hip : s.SeesIp ip action) (hstep : s.step version action = some t) :
    Addressed id ip listenPort t := by
  cases action with
  | connect a b => exact h.connect a b hstep
  | socket i action =>
    simp only [Network.step] at hstep
    split at hstep
    · next socket hi =>
      obtain ⟨socket', hsocket, rfl⟩ := Option.map_eq_some_iff.mp hstep
      exact h.setSocket ((h.sockets i socket hi).step (hs.sockets i socket hi) h.ports hsocket)
    · cases hstep
  | register i side peerIp now => exact h.register hs hip hstep
  | cleanup i side =>
    simp only [Network.step] at hstep
    split at hstep
    · next socket hi =>
      split at hstep
      · cases hstep
        rw [cleanup_fst]
        exact (h.tearDown _ _).setSocket ((h.sockets i socket hi).setEnd (.inr (.inl rfl)))
      · cases hstep
    · cases hstep
  | registerDataChannel a peerId =>
    cases hstep
    refine h.setTransport registerDataChannel_listenPort ?_
    intro k conn hconn
    obtain ⟨old, hold, hinfo⟩ := info_of_registerDataChannel hconn
    exact hinfo ▸ h.addressed a k old hold
  | disconnectPeer a peerId fits =>
    obtain ⟨e, heq⟩ | heq := (s.transports a).disconnectPeer_cases peerId fits
    · simp only [Network.step, heq, Option.some.injEq] at hstep
      exact hstep ▸ h
    · simp only [Network.step, heq, Option.some.injEq] at hstep
      exact hstep ▸ h.tearDown a peerId
  | cancelShutdownToken a =>
    cases hstep
    exact h.setTransport rfl (h.addressed a)
  | shutdown a =>
    cases hstep
    refine h.setTransport rfl ?_
    intro k conn hconn
    cases hconn

/-- Wherever a node takes an address from its entries, to open a data channel, to reconnect or to
tell another node of its peers, a node of the same session and build listens there under that id. -/
theorem addresses_lead_to_peers (version : ι → UInt16) (id : ι → PeerId) (session : ι → String)
    (ip : ι → String) (listenPort : ι → UInt16) (autoReconnect : ι → Bool) (acts : List (Action ι))
    (hids : Function.Injective id)
    (hip : Along (step version) (SeesIp ip) (start id session listenPort autoReconnect) acts)
    (hrun : run (step version) (start id session listenPort autoReconnect) acts = some s) (a : ι) :
    (∀ k addr, (s.transports a).getPeerAddr k = some addr →
      LeadsTo id session version ip listenPort a k addr) ∧
    (∀ peer ∈ (s.transports a).getPeerListForSync,
      LeadsTo id session version ip listenPort a peer.1 peer.2) ∧
    ∀ k addr, ((s.transports a).cleanup k).2 = some addr →
      LeadsTo id session version ip listenPort a k addr := by
  have hboth : Isolated id session version s ∧ Addressed id ip listenPort s := by
    refine invariant (I := fun s => Isolated id session version s ∧ Addressed id ip listenPort s) ?_
      ⟨isolated_start, addressed_start⟩ hip hrun
    intro s action t hs hip hstep
    exact ⟨hs.1.step hstep, hs.2.step hs.1 hip hstep⟩
  obtain ⟨hs, haddressed⟩ := hboth
  refine ⟨?_, ?_, ?_⟩
  · intro k addr haddr
    obtain ⟨conn, hconn, rfl⟩ := Option.map_eq_some_iff.mp haddr
    exact (leadsTo_of_lookup hids haddressed hs hconn).2
  · intro peer hpeer
    obtain ⟨entry, hentry, rfl⟩ := List.mem_map.mp hpeer
    have hconn : (s.transports a).connections.lookup entry.1 = some entry.2 :=
      AList.mem_lookup_iff.mpr (List.mem_filter.mp hentry).1
    obtain ⟨hself, hleads⟩ := leadsTo_of_lookup hids haddressed hs hconn
    exact hself.symm ▸ hleads
  · intro k addr haddr
    unfold TransportManager.cleanup at haddr
    split at haddr
    · next conn hconn =>
      simp only [Option.ite_none_right_eq_some, Option.some.injEq] at haddr
      exact haddr.2 ▸ (leadsTo_of_lookup hids haddressed hs hconn).2
    · cases haddr

def pairIds (first : Bool) : PeerId := if first then ⟨"a"⟩ else ⟨"b"⟩

def pairIps (first : Bool) : String := if first then "10.0.0.1" else "10.0.0.2"

/-- The second node tells of the first and would reconnect to it. -/
theorem linked_pair_addresses :
    ∃ s, run (step fun _ => 1) (start pairIds (fun _ => "room") (fun _ => 4000) (fun _ => true))
        [.connect true false, .socket 0 .processHandshake, .register 0 .acceptor "10.0.0.1" 0] = some s ∧
      (s.transports false).getPeerListForSync = [(⟨"a"⟩, "10.0.0.1:4000")] ∧
      (∀ k addr, (s.transports false).getPeerAddr k = some addr →
        LeadsTo pairIds (fun _ => "room") (fun _ => 1) pairIps (fun _ => 4000) false k addr) ∧
      (∀ peer ∈ (s.transports false).getPeerListForSync,
        LeadsTo pairIds (fun _ => "room") (fun _ => 1) pairIps (fun _ => 4000) false peer.1 peer.2) ∧
      ∀ k addr, ((s.transports false).cleanup k).2 = some addr →
        LeadsTo pairIds (fun _ => "room") (fun _ => 1) pairIps (fun _ => 4000) false k addr := by
  have hsome : ((run (step fun _ => 1) (start pairIds (fun _ => "room") (fun _ => 4000) (fun _ => true))
      [.connect true false, .socket 0 .processHandshake, .register 0 .acceptor "10.0.0.1" 0]).map fun s =>
      (s.transports false).getPeerListForSync) = some [(⟨"a"⟩, "10.0.0.1:4000")] := by decide +kernel
  have hids : ∀ a b, pairIds a = pairIds b → a = b := by decide
  obtain ⟨s, hrun, hlist⟩ := Option.map_eq_some_iff.mp hsome
  exact ⟨s, hrun, hlist, addresses_lead_to_peers _ _ _ pairIps _ _ _ (fun a b h => hids a b h)
    (by decide +kernel) hrun false⟩

end Network

end MetaMystia

import MetaMystia.Node.Rediscovery
import MetaMystia.Transport.SingleDial

/-! # Nodes that find each other

A node dials on its own for two reasons: mDNS has resolved the service of a peer, or a
list of peers names it. Both tests leave the dial to the node with the smaller id and
pass over a registered peer. So no two nodes dial each other, and the same peer is
dialled again only if a second tip is handled while the first dial is under way.
-/

namespace MetaMystia

open Runs

universe u

/-- What the browse task asks of a resolved service; either property may be missing. -/
structure ServiceInfo where
  sessionId : Option String
  peerId : Option String
  addresses : List String
  port : UInt16

inductive ServiceEvent
  | serviceResolved (info : ServiceInfo)
  | serviceRemoved
  | other

namespace DiscoveryManager

theorem of_shouldConnectToDiscoveredPeer {localPeerId : PeerId} {localSessionId peerId session : String}
    {membership : MembershipManager} {transport : TransportManager}
    (h : shouldConnectToDiscoveredPeer localPeerId localSessionId peerId session membership transport =
      true) :
    localPeerId < ⟨peerId⟩ ∧ ⟨peerId⟩ ∉ transport.connections ∧ ⟨peerId⟩ ∉ membership.peers := by
  unfold shouldConnectToDiscoveredPeer at h
  split_ifs at h with _ hself htables hsmaller
  simp only [MembershipManager.hasPeer, TransportManager.hasPeer, Bool.or_eq_true, decide_eq_true_eq,
    not_or] at htables
  refine ⟨lt_of_le_of_ne (not_lt.mp hsmaller) ?_, htables.2, htables.1⟩
  rintro rfl
  exact hself rfl

/-- The service that `register_service` announces, resolved at these addresses. -/
def serviceInfo (localPeerId : PeerId) (sessionId : String) (listenPort : UInt16)
    (addresses : List String) : ServiceInfo where
  sessionId := some sessionId
  peerId := some localPeerId.id
  addresses := addresses
  port := listenPort

def browse (localPeerId : PeerId) (sessionId : String) (membership : MembershipManager)
    (transport : TransportManager) : ServiceEvent → Option String
  | .serviceResolved info =>
    match info.sessionId, info.peerId with
    | some session, some peerId =>
      if shouldConnectToDiscoveredPeer localPeerId sessionId peerId session membership transport then
        info.addresses.head?.map fun addr => addr ++ ":" ++ toString info.port
      else none
    | _, _ => none
  | .serviceRemoved | .other => none

end DiscoveryManager

/-- How a node hears of a peer: its service is resolved, or an entry of a `PeerListSync` names it. -/
inductive Tip
  | resolved (addresses : List String)
  | listed (addr : String)

def Tip.target (self : NetworkState) (peer : TransportManager) : Tip → Option String
  | .resolved addresses =>
    DiscoveryManager.browse self.transport.localPeerId self.transport.sessionId self.membership
      self.transport (.serviceResolved
        (DiscoveryManager.serviceInfo peer.localPeerId peer.sessionId peer.listenPort addresses))
  | .listed addr =>
    (self.connectTargets (.peerListSync [(peer.localPeerId, addr)])).head?.map Prod.snd

theorem Tip.target_eq_some {self : NetworkState} {peer : TransportManager} {tip : Tip} {addr : String}
    (h : tip.target self peer = some addr) :
    self.transport.localPeerId < peer.localPeerId ∧
      peer.localPeerId ∉ self.transport.connections ∧ peer.localPeerId ∉ self.membership.peers := by
  cases tip with
  | resolved addresses =>
    simp only [target, DiscoveryManager.browse, DiscoveryManager.serviceInfo] at h
    split_ifs at h with hconnect
    exact DiscoveryManager.of_shouldConnectToDiscoveredPeer hconnect
  | listed listed =>
    obtain ⟨target, hhead, rfl⟩ := Option.map_eq_some_iff.mp h
    have hmem := List.mem_of_mem_head? hhead
    simp only [NetworkState.connectTargets, List.mem_filter, List.mem_singleton, Bool.and_eq_true,
      Bool.not_eq_true', Bool.or_eq_false_iff, beq_eq_false_iff_ne, decide_eq_false_iff_not, not_lt,
      MembershipManager.hasPeer, TransportManager.hasPeer] at hmem
    obtain ⟨rfl, ⟨⟨hself, hmembership⟩, htransport⟩, hle⟩ := hmem
    exact ⟨lt_of_le_of_ne hle (Ne.symm hself), htransport, hmembership⟩

/-- `dials` holds the calls of `connect_to` that were spawned and have not reached the listener. -/
structure Discovery (ι : Type u) where
  network : Network ι
  dials : List (ι × ι)

namespace Discovery

variable {ι : Type u} [DecidableEq ι]

inductive Action (ι : Type u)
  | hears (a b : ι) (tip : Tip) (self : NetworkState)
  | connect (i : Nat)
  | network (action : Network.Action ι)

def start (id : ι → PeerId) (session : ι → String) (listenPort : ι → UInt16)
    (autoReconnect : ι → Bool) : Discovery ι where
  network := .start id session listenPort autoReconnect
  dials := []

def target (s : Discovery ι) (a b : ι) (tip : Tip) (self : NetworkState) : Option String :=
  tip.target { self with transport := s.network.transports a } (s.network.transports b)

/-- An address that a node has been told of leads to the listener of the peer. -/
def step (version : ι → UInt16) (s : Discovery ι) : Action ι → Option (Discovery ι)
  | .hears a b tip self =>
    match s.target a b tip self with
    | some _ => some { s with dials := s.dials ++ [(a, b)] }
    | none => some s
  | .connect i =>
    match s.dials[i]? with
    | some (a, b) => (s.network.step version (.connect a b)).map fun network =>
        { network, dials := s.dials.eraseIdx i }
    | none => none
  | .network action => (s.network.step version action).map fun network => { s with network }

/-- No tip about a peer is handled while a dial to it is under way, there are no other dials, and
otherwise the network is calm. -/
def Attentive (s : Discovery ι) : Action ι → Prop
  | .hears a b _ _ => (a, b) ∉ s.dials ∧ ∀ socket ∈ s.network.sockets, socket.owner .initiator = a →
      socket.owner .acceptor = b → Joining.isRegistered (socket.ends .initiator) = true
  | .connect _ => True
  | .network (.connect _ _) => False
  | .network action => s.network.Calm action

instance (s : Discovery ι) : (a : Action ι) → Decidable (s.Attentive a)
  | .hears .. => inferInstanceAs (Decidable (_ ∧ _))
  | .connect _ => .isTrue trivial
  | .network (.connect _ _) => .isFalse fun h => h
  | .network (.socket i action) => inferInstanceAs (Decidable (s.network.Calm (.socket i action)))
  | .network (.register i side peerIp now) =>
    inferInstanceAs (Decidable (s.network.Calm (.register i side peerIp now)))
  | .network (.cleanup i side) => inferInstanceAs (Decidable (s.network.Calm (.cleanup i side)))
  | .network (.registerDataChannel a peerId) =>
    inferInstanceAs (Decidable (s.network.Calm (.registerDataChannel a peerId)))
  | .network (.disconnectPeer a peerId fits) =>
    inferInstanceAs (Decidable (s.network.Calm (.disconnectPeer a peerId fits)))
  | .network (.cancelShutdownToken a) =>
    inferInstanceAs (Decidable (s.network.Calm (.cancelShutdownToken a)))
  | .network (.shutdown a) => inferInstanceAs (Decidable (s.network.Calm (.shutdown a)))

def Dials (a b : ι) (s : Discovery ι) : Action ι → Prop
  | .hears c d tip self => c = a ∧ d = b ∧ (s.target a b tip self).isSome = true
  | _ => False

/-- The dials so far, each from the node that made it to the peer, those under way at the end. -/
def pairs (s : Discovery ι) : List (ι × ι) :=
  s.network.sockets.map (fun socket => (socket.owner .initiator, socket.owner .acceptor)) ++ s.dials

structure Directed (id : ι → PeerId) (s : Discovery ι) : Prop where
  smaller : ∀ p ∈ s.pairs, id p.1 < id p.2
  once : s.pairs.Nodup

variable {id : ι → PeerId} {session : ι → String} {version : ι → UInt16} {s t start : Discovery ι}
  {front : List (Action ι)} {action : Action ι} {a b : ι}

omit [DecidableEq ι] in
theorem mem_pairs_of_socket {socket : Socket ι} (hsocket : socket ∈ s.network.sockets) :
    (socket.owner .initiator, socket.owner .acceptor) ∈ s.pairs :=
  List.mem_append_left _ (List.mem_map.mpr ⟨socket, hsocket, rfl⟩)

omit [DecidableEq ι] in
theorem Directed.not_joins (h : Directed id s) (hdial : (a, b) ∈ s.dials) {socket : Socket ι}
    (hsocket : socket ∈ s.network.sockets) : ¬ socket.Joins a b := by
  have hlt : id a < id b := h.smaller (a, b) (List.mem_append_right _ hdial)
  rintro (⟨rfl, rfl⟩ | ⟨rfl, rfl⟩)
  · have hmade : (socket.owner .initiator, socket.owner .acceptor) ∈ s.network.sockets.map
        (fun socket => (socket.owner .initiator, socket.owner .acceptor)) :=
      List.mem_map.mpr ⟨socket, hsocket, rfl⟩
    exact List.disjoint_of_nodup_append h.once hmade hdial
  · exact lt_asymm hlt (h.smaller _ (mem_pairs_of_socket hsocket))

omit [DecidableEq ι] in
theorem Directed.of_perm (h : Directed id s) (hperm : t.pairs.Perm s.pairs) : Directed id t :=
  ⟨fun p hp => h.smaller p (hperm.mem_iff.mp hp), hperm.nodup_iff.mpr h.once⟩

/-- Steps that dial nobody keep the sockets between the same nodes. -/
theorem owners_step {network next : Network ι} {action : Network.Action ι}
    (hdial : ∀ a b, action ≠ .connect a b) (hstep : network.step version action = some next) :
    next.sockets.map Socket.owner = network.sockets.map Socket.owner := by
  have hset : ∀ {i : Nat} {old socket : Socket ι}, network.sockets[i]? = some old →
      socket.owner = old.owner →
      (network.sockets.set i socket).map Socket.owner = network.sockets.map Socket.owner := by
    intro i old socket hi howner
    rw [List.map_set, howner]
    obtain ⟨hlt, rfl⟩ := List.getElem?_eq_some_iff.mp hi
    rw [← List.getElem_map Socket.owner (h := by simpa using hlt), List.set_getElem_self]
  cases action with
  | connect a b => exact absurd rfl (hdial a b)
  | socket i action =>
    simp only [Network.step] at hstep
    split at hstep
    · next socket hi =>
      obtain ⟨socket', hsocket, rfl⟩ := Option.map_eq_some_iff.mp hstep
      exact hset hi (Socket.step_registered hsocket).1
    · cases hstep
  | register i side peerIp now =>
    simp only [Network.step] at hstep
    split at hstep
    · next socket hi =>
      split at hstep
      · split at hstep <;> cases hstep <;> exact hset hi rfl
      · cases hstep
    · cases hstep
  | cleanup i side =>
    simp only [Network.step] at hstep
    split at hstep
    · next socket hi =>
      split at hstep
      · cases hstep
        exact hset hi rfl
      · cases hstep
    · cases hstep
  | registerDataChannel a peerId | cancelShutdownToken a | shutdown a =>
    cases hstep
    rfl
  | disconnectPeer a peerId fits =>
    simp only [Network.step] at hstep
    split at hstep <;> cases hstep <;> rfl

theorem pairs_of_network_step {network : Network ι} {action : Network.Action ι}
    (hdial : ∀ a b, action ≠ .connect a b) (hstep : s.network.step version action = some network) :
    ({ s with network } : Discovery ι).pairs = s.pairs := by
  have howners := congrArg (List.map fun owner => (owner Side.initiator, owner Side.acceptor))
    (owners_step hdial hstep)
  simp only [List.map_map, Function.comp_def] at howners
  simp only [pairs, howners]

omit [DecidableEq ι] in
theorem perm_pairs_connect {i : Nat} (hi : s.dials[i]? = some (a, b)) {socket : Socket ι}
    (hinitiator : socket.owner .initiator = a) (hacceptor : socket.owner .acceptor = b)
    {network : Network ι} (hnetwork : network.sockets = s.network.sockets ++ [socket]) :
    ({ network, dials := s.dials.eraseIdx i } : Discovery ι).pairs.Perm s.pairs := by
  obtain ⟨hlt, hget⟩ := List.getElem?_eq_some_iff.mp hi
  have hmoved : ((a, b) :: s.dials.eraseIdx i).Perm s.dials := by
    have hperm := List.getElem_cons_eraseIdx_perm hlt
    rwa [hget] at hperm
  simp only [pairs, hnetwork, List.map_append, List.map_cons, List.map_nil, hinitiator, hacceptor,
    List.append_assoc, List.singleton_append]
  exact hmoved.append_left _

theorem pairs_step (hattentive : s.Attentive action) (hstep : s.step version action = some t) :
    (∃ a b, Dials a b s action ∧ t.pairs = s.pairs ++ [(a, b)]) ∨
      ((∀ a b, ¬ Dials a b s action) ∧ t.pairs.Perm s.pairs) := by
  cases action with
  | hears a b tip self =>
    simp only [step] at hstep
    split at hstep
    · next addr htarget =>
      cases hstep
      exact .inl ⟨a, b, ⟨rfl, rfl, by simp [htarget]⟩, by simp [pairs]⟩
    · next htarget =>
      cases hstep
      refine .inr ⟨?_, .refl _⟩
      rintro c d ⟨rfl, rfl, hsome⟩
      simp [htarget] at hsome
  | connect i =>
    simp only [step] at hstep
    split at hstep
    · next a b hi =>
      cases hstep
      exact .inr ⟨fun _ _ => id, perm_pairs_connect hi rfl rfl rfl⟩
    · cases hstep
  | network action =>
    obtain ⟨network, hnetwork, rfl⟩ := Option.map_eq_some_iff.mp hstep
    refine .inr ⟨fun _ _ => id, .of_eq (pairs_of_network_step ?_ hnetwork)⟩
    rintro a b rfl
    exact hattentive

omit [DecidableEq ι] in
theorem mem_of_isRegistered {network : Network ι} (h : network.Dialling id)
    (hs : network.Isolated id session version) {socket : Socket ι} (hsocket : socket ∈ network.sockets)
    {side : Side} (hregistered : Joining.isRegistered (socket.ends side) = true) :
    id (socket.owner side.other) ∈ (network.transports (socket.owner side)).connections := by
  obtain ⟨i, hi⟩ := List.mem_iff_getElem?.mp hsocket
  unfold Joining.isRegistered at hregistered
  split at hregistered
  · next peerId generation hend =>
    obtain ⟨rfl, _⟩ := (hs.sockets i socket hi).known side peerId (by rw [hend]; rfl)
    obtain ⟨conn, hconn, _⟩ := h.entered _ _ generation _ ⟨i, side, socket, hi, rfl, rfl, hend⟩
    exact AList.lookup_isSome.mp (by simp [hconn])
  · cases hregistered

omit [DecidableEq ι] in
theorem Dials.first (h : Dials a b s action) (hs : s.network.Isolated id session version)
    (hdialling : s.network.Dialling id) (hattentive : s.Attentive action) : id a < id b ∧ (a, b) ∉ s.pairs := by
  cases action with
  | connect i => cases h
  | network action => cases h
  | hears c d tip self =>
    obtain ⟨rfl, rfl, hsome⟩ := h
    obtain ⟨addr, htarget⟩ := Option.isSome_iff_exists.mp hsome
    obtain ⟨hsmaller, hnew, _⟩ := Tip.target_eq_some htarget
    simp only [(hs.same _).1] at hsmaller hnew
    obtain ⟨hidle, hregistered⟩ := hattentive
    refine ⟨hsmaller, ?_⟩
    intro hmem
    obtain hmade | hdial := List.mem_append.mp hmem
    · obtain ⟨socket, hsocket, heq⟩ := List.mem_map.mp hmade
      obtain ⟨rfl, rfl⟩ := Prod.mk.inj heq
      exact hnew (mem_of_isRegistered hdialling hs hsocket (hregistered socket hsocket rfl rfl))
    · exact hidle hdial

theorem Directed.step (h : Directed id s) (hs : s.network.Isolated id session version)
    (hdialling : s.network.Dialling id) (hattentive : s.Attentive action) (hstep : s.step version action = some t) : Directed id t := by
  obtain ⟨a, b, hdials, heq⟩ | ⟨_, hperm⟩ := pairs_step hattentive hstep
  · obtain ⟨hsmaller, hnew⟩ := hdials.first hs hdialling hattentive
    constructor
    · intro p hp
      rw [heq] at hp
      obtain hold | hp := List.mem_append.mp hp
      · exact h.smaller p hold
      · rwa [List.mem_singleton.mp hp]
    · rw [heq]
      refine List.nodup_append.mpr ⟨h.once, List.nodup_singleton _, ?_⟩
      rintro p hp q hq rfl
      exact hnew (List.mem_singleton.mp hq ▸ hp)
  · exact h.of_perm hperm

theorem Directed.dialling (h : Directed id s) (hids : Function.Injective id)
    (hroom : ∀ a b, Socket.SameRoom session version a b) (hs : s.network.Isolated id session version)
    (hdialling : s.network.Dialling id) (hattentive : s.Attentive action)
    (hstep : s.step version action = some t) : t.network.Dialling id := by
  cases action with
  | hears a b tip self =>
    simp only [Discovery.step] at hstep
    split at hstep <;> cases hstep <;> exact hdialling
  | connect i =>
    simp only [Discovery.step] at hstep
    split at hstep
    · next a b hi =>
      have hdial : (a, b) ∈ s.dials := List.mem_of_getElem? hi
      have hne : a ≠ b := by
        rintro rfl
        exact lt_irrefl _ (h.smaller (a, a) (List.mem_append_right _ hdial))
      obtain ⟨network, hnetwork, rfl⟩ := Option.map_eq_some_iff.mp hstep
      exact hdialling.connect hne (fun socket hsocket => h.not_joins hdial hsocket) hnetwork
    · cases hstep
  | network action =>
    obtain ⟨network, hnetwork, rfl⟩ := Option.map_eq_some_iff.mp hstep
    refine hdialling.step hids hroom hs ?_ hnetwork
    cases action with
    | connect a b => exact absurd hattentive (fun h => h)
    | _ => exact hattentive

theorem isolated_step (hs : s.network.Isolated id session version)
    (hstep : s.step version action = some t) : t.network.Isolated id session version := by
  cases action with
  | hears a b tip self =>
    simp only [step] at hstep
    split at hstep <;> cases hstep <;> exact hs
  | connect i =>
    simp only [step] at hstep
    split at hstep
    · obtain ⟨network, hnetwork, rfl⟩ := Option.map_eq_some_iff.mp hstep
      exact hs.step hnetwork
    · cases hstep
  | network action =>
    obtain ⟨network, hnetwork, rfl⟩ := Option.map_eq_some_iff.mp hstep
    exact hs.step hnetwork

/-- The dials so far are what the tips have caused, and each is on its way to be a link. -/
structure Found (version : ι → UInt16) (id : ι → PeerId) (session : ι → String) (start : Discovery ι)
    (acts : List (Action ι)) (s : Discovery ι) : Prop where
  isolated : s.network.Isolated id session version
  dialling : s.network.Dialling id
  directed : Directed id s
  told : ∀ a b, (a, b) ∈ s.pairs ↔ Occurs (step version) (Dials a b) start acts

theorem Found.step (h : Found version id session start front s) (hids : Function.Injective id)
    (hroom : ∀ a b, Socket.SameRoom session version a b)
    (hrun : run (step version) start front = some s) (hattentive : s.Attentive action)
    (hstep : s.step version action = some t) : Found version id session start (front ++ [action]) t := by
  refine ⟨isolated_step h.isolated hstep, ?_, ?_, ?_⟩
  · exact h.directed.dialling hids hroom h.isolated h.dialling hattentive hstep
  · exact h.directed.step h.isolated h.dialling hattentive hstep
  · intro a b
    rw [occurs_concat_iff hrun, ← h.told a b]
    obtain ⟨c, d, hdials, heq⟩ | ⟨hnone, hperm⟩ := pairs_step hattentive hstep
    · have hsame : Dials a b s action ↔ (a, b) = (c, d) := by
        cases action with
        | hears x y tip self =>
          obtain ⟨rfl, rfl, hsome⟩ := hdials
          constructor
          · rintro ⟨rfl, rfl, _⟩
            rfl
          · intro hpair
            obtain ⟨rfl, rfl⟩ := Prod.mk.inj hpair
            exact ⟨rfl, rfl, hsome⟩
        | connect i => cases hdials
        | network action => cases hdials
      rw [heq, List.mem_append, List.mem_singleton, hsame]
    · rw [hperm.mem_iff]
      simp [hnone a b]

/-- In one session, nodes that only dial whom they hear of, and no peer again while a dial to it is
under way: every socket leads from the smaller id to the larger, none is ever dropped, and when the
handshakes are over the nodes linked to each other are those of which one has dialled the other on a
tip. -/
theorem found_nodes_link (version : ι → UInt16) (id : ι → PeerId) (session : ι → String)
    (listenPort : ι → UInt16) (autoReconnect : ι → Bool) (acts : List (Action ι))
    (hids : Function.Injective id) (hroom : ∀ a b, Socket.SameRoom session version a b)
    (hattentive : Along (step version) Attentive (Discovery.start id session listenPort autoReconnect) acts)
    (hrun : run (step version) (Discovery.start id session listenPort autoReconnect) acts = some s) :
    (∀ socket ∈ s.network.sockets, id (socket.owner .initiator) < id (socket.owner .acceptor) ∧
      ∀ side, socket.ends side ≠ .dropping ∧ socket.ends side ≠ .dropped) ∧
    (s.dials = [] → s.network.Quiet version → ∀ a b, id b ∈ (s.network.transports a).connections ↔
      Occurs (step version) (Dials a b) (Discovery.start id session listenPort autoReconnect) acts ∨
      Occurs (step version) (Dials b a) (Discovery.start id session listenPort autoReconnect) acts) := by
  have hstart : Found version id session (Discovery.start id session listenPort autoReconnect) []
      (Discovery.start id session listenPort autoReconnect) :=
    ⟨Network.isolated_start, Network.dialling_start, ⟨nofun, .nil⟩,
      fun a b => iff_of_false nofun not_occurs_nil⟩
  have h : Found version id session (Discovery.start id session listenPort autoReconnect) acts s :=
    history_induction hstart (fun _ _ _ _ hm _ h hattentive hstep => h.step hids hroom hm hattentive hstep)
      hattentive hrun
  refine ⟨?_, ?_⟩
  · intro socket hsocket
    obtain ⟨i, hi⟩ := List.mem_iff_getElem?.mp hsocket
    exact ⟨h.directed.smaller _ (mem_pairs_of_socket hsocket), (h.dialling.underway i socket hi).not_dropped⟩
  · intro hidle hquiet a b
    have hlinked : ∀ socket ∈ s.network.sockets, Network.Linked id s.network socket := by
      intro socket hsocket
      obtain ⟨i, hi⟩ := List.mem_iff_getElem?.mp hsocket
      exact h.dialling.linked h.isolated hquiet hi
    have hpairs : ∀ c d, (∃ socket ∈ s.network.sockets,
        socket.owner .initiator = c ∧ socket.owner .acceptor = d) ↔ (c, d) ∈ s.pairs := by
      simp [pairs, hidle]
    rw [Network.mem_connections_iff hids h.isolated hlinked a b, ← h.told a b, ← h.told b a,
      ← hpairs, ← hpairs]
    constructor
    · rintro ⟨socket, hsocket, hjoins⟩
      exact hjoins.imp (fun h => ⟨socket, hsocket, h⟩) fun h => ⟨socket, hsocket, h.2, h.1⟩
    · rintro (⟨socket, hsocket, hjoins⟩ | ⟨socket, hsocket, hb, ha⟩)
      · exact ⟨socket, hsocket, .inl hjoins⟩
      · exact ⟨socket, hsocket, .inr ⟨ha, hb⟩⟩

/-- Tips of both kinds; the second ones about `c` come when it is registered, those about `a` are for
the others to dial. -/
def trioTips : List (Action PeerId) :=
  [.hears ⟨"a"⟩ ⟨"b"⟩ (.resolved ["10.0.0.2"]) Node.sampleNet,
    .hears ⟨"b"⟩ ⟨"a"⟩ (.resolved ["10.0.0.1"]) Node.sampleNet,
    .hears ⟨"a"⟩ ⟨"c"⟩ (.resolved ["10.0.0.3", "10.0.1.3"]) Node.sampleNet, .connect 1, .connect 0,
    .network (.socket 0 .processHandshake), .hears ⟨"b"⟩ ⟨"c"⟩ (.listed "10.0.0.3:4000") Node.sampleNet,
    .network (.register 0 .acceptor "10.0.0.1" 0), .network (.socket 0 .receiveHandshakeAck), .connect 0,
    .network (.register 0 .initiator "10.0.0.3" 0),
    .hears ⟨"a"⟩ ⟨"c"⟩ (.listed "10.0.0.3:4000") Node.sampleNet,
    .network (.socket 2 .processHandshake), .network (.socket 1 .processHandshake),
    .network (.register 1 .acceptor "10.0.0.1" 0), .network (.socket 1 .receiveHandshakeAck),
    .network (.socket 2 .receiveHandshakeAck), .network (.register 2 .initiator "10.0.0.3" 0),
    .network (.register 1 .initiator "10.0.0.2" 0), .network (.register 2 .acceptor "10.0.0.2" 0),
    .hears ⟨"c"⟩ ⟨"a"⟩ (.listed "10.0.0.1:4000") Node.sampleNet]

theorem three_tips_link :
    ∃ s, run (step fun _ => 1) (Discovery.start (fun a => a) (fun _ => "room") (fun _ => 4000) fun _ => true)
        trioTips = some s ∧ s.network.sockets.length = 3 ∧
      (∀ socket ∈ s.network.sockets, socket.owner .initiator < socket.owner .acceptor ∧
        ∀ side, socket.ends side ≠ .dropping ∧ socket.ends side ≠ .dropped) ∧
      ∀ a b, b ∈ (s.network.transports a).connections ↔
        Occurs (step fun _ => 1) (Dials a b)
          (Discovery.start (fun a => a) (fun _ => "room") (fun _ => 4000) fun _ => true) trioTips ∨
        Occurs (step fun _ => 1) (Dials b a)
          (Discovery.start (fun a => a) (fun _ => "room") (fun _ => 4000) fun _ => true) trioTips := by
  have hends : ((run (step fun _ => 1)
      (Discovery.start (fun a => a) (fun _ => "room") (fun _ => 4000) fun _ => true) trioTips).map
        fun s => (s.dials, s.network.sockets.length, s.network.sockets.all Network.bothRegistered)) =
      some ([], 3, true) := by decide +kernel
  obtain ⟨s, hrun, hend⟩ := Option.map_eq_some_iff.mp hends
  obtain ⟨hidle, hcount, hregistered⟩ : s.dials = [] ∧ s.network.sockets.length = 3 ∧
      s.network.sockets.all Network.bothRegistered = true := by simpa using hend
  obtain ⟨hsockets, hlinks⟩ := found_nodes_link _ _ _ _ _ trioTips (fun a b h => h)
    (fun _ _ => ⟨rfl, rfl⟩) (by decide +kernel) hrun
  exact ⟨s, hrun, hcount, hsockets, hlinks hidle (Network.quiet_of_registered hregistered)⟩

end Discovery

end MetaMystia

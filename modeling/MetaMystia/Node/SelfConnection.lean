import MetaMystia.Node.NodeTasks

/-! # A node that is its own peer

Peers enter the connection map through a handshake only, on either side of it. The
list of peers and the discovery compare ids before they connect, but a handshake
does not: a node that dials its own listener becomes its own peer. It does not as
long as no handshake that would be accepted carries its own id.
-/

namespace MetaMystia

open Runs TransportManager

/-- A greeting with the node's own id that the handshake would accept. -/
def TransportManager.ownGreeting (self : TransportManager) : InternalMessage → Bool
  | .handshake peerId _ version sessionId =>
    peerId = self.localPeerId && version = protocolVersion && sessionId = self.sessionId
  | .handshakeAck peerId _ success errorReason =>
    peerId = self.localPeerId && success && errorReason ≠ some "already_connected"
  | _ => false

namespace MembershipManager

/-- The peer is no member, and the watcher will not hear that it left. -/
def Absent (self : MembershipManager) (peer : PeerId) : Prop :=
  peer ∉ self.peers ∧ .left peer ∉ self.eventTx

variable {self : MembershipManager} {peer peerId : PeerId}

theorem Absent.removePeer (h : self.Absent peer) : (self.removePeer peerId).Absent peer := by
  obtain ⟨_, heq⟩ | ⟨hin, _⟩ := self.removePeer_cases peerId
  · rwa [heq]
  · refine ⟨fun hmem => h.1 (mem_peers_of_removePeer hmem), fun hleft => ?_⟩
    cases left_of_mem_removePeer hleft with
    | inl hold => exact h.2 hold
    | inr heq => exact h.1 (heq ▸ hin)

theorem Absent.updateStatus (h : self.Absent peer) (newStatus : PeerStatus) :
    (self.updateStatus peerId newStatus).Absent peer :=
  ⟨fun hmem => h.1 (mem_peers_of_updateStatus hmem), fun hleft => h.2 (left_mem_updateStatus.mp hleft)⟩

theorem Absent.modify (h : self.Absent peer) (f : PeerInfo → PeerInfo) :
    (self.modify peerId f).Absent peer :=
  ⟨fun hmem => h.1 (mem_peers_of_modify hmem), by rw [modify_eventTx]; exact h.2⟩

end MembershipManager

namespace NetworkState

open MembershipManager

variable {s next : NetworkState} {peer : PeerId}

theorem absent_peerConnected (hconnections : peer ∉ s.transport.connections)
    (h : s.membership.Absent peer) (peerId : PeerId) (now : Clock) :
    (s.peerConnected peerId now).membership.Absent peer := by
  refine ⟨notMem_peers_peerConnected now hconnections h.1, ?_⟩
  unfold peerConnected
  cases s.transport.getPeerAddr peerId with
  | none => exact h.2
  | some addr =>
    obtain ⟨_, heq⟩ | ⟨_, heq⟩ := s.membership.addPeer_cases peerId addr now.instant
    · simp only [heq]
      exact ((h.updateStatus .connected).modify _).2
    · simpa [heq] using h.2

theorem absent_handleMembership (hconnections : peer ∉ s.transport.connections)
    (h : s.membership.Absent peer) (peerId : PeerId) (now : Clock) (msg : InternalMessage) :
    (s.handleMembership peerId now msg).1.membership.Absent peer := by
  cases msg with
  | handshake remoteId => exact absent_peerConnected hconnections h remoteId now
  | handshakeAck remoteId _ success =>
    cases success with
    | false => exact h
    | true => exact absent_peerConnected hconnections h remoteId now
  | peerLeave leavingId => exact h.removePeer
  | ping | pong | heartbeat | heartbeatResponse => exact h.modify _
  | _ => exact h

theorem absent_watch (h : s.membership.Absent peer) (hwatch : s.watch = some next) :
    next.membership.Absent peer := by
  have hrest : ∀ event rest, s.membership.eventTx = event :: rest → .left peer ∉ rest := by
    intro event rest hevents hleft
    exact h.2 (hevents ▸ List.mem_cons_of_mem _ hleft)
  obtain ⟨_, rest, hevents, rfl⟩ | ⟨_, rest, hevents, _, rfl⟩ := watch_cases hwatch
  · exact ⟨h.1, hrest _ rest hevents⟩
  · exact ⟨h.1, hrest _ rest hevents⟩

theorem absent_disconnectPeer (h : s.membership.Absent peer) (peerId : PeerId) (fits : Bool) :
    (s.disconnectPeer peerId fits).membership.Absent peer := by
  cases s.disconnectPeer_cases peerId fits with
  | inl heq => rwa [heq]
  | inr heq =>
    rw [heq]
    exact h.removePeer

end NetworkState

namespace Node

/-- The message that a connecting task takes for the handshake of its peer. -/
def Action.greeting : Action → Option InternalMessage
  | .connecting (.handshake _ msg _) => some msg
  | _ => none

def GreetsOthers (s : Node) (a : Action) : Prop :=
  ∀ msg ∈ a.greeting, s.net.transport.ownGreeting msg = false

instance (s : Node) (a : Action) : Decidable (s.GreetsOthers a) :=
  inferInstanceAs (Decidable (∀ msg ∈ a.greeting, _))

/-- No trace of the peer: no task is about to register it, and neither the map nor the membership
knows it. -/
structure Without (peer : PeerId) (s : Node) : Prop where
  unready : ∀ task ∈ s.tasks, ∀ addr, task.phase ≠ .ready peer addr
  unconnected : peer ∉ s.net.transport.connections
  absent : s.net.membership.Absent peer

variable {config : ConnectConfig} {s t : Node} {peer : PeerId}

/-- A write to one task slot, or further tasks, none of which is about to register the peer. -/
theorem unready_setTask {tasks : List ConnectTask} {i : Nat} {new : ConnectTask}
    (h : ∀ task ∈ tasks, ∀ addr, task.phase ≠ .ready peer addr) (hnew : ∀ addr, new.phase ≠ .ready peer addr) :
    ∀ task ∈ tasks.set i new, ∀ addr, task.phase ≠ .ready peer addr := by
  intro task htask
  cases List.mem_or_eq_of_mem_set htask with
  | inl hold => exact h task hold
  | inr heq => exact heq ▸ hnew

theorem unready_append {tasks more : List ConnectTask}
    (h : ∀ task ∈ tasks, ∀ addr, task.phase ≠ .ready peer addr)
    (hmore : ∀ task ∈ more, ∀ addr, task.phase ≠ .ready peer addr) :
    ∀ task ∈ tasks ++ more, ∀ addr, task.phase ≠ .ready peer addr := by
  intro task htask
  cases List.mem_append.mp htask with
  | inl hold => exact h task hold
  | inr hnew => exact hmore task hnew

theorem unready_connecting {c next : Connecting} {action : Connecting.Action}
    (h : ∀ task ∈ c.tasks, ∀ addr, task.phase ≠ .ready peer addr)
    (haction : ∀ i msg peerIp, action = .handshake i msg peerIp →
      ∀ origin port notify, c.answer origin msg ≠ .ok (peer, port, notify))
    (hstep : c.step config action = some next) :
    ∀ task ∈ next.tasks, ∀ addr, task.phase ≠ .ready peer addr := by
  cases Connecting.step_effect hstep with
  | accept | connectTo => exact unready_append h (by simp)
  | stop | sleepElapsed | attempt | check => exact unready_setTask h nofun
  | @fail _ i old =>
    refine unready_setTask h fun addr => ?_
    cases Connecting.fail_phase config c old with
    | inl hphase => simp [hphase.1]
    | inr hphase => simp [hphase]
  | @handshake i msg peerIp origin peerId listenPort notify hi hok =>
    refine unready_setTask h ?_
    rintro addr heq
    cases heq
    exact haction i msg peerIp rfl origin listenPort notify hok
  | register => exact unready_setTask h nofun
  | manage => exact h
  | cleanup =>
    refine unready_append h ?_
    intro task htask
    obtain ⟨addr, _, rfl⟩ := Option.map_eq_some_iff.mp (Option.mem_toList.mp htask)
    exact nofun

theorem ownGreeting_of_answer {c : Connecting} {origin : Origin} {msg : InternalMessage}
    {port : UInt16} {notify : InternalMessage}
    (h : c.answer origin msg = .ok (c.manager.localPeerId, port, notify)) :
    c.manager.ownGreeting msg = true := by
  have hinbound : (c.manager.processHandshakeMessage msg).2 = .ok (c.manager.localPeerId, port, notify) →
      c.manager.ownGreeting msg = true := by
    intro hok
    cases msg with
    | handshake peerId listenPort version sessionId =>
      obtain ⟨_, _, _, heq, _, hsame⟩ := c.manager.processHandshakeMessageAt_handshake protocolVersion
        peerId listenPort version sessionId
      rw [processHandshakeMessage, heq] at hok
      obtain ⟨hpeer, hversion, hsession⟩ := hsame _ _ _ hok
      simp [ownGreeting, ← hpeer, hversion, hsession]
    | _ => cases hok
  have houtbound : receiveHandshakeAck msg = .ok (c.manager.localPeerId, port, notify) →
      c.manager.ownGreeting msg = true := by
    intro hok
    cases msg with
    | handshakeAck peerId listenPort success errorReason =>
      simp only [receiveHandshakeAck] at hok
      split at hok
      · split at hok <;> cases hok
      · next hsuccess =>
        split at hok
        · cases hok
        · next hreason =>
          cases hok
          simpa [ownGreeting, hreason] using hsuccess
    | _ => cases hok
  cases origin with
  | inbound => exact hinbound h
  | outbound | reconnect => exact houtbound h

theorem Without.unready_step {a : Action} (h : s.Without s.net.transport.localPeerId)
    (ha : s.GreetsOthers a) (hstep : s.step config a = some t) :
    ∀ task ∈ t.tasks, ∀ addr, task.phase ≠ .ready s.net.transport.localPeerId addr := by
  cases a with
  | connecting action =>
    simp only [step, Option.ite_none_right_eq_some, Option.map_eq_some_iff] at hstep
    obtain ⟨_, c, hc, rfl⟩ := hstep
    refine unready_connecting h.unready ?_ hc
    rintro i msg peerIp rfl origin port notify hok
    have hown : s.net.transport.ownGreeting msg = true := ownGreeting_of_answer hok
    exact absurd ((ha msg rfl).symm.trans hown) (by simp)
  | handle now =>
    simp only [step] at hstep
    split at hstep
    · cases hstep
      refine unready_append h.unready ?_
      intro task htask
      obtain ⟨out, _, hout⟩ := List.mem_filterMap.mp htask
      cases out with
      | connect addr =>
        cases hout
        simp
      | _ => cases hout
    · cases hstep
  | read generation msg =>
    obtain ⟨_, _, rfl⟩ := Option.map_eq_some_iff.mp hstep
    exact h.unready
  | watch =>
    obtain ⟨_, _, rfl⟩ := Option.map_eq_some_iff.mp hstep
    exact h.unready
  | checkTimeouts now =>
    simp only [step, Option.ite_none_right_eq_some, Option.some.injEq] at hstep
    obtain ⟨_, rfl⟩ := hstep
    exact h.unready
  | updateTimedOut =>
    obtain ⟨_, _, _, _, rfl⟩ := updateTimedOut_cases hstep
    exact h.unready
  | disconnectTimedOut fits =>
    obtain ⟨_, _, _, _, rfl⟩ := disconnectTimedOut_cases hstep
    exact h.unready
  | _ =>
    cases hstep
    exact h.unready

theorem Without.unconnected_step {a : Action} (h : s.Without peer) (hstep : s.step config a = some t) :
    peer ∉ t.net.transport.connections := by
  cases step_effect hstep with
  | @register _ _ _ peerId addr _ hi _ htransport =>
    rw [htransport]
    intro hmem
    obtain rfl | hold := (AList.mem_insert _).mp hmem
    · exact h.unready _ (List.mem_of_getElem? hi) addr rfl
    · exact h.unconnected hold
  | keep hkeeps =>
    intro hmem
    obtain ⟨new, hnew⟩ := Assoc.exists_lookup_of_mem hmem
    obtain ⟨conn, hconn, _⟩ := hkeeps.transport.old peer new hnew
    exact h.unconnected (Assoc.mem_of_lookup hconn)

theorem Without.absent_step {a : Action} (h : s.Without peer) (hstep : s.step config a = some t) :
    t.net.membership.Absent peer := by
  cases step_membership hstep with
  | keep heq =>
    rw [heq]
    exact h.absent
  | handle sender msg heq =>
    rw [heq]
    exact NetworkState.absent_handleMembership h.unconnected h.absent sender _ msg
  | watch hwatch heq =>
    rw [heq]
    exact NetworkState.absent_watch h.absent hwatch
  | updateTimedOut _ heq =>
    rw [heq]
    exact h.absent.updateStatus .disconnected
  | disconnectPeer heq =>
    rw [heq]
    exact NetworkState.absent_disconnectPeer h.absent _ _

theorem localPeerId_of_step {a : Action} (hstep : s.step config a = some t) :
    t.net.transport.localPeerId = s.net.transport.localPeerId := by
  cases step_effect hstep with
  | register _ _ htransport => rw [htransport]
  | keep hkeeps => exact hkeeps.transport.localPeerId

theorem Without.step {a : Action} (h : s.Without s.net.transport.localPeerId) (ha : s.GreetsOthers a)
    (hstep : s.step config a = some t) : t.Without t.net.transport.localPeerId := by
  rw [localPeerId_of_step hstep]
  exact ⟨h.unready_step ha hstep, h.unconnected_step hstep, h.absent_step hstep⟩

/-- A node that has just been created. -/
def Fresh (net : NetworkState) : Prop :=
  net.transport.connections = ∅ ∧ net.membership.peers = ∅ ∧ net.membership.eventTx = []

theorem without_start {net : NetworkState} (hfresh : Fresh net) : (start net).Without peer := by
  obtain ⟨hconnections, hpeers, hevents⟩ := hfresh
  refine ⟨nofun, ?_, ?_, ?_⟩
  · simp [start, hconnections]
  · simp [start, hpeers]
  · simp [start, hevents]

/-- As long as no handshake that would be accepted carries the node's own id, the node is no key of
its connection map and no member, so that the count of connected peers is one of others, and its
election never hears that the node itself left. -/
theorem never_own_peer {net : NetworkState} (hfresh : Fresh net) {acts : List Action}
    (hothers : Along (step config) GreetsOthers (start net) acts)
    (hrun : run (step config) (start net) acts = some s) :
    s.net.transport.localPeerId ∉ s.net.transport.connections ∧
      (∀ entry ∈ s.net.membership.peers.entries, entry.1 ≠ s.net.transport.localPeerId) ∧
      .left s.net.transport.localPeerId ∉ s.net.membership.eventTx := by
  have h : s.Without s.net.transport.localPeerId :=
    invariant (I := fun s => s.Without s.net.transport.localPeerId)
      (fun _ _ _ h ha hstep => h.step ha hstep) (without_start hfresh) hothers hrun
  refine ⟨h.unconnected, ?_, h.absent.2⟩
  intro entry hentry heq
  exact h.absent.1 (heq ▸ List.mem_map_of_mem hentry)

/-- Peer `b` connects and is heard of. -/
theorem peer_of_another :
    ∃ s ∈ run (step ⟨8, 0⟩) (start sampleNet)
        [.connecting .accept, .connecting (.checkLimit 0),
          .connecting (.handshake 0 (.handshake ⟨"b"⟩ 4000 1 "room") "10.0.0.2"),
          .connecting (.register 0 0), .deliver ⟨"b"⟩ (.handshake ⟨"b"⟩ 4000 1 "room"), .handle ⟨0, 0⟩],
      s.net.membership.getConnectedPeerCount = 1 ∧
      s.net.transport.localPeerId ∉ s.net.transport.connections ∧
      (∀ entry ∈ s.net.membership.peers.entries, entry.1 ≠ s.net.transport.localPeerId) ∧
      .left s.net.transport.localPeerId ∉ s.net.membership.eventTx := by
  have hcount : ∃ s ∈ run (step ⟨8, 0⟩) (start sampleNet)
        [.connecting .accept, .connecting (.checkLimit 0),
          .connecting (.handshake 0 (.handshake ⟨"b"⟩ 4000 1 "room") "10.0.0.2"),
          .connecting (.register 0 0), .deliver ⟨"b"⟩ (.handshake ⟨"b"⟩ 4000 1 "room"), .handle ⟨0, 0⟩],
      s.net.membership.getConnectedPeerCount = 1 := by decide +kernel
  obtain ⟨s, hs, hone⟩ := hcount
  exact ⟨s, hs, hone, never_own_peer ⟨rfl, rfl, rfl⟩ (by decide +kernel) hs⟩

/-- The node dials its own listener: each end of the connection takes the other for a peer. -/
def dialOwnListener : List Action :=
  [.connecting (.connectTo "127.0.0.1:4000"), .connecting .accept, .connecting (.checkLimit 0),
    .connecting (.checkLimit 1), .connecting (.handshake 1 sampleNet.transport.handshake "127.0.0.1"),
    .connecting (.handshake 0 (sampleNet.transport.handshakeAck true none) "127.0.0.1"),
    .connecting (.register 0 0), .deliver ⟨"a"⟩ (sampleNet.transport.handshakeAck true none), .handle ⟨0, 0⟩]

theorem own_peer_after_dialling_itself :
    ∃ s ∈ run (step ⟨8, 0⟩) (start sampleNet) dialOwnListener,
      s.net.transport.localPeerId ∈ s.net.transport.connections ∧
      s.net.transport.localPeerId ∈ s.net.membership.peers ∧ s.net.membership.getConnectedPeerCount = 1 ∧
      ∃ t ∈ s.step ⟨8, 0⟩ (.disconnectPeer s.net.transport.localPeerId true),
        .left s.net.transport.localPeerId ∈ t.net.membership.eventTx := by
  decide +kernel

end Node

end MetaMystia

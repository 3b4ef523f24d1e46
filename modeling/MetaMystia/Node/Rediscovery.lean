import MetaMystia.Node.PeerListSync
import MetaMystia.Node.Reconnects
import MetaMystia.Node.SelfConnection
import MetaMystia.Node.StatusCallbacks

/-! # Finding a lost peer again

Both the discovery and the list of peers pass over a peer that is still in the
membership table. A peer that left or was disconnected is removed from the table; one
that timed out stays in it, marked as disconnected, and is passed over until it
connects by itself.
-/

namespace MetaMystia

open Runs TransportManager

def DiscoveryManager.shouldConnectToDiscoveredPeer (localPeerId : PeerId) (localSessionId : String)
    (discoveredPeerId discoveredSessionId : String) (membership : MembershipManager)
    (transport : TransportManager) : Bool :=
  if discoveredSessionId ≠ localSessionId then false
  else if discoveredPeerId = localPeerId.id then false
  else if membership.hasPeer ⟨discoveredPeerId⟩ || transport.hasPeer ⟨discoveredPeerId⟩ then false
  else if discoveredPeerId < localPeerId.id then false
  else true

namespace NetworkState

/-- The node would connect to the peer, whether mDNS or a list of peers tells of it. -/
def Rediscovers (self : NetworkState) (peerId : PeerId) : Prop :=
  DiscoveryManager.shouldConnectToDiscoveredPeer self.transport.localPeerId self.transport.sessionId
      peerId.id self.transport.sessionId self.membership self.transport = true ∧
    ∀ peers addr, (peerId, addr) ∈ peers → (peerId, addr) ∈ self.connectTargets (.peerListSync peers)

/-- The peer is not connected, and it is for this node to connect to it. -/
structure Lost (net : NetworkState) (peerId : PeerId) : Prop where
  larger : net.transport.localPeerId < peerId
  unconnected : peerId ∉ net.transport.connections
  status : net.membership.getPeerStatus peerId ≠ some .connected

variable {s : NetworkState} {peer : PeerId}

theorem Lost.rediscovers_iff (h : s.Lost peer) : s.Rediscovers peer ↔ peer ∉ s.membership.peers := by
  have hid : peer.id ≠ s.transport.localPeerId.id := fun heq => h.larger.ne' (PeerId.id_injective heq)
  have hlarger : ¬ peer.id < s.transport.localPeerId.id := not_lt_of_gt h.larger
  have hdiscovery : DiscoveryManager.shouldConnectToDiscoveredPeer s.transport.localPeerId
      s.transport.sessionId peer.id s.transport.sessionId s.membership s.transport = true ↔
        peer ∉ s.membership.peers := by
    simp [DiscoveryManager.shouldConnectToDiscoveredPeer, MembershipManager.hasPeer,
      TransportManager.hasPeer, hid, hlarger, h.unconnected]
  constructor
  · intro hboth
    exact hdiscovery.mp hboth.1
  · intro hnew
    refine ⟨hdiscovery.mpr hnew, ?_⟩
    intro peers addr hmem
    exact (mem_connectTargets_iff h.larger.ne' hnew h.unconnected).mpr ⟨hmem, h.larger⟩

end NetworkState

namespace MembershipManager

/-- The peer is not in the table, or connected. -/
def Unmarked (self : MembershipManager) (peerId : PeerId) : Prop :=
  self.getPeerStatus peerId = none ∨ self.getPeerStatus peerId = some .connected

variable {self : MembershipManager} {peerId peer : PeerId}

theorem status_updateStatus (self : MembershipManager) (peerId : PeerId) (newStatus : PeerStatus) :
    (self.updateStatus peerId newStatus).getPeerStatus peer =
      if peer = peerId then (self.getPeerStatus peerId).map fun _ => newStatus
      else self.getPeerStatus peer := by
  obtain ⟨hsame, heq⟩ | ⟨info, hinfo, _, heq⟩ := self.updateStatus_cases peerId newStatus
  · rw [heq]
    split_ifs with hpeer
    · subst hpeer
      rw [getPeerStatus]
      cases hinfo : self.peers.lookup peer with
      | none => rfl
      | some info => simp [hsame info hinfo]
    · rfl
  · rw [heq, status_insert]
    split_ifs
    · rw [getPeerStatus, hinfo]
      rfl
    · rfl

theorem Unmarked.apply (h : self.Unmarked peer) (op : Op)
    (hop : op.byHandler = true ∨ op.peerId ≠ peer) : (self.apply op).Unmarked peer := by
  obtain ⟨_, hstatus⟩ | ⟨event, hcauses, hannounces⟩ := self.apply_cases op
  · rw [Unmarked, hstatus]
    exact h
  · by_cases hevent : peer = event.peerId
    · have hkey : op.peerId = peer := (StatusCallbacks.peerId_of_causes hcauses).symm.trans hevent.symm
      have hby := hop.resolve_right (not_not.mpr hkey)
      rw [Unmarked, hevent, hannounces.after]
      exact StatusCallbacks.outcome_of_causes hcauses hby
    · rw [Unmarked, hannounces.others peer hevent]
      exact h

theorem mem_peers_of_timedOut {now : Nat} (h : peer ∈ self.checkTimeouts now) : peer ∈ self.peers := by
  obtain ⟨entry, hentry, rfl⟩ := List.mem_map.mp h
  exact List.mem_map_of_mem (List.mem_of_mem_filter hentry)

theorem Unmarked.foldl {ops : List Op} (h : self.Unmarked peer)
    (hops : ∀ op ∈ ops, op.byHandler = true ∨ op.peerId ≠ peer) :
    (ops.foldl MembershipManager.apply self).Unmarked peer := by
  induction ops generalizing self with
  | nil => exact h
  | cons op rest ih =>
    obtain ⟨hop, hrest⟩ := List.forall_mem_cons.mp hops
    exact ih (h.apply op hop) hrest

end MembershipManager

namespace NetworkState

variable {s next : NetworkState} {peer : PeerId}

theorem unmarked_handleMembership (h : s.membership.Unmarked peer) (peerId : PeerId) (now : Clock)
    (msg : InternalMessage) : (s.handleMembership peerId now msg).1.membership.Unmarked peer := by
  obtain ⟨ops, hops, heq⟩ := s.membership_handleMembership peerId now msg
  rw [heq]
  exact h.foldl fun op hop => .inl (hops op hop)

theorem unmarked_watch (h : s.membership.Unmarked peer) (hwatch : s.watch = some next) :
    next.membership.Unmarked peer := by
  obtain ⟨_, _, _, rfl⟩ | ⟨_, _, _, _, rfl⟩ := watch_cases hwatch
  · exact h
  · exact h

theorem unmarked_disconnectPeer (h : s.membership.Unmarked peer) (peerId : PeerId) (fits : Bool) :
    (s.disconnectPeer peerId fits).membership.Unmarked peer := by
  cases s.membership_disconnectPeer peerId fits with
  | inl heq => rwa [heq]
  | inr heq =>
    rw [heq]
    exact h.apply (.removePeer peerId) (.inl rfl)

theorem Lost.rediscovers_of_unmarked (h : s.Lost peer) (hmembership : s.membership.Unmarked peer) :
    s.Rediscovers peer := by
  have hnone : s.membership.getPeerStatus peer = none := hmembership.resolve_right h.status
  exact h.rediscovers_iff.mpr (MembershipManager.getPeerStatus_eq_none_iff.mp hnone)

/-- What the ping task leaves of a peer that has timed out. -/
structure TornDown (net : NetworkState) (peerId : PeerId) : Prop where
  status : net.membership.getPeerStatus peerId = some .disconnected
  unconnected : net.transport.connections.lookup peerId = none

theorem status_timeoutPeer (peerId : PeerId) (fits : Bool) :
    (timeoutPeer fits s peerId).membership.getPeerStatus peer =
      if peer = peerId then (s.membership.getPeerStatus peerId).map fun _ => .disconnected
      else s.membership.getPeerStatus peer :=
  s.membership.status_updateStatus peerId .disconnected

theorem tornDown_timeoutPeer (h : peer ∈ s.membership.peers) : (timeoutPeer true s peer).TornDown peer := by
  constructor
  · obtain ⟨info, hinfo⟩ := Assoc.exists_lookup_of_mem h
    rw [status_timeoutPeer, if_pos rfl, MembershipManager.getPeerStatus, hinfo]
    rfl
  · exact TransportManager.lookup_tearDown_self

theorem TornDown.timeoutPeer (h : s.TornDown peer) (peerId : PeerId) :
    (timeoutPeer true s peerId).TornDown peer := by
  constructor
  · rw [status_timeoutPeer]
    split_ifs with heq
    · rw [← heq, h.status]
      rfl
    · exact h.status
  · exact TransportManager.lookup_tearDown_none h.unconnected

theorem TornDown.timeouts (h : s.TornDown peer) (timedOut : List PeerId) :
    (timedOut.foldl (NetworkState.timeoutPeer true) s).TornDown peer := by
  induction timedOut generalizing s with
  | nil => exact h
  | cons peerId rest ih => exact ih (h.timeoutPeer peerId)

theorem tornDown_timeouts {timedOut : List PeerId} (hpeer : peer ∈ s.membership.peers)
    (h : peer ∈ timedOut) : (timedOut.foldl (timeoutPeer true) s).TornDown peer := by
  induction timedOut generalizing s with
  | nil => exact absurd h List.not_mem_nil
  | cons peerId rest ih =>
    by_cases heq : peer = peerId
    · subst heq
      exact (tornDown_timeoutPeer hpeer).timeouts rest
    · have hkept : peer ∈ (timeoutPeer true s peerId).membership.peers := by
        by_contra hgone
        rw [← MembershipManager.getPeerStatus_eq_none_iff, status_timeoutPeer, if_neg heq] at hgone
        exact MembershipManager.getPeerStatus_eq_none_iff.mp hgone hpeer
      exact ih hkept (List.mem_of_ne_of_mem heq h)

/-- Conversely, a peer that the ping task finds timed out is not found again. -/
theorem timedOut_not_rediscovered {now : Nat} (hlarger : s.transport.localPeerId < peer)
    (h : peer ∈ s.membership.checkTimeouts now) :
    (s.pingTick now true).Lost peer ∧ ¬ (s.pingTick now true).Rediscovers peer := by
  have hpeer : peer ∈ s.membership.peers := MembershipManager.mem_peers_of_timedOut h
  have htorn : (s.pingTick now true).TornDown peer := tornDown_timeouts hpeer h
  have hlocal : (s.pingTick now true).transport.localPeerId = s.transport.localPeerId :=
    (retains_timeouts fun _ _ _ => trivial).localPeerId
  have hlost : (s.pingTick now true).Lost peer := by
    refine ⟨hlocal ▸ hlarger, AList.lookup_eq_none.mp htorn.unconnected, ?_⟩
    rw [htorn.status]
    exact nofun
  refine ⟨hlost, fun hfound => ?_⟩
  have hnew := MembershipManager.getPeerStatus_eq_none_iff.mpr (hlost.rediscovers_iff.mp hfound)
  exact absurd (hnew.symm.trans htorn.status) nofun

end NetworkState

namespace Node

/-- The ping task does not find the peer timed out. -/
def HeardOf (peer : PeerId) (s : Node) : Action → Prop
  | .checkTimeouts now => peer ∉ s.net.membership.checkTimeouts now
  | _ => True

instance (peer : PeerId) (s : Node) : (a : Action) → Decidable (HeardOf peer s a)
  | .checkTimeouts _ => inferInstanceAs (Decidable (¬ _))
  | .connecting _ | .read .. | .deliver .. | .handle _ | .watch | .updateTimedOut | .disconnectTimedOut _
  | .electionTick _ | .disconnectPeer .. | .setLeader _ | .enableAutoElection _ => .isTrue trivial

variable {config : ConnectConfig} {s t : Node} {peer : PeerId}

theorem unmarked_step {a : Action} (h : s.net.membership.Unmarked peer) (huntimed : peer ∉ s.timedOut)
    (hstep : s.step config a = some t) : t.net.membership.Unmarked peer := by
  cases step_membership hstep with
  | keep heq =>
    rw [heq]
    exact h
  | handle sender msg heq =>
    rw [heq]
    exact NetworkState.unmarked_handleMembership h sender _ msg
  | watch hwatch heq =>
    rw [heq]
    exact NetworkState.unmarked_watch h hwatch
  | @updateTimedOut peerId htimedOut heq =>
    have hne : peerId ≠ peer := ne_of_mem_of_not_mem htimedOut huntimed
    rw [heq]
    exact h.apply (.updateStatus peerId .disconnected) (.inr hne)
  | disconnectPeer heq =>
    rw [heq]
    exact NetworkState.unmarked_disconnectPeer h _ _

theorem untimed_step {a : Action} (huntimed : peer ∉ s.timedOut) (ha : HeardOf peer s a)
    (hstep : s.step config a = some t) : peer ∉ t.timedOut := by
  intro hp
  obtain hold | ⟨now, rfl, hfound⟩ := mem_timedOut_of_step hstep hp
  · exact huntimed hold
  · exact ha hfound

/-- In every run in which the ping task does not find the peer timed out: whenever the peer is not
connected and it is for this node to connect to it, both the discovery and the list of peers lead to
a connection. -/
theorem rediscovered_unless_timed_out {net : NetworkState} (hfresh : Fresh net) {acts : List Action}
    (hheard : Along (step config) (HeardOf peer) (start net) acts)
    (hrun : run (step config) (start net) acts = some s) (hlost : s.net.Lost peer) :
    s.net.Rediscovers peer := by
  have hstart : (start net).net.membership.Unmarked peer := by
    refine .inl (MembershipManager.getPeerStatus_eq_none_iff.mpr ?_)
    simp [start, hfresh.2.1]
  have h : s.net.membership.Unmarked peer ∧ peer ∉ s.timedOut :=
    invariant (I := fun s => s.net.membership.Unmarked peer ∧ peer ∉ s.timedOut)
      (fun _ _ _ h ha hstep => ⟨unmarked_step h.1 h.2 hstep, untimed_step h.2 ha hstep⟩)
      ⟨hstart, List.not_mem_nil⟩ hheard hrun
  exact hlost.rediscovers_of_unmarked h.1

/-- Peer `b` connects, is heard of, and is disconnected by a call. -/
theorem disconnected_peer_rediscovered :
    ∃ s ∈ run (step ⟨8, 0⟩) (start sampleNet) (peerRegistered ++
        [.deliver ⟨"b"⟩ (.handshake ⟨"b"⟩ 4000 1 "room"), .handle ⟨0, 0⟩, .checkTimeouts 500,
          .disconnectPeer ⟨"b"⟩ true]),
      s.net.Lost ⟨"b"⟩ ∧ s.net.Rediscovers ⟨"b"⟩ := by
  have hrun : ∃ s ∈ run (step ⟨8, 0⟩) (start sampleNet) (peerRegistered ++
        [.deliver ⟨"b"⟩ (.handshake ⟨"b"⟩ 4000 1 "room"), .handle ⟨0, 0⟩, .checkTimeouts 500,
          .disconnectPeer ⟨"b"⟩ true]),
      s.net.transport.localPeerId < ⟨"b"⟩ ∧ ⟨"b"⟩ ∉ s.net.transport.connections ∧
        s.net.membership.getPeerStatus ⟨"b"⟩ ≠ some .connected := by decide +kernel
  obtain ⟨s, hs, hlarger, hunconnected, hstatus⟩ := hrun
  have hlost : s.net.Lost ⟨"b"⟩ := ⟨hlarger, hunconnected, hstatus⟩
  exact ⟨s, hs, hlost, rediscovered_unless_timed_out ⟨rfl, rfl, rfl⟩ (by decide +kernel) hs hlost⟩

/-- Peer `b` connects and is then silent for two seconds. -/
theorem timed_out_peer_passed_over :
    ¬ ∀ acts s, run (step ⟨8, 0⟩) (start sampleNet) acts = some s →
      ∀ p, s.net.Lost p → s.net.Rediscovers p := by
  intro h
  have hrun : ∃ s ∈ run (step ⟨8, 0⟩) (start sampleNet) (peerRegistered ++
        [.deliver ⟨"b"⟩ (.handshake ⟨"b"⟩ 4000 1 "room"), .handle ⟨0, 0⟩, .checkTimeouts 2000,
          .updateTimedOut, .disconnectTimedOut true]),
      s.net.transport.localPeerId < ⟨"b"⟩ ∧ ⟨"b"⟩ ∉ s.net.transport.connections ∧
        s.net.membership.getPeerStatus ⟨"b"⟩ = some .disconnected := by decide +kernel
  obtain ⟨s, hs, hlarger, hunconnected, hstatus⟩ := hrun
  have hlost : s.net.Lost ⟨"b"⟩ := by
    refine ⟨hlarger, hunconnected, ?_⟩
    rw [hstatus]
    exact nofun
  have hnew : ⟨"b"⟩ ∉ s.net.membership.peers := hlost.rediscovers_iff.mp (h _ s hs _ hlost)
  exact hnew (MembershipManager.mem_peers_of_status hstatus)

end Node

end MetaMystia

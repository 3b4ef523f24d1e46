import MetaMystia.Election.Cluster
import MetaMystia.Membership
import MetaMystia.Transport.Connections

/-! # One node

The transport's connection map, the membership table and the election of a node,
with the message handler and the background tasks that tie them together.
-/

namespace MetaMystia

structure NetworkState where
  transport : TransportManager
  membership : MembershipManager
  leaderElection : LeaderElection

/-- The clocks a step reads: `Instant::now` and the wall clock in milliseconds. -/
structure Clock where
  instant : Nat
  timestampMs : UInt64

namespace NetworkState

def new (localPeerId : PeerId) (sessionId : String) (listenPort : UInt16) (autoReconnect : Bool)
    (heartbeatIntervalMs : UInt16) (heartbeatTimeoutMultiplier : UInt8) (autoElection : Bool)
    (recovery : ManualOverrideRecovery) : NetworkState where
  transport := .new localPeerId sessionId listenPort autoReconnect
  membership := .new localPeerId heartbeatIntervalMs heartbeatTimeoutMultiplier
  leaderElection := .new localPeerId autoElection recovery

/-- A handshake has ended: the peer joins, or is back after it was marked disconnected. -/
def peerConnected (self : NetworkState) (peerId : PeerId) (now : Clock) : NetworkState :=
  match self.transport.getPeerAddr peerId with
  | some addr =>
    match self.membership.addPeer peerId addr now.instant with
    | .ok membership => { self with membership }
    | .error _ =>
      { self with
        membership :=
          (self.membership.updateStatus peerId .connected).updateLastSeen peerId now.instant }
  | none => self

/-- The peers of a `PeerListSync` that this node has to connect to. -/
def peersToConnect (self : NetworkState) (peers : List (PeerId × String)) : List Outgoing :=
  (peers.filter fun (peerId, _) =>
    !(peerId == self.transport.localPeerId || self.membership.hasPeer peerId ||
      self.transport.hasPeer peerId) && !decide (peerId < self.transport.localPeerId)).map
    fun (_, addr) => .connect addr

/-- What `handle_message` does to the transport and the membership. -/
def handleMembership (self : NetworkState) (peerId : PeerId) (now : Clock) :
    InternalMessage → NetworkState × List Outgoing
  | .handshake remoteId _ _ _ => (self.peerConnected remoteId now, [])
  | .handshakeAck remoteId _ success _ =>
    (if success then self.peerConnected remoteId now else self, [])
  | .peerLeave leavingId =>
    ({ self with
        transport := self.transport.setShouldReconnect leavingId false
        membership := self.membership.removePeer leavingId }, [])
  | .peerListSync peers => (self, self.peersToConnect peers)
  | .ping timestampMs =>
    ({ self with membership := self.membership.updateLastSeen peerId now.instant },
      [.reply (.pong timestampMs)])
  | .pong timestampMs =>
    let rtt := if timestampMs ≤ now.timestampMs then now.timestampMs - timestampMs else 0
    ({ self with
        membership := self.membership.handlePong peerId timestampMs now.instant now.timestampMs
        transport := (self.transport.updateLastSeen peerId now.instant).updateRtt peerId rtt.toUInt32
          now.instant }, [])
  | .heartbeat _ _ _ | .heartbeatResponse _ _ =>
    ({ self with membership := self.membership.updateLastSeen peerId now.instant }, [])
  | .requestVote _ _ | .voteResponse _ _ _ | .leaderAssign _ _ _ | .forwardedUserData _ _ _ _
  | .dataChannelHandshake _ | .dataChannelHandshakeAck _ _ => (self, [])

def handleMessage (self : NetworkState) (peerId : PeerId) (now : Clock) (msg : InternalMessage) :
    NetworkState × List Outgoing :=
  let count := self.membership.getConnectedPeerCount
  let (leaderElection, sent) := self.leaderElection.handleMessage count now.timestampMs msg
  let (state, more) := self.handleMembership peerId now msg
  ({ state with leaderElection }, sent ++ more)

def watch (self : NetworkState) : Option NetworkState :=
  match self.membership.eventTx with
  | [] => none
  | event :: rest =>
    let self := { self with membership := { self.membership with eventTx := rest } }
    match event with
    | .left peerId =>
      some { self with leaderElection := (self.leaderElection.handlePeerLeft peerId).election }
    | _ => some self

def markTimedOut (self : NetworkState) (peerId : PeerId) : NetworkState :=
  { self with membership := self.membership.updateStatus peerId .disconnected }

/-- `fits` as for `disconnect_peer`, whose error is only logged. -/
def disconnectTimedOut (fits : Bool) (self : NetworkState) (peerId : PeerId) : NetworkState :=
  { self with
    transport := match self.transport.disconnectPeer peerId fits with
      | .ok transport => transport
      | .error _ => self.transport }

/-- What the ping task does with a peer that has timed out. -/
def timeoutPeer (fits : Bool) (self : NetworkState) (peerId : PeerId) : NetworkState :=
  (self.markTimedOut peerId).disconnectTimedOut fits peerId

/-- A tick of the ping task in which nothing comes in between. -/
def pingTick (self : NetworkState) (now : Nat) (fits : Bool) : NetworkState :=
  (self.membership.checkTimeouts now).foldl (timeoutPeer fits) self

/-- The election timer has fired: the messages to broadcast, if it starts an election. -/
def electionTick (self : NetworkState) (now : Clock) : NetworkState × List Outgoing :=
  if self.leaderElection.isLeader || !self.leaderElection.isAutoElectionEnabled ||
      self.leaderElection.leaderId.isSome then
    (self, [])
  else
    let reply := self.leaderElection.startElection self.membership.getConnectedPeerCount
    let state := { self with leaderElection := reply.election }
    match reply.value with
    | some (term, candidateId) => (state, [.broadcast (.requestVote term candidateId)])
    | none =>
      (state,
        if reply.election.isLeader then
          [.broadcast (.heartbeat reply.election.currentTerm self.transport.localPeerId now.timestampMs)]
        else [])

/-- `DisconnectPeer` of the C interface. -/
def disconnectPeer (self : NetworkState) (peerId : PeerId) (fits : Bool) : NetworkState :=
  match self.transport.disconnectPeer peerId fits with
  | .ok transport => { self with transport, membership := self.membership.removePeer peerId }
  | .error _ => self

variable {s next : NetworkState}

theorem watch_cases (h : s.watch = some next) :
    (∃ peerId rest, s.membership.eventTx = .left peerId :: rest ∧
      next = { s with
        membership := { s.membership with eventTx := rest }
        leaderElection := (s.leaderElection.handlePeerLeft peerId).election }) ∨
    (∃ event rest, s.membership.eventTx = event :: rest ∧ (∀ peerId, event ≠ .left peerId) ∧
      next = { s with membership := { s.membership with eventTx := rest } }) := by
  simp only [watch] at h
  split at h
  · exact absurd h nofun
  · rename_i event rest hevents
    cases event with
    | left peerId => exact .inl ⟨peerId, rest, hevents, (Option.some.inj h).symm⟩
    | joined peerId => exact .inr ⟨_, rest, hevents, nofun, (Option.some.inj h).symm⟩
    | statusChanged peerId old new => exact .inr ⟨_, rest, hevents, nofun, (Option.some.inj h).symm⟩

theorem transport_peerConnected (s : NetworkState) (peerId : PeerId) (now : Clock) :
    (s.peerConnected peerId now).transport = s.transport := by
  unfold peerConnected
  split
  · split <;> rfl
  · rfl

/-- A peer without a connection does not become a member when a handshake is reported. -/
theorem notMem_peers_peerConnected {peerId peer : PeerId} (now : Clock)
    (htransport : peer ∉ s.transport.connections)
    (hmembership : peer ∉ s.membership.peers) :
    peer ∉ (s.peerConnected peerId now).membership.peers := by
  unfold peerConnected
  cases haddr : s.transport.getPeerAddr peerId with
  | none => exact hmembership
  | some addr =>
    have hne : peer ≠ peerId := by
      rintro rfl
      obtain ⟨conn, hconn, _⟩ := Option.map_eq_some_iff.mp haddr
      exact htransport (Assoc.mem_of_lookup hconn)
    obtain ⟨_, heq⟩ | ⟨_, heq⟩ := s.membership.addPeer_cases peerId addr now.instant
    · simp only [heq]
      intro hin
      exact hmembership (MembershipManager.mem_peers_of_updateStatus
        (MembershipManager.mem_peers_of_modify hin))
    · simp only [heq]
      simpa [hne] using hmembership

theorem disconnectPeer_cases (s : NetworkState) (peerId : PeerId) (fits : Bool) :
    s.disconnectPeer peerId fits = s ∨ s.disconnectPeer peerId fits = { s with
      transport := s.transport.tearDown peerId
      membership := s.membership.removePeer peerId } := by
  unfold disconnectPeer
  obtain ⟨e, heq⟩ | heq := s.transport.disconnectPeer_cases peerId fits
  · exact .inl (by simp [heq])
  · exact .inr (by simp [heq])

theorem electionTick_cases (s : NetworkState) (now : Clock) :
    ((s.leaderElection.state.role = .leader ∨ s.leaderElection.state.leaderId ≠ none ∨
        s.leaderElection.state.autoElectionEnabled = false ∨
        s.leaderElection.state.manualOverride = true) ∧ s.electionTick now = (s, [])) ∨
    (s.leaderElection.state.role ≠ .leader ∧ s.leaderElection.state.leaderId = none ∧
      s.leaderElection.state.autoElectionEnabled = true ∧ s.leaderElection.state.manualOverride = false ∧
      (s.electionTick now =
          ({ s with leaderElection := { s.leaderElection with state := s.leaderElection.campaign } },
            [.broadcast (.requestVote (s.leaderElection.state.currentTerm + 1)
              s.leaderElection.localPeerId)]) ∨
        s.electionTick now =
          ({ s with leaderElection :=
              { s.leaderElection with state := s.leaderElection.elected s.leaderElection.campaign } },
            [.broadcast (.heartbeat (s.leaderElection.state.currentTerm + 1)
              s.transport.localPeerId now.timestampMs)]))) := by
  unfold electionTick
  by_cases hskip : (s.leaderElection.isLeader || !s.leaderElection.isAutoElectionEnabled ||
      s.leaderElection.leaderId.isSome) = true
  · refine .inl ⟨?_, if_pos hskip⟩
    simp only [LeaderElection.isLeader, LeaderElection.isAutoElectionEnabled, LeaderElection.leaderId,
      Bool.or_eq_true, beq_iff_eq, Bool.not_eq_true', Option.isSome_iff_ne_none] at hskip
    obtain (hrole | hauto) | hleader := hskip
    · exact .inl hrole
    · exact .inr (.inr (.inl hauto))
    · exact .inr (.inl hleader)
  · rw [if_neg hskip]
    simp only [LeaderElection.isLeader, LeaderElection.isAutoElectionEnabled, LeaderElection.leaderId,
      Bool.or_eq_true, beq_iff_eq, Bool.not_eq_true', not_or, Bool.not_eq_false,
      Option.not_isSome_iff_eq_none] at hskip
    obtain ⟨⟨hrole, hauto⟩, hleader⟩ := hskip
    rcases s.leaderElection.startElection_cases s.membership.getConnectedPeerCount with
      ⟨hoff, heq⟩ | ⟨_, hman, _, heq⟩ | ⟨_, hman, _, heq⟩
    · exact .inl ⟨.inr (.inr hoff), by simp [heq, LeaderElection.isLeader, hrole]⟩
    · exact .inr ⟨hrole, hleader, hauto, hman, .inl (by simp only [heq])⟩
    · exact .inr ⟨hrole, hleader, hauto, hman, .inr (by simp only [heq]; rfl)⟩

/-- The election timer works on the election only. -/
theorem electionTick_fst (s : NetworkState) (now : Clock) :
    (s.electionTick now).1 = { s with leaderElection := (s.electionTick now).1.leaderElection } := by
  obtain ⟨_, heq⟩ | ⟨_, _, _, _, heq | heq⟩ := s.electionTick_cases now
  · simp only [heq]
  · simp only [heq]
  · simp only [heq]

end NetworkState

theorem LeaderElection.leaderId_handlePeerLeft (e : LeaderElection) (peer : PeerId) :
    (e.handlePeerLeft peer).election.state.leaderId =
      if e.state.leaderId = some peer then none else e.state.leaderId := by
  obtain ⟨hne, heq⟩ | ⟨hleader, _, _, heq⟩ := e.handlePeerLeft_cases peer
  · rw [heq, if_neg hne]
  · rw [heq, if_pos hleader]

def InternalMessage.Names (peer : PeerId) : InternalMessage → Prop
  | .heartbeat _ leaderId _ => leaderId = peer
  | .leaderAssign _ leaderId _ => leaderId = peer
  | _ => False

theorem LeaderElection.leaderId_of_handleMessage {e : LeaderElection} {count : Nat} {now : UInt64}
    {msg : InternalMessage} {peer : PeerId}
    (h : (e.handleMessage count now msg).1.state.leaderId = some peer) :
    e.state.leaderId = some peer ∨ peer = e.localPeerId ∨ msg.Names peer := by
  cases msg with
  | heartbeat term leader timestamp =>
    obtain ⟨_, heq⟩ | ⟨_, _, _, heq⟩ := e.handleHeartbeat_cases term leader
    · rw [handleMessage, heq] at h
      exact .inl h
    · rw [handleMessage, heq] at h
      exact .inr (.inr (Option.some.inj h))
  | requestVote term candidate =>
    obtain ⟨_, heq⟩ | ⟨_, _, heq⟩ | ⟨_, _, heq⟩ | ⟨_, heq⟩ := e.handleRequestVote_cases term candidate <;>
      · simp only [handleMessage, heq] at h
        exact .inl h
  | voteResponse term voter granted =>
    rcases e.handleVoteResponse_cases term voter granted count with
      ⟨_, heq⟩ | ⟨_, _, heq⟩ | ⟨_, _, _, heq⟩ | ⟨_, _, _, heq⟩
    · simp only [handleMessage, heq] at h
      exact .inl h
    · simp only [handleMessage, heq] at h
      exact .inl h
    · simp only [handleMessage, heq] at h
      cases granted <;> exact .inl h
    · simp only [handleMessage, heq] at h
      exact .inr (.inl (Option.some.inj h).symm)
  | leaderAssign term leader assigner =>
    rw [handleMessage, handleLeaderAssign_eq] at h
    exact .inr (.inr (Option.some.inj h))
  | _ => exact .inl h

end MetaMystia

import MetaMystia.Node.NetworkState

/-! # A leader that is lost is forgotten

The election learns of a lost peer only through the `Left` event. Two of the
three ways to lose a peer send it; the timeout of the ping task marks the peer
disconnected and sends a `StatusChanged` instead, which the watcher does not
pass on.
-/

namespace MetaMystia

@[simp] theorem LeaderElection.handleMessage_localPeerId (e : LeaderElection) (count : Nat)
    (now : UInt64) (msg : InternalMessage) :
    (e.handleMessage count now msg).1.localPeerId = e.localPeerId := by
  cases msg with
  | heartbeat term leader timestamp => exact e.apply_localPeerId (.handleHeartbeat term leader)
  | requestVote term candidate => exact e.apply_localPeerId (.handleRequestVote term candidate)
  | voteResponse term voter granted => exact e.apply_localPeerId (.handleVoteResponse term voter granted count)
  | leaderAssign term leader assigner => exact e.apply_localPeerId (.handleLeaderAssign term leader assigner)
  | _ => rfl

namespace NetworkState

open Runs MembershipManager

inductive Action
  | receive (peerId : PeerId) (now : Clock) (msg : InternalMessage)
  | watch
  | pingTick (now : Nat) (fits : Bool)
  | electionTick (now : Clock)
  | disconnectPeer (peerId : PeerId) (fits : Bool)
  | setLeader (leaderId : PeerId)
  | enableAutoElection (enable : Bool)
  | registerConnection (peerId : PeerId) (peerAddr : String) (now : Nat)
  | cleanup (peerId : PeerId)

def step (s : NetworkState) : Action → Option NetworkState
  | .receive peerId now msg => some (s.handleMessage peerId now msg).1
  | .watch => s.watch
  | .pingTick now fits => some (s.pingTick now fits)
  | .electionTick now => some (s.electionTick now).1
  | .disconnectPeer peerId fits => some (s.disconnectPeer peerId fits)
  | .setLeader leaderId =>
    some { s with leaderElection := (s.leaderElection.setLeader leaderId).election }
  | .enableAutoElection enable =>
    some { s with leaderElection := (s.leaderElection.enableAutoElection enable).election }
  | .registerConnection peerId peerAddr now =>
    match s.transport.registerConnection peerId peerAddr now with
    | .ok transport => some { s with transport }
    | .error _ => some s
  | .cleanup peerId => some { s with transport := (s.transport.cleanup peerId).1 }

def Names (peer : PeerId) : Action → Prop
  | .receive _ _ msg => msg.Names peer
  | .setLeader leaderId => leaderId = peer
  | _ => False

variable {s next : NetworkState} {peer : PeerId}

theorem peerConnected_membership (s : NetworkState) (peerId : PeerId) (now : Clock) :
    (∀ peer, s.membership.getPeerStatus peer = some .connected →
      (s.peerConnected peerId now).membership.getPeerStatus peer = some .connected) ∧
    (∀ peer, .left peer ∈ s.membership.eventTx →
      .left peer ∈ (s.peerConnected peerId now).membership.eventTx) := by
  unfold peerConnected
  cases s.transport.getPeerAddr peerId with
  | none => exact ⟨fun _ h => h, fun _ h => h⟩
  | some addr =>
    obtain ⟨_, heq⟩ | ⟨hnew, heq⟩ := s.membership.addPeer_cases peerId addr now.instant
    · simp only [heq]
      refine ⟨fun peer h => ?_, fun peer h => ?_⟩
      · rw [updateLastSeen_status]
        exact updateStatus_connected h
      · rw [updateLastSeen_eventTx]
        exact left_mem_updateStatus.mpr h
    · simp only [heq]
      refine ⟨fun peer h => ?_, fun peer h => List.mem_append_left _ h⟩
      have hne : peer ≠ peerId := fun heq => hnew (heq ▸ mem_peers_of_status h)
      simpa [getPeerStatus, AList.lookup_insert_ne hne] using h

theorem handleMembership_connected {peerId : PeerId} {now : Clock} {msg : InternalMessage}
    (hmsg : msg ≠ .peerLeave peer) (h : s.membership.getPeerStatus peer = some .connected) :
    (s.handleMembership peerId now msg).1.membership.getPeerStatus peer = some .connected := by
  cases msg with
  | handshake remoteId _ _ _ => exact (s.peerConnected_membership remoteId now).1 peer h
  | handshakeAck remoteId _ success _ =>
    cases success with
    | false => exact h
    | true => exact (s.peerConnected_membership remoteId now).1 peer h
  | peerLeave leavingId =>
    have hne : peer ≠ leavingId := fun heq => hmsg (heq ▸ rfl)
    exact (removePeer_status_of_ne hne).trans h
  | ping | heartbeat | heartbeatResponse => exact (updateLastSeen_status _).trans h
  | pong => exact (handlePong_status _ _ _).trans h
  | _ => exact h

theorem handleMembership_left {peerId : PeerId} {now : Clock} {msg : InternalMessage}
    (h : .left peer ∈ s.membership.eventTx) :
    .left peer ∈ (s.handleMembership peerId now msg).1.membership.eventTx := by
  cases msg with
  | handshake remoteId _ _ _ => exact (s.peerConnected_membership remoteId now).2 peer h
  | handshakeAck remoteId _ success _ =>
    cases success with
    | false => exact h
    | true => exact (s.peerConnected_membership remoteId now).2 peer h
  | peerLeave leavingId => exact eventTx_subset_removePeer h
  | ping | heartbeat | heartbeatResponse | pong => simpa [handleMembership] using h
  | _ => exact h

theorem pingTick_spec (s : NetworkState) (now : Nat) (fits : Bool) :
    (s.pingTick now fits).leaderElection = s.leaderElection ∧
    ∀ peer, .left peer ∈ (s.pingTick now fits).membership.eventTx ↔ .left peer ∈ s.membership.eventTx := by
  unfold pingTick
  generalize s.membership.checkTimeouts now = timedOut
  induction timedOut generalizing s with
  | nil => exact ⟨rfl, fun _ => Iff.rfl⟩
  | cons peerId rest ih =>
    obtain ⟨helection, hevents⟩ := ih (timeoutPeer fits s peerId)
    refine ⟨helection, fun peer => (hevents peer).trans ?_⟩
    exact left_mem_updateStatus

theorem electionTick_spec (s : NetworkState) (now : Clock) :
    (s.electionTick now).1.membership = s.membership ∧
    (s.electionTick now).1.leaderElection.localPeerId = s.leaderElection.localPeerId ∧
    ∀ peer, (s.electionTick now).1.leaderElection.state.leaderId = some peer →
      s.leaderElection.state.leaderId = some peer ∨ peer = s.leaderElection.localPeerId := by
  obtain ⟨_, heq⟩ | ⟨_, _, _, _, heq | heq⟩ := s.electionTick_cases now
  · rw [heq]
    exact ⟨rfl, rfl, fun _ => .inl⟩
  · rw [heq]
    exact ⟨rfl, rfl, fun _ => .inl⟩
  · rw [heq]
    exact ⟨rfl, rfl, fun _ hleader => .inr (Option.some.inj hleader).symm⟩

/-- Every way to lose a peer but the timeout of the ping task announces that the peer left. -/
theorem left_of_lost {a : Action} (hping : ∀ now fits, a ≠ .pingTick now fits)
    (hconnected : s.membership.getPeerStatus peer = some .connected) (hstep : s.step a = some next)
    (hlost : next.membership.getPeerStatus peer ≠ some .connected) :
    .left peer ∈ next.membership.eventTx := by
  cases a with
  | receive peerId now msg =>
    obtain rfl : _ = next := Option.some.inj hstep
    by_cases hmsg : msg = .peerLeave peer
    · subst hmsg
      exact left_mem_removePeer (mem_peers_of_status hconnected)
    · exact absurd (handleMembership_connected hmsg hconnected) hlost
  | watch =>
    simp only [step, watch] at hstep
    split at hstep
    · cases hstep
    · split at hstep <;> obtain rfl := Option.some.inj hstep <;> exact absurd hconnected hlost
  | pingTick now fits => exact absurd rfl (hping now fits)
  | electionTick now =>
    obtain rfl : _ = next := Option.some.inj hstep
    rw [(s.electionTick_spec now).1] at hlost
    exact absurd hconnected hlost
  | disconnectPeer peerId fits =>
    obtain rfl : _ = next := Option.some.inj hstep
    cases s.disconnectPeer_cases peerId fits with
    | inl heq =>
      rw [heq] at hlost
      exact absurd hconnected hlost
    | inr heq =>
      rw [heq] at hlost ⊢
      by_cases hne : peer = peerId
      · subst hne
        exact left_mem_removePeer (mem_peers_of_status hconnected)
      · exact absurd ((removePeer_status_of_ne hne).trans hconnected) hlost
  | setLeader | enableAutoElection | cleanup =>
    obtain rfl : _ = next := Option.some.inj hstep
    exact absurd hconnected hlost
  | registerConnection peerId peerAddr now =>
    simp only [step] at hstep
    split at hstep <;> obtain rfl := Option.some.inj hstep <;> exact absurd hconnected hlost

theorem step_localPeerId {a : Action} (hstep : s.step a = some next) :
    next.leaderElection.localPeerId = s.leaderElection.localPeerId := by
  cases a with
  | receive peerId now msg =>
    obtain rfl : _ = next := Option.some.inj hstep
    exact LeaderElection.handleMessage_localPeerId ..
  | watch =>
    obtain ⟨other, _, _, rfl⟩ | ⟨_, _, _, _, rfl⟩ := watch_cases hstep
    · exact s.leaderElection.apply_localPeerId (.handlePeerLeft other)
    · rfl
  | pingTick now fits =>
    obtain rfl : _ = next := Option.some.inj hstep
    rw [(s.pingTick_spec now fits).1]
  | electionTick now =>
    obtain rfl : _ = next := Option.some.inj hstep
    exact (s.electionTick_spec now).2.1
  | disconnectPeer peerId fits =>
    obtain rfl : _ = next := Option.some.inj hstep
    obtain heq | heq := s.disconnectPeer_cases peerId fits <;> rw [heq]
  | setLeader | cleanup =>
    obtain rfl : _ = next := Option.some.inj hstep
    rfl
  | enableAutoElection enable =>
    obtain rfl : _ = next := Option.some.inj hstep
    exact s.leaderElection.apply_localPeerId (.enableAutoElection enable)
  | registerConnection peerId peerAddr now =>
    simp only [step] at hstep
    split at hstep <;> obtain rfl := Option.some.inj hstep <;> rfl

/-- While the lost peer is still taken for the leader, its departure is on its way. -/
structure Announced (peer : PeerId) (s : NetworkState) : Prop where
  remote : s.leaderElection.localPeerId ≠ peer
  pending : s.leaderElection.state.leaderId = some peer → .left peer ∈ s.membership.eventTx

theorem Announced.watch (h : Announced peer s) (hwatch : s.watch = some next)
    (hleader : next.leaderElection.state.leaderId = some peer) :
    .left peer ∈ next.membership.eventTx := by
  obtain ⟨other, rest, hevents, rfl⟩ | ⟨event, rest, hevents, hevent, rfl⟩ := watch_cases hwatch
  · rw [LeaderElection.leaderId_handlePeerLeft] at hleader
    split at hleader
    · exact absurd hleader nofun
    · rename_i hother
      have hpending := h.pending hleader
      rw [hevents] at hpending
      cases List.mem_cons.mp hpending with
      | inl hhead => exact absurd (by simpa [hleader] using hhead) hother
      | inr hrest => exact hrest
  · have hpending := h.pending hleader
    rw [hevents] at hpending
    cases List.mem_cons.mp hpending with
    | inl hhead => exact absurd hhead.symm (hevent peer)
    | inr hrest => exact hrest

theorem announced_step (h : Announced peer s) {a : Action} (hnames : ¬ Names peer a)
    (hstep : s.step a = some next) : Announced peer next := by
  constructor
  · rw [step_localPeerId hstep]
    exact h.remote
  intro hleader
  cases a with
  | receive peerId now msg =>
    obtain rfl : _ = next := Option.some.inj hstep
    refine handleMembership_left (h.pending ?_)
    obtain hold | hself | hnamed := LeaderElection.leaderId_of_handleMessage hleader
    · exact hold
    · exact absurd hself.symm h.remote
    · exact absurd hnamed hnames
  | watch => exact h.watch hstep hleader
  | pingTick now fits =>
    obtain rfl : _ = next := Option.some.inj hstep
    obtain ⟨helection, hevents⟩ := s.pingTick_spec now fits
    rw [helection] at hleader
    exact (hevents peer).mpr (h.pending hleader)
  | electionTick now =>
    obtain rfl : _ = next := Option.some.inj hstep
    obtain ⟨hmembership, _, hnamed⟩ := s.electionTick_spec now
    rw [hmembership]
    cases hnamed peer hleader with
    | inl hold => exact h.pending hold
    | inr hself => exact absurd hself.symm h.remote
  | disconnectPeer peerId fits =>
    obtain rfl : _ = next := Option.some.inj hstep
    cases s.disconnectPeer_cases peerId fits with
    | inl heq =>
      rw [heq] at hleader ⊢
      exact h.pending hleader
    | inr heq =>
      rw [heq] at hleader ⊢
      exact eventTx_subset_removePeer (h.pending hleader)
  | setLeader leader =>
    obtain rfl : _ = next := Option.some.inj hstep
    exact absurd (Option.some.inj hleader) hnames
  | enableAutoElection enable =>
    obtain rfl : _ = next := Option.some.inj hstep
    obtain ⟨_, _, _, heq⟩ := s.leaderElection.enableAutoElection_cases enable
    rw [heq] at hleader
    exact h.pending hleader
  | registerConnection peerId peerAddr now =>
    simp only [step] at hstep
    split at hstep <;> obtain rfl := Option.some.inj hstep <;> exact h.pending hleader
  | cleanup peerId =>
    obtain rfl : _ = next := Option.some.inj hstep
    exact h.pending hleader

/-- The watcher can always empty its queue; without a departure of the leader the leader stays. -/
theorem drain (s : NetworkState) (peer : PeerId) : ∃ t,
    run step s (List.replicate s.membership.eventTx.length .watch) = some t ∧ t.membership.eventTx = [] ∧
    (.left peer ∉ s.membership.eventTx → s.leaderElection.state.leaderId = some peer →
      t.leaderElection.state.leaderId = some peer) := by
  generalize hevents : s.membership.eventTx = events
  induction events generalizing s with
  | nil => exact ⟨s, rfl, hevents, fun _ h => h⟩
  | cons event rest ih =>
    obtain ⟨next, hnext⟩ : ∃ next, s.watch = some next := by
      simp only [watch, hevents]
      cases event <;> exact ⟨_, rfl⟩
    have hrest : next.membership.eventTx = rest := by
      obtain ⟨_, rest', hevents', rfl⟩ | ⟨_, rest', hevents', _, rfl⟩ := watch_cases hnext
      · exact (List.cons.inj (hevents.symm.trans hevents')).2.symm
      · exact (List.cons.inj (hevents.symm.trans hevents')).2.symm
    obtain ⟨t, ht, hempty, hkeeps⟩ := ih next hrest
    refine ⟨t, run_cons_iff.mpr ⟨next, hnext, ht⟩, hempty, ?_⟩
    intro hnot hleader
    refine hkeeps (fun hmem => hnot (List.mem_cons_of_mem _ hmem)) ?_
    obtain ⟨other, rest', hevents', rfl⟩ | ⟨_, _, _, _, rfl⟩ := watch_cases hnext
    · have hother : other ≠ peer := by
        rintro rfl
        rw [hevents] at hevents'
        exact hnot ((List.cons.inj hevents').1 ▸ List.mem_cons_self)
      simp [LeaderElection.leaderId_handlePeerLeft, hleader, Ne.symm hother]
    · exact hleader

theorem along_replicate_watch (s : NetworkState) (k : Nat) :
    Along step (fun _ a => ¬ Names peer a) s (List.replicate k .watch) := by
  induction k generalizing s with
  | zero => trivial
  | succ k ih => exact ⟨id, fun t _ => ih t⟩

/-- A lost leader is forgotten once all events have been received, exactly if it was not lost by
the timeout of the ping task or its departure was already announced. -/
theorem lost_leader_forgotten_iff {a : Action}
    (hleader : s.leaderElection.state.leaderId = some peer)
    (hremote : s.leaderElection.localPeerId ≠ peer)
    (hconnected : s.membership.getPeerStatus peer = some .connected)
    (hstep : s.step a = some next)
    (hlost : next.membership.getPeerStatus peer ≠ some .connected) :
    (∀ more t, Along step (fun _ b => ¬ Names peer b) next more → run step next more = some t →
      t.membership.eventTx = [] → t.leaderElection.state.leaderId ≠ some peer) ↔
    (∀ now fits, a ≠ .pingTick now fits) ∨ .left peer ∈ s.membership.eventTx := by
  constructor
  · intro hforgets
    by_contra hnot
    rw [not_or] at hnot
    obtain ⟨hping, hevents⟩ := hnot
    push Not at hping
    obtain ⟨now, fits, rfl⟩ := hping
    obtain rfl : _ = next := Option.some.inj hstep
    obtain ⟨helection, hleft⟩ := s.pingTick_spec now fits
    obtain ⟨t, hrun, hempty, hkeeps⟩ := (s.pingTick now fits).drain peer
    refine hforgets _ t (along_replicate_watch _ _) hrun hempty (hkeeps ?_ ?_)
    · exact fun hmem => hevents ((hleft peer).mp hmem)
    · rw [helection, hleader]
  · intro hcause more t hnames hrun hempty hkept
    have hleft : .left peer ∈ next.membership.eventTx := by
      by_cases hping : ∀ now fits, a ≠ .pingTick now fits
      · exact left_of_lost hping hconnected hstep hlost
      · have hpending := hcause.resolve_left hping
        push Not at hping
        obtain ⟨now, fits, rfl⟩ := hping
        obtain rfl : _ = next := Option.some.inj hstep
        exact ((s.pingTick_spec now fits).2 peer).mpr hpending
    have hannounced : Announced peer next := by
      refine ⟨?_, fun _ => hleft⟩
      rw [step_localPeerId hstep]
      exact hremote
    have hfinal : Announced peer t :=
      invariant (fun _ _ _ h ha hstep => announced_step h ha hstep) hannounced hnames hrun
    simpa [hempty] using hfinal.pending hkept

def freshNode : NetworkState := .new ⟨"a"⟩ "session" 4000 true 500 3 true .hold

/-- Peer `b` connects, completes its handshake and is heard of as leader of term 1. -/
def joinLeader : List Action :=
  [.registerConnection ⟨"b"⟩ "10.0.0.2:4000" 0,
    .receive ⟨"b"⟩ ⟨0, 0⟩ (.handshake ⟨"b"⟩ 4000 1 "session"), .watch,
    .receive ⟨"b"⟩ ⟨10, 10⟩ (.heartbeat 1 ⟨"b"⟩ 10)]

theorem leader_forgotten_after_peerLeave :
    ∃ s next, run step freshNode joinLeader = some s ∧
      s.step (.receive ⟨"b"⟩ ⟨20, 20⟩ (.peerLeave ⟨"b"⟩)) = some next ∧
      ∀ more t, Along step (fun _ b => ¬ Names ⟨"b"⟩ b) next more → run step next more = some t →
        t.membership.eventTx = [] → t.leaderElection.state.leaderId ≠ some ⟨"b"⟩ := by
  obtain ⟨s, next, hrun, hstep, hleader, hremote, hconnected, hlost⟩ :
      ∃ s next, run step freshNode joinLeader = some s ∧
        s.step (.receive ⟨"b"⟩ ⟨20, 20⟩ (.peerLeave ⟨"b"⟩)) = some next ∧
        s.leaderElection.state.leaderId = some ⟨"b"⟩ ∧ s.leaderElection.localPeerId ≠ ⟨"b"⟩ ∧
        s.membership.getPeerStatus ⟨"b"⟩ = some .connected ∧
        next.membership.getPeerStatus ⟨"b"⟩ ≠ some .connected :=
    ⟨_, _, rfl, rfl, by decide, by decide, by decide, by decide⟩
  refine ⟨s, next, hrun, hstep, ?_⟩
  exact (lost_leader_forgotten_iff hleader hremote hconnected hstep hlost).mpr (.inl fun _ _ => nofun)

theorem timed_out_leader_remembered :
    ∃ s t, run step freshNode joinLeader = some s ∧
      s.leaderElection.state.leaderId = some ⟨"b"⟩ ∧
      s.leaderElection.state.autoElectionEnabled = true ∧
      s.leaderElection.state.manualOverride = false ∧
      s.membership.getPeerStatus ⟨"b"⟩ = some .connected ∧
      run step s [.pingTick 2000 true, .watch] = some t ∧
      t.membership.getPeerStatus ⟨"b"⟩ = some .disconnected ∧ t.membership.eventTx = [] ∧
      t.leaderElection.state.leaderId = some ⟨"b"⟩ :=
  ⟨_, _, rfl, by decide, by decide, by decide, by decide, rfl, by decide, by decide, by decide⟩

end NetworkState

end MetaMystia

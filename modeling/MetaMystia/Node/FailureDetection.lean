import MetaMystia.Node.KeepAlive
import MetaMystia.Node.Rediscovery

/-! # A silent peer does not stay connected

Only a handshake message makes a peer connected, and it refreshes the peer; every check
of the ping task marks those that were not refreshed in time. So whoever is connected
was heard of not longer ago than the timeout and the time since the last check.
-/

namespace MetaMystia

open Runs

namespace MembershipManager

variable {self : MembershipManager} {peerId peer : PeerId}

theorem timeoutMs_modify (f : PeerInfo → PeerInfo) :
    (self.modify peerId f).timeoutMs = self.timeoutMs := by
  unfold modify
  cases self.peers.lookup peerId <;> rfl

theorem timeoutMs_updateStatus (newStatus : PeerStatus) :
    (self.updateStatus peerId newStatus).timeoutMs = self.timeoutMs := by
  obtain ⟨_, heq⟩ | ⟨_, _, _, heq⟩ := self.updateStatus_cases peerId newStatus <;> rw [heq]
  rfl

theorem timeoutMs_removePeer : (self.removePeer peerId).timeoutMs = self.timeoutMs := by
  obtain ⟨_, heq⟩ | ⟨_, heq⟩ := self.removePeer_cases peerId <;> rw [heq]
  rfl

theorem connected_of_removePeer
    (h : (self.removePeer peerId).getPeerStatus peer = some .connected) :
    self.getPeerStatus peer = some .connected := by
  by_cases hpeer : peer = peerId
  · subst hpeer
    obtain ⟨hnew, heq⟩ | ⟨_, heq⟩ := self.removePeer_cases peer
    · rwa [heq] at h
    · simp [heq, getPeerStatus] at h
  · rwa [removePeer_status_of_ne hpeer] at h

end MembershipManager

namespace NetworkState

variable {s : NetworkState} {peer : PeerId}

/-- After the check, nobody who was found late is connected. -/
theorem connected_of_timeouts (fits : Bool) (timedOut : List PeerId)
    (h : (timedOut.foldl (timeoutPeer fits) s).membership.getPeerStatus peer = some .connected) :
    peer ∉ timedOut ∧ s.membership.getPeerStatus peer = some .connected := by
  induction timedOut generalizing s with
  | nil => exact ⟨List.not_mem_nil, h⟩
  | cons peerId rest ih =>
    obtain ⟨hrest, hconnected⟩ := ih h
    have hstatus := @MembershipManager.status_updateStatus peer s.membership peerId .disconnected
    replace hconnected : (s.membership.updateStatus peerId .disconnected).getPeerStatus peer =
      some .connected := hconnected
    rw [hstatus] at hconnected
    split_ifs at hconnected with hpeer
    · cases hold : s.membership.getPeerStatus peerId <;> simp [hold] at hconnected
    · exact ⟨by simp [hpeer, hrest], hconnected⟩

theorem timeoutMs_timeouts (fits : Bool) (timedOut : List PeerId) :
    (timedOut.foldl (timeoutPeer fits) s).membership.timeoutMs = s.membership.timeoutMs := by
  induction timedOut generalizing s with
  | nil => rfl
  | cons peerId rest ih =>
    rw [List.foldl_cons, ih]
    exact MembershipManager.timeoutMs_updateStatus .disconnected

/-- A handshake message makes a peer connected and refreshes it. -/
theorem connected_of_peerConnected {remoteId : PeerId} {now : Clock}
    (h : (s.peerConnected remoteId now).membership.getPeerStatus peer = some .connected) :
    s.membership.getPeerStatus peer = some .connected ∨
      (s.peerConnected remoteId now).membership.lastSeen peer = some now.instant := by
  unfold peerConnected at h ⊢
  cases haddr : s.transport.getPeerAddr remoteId with
  | none =>
    rw [haddr] at h
    exact .inl h
  | some addr =>
    simp only [haddr] at h ⊢
    obtain ⟨hmem, heq⟩ | ⟨_, heq⟩ := s.membership.addPeer_cases remoteId addr now.instant
    · simp only [heq, MembershipManager.updateLastSeen_status,
        MembershipManager.status_updateStatus] at h
      split_ifs at h with hpeer
      · subst hpeer
        obtain ⟨info, hinfo⟩ := Assoc.exists_lookup_of_mem hmem
        refine .inr ?_
        simp only [heq, MembershipManager.lastSeen_updateLastSeen, if_true,
          MembershipManager.lastSeen_updateStatus]
        rw [MembershipManager.lastSeen, hinfo]
        rfl
      · exact .inl h
    · simp only [heq] at h ⊢
      by_cases hpeer : peer = remoteId
      · rw [MembershipManager.lastSeen_insert, if_pos hpeer]
        exact .inr rfl
      · refine .inl ?_
        simpa [MembershipManager.getPeerStatus, AList.lookup_insert_ne hpeer] using h

theorem timeoutMs_peerConnected (remoteId : PeerId) (now : Clock) :
    (s.peerConnected remoteId now).membership.timeoutMs = s.membership.timeoutMs := by
  unfold peerConnected
  cases s.transport.getPeerAddr remoteId with
  | none => rfl
  | some addr =>
    obtain ⟨_, heq⟩ | ⟨_, heq⟩ := s.membership.addPeer_cases remoteId addr now.instant
    · simp only [heq]
      exact (MembershipManager.timeoutMs_modify _).trans
        (MembershipManager.timeoutMs_updateStatus .connected)
    · simp only [heq]
      rfl

theorem connected_of_handleMembership {sender : PeerId} {now : Clock} {msg : InternalMessage}
    (h : (s.handleMembership sender now msg).1.membership.getPeerStatus peer = some .connected) :
    s.membership.getPeerStatus peer = some .connected ∨
      (s.handleMembership sender now msg).1.membership.lastSeen peer = some now.instant := by
  cases msg with
  | handshake remoteId listenPort version sessionId => exact connected_of_peerConnected h
  | handshakeAck remoteId listenPort success reason =>
    cases success with
    | false => exact .inl h
    | true => exact connected_of_peerConnected h
  | peerLeave leavingId => exact .inl (MembershipManager.connected_of_removePeer h)
  | ping | heartbeat | heartbeatResponse =>
    exact .inl ((MembershipManager.updateLastSeen_status now.instant).symm.trans h)
  | pong timestampMs =>
    exact .inl ((MembershipManager.handlePong_status timestampMs now.instant now.timestampMs).symm.trans h)
  | _ => exact .inl h

theorem timeoutMs_handleMembership (sender : PeerId) (now : Clock) (msg : InternalMessage) :
    (s.handleMembership sender now msg).1.membership.timeoutMs = s.membership.timeoutMs := by
  cases msg with
  | handshake remoteId listenPort version sessionId => exact timeoutMs_peerConnected remoteId now
  | handshakeAck remoteId listenPort success reason =>
    cases success with
    | false => rfl
    | true => exact timeoutMs_peerConnected remoteId now
  | peerLeave leavingId => exact MembershipManager.timeoutMs_removePeer
  | ping | pong | heartbeat | heartbeatResponse => exact MembershipManager.timeoutMs_modify _
  | _ => rfl

end NetworkState

namespace TimedNode

variable {postcard : Postcard} {peer : PeerId} {s t start : TimedNode} {front : List Event} {e : Event}

/-- The ping task checks the timeouts at this instant. -/
def ChecksAt (instant : Nat) (_ : TimedNode) : Event → Prop
  | .pingTick now _ => now = instant
  | _ => False

/-- The instants at which a run has checked the timeouts. -/
def checks (postcard : Postcard) (start : TimedNode) (events : List Event) : Set Nat :=
  {t | Occurs (step postcard) (ChecksAt t) start events}

theorem timeoutMs_step (hstep : s.step postcard e = some t) :
    t.net.membership.timeoutMs = s.net.membership.timeoutMs := by
  cases e with
  | packet sender packet now =>
    simp only [step, Option.ite_none_right_eq_some, Option.some.injEq] at hstep
    obtain ⟨_, rfl⟩ := hstep
    simp only [NetworkState.handlePacket]
    split
    · split
      · exact NetworkState.timeoutMs_handleMembership sender now _
      · rfl
    · rfl
  | pingTick now fits =>
    simp only [step, Option.ite_none_right_eq_some, Option.some.injEq] at hstep
    obtain ⟨_, rfl⟩ := hstep
    exact NetworkState.timeoutMs_timeouts fits _
  | disconnectPeer peerId fits =>
    obtain rfl := Option.some.inj hstep
    cases s.net.disconnectPeer_cases peerId fits with
    | inl heq => simp only [heq]
    | inr heq =>
      simp only [heq]
      exact MembershipManager.timeoutMs_removePeer
  | connections transport =>
    obtain rfl := Option.some.inj hstep
    rfl

/-- Who is connected after a step was so before and has passed the check, or has been refreshed. -/
theorem connected_step (hstep : s.step postcard e = some t)
    (h : t.net.membership.getPeerStatus peer = some .connected) :
    (s.net.membership.getPeerStatus peer = some .connected ∧
        ∀ instant, ChecksAt instant s e → peer ∉ s.net.membership.checkTimeouts instant) ∨
      t.net.membership.lastSeen peer = some t.clock := by
  cases e with
  | packet sender packet now =>
    simp only [step, Option.ite_none_right_eq_some, Option.some.injEq] at hstep
    obtain ⟨_, rfl⟩ := hstep
    simp only [NetworkState.handlePacket] at h ⊢
    cases hinternal : packet.isInternal with
    | false =>
      simp only [hinternal, Bool.false_eq_true, if_false] at h
      exact .inl ⟨h, fun _ hcheck => hcheck.elim⟩
    | true =>
      cases hdecode : decodeInternal postcard packet with
      | error e =>
        simp only [hinternal, hdecode, if_true] at h
        exact .inl ⟨h, fun _ hcheck => hcheck.elim⟩
      | ok msg =>
        simp only [hinternal, hdecode, if_true] at h ⊢
        exact (NetworkState.connected_of_handleMembership h).imp_left fun hold => ⟨hold, fun _ hcheck => hcheck.elim⟩
  | pingTick now fits =>
    simp only [step, Option.ite_none_right_eq_some, Option.some.injEq] at hstep
    obtain ⟨_, rfl⟩ := hstep
    obtain ⟨hkept, hold⟩ := NetworkState.connected_of_timeouts fits _ h
    refine .inl ⟨hold, ?_⟩
    rintro instant rfl
    exact hkept
  | disconnectPeer peerId fits =>
    obtain rfl := Option.some.inj hstep
    refine .inl ⟨?_, fun _ hcheck => hcheck.elim⟩
    cases s.net.disconnectPeer_cases peerId fits with
    | inl heq => simpa only [heq] using h
    | inr heq =>
      simp only [heq] at h
      exact MembershipManager.connected_of_removePeer h
  | connections transport =>
    obtain rfl := Option.some.inj hstep
    exact .inl ⟨h, fun _ hcheck => hcheck.elim⟩

/-- No check was later than the clock, and whoever is connected had been refreshed in time for all of
them. -/
structure Checked (postcard : Postcard) (peer : PeerId) (start : TimedNode) (events : List Event)
    (s : TimedNode) : Prop where
  past : ∀ instant ∈ checks postcard start events, instant ≤ s.clock
  fresh : s.net.membership.getPeerStatus peer = some .connected →
    ∀ instant ∈ checks postcard start events, ∀ seen, s.net.membership.lastSeen peer = some seen →
      instant ≤ seen + s.net.membership.timeoutMs

theorem checksAt_clock {instant : Nat} (hcheck : ChecksAt instant s e)
    (hstep : s.step postcard e = some t) : instant = t.clock := by
  cases e with
  | pingTick now fits =>
    simp only [step, Option.ite_none_right_eq_some, Option.some.injEq] at hstep
    obtain ⟨_, rfl⟩ := hstep
    exact hcheck.symm
  | _ => cases hcheck

theorem Checked.step (h : Checked postcard peer start front s)
    (hs : run (step postcard) start front = some s) (hstep : s.step postcard e = some t) :
    Checked postcard peer start (front ++ [e]) t := by
  have hclock : s.clock ≤ t.clock := (@clock_step _ peer _ _ _ hstep).1
  have hpast : ∀ instant ∈ checks postcard start (front ++ [e]), instant ≤ t.clock := by
    intro instant hinstant
    obtain hold | hnew := (occurs_concat_iff hs).mp hinstant
    · exact (h.past instant hold).trans hclock
    · exact (checksAt_clock hnew hstep).le
  refine ⟨hpast, fun hconnected instant hinstant seen hseen => ?_⟩
  rw [timeoutMs_step hstep]
  -- What this very step refreshes is later than all checks.
  have hnow : seen = t.clock → instant ≤ seen + s.net.membership.timeoutMs := by
    rintro rfl
    exact (hpast instant hinstant).trans (Nat.le_add_right _ _)
  obtain ⟨hbefore, hkept⟩ | hrefreshed := connected_step hstep hconnected
  · obtain hrefresh | ⟨_, hold⟩ := lastSeen_step hstep hseen
    · exact hnow ((clock_step hstep).2 seen hrefresh)
    · obtain hearlier | hnew := (occurs_concat_iff hs).mp hinstant
      · exact h.fresh hbefore instant hearlier seen hold
      · by_contra hlate
        exact hkept instant hnew
          (MembershipManager.mem_checkTimeouts_iff.mpr ⟨hbefore, seen, hold, by omega⟩)
  · exact hnow (Option.some.inj (hseen.symm.trans hrefreshed))

theorem checked_run {events : List Event} (hrun : run (step postcard) start events = some s)
    (hempty : start.net.membership.peers = ∅) : Checked postcard peer start events s := by
  have hstart : Checked postcard peer start [] start := by
    constructor
    · exact fun _ hinstant => absurd hinstant not_occurs_nil
    · simp [MembershipManager.getPeerStatus, hempty]
  exact history_induction (P := fun _ _ => True) hstart
    (fun _ _ _ _ hm _ h _ hstep => h.step hm hstep) (along_of_forall (fun _ _ => trivial) _ _) hrun

/-- In every run, if the timeouts were checked not longer ago than the interval, then whoever is
connected was refreshed not longer ago than the timeout and the interval: a silent peer does not stay
in the table as connected, whatever else happens. -/
theorem connected_heard_recently {events : List Event} (hempty : start.net.membership.peers = ∅)
    (hrun : run (step postcard) start events = some s)
    (hconnected : s.net.membership.getPeerStatus peer = some .connected) {checked interval : Nat}
    (hchecked : checked ∈ checks postcard start events) (hinterval : s.clock ≤ checked + interval) :
    ∃ seen ∈ refreshes postcard peer start events,
      s.clock ≤ seen + s.net.membership.timeoutMs + interval := by
  obtain ⟨info, hinfo, _⟩ := Option.map_eq_some_iff.mp hconnected
  have hseen : s.net.membership.lastSeen peer = some info.lastSeen := by
    rw [MembershipManager.lastSeen, hinfo]
    rfl
  obtain ⟨hmem, _⟩ := (stamped_run hempty hrun).latest info.lastSeen hseen
  have hfresh := (checked_run hrun hempty).fresh hconnected checked hchecked info.lastSeen hseen
  exact ⟨info.lastSeen, hmem, by omega⟩

/-- A ping at 1400 ms, and a check every 500 ms. -/
def pinged : List Event :=
  joined ++ [.pingTick 500 true, .pingTick 1000 true,
    .packet ⟨"b"⟩ ⟨0x0012, 0, [6, 0]⟩ ⟨1400, 1400⟩, .pingTick 1500 true, .pingTick 2000 true]

theorem pinged_peer_still_connected :
    ∃ s, run (step greetingPostcard) created pinged = some s ∧
      s.net.membership.getPeerStatus ⟨"b"⟩ = some .connected ∧
      ∃ seen ∈ refreshes greetingPostcard ⟨"b"⟩ created pinged,
        s.clock ≤ seen + s.net.membership.timeoutMs + 0 := by
  have hchecked : 2000 ∈ checks greetingPostcard created pinged :=
    ⟨pinged.dropLast, .pingTick 2000 true, [], _, rfl, rfl, rfl⟩
  exact ⟨_, rfl, by decide, connected_heard_recently rfl rfl (by decide) hchecked (by decide)⟩

end TimedNode

end MetaMystia

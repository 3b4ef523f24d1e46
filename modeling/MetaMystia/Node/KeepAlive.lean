import Mathlib.Order.Bounds.Basic
import MetaMystia.Library.Runs
import MetaMystia.Messaging
import MetaMystia.Node.NetworkState
import MetaMystia.Transport.UserMessages

/-! # Which packets keep a peer alive

The timeout check reads the `last_seen` of the membership table. Of all that
`handle_message` handles, the pings, the heartbeats, their answers and the handshake
messages refresh it; a peer that sends anything else times out.
-/

namespace MetaMystia

open Runs

/-- `handle_message` does not return early on the packet. -/
def RawPacket.Decodes (lz4 : Lz4) (postcard : Postcard) (packet : RawPacket) : Prop :=
  if packet.isInternal then ∃ msg, decodeInternal postcard packet = .ok msg
  else ∃ data, decodePayload lz4 packet = .ok data

/-- The arms of `handle_message` that set the `last_seen` of the peer. -/
def InternalMessage.Refreshes (transport : TransportManager) (sender peer : PeerId) :
    InternalMessage → Prop
  | .ping _ | .pong _ | .heartbeat _ _ _ | .heartbeatResponse _ _ => sender = peer
  | .handshake remoteId _ _ _ => remoteId = peer ∧ peer ∈ transport.connections
  | .handshakeAck remoteId _ success _ =>
    success = true ∧ remoteId = peer ∧ peer ∈ transport.connections
  | _ => False

namespace MembershipManager

def timeoutMs (self : MembershipManager) : Nat :=
  self.heartbeatIntervalMs.toNat * self.heartbeatTimeoutMultiplier.toNat

def lastSeen (self : MembershipManager) (peerId : PeerId) : Option Nat :=
  (self.peers.lookup peerId).map (·.lastSeen)

variable {self : MembershipManager} {peerId peer : PeerId}

theorem mem_checkTimeouts_iff {now : Nat} : peer ∈ self.checkTimeouts now ↔
    self.getPeerStatus peer = some .connected ∧
      ∃ seen, self.lastSeen peer = some seen ∧ seen + self.timeoutMs < now := by
  simp only [checkTimeouts, List.mem_map, List.mem_filter, Bool.and_eq_true, beq_iff_eq,
    decide_eq_true_eq]
  constructor
  · rintro ⟨⟨p, info⟩, ⟨hentry, hstatus, hlate⟩, rfl⟩
    have hlookup : self.peers.lookup p = some info := AList.mem_lookup_iff.mpr hentry
    have hold : info.status = .connected := hstatus
    have hlate' : self.timeoutMs < now - info.lastSeen := hlate
    refine ⟨by simp [getPeerStatus, hlookup, hold], info.lastSeen, by simp [lastSeen, hlookup], ?_⟩
    omega
  · rintro ⟨hstatus, seen, hseen, hlate⟩
    obtain ⟨info, hlookup, rfl⟩ := Option.map_eq_some_iff.mp hseen
    refine ⟨⟨peer, info⟩, ⟨AList.mem_lookup_iff.mp hlookup, ?_, ?_⟩, rfl⟩
    · simpa [getPeerStatus, hlookup] using hstatus
    · have hsum : self.timeoutMs < now - info.lastSeen := by omega
      exact hsum

theorem lastSeen_insert {info : PeerInfo} {events : List MembershipEvent} :
    ({ self with peers := self.peers.insert peerId info, eventTx := events }).lastSeen peer =
      if peer = peerId then some info.lastSeen else self.lastSeen peer :=
  Assoc.map_lookup_insert PeerInfo.lastSeen

theorem lastSeen_updateStatus (newStatus : PeerStatus) :
    (self.updateStatus peerId newStatus).lastSeen peer = self.lastSeen peer := by
  obtain ⟨_, heq⟩ | ⟨info, hinfo, _, heq⟩ := self.updateStatus_cases peerId newStatus
  · rw [heq]
  · rw [heq, lastSeen_insert]
    split_ifs with hpeer
    · rw [hpeer, lastSeen, hinfo]
      rfl
    · rfl

/-- What refreshes a peer that is in the table. -/
theorem lastSeen_modify {f : PeerInfo → PeerInfo} {now : Nat} (hf : ∀ info, (f info).lastSeen = now) :
    (self.modify peerId f).lastSeen peer =
      if peer = peerId then (self.lastSeen peer).map fun _ => now else self.lastSeen peer := by
  unfold modify
  cases hlookup : self.peers.lookup peerId with
  | none =>
    split_ifs with hpeer
    · subst hpeer
      simp [lastSeen, hlookup]
    · rfl
  | some info =>
    simp only [lastSeen_insert]
    split_ifs with hpeer
    · subst hpeer
      simp [lastSeen, hlookup, hf]
    · rfl

theorem lastSeen_updateLastSeen (now : Nat) :
    (self.updateLastSeen peerId now).lastSeen peer =
      if peer = peerId then (self.lastSeen peer).map fun _ => now else self.lastSeen peer := by
  refine lastSeen_modify ?_
  intro info
  rfl

theorem lastSeen_removePeer (seen : Nat) (h : (self.removePeer peerId).lastSeen peer = some seen) :
    self.lastSeen peer = some seen := by
  obtain ⟨_, heq⟩ | ⟨_, heq⟩ := self.removePeer_cases peerId
  · rwa [heq] at h
  · rw [heq] at h
    by_cases hpeer : peer = peerId
    · subst hpeer
      simp [lastSeen] at h
    · simpa [lastSeen, AList.lookup_erase_ne hpeer] using h

end MembershipManager

namespace NetworkState

/-- `handle_message`, without what it sends and what it reports: a user packet goes to the receive
callback, and the table is left as it is. -/
def handlePacket (postcard : Postcard) (self : NetworkState) (peerId : PeerId) (now : Clock)
    (packet : RawPacket) : NetworkState :=
  if packet.isInternal then
    match decodeInternal postcard packet with
    | .ok msg => (self.handleMessage peerId now msg).1
    | .error _ => self
  else self

variable {s : NetworkState} {sender peer : PeerId} {now : Clock} {seen : Nat}

theorem lastSeen_peerConnected {remoteId : PeerId}
    (h : (s.peerConnected remoteId now).membership.lastSeen peer = some seen) :
    ((remoteId = peer ∧ peer ∈ s.transport.connections) ∧ seen = now.instant) ∨
      (¬ (remoteId = peer ∧ peer ∈ s.transport.connections) ∧
        s.membership.lastSeen peer = some seen) := by
  unfold peerConnected at h
  cases haddr : s.transport.getPeerAddr remoteId with
  | none =>
    have hnew : remoteId ∉ s.transport.connections :=
      AList.lookup_eq_none.mp (Option.map_eq_none_iff.mp haddr)
    rw [haddr] at h
    refine .inr ⟨?_, h⟩
    rintro ⟨rfl, hmem⟩
    exact hnew hmem
  | some addr =>
    have hmem : remoteId ∈ s.transport.connections := by
      obtain ⟨conn, hconn, _⟩ := Option.map_eq_some_iff.mp haddr
      exact Assoc.mem_of_lookup hconn
    simp only [haddr] at h
    obtain ⟨_, heq⟩ | ⟨_, heq⟩ := s.membership.addPeer_cases remoteId addr now.instant
    · simp only [heq, MembershipManager.lastSeen_updateLastSeen,
        MembershipManager.lastSeen_updateStatus] at h
      split_ifs at h with hpeer
      · subst hpeer
        obtain ⟨_, _, rfl⟩ := Option.map_eq_some_iff.mp h
        exact .inl ⟨⟨rfl, hmem⟩, rfl⟩
      · exact .inr ⟨fun hboth => hpeer hboth.1.symm, h⟩
    · simp only [heq] at h
      rw [MembershipManager.lastSeen_insert] at h
      split_ifs at h with hpeer
      · subst hpeer
        exact .inl ⟨⟨rfl, hmem⟩, (Option.some.inj h).symm⟩
      · exact .inr ⟨fun hboth => hpeer hboth.1.symm, h⟩

theorem lastSeen_refresh {f : PeerInfo → PeerInfo} (hf : ∀ info, (f info).lastSeen = now.instant)
    (h : (s.membership.modify sender f).lastSeen peer = some seen) :
    (sender = peer ∧ seen = now.instant) ∨ (sender ≠ peer ∧ s.membership.lastSeen peer = some seen) := by
  rw [MembershipManager.lastSeen_modify hf] at h
  split_ifs at h with hpeer
  · obtain ⟨_, _, rfl⟩ := Option.map_eq_some_iff.mp h
    exact .inl ⟨hpeer.symm, rfl⟩
  · exact .inr ⟨Ne.symm hpeer, h⟩

theorem lastSeen_handleMembership {msg : InternalMessage}
    (h : (s.handleMembership sender now msg).1.membership.lastSeen peer = some seen) :
    (msg.Refreshes s.transport sender peer ∧ seen = now.instant) ∨
      (¬ msg.Refreshes s.transport sender peer ∧ s.membership.lastSeen peer = some seen) := by
  cases msg with
  | handshake remoteId listenPort version sessionId => exact lastSeen_peerConnected h
  | handshakeAck remoteId listenPort success reason =>
    cases success with
    | false => exact .inr ⟨fun hrefresh => absurd hrefresh.1 nofun, h⟩
    | true => simpa [InternalMessage.Refreshes] using lastSeen_peerConnected h
  | peerLeave leavingId => exact .inr ⟨id, MembershipManager.lastSeen_removePeer seen h⟩
  | ping | pong | heartbeat | heartbeatResponse => exact lastSeen_refresh (fun _ => rfl) h
  | _ => exact .inr ⟨id, h⟩

theorem lastSeen_disconnectPeer {peerId : PeerId} {fits : Bool}
    (h : (s.disconnectPeer peerId fits).membership.lastSeen peer = some seen) :
    s.membership.lastSeen peer = some seen := by
  cases s.disconnectPeer_cases peerId fits with
  | inl heq => rwa [heq] at h
  | inr heq =>
    rw [heq] at h
    exact MembershipManager.lastSeen_removePeer seen h

theorem lastSeen_timeouts (fits : Bool) (timedOut : List PeerId) (s : NetworkState) :
    (timedOut.foldl (timeoutPeer fits) s).membership.lastSeen peer = s.membership.lastSeen peer := by
  induction timedOut generalizing s with
  | nil => rfl
  | cons peerId rest ih =>
    rw [List.foldl_cons, ih]
    exact MembershipManager.lastSeen_updateStatus .disconnected

end NetworkState

/-- One node with its monotonic clock. -/
structure TimedNode where
  net : NetworkState
  clock : Nat

namespace TimedNode

/-- `connections` stands for whatever the tasks of the transport do. -/
inductive Event
  | packet (sender : PeerId) (packet : RawPacket) (now : Clock)
  | pingTick (now : Nat) (fits : Bool)
  | disconnectPeer (peerId : PeerId) (fits : Bool)
  | connections (transport : TransportManager)

variable (lz4 : Lz4) (postcard : Postcard)

def step (s : TimedNode) : Event → Option TimedNode
  | .packet sender packet now =>
    if s.clock ≤ now.instant then
      some { net := s.net.handlePacket postcard sender now packet, clock := now.instant }
    else none
  | .pingTick now fits =>
    if s.clock ≤ now then some { net := s.net.pingTick now fits, clock := now } else none
  | .disconnectPeer peerId fits => some { s with net := s.net.disconnectPeer peerId fits }
  | .connections transport => some { s with net := { s.net with transport } }

/-- The node handles a decodable packet from the peer at this instant. -/
def HeardAt (peer : PeerId) (t : Nat) (_ : TimedNode) : Event → Prop
  | .packet sender packet now => sender = peer ∧ packet.Decodes lz4 postcard ∧ now.instant = t
  | _ => False

/-- The node handles a message at this instant that refreshes the peer. -/
def RefreshedAt (peer : PeerId) (t : Nat) (s : TimedNode) : Event → Prop
  | .packet sender packet now => packet.isInternal = true ∧
    (∃ msg, decodeInternal postcard packet = .ok msg ∧ msg.Refreshes s.net.transport sender peer) ∧
    now.instant = t
  | _ => False

/-- Something that happened at one of these instants is not longer ago than the timeout. -/
def Recent (s : TimedNode) (now : Nat) (instants : Set Nat) : Prop :=
  ∃ t ∈ instants, now ≤ t + s.net.membership.timeoutMs

section

variable {lz4 : Lz4} {postcard : Postcard} {peer : PeerId} {s t : TimedNode} {start : TimedNode}
  {front : List Event} {e : Event}

/-- The instants at which a run has refreshed the peer. -/
def refreshes (postcard : Postcard) (peer : PeerId) (start : TimedNode) (events : List Event) : Set Nat :=
  {t | Occurs (step postcard) (RefreshedAt postcard peer t) start events}

def heard (lz4 : Lz4) (postcard : Postcard) (peer : PeerId) (start : TimedNode) (events : List Event) :
    Set Nat :=
  {t | Occurs (step postcard) (HeardAt lz4 postcard peer t) start events}

/-- The `last_seen` of an entry is the instant of the last refresh. -/
structure Stamped (postcard : Postcard) (peer : PeerId) (start : TimedNode) (events : List Event)
    (s : TimedNode) : Prop where
  past : ∀ instant ∈ refreshes postcard peer start events, instant ≤ s.clock
  latest : ∀ seen, s.net.membership.lastSeen peer = some seen →
    IsGreatest (refreshes postcard peer start events) seen

theorem mem_refreshes_concat_iff {instant : Nat} (hs : run (step postcard) start front = some s) :
    instant ∈ refreshes postcard peer start (front ++ [e]) ↔
      instant ∈ refreshes postcard peer start front ∨ RefreshedAt postcard peer instant s e :=
  occurs_concat_iff hs

theorem clock_step (hstep : s.step postcard e = some t) :
    s.clock ≤ t.clock ∧ ∀ instant, RefreshedAt postcard peer instant s e → instant = t.clock := by
  cases e with
  | packet sender packet now =>
    simp only [step, Option.ite_none_right_eq_some, Option.some.injEq] at hstep
    obtain ⟨hclock, rfl⟩ := hstep
    exact ⟨hclock, fun instant hrefresh => hrefresh.2.2.symm⟩
  | pingTick now fits =>
    simp only [step, Option.ite_none_right_eq_some, Option.some.injEq] at hstep
    obtain ⟨hclock, rfl⟩ := hstep
    exact ⟨hclock, fun _ hrefresh => absurd hrefresh id⟩
  | disconnectPeer | connections =>
    obtain rfl := Option.some.inj hstep
    exact ⟨Nat.le_refl _, fun _ hrefresh => absurd hrefresh id⟩

/-- A step that does not refresh the peer leaves its `last_seen` or removes it. -/
theorem lastSeen_step {seen : Nat} (hstep : s.step postcard e = some t)
    (h : t.net.membership.lastSeen peer = some seen) :
    RefreshedAt postcard peer seen s e ∨
      ((∀ instant, ¬ RefreshedAt postcard peer instant s e) ∧
        s.net.membership.lastSeen peer = some seen) := by
  cases e with
  | packet sender packet now =>
    simp only [step, Option.ite_none_right_eq_some, Option.some.injEq] at hstep
    obtain ⟨_, rfl⟩ := hstep
    simp only [NetworkState.handlePacket] at h
    split at h
    · next hinternal =>
      split at h
      · next msg hdecode =>
        obtain ⟨hrefresh, rfl⟩ | ⟨hno, hold⟩ := NetworkState.lastSeen_handleMembership h
        · exact .inl ⟨hinternal, ⟨msg, hdecode, hrefresh⟩, rfl⟩
        · refine .inr ⟨?_, hold⟩
          rintro instant ⟨_, ⟨msg', hdecode', hrefresh⟩, _⟩
          obtain rfl : msg = msg' := Except.ok.inj (hdecode.symm.trans hdecode')
          exact hno hrefresh
      · next e hdecode =>
        refine .inr ⟨?_, h⟩
        rintro instant ⟨_, ⟨msg, hok, _⟩, _⟩
        exact absurd (hdecode.symm.trans hok) nofun
    · next huser =>
      exact .inr ⟨fun _ hrefresh => huser hrefresh.1, h⟩
  | pingTick now fits =>
    simp only [step, Option.ite_none_right_eq_some, Option.some.injEq] at hstep
    obtain ⟨_, rfl⟩ := hstep
    exact .inr ⟨fun _ => id, (NetworkState.lastSeen_timeouts fits _ s.net).symm.trans h⟩
  | disconnectPeer peerId fits =>
    obtain rfl := Option.some.inj hstep
    exact .inr ⟨fun _ => id, NetworkState.lastSeen_disconnectPeer h⟩
  | connections transport =>
    obtain rfl := Option.some.inj hstep
    exact .inr ⟨fun _ => id, h⟩

theorem Stamped.step (h : Stamped postcard peer start front s)
    (hs : run (step postcard) start front = some s) (hstep : s.step postcard e = some t) :
    Stamped postcard peer start (front ++ [e]) t := by
  obtain ⟨hclock, hnow⟩ : s.clock ≤ t.clock ∧
      ∀ instant, RefreshedAt postcard peer instant s e → instant = t.clock := clock_step hstep
  have hpast : ∀ instant ∈ refreshes postcard peer start (front ++ [e]), instant ≤ t.clock := by
    intro instant hinstant
    cases (mem_refreshes_concat_iff hs).mp hinstant with
    | inl hold => exact (h.past instant hold).trans hclock
    | inr hnew => exact Nat.le_of_eq (hnow instant hnew)
  refine ⟨hpast, ?_⟩
  intro seen hseen
  obtain hrefresh | ⟨hno, hold⟩ := lastSeen_step hstep hseen
  · refine ⟨(mem_refreshes_concat_iff hs).mpr (.inr hrefresh), ?_⟩
    intro instant hinstant
    rw [hnow seen hrefresh]
    exact hpast instant hinstant
  · obtain ⟨hmem, hgreatest⟩ := h.latest seen hold
    refine ⟨(mem_refreshes_concat_iff hs).mpr (.inl hmem), ?_⟩
    intro instant hinstant
    cases (mem_refreshes_concat_iff hs).mp hinstant with
    | inl hearlier => exact hgreatest hearlier
    | inr hnew => exact absurd hnew (hno instant)

theorem stamped_run {events : List Event} (hempty : start.net.membership.peers = ∅)
    (hrun : run (step postcard) start events = some s) : Stamped postcard peer start events s := by
  have hstart : Stamped postcard peer start [] start := by
    constructor
    · exact fun _ hinstant => absurd hinstant not_occurs_nil
    · simp [MembershipManager.lastSeen, hempty]
  exact history_induction (P := fun _ _ => True) hstart
    (fun _ _ _ _ hm _ h _ hstep => h.step hm hstep) (along_of_forall (fun _ _ => trivial) _ _) hrun

theorem not_timedOut_iff {events : List Event} (hempty : start.net.membership.peers = ∅)
    (hrun : run (step postcard) start events = some s) (now : Nat)
    (hconnected : s.net.membership.getPeerStatus peer = some .connected) :
    peer ∉ s.net.membership.checkTimeouts now ↔
      s.Recent now (refreshes postcard peer start events) := by
  obtain ⟨info, hinfo, _⟩ := Option.map_eq_some_iff.mp hconnected
  have hseen : s.net.membership.lastSeen peer = some info.lastSeen := by
    rw [MembershipManager.lastSeen, hinfo]
    rfl
  obtain ⟨hmem, hgreatest⟩ := (stamped_run hempty hrun).latest info.lastSeen hseen
  rw [MembershipManager.mem_checkTimeouts_iff]
  constructor
  · intro hkept
    refine ⟨info.lastSeen, hmem, ?_⟩
    by_contra hlate
    exact hkept ⟨hconnected, info.lastSeen, hseen, by omega⟩
  · rintro ⟨instant, hinstant, hrecent⟩ ⟨_, seen, hseen', hlate⟩
    obtain rfl := Option.some.inj (hseen.symm.trans hseen')
    have hle : instant ≤ info.lastSeen := hgreatest hinstant
    omega

/-- A connected peer that was heard of within the timeout is not reported, exactly when what was
heard refreshed it: in every run it is enough, and necessary, that a ping, a heartbeat, an answer to
one or a handshake message about the peer was handled within the timeout. -/
theorem traffic_keeps_alive_iff {events : List Event} (hempty : start.net.membership.peers = ∅)
    (hrun : run (step postcard) start events = some s) (now : Nat) :
    (s.net.membership.getPeerStatus peer = some .connected →
        s.Recent now (heard lz4 postcard peer start events) →
          peer ∉ s.net.membership.checkTimeouts now) ↔
      (s.net.membership.getPeerStatus peer = some .connected →
        s.Recent now (heard lz4 postcard peer start events) →
          s.Recent now (refreshes postcard peer start events)) := by
  constructor
  · intro hkept hconnected hheard
    exact (not_timedOut_iff hempty hrun now hconnected).mp (hkept hconnected hheard)
  · intro hrefreshed hconnected hheard
    exact (not_timedOut_iff hempty hrun now hconnected).mpr (hrefreshed hconnected hheard)

end

/-- `postcard` on two messages: the variant, then the fields in order. -/
def greetingPostcard : Postcard where
  toAllocvec _ := .error "unsupported"
  fromBytes bytes :=
    if bytes = [0, 1, 98, 160, 31, 1, 4, 114, 111, 111, 109] then .ok (.handshake ⟨"b"⟩ 4000 1 "room")
    else if bytes = [6, 0] then .ok (.ping 0)
    else .error "unsupported"

def created : TimedNode := ⟨.new ⟨"a"⟩ "room" 4000 true 500 3 true .hold, 0⟩

/-- Peer `b` connects. -/
def joined : List Event :=
  [.connections { created.net.transport with
      connections := (∅ : AList _).insert ⟨"b"⟩ ⟨0, none, .new ⟨"b"⟩ "10.0.0.2:4000" 0⟩ },
    .packet ⟨"b"⟩ ⟨0x0001, 0, [0, 1, 98, 160, 31, 1, 4, 114, 111, 111, 109]⟩ ⟨0, 0⟩]

/-- A ping at 1400 ms, the check at 1600 ms: the timeout is 1500 ms. -/
theorem pinged_peer_kept :
    ∃ s, run (step greetingPostcard) created
        (joined ++ [.packet ⟨"b"⟩ ⟨0x0012, 0, [6, 0]⟩ ⟨1400, 1400⟩]) = some s ∧
      ⟨"b"⟩ ∉ s.net.membership.checkTimeouts 1600 := by
  obtain ⟨s, hrun, hstatus, htimeout⟩ : ∃ s, run (step greetingPostcard) created
        (joined ++ [.packet ⟨"b"⟩ ⟨0x0012, 0, [6, 0]⟩ ⟨1400, 1400⟩]) = some s ∧
      s.net.membership.getPeerStatus ⟨"b"⟩ = some .connected ∧ s.net.membership.timeoutMs = 1500 :=
    ⟨_, rfl, by decide, rfl⟩
  have hheard : s.Recent 1600 (heard literalBlock greetingPostcard ⟨"b"⟩ created
      (joined ++ [.packet ⟨"b"⟩ ⟨0x0012, 0, [6, 0]⟩ ⟨1400, 1400⟩])) :=
    ⟨1400, ⟨joined, _, [], _, rfl, rfl, rfl, ⟨.ping 0, rfl⟩, rfl⟩, by omega⟩
  have hrefreshed : s.Recent 1600 (refreshes greetingPostcard ⟨"b"⟩ created
      (joined ++ [.packet ⟨"b"⟩ ⟨0x0012, 0, [6, 0]⟩ ⟨1400, 1400⟩])) :=
    ⟨1400, ⟨joined, _, [], _, rfl, rfl, rfl, ⟨.ping 0, rfl, rfl⟩, rfl⟩, by omega⟩
  exact ⟨s, hrun, (traffic_keeps_alive_iff rfl hrun 1600).mpr (fun _ _ => hrefreshed) hstatus hheard⟩

/-- A user packet at 1400 ms instead. -/
theorem busy_peer_times_out :
    ¬ ∀ events s, run (step greetingPostcard) created events = some s → ∀ peer now,
      s.net.membership.getPeerStatus peer = some .connected →
        s.Recent now (heard literalBlock greetingPostcard peer created events) →
          peer ∉ s.net.membership.checkTimeouts now := by
  intro h
  obtain ⟨s, hrun, hstatus, htimeout, hreported⟩ : ∃ s, run (step greetingPostcard) created
        (joined ++ [.packet ⟨"b"⟩ ⟨0x0100, 0, [104, 105]⟩ ⟨1400, 1400⟩]) = some s ∧
      s.net.membership.getPeerStatus ⟨"b"⟩ = some .connected ∧ s.net.membership.timeoutMs = 1500 ∧
      ⟨"b"⟩ ∈ s.net.membership.checkTimeouts 1600 :=
    ⟨_, rfl, by decide, rfl, by decide⟩
  have hheard : s.Recent 1600 (heard literalBlock greetingPostcard ⟨"b"⟩ created
      (joined ++ [.packet ⟨"b"⟩ ⟨0x0100, 0, [104, 105]⟩ ⟨1400, 1400⟩])) :=
    ⟨1400, ⟨joined, _, [], _, rfl, rfl, rfl, ⟨[104, 105], rfl⟩, rfl⟩, by omega⟩
  exact h _ s hrun ⟨"b"⟩ 1600 hstatus hheard hreported

end TimedNode

end MetaMystia

import MetaMystia.Library.Assoc
import MetaMystia.Types

/-! # The membership manager

`eventTx` holds the events that were sent and that the membership event watcher
has not received yet, oldest first. The capacity of the broadcast channel is not
modelled: a watcher that lags loses no event here.
-/

namespace MetaMystia

inductive MembershipEvent
  | joined (peerId : PeerId)
  | left (peerId : PeerId)
  | statusChanged (peerId : PeerId) (old new : PeerStatus)
deriving DecidableEq

structure MembershipManager where
  localPeerId : PeerId
  peers : AList fun _ : PeerId => PeerInfo
  heartbeatIntervalMs : UInt16
  heartbeatTimeoutMultiplier : UInt8
  eventTx : List MembershipEvent

namespace MembershipManager

def new (localPeerId : PeerId) (heartbeatIntervalMs : UInt16) (heartbeatTimeoutMultiplier : UInt8) :
    MembershipManager where
  localPeerId
  peers := ∅
  heartbeatIntervalMs
  heartbeatTimeoutMultiplier
  eventTx := []

def hasPeer (self : MembershipManager) (peerId : PeerId) : Bool := peerId ∈ self.peers

def getPeerStatus (self : MembershipManager) (peerId : PeerId) : Option PeerStatus :=
  (self.peers.lookup peerId).map (·.status)

def getConnectedPeerCount (self : MembershipManager) : Nat :=
  self.peers.entries.countP fun entry => entry.2.status == .connected

def addPeer (self : MembershipManager) (peerId : PeerId) (addr : String) (now : Nat) :
    Except NetworkError MembershipManager :=
  if peerId ∈ self.peers then
    .error (.duplicatePeerId peerId)
  else
    .ok { self with
      peers := self.peers.insert peerId (.new peerId addr now)
      eventTx := self.eventTx ++ [.joined peerId] }

def removePeer (self : MembershipManager) (peerId : PeerId) : MembershipManager :=
  if peerId ∈ self.peers then
    { self with
      peers := self.peers.erase peerId
      eventTx := self.eventTx ++ [.left peerId] }
  else self

def updateStatus (self : MembershipManager) (peerId : PeerId) (newStatus : PeerStatus) :
    MembershipManager :=
  match self.peers.lookup peerId with
  | some info =>
    if info.status ≠ newStatus then
      { self with
        peers := self.peers.insert peerId { info with status := newStatus }
        eventTx := self.eventTx ++ [.statusChanged peerId info.status newStatus] }
    else self
  | none => self

/-- `get_mut` on the table, for changes that send no event. -/
def modify (self : MembershipManager) (peerId : PeerId) (f : PeerInfo → PeerInfo) : MembershipManager :=
  match self.peers.lookup peerId with
  | some info => { self with peers := self.peers.insert peerId (f info) }
  | none => self

def updateLastSeen (self : MembershipManager) (peerId : PeerId) (now : Nat) : MembershipManager :=
  self.modify peerId fun info => { info with lastSeen := now }

def handlePong (self : MembershipManager) (peerId : PeerId) (sentTimestampMs : UInt64) (now : Nat)
    (nowMs : UInt64) : MembershipManager :=
  let rtt := if sentTimestampMs ≤ nowMs then nowMs - sentTimestampMs else 0
  self.modify peerId fun info => { info with rttMs := some rtt.toUInt32, lastSeen := now }

def checkTimeouts (self : MembershipManager) (now : Nat) : List PeerId :=
  let timeout := self.heartbeatIntervalMs.toNat * self.heartbeatTimeoutMultiplier.toNat
  (self.peers.entries.filter fun entry =>
    entry.2.status == .connected && decide (timeout < now - entry.2.lastSeen)).map (·.1)

variable {self : MembershipManager} {peerId peer : PeerId}

theorem removePeer_cases (self : MembershipManager) (peerId : PeerId) :
    (peerId ∉ self.peers ∧ self.removePeer peerId = self) ∨
    (peerId ∈ self.peers ∧ self.removePeer peerId = { self with
      peers := self.peers.erase peerId
      eventTx := self.eventTx ++ [.left peerId] }) := by
  unfold removePeer
  by_cases h : peerId ∈ self.peers
  · exact .inr ⟨h, if_pos h⟩
  · exact .inl ⟨h, if_neg h⟩

theorem mem_peers_of_status {status : PeerStatus} (h : self.getPeerStatus peerId = some status) :
    peerId ∈ self.peers := by
  obtain ⟨info, hinfo, _⟩ := Option.map_eq_some_iff.mp h
  exact Assoc.mem_of_lookup hinfo

theorem left_mem_removePeer (h : peerId ∈ self.peers) :
    .left peerId ∈ (self.removePeer peerId).eventTx := by
  cases self.removePeer_cases peerId with
  | inl hcase => exact absurd h hcase.1
  | inr hcase => simp [hcase.2]

theorem removePeer_status_of_ne (hne : peer ≠ peerId) :
    (self.removePeer peerId).getPeerStatus peer = self.getPeerStatus peer := by
  obtain ⟨_, heq⟩ | ⟨_, heq⟩ := self.removePeer_cases peerId
  · rw [heq]
  · simp [heq, getPeerStatus, AList.lookup_erase_ne hne]

theorem modify_status {f : PeerInfo → PeerInfo} (hf : ∀ info, (f info).status = info.status) :
    (self.modify peerId f).getPeerStatus peer = self.getPeerStatus peer := by
  unfold modify getPeerStatus
  cases hlookup : self.peers.lookup peerId with
  | none => rfl
  | some info =>
    by_cases hne : peer = peerId
    · subst hne
      simp [hlookup, hf]
    · simp [AList.lookup_insert_ne hne]

theorem modify_eventTx {f : PeerInfo → PeerInfo} :
    (self.modify peerId f).eventTx = self.eventTx := by
  unfold modify
  cases self.peers.lookup peerId <;> rfl

theorem mem_peers_modify {f : PeerInfo → PeerInfo} (h : peer ∈ self.peers) :
    peer ∈ (self.modify peerId f).peers := by
  unfold modify
  cases self.peers.lookup peerId with
  | none => exact h
  | some info => exact (AList.mem_insert _).mpr (.inr h)

theorem mem_peers_of_modify {f : PeerInfo → PeerInfo} (h : peer ∈ (self.modify peerId f).peers) :
    peer ∈ self.peers := by
  unfold modify at h
  cases hlookup : self.peers.lookup peerId with
  | none => simpa [hlookup] using h
  | some info =>
    simp only [hlookup, AList.mem_insert] at h
    obtain rfl | hold := h
    · exact Assoc.mem_of_lookup hlookup
    · exact hold

theorem mem_peers_of_removePeer (h : peer ∈ (self.removePeer peerId).peers) : peer ∈ self.peers := by
  cases self.removePeer_cases peerId with
  | inl hcase => rwa [hcase.2] at h
  | inr hcase =>
    rw [hcase.2] at h
    exact (AList.mem_erase.mp h).2

theorem mem_peers_removePeer (hne : peer ≠ peerId) (h : peer ∈ self.peers) :
    peer ∈ (self.removePeer peerId).peers := by
  cases self.removePeer_cases peerId with
  | inl hcase => rwa [hcase.2]
  | inr hcase =>
    rw [hcase.2]
    exact AList.mem_erase.mpr ⟨hne, h⟩

theorem left_of_mem_removePeer (h : .left peer ∈ (self.removePeer peerId).eventTx) :
    .left peer ∈ self.eventTx ∨ peer = peerId := by
  cases self.removePeer_cases peerId with
  | inl hcase => exact .inl (hcase.2 ▸ h)
  | inr hcase =>
    rw [hcase.2, List.mem_append, List.mem_singleton] at h
    exact h.imp_right MembershipEvent.left.inj

theorem eventTx_subset_removePeer {event : MembershipEvent} (h : event ∈ self.eventTx) :
    event ∈ (self.removePeer peerId).eventTx := by
  cases self.removePeer_cases peerId with
  | inl hcase => rwa [hcase.2]
  | inr hcase =>
    rw [hcase.2]
    exact List.mem_append_left _ h

@[simp] theorem updateLastSeen_status (now : Nat) :
    (self.updateLastSeen peerId now).getPeerStatus peer = self.getPeerStatus peer := by
  refine modify_status ?_
  intro info
  rfl

@[simp] theorem handlePong_status (sentTimestampMs : UInt64) (now : Nat) (nowMs : UInt64) :
    (self.handlePong peerId sentTimestampMs now nowMs).getPeerStatus peer = self.getPeerStatus peer := by
  refine modify_status ?_
  intro info
  rfl

@[simp] theorem updateLastSeen_eventTx (now : Nat) :
    (self.updateLastSeen peerId now).eventTx = self.eventTx := modify_eventTx

@[simp] theorem handlePong_eventTx (sentTimestampMs : UInt64) (now : Nat) (nowMs : UInt64) :
    (self.handlePong peerId sentTimestampMs now nowMs).eventTx = self.eventTx := modify_eventTx

theorem updateStatus_cases (self : MembershipManager) (peerId : PeerId) (newStatus : PeerStatus) :
    ((∀ info, self.peers.lookup peerId = some info → info.status = newStatus) ∧
      self.updateStatus peerId newStatus = self) ∨
    ∃ info, self.peers.lookup peerId = some info ∧ info.status ≠ newStatus ∧
      self.updateStatus peerId newStatus = { self with
        peers := self.peers.insert peerId { info with status := newStatus }
        eventTx := self.eventTx ++ [.statusChanged peerId info.status newStatus] } := by
  unfold updateStatus
  cases self.peers.lookup peerId with
  | none => exact .inl ⟨nofun, rfl⟩
  | some info =>
    by_cases h : info.status = newStatus
    · exact .inl ⟨fun _ hinfo => Option.some.inj hinfo ▸ h, by simp [h]⟩
    · exact .inr ⟨info, rfl, h, by simp [h]⟩

theorem mem_peers_of_updateStatus {newStatus : PeerStatus}
    (h : peer ∈ (self.updateStatus peerId newStatus).peers) : peer ∈ self.peers := by
  obtain ⟨_, heq⟩ | ⟨info, hinfo, _, heq⟩ := self.updateStatus_cases peerId newStatus
  · rwa [heq] at h
  · simp only [heq, AList.mem_insert] at h
    obtain rfl | hold := h
    · exact Assoc.mem_of_lookup hinfo
    · exact hold

theorem left_mem_updateStatus {newStatus : PeerStatus} :
    .left peer ∈ (self.updateStatus peerId newStatus).eventTx ↔ .left peer ∈ self.eventTx := by
  obtain ⟨_, heq⟩ | ⟨info, _, _, heq⟩ := self.updateStatus_cases peerId newStatus <;> simp [heq]

theorem updateStatus_connected (h : self.getPeerStatus peer = some .connected) :
    (self.updateStatus peerId .connected).getPeerStatus peer = some .connected := by
  obtain ⟨_, heq⟩ | ⟨info, hinfo, _, heq⟩ := self.updateStatus_cases peerId .connected
  · rw [heq, h]
  · by_cases hne : peer = peerId
    · subst hne
      simp [heq, getPeerStatus]
    · simpa [heq, getPeerStatus, AList.lookup_insert_ne hne] using h

theorem addPeer_cases (self : MembershipManager) (peerId : PeerId) (addr : String) (now : Nat) :
    (peerId ∈ self.peers ∧ self.addPeer peerId addr now = .error (.duplicatePeerId peerId)) ∨
    (peerId ∉ self.peers ∧ self.addPeer peerId addr now = .ok { self with
      peers := self.peers.insert peerId (.new peerId addr now)
      eventTx := self.eventTx ++ [.joined peerId] }) := by
  unfold addPeer
  by_cases h : peerId ∈ self.peers
  · exact .inl ⟨h, if_pos h⟩
  · exact .inr ⟨h, if_neg h⟩

end MembershipManager

end MetaMystia

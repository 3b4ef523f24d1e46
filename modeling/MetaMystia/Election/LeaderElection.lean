import MetaMystia.Types
import Mathlib.Data.Finset.Card

/-! # The leader election of one node

Every handler takes the election before the call and returns the election after
it, the value handed to `notify_leader_change` if the call notifies, and the
value the call returns. Terms are the `u64` of the source: `+ 1` wraps, as it
does in the release profile.
-/

namespace MetaMystia

inductive Role
  | follower
  | candidate
  | leader
deriving DecidableEq, Repr

structure ElectionState where
  role : Role
  currentTerm : UInt64
  votedFor : Option PeerId
  votesReceived : Finset PeerId
  leaderId : Option PeerId
  autoElectionEnabled : Bool
  manualOverride : Bool
deriving DecidableEq

structure LeaderElection where
  localPeerId : PeerId
  state : ElectionState
  manualOverrideRecovery : ManualOverrideRecovery
deriving DecidableEq

structure Reply (α : Type) where
  election : LeaderElection
  notice : Option (Option PeerId)
  value : α

namespace LeaderElection

def new (localPeerId : PeerId) (autoElectionEnabled : Bool)
    (manualOverrideRecovery : ManualOverrideRecovery) : LeaderElection where
  localPeerId
  state :=
    { role := .follower
      currentTerm := 0
      votedFor := none
      votesReceived := ∅
      leaderId := none
      autoElectionEnabled
      manualOverride := false }
  manualOverrideRecovery

def role (self : LeaderElection) : Role := self.state.role

def currentTerm (self : LeaderElection) : UInt64 := self.state.currentTerm

def leaderId (self : LeaderElection) : Option PeerId := self.state.leaderId

def isLeader (self : LeaderElection) : Bool := self.state.role == .leader

def isAutoElectionEnabled (self : LeaderElection) : Bool := self.state.autoElectionEnabled

def majorityThreshold (totalNodes : Nat) : Nat :=
  if totalNodes ≤ 2 then 1 else totalNodes / 2 + 1

def becomeLeaderInner (self : LeaderElection) (state : ElectionState) :
    ElectionState × Option (Option PeerId) :=
  ({ state with
      role := .leader
      leaderId := some self.localPeerId
      votesReceived := ∅ },
    some (some self.localPeerId))

def stepDownInner (state : ElectionState) : ElectionState :=
  { state with role := .follower, votesReceived := ∅ }

def startElection (self : LeaderElection) (connectedPeerCount : Nat) :
    Reply (Option (UInt64 × PeerId)) :=
  if !self.state.autoElectionEnabled || self.state.manualOverride then
    ⟨self, none, none⟩
  else
    let state := { self.state with
      currentTerm := self.state.currentTerm + 1
      role := .candidate
      votedFor := some self.localPeerId
      votesReceived := {self.localPeerId} }
    let threshold := majorityThreshold (1 + connectedPeerCount)
    if threshold ≤ state.votesReceived.card then
      let (state, notice) := self.becomeLeaderInner state
      ⟨{ self with state }, notice, none⟩
    else
      ⟨{ self with state }, none, some (state.currentTerm, self.localPeerId)⟩

def handleRequestVote (self : LeaderElection) (term : UInt64) (candidateId : PeerId) :
    Reply (UInt64 × Bool) :=
  if term < self.state.currentTerm then
    ⟨self, none, (self.state.currentTerm, false)⟩
  else
    let state := if self.state.currentTerm < term then
        { self.state with
          currentTerm := term
          votedFor := none
          role := .follower
          votesReceived := ∅ }
      else self.state
    let granted := match state.votedFor with
      | none => true
      | some voted => voted == candidateId
    let state := if granted then { state with votedFor := some candidateId } else state
    ⟨{ self with state }, none, (state.currentTerm, granted)⟩

def handleVoteResponse (self : LeaderElection) (term : UInt64) (voterId : PeerId)
    (granted : Bool) (connectedPeerCount : Nat) : Reply Bool :=
  if self.state.currentTerm < term then
    let state := { self.state with
      currentTerm := term
      votedFor := none
      role := .follower
      votesReceived := ∅ }
    ⟨{ self with state }, none, false⟩
  else if self.state.role ≠ .candidate ∨ term ≠ self.state.currentTerm then
    ⟨self, none, false⟩
  else
    let state := if granted then
        { self.state with votesReceived := insert voterId self.state.votesReceived }
      else self.state
    let threshold := majorityThreshold (1 + connectedPeerCount)
    if threshold ≤ state.votesReceived.card then
      let (state, notice) := self.becomeLeaderInner state
      ⟨{ self with state }, notice, true⟩
    else
      ⟨{ self with state }, none, false⟩

/-- The notification of a handler that names a leader: nothing when it was the leader before. -/
def noticeOfChange (oldLeader : Option PeerId) (newLeader : PeerId) : Option (Option PeerId) :=
  if oldLeader ≠ some newLeader then some (some newLeader) else none

def handleHeartbeat (self : LeaderElection) (term : UInt64) (leaderId : PeerId) : Reply Bool :=
  if term < self.state.currentTerm then
    ⟨self, none, false⟩
  else if self.state.manualOverride && self.state.leaderId.any (· != leaderId) then
    ⟨self, none, false⟩
  else
    let higherTerm := decide (self.state.currentTerm < term)
    let state := if higherTerm then
        { self.state with currentTerm := term, votedFor := none }
      else self.state
    if state.role = .leader ∧ ¬(higherTerm ∨ self.localPeerId < leaderId) then
      ⟨{ self with state }, none, false⟩
    else
      let state := if state.role = .leader then stepDownInner state else state
      let state := if state.role ≠ .follower then
          { state with role := .follower, votesReceived := ∅ }
        else state
      let oldLeader := state.leaderId
      let state := { state with leaderId := some leaderId }
      ⟨{ self with state }, noticeOfChange oldLeader leaderId, true⟩

def handleLeaderAssign (self : LeaderElection) (term : UInt64) (leaderId : PeerId)
    (_assignerId : PeerId) : Reply Unit :=
  let state := if self.state.currentTerm < term then
      { self.state with currentTerm := term }
    else self.state
  let oldLeader := state.leaderId
  let state := { state with
    leaderId := some leaderId
    manualOverride := true
    role := if leaderId = self.localPeerId then .leader else .follower
    votedFor := none
    votesReceived := ∅ }
  ⟨{ self with state }, noticeOfChange oldLeader leaderId, ()⟩

def setLeader (self : LeaderElection) (leaderId : PeerId) : Reply (UInt64 × PeerId × PeerId) :=
  let oldLeader := self.state.leaderId
  let state := { self.state with
    currentTerm := self.state.currentTerm + 1
    manualOverride := true
    leaderId := some leaderId
    role := if leaderId = self.localPeerId then .leader else .follower
    votedFor := none
    votesReceived := ∅ }
  ⟨{ self with state }, noticeOfChange oldLeader leaderId,
    (state.currentTerm, leaderId, self.localPeerId)⟩

def enableAutoElection (self : LeaderElection) (enable : Bool) : Reply Unit :=
  let state := { self.state with autoElectionEnabled := enable }
  let state := if enable && state.leaderId.isNone then
      { state with manualOverride := false }
    else state
  ⟨{ self with state }, none, ()⟩

def handlePeerLeft (self : LeaderElection) (peerId : PeerId) : Reply Unit :=
  if self.state.leaderId ≠ some peerId then
    ⟨self, none, ()⟩
  else
    let wasManual := self.state.manualOverride
    let state := { self.state with leaderId := none }
    let state := if wasManual then
        match self.manualOverrideRecovery with
        | .hold => state
        | .autoElect => { state with manualOverride := false }
      else state
    ⟨{ self with state }, some none, ()⟩

end LeaderElection

end MetaMystia

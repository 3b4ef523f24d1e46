import MetaMystia.Election.LeaderElection
import MetaMystia.Library.Runs

/-! # What one election operation can do

Each handler has one lemma listing its outcomes with the guards that lead to
them. Later invariants are case analyses over these outcomes; no proof outside
this module unfolds a handler.
-/

namespace MetaMystia.LeaderElection

theorem one_lt_majorityThreshold {totalNodes : Nat} (h : 3 ≤ totalNodes) :
    1 < majorityThreshold totalNodes := by
  rw [majorityThreshold, if_neg (by omega)]
  omega

def campaign (self : LeaderElection) : ElectionState :=
  { self.state with
    currentTerm := self.state.currentTerm + 1
    role := .candidate
    votedFor := some self.localPeerId
    votesReceived := {self.localPeerId} }

/-- The state of a node that has learnt of a higher term from a vote message. -/
def adoptTerm (state : ElectionState) (term : UInt64) : ElectionState :=
  { state with currentTerm := term, votedFor := none, role := .follower, votesReceived := ∅ }

def elected (self : LeaderElection) (state : ElectionState) : ElectionState :=
  { state with role := .leader, leaderId := some self.localPeerId, votesReceived := ∅ }

def follow (state : ElectionState) (term : UInt64) (leaderId : PeerId) : ElectionState :=
  { state with
    role := .follower
    currentTerm := term
    votedFor := if state.currentTerm < term then none else state.votedFor
    votesReceived := if state.role = .follower then state.votesReceived else ∅
    leaderId := some leaderId }

theorem startElection_cases (self : LeaderElection) (count : Nat) :
    ((self.state.autoElectionEnabled = false ∨ self.state.manualOverride = true) ∧
      self.startElection count = ⟨self, none, none⟩) ∨
    (self.state.autoElectionEnabled = true ∧ self.state.manualOverride = false ∧
      1 < majorityThreshold (1 + count) ∧
      self.startElection count = ⟨{ self with state := self.campaign }, none,
        some (self.state.currentTerm + 1, self.localPeerId)⟩) ∨
    (self.state.autoElectionEnabled = true ∧ self.state.manualOverride = false ∧
      majorityThreshold (1 + count) ≤ 1 ∧
      self.startElection count = ⟨{ self with state := self.elected self.campaign },
        some (some self.localPeerId), none⟩) := by
  unfold startElection
  cases hauto : self.state.autoElectionEnabled <;> cases hman : self.state.manualOverride <;>
    simp only [Bool.not_false, Bool.not_true, Bool.true_or, Bool.or_true, Bool.false_or,
      if_true, Bool.false_eq_true, if_false, Finset.card_singleton, true_and, false_or,
      or_true, false_and, reduceCtorEq, or_false]
  by_cases h : majorityThreshold (1 + count) ≤ 1
  · exact .inr ⟨h, by simp only [if_pos h]; rfl⟩
  · exact .inl ⟨by omega, by simp only [if_neg h]; rfl⟩

theorem handleRequestVote_cases (self : LeaderElection) (term : UInt64) (candidate : PeerId) :
    (term < self.state.currentTerm ∧
      self.handleRequestVote term candidate = ⟨self, none, (self.state.currentTerm, false)⟩) ∨
    (term = self.state.currentTerm ∧ (∃ voted, self.state.votedFor = some voted ∧ voted ≠ candidate) ∧
      self.handleRequestVote term candidate = ⟨self, none, (self.state.currentTerm, false)⟩) ∨
    (term = self.state.currentTerm ∧
      (self.state.votedFor = none ∨ self.state.votedFor = some candidate) ∧
      self.handleRequestVote term candidate =
        ⟨{ self with state := { self.state with votedFor := some candidate } }, none, (term, true)⟩) ∨
    (self.state.currentTerm < term ∧
      self.handleRequestVote term candidate =
        ⟨{ self with state := { adoptTerm self.state term with votedFor := some candidate } }, none,
          (term, true)⟩) := by
  unfold handleRequestVote
  by_cases hlow : term < self.state.currentTerm
  · exact .inl ⟨hlow, by simp only [if_pos hlow]⟩
  right
  by_cases hhigh : self.state.currentTerm < term
  · exact .inr (.inr ⟨hhigh, by simp [hlow, hhigh, adoptTerm]⟩)
  have hterm : term = self.state.currentTerm := by grind
  subst hterm
  cases hvoted : self.state.votedFor with
  | none => exact .inr (.inl ⟨rfl, .inl rfl, by simp [hvoted]⟩)
  | some voted =>
    by_cases heq : voted = candidate
    · subst heq
      exact .inr (.inl ⟨rfl, .inr rfl, by simp [hvoted]⟩)
    · exact .inl ⟨rfl, ⟨voted, rfl, heq⟩, by simp [hvoted, heq]⟩

def countVote (state : ElectionState) (voter : PeerId) (granted : Bool) : ElectionState :=
  if granted then { state with votesReceived := insert voter state.votesReceived } else state

theorem handleVoteResponse_cases (self : LeaderElection) (term : UInt64) (voter : PeerId)
    (granted : Bool) (count : Nat) :
    (self.state.currentTerm < term ∧
      self.handleVoteResponse term voter granted count =
        ⟨{ self with state := adoptTerm self.state term }, none, false⟩) ∨
    (¬ self.state.currentTerm < term ∧
      (self.state.role ≠ .candidate ∨ term ≠ self.state.currentTerm) ∧
      self.handleVoteResponse term voter granted count = ⟨self, none, false⟩) ∨
    (self.state.role = .candidate ∧ term = self.state.currentTerm ∧
      (countVote self.state voter granted).votesReceived.card < majorityThreshold (1 + count) ∧
      self.handleVoteResponse term voter granted count =
        ⟨{ self with state := countVote self.state voter granted }, none, false⟩) ∨
    (self.state.role = .candidate ∧ term = self.state.currentTerm ∧
      majorityThreshold (1 + count) ≤ (countVote self.state voter granted).votesReceived.card ∧
      self.handleVoteResponse term voter granted count =
        ⟨{ self with state := self.elected (countVote self.state voter granted) },
          some (some self.localPeerId), true⟩) := by
  unfold handleVoteResponse
  by_cases hhigh : self.state.currentTerm < term
  · exact .inl ⟨hhigh, by simp only [if_pos hhigh]; rfl⟩
  right
  by_cases hskip : self.state.role ≠ .candidate ∨ term ≠ self.state.currentTerm
  · exact .inl ⟨hhigh, hskip, by simp only [if_neg hhigh, if_pos hskip]⟩
  right
  obtain ⟨hrole, hterm⟩ : self.state.role = .candidate ∧ term = self.state.currentTerm := by
    simpa using hskip
  by_cases hmaj : majorityThreshold (1 + count) ≤ (countVote self.state voter granted).votesReceived.card
  · refine .inr ⟨hrole, hterm, hmaj, ?_⟩
    simp only [if_neg hhigh, if_neg hskip]
    exact if_pos hmaj
  · refine .inl ⟨hrole, hterm, by omega, ?_⟩
    simp only [if_neg hhigh, if_neg hskip]
    exact if_neg hmaj

theorem role_of_won {self : LeaderElection} {term : UInt64} {voter : PeerId} {granted : Bool}
    {count : Nat} (h : (self.handleVoteResponse term voter granted count).value = true) :
    (self.handleVoteResponse term voter granted count).election.state.role = .leader := by
  rcases self.handleVoteResponse_cases term voter granted count with
    ⟨_, heq⟩ | ⟨_, _, heq⟩ | ⟨_, _, _, heq⟩ | ⟨_, _, _, heq⟩
  · simp [heq] at h
  · simp [heq] at h
  · simp [heq] at h
  · rw [heq]
    rfl

theorem handleHeartbeat_cases (self : LeaderElection) (term : UInt64) (leader : PeerId) :
    ((term < self.state.currentTerm ∨
        (self.state.manualOverride = true ∧ ∃ old, self.state.leaderId = some old ∧ old ≠ leader) ∨
        (self.state.role = .leader ∧ term = self.state.currentTerm ∧ ¬ self.localPeerId < leader)) ∧
      self.handleHeartbeat term leader = ⟨self, none, false⟩) ∨
    (¬ term < self.state.currentTerm ∧
      (self.state.manualOverride = true → ∀ old, self.state.leaderId = some old → old = leader) ∧
      (self.state.role = .leader → self.state.currentTerm < term ∨ self.localPeerId < leader) ∧
      self.handleHeartbeat term leader =
        ⟨{ self with state := follow self.state term leader },
          noticeOfChange self.state.leaderId leader, true⟩) := by
  unfold handleHeartbeat
  by_cases hlow : term < self.state.currentTerm
  · exact .inl ⟨.inl hlow, by simp only [if_pos hlow]⟩
  by_cases hforeign : (self.state.manualOverride && self.state.leaderId.any (· != leader)) = true
  · refine .inl ⟨.inr (.inl ?_), by simp only [if_neg hlow, if_pos hforeign]⟩
    simpa [Option.any_eq_true] using hforeign
  have hsame : self.state.manualOverride = true → ∀ old, self.state.leaderId = some old → old = leader := by
    intro hman old hold
    simpa [hman, hold] using hforeign
  simp only [if_neg hlow, if_neg hforeign]
  by_cases hhigh : self.state.currentTerm < term
  · refine .inr ⟨hlow, hsame, fun _ => .inl hhigh, ?_⟩
    cases hrole : self.state.role <;> simp [hhigh, hrole, follow, stepDownInner]
  have hterm : term = self.state.currentTerm := by grind
  subst hterm
  by_cases hrole : self.state.role = .leader
  · by_cases hid : self.localPeerId < leader
    · exact .inr ⟨hlow, hsame, fun _ => .inr hid, by simp [hrole, hid, follow, stepDownInner]⟩
    · exact .inl ⟨.inr (.inr ⟨hrole, rfl, hid⟩), by simp [hrole, hid]⟩
  · refine .inr ⟨hlow, hsame, fun h => absurd h hrole, ?_⟩
    cases hrole' : self.state.role <;> simp_all [follow]

def assigned (self : LeaderElection) (term : UInt64) (leader : PeerId) : ElectionState :=
  { self.state with
    currentTerm := if self.state.currentTerm < term then term else self.state.currentTerm
    leaderId := some leader
    manualOverride := true
    role := if leader = self.localPeerId then .leader else .follower
    votedFor := none
    votesReceived := ∅ }

theorem handleLeaderAssign_eq (self : LeaderElection) (term : UInt64) (leader assigner : PeerId) :
    self.handleLeaderAssign term leader assigner =
      ⟨{ self with state := self.assigned term leader },
        noticeOfChange self.state.leaderId leader, ()⟩ := by
  unfold handleLeaderAssign assigned
  by_cases h : self.state.currentTerm < term <;> simp [h]

theorem handlePeerLeft_cases (self : LeaderElection) (peer : PeerId) :
    (self.state.leaderId ≠ some peer ∧ self.handlePeerLeft peer = ⟨self, none, ()⟩) ∨
    (self.state.leaderId = some peer ∧ ∃ manual, (manual = true → self.state.manualOverride = true) ∧
      self.handlePeerLeft peer =
        ⟨{ self with state := { self.state with leaderId := none, manualOverride := manual } },
          some none, ()⟩) := by
  unfold handlePeerLeft
  by_cases h : self.state.leaderId = some peer
  · refine .inr ⟨h, ?_⟩
    cases hrec : self.manualOverrideRecovery with
    | hold => exact ⟨self.state.manualOverride, id, by simp [h]⟩
    | autoElect =>
      refine ⟨false, by simp, ?_⟩
      cases hman : self.state.manualOverride <;> simp [h, hman]
  · exact .inl ⟨h, by simp [h]⟩

theorem enableAutoElection_cases (self : LeaderElection) (enable : Bool) :
    ∃ manual, (manual = true → self.state.manualOverride = true) ∧
      (self.state.leaderId ≠ none → manual = self.state.manualOverride) ∧
      self.enableAutoElection enable =
        ⟨{ self with state :=
            { self.state with autoElectionEnabled := enable, manualOverride := manual } }, none, ()⟩ := by
  unfold enableAutoElection
  cases enable with
  | false => exact ⟨self.state.manualOverride, id, fun _ => rfl, by simp⟩
  | true =>
    cases hleader : self.state.leaderId with
    | none => exact ⟨false, by simp, by simp, by simp [hleader]⟩
    | some leader => exact ⟨self.state.manualOverride, id, fun _ => rfl, by simp [hleader]⟩

inductive Op
  | startElection (connectedPeerCount : Nat)
  | handleRequestVote (term : UInt64) (candidateId : PeerId)
  | handleVoteResponse (term : UInt64) (voterId : PeerId) (granted : Bool) (connectedPeerCount : Nat)
  | handleHeartbeat (term : UInt64) (leaderId : PeerId)
  | handleLeaderAssign (term : UInt64) (leaderId assignerId : PeerId)
  | setLeader (leaderId : PeerId)
  | enableAutoElection (enable : Bool)
  | handlePeerLeft (peerId : PeerId)

def apply (self : LeaderElection) : Op → LeaderElection
  | .startElection count => (self.startElection count).election
  | .handleRequestVote term candidate => (self.handleRequestVote term candidate).election
  | .handleVoteResponse term voter granted count =>
    (self.handleVoteResponse term voter granted count).election
  | .handleHeartbeat term leader => (self.handleHeartbeat term leader).election
  | .handleLeaderAssign term leader assigner => (self.handleLeaderAssign term leader assigner).election
  | .setLeader leader => (self.setLeader leader).election
  | .enableAutoElection enable => (self.enableAutoElection enable).election
  | .handlePeerLeft peer => (self.handlePeerLeft peer).election

/-- The largest `u64`: the only term from which `+ 1` wraps. -/
def maxTerm : UInt64 := 18446744073709551615

/-- The operation does not take the term past `u64`. -/
def InRange (self : LeaderElection) : Op → Prop
  | .startElection _ => self.state.autoElectionEnabled = true → self.state.manualOverride = false →
      self.state.currentTerm < maxTerm
  | .setLeader _ => self.state.currentTerm < maxTerm
  | _ => True

instance (self : LeaderElection) : (op : Op) → Decidable (self.InRange op)
  | .startElection _ => inferInstanceAs (Decidable (_ → _ → _))
  | .setLeader _ => inferInstanceAs (Decidable (_ < _))
  | .handleRequestVote .. | .handleVoteResponse .. | .handleHeartbeat .. | .handleLeaderAssign ..
  | .enableAutoElection _ | .handlePeerLeft _ => .isTrue trivial

theorem lt_add_one {term : UInt64} (h : term < maxTerm) : term < term + 1 := by
  unfold maxTerm at h
  grind

/-- An operation changes the election state only, not what the node was created with. -/
theorem exists_apply_eq (self : LeaderElection) (op : Op) :
    ∃ state, self.apply op = { self with state } := by
  cases op with
  | startElection count =>
    obtain ⟨_, h⟩ | ⟨_, _, _, h⟩ | ⟨_, _, _, h⟩ := self.startElection_cases count <;>
      exact ⟨_, by rw [apply, h]⟩
  | handleRequestVote term candidate =>
    obtain ⟨_, h⟩ | ⟨_, _, h⟩ | ⟨_, _, h⟩ | ⟨_, h⟩ := self.handleRequestVote_cases term candidate <;>
      exact ⟨_, by rw [apply, h]⟩
  | handleVoteResponse term voter granted count =>
    rcases self.handleVoteResponse_cases term voter granted count with
      ⟨_, h⟩ | ⟨_, _, h⟩ | ⟨_, _, _, h⟩ | ⟨_, _, _, h⟩ <;> exact ⟨_, by rw [apply, h]⟩
  | handleHeartbeat term leader =>
    obtain ⟨_, h⟩ | ⟨_, _, _, h⟩ := self.handleHeartbeat_cases term leader <;>
      exact ⟨_, by rw [apply, h]⟩
  | handleLeaderAssign term leader assigner => exact ⟨_, by rw [apply, handleLeaderAssign_eq]⟩
  | setLeader leader => exact ⟨_, rfl⟩
  | enableAutoElection enable =>
    obtain ⟨_, _, _, h⟩ := self.enableAutoElection_cases enable
    exact ⟨_, by rw [apply, h]⟩
  | handlePeerLeft peer =>
    obtain ⟨_, h⟩ | ⟨_, _, _, h⟩ := self.handlePeerLeft_cases peer <;> exact ⟨_, by rw [apply, h]⟩

@[simp] theorem apply_localPeerId (self : LeaderElection) (op : Op) :
    (self.apply op).localPeerId = self.localPeerId := by
  obtain ⟨state, h⟩ := self.exists_apply_eq op
  rw [h]

theorem localPeerId_of_foldl (self : LeaderElection) (ops : List Op) :
    (ops.foldl apply self).localPeerId = self.localPeerId := by
  induction ops using List.reverseRecOn with
  | nil => rfl
  | append_singleton front op ih =>
    rw [List.foldl_append]
    exact (apply_localPeerId _ op).trans ih

@[simp] theorem apply_manualOverrideRecovery (self : LeaderElection) (op : Op) :
    (self.apply op).manualOverrideRecovery = self.manualOverrideRecovery := by
  obtain ⟨state, h⟩ := self.exists_apply_eq op
  rw [h]

end MetaMystia.LeaderElection

import MetaMystia.Election.OverrideRecovery

/-! # Messages that arrive twice, and messages that are rejected

Each of the four handlers of election messages reaches a fixpoint in one step:
the state it leaves makes it refuse, or repeat, the same message without effect.
A heartbeat or a vote request that is rejected leaves no trace the first time.
-/

namespace MetaMystia.LeaderElection

def voteReply (self : LeaderElection) : Op → Option (UInt64 × Bool)
  | .handleRequestVote term candidate => some (self.handleRequestVote term candidate).value
  | _ => none

structure RepeatsHarmlessly (election : LeaderElection) (op : Op) : Prop where
  state : (election.apply op).apply op = election.apply op
  silent : (election.apply op).notice op = none
  reply : (election.apply op).voteReply op = election.voteReply op

theorem RepeatsHarmlessly.of_ignored {self : LeaderElection} {op : Op}
    (hstate : self.apply op = self) (hsilent : self.notice op = none) : self.RepeatsHarmlessly op :=
  ⟨by rw [hstate, hstate], by rw [hstate, hsilent], by rw [hstate]⟩

theorem RepeatsHarmlessly.of_eq {self after : LeaderElection} {op : Op} (hafter : self.apply op = after)
    (hstate : after.apply op = after) (hsilent : after.notice op = none)
    (hreply : after.voteReply op = self.voteReply op) : self.RepeatsHarmlessly op := by
  subst hafter
  exact ⟨hstate, hsilent, hreply⟩

theorem noticeOfChange_self (leader : PeerId) : noticeOfChange (some leader) leader = none := by
  simp [noticeOfChange]

/-- The rejections of `handle_heartbeat` come before its writes: the one behind them is a Leader's
of the same term, for which they have not been made. -/
theorem handleHeartbeat_of_rejected {self : LeaderElection} {term : UInt64} {leader : PeerId}
    (h : (self.handleHeartbeat term leader).value = false) :
    self.handleHeartbeat term leader = ⟨self, none, false⟩ := by
  obtain ⟨_, heq⟩ | ⟨_, _, _, heq⟩ := self.handleHeartbeat_cases term leader
  · exact heq
  · rw [heq] at h
    exact absurd h nofun

theorem handleRequestVote_of_rejected {self : LeaderElection} {term : UInt64} {candidate : PeerId}
    (h : (self.handleRequestVote term candidate).value.2 = false) :
    self.handleRequestVote term candidate = ⟨self, none, (self.state.currentTerm, false)⟩ := by
  obtain ⟨_, heq⟩ | ⟨_, _, heq⟩ | ⟨_, _, heq⟩ | ⟨_, heq⟩ :=
    self.handleRequestVote_cases term candidate
  · exact heq
  · exact heq
  · rw [heq] at h
    exact absurd h nofun
  · rw [heq] at h
    exact absurd h nofun

/-- From every state: a heartbeat answered `false` and a vote request answered without a grant
leave the election as it was and notify nobody. -/
theorem rejected_without_trace (self : LeaderElection) (term : UInt64) (id : PeerId) :
    ((self.handleHeartbeat term id).value = false →
      (self.handleHeartbeat term id).election = self ∧
        (self.handleHeartbeat term id).notice = none) ∧
    ((self.handleRequestVote term id).value.2 = false →
      (self.handleRequestVote term id).election = self ∧
        (self.handleRequestVote term id).notice = none) := by
  constructor
  · intro h
    rw [handleHeartbeat_of_rejected h]
    exact ⟨rfl, rfl⟩
  · intro h
    rw [handleRequestVote_of_rejected h]
    exact ⟨rfl, rfl⟩

/-- Leader `b` of term 1 hears a heartbeat and a vote request of `a` in its own term. -/
theorem leader_rejects_lower_id :
    let self := (LeaderElection.new ⟨"b"⟩ true .hold).apply (.startElection 0)
    ((self.handleHeartbeat 1 ⟨"a"⟩).election = self ∧
        (self.handleHeartbeat 1 ⟨"a"⟩).notice = none) ∧
      (self.handleRequestVote 1 ⟨"a"⟩).election = self ∧
        (self.handleRequestVote 1 ⟨"a"⟩).notice = none := by
  intro self
  obtain ⟨hheartbeat, hvote⟩ := rejected_without_trace self 1 ⟨"a"⟩
  exact ⟨hheartbeat (by decide), hvote (by decide)⟩

theorem handleHeartbeat_of_followed {self : LeaderElection} {term : UInt64} {leader : PeerId}
    (hterm : term = self.state.currentTerm) (hrole : self.state.role = .follower)
    (hleader : self.state.leaderId = some leader) :
    self.handleHeartbeat term leader = ⟨self, none, true⟩ := by
  obtain ⟨hreject, _⟩ | ⟨_, _, _, heq⟩ := self.handleHeartbeat_cases term leader
  · obtain hlow | ⟨_, old, hold, hne⟩ | ⟨hlead, _⟩ := hreject
    · exact absurd hlow (hterm ▸ UInt64.lt_irrefl _)
    · exact absurd (Option.some.inj (hold.symm.trans hleader)) hne
    · exact absurd (hrole.symm.trans hlead) nofun
  · have hsame : follow self.state term leader = self.state := by
      subst hterm
      simp [follow, ← hrole, ← hleader]
    rw [heq, hsame, hleader, noticeOfChange_self]

theorem handleHeartbeat_twice (self : LeaderElection) (term : UInt64) (leader : PeerId) :
    self.RepeatsHarmlessly (.handleHeartbeat term leader) := by
  have hfollowed : ∀ after : LeaderElection, term = after.state.currentTerm →
      after.state.role = .follower → after.state.leaderId = some leader →
      self.apply (.handleHeartbeat term leader) = after →
      self.RepeatsHarmlessly (.handleHeartbeat term leader) := by
    intro after hterm hrole hleader hafter
    have hagain := handleHeartbeat_of_followed hterm hrole hleader
    exact .of_eq hafter (by rw [apply, hagain]) (by rw [notice, hagain]) rfl
  obtain ⟨_, heq⟩ | ⟨_, _, _, heq⟩ := self.handleHeartbeat_cases term leader
  · exact .of_ignored (by rw [apply, heq]) (by rw [notice, heq])
  · refine hfollowed { self with state := follow self.state term leader } rfl rfl rfl ?_
    rw [apply, heq]

theorem handleRequestVote_of_voted {self : LeaderElection} {term : UInt64} {candidate : PeerId}
    (hterm : term = self.state.currentTerm) (hvoted : self.state.votedFor = some candidate) :
    self.handleRequestVote term candidate = ⟨self, none, (term, true)⟩ := by
  obtain ⟨hlow, _⟩ | ⟨_, ⟨voted, hother, hne⟩, _⟩ | ⟨_, _, heq⟩ | ⟨hhigh, _⟩ :=
    self.handleRequestVote_cases term candidate
  · exact absurd hlow (hterm ▸ UInt64.lt_irrefl _)
  · exact absurd (Option.some.inj (hother.symm.trans hvoted)) hne
  · rw [heq, ← hvoted]
  · exact absurd hhigh (hterm ▸ UInt64.lt_irrefl _)

theorem handleRequestVote_twice (self : LeaderElection) (term : UInt64) (candidate : PeerId) :
    self.RepeatsHarmlessly (.handleRequestVote term candidate) := by
  have hgranted : ∀ after : LeaderElection, term = after.state.currentTerm →
      after.state.votedFor = some candidate →
      self.handleRequestVote term candidate = ⟨after, none, (term, true)⟩ →
      self.RepeatsHarmlessly (.handleRequestVote term candidate) := by
    intro after hterm hvoted heq
    have hagain := handleRequestVote_of_voted hterm hvoted
    exact .of_eq (by rw [apply, heq]) (by rw [apply, hagain]) (by rw [notice, hagain])
      (by rw [voteReply, voteReply, heq, hagain])
  obtain ⟨_, heq⟩ | ⟨_, _, heq⟩ | ⟨hterm, _, heq⟩ | ⟨_, heq⟩ :=
    self.handleRequestVote_cases term candidate
  · exact .of_ignored (by rw [apply, heq]) (by rw [notice, heq])
  · exact .of_ignored (by rw [apply, heq]) (by rw [notice, heq])
  · refine hgranted _ ?_ ?_ heq
    · exact hterm
    · rfl
  · refine hgranted _ ?_ ?_ heq
    · rfl
    · rfl

theorem handleVoteResponse_skips {self : LeaderElection} {term : UInt64}
    (hterm : term = self.state.currentTerm) (hrole : self.state.role ≠ .candidate) (voter : PeerId)
    (granted : Bool) (count : Nat) :
    self.handleVoteResponse term voter granted count = ⟨self, none, false⟩ := by
  subst hterm
  simp [handleVoteResponse, hrole]

theorem countVote_countVote (state : ElectionState) (voter : PeerId) (granted : Bool) :
    countVote (countVote state voter granted) voter granted = countVote state voter granted := by
  cases granted <;> simp [countVote]

theorem handleVoteResponse_of_counted {self : LeaderElection} {term : UInt64} {voter : PeerId}
    {granted : Bool} {count : Nat} (hterm : term = self.state.currentTerm)
    (hcounted : countVote self.state voter granted = self.state)
    (hfew : self.state.votesReceived.card < majorityThreshold (1 + count)) :
    self.handleVoteResponse term voter granted count = ⟨self, none, false⟩ := by
  obtain ⟨hhigh, _⟩ | ⟨_, _, heq⟩ | ⟨_, _, _, heq⟩ | ⟨_, _, hmaj, _⟩ :=
    self.handleVoteResponse_cases term voter granted count
  · exact absurd hhigh (hterm ▸ UInt64.lt_irrefl _)
  · exact heq
  · rw [heq, hcounted]
  · rw [hcounted] at hmaj
    exact absurd hmaj (by omega)

theorem handleVoteResponse_twice (self : LeaderElection) (term : UInt64) (voter : PeerId)
    (granted : Bool) (count : Nat) :
    self.RepeatsHarmlessly (.handleVoteResponse term voter granted count) := by
  have hrepeated : ∀ after : LeaderElection,
      self.apply (.handleVoteResponse term voter granted count) = after →
      after.handleVoteResponse term voter granted count = ⟨after, none, false⟩ →
      self.RepeatsHarmlessly (.handleVoteResponse term voter granted count) := by
    intro after hafter hagain
    exact .of_eq hafter (by rw [apply, hagain]) (by rw [notice, hagain]) rfl
  obtain ⟨_, heq⟩ | ⟨_, _, heq⟩ | ⟨_, hterm, hfew, heq⟩ | ⟨_, hterm, _, heq⟩ :=
    self.handleVoteResponse_cases term voter granted count
  · have hrole : (adoptTerm self.state term).role ≠ .candidate := by simp [adoptTerm]
    exact hrepeated _ (by rw [apply, heq]) (handleVoteResponse_skips rfl hrole voter granted count)
  · exact .of_ignored (by rw [apply, heq]) (by rw [notice, heq])
  · refine hrepeated _ (by rw [apply, heq]) (handleVoteResponse_of_counted ?_ ?_ hfew)
    · cases granted <;> exact hterm
    · exact countVote_countVote self.state voter granted
  · have hrole : (self.elected (countVote self.state voter granted)).role ≠ .candidate := by simp [elected]
    refine hrepeated _ (by rw [apply, heq]) (handleVoteResponse_skips ?_ hrole voter granted count)
    cases granted <;> exact hterm

theorem handleLeaderAssign_twice (self : LeaderElection) (term : UInt64) (leader assigner : PeerId) :
    self.RepeatsHarmlessly (.handleLeaderAssign term leader assigner) := by
  have hassigned : ∀ election : LeaderElection,
      election.apply (.handleLeaderAssign term leader assigner) =
        { election with state := election.assigned term leader } := by
    intro election
    rw [apply, handleLeaderAssign_eq]
  refine .of_eq (hassigned self) ?_ ?_ rfl
  · rw [hassigned]
    by_cases hhigh : self.state.currentTerm < term
    · simp [assigned, hhigh]
    · simp [assigned, hhigh]
  · rw [notice, handleLeaderAssign_eq]
    exact noticeOfChange_self leader

/-- From every state, a Heartbeat, RequestVote, VoteResponse or LeaderAssign that is handled twice
in a row leaves the state of the first handling, notifies nothing the second time and answers a
vote request the same way. -/
theorem redelivery_harmless (self : LeaderElection) :
    (∀ term leader, self.RepeatsHarmlessly (.handleHeartbeat term leader)) ∧
      (∀ term candidate, self.RepeatsHarmlessly (.handleRequestVote term candidate)) ∧
      (∀ term voter granted count,
        self.RepeatsHarmlessly (.handleVoteResponse term voter granted count)) ∧
      (∀ term leader assigner,
        self.RepeatsHarmlessly (.handleLeaderAssign term leader assigner)) :=
  ⟨self.handleHeartbeat_twice, self.handleRequestVote_twice, self.handleVoteResponse_twice,
    self.handleLeaderAssign_twice⟩

end MetaMystia.LeaderElection

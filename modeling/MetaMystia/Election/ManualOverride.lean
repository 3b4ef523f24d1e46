import MetaMystia.Election.Operations

/-! # A manually assigned leader under automatic traffic

Only `start_election` and `handle_heartbeat` consult the override. The vote
handlers demote by term alone, so the assigned leader keeps its role exactly
until the first vote message of a later term.
-/

namespace MetaMystia.LeaderElection

/-- The operations automatic traffic can cause on the node: no assignment, and nothing that
names the node itself as the sender or as the peer that left. -/
def Automatic (localPeerId : PeerId) : Op → Prop
  | .handleHeartbeat _ leader => leader ≠ localPeerId
  | .handlePeerLeft peer => peer ≠ localPeerId
  | .handleLeaderAssign .. | .setLeader _ => False
  | _ => True

def VoteTermAtMost (bound : UInt64) : Op → Prop
  | .handleRequestVote term _ | .handleVoteResponse term _ _ _ => term ≤ bound
  | _ => True

structure AssignedSelf (election : LeaderElection) (role : Role) : Prop where
  manual : election.state.manualOverride = true
  leader : election.state.leaderId = some election.localPeerId
  hasRole : election.state.role = role

theorem AssignedSelf.keeps {self : LeaderElection} {role : Role} (h : self.AssignedSelf role)
    (hrole : role ≠ .candidate) {op : Op} (hauto : Automatic self.localPeerId op)
    (hterm : VoteTermAtMost self.state.currentTerm op) :
    (self.apply op).AssignedSelf role ∧
      (self.apply op).state.currentTerm = self.state.currentTerm := by
  obtain ⟨hman, hleader, rfl⟩ := h
  cases op with
  | startElection count =>
    obtain ⟨_, heq⟩ | ⟨_, hno, _⟩ | ⟨_, hno, _⟩ := self.startElection_cases count
    · rw [apply, heq]
      exact ⟨⟨hman, hleader, rfl⟩, rfl⟩
    · simp [hman] at hno
    · simp [hman] at hno
  | handleRequestVote term candidate =>
    rcases self.handleRequestVote_cases term candidate with
      ⟨_, heq⟩ | ⟨_, _, heq⟩ | ⟨_, _, heq⟩ | ⟨hlt, _⟩
    · rw [apply, heq]
      exact ⟨⟨hman, hleader, rfl⟩, rfl⟩
    · rw [apply, heq]
      exact ⟨⟨hman, hleader, rfl⟩, rfl⟩
    · rw [apply, heq]
      exact ⟨⟨hman, hleader, rfl⟩, rfl⟩
    · exact absurd hlt (UInt64.not_lt.mpr hterm)
  | handleVoteResponse term voter granted count =>
    rcases self.handleVoteResponse_cases term voter granted count with
      ⟨hlt, _⟩ | ⟨_, _, heq⟩ | ⟨hcand, _⟩ | ⟨hcand, _⟩
    · exact absurd hlt (UInt64.not_lt.mpr hterm)
    · rw [apply, heq]
      exact ⟨⟨hman, hleader, rfl⟩, rfl⟩
    · exact absurd hcand hrole
    · exact absurd hcand hrole
  | handleHeartbeat term leader =>
    obtain ⟨_, heq⟩ | ⟨_, hsame, _⟩ := self.handleHeartbeat_cases term leader
    · rw [apply, heq]
      exact ⟨⟨hman, hleader, rfl⟩, rfl⟩
    · exact absurd (hsame hman _ hleader).symm hauto
  | handleLeaderAssign term leader assigner => exact absurd hauto id
  | setLeader leader => exact absurd hauto id
  | enableAutoElection enable =>
    obtain ⟨manual, _, hkeep, heq⟩ := self.enableAutoElection_cases enable
    rw [apply, heq]
    exact ⟨⟨(hkeep (by simp [hleader])).trans hman, hleader, rfl⟩, rfl⟩
  | handlePeerLeft peer =>
    obtain ⟨_, heq⟩ | ⟨hsame, _⟩ := self.handlePeerLeft_cases peer
    · rw [apply, heq]
      exact ⟨⟨hman, hleader, rfl⟩, rfl⟩
    · exact absurd (Option.some.inj (hsame.symm.trans hleader)) hauto

theorem AssignedSelf.demoted {self : LeaderElection} {role : Role} (h : self.AssignedSelf role)
    {op : Op} (hterm : ¬ VoteTermAtMost self.state.currentTerm op) :
    (self.apply op).AssignedSelf .follower := by
  obtain ⟨hman, hleader, _⟩ := h
  cases op with
  | handleRequestVote term candidate =>
    have hlt := UInt64.not_le.mp hterm
    rcases self.handleRequestVote_cases term candidate with
      ⟨hno, _⟩ | ⟨hno, _⟩ | ⟨hno, _⟩ | ⟨_, heq⟩
    · grind
    · grind
    · grind
    · rw [apply, heq]
      exact ⟨hman, hleader, rfl⟩
  | handleVoteResponse term voter granted count =>
    have hlt := UInt64.not_le.mp hterm
    rcases self.handleVoteResponse_cases term voter granted count with
      ⟨_, heq⟩ | ⟨hno, _⟩ | ⟨_, hno, _⟩ | ⟨_, hno, _⟩
    · rw [apply, heq]
      exact ⟨hman, hleader, rfl⟩
    · exact absurd hlt hno
    · grind
    · grind
  | _ => exact absurd trivial hterm

theorem AssignedSelf.stays_follower {self : LeaderElection} (h : self.AssignedSelf .follower)
    {ops : List Op} (hauto : ∀ op ∈ ops, Automatic self.localPeerId op) :
    (ops.foldl apply self).AssignedSelf .follower := by
  induction ops generalizing self with
  | nil => exact h
  | cons op rest ih =>
    have hnext : (self.apply op).AssignedSelf .follower := by
      by_cases hterm : VoteTermAtMost self.state.currentTerm op
      · exact (h.keeps nofun (hauto op List.mem_cons_self) hterm).1
      · exact h.demoted hterm
    refine ih hnext ?_
    intro later hlater
    rw [apply_localPeerId]
    exact hauto later (List.mem_cons_of_mem _ hlater)

/-- The assigned leader is Leader after the operations if and only if none of them is a vote
message of a term above its own. -/
theorem isLeader_iff_no_later_vote_term (self : LeaderElection)
    (hman : self.state.manualOverride = true) (hleader : self.state.leaderId = some self.localPeerId)
    (hrole : self.state.role = .leader) (ops : List Op)
    (hauto : ∀ op ∈ ops, Automatic self.localPeerId op) :
    (ops.foldl apply self).isLeader = true ↔
      ∀ op ∈ ops, VoteTermAtMost self.state.currentTerm op := by
  have h : self.AssignedSelf .leader := ⟨hman, hleader, hrole⟩
  clear hman hleader hrole
  induction ops generalizing self with
  | nil => simp [isLeader, h.hasRole]
  | cons op rest ih =>
    have hrest : ∀ later ∈ rest, Automatic (self.apply op).localPeerId later := by
      intro later hlater
      rw [apply_localPeerId]
      exact hauto later (List.mem_cons_of_mem _ hlater)
    by_cases hterm : VoteTermAtMost self.state.currentTerm op
    · obtain ⟨hnext, hsame⟩ := h.keeps nofun (hauto op List.mem_cons_self) hterm
      have hrec := ih (self.apply op) hrest hnext
      rw [hsame] at hrec
      rw [List.foldl_cons, List.forall_mem_cons]
      exact hrec.trans (and_iff_right hterm).symm
    · have hfinal := (h.demoted hterm).stays_follower hrest
      rw [List.foldl_cons, List.forall_mem_cons]
      simp [isLeader, hfinal.hasRole, hterm]

theorem assigned_leader_keeps_role :
    ([Op.handleRequestVote 1 ⟨"peer2"⟩, .handleHeartbeat 7 ⟨"peer3"⟩, .startElection 2].foldl apply
      ((LeaderElection.new ⟨"peer1"⟩ true .hold).apply (.setLeader ⟨"peer1"⟩))).isLeader = true :=
  (isLeader_iff_no_later_vote_term
    ((LeaderElection.new ⟨"peer1"⟩ true .hold).apply (.setLeader ⟨"peer1"⟩)) rfl rfl rfl
    [Op.handleRequestVote 1 ⟨"peer2"⟩, .handleHeartbeat 7 ⟨"peer3"⟩, .startElection 2]
    (by simp [Automatic, apply, setLeader, LeaderElection.new])).mpr
    (by simp [VoteTermAtMost, apply, setLeader, LeaderElection.new])

/-- One vote request of a later term demotes the leader set by `SetLeader`. -/
theorem assigned_leader_demoted_by_vote_request :
    let assigned := (LeaderElection.new ⟨"peer1"⟩ true .hold).apply (.setLeader ⟨"peer1"⟩)
    assigned.state.manualOverride = true ∧ assigned.state.leaderId = some assigned.localPeerId ∧
      assigned.isLeader = true ∧
      Automatic assigned.localPeerId (.handleRequestVote 2 ⟨"peer2"⟩) ∧
      ([Op.handleRequestVote 2 ⟨"peer2"⟩].foldl apply assigned).isLeader = false :=
  ⟨rfl, rfl, rfl, trivial, rfl⟩

end MetaMystia.LeaderElection

import MetaMystia.Election.RoleAgreement

/-! # Who makes a node the Leader

`start_election` asks whether automatic elections are enabled, and the vote
response that completes the majority does not: it may arrive after
`enable_auto_election(false)`. The override needs no such check, because it never
meets a Candidate.
-/

namespace MetaMystia.LeaderElection

open Runs

structure Promotes (election : LeaderElection) (op : Op) : Prop where
  before : election.state.role ≠ .leader
  after : (election.apply op).state.role = .leader
  notSet : ∀ leader, op ≠ .setLeader leader
  notAssigned : ∀ term assigner, op ≠ .handleLeaderAssign term election.localPeerId assigner

def PromotesAutomatically (self : LeaderElection) (op : Op) : Prop :=
  self.Promotes op → self.state.autoElectionEnabled = true ∧ self.state.manualOverride = false

/-- The operation is a vote response of the current term that gives a Candidate its majority. -/
def CompletesMajority (self : LeaderElection) : Op → Prop
  | .handleVoteResponse term voter granted count =>
    self.state.role = .candidate ∧ term = self.state.currentTerm ∧
      majorityThreshold (1 + count) ≤ (countVote self.state voter granted).votesReceived.card
  | _ => False

def CountsWhileEnabled (self : LeaderElection) (op : Op) : Prop :=
  self.CompletesMajority op → self.state.autoElectionEnabled = true

theorem Promotes.cases {self : LeaderElection} {op : Op} (h : self.Promotes op) :
    (self.state.autoElectionEnabled = true ∧ self.state.manualOverride = false) ∨
      self.CompletesMajority op := by
  obtain ⟨hbefore, hafter, hset, hassigned⟩ := h
  have hshift := self.shift_apply op
  generalize self.notice op = value at hshift
  cases hshift with
  | keeps hrole _ => exact absurd (hrole.symm.trans hafter) hbefore
  | campaigns hrole _ => exact absurd (hrole.symm.trans hafter) (by simp)
  | wins hinner _ _ =>
    cases op with
    | startElection count =>
      obtain ⟨_, heq⟩ | ⟨hauto, hman, _⟩ | ⟨hauto, hman, _⟩ := self.startElection_cases count
      · rw [apply, heq] at hafter
        exact absurd hafter hbefore
      · exact .inl ⟨hauto, hman⟩
      · exact .inl ⟨hauto, hman⟩
    | handleVoteResponse term voter granted count =>
      obtain ⟨_, heq⟩ | ⟨_, _, heq⟩ | ⟨hrole, _, _, heq⟩ | ⟨hrole, hterm, hmaj, _⟩ :=
        self.handleVoteResponse_cases term voter granted count
      · rw [apply, heq] at hafter
        cases hafter
      · rw [apply, heq] at hafter
        exact absurd hafter hbefore
      · rw [apply, heq] at hafter
        have hsame : (countVote self.state voter granted).role = self.state.role := by
          cases granted <;> rfl
        exact absurd (hsame.symm.trans hafter) hbefore
      · exact .inr ⟨hrole, hterm, hmaj⟩
    | _ => cases hinner
  | deposed _ hrole _ => exact absurd (hrole.symm.trans hafter) (by simp)
  | follows hrole _ => exact absurd (hrole.symm.trans hafter) (by simp)
  | assigned hassigns hrole _ =>
    rw [hrole] at hafter
    split_ifs at hafter with hself
    subst hself
    cases hassigns with
    | handleLeaderAssign => exact absurd rfl (hassigned _ _)
    | setLeader => exact absurd rfl (hset _)
  | vacates hrole _ _ => exact absurd (hrole.symm.trans hafter) hbefore

theorem CompletesMajority.promotes {self : LeaderElection} {op : Op}
    (h : self.CompletesMajority op) : self.Promotes op := by
  cases op with
  | handleVoteResponse term voter granted count =>
    obtain ⟨hrole, rfl, hmaj⟩ := h
    have hafter : (self.apply (.handleVoteResponse self.state.currentTerm voter granted count)).state.role =
        .leader := by
      obtain ⟨hhigh, _⟩ | ⟨_, hskip, _⟩ | ⟨_, _, hfew, _⟩ | ⟨_, _, _, heq⟩ :=
        self.handleVoteResponse_cases self.state.currentTerm voter granted count
      · exact absurd hhigh (UInt64.lt_irrefl _)
      · exact absurd hskip (by simp [hrole])
      · exact absurd hmaj (by omega)
      · rw [apply, heq]
        rfl
    exact ⟨by simp [hrole], hafter, by simp, by simp⟩
  | _ => exact absurd h id

theorem CompletesMajority.candidate {self : LeaderElection} {op : Op}
    (h : self.CompletesMajority op) : self.state.role = .candidate := by
  cases op with
  | handleVoteResponse term voter granted count => exact h.1
  | _ => exact absurd h id

theorem Settled.promotesAutomatically_iff {self : LeaderElection} (hsettled : self.Settled)
    (op : Op) : self.PromotesAutomatically op ↔ self.CountsWhileEnabled op := by
  constructor
  · intro h hmaj
    exact (h hmaj.promotes).1
  · intro h hpromotes
    obtain hallowed | hmaj := hpromotes.cases
    · exact hallowed
    · have hman : self.state.manualOverride = false := by
        by_contra hman
        exact hsettled (Bool.not_eq_false _ ▸ hman) hmaj.candidate
      exact ⟨h hmaj, hman⟩

/-- In a run of any operations, every promotion that is no assignment happens while automatic
elections are enabled and no override is active, if and only if no vote response completes the
majority of a Candidate whose automatic elections were disabled meanwhile. -/
theorem promotions_automatic_iff {localPeerId : PeerId} {auto : Bool}
    {recovery : ManualOverrideRecovery} {ops : List Op} :
    Along step PromotesAutomatically (.new localPeerId auto recovery) ops ↔
      Along step CountsWhileEnabled (.new localPeerId auto recovery) ops := by
  have hnew : (new localPeerId auto recovery).Settled := nofun
  refine along_congr (I := Settled) ?_ (fun _ op h => h.promotesAutomatically_iff op) hnew ops
  rintro s op t hs ht
  exact Option.some.inj ht ▸ settled_apply hs op

/-- Automatic elections are disabled while the votes of node `a`'s candidacy are in flight. -/
theorem promoted_while_disabled :
    ¬ ∀ ops, Along step PromotesAutomatically (.new ⟨"a"⟩ true .hold) ops := by
  intro h
  have halong := h [.startElection 2, .enableAutoElection false, .handleVoteResponse 1 ⟨"b"⟩ true 2]
  have hlast := ((halong.2 _ rfl).2 _ rfl).1 ⟨by decide, by decide, nofun, nofun⟩
  exact absurd hlast.1 (by decide)

end MetaMystia.LeaderElection

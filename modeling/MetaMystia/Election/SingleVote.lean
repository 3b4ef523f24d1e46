import MetaMystia.Election.Operations

/-! # One vote per term

The votes a node gives are recorded beside its election. They stay unique per
term exactly as long as no assignment clears `voted_for` without raising the term.
-/

namespace MetaMystia.LeaderElection

open Runs

/-- The vote an operation gives: a granted request, or the own vote of a new candidacy. -/
def voteCast (self : LeaderElection) : Op → Option (UInt64 × PeerId)
  | .handleRequestVote term candidate =>
    let (respTerm, granted) := (self.handleRequestVote term candidate).value
    if granted then some (respTerm, candidate) else none
  | .startElection count =>
    let after := (self.startElection count).election
    if after.currentTerm ≠ self.currentTerm then some (after.currentTerm, self.localPeerId) else none
  | _ => none

/-- The operation leaves the vote of the term it is called in alone. -/
def KeepsVote (self : LeaderElection) : Op → Prop
  | .handleLeaderAssign term _ _ => self.state.currentTerm < term ∨ self.state.votedFor = none
  | _ => True

instance (self : LeaderElection) : (op : Op) → Decidable (self.KeepsVote op)
  | .handleLeaderAssign .. => inferInstanceAs (Decidable (_ ∨ _))
  | .startElection _ | .handleRequestVote .. | .handleVoteResponse .. | .handleHeartbeat ..
  | .setLeader _ | .enableAutoElection _ | .handlePeerLeft _ => .isTrue trivial

/-- What an operation does to the term and the vote of the node. -/
inductive VoteOutcome (self after : LeaderElection) (cast : Option (UInt64 × PeerId)) : Prop
  | kept (hterm : after.state.currentTerm = self.state.currentTerm)
      (hvote : after.state.votedFor = self.state.votedFor) (hcast : cast = none)
  | given (candidate : PeerId) (hterm : after.state.currentTerm = self.state.currentTerm)
      (hfree : self.state.votedFor = none ∨ self.state.votedFor = some candidate)
      (hvote : after.state.votedFor = some candidate)
      (hcast : cast = some (after.state.currentTerm, candidate))
  | raised (hterm : self.state.currentTerm < after.state.currentTerm)
      (hvote : cast = after.state.votedFor.map fun candidate => (after.state.currentTerm, candidate))

theorem startElection_voteOutcome {self : LeaderElection} {count : Nat}
    (h : self.InRange (.startElection count)) :
    VoteOutcome self (self.apply (.startElection count)) (self.voteCast (.startElection count)) := by
  obtain ⟨_, heq⟩ | ⟨hauto, hman, _, heq⟩ | ⟨hauto, hman, _, heq⟩ := self.startElection_cases count
  · exact .kept (by rw [apply, heq]) (by rw [apply, heq]) (by simp [voteCast, heq])
  all_goals
    have hlt := lt_add_one (h hauto hman)
    have hne : self.state.currentTerm + 1 ≠ self.state.currentTerm := by grind
    refine .raised (by rw [apply, heq]; exact hlt) ?_
    simp [voteCast, apply, heq, campaign, elected, currentTerm, hne]

theorem handleRequestVote_voteOutcome (self : LeaderElection) (term : UInt64) (candidate : PeerId) :
    VoteOutcome self (self.apply (.handleRequestVote term candidate))
      (self.voteCast (.handleRequestVote term candidate)) := by
  rcases self.handleRequestVote_cases term candidate with
    ⟨_, heq⟩ | ⟨_, _, heq⟩ | ⟨hterm, hfree, heq⟩ | ⟨hlt, heq⟩
  · exact .kept (by rw [apply, heq]) (by rw [apply, heq]) (by simp [voteCast, heq])
  · exact .kept (by rw [apply, heq]) (by rw [apply, heq]) (by simp [voteCast, heq])
  · subst hterm
    exact .given candidate (by rw [apply, heq]) hfree (by rw [apply, heq])
      (by simp [voteCast, apply, heq])
  · exact .raised (by rw [apply, heq]; exact hlt) (by simp [voteCast, apply, heq, adoptTerm])

theorem handleVoteResponse_voteOutcome (self : LeaderElection) (term : UInt64) (voter : PeerId)
    (granted : Bool) (count : Nat) :
    VoteOutcome self (self.apply (.handleVoteResponse term voter granted count)) none := by
  rcases self.handleVoteResponse_cases term voter granted count with
    ⟨hlt, heq⟩ | ⟨_, _, heq⟩ | ⟨_, _, _, heq⟩ | ⟨_, _, _, heq⟩
  · exact .raised (by rw [apply, heq]; exact hlt) (by rw [apply, heq]; rfl)
  · exact .kept (by rw [apply, heq]) (by rw [apply, heq]) rfl
  all_goals
    rw [apply, heq]
    cases granted <;> exact .kept rfl rfl rfl

theorem handleHeartbeat_voteOutcome (self : LeaderElection) (term : UInt64) (leader : PeerId) :
    VoteOutcome self (self.apply (.handleHeartbeat term leader)) none := by
  obtain ⟨_, heq⟩ | ⟨hle, _, _, heq⟩ := self.handleHeartbeat_cases term leader
  · exact .kept (by rw [apply, heq]) (by rw [apply, heq]) rfl
  rw [apply, heq]
  by_cases hlt : self.state.currentTerm < term
  · exact .raised hlt (by simp [follow, hlt])
  · have hterm : term = self.state.currentTerm := by grind
    exact .kept hterm (by simp [follow, hlt]) rfl

theorem apply_voteOutcome {self : LeaderElection} {op : Op} (h : self.InRange op)
    (hkeep : self.KeepsVote op) : VoteOutcome self (self.apply op) (self.voteCast op) := by
  cases op with
  | startElection count => exact startElection_voteOutcome h
  | handleRequestVote term candidate => exact self.handleRequestVote_voteOutcome term candidate
  | handleVoteResponse term voter granted count =>
    exact self.handleVoteResponse_voteOutcome term voter granted count
  | handleHeartbeat term leader => exact self.handleHeartbeat_voteOutcome term leader
  | handleLeaderAssign term leader assigner =>
    rw [apply, handleLeaderAssign_eq]
    by_cases hlt : self.state.currentTerm < term
    · exact .raised (by simp [assigned, hlt]) rfl
    · exact .kept (by simp [assigned, hlt]) (hkeep.resolve_left hlt).symm rfl
  | setLeader leader => exact .raised (lt_add_one h) rfl
  | enableAutoElection enable =>
    obtain ⟨_, _, _, heq⟩ := self.enableAutoElection_cases enable
    rw [apply, heq]
    exact .kept rfl rfl rfl
  | handlePeerLeft peer =>
    obtain ⟨_, heq⟩ | ⟨_, _, _, heq⟩ := self.handlePeerLeft_cases peer <;> rw [apply, heq] <;>
      exact .kept rfl rfl rfl

structure VoteLog where
  election : LeaderElection
  votes : List (UInt64 × PeerId)

namespace VoteLog

def start (localPeerId : PeerId) (auto : Bool) (recovery : ManualOverrideRecovery) : VoteLog :=
  ⟨LeaderElection.new localPeerId auto recovery, []⟩

def step (log : VoteLog) (op : Op) : Option VoteLog :=
  some ⟨log.election.apply op, log.votes ++ (log.election.voteCast op).toList⟩

def SingleVote (log : VoteLog) : Prop :=
  ∀ term c d, (term, c) ∈ log.votes → (term, d) ∈ log.votes → c = d

def InRange (log : VoteLog) (op : Op) : Prop := log.election.InRange op

def KeepsVote (log : VoteLog) (op : Op) : Prop := log.election.KeepsVote op

instance (log : VoteLog) (op : Op) : Decidable (log.InRange op) :=
  inferInstanceAs (Decidable (log.election.InRange op))

instance (log : VoteLog) (op : Op) : Decidable (log.KeepsVote op) :=
  inferInstanceAs (Decidable (log.election.KeepsVote op))

/-- `voted_for` is the vote of the current term, and no vote is from a later term. -/
structure Recorded (log : VoteLog) : Prop where
  single : log.SingleVote
  current : ∀ candidate, log.election.state.votedFor = some candidate ↔
    (log.election.state.currentTerm, candidate) ∈ log.votes
  past : ∀ term candidate, (term, candidate) ∈ log.votes → term ≤ log.election.state.currentTerm

theorem recorded_start (localPeerId : PeerId) (auto : Bool) (recovery : ManualOverrideRecovery) :
    (start localPeerId auto recovery).Recorded where
  single := by simp [SingleVote, start]
  current := by simp [start, LeaderElection.new]
  past := by simp [start]

theorem Recorded.kept {log : VoteLog} (h : log.Recorded) {after : LeaderElection}
    (hterm : after.state.currentTerm = log.election.state.currentTerm)
    (hvote : after.state.votedFor = log.election.state.votedFor) :
    (VoteLog.mk after log.votes).Recorded where
  single := h.single
  current candidate := by
    rw [hterm, hvote]
    exact h.current candidate
  past term candidate hm := hterm ▸ h.past term candidate hm

theorem Recorded.given {log : VoteLog} (h : log.Recorded) {after : LeaderElection}
    {candidate : PeerId} (hterm : after.state.currentTerm = log.election.state.currentTerm)
    (hfree : log.election.state.votedFor = none ∨ log.election.state.votedFor = some candidate)
    (hvote : after.state.votedFor = some candidate) :
    (VoteLog.mk after (log.votes ++ [(after.state.currentTerm, candidate)])).Recorded := by
  have hold : ∀ c, (log.election.state.currentTerm, c) ∈ log.votes → c = candidate := by
    intro c hc
    have hvoted := (h.current c).mpr hc
    cases hfree with
    | inl hnone => simp [hnone] at hvoted
    | inr hsome => exact Option.some.inj (hvoted.symm.trans hsome)
  refine ⟨?_, ?_, ?_⟩
  · intro term c d hc hd
    simp only [List.mem_append, List.mem_singleton, Prod.mk.injEq, hterm] at hc hd
    rcases hc with hc | ⟨rfl, rfl⟩ <;> rcases hd with hd | ⟨hd, rfl⟩
    · exact h.single term c d hc hd
    · exact hold c (hd ▸ hc)
    · exact (hold d hd).symm
    · rfl
  · intro c
    simp only [hvote, hterm, Option.some.injEq, List.mem_append, List.mem_singleton, Prod.mk.injEq,
      true_and]
    exact ⟨fun hc => .inr hc.symm, fun hc => hc.elim (fun hc => (hold c hc).symm) Eq.symm⟩
  · intro term c hc
    simp only [List.mem_append, List.mem_singleton, Prod.mk.injEq] at hc
    obtain hc | ⟨rfl, _⟩ := hc
    · exact hterm ▸ h.past term c hc
    · exact UInt64.le_refl _

theorem Recorded.raised {log : VoteLog} (h : log.Recorded) {after : LeaderElection}
    (hterm : log.election.state.currentTerm < after.state.currentTerm) :
    (VoteLog.mk after (log.votes ++ (after.state.votedFor.map fun candidate =>
      (after.state.currentTerm, candidate)).toList)).Recorded := by
  have hfresh : ∀ c, (after.state.currentTerm, c) ∉ log.votes := by
    intro c hc
    have := h.past _ c hc
    grind
  refine ⟨?_, ?_, ?_⟩
  · intro term c d hc hd
    simp only [List.mem_append, Option.mem_toList, Option.map_eq_some_iff, Prod.mk.injEq] at hc hd
    rcases hc with hc | ⟨a, ha, rfl, rfl⟩ <;> rcases hd with hd | ⟨b, hb, hterm', rfl⟩
    · exact h.single term c d hc hd
    · exact absurd (hterm' ▸ hc) (hfresh c)
    · exact absurd hd (hfresh d)
    · exact Option.some.inj (ha.symm.trans hb)
  · intro c
    simp [hfresh]
  · intro term c hc
    simp only [List.mem_append, Option.mem_toList, Option.map_eq_some_iff, Prod.mk.injEq] at hc
    obtain hc | ⟨_, _, rfl, _⟩ := hc
    · have := h.past term c hc
      exact UInt64.le_of_lt (by grind)
    · exact UInt64.le_refl _

theorem recorded_step {log next : VoteLog} {op : Op} (h : log.Recorded) (hrange : log.InRange op)
    (hkeep : log.KeepsVote op) (hstep : log.step op = some next) : next.Recorded := by
  obtain rfl : _ = next := Option.some.inj hstep
  rcases apply_voteOutcome hrange hkeep with
    ⟨hterm, hvote, hcast⟩ | ⟨candidate, hterm, hfree, hvote, hcast⟩ | ⟨hterm, hvote⟩
  · simpa [hcast] using h.kept hterm hvote
  · simpa [hcast] using h.given hterm hfree hvote
  · rw [hvote]
    exact h.raised hterm

theorem recorded_run {log next : VoteLog} {ops : List Op} (h : log.Recorded)
    (hrange : Along step InRange log ops) (hkeep : Along step KeepsVote log ops)
    (hrun : run step log ops = some next) : next.Recorded :=
  invariant (fun _ _ _ h hop hstep => recorded_step h hop.1 hop.2 hstep) h (hrange.and hkeep) hrun

theorem second_vote {log : VoteLog} {op : Op} (h : log.Recorded) (hclear : ¬ log.KeepsVote op) :
    ∃ request next, run step log [op, request] = some next ∧ ¬ next.SingleVote := by
  cases op with
  | handleLeaderAssign term leader assigner =>
    obtain ⟨hterm, hvoted⟩ := not_or.mp hclear
    obtain ⟨first, hfirst⟩ := Option.ne_none_iff_exists'.mp hvoted
    let second : PeerId := ⟨first.id ++ "x"⟩
    have hne : first ≠ second := by
      intro heq
      have hlength := congrArg (fun p : PeerId => p.id.length) heq
      simp [second] at hlength
    refine ⟨.handleRequestVote log.election.state.currentTerm second, _, rfl, ?_⟩
    intro hsingle
    refine hne (hsingle log.election.state.currentTerm first second ?_ ?_)
    · exact List.mem_append_left _ (List.mem_append_left _ ((h.current first).mp hfirst))
    · apply List.mem_append_right
      simp [voteCast, apply, handleLeaderAssign_eq, assigned, hterm, handleRequestVote]
  | _ => exact absurd trivial hclear

/-- No operation clears the vote of its term: then votes are unique per term. As soon as one
does, a single further request makes the node vote twice in that term. -/
theorem singleVote_when_votes_kept (localPeerId : PeerId) (auto : Bool)
    (recovery : ManualOverrideRecovery) (ops : List Op)
    (hrange : Along step InRange (start localPeerId auto recovery) ops) :
    (Along step KeepsVote (start localPeerId auto recovery) ops →
      ∀ log, run step (start localPeerId auto recovery) ops = some log → log.SingleVote) ∧
    (¬ Along step KeepsVote (start localPeerId auto recovery) ops →
      ∃ front op back request log, ops = front ++ op :: back ∧
        run step (start localPeerId auto recovery) (front ++ [op, request]) = some log ∧
        ¬ log.SingleVote) := by
  constructor
  · intro hkeep log hrun
    exact (recorded_run (recorded_start _ _ _) hrange hkeep hrun).single
  · intro hclear
    obtain ⟨front, op, back, mid, rfl, hmid, hkeep, hop⟩ := exists_first_failure hclear
    have hrecorded := recorded_run (recorded_start _ _ _) (along_append_iff.mp hrange).1 hkeep hmid
    obtain ⟨request, log, hrun, hlog⟩ := second_vote hrecorded hop
    exact ⟨front, op, back, request, log, rfl, run_append_iff.mpr ⟨mid, hmid, hrun⟩, hlog⟩

/-- An assignment of a later term between two requests: each term still has one vote. -/
theorem singleVote_after_later_assignment :
    ∃ log, run step (start ⟨"peer1"⟩ true .hold)
      [.handleRequestVote 1 ⟨"peer2"⟩, .handleLeaderAssign 2 ⟨"peer4"⟩ ⟨"peer4"⟩,
        .handleRequestVote 2 ⟨"peer3"⟩] = some log ∧ log.votes.length = 2 ∧ log.SingleVote :=
  ⟨_, rfl, by decide, (singleVote_when_votes_kept ⟨"peer1"⟩ true .hold
    [.handleRequestVote 1 ⟨"peer2"⟩, .handleLeaderAssign 2 ⟨"peer4"⟩ ⟨"peer4"⟩,
      .handleRequestVote 2 ⟨"peer3"⟩] (by decide)).1 (by decide) _ rfl⟩

/-- An assignment of the term the node has voted in: it votes for two candidates in term 1. -/
theorem two_votes_after_same_term_assignment :
    Along step InRange (start ⟨"peer1"⟩ true .hold)
      [.handleRequestVote 1 ⟨"peer2"⟩, .handleLeaderAssign 1 ⟨"peer4"⟩ ⟨"peer4"⟩,
        .handleRequestVote 1 ⟨"peer3"⟩] ∧
    ∃ log, run step (start ⟨"peer1"⟩ true .hold)
      [.handleRequestVote 1 ⟨"peer2"⟩, .handleLeaderAssign 1 ⟨"peer4"⟩ ⟨"peer4"⟩,
        .handleRequestVote 1 ⟨"peer3"⟩] = some log ∧ ¬ log.SingleVote := by
  refine ⟨by decide, _, rfl, ?_⟩
  intro h
  exact absurd (h 1 ⟨"peer2"⟩ ⟨"peer3"⟩ (by decide) (by decide)) (by decide)

end VoteLog

end MetaMystia.LeaderElection

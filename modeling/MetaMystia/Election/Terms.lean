import MetaMystia.Election.Operations
import MetaMystia.Election.OverrideRecovery

/-! # The term of a node over time

Remote messages only ever raise the term; `start_election` and `set_leader` add
one to it with wrapping `u64` arithmetic. The largest term can arrive in one
message, and the next of these two calls then takes the term to zero.
-/

namespace MetaMystia.LeaderElection

open Runs

/-- A `start_election` that is not refused, and every `set_leader`, moves to a higher term. -/
def AdvancesTerm (self : LeaderElection) (op : Op) : Prop :=
  match op with
  | .startElection _ => self.state.autoElectionEnabled = true → self.state.manualOverride = false →
      self.state.currentTerm < (self.apply op).state.currentTerm
  | .setLeader _ => self.state.currentTerm < (self.apply op).state.currentTerm
  | _ => True

theorem startElection_term {self : LeaderElection} (hauto : self.state.autoElectionEnabled = true)
    (hman : self.state.manualOverride = false) (count : Nat) :
    (self.apply (.startElection count)).state.currentTerm = self.state.currentTerm + 1 := by
  obtain ⟨hrefused, _⟩ | ⟨_, _, _, heq⟩ | ⟨_, _, _, heq⟩ := self.startElection_cases count
  · simp [hauto, hman] at hrefused
  · rw [apply, heq]
    rfl
  · rw [apply, heq]
    rfl

theorem lt_maxTerm_of_lt_add_one {term : UInt64} (h : term < term + 1) : term < maxTerm := by
  unfold maxTerm
  by_contra hmax
  have hterm : term = 18446744073709551615 := by grind
  subst hterm
  exact absurd h (by decide)

theorem advancesTerm_iff (self : LeaderElection) (op : Op) :
    self.AdvancesTerm op ↔ self.InRange op := by
  cases op with
  | startElection count =>
    constructor
    · intro h hauto hman
      have hlt := h hauto hman
      rw [startElection_term hauto hman] at hlt
      exact lt_maxTerm_of_lt_add_one hlt
    · intro h hauto hman
      rw [startElection_term hauto hman]
      exact lt_add_one (h hauto hman)
  | setLeader leader => exact ⟨lt_maxTerm_of_lt_add_one, lt_add_one⟩
  | _ => exact Iff.rfl

theorem term_le_apply {self : LeaderElection} {op : Op} (h : self.InRange op) :
    self.state.currentTerm ≤ (self.apply op).state.currentTerm := by
  cases op with
  | startElection count =>
    obtain ⟨_, heq⟩ | ⟨hauto, hman, _, heq⟩ | ⟨hauto, hman, _, heq⟩ := self.startElection_cases count
    · rw [apply, heq]
      exact UInt64.le_refl _
    · rw [apply, heq]
      exact UInt64.le_of_lt (lt_add_one (h hauto hman))
    · rw [apply, heq]
      exact UInt64.le_of_lt (lt_add_one (h hauto hman))
  | handleRequestVote term candidate =>
    obtain ⟨_, heq⟩ | ⟨_, _, heq⟩ | ⟨_, _, heq⟩ | ⟨hhigh, heq⟩ :=
      self.handleRequestVote_cases term candidate
    · rw [apply, heq]
      exact UInt64.le_refl _
    · rw [apply, heq]
      exact UInt64.le_refl _
    · rw [apply, heq]
      exact UInt64.le_refl _
    · rw [apply, heq]
      exact UInt64.le_of_lt hhigh
  | handleVoteResponse term voter granted count =>
    obtain ⟨hhigh, heq⟩ | ⟨_, _, heq⟩ | ⟨_, _, _, heq⟩ | ⟨_, _, _, heq⟩ :=
      self.handleVoteResponse_cases term voter granted count
    · rw [apply, heq]
      exact UInt64.le_of_lt hhigh
    · rw [apply, heq]
      exact UInt64.le_refl _
    · rw [apply, heq]
      cases granted <;> exact UInt64.le_refl _
    · rw [apply, heq]
      cases granted <;> exact UInt64.le_refl _
  | handleHeartbeat term leader =>
    obtain ⟨_, heq⟩ | ⟨hlow, _, _, heq⟩ := self.handleHeartbeat_cases term leader
    · rw [apply, heq]
      exact UInt64.le_refl _
    · rw [apply, heq]
      exact UInt64.not_lt.mp hlow
  | handleLeaderAssign term leader assigner =>
    rw [apply, handleLeaderAssign_eq]
    show _ ≤ if self.state.currentTerm < term then term else self.state.currentTerm
    split_ifs with hhigh
    · exact UInt64.le_of_lt hhigh
    · exact UInt64.le_refl _
  | setLeader leader => exact UInt64.le_of_lt (lt_add_one h)
  | enableAutoElection enable =>
    obtain ⟨_, _, _, heq⟩ := self.enableAutoElection_cases enable
    rw [apply, heq]
    exact UInt64.le_refl _
  | handlePeerLeft peer =>
    obtain ⟨_, heq⟩ | ⟨_, _, _, heq⟩ := self.handlePeerLeft_cases peer
    · rw [apply, heq]
      exact UInt64.le_refl _
    · rw [apply, heq]
      exact UInt64.le_refl _

theorem term_le_foldl {self : LeaderElection} {ops : List Op} (h : Along step InRange self ops) :
    self.state.currentTerm ≤ (ops.foldl apply self).state.currentTerm := by
  induction ops generalizing self with
  | nil => exact UInt64.le_refl _
  | cons op rest ih => exact UInt64.le_trans (term_le_apply h.1) (ih (h.2 _ rfl))

/-- From any state, a sequence of operations leaves the term at least where it was and every
election started and every manual assignment raises it, if and only if none of these two calls is
made in the largest `u64` term. -/
theorem terms_advance_iff {self : LeaderElection} {ops : List Op} :
    (self.state.currentTerm ≤ (ops.foldl apply self).state.currentTerm ∧
      Along step AdvancesTerm self ops) ↔ Along step InRange self ops := by
  have hsame : Along step AdvancesTerm self ops ↔ Along step InRange self ops :=
    along_congr (I := fun _ => True) (fun _ _ _ _ _ => trivial)
      (fun m op _ => m.advancesTerm_iff op) trivial ops
  constructor
  · intro h
    exact hsame.mp h.2
  · intro h
    exact ⟨term_le_foldl h, hsame.mpr h⟩

/-- One heartbeat carries the largest term, and `set_leader` takes the node back to term zero. -/
theorem term_wraps_after_one_heartbeat :
    let ops := [Op.handleHeartbeat 18446744073709551615 ⟨"b"⟩, .setLeader ⟨"a"⟩]
    let self := LeaderElection.new ⟨"a"⟩ true .hold
    ¬ ((self.apply (.handleHeartbeat 18446744073709551615 ⟨"b"⟩)).state.currentTerm ≤
        (ops.foldl apply self).state.currentTerm) ∧
      ¬ Along step AdvancesTerm self ops := by
  refine ⟨by decide, ?_⟩
  intro halong
  have hlast : (18446744073709551615 : UInt64) < 0 := (halong.2 _ rfl).1
  exact absurd hlast (by decide)

end MetaMystia.LeaderElection

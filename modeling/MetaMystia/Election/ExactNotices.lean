import MetaMystia.Election.Notifications

/-! # Notifications and the known leader

A handler that names a leader compares it with the old one before it notifies;
`become_leader_inner` and `handle_peer_left` notify without a comparison. They
are right because a Candidate knows no leader, which holds as long as elections
are started the way the election timer does.
-/

namespace MetaMystia.LeaderElection

open Runs

def StartsLeaderless (self : LeaderElection) : Op → Prop
  | .startElection _ => self.leaderId = none ∧ self.role ≠ .leader
  | _ => True

instance (self : LeaderElection) : (op : Op) → Decidable (self.StartsLeaderless op)
  | .startElection _ => inferInstanceAs (Decidable (_ ∧ _))
  | .handleRequestVote .. | .handleVoteResponse .. | .handleHeartbeat .. | .handleLeaderAssign ..
  | .setLeader _ | .enableAutoElection _ | .handlePeerLeft _ => .isTrue trivial

/-- The operation notifies the new leader if it changes `leader_id`, and nothing otherwise. -/
def NotifiesExactly (self : LeaderElection) (op : Op) : Prop :=
  self.notice op =
    if (self.apply op).leaderId ≠ self.leaderId then some (self.apply op).leaderId else none

/-- What a sequence of operations puts into a channel that never fills. -/
def notices (self : LeaderElection) : List Op → List (Option PeerId)
  | [] => []
  | op :: rest => (self.notice op).toList ++ (self.apply op).notices rest

def replay (leader : Option PeerId) (notices : List (Option PeerId)) : Option PeerId :=
  notices.foldl (fun _ announced => announced) leader

def CandidateLeaderless (self : LeaderElection) : Prop :=
  self.state.role = .candidate → self.state.leaderId = none

theorem CandidateLeaderless.apply {self : LeaderElection} (h : self.CandidateLeaderless) {op : Op}
    (hop : self.StartsLeaderless op) : (self.apply op).CandidateLeaderless := by
  intro hcand
  have hshift := self.shift_apply op
  generalize self.notice op = value at hshift
  cases hshift with
  | keeps hrole hleader => exact hleader.trans (h (hrole ▸ hcand))
  | campaigns _ hleader => exact hleader.trans hop.1
  | wins _ hrole _ => exact absurd (hrole.symm.trans hcand) nofun
  | deposed _ hrole _ => exact absurd (hrole.symm.trans hcand) nofun
  | follows hrole _ => exact absurd (hrole.symm.trans hcand) nofun
  | assigned _ hrole _ =>
    rw [hrole] at hcand
    split_ifs at hcand
  | vacates _ _ hleader => exact hleader

theorem noticeOfChange_eq (oldLeader : Option PeerId) (newLeader : PeerId) :
    noticeOfChange oldLeader newLeader =
      if some newLeader ≠ oldLeader then some (some newLeader) else none := by
  unfold noticeOfChange
  simp only [ne_comm]

theorem CandidateLeaderless.leaderless_of_wins {self : LeaderElection}
    (h : self.CandidateLeaderless) {op : Op} (hop : self.StartsLeaderless op)
    (hinner : Campaigns op = true) (hnotice : self.notice op ≠ none) : self.leaderId = none := by
  cases op with
  | startElection count => exact hop.1
  | handleVoteResponse term voter granted count =>
    obtain ⟨_, heq⟩ | ⟨_, _, heq⟩ | ⟨_, _, _, heq⟩ | ⟨hrole, _⟩ :=
      self.handleVoteResponse_cases term voter granted count
    · exact absurd (by rw [notice, heq]) hnotice
    · exact absurd (by rw [notice, heq]) hnotice
    · exact absurd (by rw [notice, heq]) hnotice
    · exact h hrole
  | _ => cases hinner

theorem CandidateLeaderless.notifiesExactly {self : LeaderElection} (h : self.CandidateLeaderless)
    {op : Op} (hop : self.StartsLeaderless op) : self.NotifiesExactly op := by
  have hshift := self.shift_apply op
  have hwins := h.leaderless_of_wins hop
  unfold NotifiesExactly leaderId at *
  generalize self.notice op = value at hshift hwins ⊢
  cases hshift with
  | keeps _ hknown => simp [hknown]
  | campaigns _ hknown => simp [hknown]
  | wins hinner _ hknown => simp [hknown, hwins hinner nofun]
  | deposed _ _ hknown => simp [hknown]
  | follows _ hknown => rw [hknown, noticeOfChange_eq]
  | assigned _ _ hknown => rw [hknown, noticeOfChange_eq]
  | vacates _ hled hknown => simp [hknown, hled]

theorem replay_toList (leader : Option PeerId) (notice : Option (Option PeerId))
    (rest : List (Option PeerId)) :
    replay leader (notice.toList ++ rest) = replay (notice.getD leader) rest := by
  cases notice <;> rfl

theorem replay_notices (self : LeaderElection) (ops : List Op) :
    replay self.leaderId (self.notices ops) = (ops.foldl apply self).leaderId := by
  induction ops generalizing self with
  | nil => rfl
  | cons op rest ih => rw [notices, replay_toList, ← leaderId_apply, ih, List.foldl_cons]

/-- When elections are started only without a leader, every operation notifies exactly the changes
of the leader, and the notifications of any prefix of the run replay to its leader. -/
theorem notifications_exact {localPeerId : PeerId} {auto : Bool} {recovery : ManualOverrideRecovery}
    {ops : List Op} (hguard : Along step StartsLeaderless (.new localPeerId auto recovery) ops) :
    Along step NotifiesExactly (.new localPeerId auto recovery) ops ∧
      ∀ front back, ops = front ++ back →
        replay none ((new localPeerId auto recovery).notices front) =
          (front.foldl apply (.new localPeerId auto recovery)).leaderId := by
  have hnew : (new localPeerId auto recovery).CandidateLeaderless := nofun
  constructor
  · refine hguard.of_invariant ?_ (fun _ _ h hop => h.notifiesExactly hop) hnew
    rintro s op t hs hop ht
    exact Option.some.inj ht ▸ hs.apply hop
  · rintro front back _
    exact replay_notices (new localPeerId auto recovery) front

/-- Node `a` wins an election, gives way to `b`, loses it and campaigns again. -/
theorem notifications_exact_over_two_elections :
    let ops := [Op.startElection 2, .handleVoteResponse 1 ⟨"b"⟩ true 2, .handleHeartbeat 2 ⟨"b"⟩,
      .handleHeartbeat 2 ⟨"b"⟩, .handlePeerLeft ⟨"b"⟩, .startElection 2]
    Along step NotifiesExactly (.new ⟨"a"⟩ true .hold) ops ∧
      (LeaderElection.new ⟨"a"⟩ true .hold).notices ops = [some ⟨"a"⟩, some ⟨"b"⟩, none] := by
  intro ops
  have hguard : Along step StartsLeaderless (.new ⟨"a"⟩ true .hold) ops := by decide
  exact ⟨(notifications_exact hguard).1, by decide⟩

end MetaMystia.LeaderElection

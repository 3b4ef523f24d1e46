import MetaMystia.Election.Operations

/-! # The override with a leader, and without one

While the override names a leader, no automatic operation replaces it. Once the
assigned leader has left under `Hold`, the override stays without a leader; then
`handle_heartbeat` has nothing to compare the sender with and accepts it.
-/

namespace MetaMystia.LeaderElection

open Runs

/-- What an operation hands to `notify_leader_change`. -/
def notice (self : LeaderElection) : Op → Option (Option PeerId)
  | .startElection count => (self.startElection count).notice
  | .handleRequestVote term candidate => (self.handleRequestVote term candidate).notice
  | .handleVoteResponse term voter granted count =>
    (self.handleVoteResponse term voter granted count).notice
  | .handleHeartbeat term leader => (self.handleHeartbeat term leader).notice
  | .handleLeaderAssign term leader assigner => (self.handleLeaderAssign term leader assigner).notice
  | .setLeader leader => (self.setLeader leader).notice
  | .enableAutoElection enable => (self.enableAutoElection enable).notice
  | .handlePeerLeft peer => (self.handlePeerLeft peer).notice

def step (self : LeaderElection) (op : Op) : Option LeaderElection := some (self.apply op)

/-- The operation is no assignment and does not report that the leader left. -/
def KeepsAssignment (leader : PeerId) : Op → Prop
  | .handlePeerLeft peer => peer ≠ leader
  | .handleLeaderAssign .. | .setLeader _ => False
  | _ => True

def Settled (self : LeaderElection) : Prop :=
  self.state.manualOverride = true → self.state.role ≠ .candidate

theorem settled_apply {self : LeaderElection} (h : self.Settled) (op : Op) :
    (self.apply op).Settled := by
  cases op with
  | startElection count =>
    obtain ⟨_, heq⟩ | ⟨_, hman, _, heq⟩ | ⟨_, hman, _, heq⟩ := self.startElection_cases count
    · rw [apply, heq]
      exact h
    · rw [apply, heq]
      intro hno
      exact absurd (hman.symm.trans hno) Bool.false_ne_true
    · rw [apply, heq]
      intro _ hrole
      cases hrole
  | handleRequestVote term candidate =>
    obtain ⟨_, heq⟩ | ⟨_, _, heq⟩ | ⟨_, _, heq⟩ | ⟨_, heq⟩ := self.handleRequestVote_cases term candidate
    · rw [apply, heq]
      exact h
    · rw [apply, heq]
      exact h
    · rw [apply, heq]
      exact h
    · rw [apply, heq]
      intro _ hrole
      cases hrole
  | handleVoteResponse term voter granted count =>
    rcases self.handleVoteResponse_cases term voter granted count with
      ⟨_, heq⟩ | ⟨_, _, heq⟩ | ⟨hcand, _, _, heq⟩ | ⟨_, _, _, heq⟩
    · rw [apply, heq]
      intro _ hrole
      cases hrole
    · rw [apply, heq]
      exact h
    · rw [apply, heq]
      intro hman
      have hsame : self.state.manualOverride = true := by
        cases granted <;> exact hman
      exact absurd hcand (h hsame)
    · rw [apply, heq]
      intro _ hrole
      cases hrole
  | handleHeartbeat term leader =>
    obtain ⟨_, heq⟩ | ⟨_, _, _, heq⟩ := self.handleHeartbeat_cases term leader
    · rw [apply, heq]
      exact h
    · rw [apply, heq]
      intro _ hrole
      cases hrole
  | handleLeaderAssign term leader assigner =>
    rw [apply, handleLeaderAssign_eq]
    intro _
    show (if leader = self.localPeerId then Role.leader else .follower) ≠ .candidate
    split_ifs <;> simp
  | setLeader leader =>
    intro _
    show (if leader = self.localPeerId then Role.leader else .follower) ≠ .candidate
    split_ifs <;> simp
  | enableAutoElection enable =>
    obtain ⟨manual, hmanual, _, heq⟩ := self.enableAutoElection_cases enable
    rw [apply, heq]
    exact fun hman => h (hmanual hman)
  | handlePeerLeft peer =>
    obtain ⟨_, heq⟩ | ⟨_, manual, hmanual, heq⟩ := self.handlePeerLeft_cases peer
    · rw [apply, heq]
      exact h
    · rw [apply, heq]
      exact fun hman => h (hmanual hman)

theorem settled_of_new {localPeerId : PeerId} {auto : Bool} {recovery : ManualOverrideRecovery}
    (ops : List Op) : (ops.foldl apply (.new localPeerId auto recovery)).Settled := by
  induction ops using List.reverseRecOn with
  | nil => exact nofun
  | append_singleton front op ih =>
    rw [List.foldl_append]
    exact settled_apply ih op

def VoteTraffic : Op → Prop
  | .startElection _ | .handleRequestVote .. | .handleVoteResponse .. => True
  | _ => False

/-- Override and leader stay, and the role can only fall back to Follower. -/
structure Unmoved (election after : LeaderElection) : Prop where
  manual : after.state.manualOverride = election.state.manualOverride
  leader : after.state.leaderId = election.state.leaderId
  role : after.state.role = election.state.role ∨ after.state.role = .follower

theorem Unmoved.refl (self : LeaderElection) : Unmoved self self := ⟨rfl, rfl, .inl rfl⟩

theorem Unmoved.role_ne {self after : LeaderElection} (h : Unmoved self after) {role : Role}
    (hfollower : role ≠ .follower) (hrole : self.state.role ≠ role) : after.state.role ≠ role := by
  cases h.role with
  | inl heq => exact heq ▸ hrole
  | inr heq => exact heq ▸ hfollower.symm

theorem unmoved_of_voteTraffic {self : LeaderElection} (hman : self.state.manualOverride = true)
    (hrole : self.state.role ≠ .candidate) {op : Op} (hop : VoteTraffic op) :
    Unmoved self (self.apply op) ∧ self.notice op = none := by
  cases op with
  | startElection count =>
    obtain ⟨_, heq⟩ | ⟨_, hno, _⟩ | ⟨_, hno, _⟩ := self.startElection_cases count
    · simp only [apply, notice, heq]
      exact ⟨.refl self, trivial⟩
    · exact absurd (hman.symm.trans hno) (by simp)
    · exact absurd (hman.symm.trans hno) (by simp)
  | handleRequestVote term candidate =>
    obtain ⟨_, heq⟩ | ⟨_, _, heq⟩ | ⟨_, _, heq⟩ | ⟨_, heq⟩ := self.handleRequestVote_cases term candidate
    · simp only [apply, notice, heq]
      exact ⟨.refl self, trivial⟩
    · simp only [apply, notice, heq]
      exact ⟨.refl self, trivial⟩
    · simp only [apply, notice, heq]
      exact ⟨⟨rfl, rfl, .inl rfl⟩, trivial⟩
    · simp only [apply, notice, heq]
      exact ⟨⟨rfl, rfl, .inr rfl⟩, trivial⟩
  | handleVoteResponse term voter granted count =>
    rcases self.handleVoteResponse_cases term voter granted count with
      ⟨_, heq⟩ | ⟨_, _, heq⟩ | ⟨hcand, _⟩ | ⟨hcand, _⟩
    · simp only [apply, notice, heq]
      exact ⟨⟨rfl, rfl, .inr rfl⟩, trivial⟩
    · simp only [apply, notice, heq]
      exact ⟨.refl self, trivial⟩
    · exact absurd hcand hrole
    · exact absurd hcand hrole
  | handleHeartbeat | handleLeaderAssign | setLeader | enableAutoElection | handlePeerLeft =>
    exact absurd hop id

/-- The override names the leader, and the node is no candidate. -/
structure Pinned (leader : PeerId) (election : LeaderElection) : Prop where
  manual : election.state.manualOverride = true
  leads : election.state.leaderId = some leader
  role : election.state.role ≠ .candidate

theorem Pinned.keeps {leader : PeerId} {self : LeaderElection} (h : Pinned leader self) {op : Op}
    (hop : KeepsAssignment leader op) :
    Pinned leader (self.apply op) ∧ self.notice op = none ∧
      (self.state.role ≠ .leader → (self.apply op).state.role ≠ .leader) := by
  have htraffic : VoteTraffic op → Pinned leader (self.apply op) ∧ self.notice op = none ∧
      (self.state.role ≠ .leader → (self.apply op).state.role ≠ .leader) := by
    intro hop
    obtain ⟨hsame, hnotice⟩ := unmoved_of_voteTraffic h.manual h.role hop
    exact ⟨⟨hsame.manual.trans h.manual, hsame.leader.trans h.leads, hsame.role_ne (by simp) h.role⟩,
      hnotice, hsame.role_ne (by simp)⟩
  cases op with
  | startElection | handleRequestVote | handleVoteResponse => exact htraffic trivial
  | handleHeartbeat term sender =>
    obtain ⟨_, heq⟩ | ⟨_, hsame, _, heq⟩ := self.handleHeartbeat_cases term sender
    · simp only [apply, notice, heq]
      exact ⟨h, trivial, id⟩
    · obtain rfl : leader = sender := hsame h.manual leader h.leads
      simp only [apply, notice, heq]
      exact ⟨⟨h.manual, rfl, by simp [follow]⟩, by simp [noticeOfChange, h.leads],
        fun _ => by simp [follow]⟩
  | handleLeaderAssign term sender assigner => exact absurd hop id
  | setLeader sender => exact absurd hop id
  | enableAutoElection enable =>
    obtain ⟨manual, _, hkeep, heq⟩ := self.enableAutoElection_cases enable
    have hman : manual = true := (hkeep (by simp [h.leads])).trans h.manual
    simp only [apply, notice, heq]
    exact ⟨⟨hman, h.leads, h.role⟩, trivial, id⟩
  | handlePeerLeft peer =>
    obtain ⟨_, heq⟩ | ⟨hsame, _⟩ := self.handlePeerLeft_cases peer
    · simp only [apply, notice, heq]
      exact ⟨h, trivial, id⟩
    · exact absurd (Option.some.inj (hsame.symm.trans h.leads)) hop

theorem startElection_of_manual {self : LeaderElection} (h : self.state.manualOverride = true)
    (count : Nat) : (self.startElection count).value = none := by
  obtain ⟨_, heq⟩ | ⟨_, hno, _⟩ | ⟨_, hno, _⟩ := self.startElection_cases count
  · rw [heq]
  · exact absurd (h.symm.trans hno) nofun
  · exact absurd (h.symm.trans hno) nofun

theorem Pinned.throughout {leader : PeerId} {self : LeaderElection} (h : Pinned leader self)
    {ops : List Op} (hops : ∀ op ∈ ops, KeepsAssignment leader op) :
    Throughout step (fun m => Pinned leader m ∧
      (self.state.role ≠ .leader → m.state.role ≠ .leader)) self ops ∧
    Along step (fun m op => m.notice op = none) self ops := by
  have halong : Along step (fun _ op => KeepsAssignment leader op) self ops :=
    along_of_forall_mem (fun op hop _ => hops op hop) self
  have hstep : ∀ m op t, Pinned leader m ∧ (self.state.role ≠ .leader → m.state.role ≠ .leader) →
      KeepsAssignment leader op → step m op = some t →
        Pinned leader t ∧ (self.state.role ≠ .leader → t.state.role ≠ .leader) := by
    rintro m op t ⟨hm, hled⟩ hop ht
    obtain rfl := Option.some.inj ht
    obtain ⟨hnext, _, hrole⟩ := hm.keeps hop
    exact ⟨hnext, fun hself => hrole (hled hself)⟩
  constructor
  · exact halong.throughout hstep (fun _ hm => hm) ⟨h, id⟩
  · exact halong.of_invariant hstep (fun _ _ hm hop => (hm.1.keeps hop).2.1) ⟨h, id⟩

/-- In every reachable state with an override and a leader, and whatever automatic operations
follow: override and leader stay, nobody is notified, `start_election` returns `None` and the
node becomes neither Candidate nor, if it was not, Leader. -/
theorem override_pins_leader {localPeerId leader : PeerId} {auto : Bool}
    {recovery : ManualOverrideRecovery} {before ops : List Op} {self : LeaderElection}
    (hreach : before.foldl apply (.new localPeerId auto recovery) = self)
    (hman : self.state.manualOverride = true) (hleader : self.state.leaderId = some leader)
    (hops : ∀ op ∈ ops, KeepsAssignment leader op) :
    Throughout step (fun m => m.state.manualOverride = true ∧ m.state.leaderId = some leader ∧
      m.role ≠ .candidate ∧ (self.isLeader = false → m.isLeader = false) ∧
      ∀ count, (m.startElection count).value = none) self ops ∧
    Along step (fun m op => m.notice op = none) self ops := by
  have hsettled : self.Settled := hreach ▸ settled_of_new before
  obtain ⟨hstates, hnotices⟩ := Pinned.throughout ⟨hman, hleader, hsettled hman⟩ hops
  refine ⟨?_, hnotices⟩
  intro front back m hacts hm
  obtain ⟨hpinned, hrole⟩ := hstates front back m hacts hm
  refine ⟨hpinned.manual, hpinned.leads, hpinned.role, ?_, startElection_of_manual hpinned.manual⟩
  simpa [isLeader] using hrole

/-- Node `a`, told to follow `b`, under the traffic of a rival `c` with higher terms. -/
theorem assigned_follower_keeps_leader :
    let self := (LeaderElection.new ⟨"a"⟩ true .hold).apply (.handleLeaderAssign 1 ⟨"b"⟩ ⟨"b"⟩)
    let ops := [Op.handleRequestVote 5 ⟨"c"⟩, .handleHeartbeat 9 ⟨"c"⟩, .startElection 2,
      .handleHeartbeat 6 ⟨"b"⟩, .enableAutoElection true, .handlePeerLeft ⟨"c"⟩]
    (ops.foldl apply self).state.leaderId = some ⟨"b"⟩ ∧
      Along step (fun m op => m.notice op = none) self ops := by
  intro self ops
  have hreach : [Op.handleLeaderAssign 1 ⟨"b"⟩ ⟨"b"⟩].foldl apply (.new ⟨"a"⟩ true .hold) = self := rfl
  have hops : ∀ op ∈ ops, KeepsAssignment ⟨"b"⟩ op := by simp [ops, KeepsAssignment]
  obtain ⟨hstates, hnotices⟩ := override_pins_leader hreach rfl rfl hops
  exact ⟨(hstates ops [] _ (by simp) rfl).2.1, hnotices⟩

/-- The operation is not an action of the upper layer. -/
def NoAssignment : Op → Prop
  | .handleLeaderAssign .. | .setLeader _ => False
  | .enableAutoElection enable => enable = false
  | _ => True

/-- A heartbeat of the operation is from a lower term, or meets a Leader that does not give way. -/
def Ignores (self : LeaderElection) : Op → Prop
  | .handleHeartbeat term sender => term < self.state.currentTerm ∨
      (self.state.role = .leader ∧ term = self.state.currentTerm ∧ sender ≤ self.localPeerId)
  | _ => True

instance (self : LeaderElection) : (op : Op) → Decidable (self.Ignores op)
  | .handleHeartbeat .. => inferInstanceAs (Decidable (_ ∨ _))
  | .startElection _ | .handleRequestVote .. | .handleVoteResponse .. | .handleLeaderAssign ..
  | .setLeader _ | .enableAutoElection _ | .handlePeerLeft _ => .isTrue trivial

structure Vacant (election : LeaderElection) : Prop where
  manual : election.state.manualOverride = true
  leaderless : election.state.leaderId = none
  role : election.state.role ≠ .candidate

theorem Vacant.keeps {self : LeaderElection} (h : self.Vacant) {op : Op} (hop : NoAssignment op)
    (hignores : self.Ignores op) : (self.apply op).Vacant := by
  have htraffic : VoteTraffic op → (self.apply op).Vacant := by
    intro hop
    obtain ⟨hsame, _⟩ := unmoved_of_voteTraffic h.manual h.role hop
    exact ⟨hsame.manual.trans h.manual, hsame.leader.trans h.leaderless, hsame.role_ne (by simp) h.role⟩
  cases op with
  | startElection | handleRequestVote | handleVoteResponse => exact htraffic trivial
  | handleHeartbeat term sender =>
    obtain ⟨_, heq⟩ | ⟨hlow, _, hstep, _⟩ := self.handleHeartbeat_cases term sender
    · rw [apply, heq]
      exact h
    · obtain hlt | ⟨hrole, rfl, hid⟩ := hignores
      · exact absurd hlt hlow
      · cases hstep hrole with
        | inl hlt => exact absurd hlt (UInt64.lt_irrefl _)
        | inr hlt => exact absurd hlt (not_lt.mpr hid)
  | handleLeaderAssign term sender assigner => exact absurd hop id
  | setLeader sender => exact absurd hop id
  | enableAutoElection enable =>
    obtain rfl : enable = false := hop
    exact ⟨h.manual, h.leaderless, h.role⟩
  | handlePeerLeft peer =>
    obtain ⟨_, heq⟩ | ⟨hsome, _⟩ := self.handlePeerLeft_cases peer
    · rw [apply, heq]
      exact h
    · exact absurd (h.leaderless.symm.trans hsome) (by simp)

theorem Vacant.installs {self : LeaderElection} (h : self.Vacant) {op : Op}
    (hignores : ¬ self.Ignores op) : (self.apply op).state.leaderId ≠ none := by
  cases op with
  | handleHeartbeat term sender =>
    obtain ⟨hreject, _⟩ | ⟨_, _, _, heq⟩ := self.handleHeartbeat_cases term sender
    · refine absurd ?_ hignores
      obtain hlt | ⟨_, old, hold, _⟩ | ⟨hrole, hterm, hid⟩ := hreject
      · exact .inl hlt
      · exact absurd (h.leaderless.symm.trans hold) (by simp)
      · exact .inr ⟨hrole, hterm, not_lt.mp hid⟩
    · rw [apply, heq]
      intro hnone
      cases hnone
  | _ => exact absurd trivial hignores

theorem Vacant.leaderless_iff {self : LeaderElection} (h : self.Vacant) {ops : List Op}
    (hops : ∀ op ∈ ops, NoAssignment op) :
    Throughout step (fun m => m.state.leaderId = none) self ops ↔ Along step Ignores self ops := by
  have halong : Along step (fun _ op => NoAssignment op) self ops :=
    along_of_forall_mem (fun op hop _ => hops op hop) self
  refine throughout_iff_along (I := Vacant) ?_ (fun _ hm => hm.leaderless) ?_ halong h
  · rintro m op t hm hop hignores ht
    obtain rfl := Option.some.inj ht
    exact hm.keeps hop hignores
  · rintro m op hm _ hno
    exact ⟨m.apply op, rfl, hm.installs hno⟩

theorem recovery_of_new {localPeerId : PeerId} {auto : Bool} {recovery : ManualOverrideRecovery}
    (ops : List Op) :
    (ops.foldl apply (.new localPeerId auto recovery)).manualOverrideRecovery = recovery := by
  induction ops using List.reverseRecOn with
  | nil => rfl
  | append_singleton front op ih =>
    rw [List.foldl_append]
    exact (apply_manualOverrideRecovery _ op).trans ih

/-- Under `Hold`, a node that its assigned leader has left stays without a leader if and only if
it ignores every heartbeat. -/
theorem hold_stays_leaderless_iff {localPeerId leader : PeerId} {auto : Bool} {before ops : List Op}
    {self : LeaderElection} (hreach : before.foldl apply (.new localPeerId auto .hold) = self)
    (hman : self.state.manualOverride = true) (hleader : self.state.leaderId = some leader)
    (hops : ∀ op ∈ ops, NoAssignment op) :
    Throughout step (fun m => m.state.leaderId = none) (self.apply (.handlePeerLeft leader)) ops ↔
      Along step Ignores (self.apply (.handlePeerLeft leader)) ops := by
  have hsettled : self.Settled := hreach ▸ settled_of_new before
  have hrecovery : self.manualOverrideRecovery = .hold := hreach ▸ recovery_of_new before
  have hvacant : (self.apply (.handlePeerLeft leader)).Vacant := by
    have hleft : self.apply (.handlePeerLeft leader) =
        { self with state := { self.state with leaderId := none } } := by
      simp [apply, handlePeerLeft, hleader, hrecovery]
    rw [hleft]
    exact ⟨hman, rfl, hsettled hman⟩
  exact hvacant.leaderless_iff hops

def abandoned : LeaderElection :=
  [Op.handleLeaderAssign 1 ⟨"b"⟩ ⟨"b"⟩].foldl apply (.new ⟨"a"⟩ true .hold)

theorem hold_outlasts_stale_heartbeat :
    ([Op.startElection 2, .handleRequestVote 4 ⟨"c"⟩, .handleHeartbeat 3 ⟨"c"⟩].foldl apply
      (abandoned.apply (.handlePeerLeft ⟨"b"⟩))).state.leaderId = none := by
  have hstates := (hold_stays_leaderless_iff
    (rfl : [Op.handleLeaderAssign 1 ⟨"b"⟩ ⟨"b"⟩].foldl apply (.new ⟨"a"⟩ true .hold) = abandoned)
    rfl rfl (by simp [NoAssignment] :
      ∀ op ∈ [Op.startElection 2, .handleRequestVote 4 ⟨"c"⟩, .handleHeartbeat 3 ⟨"c"⟩],
        NoAssignment op)).mpr (by decide)
  exact hstates _ [] _ (List.append_nil _).symm rfl

theorem hold_ended_by_heartbeat :
    abandoned.state.manualOverride = true ∧ abandoned.state.leaderId = some ⟨"b"⟩ ∧
      NoAssignment (.handleHeartbeat 2 ⟨"c"⟩) ∧
      (abandoned.apply (.handlePeerLeft ⟨"b"⟩)).state.leaderId = none ∧
      (abandoned.apply (.handlePeerLeft ⟨"b"⟩)).state.manualOverride = true ∧
      ([Op.handleHeartbeat 2 ⟨"c"⟩].foldl apply
        (abandoned.apply (.handlePeerLeft ⟨"b"⟩))).state.leaderId = some ⟨"c"⟩ :=
  ⟨rfl, rfl, trivial, rfl, rfl, rfl⟩

end MetaMystia.LeaderElection

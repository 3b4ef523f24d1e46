import MetaMystia.Election.OverrideRecovery
import MetaMystia.Session.Router

/-! # The role and the known leader

`role` and `leader_id` are two fields, written by nine functions. `Shift` lists
what an operation can do to the pair, with the value it notifies. A Leader always
knows itself as the leader; the converse is lost when a vote message of a higher
term deposes a Leader, because that path leaves `leader_id` as it was.
-/

namespace MetaMystia.LeaderElection

open Runs

/-- The operations that end in `become_leader_inner`, which notifies under the lock. -/
def Campaigns : Op → Bool
  | .startElection _ | .handleVoteResponse .. => true
  | _ => false

/-- The operation is a vote message of a term above the node's own. -/
def OutranksBy (self : LeaderElection) : Op → Prop
  | .handleRequestVote term _ | .handleVoteResponse term .. => self.state.currentTerm < term
  | _ => False

inductive Assigns : Op → PeerId → Prop
  | handleLeaderAssign {term : UInt64} {leader assigner : PeerId} :
    Assigns (.handleLeaderAssign term leader assigner) leader
  | setLeader {leader : PeerId} : Assigns (.setLeader leader) leader

inductive Shift (election after : LeaderElection) : Op → Option (Option PeerId) → Prop
  | keeps {op : Op} (role : after.state.role = election.state.role)
    (known : after.state.leaderId = election.state.leaderId) : Shift election after op none
  | campaigns {count : Nat} (role : after.state.role = .candidate)
    (known : after.state.leaderId = election.state.leaderId) :
    Shift election after (.startElection count) none
  | wins {op : Op} (inner : Campaigns op = true) (role : after.state.role = .leader)
    (known : after.state.leaderId = some election.localPeerId) :
    Shift election after op (some (some election.localPeerId))
  | deposed {op : Op} (outranked : election.OutranksBy op) (role : after.state.role = .follower)
    (known : after.state.leaderId = election.state.leaderId) : Shift election after op none
  | follows {term : UInt64} {leader : PeerId} (role : after.state.role = .follower)
    (known : after.state.leaderId = some leader) :
    Shift election after (.handleHeartbeat term leader)
      (noticeOfChange election.state.leaderId leader)
  | assigned {op : Op} {leader : PeerId} (assigns : Assigns op leader)
    (role : after.state.role = if leader = election.localPeerId then .leader else .follower)
    (known : after.state.leaderId = some leader) :
    Shift election after op (noticeOfChange election.state.leaderId leader)
  | vacates {peer : PeerId} (role : after.state.role = election.state.role)
    (led : election.state.leaderId = some peer) (known : after.state.leaderId = none) :
    Shift election after (.handlePeerLeft peer) (some none)

theorem shift_apply (self : LeaderElection) (op : Op) :
    Shift self (self.apply op) op (self.notice op) := by
  cases op with
  | startElection count =>
    obtain ⟨_, heq⟩ | ⟨_, _, _, heq⟩ | ⟨_, _, _, heq⟩ := self.startElection_cases count
    · rw [apply, notice, heq]
      exact .keeps rfl rfl
    · rw [apply, notice, heq]
      exact .campaigns rfl rfl
    · rw [apply, notice, heq]
      exact .wins rfl rfl rfl
  | handleRequestVote term candidate =>
    rcases self.handleRequestVote_cases term candidate with
      ⟨_, heq⟩ | ⟨_, _, heq⟩ | ⟨_, _, heq⟩ | ⟨hhigh, heq⟩
    · rw [apply, notice, heq]
      exact .keeps rfl rfl
    · rw [apply, notice, heq]
      exact .keeps rfl rfl
    · rw [apply, notice, heq]
      exact .keeps rfl rfl
    · rw [apply, notice, heq]
      exact .deposed hhigh rfl rfl
  | handleVoteResponse term voter granted count =>
    rcases self.handleVoteResponse_cases term voter granted count with
      ⟨hhigh, heq⟩ | ⟨_, _, heq⟩ | ⟨_, _, _, heq⟩ | ⟨_, _, _, heq⟩
    · rw [apply, notice, heq]
      exact .deposed hhigh rfl rfl
    · rw [apply, notice, heq]
      exact .keeps rfl rfl
    · rw [apply, notice, heq]
      cases granted <;> exact .keeps rfl rfl
    · rw [apply, notice, heq]
      exact .wins rfl rfl rfl
  | handleHeartbeat term leader =>
    obtain ⟨_, heq⟩ | ⟨_, _, _, heq⟩ := self.handleHeartbeat_cases term leader
    · rw [apply, notice, heq]
      exact .keeps rfl rfl
    · rw [apply, notice, heq]
      exact .follows rfl rfl
  | handleLeaderAssign term leader assigner =>
    rw [apply, notice, handleLeaderAssign_eq]
    exact .assigned .handleLeaderAssign rfl rfl
  | setLeader leader => exact .assigned .setLeader rfl rfl
  | enableAutoElection enable =>
    obtain ⟨_, _, _, heq⟩ := self.enableAutoElection_cases enable
    rw [apply, notice, heq]
    exact .keeps rfl rfl
  | handlePeerLeft peer =>
    obtain ⟨_, heq⟩ | ⟨hled, _, _, heq⟩ := self.handlePeerLeft_cases peer
    · rw [apply, notice, heq]
      exact .keeps rfl rfl
    · rw [apply, notice, heq]
      exact .vacates rfl hled rfl

def LeaderKnowsItself (self : LeaderElection) : Prop :=
  self.state.role = .leader → self.state.leaderId = some self.localPeerId

theorem LeaderKnowsItself.apply {self : LeaderElection} (h : self.LeaderKnowsItself) {op : Op}
    (hop : op ≠ .handlePeerLeft self.localPeerId) : (self.apply op).LeaderKnowsItself := by
  unfold LeaderKnowsItself at *
  rw [apply_localPeerId]
  intro hlead
  have hshift := self.shift_apply op
  generalize self.notice op = value at hshift
  cases hshift with
  | keeps hrole hleader => exact hleader.trans (h (hrole ▸ hlead))
  | campaigns hrole _ => exact absurd (hrole.symm.trans hlead) nofun
  | wins _ _ hleader => exact hleader
  | deposed _ hrole _ => exact absurd (hrole.symm.trans hlead) nofun
  | follows hrole _ => exact absurd (hrole.symm.trans hlead) nofun
  | assigned _ hrole hleader =>
    rw [hrole] at hlead
    split_ifs at hlead with hself
    exact hself ▸ hleader
  | vacates hrole hled _ =>
    -- The leader that left would be the node itself.
    have hself := hled.symm.trans (h (hrole ▸ hlead))
    exact absurd (congrArg Op.handlePeerLeft (Option.some.inj hself)) hop

theorem LeaderKnowsItself.foldl {self : LeaderElection} (h : self.LeaderKnowsItself) {ops : List Op}
    (hops : ∀ op ∈ ops, op ≠ .handlePeerLeft self.localPeerId) :
    (ops.foldl LeaderElection.apply self).LeaderKnowsItself := by
  induction ops generalizing self with
  | nil => exact h
  | cons op rest ih =>
    apply ih (h.apply (hops op List.mem_cons_self))
    intro later hlater
    rw [apply_localPeerId]
    exact hops later (List.mem_cons_of_mem op hlater)

theorem knowsItself_of_new {localPeerId : PeerId} {auto : Bool} {recovery : ManualOverrideRecovery}
    {ops : List Op} (hops : ∀ op ∈ ops, op ≠ .handlePeerLeft localPeerId) :
    (ops.foldl apply (.new localPeerId auto recovery)).LeaderKnowsItself := by
  have hnew : (new localPeerId auto recovery).LeaderKnowsItself := nofun
  exact hnew.foldl hops

/-- Whatever operations ran, as long as none reported that the node itself left, a node in role
Leader knows itself as the leader. -/
theorem leader_knows_itself {localPeerId : PeerId} {auto : Bool} {recovery : ManualOverrideRecovery}
    {ops : List Op} (hops : ∀ op ∈ ops, op ≠ .handlePeerLeft localPeerId) :
    (ops.foldl apply (.new localPeerId auto recovery)).role = .leader →
      (ops.foldl apply (.new localPeerId auto recovery)).leaderId = some localPeerId := by
  intro hlead
  have hknows := knowsItself_of_new hops hlead
  rwa [localPeerId_of_foldl] at hknows

/-- A lone node elects itself, and a heartbeat that carries its own id leaves it Leader. -/
theorem lone_leader_knows_itself :
    let ops := [Op.startElection 0, .handleHeartbeat 1 ⟨"a"⟩, .handlePeerLeft ⟨"b"⟩]
    (ops.foldl apply (.new ⟨"a"⟩ true .hold)).role = .leader ∧
      (ops.foldl apply (.new ⟨"a"⟩ true .hold)).leaderId = some ⟨"a"⟩ := by
  intro ops
  have hops : ∀ op ∈ ops, op ≠ .handlePeerLeft ⟨"a"⟩ := by simp [ops]
  exact ⟨rfl, leader_knows_itself hops rfl⟩

def SelfNamedLeads (self : LeaderElection) : Prop :=
  self.state.leaderId = some self.localPeerId → self.state.role = .leader

/-- No heartbeat carries the node's own id, and the election timer starts an election only
without a leader. -/
def Customary (self : LeaderElection) : Op → Prop
  | .startElection _ => self.state.leaderId = none
  | .handleHeartbeat _ leader => leader ≠ self.localPeerId
  | _ => True

/-- No vote message of a higher term is handled while the node names itself as the leader. -/
def Undeposed (self : LeaderElection) : Op → Prop
  | .handleRequestVote term _ | .handleVoteResponse term .. =>
    self.state.currentTerm < term → self.state.leaderId ≠ some self.localPeerId
  | _ => True

instance (self : LeaderElection) : (op : Op) → Decidable (self.Customary op)
  | .startElection _ => inferInstanceAs (Decidable (_ = _))
  | .handleHeartbeat .. => inferInstanceAs (Decidable (_ ≠ _))
  | .handleRequestVote .. | .handleVoteResponse .. | .handleLeaderAssign .. | .setLeader _
  | .enableAutoElection _ | .handlePeerLeft _ => .isTrue trivial

instance (self : LeaderElection) : (op : Op) → Decidable (self.Undeposed op)
  | .handleRequestVote .. | .handleVoteResponse .. => inferInstanceAs (Decidable (_ → _))
  | .startElection _ | .handleHeartbeat .. | .handleLeaderAssign .. | .setLeader _
  | .enableAutoElection _ | .handlePeerLeft _ => .isTrue trivial

theorem undeposed_iff {self : LeaderElection} {op : Op} :
    self.Undeposed op ↔ ¬ (self.OutranksBy op ∧ self.state.leaderId = some self.localPeerId) := by
  cases op <;> simp [Undeposed, OutranksBy]

theorem SelfNamedLeads.apply {self : LeaderElection} (h : self.SelfNamedLeads) {op : Op}
    (hop : self.Customary op) (hterm : self.Undeposed op) : (self.apply op).SelfNamedLeads := by
  unfold SelfNamedLeads at *
  rw [apply_localPeerId]
  intro hnamed
  have hshift := self.shift_apply op
  generalize self.notice op = value at hshift
  cases hshift with
  | keeps hrole hknown => exact hrole.trans (h (hknown ▸ hnamed))
  | campaigns _ hknown =>
    have hnone := hknown.trans hop
    exact absurd (hnone.symm.trans hnamed) nofun
  | wins _ hrole _ => exact hrole
  | deposed houtranked _ hknown =>
    exact absurd ⟨houtranked, hknown ▸ hnamed⟩ (undeposed_iff.mp hterm)
  | follows _ hknown => exact absurd (Option.some.inj (hknown.symm.trans hnamed)) hop
  | assigned _ hrole hknown =>
    rw [hrole]
    exact if_pos (Option.some.inj (hknown.symm.trans hnamed))
  | vacates _ _ hknown => exact absurd (hknown.symm.trans hnamed) nofun

theorem not_selfNamedLeads_of_deposed {self : LeaderElection} {op : Op} (h : ¬ self.Undeposed op) :
    ¬ (self.apply op).SelfNamedLeads := by
  obtain ⟨houtranked, hnamed⟩ := not_not.mp (fun hno => h (undeposed_iff.mpr hno))
  have hafter : (self.apply op).state.role = .follower ∧
      (self.apply op).state.leaderId = self.state.leaderId := by
    cases op with
    | handleRequestVote term candidate =>
      have hhigh : self.state.currentTerm < term := houtranked
      have hlow : ¬ term < self.state.currentTerm := UInt64.not_lt.mpr (UInt64.le_of_lt hhigh)
      simp [LeaderElection.apply, handleRequestVote, hlow, hhigh]
    | handleVoteResponse term voter granted count =>
      have hhigh : self.state.currentTerm < term := houtranked
      simp [LeaderElection.apply, handleVoteResponse, hhigh]
    | _ => exact absurd houtranked id
  intro hleads
  have hrole := hleads (by rw [apply_localPeerId, hafter.2, hnamed])
  exact absurd (hafter.1.symm.trans hrole) (by simp)

theorem SelfNamedLeads.throughout_iff {self : LeaderElection} (h : self.SelfNamedLeads)
    {ops : List Op} (hops : Along step Customary self ops) :
    Throughout step SelfNamedLeads self ops ↔ Along step Undeposed self ops := by
  refine throughout_iff_along (I := SelfNamedLeads) ?_ (fun _ h => h) ?_ hops h
  · rintro m op t hm hop hterm ht
    obtain rfl := Option.some.inj ht
    exact hm.apply hop hterm
  · rintro m op _ _ hterm
    exact ⟨m.apply op, rfl, not_selfNamedLeads_of_deposed hterm⟩

theorem eq_foldl_of_run {self m : LeaderElection} {ops : List Op} (h : run step self ops = some m) :
    m = ops.foldl apply self := by
  induction ops generalizing self with
  | nil => exact (Option.some.inj h).symm
  | cons op rest ih => exact ih h

/-- `route_message(ToLeader)` has nothing to send, fails, or addresses a peer other than the node
itself. -/
def RoutesToOthers (router : SessionRouter) (lz4 : Lz4) (postcard : Postcard) (trySend : TrySend)
    (msgType : UInt16) (data : List UInt8) (userFlags : UInt8) : Prop :=
  let result := router.routeMessage lz4 postcard trySend .toLeader msgType data userFlags
  result = .ok [] ∨ result = .error (.invalidArgument "msg_type must be >= 0x0100") ∨
    result = .error .notLeader ∨
    ∃ leader, leader ≠ router.localPeerId ∧
      result = router.routeMessage lz4 postcard trySend (.toPeer leader) msgType data userFlags

theorem SelfNamedLeads.routes_to_others {router : SessionRouter}
    (hid : router.localPeerId = router.leaderElection.localPeerId)
    (h : router.leaderElection.SelfNamedLeads) (lz4 : Lz4) (postcard : Postcard) (trySend : TrySend)
    (msgType : UInt16) (data : List UInt8) (userFlags : UInt8) :
    RoutesToOthers router lz4 postcard trySend msgType data userFlags := by
  unfold RoutesToOthers SessionRouter.routeMessage
  by_cases htype : msgType < userMessageStart
  · exact .inr (.inl (if_pos htype))
  cases hlead : router.isLeader with
  | true => exact .inl (by simp [htype])
  | false =>
    cases hleader : router.leaderId with
    | none => exact .inr (.inr (.inl (by simp [htype])))
    | some leader =>
      refine .inr (.inr (.inr ⟨leader, ?_, by simp [htype]⟩))
      rintro rfl
      have hrole := h (hid ▸ hleader)
      simp [SessionRouter.isLeader, isLeader, hrole] at hlead

/-- From a fresh node, under every sequence of operations in which no heartbeat carries its id and
elections start only without a leader: the node is Leader whenever it names itself as the leader,
and never routes to itself, if and only if no vote message of a higher term is handled while it
names itself. Then `is_leader` and `leader_id` agree, unless the node was told that it left. -/
theorem self_named_leader_leads_iff {localPeerId : PeerId} {auto : Bool}
    {recovery : ManualOverrideRecovery} {ops : List Op}
    (hops : Along step Customary (.new localPeerId auto recovery) ops) :
    (Throughout step (fun m => (m.leaderId = some localPeerId → m.role = .leader) ∧
        ∀ router : SessionRouter, router.localPeerId = localPeerId → router.leaderElection = m →
          ∀ lz4 postcard trySend msgType data userFlags,
            RoutesToOthers router lz4 postcard trySend msgType data userFlags)
      (.new localPeerId auto recovery) ops ↔
      Along step Undeposed (.new localPeerId auto recovery) ops) ∧
    (Along step Undeposed (.new localPeerId auto recovery) ops →
      (∀ op ∈ ops, op ≠ .handlePeerLeft localPeerId) →
      Throughout step (fun m => m.isLeader = true ↔ m.leaderId = some localPeerId)
        (.new localPeerId auto recovery) ops) := by
  have hid : ∀ {front m}, run step (.new localPeerId auto recovery) front = some m →
      m.localPeerId = localPeerId := by
    rintro front m hrun
    rw [eq_foldl_of_run hrun, localPeerId_of_foldl]
    rfl
  have hnew : (new localPeerId auto recovery).SelfNamedLeads := nofun
  refine ⟨?_, ?_⟩
  · rw [← hnew.throughout_iff hops]
    constructor
    · rintro h front back m hacts hrun
      unfold SelfNamedLeads
      rw [hid hrun]
      exact (h front back m hacts hrun).1
    · rintro h front back m hacts hrun
      have hleads := h front back m hacts hrun
      refine ⟨hid hrun ▸ hleads, ?_⟩
      rintro router hrouter rfl
      exact hleads.routes_to_others (hrouter.trans (hid hrun).symm)
  · rintro hterms hleft front back m rfl hrun
    have hleads := (hnew.throughout_iff hops).mpr hterms front back m rfl hrun
    have hknows : m.LeaderKnowsItself := by
      rw [eq_foldl_of_run hrun]
      exact knowsItself_of_new fun op hop => hleft op (List.mem_append_left back hop)
    simp only [isLeader, beq_iff_eq]
    exact ⟨hid hrun ▸ hknows, hid hrun ▸ hleads⟩

/-- A leader that is deposed by the heartbeat of `b`, and elects itself again after `b` left. -/
theorem redeemed_leader_leads :
    let ops := [Op.startElection 0, .handleHeartbeat 2 ⟨"b"⟩, .handleRequestVote 3 ⟨"c"⟩,
      .handlePeerLeft ⟨"b"⟩, .startElection 0]
    (ops.foldl apply (.new ⟨"a"⟩ true .hold)).leaderId = some ⟨"a"⟩ ∧
      (ops.foldl apply (.new ⟨"a"⟩ true .hold)).role = .leader := by
  intro ops
  have hops : Along step Customary (.new ⟨"a"⟩ true .hold) ops := by decide
  have hstates := (self_named_leader_leads_iff hops).1.mpr (by decide)
  exact ⟨rfl, (hstates ops [] _ (List.append_nil _).symm rfl).1 rfl⟩

/-- A lone leader of term 1 answers a vote request of term 2: it is a Follower then, names itself
as the leader, and addresses a message for the leader to itself. -/
theorem deposed_leader_names_itself :
    let ops := [Op.startElection 0, .handleRequestVote 2 ⟨"b"⟩]
    let self := ops.foldl apply (.new ⟨"a"⟩ true .hold)
    Along step Customary (.new ⟨"a"⟩ true .hold) ops ∧
      self.leaderId = some ⟨"a"⟩ ∧ self.role = .follower ∧ self.isLeader = false ∧
      ∀ lz4 postcard trySend,
        (SessionRouter.mk ⟨"a"⟩ (.new ⟨"a"⟩ "room" 4000 true) self false false 1024 1024).routeMessage
          lz4 postcard trySend .toLeader 0x0100 [] 0 = .error (.peerNotFound ⟨"a"⟩) := by
  refine ⟨by decide, rfl, rfl, rfl, ?_⟩
  rintro lz4 postcard trySend
  rfl

end MetaMystia.LeaderElection

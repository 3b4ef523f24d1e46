import Mathlib.Tactic.FinCases
import MetaMystia.Election.TaskInterleaving
import MetaMystia.Election.Terms

/-! # A leader that all nodes follow keeps leading

No message on the wire is ahead of its sender's term. Once one node leads and all
others follow it in one term, whatever is still on the wire is of that term or an
earlier one, and none of it moves a node. An election timer that has looked for a
leader before there was one would: it starts its election all the same.
-/

namespace MetaMystia

/-- The term of an election message. -/
def InternalMessage.electionTerm : InternalMessage → Option UInt64
  | .heartbeat term _ _ | .requestVote term _ | .voteResponse term _ _ | .leaderAssign term _ _ => some term
  | _ => none

namespace LeaderElection

theorem value_handleRequestVote (self : LeaderElection) (term : UInt64) (candidate : PeerId) :
    (self.handleRequestVote term candidate).value.1 =
      (self.handleRequestVote term candidate).election.state.currentTerm := by
  obtain ⟨_, heq⟩ | ⟨_, _, heq⟩ | ⟨hterm, _, heq⟩ | ⟨_, heq⟩ :=
    self.handleRequestVote_cases term candidate
  · rw [heq]
  · rw [heq]
  · rw [heq]
    exact hterm
  · rw [heq]
    rfl

theorem term_le_handleMessage (self : LeaderElection) (count : Nat) (now : UInt64)
    (msg : InternalMessage) :
    self.state.currentTerm ≤ (self.handleMessage count now msg).1.state.currentTerm := by
  cases msg with
  | heartbeat term leader => exact term_le_apply (show self.InRange (.handleHeartbeat term leader) from trivial)
  | requestVote term candidate => exact term_le_apply (show self.InRange (.handleRequestVote term candidate) from trivial)
  | voteResponse term voter granted =>
    exact term_le_apply (show self.InRange (.handleVoteResponse term voter granted count) from trivial)
  | leaderAssign term leader assigner =>
    exact term_le_apply (show self.InRange (.handleLeaderAssign term leader assigner) from trivial)
  | _ => exact UInt64.le_refl _

/-- What the handler sends is of the term it is in afterwards. -/
theorem electionTerm_of_handleMessage {self : LeaderElection} {count : Nat} {now term : UInt64}
    {msg answer : InternalMessage} (hterm : answer.electionTerm = some term)
    (h : .reply answer ∈ (self.handleMessage count now msg).2 ∨
      .broadcast answer ∈ (self.handleMessage count now msg).2) :
    term = (self.handleMessage count now msg).1.state.currentTerm := by
  cases msg with
  | heartbeat term' leader timestamp =>
    simp only [handleMessage, List.mem_singleton, Outgoing.reply.injEq, reduceCtorEq, or_false] at h
    subst h
    cases hterm
  | requestVote term' candidate =>
    simp only [handleMessage, List.mem_singleton, Outgoing.reply.injEq, reduceCtorEq, or_false] at h
    subst h
    obtain rfl := Option.some.inj hterm
    exact self.value_handleRequestVote term' candidate
  | voteResponse term' voter granted =>
    simp only [handleMessage] at h ⊢
    split at h
    · simp only [List.mem_singleton, Outgoing.broadcast.injEq, reduceCtorEq, false_or] at h
      subst h
      exact (Option.some.inj hterm).symm
    · simp at h
  | _ => simp [handleMessage] at h

end LeaderElection

namespace Cluster

open LeaderElection Runs

variable {n : Nat} {ids : Fin n → PeerId} {s t : Cluster n}

/-- No message on the wire is ahead of its sender. -/
def WireTerms (s : Cluster n) : Prop :=
  ∀ env ∈ s.sent, ∀ term ∈ env.msg.electionTerm, term ≤ (s.nodes env.src).state.currentTerm

theorem wireTerms_act (h : WireTerms s) {i : Fin n} {election : LeaderElection}
    {msgs : List (Envelope n)}
    (hterm : (s.nodes i).state.currentTerm ≤ election.state.currentTerm)
    (hmsgs : ∀ env ∈ msgs, env.src = i ∧
      ∀ term ∈ env.msg.electionTerm, term = election.state.currentTerm) :
    WireTerms (s.act i election msgs) := by
  intro env henv term hmem
  obtain henv | henv := mem_act_sent.mp henv
  · by_cases hsrc : env.src = i
    · rw [hsrc, act_nodes_self]
      exact UInt64.le_trans (hsrc ▸ h env henv term hmem) hterm
    · rw [act_nodes_of_ne s hsrc]
      exact h env henv term hmem
  · obtain ⟨rfl, hsame⟩ := hmsgs env henv
    rw [act_nodes_self, hsame term hmem]
    exact UInt64.le_refl _

theorem broadcast_terms {i : Fin n} {msg : InternalMessage} {term : UInt64}
    (hmsg : ∀ t ∈ msg.electionTerm, t = term) :
    ∀ env ∈ broadcast i msg, env.src = i ∧ ∀ t ∈ env.msg.electionTerm, t = term := by
  intro env henv
  obtain ⟨hsrc, _, rfl⟩ := mem_broadcast.mp henv
  exact ⟨hsrc, hmsg⟩

theorem post_terms {i peer : Fin n} {election : LeaderElection} {out : List Outgoing}
    (hout : ∀ answer, .reply answer ∈ out ∨ .broadcast answer ∈ out →
      ∀ term ∈ answer.electionTerm, term = election.state.currentTerm) :
    ∀ env ∈ out.flatMap (Outgoing.post i peer), env.src = i ∧
      ∀ term ∈ env.msg.electionTerm, term = election.state.currentTerm := by
  intro env henv
  obtain ⟨o, ho, hposted⟩ := List.mem_flatMap.mp henv
  cases o with
  | reply answer =>
    obtain rfl := List.mem_singleton.mp hposted
    exact ⟨rfl, hout answer (.inl ho)⟩
  | broadcast answer => exact broadcast_terms (hout answer (.inr ho)) env hposted
  | connect addr => cases hposted

theorem WireTerms.startElection (h : WireTerms s) {i : Fin n}
    (hrange : (s.nodes i).InRange (.startElection (n - 1))) :
    WireTerms (s.act i ((s.nodes i).startElection (n - 1)).election
      (requestVotes i ((s.nodes i).startElection (n - 1)).value)) := by
  refine wireTerms_act h (term_le_apply hrange) ?_
  obtain ⟨_, heq⟩ | ⟨_, _, _, heq⟩ | ⟨_, _, _, heq⟩ := (s.nodes i).startElection_cases (n - 1)
  · simp [heq, requestVotes]
  · rw [heq]
    apply broadcast_terms
    rintro term ⟨⟩
    rfl
  · simp [heq, requestVotes]

theorem WireTerms.receive (h : WireTerms s) (i peer : Fin n) (now : UInt64) (msg : InternalMessage) :
    WireTerms (s.act i ((s.nodes i).handleMessage (n - 1) now msg).1
      (((s.nodes i).handleMessage (n - 1) now msg).2.flatMap (Outgoing.post i peer))) := by
  refine wireTerms_act h (term_le_handleMessage _ _ _ _) (post_terms ?_)
  exact fun answer hanswer term hterm => electionTerm_of_handleMessage hterm hanswer

theorem WireTerms.announce (h : WireTerms s) (i : Fin n) (now : UInt64) :
    WireTerms (s.act i (s.nodes i)
      (broadcast i (.heartbeat (s.nodes i).currentTerm (s.nodes i).localPeerId now))) := by
  refine wireTerms_act h (UInt64.le_refl _) (broadcast_terms ?_)
  rintro term ⟨⟩
  rfl

theorem WireTerms.silent (h : WireTerms s) {i : Fin n} (op : Op) (hrange : (s.nodes i).InRange op) :
    WireTerms (s.act i ((s.nodes i).apply op) []) :=
  wireTerms_act h (term_le_apply hrange) (by simp)

theorem wireTerms_step (h : WireTerms s) {a : Action n} (ha : s.InRange a) (hstep : s.step a = some t) :
    WireTerms t := by
  cases a with
  | startElection i =>
    obtain rfl := Option.some.inj hstep
    exact h.startElection ha
  | receive i env now =>
    simp only [step, Option.ite_none_right_eq_some, Option.some.injEq] at hstep
    obtain ⟨_, rfl⟩ := hstep
    exact h.receive i env.src now env.msg
  | heartbeat i now =>
    simp only [step, Option.ite_none_right_eq_some, Option.some.injEq] at hstep
    obtain ⟨_, rfl⟩ := hstep
    exact h.announce i now
  | handlePeerLeft i peer =>
    obtain rfl := Option.some.inj hstep
    exact h.silent (.handlePeerLeft peer) trivial
  | enableAutoElection i enable =>
    obtain rfl := Option.some.inj hstep
    exact h.silent (.enableAutoElection enable) trivial

theorem wireTerms_run {recovery : ManualOverrideRecovery} {acts : List (Action n)}
    (hrange : Along step InRange (start ids recovery) acts)
    (hrun : run step (start ids recovery) acts = some s) : WireTerms s :=
  invariant (fun _ _ _ h ha hstep => wireTerms_step h ha hstep) (by simp [WireTerms, start]) hrange hrun

/-- Node `k` is the leader `i` or follows it, in this term. -/
structure Settled (ids : Fin n → PeerId) (i : Fin n) (term : UInt64) (k : Fin n) (e : LeaderElection) :
    Prop where
  term : e.state.currentTerm = term
  leader : e.state.leaderId = some (ids i)
  role : e.state.role = if k = i then .leader else .follower

def Agreed (ids : Fin n → PeerId) (i : Fin n) (term : UInt64) (s : Cluster n) : Prop :=
  ∀ k, Settled ids i term k (s.nodes k)

variable {i k : Fin n} {term : UInt64} {e : LeaderElection} {votes : Votes n}
  {held : List (Fin n × UInt64)}

theorem Settled.handlePeerLeft (h : Settled ids i term k e) {peer : PeerId} (hpeer : peer ≠ ids i) :
    Settled ids i term k (e.handlePeerLeft peer).election := by
  obtain ⟨_, heq⟩ | ⟨hleader, _⟩ := e.handlePeerLeft_cases peer
  · rw [heq]
    exact h
  · exact absurd (Option.some.inj (h.leader.symm.trans hleader)) hpeer.symm

theorem Settled.enableAutoElection (h : Settled ids i term k e) (enable : Bool) :
    Settled ids i term k (e.enableAutoElection enable).election := by
  obtain ⟨_, _, _, heq⟩ := e.enableAutoElection_cases enable
  rw [heq]
  exact ⟨h.term, h.leader, h.role⟩

/-- A genuine message that is not ahead of the node moves nothing, if node `i` held the term alone. -/
theorem Settled.handleMessage (h : Settled ids i term k e) {src : Fin n} {msg : InternalMessage}
    (hgenuine : Genuine ids votes held ⟨src, k, msg⟩)
    (hbehind : ∀ sent ∈ msg.electionTerm, sent ≤ term) (hheld : ∀ j, (j, term) ∈ held → j = i)
    (count : Nat) (now : UInt64) : Settled ids i term k (e.handleMessage count now msg).1 := by
  obtain ⟨rfl, hleader, hrole⟩ := h
  have hnever : e.state.role ≠ .candidate := by
    rw [hrole]
    split <;> simp
  cases msg with
  | heartbeat sent leader timestamp =>
    obtain ⟨rfl, hin, hne⟩ : leader = ids src ∧ (src, sent) ∈ held ∧ k ≠ src := hgenuine
    obtain ⟨_, heq⟩ | ⟨hlow, _, _, heq⟩ := e.handleHeartbeat_cases sent (ids src)
    · simp only [LeaderElection.handleMessage, heq]
      exact ⟨rfl, hleader, hrole⟩
    · have hsent : sent = e.state.currentTerm :=
        UInt64.le_antisymm (hbehind sent rfl) (UInt64.not_lt.mp hlow)
      obtain rfl : src = i := hheld src (hsent ▸ hin)
      simp only [LeaderElection.handleMessage, heq]
      exact ⟨hsent, rfl, (if_neg hne).symm⟩
  | requestVote sent candidate =>
    have hsent : ¬ e.state.currentTerm < sent := UInt64.not_lt.mpr (hbehind sent rfl)
    obtain ⟨_, heq⟩ | ⟨_, _, heq⟩ | ⟨_, _, heq⟩ | ⟨hhigh, _⟩ := e.handleRequestVote_cases sent candidate
    · simp only [LeaderElection.handleMessage, heq]
      exact ⟨rfl, hleader, hrole⟩
    · simp only [LeaderElection.handleMessage, heq]
      exact ⟨rfl, hleader, hrole⟩
    · simp only [LeaderElection.handleMessage, heq]
      exact ⟨rfl, hleader, hrole⟩
    · exact absurd hhigh hsent
  | voteResponse sent voter granted =>
    have hsent : ¬ e.state.currentTerm < sent := UInt64.not_lt.mpr (hbehind sent rfl)
    obtain ⟨hhigh, _⟩ | ⟨_, _, heq⟩ | ⟨hcandidate, _⟩ | ⟨hcandidate, _⟩ :=
      e.handleVoteResponse_cases sent voter granted count
    · exact absurd hhigh hsent
    · simp only [LeaderElection.handleMessage, heq]
      exact ⟨rfl, hleader, hrole⟩
    · exact absurd hcandidate hnever
    · exact absurd hcandidate hnever
  | leaderAssign sent leader assigner => exact absurd hgenuine id
  | _ => exact ⟨rfl, hleader, hrole⟩

theorem Agreed.leading (h : Agreed ids i term s) (hsafe : Safe ids s votes) : (i, term) ∈ s.held := by
  have hheld := hsafe.leading i (by rw [(h i).role, if_pos rfl])
  rwa [(h i).term] at hheld

/-- What one node does to its own election leaves the agreement if it leaves that node settled. -/
theorem Agreed.act (h : Agreed ids i term s) {j : Fin n} {msgs : List (Envelope n)}
    (hsettled : Settled ids i term j e) : Agreed ids i term (s.act j e msgs) :=
  s.forall_act_nodes (Settled ids i term) hsettled fun j _ => h j

end Cluster

namespace TaskCluster

open LeaderElection Runs Cluster

variable {n : Nat} {ids : Fin n → PeerId} {s t : TaskCluster n} {i : Fin n} {term : UInt64}

/-- No election timer has found its node without a leader and is about to start an election, and no
task of another node than `i` is about to announce a leadership. -/
structure Settling (i : Fin n) (s : TaskCluster n) : Prop where
  timers : ∀ k, s.tasks k .timer ≠ .noLeader
  announcing : ∀ k task since, s.tasks k task = .announcing since → k = i

/-- The leader does not leave. -/
def Stays (leader : PeerId) : Action n → Prop
  | .handlePeerLeft _ peer => peer ≠ leader
  | _ => True

instance (leader : PeerId) : (a : Action n) → Decidable (Stays leader a)
  | .handlePeerLeft .. => inferInstanceAs (Decidable (_ ≠ _))
  | .heartbeat _ | .timer _ | .receive .. | .announce .. | .enableAutoElection .. => .isTrue trivial

theorem wireTerms_step (h : WireTerms s.cluster) {a : Action n} (ha : s.InRange a)
    (hstep : s.step a = some t) : WireTerms t.cluster := by
  rcases step_cases hstep with hcluster | ⟨i, rfl, hpc, hcluster⟩ |
    ⟨src, i, sent, voter, granted, _, hcluster⟩ | ⟨env, now, _, _, hcluster⟩ |
    ⟨i, task, since, now, rfl, _, hcluster⟩ | ⟨i, peer, rfl, hcluster⟩ | ⟨i, enable, hcluster⟩ <;>
    rw [hcluster]
  · exact h
  · exact h.startElection (ha hpc)
  · exact h.silent (.handleVoteResponse sent voter granted (n - 1)) trivial
  · exact h.receive env.dst env.src now env.msg
  · exact h.announce i now
  · exact h.silent (.handlePeerLeft peer) trivial
  · exact h.silent (.enableAutoElection enable) trivial

/-- Once all agree, a task that gets to announce or to start an election finds what they agree on. -/
theorem Settling.step (h : Settling i s) {a : Action n} (hstep : s.step a = some t)
    (hagreed : Agreed ids i term t.cluster) : Settling i t := by
  constructor
  · intro k hnone
    obtain hsame | hfound := step_tasks hstep k .timer
    · exact h.timers k (hsame.symm.trans hnone)
    · rw [hnone] at hfound
      exact absurd ((hagreed k).leader.symm.trans hfound) (by simp)
  · intro k task since hannouncing
    obtain hold | ⟨hleads, _⟩ := step_announcing hstep hannouncing
    · exact h.announcing k task since hold
    · by_contra hne
      rw [(hagreed k).role, if_neg hne] at hleads
      cases hleads

theorem Settling.undisturbed (h : Settling i s) (hagreed : Agreed ids i term s.cluster) (a : Action n) :
    s.Undisturbed a := by
  cases a with
  | announce k task now =>
    cases hpc : s.tasks k task with
    | announcing since =>
      obtain rfl := h.announcing k task since hpc
      rw [Undisturbed, hpc]
      exact .inr (by rw [isLeader, (hagreed k).role, if_pos rfl]; rfl)
    | idle | notLeader | autoEnabled | noLeader | notStarted =>
      rw [Undisturbed, hpc]
      trivial
  | heartbeat | timer | receive | handlePeerLeft | enableAutoElection => trivial

theorem Settling.inRange (h : Settling i s) (a : Action n) : s.InRange a := by
  cases a with
  | timer k => exact fun hpc => absurd hpc (h.timers k)
  | heartbeat | announce | receive | handlePeerLeft | enableAutoElection => trivial

theorem agreed_step (hids : Function.Injective ids) (hn : 3 ≤ n) {votes : Votes n}
    (hsafe : Safe ids s.cluster votes) (hwire : WireTerms s.cluster) (h : Agreed ids i term s.cluster)
    (hsettling : Settling i s) {a : Action n} (ha : Stays (ids i) a) (hstep : s.step a = some t) :
    Agreed ids i term t.cluster := by
  have hreceived : ∀ env ∈ s.cluster.sent, ∀ now, Settled ids i term env.dst
      ((s.cluster.nodes env.dst).handleMessage (n - 1) now env.msg).1 := by
    intro env hsent now
    refine (h env.dst).handleMessage (hsafe.wire env hsent) ?_ ?_ _ _
    · intro sent hterm
      rw [← (h env.src).term]
      exact hwire env hsent sent hterm
    · intro j hheld
      exact hsafe.held_unique hids hn hheld (h.leading hsafe)
  rcases step_cases hstep with hcluster | ⟨j, rfl, hpc, _⟩ |
    ⟨src, j, sent, voter, granted, hsent, hcluster⟩ | ⟨env, now, hsent, _, hcluster⟩ |
    ⟨j, task, since, now, rfl, _, hcluster⟩ | ⟨j, peer, rfl, hcluster⟩ | ⟨j, enable, hcluster⟩
  · rwa [hcluster]
  · exact absurd hpc (hsettling.timers j)
  · rw [hcluster]
    exact h.act (hreceived _ hsent 0)
  · rw [hcluster]
    exact h.act (hreceived env hsent now)
  · rw [hcluster]
    exact h.act (h j)
  · rw [hcluster]
    exact h.act ((h j).handlePeerLeft ha)
  · rw [hcluster]
    exact h.act ((h j).enableAutoElection enable)

/-- From any reached state in which one node leads and all others follow it in one term, they do so
ever after, whatever is still on the wire and however the tasks are interleaved, as long as no node
hears that the leader has left: unless a timer was past its check for a leader when they agreed, or a
task of another node past its check for leadership. -/
theorem agreement_is_stable (hn : 3 ≤ n) (hids : Function.Injective ids)
    {recovery : ManualOverrideRecovery} {acts more : List (Action n)}
    (halong : Along step Undisturbed (start ids recovery) acts)
    (hrange : Along step InRange (start ids recovery) acts)
    (hrun : run step (start ids recovery) acts = some s) (hagreed : Agreed ids i term s.cluster)
    (hsettling : Settling i s) (hmore : ∀ a ∈ more, Stays (ids i) a) (hlater : run step s more = some t) :
    Agreed ids i term t.cluster := by
  have hboth : ∃ votes, Safe ids s.cluster votes := safe_run hn hids halong hrange hrun
  have htracked : Tracked s := tracked_run halong hrun
  have hwire : WireTerms s.cluster :=
    invariant (I := fun s => WireTerms s.cluster) (fun _ _ _ h ha hstep => wireTerms_step h ha hstep)
      (by simp [WireTerms, start, Cluster.start]) hrange hrun
  have hstays : Along step (fun _ a => Stays (ids i) a) s more :=
    along_of_forall_mem (fun a ha _ => hmore a ha) s
  refine (invariant (I := fun s => (∃ votes, Safe ids s.cluster votes) ∧ Tracked s ∧
    WireTerms s.cluster ∧ Settling i s ∧ Agreed ids i term s.cluster) ?_
    ⟨hboth, htracked, hwire, hsettling, hagreed⟩ hstays hlater).2.2.2.2
  rintro s a t ⟨⟨votes, hsafe⟩, htracked, hwire, hsettling, hagreed⟩ ha hstep
  have hquiet := hsettling.undisturbed hagreed a
  have hin := hsettling.inRange a
  have hnext := agreed_step hids hn hsafe hwire hagreed hsettling ha hstep
  exact ⟨safe_step hn hids htracked hsafe hquiet hin hstep, htracked.step hquiet hstep,
    wireTerms_step hwire hin hstep, hsettling.step hstep hnext, hnext⟩

/-- Node `a` starts an election, wins with the vote of `b` and announces it; both others follow. -/
def followedElection : List (Action 3) :=
  [.timer 0, .timer 0, .timer 0, .timer 0, .receive 1 ⟨0, 1, .requestVote 1 ⟨"a"⟩⟩ 0,
    .receive 0 ⟨1, 0, .voteResponse 1 ⟨"b"⟩ true⟩ 0, .announce 0 .handler 0,
    .receive 1 ⟨0, 1, .heartbeat 1 ⟨"a"⟩ 0⟩ 0, .receive 2 ⟨0, 2, .heartbeat 1 ⟨"a"⟩ 0⟩ 0]

/-- The request for the third vote arrives late, between the checks and the announcement of the
leader's next heartbeat, and a timer of another node looks for a leader. -/
def lateRequest : List (Action 3) :=
  [.heartbeat 0, .receive 2 ⟨0, 2, .requestVote 1 ⟨"a"⟩⟩ 0, .timer 1, .timer 1, .announce 0 .heartbeat 7,
    .timer 1, .handlePeerLeft 1 ⟨"c"⟩]

theorem agreement_outlives_late_request :
    ∃ s t, run step (start threeIds .hold) followedElection = some s ∧
      run step s lateRequest = some t ∧ Agreed threeIds 0 1 t.cluster := by
  obtain ⟨s, hrun, hagreed, hidle, t, hlater⟩ : ∃ s,
      run step (start threeIds .hold) followedElection = some s ∧ Agreed threeIds 0 1 s.cluster ∧
      (∀ k task, s.tasks k task = .idle) ∧ ∃ t, run step s lateRequest = some t := by
    refine ⟨_, rfl, ?_, ?_, _, rfl⟩
    · intro k
      fin_cases k <;> exact ⟨rfl, rfl, rfl⟩
    · intro k task
      fin_cases k <;> cases task <;> rfl
  have hsettling : Settling 0 s := ⟨by simp [hidle], by simp [hidle]⟩
  exact ⟨s, t, hrun, hlater, agreement_is_stable (Nat.le_refl 3) threeIds_injective (by decide)
    (by decide) hrun hagreed hsettling (by decide) hlater⟩

end TaskCluster

end MetaMystia

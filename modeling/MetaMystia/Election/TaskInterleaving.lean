import MetaMystia.Election.Safety

/-! # The tasks of a node at lock granularity

The heartbeat task, the election timer and the message handler run side by side.
Each acquisition of the election lock is one step, so a handler may run between
the check for leadership and the read of the term that goes into the heartbeat.
-/

namespace MetaMystia

inductive Task
  | heartbeat
  | timer
  | handler
deriving DecidableEq

/-- Where a task stands between two acquisitions of the election lock. `announcing` is about to
read the term for a heartbeat; `since` records the term in which leadership was checked. -/
inductive TaskState
  | idle
  | notLeader
  | autoEnabled
  | noLeader
  | notStarted
  | announcing (since : UInt64)
deriving DecidableEq

structure TaskCluster (n : Nat) where
  cluster : Cluster n
  tasks : Fin n → Task → TaskState

namespace TaskCluster

open LeaderElection Runs Cluster

variable {n : Nat} {s next : TaskCluster n} {ids : Fin n → PeerId}

inductive Action (n : Nat)
  | heartbeat (i : Fin n)
  | timer (i : Fin n)
  | receive (i : Fin n) (env : Envelope n) (now : UInt64)
  | announce (i : Fin n) (task : Task) (now : UInt64)
  | handlePeerLeft (i : Fin n) (peer : PeerId)
  | enableAutoElection (i : Fin n) (enable : Bool)

def start (ids : Fin n → PeerId) (recovery : ManualOverrideRecovery) : TaskCluster n where
  cluster := Cluster.start ids recovery
  tasks _ _ := .idle

def set (s : TaskCluster n) (i : Fin n) (task : Task) (state : TaskState) :
    Fin n → Task → TaskState :=
  Function.update s.tasks i (Function.update (s.tasks i) task state)

/-- The next lock acquisition of the election timer of node `i`. -/
def timer (s : TaskCluster n) (i : Fin n) : Option (TaskCluster n) :=
  let node := s.cluster.nodes i
  match s.tasks i .timer with
  | .idle => some { s with tasks := s.set i .timer (if node.isLeader then .idle else .notLeader) }
  | .notLeader =>
    some { s with tasks := s.set i .timer (if node.isAutoElectionEnabled then .autoEnabled else .idle) }
  | .autoEnabled =>
    some { s with tasks := s.set i .timer (if node.leaderId.isSome then .idle else .noLeader) }
  | .noLeader =>
    let reply := node.startElection (n - 1)
    some
      { cluster := s.cluster.act i reply.election (requestVotes i reply.value)
        tasks := s.set i .timer (if reply.value.isSome then .idle else .notStarted) }
  | .notStarted =>
    some { s with
      tasks := s.set i .timer (if node.isLeader then .announcing node.currentTerm else .idle) }
  | .announcing _ => none

def receive (s : TaskCluster n) (i : Fin n) (env : Envelope n) (now : UInt64) : TaskCluster n :=
  match env.msg with
  | .voteResponse term voterId granted =>
    let reply := (s.cluster.nodes i).handleVoteResponse term voterId granted (n - 1)
    { cluster := s.cluster.act i reply.election []
      tasks := s.set i .handler
        (if reply.value then .announcing reply.election.currentTerm else .idle) }
  | msg =>
    let (election, out) := (s.cluster.nodes i).handleMessage (n - 1) now msg
    { s with cluster := s.cluster.act i election (out.flatMap (Outgoing.post i env.src)) }

def step (s : TaskCluster n) : Action n → Option (TaskCluster n)
  | .heartbeat i =>
    let node := s.cluster.nodes i
    if s.tasks i .heartbeat = .idle then
      some { s with
        tasks := s.set i .heartbeat (if node.isLeader then .announcing node.currentTerm else .idle) }
    else none
  | .timer i => s.timer i
  | .receive i env now =>
    if s.tasks i .handler = .idle ∧ env ∈ s.cluster.sent ∧ env.dst = i then
      some (s.receive i env now)
    else none
  | .announce i task now =>
    let node := s.cluster.nodes i
    match s.tasks i task with
    | .announcing _ =>
      some
        { cluster := s.cluster.act i node
            (broadcast i (.heartbeat node.currentTerm node.localPeerId now))
          tasks := s.set i task .idle }
    | _ => none
  | .handlePeerLeft i peer =>
    some { s with cluster := s.cluster.act i ((s.cluster.nodes i).handlePeerLeft peer).election [] }
  | .enableAutoElection i enable =>
    some { s with cluster := s.cluster.act i ((s.cluster.nodes i).enableAutoElection enable).election [] }

def InRange (s : TaskCluster n) : Action n → Prop
  | .timer i => s.tasks i .timer = .noLeader → (s.cluster.nodes i).InRange (.startElection (n - 1))
  | _ => True

instance (s : TaskCluster n) : (a : Action n) → Decidable (s.InRange a)
  | .timer _ => inferInstanceAs (Decidable (_ → _))
  | .heartbeat _ | .receive .. | .announce .. | .handlePeerLeft .. | .enableAutoElection .. => .isTrue trivial

/-- A task about to announce finds the node in the term its leadership was checked in, or Leader
again. -/
def UpToDate (node : LeaderElection) : TaskState → Prop
  | .announcing since => node.currentTerm = since ∨ node.isLeader = true
  | _ => True

instance (node : LeaderElection) : (state : TaskState) → Decidable (UpToDate node state)
  | .announcing _ => inferInstanceAs (Decidable (_ ∨ _))
  | .idle | .notLeader | .autoEnabled | .noLeader | .notStarted => .isTrue trivial

/-- A heartbeat's term is read only while the check for leadership is up to date. -/
def Undisturbed (s : TaskCluster n) : Action n → Prop
  | .announce i task _ => UpToDate (s.cluster.nodes i) (s.tasks i task)
  | _ => True

instance (s : TaskCluster n) : (a : Action n) → Decidable (s.Undisturbed a)
  | .announce .. => inferInstanceAs (Decidable (UpToDate _ _))
  | .heartbeat _ | .timer _ | .receive .. | .handlePeerLeft .. | .enableAutoElection .. => .isTrue trivial

def Truthful (s : TaskCluster n) : Prop :=
  ∀ env ∈ s.cluster.sent, ∀ term leader timestamp, env.msg = .heartbeat term leader timestamp →
    (env.src, term) ∈ s.cluster.held

/-- The other tasks stay where they are. -/
theorem set_or (s : TaskCluster n) {i j : Fin n} {task task' : Task} {state : TaskState}
    {P : TaskState → Prop} (h : j = i → P state) :
    s.set i task state j task' = s.tasks j task' ∨ P (s.set i task state j task') := by
  unfold set
  by_cases hj : j = i
  · subst hj
    by_cases htask : task' = task
    · subst htask
      exact .inr (by simpa using h rfl)
    · exact .inl (by simp [htask])
  · exact .inl (by simp [hj])

theorem step_cases {a : Action n} (hstep : s.step a = some next) :
    next.cluster = s.cluster ∨
    (∃ i, a = .timer i ∧ s.tasks i .timer = .noLeader ∧
      next.cluster = s.cluster.act i ((s.cluster.nodes i).startElection (n - 1)).election
        (requestVotes i ((s.cluster.nodes i).startElection (n - 1)).value)) ∨
    (∃ src i term voter granted, ⟨src, i, .voteResponse term voter granted⟩ ∈ s.cluster.sent ∧
      next.cluster = s.cluster.act i
        ((s.cluster.nodes i).handleVoteResponse term voter granted (n - 1)).election []) ∨
    (∃ env now, env ∈ s.cluster.sent ∧ (∀ term voter granted, env.msg ≠ .voteResponse term voter granted) ∧
      next.cluster = s.cluster.act env.dst
        ((s.cluster.nodes env.dst).handleMessage (n - 1) now env.msg).1
        (((s.cluster.nodes env.dst).handleMessage (n - 1) now env.msg).2.flatMap
          (Outgoing.post env.dst env.src))) ∨
    (∃ i task since now, a = .announce i task now ∧ s.tasks i task = .announcing since ∧
      next.cluster = s.cluster.act i (s.cluster.nodes i)
        (broadcast i (.heartbeat (s.cluster.nodes i).currentTerm (s.cluster.nodes i).localPeerId now))) ∨
    (∃ i peer, a = .handlePeerLeft i peer ∧
      next.cluster = s.cluster.act i ((s.cluster.nodes i).handlePeerLeft peer).election []) ∨
    (∃ i enable, next.cluster =
      s.cluster.act i ((s.cluster.nodes i).enableAutoElection enable).election []) := by
  cases a with
  | heartbeat i =>
    simp only [step, Option.ite_none_right_eq_some, Option.some.injEq] at hstep
    obtain ⟨_, rfl⟩ := hstep
    exact .inl rfl
  | timer i =>
    simp only [step, timer] at hstep
    cases hpc : s.tasks i .timer with
    | noLeader =>
      simp only [hpc, Option.some.injEq] at hstep
      subst hstep
      exact .inr (.inl ⟨i, rfl, hpc, rfl⟩)
    | announcing since => simp [hpc] at hstep
    | idle | notLeader | autoEnabled | notStarted =>
      simp only [hpc, Option.some.injEq] at hstep
      subst hstep
      exact .inl rfl
  | receive i env now =>
    simp only [step, Option.ite_none_right_eq_some, Option.some.injEq] at hstep
    obtain ⟨⟨_, hsent, rfl⟩, rfl⟩ := hstep
    obtain ⟨src, i, msg⟩ := env
    cases msg with
    | voteResponse term voter granted =>
      exact .inr (.inr (.inl ⟨src, i, term, voter, granted, hsent, rfl⟩))
    | _ => exact .inr (.inr (.inr (.inl ⟨_, now, hsent, nofun, rfl⟩)))
  | announce i task now =>
    simp only [step] at hstep
    cases hpc : s.tasks i task with
    | announcing since =>
      simp only [hpc, Option.some.injEq] at hstep
      subst hstep
      exact .inr (.inr (.inr (.inr (.inl ⟨i, task, since, now, rfl, hpc, rfl⟩))))
    | idle | notLeader | autoEnabled | noLeader | notStarted => simp [hpc] at hstep
  | handlePeerLeft i peer =>
    obtain rfl : _ = next := Option.some.inj hstep
    exact .inr (.inr (.inr (.inr (.inr (.inl ⟨i, peer, rfl, rfl⟩)))))
  | enableAutoElection i enable =>
    obtain rfl : _ = next := Option.some.inj hstep
    exact .inr (.inr (.inr (.inr (.inr (.inr ⟨i, enable, rfl⟩)))))

/-- What a task has found out about its node when it gets to a state. -/
def Found (node : LeaderElection) : TaskState → Prop
  | .noLeader => node.state.leaderId = none
  | .announcing since => node.state.role = .leader ∧ node.state.currentTerm = since
  | _ => True

theorem found_of_isLeader (e : LeaderElection) :
    Found e (if e.isLeader then .announcing e.currentTerm else .idle) := by
  by_cases hleader : e.isLeader = true
  · rw [if_pos hleader]
    exact ⟨by simpa [isLeader] using hleader, rfl⟩
  · rw [if_neg hleader]
    trivial

theorem found_of_leaderId (e : LeaderElection) :
    Found e (if e.leaderId.isSome then .idle else .noLeader) := by
  cases hleader : e.leaderId with
  | none => exact hleader
  | some leader => trivial

/-- A task announces only a leadership that its node holds at that moment, and goes on to start an
election only if its node has no leader. -/
theorem step_tasks {a : Action n} (hstep : s.step a = some next) (j : Fin n) (task' : Task) :
    next.tasks j task' = s.tasks j task' ∨ Found (next.cluster.nodes j) (next.tasks j task') := by
  cases a with
  | heartbeat i =>
    simp only [step, Option.ite_none_right_eq_some, Option.some.injEq] at hstep
    obtain ⟨_, rfl⟩ := hstep
    apply s.set_or
    rintro rfl
    exact found_of_isLeader _
  | timer i =>
    simp only [step, timer] at hstep
    cases hpc : s.tasks i .timer with
    | announcing since => simp [hpc] at hstep
    | idle | notLeader | noLeader =>
      simp only [hpc, Option.some.injEq] at hstep
      subst hstep
      apply s.set_or
      intro
      split <;> trivial
    | autoEnabled =>
      simp only [hpc, Option.some.injEq] at hstep
      subst hstep
      apply s.set_or
      rintro rfl
      exact found_of_leaderId _
    | notStarted =>
      simp only [hpc, Option.some.injEq] at hstep
      subst hstep
      apply s.set_or
      rintro rfl
      exact found_of_isLeader _
  | receive i env now =>
    simp only [step, Option.ite_none_right_eq_some, Option.some.injEq] at hstep
    obtain ⟨⟨_, hsent, rfl⟩, rfl⟩ := hstep
    obtain ⟨src, i, msg⟩ := env
    cases msg with
    | voteResponse term voter granted =>
      apply s.set_or
      rintro rfl
      simp only [receive, act_nodes_self]
      split
      · exact ⟨role_of_won ‹_›, rfl⟩
      · trivial
    | _ => exact .inl rfl
  | announce i task now =>
    simp only [step] at hstep
    cases hpc : s.tasks i task with
    | announcing since =>
      simp only [hpc, Option.some.injEq] at hstep
      subst hstep
      exact s.set_or fun _ => trivial
    | idle | notLeader | autoEnabled | noLeader | notStarted => simp [hpc] at hstep
  | handlePeerLeft i peer =>
    obtain rfl : _ = next := Option.some.inj hstep
    exact .inl rfl
  | enableAutoElection i enable =>
    obtain rfl : _ = next := Option.some.inj hstep
    exact .inl rfl

theorem step_announcing {a : Action n} (hstep : s.step a = some next) {j : Fin n} {task : Task}
    {since : UInt64} (hannouncing : next.tasks j task = .announcing since) :
    s.tasks j task = .announcing since ∨
    ((next.cluster.nodes j).state.role = .leader ∧ (next.cluster.nodes j).state.currentTerm = since) := by
  rw [← hannouncing]
  obtain hsame | hfound := step_tasks hstep j task
  · exact .inl hsame.symm
  · rw [hannouncing] at hfound
    exact .inr hfound

theorem handleMessage_silent {e : LeaderElection} {count : Nat} {now : UInt64} {env : Envelope n}
    (hmsg : ∀ term voter granted, env.msg ≠ .voteResponse term voter granted) {out : Envelope n}
    (hout : out ∈ (e.handleMessage count now env.msg).2.flatMap (Outgoing.post env.dst env.src))
    (term : UInt64) (leader : PeerId) (timestamp : UInt64) :
    out.msg ≠ .heartbeat term leader timestamp := by
  obtain ⟨src, i, msg⟩ := env
  cases msg with
  | voteResponse term voter granted => exact absurd rfl (hmsg term voter granted)
  | heartbeat | requestVote =>
    simp only [handleMessage, List.flatMap_cons, List.flatMap_nil, List.append_nil, Outgoing.post,
      List.mem_singleton] at hout
    subst hout
    simp
  | _ => simp [handleMessage] at hout

/-- Every leadership a task may still announce is on record. -/
structure Tracked (s : TaskCluster n) : Prop where
  leading : ∀ i, (s.cluster.nodes i).state.role = .leader →
    (i, (s.cluster.nodes i).state.currentTerm) ∈ s.cluster.held
  pending : ∀ i task since, s.tasks i task = .announcing since → (i, since) ∈ s.cluster.held
  truthful : Truthful s

theorem tracked_start (ids : Fin n → PeerId) (recovery : ManualOverrideRecovery) :
    Tracked (start ids recovery) := by
  constructor <;> simp [start, Cluster.start, LeaderElection.new, Truthful]

/-- The rule for one node acting: only the heartbeats it sends need a reason. -/
theorem Tracked.act (h : Tracked s) {a : Action n} (hstep : s.step a = some next) {i : Fin n}
    {after : LeaderElection} {msgs : List (Envelope n)}
    (hcluster : next.cluster = s.cluster.act i after msgs)
    (hmsgs : ∀ env ∈ msgs, ∀ term leader timestamp, env.msg = .heartbeat term leader timestamp →
      (env.src, term) ∈ s.cluster.held) : Tracked next := by
  have hheld : ∀ entry ∈ s.cluster.held, entry ∈ next.cluster.held := by
    intro entry hentry
    rw [hcluster]
    exact mem_act_held.mpr (.inl hentry)
  have hleading : ∀ j, (next.cluster.nodes j).state.role = .leader →
      (j, (next.cluster.nodes j).state.currentTerm) ∈ next.cluster.held := by
    intro j hrole
    by_cases hj : j = i
    · subst hj
      rw [hcluster, act_nodes_self] at hrole ⊢
      exact mem_act_held.mpr (.inr ⟨hrole, rfl⟩)
    · rw [hcluster, act_nodes_of_ne _ hj] at hrole ⊢
      exact mem_act_held.mpr (.inl (h.leading j hrole))
  refine ⟨hleading, ?_, ?_⟩
  · intro j task since hannouncing
    obtain hold | ⟨hrole, rfl⟩ := step_announcing hstep hannouncing
    · exact hheld _ (h.pending j task since hold)
    · exact hleading j hrole
  · intro env henv term leader timestamp hmsg
    rw [hcluster] at henv
    cases mem_act_sent.mp henv with
    | inl henv => exact hheld _ (h.truthful env henv term leader timestamp hmsg)
    | inr henv => exact hheld _ (hmsgs env henv term leader timestamp hmsg)

theorem Tracked.announced (h : Tracked s) {i : Fin n} {task : Task} {since now : UInt64}
    (ha : s.Undisturbed (.announce i task now)) (hpc : s.tasks i task = .announcing since) :
    (i, (s.cluster.nodes i).currentTerm) ∈ s.cluster.held := by
  rw [Undisturbed, hpc] at ha
  cases ha with
  | inl hterm =>
    rw [hterm]
    exact h.pending i task since hpc
  | inr hleader => exact h.leading i (by simpa [isLeader] using hleader)

theorem Tracked.step (h : Tracked s) {a : Action n} (ha : s.Undisturbed a)
    (hstep : s.step a = some next) : Tracked next := by
  rcases step_cases hstep with hcluster | ⟨i, rfl, _, hcluster⟩ |
    ⟨src, i, term, voter, granted, _, hcluster⟩ | ⟨env, now, _, hmsg, hcluster⟩ |
    ⟨i, task, since, now, rfl, hpc, hcluster⟩ | ⟨i, peer, rfl, hcluster⟩ | ⟨i, enable, hcluster⟩
  · refine ⟨hcluster ▸ h.leading, ?_, ?_⟩
    · intro j task since hannouncing
      obtain hold | ⟨hrole, rfl⟩ := step_announcing hstep hannouncing
      · exact hcluster ▸ h.pending j task since hold
      · rw [hcluster] at hrole ⊢
        exact h.leading j hrole
    · unfold Truthful
      rw [hcluster]
      exact h.truthful
  · refine h.act hstep hcluster ?_
    intro env henv term leader timestamp hmsg
    cases hreply : ((s.cluster.nodes i).startElection (n - 1)).value with
    | none => simp [hreply, requestVotes] at henv
    | some request =>
      simp only [hreply, requestVotes] at henv
      simp [(mem_broadcast.mp henv).2.2] at hmsg
  · exact h.act hstep hcluster (by simp)
  · refine h.act hstep hcluster ?_
    intro out hout term leader timestamp hheartbeat
    exact absurd hheartbeat (handleMessage_silent hmsg hout term leader timestamp)
  · refine h.act hstep hcluster ?_
    intro env henv term leader timestamp hmsg
    obtain ⟨hsrc, _, hsent⟩ := mem_broadcast.mp henv
    obtain ⟨rfl, _, _⟩ : (s.cluster.nodes i).currentTerm = term ∧
        (s.cluster.nodes i).localPeerId = leader ∧ now = timestamp := by
      simpa using hsent.symm.trans hmsg
    rw [hsrc]
    exact h.announced ha hpc
  · exact h.act hstep hcluster (by simp)
  · exact h.act hstep hcluster (by simp)

theorem tracked_run {recovery : ManualOverrideRecovery} {acts : List (Action n)}
    (halong : Along step Undisturbed (start ids recovery) acts)
    (hrun : run step (start ids recovery) acts = some s) : Tracked s :=
  invariant (I := Tracked) (fun _ _ _ h ha hstep => h.step ha hstep) (tracked_start ids recovery)
    halong hrun

theorem safe_step (hn : 3 ≤ n) (hids : Function.Injective ids) {votes : Votes n} (h : Tracked s)
    (hsafe : Safe ids s.cluster votes) {a : Action n} (ha : s.Undisturbed a) (hrange : s.InRange a)
    (hstep : s.step a = some next) : ∃ votes', Safe ids next.cluster votes' := by
  rcases step_cases hstep with hcluster | ⟨i, rfl, hpc, hcluster⟩ |
    ⟨src, i, term, voter, granted, hsent, hcluster⟩ | ⟨env, now, hsent, _, hcluster⟩ |
    ⟨i, task, since, now, rfl, hpc, hcluster⟩ | ⟨i, peer, rfl, hcluster⟩ | ⟨i, enable, hcluster⟩ <;>
    rw [hcluster]
  · exact ⟨votes, hsafe⟩
  · exact hsafe.startElection hn i (hrange hpc)
  · exact hsafe.voteResponse hsent (by simp)
  · exact hsafe.receive hids hn hsent now
  · exact hsafe.announce (h.announced ha hpc)
  · exact hsafe.handlePeerLeft i peer
  · exact hsafe.enableAutoElection i enable

theorem safe_run (hn : 3 ≤ n) (hids : Function.Injective ids) {recovery : ManualOverrideRecovery}
    {acts : List (Action n)} (halong : Along step Undisturbed (start ids recovery) acts)
    (hrange : Along step InRange (start ids recovery) acts)
    (hrun : run step (start ids recovery) acts = some s) : ∃ votes, Safe ids s.cluster votes := by
  have hboth : Tracked s ∧ ∃ votes, Safe ids s.cluster votes := by
    refine invariant (I := fun s => Tracked s ∧ ∃ votes, Safe ids s.cluster votes) ?_
      ⟨tracked_start ids recovery, ∅, safe_start ids recovery⟩ (halong.and hrange) hrun
    rintro s a next ⟨h, votes, hsafe⟩ ⟨ha, hin⟩ hstep
    exact ⟨h.step ha hstep, safe_step hn hids h hsafe ha hin hstep⟩
  exact hboth.2

/-- A heartbeat whose term was read too late names a term that its sender never led. -/
theorem not_truthful_of_disturbed (hn : 3 ≤ n) {votes : Votes n} (hsafe : Safe ids s.cluster votes)
    {a : Action n} (ha : ¬ s.Undisturbed a) : ∃ next, s.step a = some next ∧ ¬ Truthful next := by
  cases a with
  | announce i task now =>
    obtain ⟨since, hpc, hrole⟩ : ∃ since, s.tasks i task = .announcing since ∧
        (s.cluster.nodes i).state.role ≠ .leader := by
      rw [Undisturbed] at ha
      cases hpc : s.tasks i task with
      | announcing since =>
        rw [hpc, UpToDate, not_or] at ha
        exact ⟨since, rfl, by simpa [isLeader] using ha.2⟩
      | idle | notLeader | autoEnabled | noLeader | notStarted =>
        rw [hpc] at ha
        exact absurd trivial ha
    obtain ⟨j, hj⟩ : ∃ j : Fin n, j ≠ i := by
      have : Nontrivial (Fin n) := Fin.nontrivial_iff_two_le.mpr (by omega)
      exact exists_ne i
    refine ⟨_, by simp only [step, hpc]; rfl, ?_⟩
    intro htruthful
    have hheld := htruthful
      ⟨i, j, .heartbeat (s.cluster.nodes i).currentTerm (s.cluster.nodes i).localPeerId now⟩
      (mem_act_sent.mpr (.inr (mem_broadcast.mpr ⟨rfl, hj, rfl⟩))) _ _ _ rfl
    obtain hheld | ⟨hl, _⟩ := mem_act_held.mp hheld
    · exact hrole (hsafe.tenure i hheld)
    · exact hrole hl
  | heartbeat | timer | receive | handlePeerLeft | enableAutoElection => exact absurd trivial ha

/-- Heartbeats are truthful throughout a run in which no term moves on between the check for
leadership and the read of the term; as long as no term wraps, in no other run. -/
theorem truthful_iff_undisturbed (hn : 3 ≤ n) (hids : Function.Injective ids)
    (recovery : ManualOverrideRecovery) (acts : List (Action n)) :
    (Along step Undisturbed (start ids recovery) acts →
      Throughout step Truthful (start ids recovery) acts) ∧
    (Along step InRange (start ids recovery) acts →
      Throughout step Truthful (start ids recovery) acts →
      Along step Undisturbed (start ids recovery) acts) := by
  constructor
  · rintro halong front back mid rfl hmid
    exact (tracked_run (along_append_iff.mp halong).1 hmid).truthful
  · intro hrange htruthful
    by_contra hnot
    obtain ⟨front, a, back, mid, rfl, hmid, hfront, ha⟩ := exists_first_failure hnot
    obtain ⟨votes, hsafe⟩ := safe_run hn hids hfront (along_append_iff.mp hrange).1 hmid
    obtain ⟨next, hstep, hfalse⟩ := not_truthful_of_disturbed hn hsafe ha
    exact hfalse (htruthful (front ++ [a]) back next (by simp) (run_concat_iff.mpr ⟨mid, hmid, hstep⟩))

/-- Node 0 wins term 1 and checks for its next heartbeat; node 1, still without a leader, asks it
for a vote in term 2 before the heartbeat task reads the term. -/
def lateRead : List (Action 3) :=
  [.timer 0, .timer 0, .timer 0, .timer 0, .receive 1 ⟨0, 1, .requestVote 1 ⟨"a"⟩⟩ 0,
    .receive 0 ⟨1, 0, .voteResponse 1 ⟨"b"⟩ true⟩ 0, .announce 0 .handler 0, .heartbeat 0,
    .timer 1, .timer 1, .timer 1, .timer 1, .receive 0 ⟨1, 0, .requestVote 2 ⟨"b"⟩⟩ 0]

theorem truthful_before_late_read :
    ∃ s, run step (start threeIds .hold) lateRead = some s ∧ Truthful s ∧
      ⟨0, 2, .heartbeat 1 ⟨"a"⟩ 0⟩ ∈ s.cluster.sent := by
  obtain ⟨s, hrun, hsent⟩ : ∃ s, run step (start threeIds .hold) lateRead = some s ∧
      ⟨0, 2, .heartbeat 1 ⟨"a"⟩ 0⟩ ∈ s.cluster.sent := ⟨_, rfl, by decide⟩
  have htruthful := (truthful_iff_undisturbed (Nat.le_refl 3) threeIds_injective .hold lateRead).1
    (by decide)
  exact ⟨s, hrun, htruthful lateRead [] s (List.append_nil _).symm hrun, hsent⟩

theorem untruthful_heartbeat_after_late_read :
    ∃ s, run step (start threeIds .hold) (lateRead ++ [.announce 0 .heartbeat 0]) = some s ∧
      ⟨0, 2, .heartbeat 2 ⟨"a"⟩ 0⟩ ∈ s.cluster.sent ∧ (0, 2) ∉ s.cluster.held := by
  exact ⟨_, rfl, by decide, by decide⟩

end TaskCluster

end MetaMystia

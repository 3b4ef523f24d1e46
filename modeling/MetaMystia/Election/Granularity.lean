import MetaMystia.Election.TaskInterleaving

/-! # Ticks and handlers as single steps

A cluster takes a tick of a timer and the handling of a message as one step. Every
interleaving of the lock sections in which no heartbeat's term is read late is also a
run of the cluster, and every run of the cluster in which elections start as the timer
starts them is one of the lock sections.
-/

namespace MetaMystia

open LeaderElection Runs

variable {n : Nat} {ids : Fin n → PeerId}

namespace Cluster

variable {c d : Cluster n}

/-- The nodes are the same; more may have been sent, more leaderships may be on record. -/
structure Covers (c d : Cluster n) : Prop where
  nodes : c.nodes = d.nodes
  sent : d.sent ⊆ c.sent
  held : d.held ⊆ c.held

theorem Covers.act (h : Covers c d) (i : Fin n) (e : LeaderElection) {more msgs : List (Envelope n)}
    (hmsgs : msgs ⊆ more) : Covers (c.act i e more) (d.act i e msgs) := by
  refine ⟨?_, ?_, ?_⟩
  · simp only [Cluster.act, h.nodes]
  · intro env henv
    exact mem_act_sent.mpr ((mem_act_sent.mp henv).imp (fun hold => h.sent hold) fun hnew => hmsgs hnew)
  · intro entry hentry
    exact mem_act_held.mpr ((mem_act_held.mp hentry).imp_left fun hold => h.held hold)

theorem Covers.announce (h : Covers c d) (i : Fin n) (e : LeaderElection) (msgs : List (Envelope n)) :
    Covers ((c.act i e []).act i e msgs) (d.act i e msgs) := by
  refine ⟨?_, ?_, ?_⟩
  · simp only [Cluster.act, h.nodes, Function.update_idem]
  · intro env henv
    exact mem_act_sent.mpr ((mem_act_sent.mp henv).imp_left fun hold => mem_act_sent.mpr (.inl (h.sent hold)))
  · intro entry hentry
    exact mem_act_held.mpr ((mem_act_held.mp hentry).imp_left fun hold => mem_act_held.mpr (.inl (h.held hold)))

def TimerStarts (s : Cluster n) : Action n → Prop
  | .startElection i => (s.nodes i).isLeader = false ∧ (s.nodes i).isAutoElectionEnabled = true ∧
      (s.nodes i).leaderId = none
  | _ => True

end Cluster

namespace TaskCluster

open Cluster

variable {s next : TaskCluster n} {c d : Cluster n}

/-- A heartbeat's term that is read in time is read by a leader. -/
theorem Tracked.leads (h : Tracked s) {votes : Votes n} (hsafe : Safe ids s.cluster votes) {i : Fin n}
    {task : Task} {since now : UInt64} (ha : s.Undisturbed (.announce i task now))
    (hpc : s.tasks i task = .announcing since) : (s.cluster.nodes i).isLeader = true := by
  rw [isLeader, hsafe.tenure i (h.announced ha hpc)]
  rfl

theorem exists_cluster_step (h : Tracked s) {votes : Votes n} (hsafe : Safe ids s.cluster votes)
    (hcovers : Covers c s.cluster) {a : Action n} (ha : s.Undisturbed a) (hrange : s.InRange a)
    (hstep : s.step a = some next) :
    ∃ acts d, Along Cluster.step Cluster.InRange c acts ∧ run Cluster.step c acts = some d ∧
      Covers d next.cluster := by
  have hone : ∀ (b : Cluster.Action n) {d : Cluster n}, c.InRange b → c.step b = some d →
      Covers d next.cluster → ∃ acts d, Along Cluster.step Cluster.InRange c acts ∧
        run Cluster.step c acts = some d ∧ Covers d next.cluster := by
    intro b d hb hd hnext
    exact ⟨[b], d, ⟨hb, fun _ _ => trivial⟩, run_cons_iff.mpr ⟨d, hd, rfl⟩, hnext⟩
  have hsent : ∀ env ∈ s.cluster.sent, ∀ now, c.step (.receive env.dst env now) =
      some (c.act env.dst ((s.cluster.nodes env.dst).handleMessage (n - 1) now env.msg).1
        (((s.cluster.nodes env.dst).handleMessage (n - 1) now env.msg).2.flatMap
          (Outgoing.post env.dst env.src))) := by
    intro env henv now
    rw [← hcovers.nodes]
    exact if_pos ⟨hcovers.sent henv, rfl⟩
  rcases step_cases hstep with hcluster | ⟨i, rfl, hpc, hcluster⟩ |
    ⟨src, i, term, voter, granted, henv, hcluster⟩ | ⟨env, now, henv, _, hcluster⟩ |
    ⟨i, task, since, now, rfl, hpc, hcluster⟩ | ⟨i, peer, rfl, hcluster⟩ | ⟨i, enable, hcluster⟩ <;>
    rw [hcluster] at hone ⊢
  · exact ⟨[], c, trivial, rfl, hcovers⟩
  · refine hone (.startElection i) ?_ rfl ?_
    · rw [Cluster.InRange, hcovers.nodes]
      exact hrange hpc
    · rw [hcovers.nodes]
      exact hcovers.act i _ (List.Subset.refl _)
  · -- the heartbeat of a winner is on the wire as soon as it has won
    exact hone (.receive i ⟨src, i, .voteResponse term voter granted⟩ 0) trivial (hsent _ henv 0)
      (hcovers.act i _ (List.nil_subset _))
  · exact hone (.receive env.dst env now) trivial (hsent env henv now)
      (hcovers.act env.dst _ (List.Subset.refl _))
  · refine hone (.heartbeat i now) trivial (if_pos ?_) ?_
    · rw [hcovers.nodes]
      exact h.leads hsafe ha hpc
    · rw [hcovers.nodes]
      exact hcovers.act i _ (List.Subset.refl _)
  · refine hone (.handlePeerLeft i peer) trivial rfl ?_
    rw [hcovers.nodes]
    exact hcovers.act i _ (List.Subset.refl _)
  · refine hone (.enableAutoElection i enable) trivial rfl ?_
    rw [hcovers.nodes]
    exact hcovers.act i _ (List.Subset.refl _)

/-- Every interleaving of the lock sections in which no heartbeat's term is read late and no term
wraps is covered by a run of whole ticks and handlers in which none wraps. -/
theorem exists_cluster_run (hn : 3 ≤ n) (hids : Function.Injective ids)
    {recovery : ManualOverrideRecovery} {acts : List (Action n)}
    (halong : Along step Undisturbed (start ids recovery) acts)
    (hrange : Along step InRange (start ids recovery) acts)
    (hrun : run step (start ids recovery) acts = some s) :
    ∃ acts' c, Along Cluster.step Cluster.InRange (Cluster.start ids recovery) acts' ∧
      run Cluster.step (Cluster.start ids recovery) acts' = some c ∧ Covers c s.cluster := by
  have hstart : Covers (Cluster.start ids recovery) (start ids recovery).cluster :=
    ⟨rfl, List.Subset.refl _, List.Subset.refl _⟩
  have hstep : ∀ (s : TaskCluster n) (c : Cluster n) (a : Action n) (next : TaskCluster n),
      (Tracked s ∧ (∃ votes, Safe ids s.cluster votes) ∧ Covers c s.cluster) →
      (s.Undisturbed a ∧ s.InRange a) → s.step a = some next →
      ∃ acts d, Along Cluster.step Cluster.InRange c acts ∧ run Cluster.step c acts = some d ∧
        Tracked next ∧ (∃ votes, Safe ids next.cluster votes) ∧ Covers d next.cluster := by
    rintro s c a next ⟨h, ⟨votes, hsafe⟩, hcovers⟩ ⟨ha, hin⟩ hstep
    obtain ⟨acts, d, halong, hd, hnext⟩ := exists_cluster_step h hsafe hcovers ha hin hstep
    exact ⟨acts, d, halong, hd, h.step ha hstep, safe_step hn hids h hsafe ha hin hstep, hnext⟩
  obtain ⟨acts', c, hin, hc, _, _, hcovers⟩ := exists_run_of_simulation hstep
    ⟨tracked_start ids recovery, ⟨∅, safe_start ids recovery⟩, hstart⟩ (halong.and hrange) hrun
  exact ⟨acts', c, hin, hc, hcovers⟩

/-- What the cluster has on record, the lock sections have: a term has one leader there, too. -/
theorem leader_unique (hn : 3 ≤ n) (hids : Function.Injective ids) {recovery : ManualOverrideRecovery}
    {acts : List (Action n)} (halong : Along step Undisturbed (start ids recovery) acts)
    (hrange : Along step InRange (start ids recovery) acts)
    (hrun : run step (start ids recovery) acts = some s) {i j : Fin n} {term : UInt64}
    (hi : (i, term) ∈ s.cluster.held) (hj : (j, term) ∈ s.cluster.held) : i = j := by
  obtain ⟨acts', c, hin, hc, hcovers⟩ := exists_cluster_run hn hids halong hrange hrun
  obtain ⟨votes, hsafe⟩ := Cluster.safe_run hids hn hin hc
  exact hsafe.held_unique hids hn (hcovers.held hi) (hcovers.held hj)

@[simp] theorem set_self (s : TaskCluster n) (i : Fin n) (task : Task) (state : TaskState) :
    s.set i task state i task = state := by
  simp [set]

theorem set_set (s : TaskCluster n) (cluster : Cluster n) (i : Fin n) (task : Task)
    (state state' : TaskState) :
    ({ cluster, tasks := s.set i task state } : TaskCluster n).set i task state' = s.set i task state' := by
  simp [set]

def Idle (s : TaskCluster n) : Prop := ∀ i task, s.tasks i task = .idle

theorem Idle.set (h : s.Idle) (cluster : Cluster n) (i : Fin n) (task : Task) :
    Idle { cluster, tasks := s.set i task .idle } := by
  intro j task'
  have hset : s.set i task .idle j task' = s.tasks j task' ∨ s.set i task .idle j task' = .idle := by
    apply s.set_or (P := (· = .idle))
    exact fun _ => rfl
  obtain hsame | hidle := hset
  · exact hsame.trans (h j task')
  · exact hidle

theorem run_timer (h : s.Idle) (hn : 3 ≤ n) {i : Fin n} (hstarts : s.cluster.TimerStarts (.startElection i)) :
    ∃ acts, run step s acts = some
      { cluster := s.cluster.act i ((s.cluster.nodes i).startElection (n - 1)).election
          (requestVotes i ((s.cluster.nodes i).startElection (n - 1)).value)
        tasks := s.set i .timer .idle } := by
  obtain ⟨hrole, hauto, hleader⟩ := hstarts
  have hchecks : run step s [.timer i, .timer i, .timer i] =
      some { s with tasks := s.set i .timer .noLeader } := by
    simp [run, step, timer, h i .timer, hrole, hauto, hleader, set_set]
  obtain ⟨_, heq⟩ | ⟨_, _, _, heq⟩ | ⟨_, _, hfew, _⟩ := (s.cluster.nodes i).startElection_cases (n - 1)
  · refine ⟨[.timer i, .timer i, .timer i] ++ [.timer i, .timer i], run_append_iff.mpr ⟨_, hchecks, ?_⟩⟩
    simp [run, step, timer, set_set, heq, requestVotes, hrole]
  · refine ⟨[.timer i, .timer i, .timer i] ++ [.timer i], run_append_iff.mpr ⟨_, hchecks, ?_⟩⟩
    simp [run, step, timer, set_set, heq]
  · have hmajority : 1 < majorityThreshold (1 + (n - 1)) := one_lt_majorityThreshold (by omega)
    omega

/-- A winner announces its leadership before its handler goes on. -/
theorem exists_task_win (h : s.Idle) (hcovers : Covers s.cluster c) {src i : Fin n} {term : UInt64}
    {voter : PeerId} {granted : Bool} {now : UInt64}
    (hreceive : s.step (.receive i ⟨src, i, .voteResponse term voter granted⟩ now) =
      some (s.receive i ⟨src, i, .voteResponse term voter granted⟩ now)) :
    ∃ acts t, run step s acts = some t ∧ t.Idle ∧ Covers t.cluster (c.act i
      ((s.cluster.nodes i).handleMessage (n - 1) now (.voteResponse term voter granted)).1
      (((s.cluster.nodes i).handleMessage (n - 1) now (.voteResponse term voter granted)).2.flatMap
        (Outgoing.post i src))) := by
  have hlocal : ((s.cluster.nodes i).handleVoteResponse term voter granted (n - 1)).election.localPeerId =
      (s.cluster.nodes i).localPeerId := by
    obtain ⟨_, heq⟩ | ⟨_, _, heq⟩ | ⟨_, _, _, heq⟩ | ⟨_, _, _, heq⟩ :=
      (s.cluster.nodes i).handleVoteResponse_cases term voter granted (n - 1) <;> rw [heq]
  simp only [handleMessage]
  simp only [receive] at hreceive
  generalize (s.cluster.nodes i).handleVoteResponse term voter granted (n - 1) = response at hreceive hlocal ⊢
  by_cases hwon : response.value = true
  · rw [if_pos hwon] at hreceive ⊢
    have hrun : run step s
        [.receive i ⟨src, i, .voteResponse term voter granted⟩ now, .announce i .handler now] = some
          { cluster := (s.cluster.act i response.election []).act i response.election (broadcast i
              (.heartbeat response.election.currentTerm (s.cluster.nodes i).localPeerId now))
            tasks := s.set i .handler .idle } := by
      refine run_cons_iff.mpr ⟨_, hreceive, run_cons_iff.mpr ⟨_, ?_, rfl⟩⟩
      simp [step, set_set, hlocal]
    simp only [List.flatMap_cons, List.flatMap_nil, List.append_nil, Outgoing.post]
    exact ⟨_, _, hrun, h.set _ i .handler, hcovers.announce i response.election _⟩
  · rw [if_neg hwon] at hreceive ⊢
    exact ⟨[_], _, run_cons_iff.mpr ⟨_, hreceive, rfl⟩, h.set _ i .handler,
      hcovers.act i _ (List.Subset.refl _)⟩

theorem exists_task_step (hn : 3 ≤ n) (h : s.Idle) (hcovers : Covers s.cluster c) {a : Cluster.Action n}
    (ha : c.TimerStarts a) (hstep : c.step a = some d) :
    ∃ acts t, run step s acts = some t ∧ t.Idle ∧ Covers t.cluster d := by
  cases a with
  | startElection i =>
    obtain rfl := Option.some.inj hstep
    rw [← hcovers.nodes]
    have hstarts : s.cluster.TimerStarts (.startElection i) := by
      rw [TimerStarts, hcovers.nodes]
      exact ha
    obtain ⟨acts, hrun⟩ := run_timer h hn hstarts
    exact ⟨acts, _, hrun, h.set _ i .timer, hcovers.act i _ (List.Subset.refl _)⟩
  | receive i env now =>
    simp only [Cluster.step, Option.ite_none_right_eq_some, Option.some.injEq] at hstep
    obtain ⟨⟨hsent, rfl⟩, rfl⟩ := hstep
    rw [← hcovers.nodes]
    have hreceive : s.step (.receive env.dst env now) = some (s.receive env.dst env now) :=
      if_pos ⟨h env.dst .handler, hcovers.sent hsent, rfl⟩
    obtain ⟨src, i, msg⟩ := env
    cases msg with
    | voteResponse term voter granted => exact exists_task_win h hcovers hreceive
    | _ => exact ⟨[_], _, run_cons_iff.mpr ⟨_, hreceive, rfl⟩, h, hcovers.act i _ (List.Subset.refl _)⟩
  | heartbeat i now =>
    simp only [Cluster.step, Option.ite_none_right_eq_some, Option.some.injEq] at hstep
    obtain ⟨hleads, rfl⟩ := hstep
    rw [← hcovers.nodes] at hleads ⊢
    have hrun : run step s [.heartbeat i, .announce i .heartbeat now] = some
        { cluster := s.cluster.act i (s.cluster.nodes i) (broadcast i
            (.heartbeat (s.cluster.nodes i).currentTerm (s.cluster.nodes i).localPeerId now))
          tasks := s.set i .heartbeat .idle } := by
      simp [run, step, h i .heartbeat, hleads, set_set]
    exact ⟨_, _, hrun, h.set _ i .heartbeat, hcovers.act i _ (List.Subset.refl _)⟩
  | handlePeerLeft i peer =>
    obtain rfl := Option.some.inj hstep
    rw [← hcovers.nodes]
    exact ⟨[.handlePeerLeft i peer], _, rfl, h, hcovers.act i _ (List.Subset.refl _)⟩
  | enableAutoElection i enable =>
    obtain rfl := Option.some.inj hstep
    rw [← hcovers.nodes]
    exact ⟨[.enableAutoElection i enable], _, rfl, h, hcovers.act i _ (List.Subset.refl _)⟩

/-- Every run of whole ticks and handlers in which elections start as the election timer starts them
is one of the lock sections. -/
theorem exists_task_run (hn : 3 ≤ n) {recovery : ManualOverrideRecovery} {acts : List (Cluster.Action n)}
    (halong : Along Cluster.step TimerStarts (Cluster.start ids recovery) acts)
    (hrun : run Cluster.step (Cluster.start ids recovery) acts = some c) :
    ∃ acts' s, run step (start ids recovery) acts' = some s ∧ s.Idle ∧ Covers s.cluster c := by
  have hstep : ∀ (c : Cluster n) (s : TaskCluster n) (a : Cluster.Action n) (d : Cluster n),
      (s.Idle ∧ Covers s.cluster c) → c.TimerStarts a → c.step a = some d →
      ∃ acts t, Along step (fun _ _ => True) s acts ∧ run step s acts = some t ∧
        t.Idle ∧ Covers t.cluster d := by
    rintro c s a d ⟨h, hcovers⟩ ha hstep
    obtain ⟨acts, t, ht, hnext⟩ := exists_task_step hn h hcovers ha hstep
    exact ⟨acts, t, along_of_forall (fun _ _ => trivial) s acts, ht, hnext⟩
  have hstart : Covers (start ids recovery).cluster (Cluster.start ids recovery) :=
    ⟨rfl, List.Subset.refl _, List.Subset.refl _⟩
  obtain ⟨acts', s, _, hs, hcovers⟩ := exists_run_of_simulation hstep ⟨fun _ _ => rfl, hstart⟩ halong hrun
  exact ⟨acts', s, hs, hcovers⟩

end TaskCluster

end MetaMystia

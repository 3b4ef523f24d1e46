import MetaMystia.Election.Cluster
import Mathlib.Data.Fin.VecNotation
import Mathlib.Data.Fintype.Basic

/-! # Split-brain resolution

Several nodes lead at once and only heartbeats are exchanged. Among the leaders
one is largest by term, then id: it never steps down, and whoever hears from it
follows it.
-/

namespace MetaMystia.Cluster

open LeaderElection Runs

variable {n : Nat} {s t : Cluster n} {m : Fin n}

def HeartbeatOnly : Action n → Prop
  | .heartbeat .. => True
  | .receive _ env _ => ∃ term leader timestamp, env.msg = .heartbeat term leader timestamp
  | _ => False

/-- The node whose message the action hands to node `i`. -/
def senderTo (i : Fin n) : Action n → Option (Fin n)
  | .receive j env _ => if j = i then some env.src else none
  | _ => none

def heardBy (i : Fin n) (acts : List (Action n)) : List (Fin n) := acts.filterMap (senderTo i)

/-- Node `m` leads, and no other leader has a larger term or, in its term, a larger id. -/
structure Dominant (s : Cluster n) (m : Fin n) : Prop where
  distinct : Function.Injective fun i => (s.nodes i).localPeerId
  automatic : ∀ i, (s.nodes i).state.manualOverride = false
  settled : ∀ i, (s.nodes i).state.role = .leader ∨ (s.nodes i).state.role = .follower
  leads : (s.nodes m).state.role = .leader
  largest : ∀ i, (s.nodes i).state.role = .leader →
    (s.nodes i).state.currentTerm < (s.nodes m).state.currentTerm ∨
    ((s.nodes i).state.currentTerm = (s.nodes m).state.currentTerm ∧
      (s.nodes i).localPeerId ≤ (s.nodes m).localPeerId)
  below : ∀ i, (s.nodes i).state.currentTerm ≤ (s.nodes m).state.currentTerm

/-- A heartbeat that a leader of the cluster may have sent. -/
def Outranked (s : Cluster n) (m : Fin n) (env : Envelope n) : Prop :=
  ∀ term leader timestamp, env.msg = .heartbeat term leader timestamp →
    leader = (s.nodes env.src).localPeerId ∧
    (term < (s.nodes m).state.currentTerm ∨
      (term = (s.nodes m).state.currentTerm ∧ leader ≤ (s.nodes m).localPeerId)) ∧
    (env.src = m → term = (s.nodes m).state.currentTerm)

/-- The states a run of heartbeats can reach from `s`. -/
structure Resolving (s : Cluster n) (m : Fin n) (t : Cluster n) : Prop where
  ident : ∀ i, (t.nodes i).localPeerId = (s.nodes i).localPeerId
  keeps : t.nodes m = s.nodes m
  dominant : Dominant t m
  wire : ∀ env ∈ t.sent, Outranked s m env

theorem Dominant.resolving (h : Dominant s m) (hsent : s.sent = []) : Resolving s m s where
  ident _ := rfl
  keeps := rfl
  dominant := h
  wire := by simp [hsent]

theorem handleHeartbeat_outcome {e : LeaderElection} (hauto : e.state.manualOverride = false)
    (term : UInt64) (leader : PeerId) :
    ((e.handleHeartbeat term leader).election = e ∧ (term < e.state.currentTerm ∨
      (e.state.role = .leader ∧ term = e.state.currentTerm ∧ ¬ e.localPeerId < leader))) ∨
    ((e.handleHeartbeat term leader).election = { e with state := follow e.state term leader } ∧
      ¬ term < e.state.currentTerm ∧
      (e.state.role = .leader → e.state.currentTerm < term ∨ e.localPeerId < leader)) := by
  obtain ⟨hrejected, heq⟩ | ⟨hlow, _, hstep, heq⟩ := e.handleHeartbeat_cases term leader
  · refine .inl ⟨by rw [heq], ?_⟩
    obtain hlow | ⟨hman, _⟩ | hrank := hrejected
    · exact .inl hlow
    · simp [hauto] at hman
    · exact .inr hrank
  · exact .inr ⟨by rw [heq], hlow, hstep⟩

theorem Resolving.rejects (h : Resolving s m t) {src : Fin n} {term timestamp : UInt64}
    {leader : PeerId} (hsent : ⟨src, m, .heartbeat term leader timestamp⟩ ∈ t.sent) :
    ((t.nodes m).handleHeartbeat term leader).election = t.nodes m := by
  obtain ⟨heq, _⟩ | ⟨_, hlow, hstep⟩ := handleHeartbeat_outcome (h.dominant.automatic m) term leader
  · exact heq
  · obtain ⟨_, hrank, _⟩ := h.wire _ hsent term leader timestamp rfl
    rw [← h.keeps] at hrank
    obtain hlt | ⟨rfl, hid⟩ := hrank
    · exact absurd hlt hlow
    · obtain hlt | hid' := hstep h.dominant.leads
      · exact absurd hlt (UInt64.lt_irrefl _)
      · exact absurd hid (not_le.mpr hid')

theorem Resolving.follows (h : Resolving s m t) {i : Fin n} (hi : i ≠ m) {term timestamp : UInt64}
    {leader : PeerId} (hsent : ⟨m, i, .heartbeat term leader timestamp⟩ ∈ t.sent) :
    ((t.nodes i).handleHeartbeat term leader).election = { t.nodes i with
      state := follow (t.nodes i).state (s.nodes m).state.currentTerm (s.nodes m).localPeerId } := by
  obtain ⟨hleader, _, hterm⟩ := h.wire _ hsent term leader timestamp rfl
  obtain rfl : leader = (s.nodes m).localPeerId := hleader
  obtain rfl := hterm rfl
  have hbelow := h.dominant.below i
  rw [h.keeps] at hbelow
  rcases handleHeartbeat_outcome (h.dominant.automatic i) (s.nodes m).state.currentTerm
    (s.nodes m).localPeerId with ⟨_, hlow | ⟨hleader, hterm, hid⟩⟩ | ⟨heq, _⟩
  · exact absurd hbelow (UInt64.not_le.mpr hlow)
  · have hlargest := h.dominant.largest i hleader
    rw [h.keeps] at hlargest
    have hle : (t.nodes i).localPeerId ≤ (s.nodes m).localPeerId := by
      obtain hlt | ⟨_, hle⟩ := hlargest
      · exact absurd (hterm ▸ hlt) (UInt64.lt_irrefl _)
      · exact hle
    have hne : (t.nodes i).localPeerId ≠ (s.nodes m).localPeerId := by
      intro heq
      refine hi (h.dominant.distinct ?_)
      rw [← h.keeps] at heq
      exact heq
    exact absurd (lt_of_le_of_ne hle hne) hid
  · exact heq

/-- A node stays as it is, or a node other than the largest leader turns Follower. -/
theorem Resolving.act (h : Resolving s m t) {i : Fin n} {after : LeaderElection}
    {msgs : List (Envelope n)} (hident : after.localPeerId = (t.nodes i).localPeerId)
    (hauto : after.state.manualOverride = false)
    (hterm : after.state.currentTerm ≤ (t.nodes m).state.currentTerm)
    (hrole : after = t.nodes i ∨ (i ≠ m ∧ after.state.role = .follower))
    (hmsgs : ∀ env ∈ msgs, Outranked s m env) : Resolving s m (t.act i after msgs) := by
  have hm : (t.act i after msgs).nodes m = t.nodes m := by
    by_cases hi : m = i
    · subst hi
      obtain rfl | ⟨hne, _⟩ := hrole
      · exact act_nodes_self ..
      · exact absurd rfl hne
    · exact act_nodes_of_ne _ hi _ _
  have hids : ∀ j, ((t.act i after msgs).nodes j).localPeerId = (t.nodes j).localPeerId :=
    t.forall_act_nodes (fun j e => e.localPeerId = (t.nodes j).localPeerId) hident fun _ _ => rfl
  refine ⟨fun j => (hids j).trans (h.ident j), hm.trans h.keeps, ?_, ?_⟩
  · constructor
    · simpa only [hids] using h.dominant.distinct
    · exact t.forall_act_nodes (fun _ e => e.state.manualOverride = false) hauto fun j _ =>
        h.dominant.automatic j
    · refine t.forall_act_nodes (fun _ e => e.state.role = .leader ∨ e.state.role = .follower) ?_
        fun j _ => h.dominant.settled j
      obtain rfl | ⟨_, hfollower⟩ := hrole
      · exact h.dominant.settled i
      · exact .inr hfollower
    · rw [hm]
      exact h.dominant.leads
    · intro j hleader
      rw [hids, hids, hm]
      by_cases hj : j = i
      · subst hj
        rw [act_nodes_self] at hleader ⊢
        obtain rfl | ⟨_, hfollower⟩ := hrole
        · exact h.dominant.largest j hleader
        · simp [hfollower] at hleader
      · rw [act_nodes_of_ne _ hj] at hleader ⊢
        exact h.dominant.largest j hleader
    · rw [hm]
      exact t.forall_act_nodes (fun _ e => e.state.currentTerm ≤ (t.nodes m).state.currentTerm) hterm
        fun j _ => h.dominant.below j
  · intro env henv
    cases mem_act_sent.mp henv with
    | inl henv => exact h.wire env henv
    | inr henv => exact hmsgs env henv

theorem Resolving.receive (h : Resolving s m t) {src i : Fin n} {term timestamp : UInt64}
    {leader : PeerId} (hsent : ⟨src, i, .heartbeat term leader timestamp⟩ ∈ t.sent) :
    Resolving s m (t.act i ((t.nodes i).handleHeartbeat term leader).election
      [⟨i, src, .heartbeatResponse term timestamp⟩]) := by
  have hmsgs : ∀ env ∈ [⟨i, src, .heartbeatResponse term timestamp⟩], Outranked s m env := by
    simp [Outranked]
  obtain ⟨heq, _⟩ | ⟨heq, _, _⟩ := handleHeartbeat_outcome (h.dominant.automatic i) term leader
  · rw [heq]
    exact h.act rfl (h.dominant.automatic i) (h.dominant.below i) (.inl rfl) hmsgs
  by_cases hi : i = m
  · subst hi
    rw [h.rejects hsent]
    exact h.act rfl (h.dominant.automatic i) (h.dominant.below i) (.inl rfl) hmsgs
  · rw [heq]
    refine h.act rfl (h.dominant.automatic i) ?_ (.inr ⟨hi, rfl⟩) hmsgs
    obtain ⟨_, hrank, _⟩ := h.wire _ hsent term leader timestamp rfl
    rw [h.keeps]
    obtain hlt | ⟨rfl, _⟩ := hrank
    · exact UInt64.le_of_lt hlt
    · exact UInt64.le_refl _

theorem Resolving.heartbeat (h : Resolving s m t) {i : Fin n} (now : UInt64)
    (hleader : (t.nodes i).state.role = .leader) :
    Resolving s m (t.act i (t.nodes i)
      (broadcast i (.heartbeat (t.nodes i).currentTerm (t.nodes i).localPeerId now))) := by
  refine h.act rfl (h.dominant.automatic i) (h.dominant.below i) (.inl rfl) ?_
  intro env henv term leader timestamp hmsg
  obtain ⟨rfl, _, hsent⟩ := mem_broadcast.mp henv
  obtain ⟨rfl, rfl, rfl⟩ : (t.nodes env.src).currentTerm = term ∧
      (t.nodes env.src).localPeerId = leader ∧ now = timestamp := by
    simpa using hsent.symm.trans hmsg
  refine ⟨h.ident _, ?_, ?_⟩
  · rw [← h.keeps]
    exact h.dominant.largest env.src hleader
  · rintro hsrc
    rw [hsrc, h.keeps]
    rfl

theorem step_heartbeatOnly_cases {a : Action n} {next : Cluster n} (ha : HeartbeatOnly a)
    (hstep : t.step a = some next) :
    (∃ i now, a = .heartbeat i now ∧ (t.nodes i).state.role = .leader ∧
      next = t.act i (t.nodes i)
        (broadcast i (.heartbeat (t.nodes i).currentTerm (t.nodes i).localPeerId now))) ∨
    (∃ src i term leader timestamp now,
      a = .receive i ⟨src, i, .heartbeat term leader timestamp⟩ now ∧
      ⟨src, i, .heartbeat term leader timestamp⟩ ∈ t.sent ∧
      next = t.act i ((t.nodes i).handleHeartbeat term leader).election
        [⟨i, src, .heartbeatResponse term timestamp⟩]) := by
  cases a with
  | heartbeat i now =>
    simp only [step, Option.ite_none_right_eq_some, Option.some.injEq] at hstep
    exact .inl ⟨i, now, rfl, by simpa [isLeader] using hstep.1, hstep.2.symm⟩
  | receive i env now =>
    obtain ⟨src, dst, msg⟩ := env
    obtain ⟨term, leader, timestamp, rfl⟩ := ha
    simp only [step, Option.ite_none_right_eq_some, Option.some.injEq] at hstep
    obtain ⟨⟨hsent, rfl⟩, rfl⟩ := hstep
    exact .inr ⟨src, dst, term, leader, timestamp, now, rfl, hsent, rfl⟩
  | startElection i => exact absurd ha id
  | handlePeerLeft i peer => exact absurd ha id
  | enableAutoElection i enable => exact absurd ha id

theorem leader_of_step_leader {a : Action n} {next : Cluster n} (ha : HeartbeatOnly a)
    (hstep : t.step a = some next) {i : Fin n} (hleader : (next.nodes i).state.role = .leader) :
    (t.nodes i).state.role = .leader := by
  rcases step_heartbeatOnly_cases ha hstep with
    ⟨j, now, rfl, hj, rfl⟩ | ⟨src, j, term, leader, timestamp, now, rfl, _, rfl⟩
  · by_cases hi : i = j
    · subst hi
      exact hj
    · rwa [act_nodes_of_ne _ hi] at hleader
  · by_cases hi : i = j
    · subst hi
      rw [act_nodes_self] at hleader
      obtain ⟨_, heq⟩ | ⟨_, _, _, heq⟩ := (t.nodes i).handleHeartbeat_cases term leader
      · rwa [heq] at hleader
      · rw [heq] at hleader
        exact absurd hleader nofun
    · rwa [act_nodes_of_ne _ hi] at hleader

theorem heardBy_concat (i : Fin n) (acts : List (Action n)) (a : Action n) :
    heardBy i (acts ++ [a]) = heardBy i acts ++ (senderTo i a).toList := by
  simp only [heardBy, List.filterMap_append]
  cases h : senderTo i a <;> simp [h]

/-- What a node other than the largest leader has learnt from the messages it handled. -/
structure Informed (s : Cluster n) (m : Fin n) (heard : List (Fin n)) (e : LeaderElection) : Prop where
  joined : m ∈ heard → e.state.role = .follower ∧
    e.state.currentTerm = (s.nodes m).state.currentTerm
  follows : heard.getLast? = some m → e.state.leaderId = some (s.nodes m).localPeerId

theorem Resolving.informed (h : Resolving s m t) {src i : Fin n} (hi : i ≠ m)
    {term timestamp : UInt64} {leader : PeerId}
    (hsent : ⟨src, i, .heartbeat term leader timestamp⟩ ∈ t.sent) {heard : List (Fin n)}
    (hinformed : Informed s m heard (t.nodes i)) :
    Informed s m (heard ++ [src]) ((t.nodes i).handleHeartbeat term leader).election := by
  by_cases hsrc : src = m
  · subst hsrc
    rw [h.follows hi hsent]
    exact ⟨fun _ => ⟨rfl, rfl⟩, fun _ => rfl⟩
  · refine ⟨?_, by simp [hsrc]⟩
    intro hmem
    obtain ⟨hfollower, hterm⟩ := hinformed.joined (by simpa [Ne.symm hsrc] using hmem)
    obtain ⟨heq, _⟩ | ⟨heq, hlow, _⟩ := handleHeartbeat_outcome (h.dominant.automatic i) term leader
    · rw [heq]
      exact ⟨hfollower, hterm⟩
    · rw [heq]
      refine ⟨rfl, ?_⟩
      obtain ⟨_, hrank, _⟩ := h.wire _ hsent term leader timestamp rfl
      obtain hlt | ⟨rfl, _⟩ := hrank
      · exact absurd (hterm ▸ hlt) hlow
      · rfl

theorem resolving_run (hdominant : Dominant s m) (hsent : s.sent = []) {acts : List (Action n)}
    (honly : Along step (fun _ => HeartbeatOnly) s acts) (hrun : run step s acts = some t) :
    Resolving s m t ∧ ∀ i, i ≠ m → Informed s m (heardBy i acts) (t.nodes i) := by
  refine history_induction
    (I := fun acts t => Resolving s m t ∧ ∀ i, i ≠ m → Informed s m (heardBy i acts) (t.nodes i))
    ⟨hdominant.resolving hsent, ?_⟩ ?_ honly hrun
  · intro i _
    exact ⟨by simp [heardBy], by simp [heardBy]⟩
  rintro front mid a next _ _ ⟨h, hinformed⟩ ha hstep
  rcases step_heartbeatOnly_cases ha hstep with
    ⟨j, now, rfl, hj, rfl⟩ | ⟨src, j, term, leader, timestamp, now, rfl, hmem, rfl⟩
  · refine ⟨h.heartbeat now hj, ?_⟩
    intro i hi
    rw [heardBy_concat]
    by_cases hij : i = j
    · subst hij
      simpa [senderTo] using hinformed i hi
    · simpa [senderTo, act_nodes_of_ne _ hij] using hinformed i hi
  · refine ⟨h.receive hmem, ?_⟩
    intro i hi
    rw [heardBy_concat]
    by_cases hij : i = j
    · subst hij
      simpa [senderTo] using h.informed hi hmem (hinformed i hi)
    · simpa [senderTo, Ne.symm hij, act_nodes_of_ne _ hij] using hinformed i hi

/-- The largest leader leads for ever, nobody becomes Leader, a node that hears from it joins its
term, and once it was heard last everywhere it is the only Leader and the leader of all others. -/
theorem split_brain_resolved (hdominant : Dominant s m) (hsent : s.sent = [])
    (acts : List (Action n)) (honly : Along step (fun _ => HeartbeatOnly) s acts)
    (hrun : run step s acts = some t) :
    ((t.nodes m).state.role = .leader ∧
      (t.nodes m).state.currentTerm = (s.nodes m).state.currentTerm) ∧
    (∀ front back mid i, acts = front ++ back → run step s front = some mid →
      (t.nodes i).state.role = .leader → (mid.nodes i).state.role = .leader) ∧
    (∀ i, i ≠ m → m ∈ heardBy i acts → (t.nodes i).state.role = .follower ∧
      (t.nodes i).state.currentTerm = (s.nodes m).state.currentTerm) ∧
    ((∀ i, i ≠ m → (heardBy i acts).getLast? = some m) →
      (∀ i, (t.nodes i).state.role = .leader ↔ i = m) ∧
      (∀ i, i ≠ m → (t.nodes i).state.leaderId = some (s.nodes m).localPeerId) ∧
      (t.nodes m).state.leaderId = (s.nodes m).state.leaderId) := by
  obtain ⟨h, hinformed⟩ := resolving_run hdominant hsent honly hrun
  refine ⟨⟨h.dominant.leads, by rw [h.keeps]⟩, ?_, fun i hi => (hinformed i hi).joined, ?_⟩
  · rintro front back mid i rfl hfront
    obtain ⟨mid', hfront', hback⟩ := run_append_iff.mp hrun
    obtain rfl : mid = mid' := Option.some.inj (hfront.symm.trans hfront')
    exact invariant (I := fun t => (t.nodes i).state.role = .leader → (mid.nodes i).state.role = .leader)
      (fun _ _ _ ih ha hstep hleader => ih (leader_of_step_leader ha hstep hleader)) id
      ((along_append_iff.mp honly).2 mid hfront) hback
  · intro hlast
    have hfollower : ∀ i, i ≠ m → (t.nodes i).state.role = .follower :=
      fun i hi => ((hinformed i hi).joined (List.mem_of_getLast? (hlast i hi))).1
    refine ⟨?_, fun i hi => (hinformed i hi).follows (hlast i hi), by rw [h.keeps]⟩
    intro i
    constructor
    · intro hleader
      by_contra hi
      simp [hfollower i hi] at hleader
    · rintro rfl
      exact h.dominant.leads

def soleLeader (id : PeerId) : LeaderElection := (LeaderElection.new id true .hold).apply (.startElection 0)

def twoLeaders : Cluster 2 where
  nodes := ![soleLeader ⟨"a"⟩, soleLeader ⟨"b"⟩]
  sent := []
  held := []

def duel : List (Action 2) :=
  [.heartbeat 0 0, .heartbeat 1 0, .receive 1 ⟨0, 1, .heartbeat 1 ⟨"a"⟩ 0⟩ 0,
    .receive 0 ⟨1, 0, .heartbeat 1 ⟨"b"⟩ 0⟩ 0]

theorem larger_of_two_leaders_remains :
    ∃ t, run step twoLeaders duel = some t ∧
      (∀ i, (t.nodes i).state.role = .leader ↔ i = 1) ∧ (t.nodes 0).state.leaderId = some ⟨"b"⟩ := by
  have hdominant : Dominant twoLeaders 1 :=
    ⟨by decide, by decide, by decide, by decide, by decide, by decide⟩
  refine ⟨_, rfl, ?_⟩
  have hresolved := split_brain_resolved hdominant rfl duel
    ⟨trivial, fun _ _ => ⟨trivial, fun _ _ => ⟨⟨_, _, _, rfl⟩, fun _ _ => ⟨⟨_, _, _, rfl⟩, fun _ _ => trivial⟩⟩⟩⟩
    rfl
  obtain ⟨honly, hothers, _⟩ := hresolved.2.2.2 (by decide)
  exact ⟨honly, hothers 0 (by decide)⟩

/-- Node 0 led and then handled its own departure; node 1 has just started. -/
def forgetfulLeader : Cluster 2 where
  nodes := ![(soleLeader ⟨"a"⟩).apply (.handlePeerLeft ⟨"a"⟩), LeaderElection.new ⟨"b"⟩ true .hold]
  sent := []
  held := []

def announcement : List (Action 2) := [.heartbeat 0 0, .receive 1 ⟨0, 1, .heartbeat 1 ⟨"a"⟩ 0⟩ 0]

theorem resolved_leader_without_leaderId :
    Dominant forgetfulLeader 0 ∧ forgetfulLeader.sent = [] ∧
    Along step (fun _ => HeartbeatOnly) forgetfulLeader announcement ∧
    (∀ i, i ≠ 0 → (heardBy i announcement).getLast? = some 0) ∧
    ∃ t, run step forgetfulLeader announcement = some t ∧ (t.nodes 0).state.leaderId = none := by
  refine ⟨⟨by decide, by decide, by decide, by decide, by decide, by decide⟩, rfl, ?_, by decide, ?_⟩
  · exact ⟨trivial, fun _ _ => ⟨⟨_, _, _, rfl⟩, fun _ _ => trivial⟩⟩
  · exact ⟨_, rfl, by decide⟩

end MetaMystia.Cluster

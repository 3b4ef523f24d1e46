import MetaMystia.Election.Operations
import MetaMystia.Library.Mesh
import MetaMystia.Protocol
import Mathlib.Data.Fin.VecNotation
import Mathlib.Data.Fintype.Basic

/-! # Manual assignments in a full mesh

Every `SetLeader` takes a new term at its node and is broadcast. As long as a
node only ever handles assignments of later terms, all nodes end up with the
assignment of the largest term.
-/

namespace MetaMystia

structure AssignMesh (n : Nat) where
  nodes : Fin n → LeaderElection
  channels : Mesh.Channels (Fin n) InternalMessage

namespace AssignMesh

open LeaderElection Runs Mesh

variable {n : Nat} {ids : Fin n → PeerId} {s : AssignMesh n}

inductive Action (n : Nat)
  | setLeader (i : Fin n) (leaderId : PeerId)
  | deliver (src dst : Fin n)

def start (nodes : Fin n → PeerId × Bool × ManualOverrideRecovery) : AssignMesh n where
  nodes i := LeaderElection.new (nodes i).1 (nodes i).2.1 (nodes i).2.2
  channels _ _ := []

def act (s : AssignMesh n) (i : Fin n) (election : LeaderElection)
    (channels : Channels (Fin n) InternalMessage) : AssignMesh n where
  nodes := Function.update s.nodes i election
  channels

def step (s : AssignMesh n) : Action n → Option (AssignMesh n)
  | .setLeader i leaderId =>
    let reply := (s.nodes i).setLeader leaderId
    let (term, leader, assigner) := reply.value
    some (s.act i reply.election (postAll s.channels i (.leaderAssign term leader assigner)))
  | .deliver src dst =>
    match s.channels src dst with
    | .leaderAssign term leader assigner :: _ =>
      some (s.act dst ((s.nodes dst).handleLeaderAssign term leader assigner).election
        (take s.channels src dst))
    | _ => none

/-- The first message of the channel is an assignment of a later term, or changes no leader. -/
def advances (e : LeaderElection) : List InternalMessage → Bool
  | .leaderAssign term leader _ :: _ => e.currentTerm < term || e.leaderId == some leader
  | _ => true

/-- No term wraps, and no node handles an assignment that is not newer than its own while it
names another leader. -/
def InOrder (s : AssignMesh n) : Action n → Prop
  | .setLeader i _ => (s.nodes i).state.currentTerm < maxTerm
  | .deliver src dst => advances (s.nodes dst) (s.channels src dst) = true

instance (s : AssignMesh n) : (a : Action n) → Decidable (s.InOrder a)
  | .setLeader .. => inferInstanceAs (Decidable (_ < _))
  | .deliver .. => inferInstanceAs (Decidable (_ = true))

/-- Node `e` has taken the assignment into account. -/
def Knows (e : LeaderElection) (term : UInt64) (leader : PeerId) : Prop :=
  term ≤ e.state.currentTerm ∧ (term = e.state.currentTerm → e.state.leaderId = some leader)

def Holds (e : LeaderElection) (issued : List (UInt64 × PeerId)) : Prop :=
  (e.state.currentTerm = 0 ∧ e.state.leaderId = none) ∨
  ∃ leader, e.state.leaderId = some leader ∧ (e.state.currentTerm, leader) ∈ issued

structure Converging (ids : Fin n → PeerId) (s : AssignMesh n) (issued : List (UInt64 × PeerId)) :
    Prop where
  ident : ∀ i, (s.nodes i).localPeerId = ids i
  positive : ∀ term leader, (term, leader) ∈ issued → 0 < term
  wire : ∀ src dst, ∀ msg ∈ s.channels src dst,
    ∃ term leader assigner, msg = .leaderAssign term leader assigner ∧ (term, leader) ∈ issued
  arrives : ∀ term leader, (term, leader) ∈ issued → ∀ dst,
    (∃ src assigner, .leaderAssign term leader assigner ∈ s.channels src dst) ∨
    Knows (s.nodes dst) term leader
  holds : ∀ i, Holds (s.nodes i) issued
  leads : ∀ i, (s.nodes i).state.role = .leader ↔
    (s.nodes i).state.leaderId = some (ids i)

theorem converging_start (nodes : Fin n → PeerId × Bool × ManualOverrideRecovery) :
    Converging (fun i => (nodes i).1) (start nodes) [] := by
  constructor <;> simp [start, LeaderElection.new, Holds]

/-- What holds of the new state at its node and of the others as they were holds of all nodes. -/
theorem forall_act_nodes (s : AssignMesh n) {i : Fin n} {election : LeaderElection}
    {channels : Channels (Fin n) InternalMessage} (P : Fin n → LeaderElection → Prop)
    (hself : P i election) (hothers : ∀ j, j ≠ i → P j (s.nodes j)) (j : Fin n) :
    P j ((s.act i election channels).nodes j) :=
  (Function.forall_update_iff s.nodes P).mpr ⟨hself, hothers⟩ j

theorem Knows.mono {e after : LeaderElection} {term : UInt64} {leader : PeerId}
    (h : Knows e term leader) (hlater : e.state.currentTerm < after.state.currentTerm) :
    Knows after term leader := by
  have hlt : term < after.state.currentTerm := UInt64.lt_of_le_of_lt h.1 hlater
  exact ⟨UInt64.le_of_lt hlt, fun heq => absurd (heq ▸ hlt) (UInt64.lt_irrefl _)⟩

theorem Holds.mono {e : LeaderElection} {issued issued' : List (UInt64 × PeerId)}
    (h : Holds e issued) (hsub : issued ⊆ issued') : Holds e issued' := by
  cases h with
  | inl hinitial => exact .inl hinitial
  | inr hheld =>
    obtain ⟨leader, hleader, hmem⟩ := hheld
    exact .inr ⟨leader, hleader, hsub hmem⟩

theorem Converging.act {issued issued' : List (UInt64 × PeerId)} (h : Converging ids s issued)
    (hsub : issued ⊆ issued') {i : Fin n} {after : LeaderElection}
    {channels : Channels (Fin n) InternalMessage} (hident : after.localPeerId = (s.nodes i).localPeerId)
    (hpositive : ∀ term leader, (term, leader) ∈ issued' → 0 < term)
    (hwire : ∀ src dst, ∀ msg ∈ channels src dst,
      ∃ term leader assigner, msg = .leaderAssign term leader assigner ∧ (term, leader) ∈ issued')
    (hothers : ∀ term leader, (term, leader) ∈ issued' → ∀ dst, dst ≠ i →
      (∃ src assigner, .leaderAssign term leader assigner ∈ channels src dst) ∨
      Knows (s.nodes dst) term leader)
    (hself : ∀ term leader, (term, leader) ∈ issued' →
      (∃ src assigner, .leaderAssign term leader assigner ∈ channels src i) ∨ Knows after term leader)
    (hholds : Holds after issued')
    (hleads : after.state.role = .leader ↔ after.state.leaderId = some after.localPeerId) :
    Converging ids (s.act i after channels) issued' := by
  refine ⟨?_, hpositive, hwire, ?_, ?_, ?_⟩
  · refine s.forall_act_nodes (fun j e => e.localPeerId = ids j) ?_ fun j _ => h.ident j
    rw [hident, h.ident]
  · intro term leader hmem
    exact s.forall_act_nodes
      (fun dst e => (∃ src assigner, .leaderAssign term leader assigner ∈ channels src dst) ∨
        Knows e term leader) (hself term leader hmem) (hothers term leader hmem)
  · exact s.forall_act_nodes (fun _ e => Holds e issued') hholds fun j _ => (h.holds j).mono hsub
  · refine s.forall_act_nodes (fun j e => e.state.role = .leader ↔ e.state.leaderId = some (ids j)) ?_
      fun j _ => h.leads j
    rw [hleads, hident, h.ident]

/-- A new assignment takes a term above everything its node has seen. -/
theorem Converging.setLeader {issued : List (UInt64 × PeerId)} (h : Converging ids s issued) {i : Fin n}
    {leader : PeerId} (hterm : (s.nodes i).state.currentTerm < maxTerm) :
    Converging ids (s.act i ((s.nodes i).setLeader leader).election (postAll s.channels i
      (.leaderAssign ((s.nodes i).state.currentTerm + 1) leader (s.nodes i).localPeerId)))
      (((s.nodes i).state.currentTerm + 1, leader) :: issued) := by
  have hlater := lt_add_one hterm
  have hnew : ∀ term l, (term, l) ∈ ((s.nodes i).state.currentTerm + 1, leader) :: issued →
      (term = (s.nodes i).state.currentTerm + 1 ∧ l = leader) ∨ (term, l) ∈ issued := by
    intro term l hmem
    simpa using hmem
  refine h.act (List.subset_cons_self ..) rfl ?_ ?_ ?_ ?_ ?_ ?_
  · intro term l hmem
    cases hnew term l hmem with
    | inl heq =>
      rw [heq.1]
      exact UInt64.lt_of_le_of_lt UInt64.zero_le hlater
    | inr hold => exact h.positive term l hold
  · intro src dst msg hmsg
    cases mem_postAll.mp hmsg with
    | inl hold =>
      obtain ⟨term, l, assigner, heq, hissued⟩ := h.wire src dst msg hold
      exact ⟨term, l, assigner, heq, List.mem_cons_of_mem _ hissued⟩
    | inr hsent => exact ⟨_, _, _, hsent.2.2, List.mem_cons_self⟩
  · intro term l hmem dst hdst
    cases hnew term l hmem with
    | inl heq =>
      obtain ⟨rfl, rfl⟩ := heq
      exact .inl ⟨i, _, mem_postAll.mpr (.inr ⟨rfl, hdst, rfl⟩)⟩
    | inr hold =>
      cases h.arrives term l hold dst with
      | inl hpending =>
        obtain ⟨src, assigner, hpending⟩ := hpending
        exact .inl ⟨src, assigner, mem_postAll.mpr (.inl hpending)⟩
      | inr hknows => exact .inr hknows
  · intro term l hmem
    cases hnew term l hmem with
    | inl heq =>
      obtain ⟨rfl, rfl⟩ := heq
      exact .inr ⟨UInt64.le_refl _, fun _ => rfl⟩
    | inr hold =>
      cases h.arrives term l hold i with
      | inl hpending =>
        obtain ⟨src, assigner, hpending⟩ := hpending
        exact .inl ⟨src, assigner, mem_postAll.mpr (.inl hpending)⟩
      | inr hknows => exact .inr (hknows.mono hlater)
  · exact .inr ⟨leader, rfl, List.mem_cons_self⟩
  · simp [LeaderElection.setLeader]

theorem assigned_knows {e : LeaderElection} {term : UInt64} {leader : PeerId}
    {issued : List (UInt64 × PeerId)} (hissued : (term, leader) ∈ issued) (hholds : Holds e issued)
    (hadvances : e.state.currentTerm < term ∨ e.state.leaderId = some leader) :
    Knows { e with state := e.assigned term leader } term leader ∧
    (∀ term' l, Knows e term' l → Knows { e with state := e.assigned term leader } term' l) ∧
    Holds { e with state := e.assigned term leader } issued := by
  by_cases hlater : e.state.currentTerm < term
  · have hterm : (e.assigned term leader).currentTerm = term := if_pos hlater
    refine ⟨⟨?_, fun _ => rfl⟩, ?_, .inr ⟨leader, rfl, ?_⟩⟩
    · rw [hterm]
      exact UInt64.le_refl _
    · intro term' l hknows
      refine hknows.mono ?_
      rw [hterm]
      exact hlater
    · rw [hterm]
      exact hissued
  · have hterm : (e.assigned term leader).currentTerm = e.state.currentTerm := if_neg hlater
    have hsame : e.state.leaderId = some leader := hadvances.resolve_left hlater
    refine ⟨⟨?_, fun _ => rfl⟩, ?_, ?_⟩
    · rw [hterm]
      exact UInt64.not_lt.mp hlater
    · intro term' l hknows
      refine ⟨?_, ?_⟩
      · rw [hterm]
        exact hknows.1
      · rw [hterm]
        intro heq
        rw [← hknows.2 heq, hsame]
        rfl
    · refine .inr ⟨leader, rfl, ?_⟩
      rw [hterm]
      cases hholds with
      | inl hinitial => simp [hsame] at hinitial
      | inr hheld =>
        obtain ⟨l, hl, hmem⟩ := hheld
        obtain rfl : leader = l := Option.some.inj (hsame.symm.trans hl)
        exact hmem

theorem Converging.deliver {issued : List (UInt64 × PeerId)} (h : Converging ids s issued)
    {src dst : Fin n} {term : UInt64} {leader assigner : PeerId} {rest : List InternalMessage}
    (hhead : s.channels src dst = .leaderAssign term leader assigner :: rest)
    (hadvances : (s.nodes dst).state.currentTerm < term ∨ (s.nodes dst).state.leaderId = some leader) :
    Converging ids (s.act dst { s.nodes dst with state := (s.nodes dst).assigned term leader }
      (take s.channels src dst)) issued := by
  have hissued : (term, leader) ∈ issued := by
    obtain ⟨term', l, a, heq, hmem⟩ := h.wire src dst _ (hhead ▸ List.mem_cons_self)
    obtain ⟨rfl, rfl, _⟩ : term = term' ∧ leader = l ∧ assigner = a := by simpa using heq
    exact hmem
  obtain ⟨hknows, hkeeps, hholds⟩ := assigned_knows hissued (h.holds dst) hadvances
  refine h.act (List.Subset.refl _) rfl h.positive ?_ ?_ ?_ hholds ?_
  · intro i j msg hmsg
    exact h.wire i j msg (mem_of_mem_take hmsg)
  · intro term' l hmem j hj
    cases h.arrives term' l hmem j with
    | inl hpending =>
      obtain ⟨i, a, hpending⟩ := hpending
      cases mem_take_or hhead hpending with
      | inl hstill => exact .inl ⟨i, a, hstill⟩
      | inr htaken => exact absurd htaken.2.1 hj
    | inr hknows => exact .inr hknows
  · intro term' l hmem
    cases h.arrives term' l hmem dst with
    | inl hpending =>
      obtain ⟨i, a, hpending⟩ := hpending
      cases mem_take_or hhead hpending with
      | inl hstill => exact .inl ⟨i, a, hstill⟩
      | inr htaken =>
        obtain ⟨rfl, rfl, _⟩ : term' = term ∧ l = leader ∧ a = assigner := by simpa using htaken.2.2
        exact .inr hknows
    | inr hknows => exact .inr (hkeeps term' l hknows)
  · simp [assigned]

theorem converging_step {issued : List (UInt64 × PeerId)} (h : Converging ids s issued) {a : Action n}
    (ha : s.InOrder a) {next : AssignMesh n} (hstep : s.step a = some next) :
    ∃ issued', Converging ids next issued' := by
  cases a with
  | setLeader i leader =>
    obtain rfl : _ = next := Option.some.inj hstep
    exact ⟨_, h.setLeader ha⟩
  | deliver src dst =>
    simp only [step] at hstep
    split at hstep
    · rename_i term leader assigner rest hhead
      simp only [InOrder, hhead, advances, Bool.or_eq_true, decide_eq_true_eq, beq_iff_eq] at ha
      obtain rfl : _ = next := Option.some.inj hstep
      rw [handleLeaderAssign_eq]
      exact ⟨issued, h.deliver hhead ha⟩
    · exact absurd hstep nofun

/-- Nodes that have heard of every assignment agree on the one of the largest term. -/
theorem Converging.agreed {issued : List (UInt64 × PeerId)} (h : Converging ids s issued)
    (hquiet : ∀ src dst, s.channels src dst = []) (i j : Fin n) :
    (s.nodes i).state.leaderId = (s.nodes j).state.leaderId := by
  have hknows : ∀ term leader, (term, leader) ∈ issued → ∀ k, Knows (s.nodes k) term leader := by
    intro term leader hmem k
    cases h.arrives term leader hmem k with
    | inl hpending =>
      obtain ⟨src, assigner, hpending⟩ := hpending
      simp [hquiet] at hpending
    | inr hknows => exact hknows
  have hinitial : ∀ k l, (s.nodes k).state.currentTerm = 0 → Holds (s.nodes l) issued →
      (s.nodes l).state.leaderId = none := by
    intro k l hzero hholds
    cases hholds with
    | inl hnone => exact hnone.2
    | inr hheld =>
      obtain ⟨leader, _, hmem⟩ := hheld
      have hle := (hknows _ _ hmem k).1
      rw [hzero] at hle
      exact absurd (h.positive _ _ hmem) (UInt64.not_lt.mpr hle)
  cases h.holds i with
  | inl hi => rw [hi.2, hinitial i j hi.1 (h.holds j)]
  | inr hi =>
    obtain ⟨li, hli, hmemi⟩ := hi
    cases h.holds j with
    | inl hj => exact absurd (hinitial j i hj.1 (h.holds i)) (by simp [hli])
    | inr hj =>
      obtain ⟨lj, hlj, hmemj⟩ := hj
      have hterm := UInt64.le_antisymm (hknows _ _ hmemi j).1 (hknows _ _ hmemj i).1
      rw [hli, (hknows _ _ hmemi j).2 hterm]

/-- Once every assignment has been handled, and none of them late, all nodes name the same leader
and exactly the node with that id is Leader. -/
theorem assignments_agree (nodes : Fin n → PeerId × Bool × ManualOverrideRecovery)
    (acts : List (Action n)) (horder : Along step InOrder (start nodes) acts)
    (hrun : run step (start nodes) acts = some s) (hquiet : ∀ src dst, s.channels src dst = []) :
    ∃ leader, (∀ i, (s.nodes i).state.leaderId = leader) ∧
      ∀ i, (s.nodes i).state.role = .leader ↔ leader = some (nodes i).1 := by
  obtain ⟨issued, h⟩ : ∃ issued, Converging (fun i => (nodes i).1) s issued :=
    invariant (I := fun s => ∃ issued, Converging (fun i => (nodes i).1) s issued)
      (fun _ _ _ ⟨_, h⟩ ha hstep => converging_step h ha hstep) ⟨[], converging_start nodes⟩ horder hrun
  cases n with
  | zero => exact ⟨none, fun i => i.elim0, fun i => i.elim0⟩
  | succ n =>
    refine ⟨(s.nodes 0).state.leaderId, fun i => h.agreed hquiet i 0, ?_⟩
    intro i
    rw [h.leads i, h.agreed hquiet i 0]

def pair : Fin 2 → PeerId × Bool × ManualOverrideRecovery :=
  ![(⟨"a"⟩, true, .hold), (⟨"b"⟩, true, .hold)]

theorem agreement_after_two_assignments :
    ∃ s, run step (start pair) [.setLeader 0 ⟨"a"⟩, .deliver 0 1, .setLeader 1 ⟨"b"⟩, .deliver 1 0] = some s ∧
      ∃ leader, (∀ i, (s.nodes i).state.leaderId = leader) ∧
        ∀ i, (s.nodes i).state.role = .leader ↔ leader = some (pair i).1 :=
  ⟨_, rfl, assignments_agree pair [.setLeader 0 ⟨"a"⟩, .deliver 0 1, .setLeader 1 ⟨"b"⟩, .deliver 1 0]
    (by decide) rfl (by decide)⟩

theorem concurrent_assignments_disagree :
    ∃ s, run step (start pair) [.setLeader 0 ⟨"a"⟩, .setLeader 1 ⟨"b"⟩, .deliver 0 1, .deliver 1 0] = some s ∧
      (∀ src dst, s.channels src dst = []) ∧
      (s.nodes 0).state.leaderId = some ⟨"b"⟩ ∧ (s.nodes 1).state.leaderId = some ⟨"a"⟩ :=
  ⟨_, rfl, by decide, by decide, by decide⟩

end AssignMesh

end MetaMystia

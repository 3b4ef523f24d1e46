import MetaMystia.Election.Candidacy
import MetaMystia.Election.Safety
import MetaMystia.Library.Ballots
import Mathlib.Data.Fin.VecNotation

/-! # Elections with partial views

The majority is taken of the peers that a node is connected to when it counts, and
that may be any number. Votes stay single all the same, so the leaders of one term
share out the nodes: their views say how many of them there can be.
-/

namespace MetaMystia

namespace LeaderElection

/-- The term that the operation wins by votes, and the number of peers it is won among. -/
def wins (self : LeaderElection) : Op → Option (UInt64 × Nat)
  | .startElection count =>
    (self.startElection count).notice.map fun _ => ((self.startElection count).election.currentTerm, count)
  | .handleVoteResponse term voter granted count =>
    if (self.handleVoteResponse term voter granted count).value then some (term, count) else none
  | _ => none

def requested (self : LeaderElection) : Op → Option (UInt64 × PeerId)
  | .startElection count => (self.startElection count).value
  | _ => none

/-- Votes are asked for and counted by message; all the rest may be called with any arguments. -/
def isCall : Op → Bool
  | .handleRequestVote .. | .handleVoteResponse .. => false
  | _ => true

theorem wins_cases {self : LeaderElection} {op : Op} {term : UInt64} {count : Nat}
    (h : self.wins op = some (term, count)) :
    (op = .startElection count ∧ self.requested op = none ∧ term = self.state.currentTerm + 1 ∧
      majorityThreshold (1 + count) ≤ 1 ∧ (self.apply op).state.currentTerm = term) ∨
    (∃ voter granted, op = .handleVoteResponse term voter granted count ∧
      self.state.role = .candidate ∧ term = self.state.currentTerm ∧
      majorityThreshold (1 + count) ≤ (countVote self.state voter granted).votesReceived.card) := by
  cases op with
  | startElection count' =>
    obtain ⟨_, heq⟩ | ⟨_, _, _, heq⟩ | ⟨_, _, hfew, heq⟩ := self.startElection_cases count'
    · simp [wins, heq] at h
    · simp [wins, heq] at h
    · simp only [wins, heq, Option.map_some, Option.some.injEq, Prod.mk.injEq] at h
      obtain ⟨rfl, rfl⟩ := h
      exact .inl ⟨rfl, by rw [requested, heq], rfl, hfew, by rw [apply, heq]; rfl⟩
  | handleVoteResponse term' voter granted count' =>
    rcases self.handleVoteResponse_cases term' voter granted count' with
      ⟨_, heq⟩ | ⟨_, _, heq⟩ | ⟨_, _, _, heq⟩ | ⟨hrole, hterm, hmajority, heq⟩
    · simp [wins, heq] at h
    · simp [wins, heq] at h
    · simp [wins, heq] at h
    · simp only [wins, heq, if_true, Option.some.injEq, Prod.mk.injEq] at h
      obtain ⟨rfl, rfl⟩ := h
      exact .inr ⟨voter, granted, rfl, hrole, hterm, hmajority⟩
  | _ => cases h

theorem candidate_of_requested {self : LeaderElection} {op : Op} {term : UInt64} {candidate : PeerId}
    (h : self.requested op = some (term, candidate)) : candidate = self.localPeerId := by
  cases op with
  | startElection count =>
    obtain ⟨_, heq⟩ | ⟨_, _, _, heq⟩ | ⟨_, _, _, heq⟩ := self.startElection_cases count
    · simp [requested, heq] at h
    · simp only [requested, heq, Option.some.injEq, Prod.mk.injEq] at h
      exact h.2.symm
    · simp [requested, heq] at h
  | _ => cases h

theorem add_one_ne (term : UInt64) : term + 1 ≠ term := by grind

theorem voteCast_startElection {self : LeaderElection} {count : Nat}
    (hterm : (self.apply (.startElection count)).state.currentTerm = self.state.currentTerm + 1) :
    self.voteCast (.startElection count) = some (self.state.currentTerm + 1, self.localPeerId) := by
  rw [apply] at hterm
  simp only [voteCast, currentTerm, hterm, ne_eq, add_one_ne, not_false_eq_true, if_true]

end LeaderElection

/-- `won` lists the elections won: the node, the term and the number of peers it counted with. -/
structure ViewCluster (n : Nat) where
  nodes : Fin n → LeaderElection
  sent : List (Envelope n)
  won : List (Fin n × UInt64 × Nat)

namespace ViewCluster

open LeaderElection Runs Cluster

variable {n : Nat}

inductive Action (n : Nat)
  | call (i : Fin n) (op : LeaderElection.Op)
  | receive (env : Envelope n) (count : Nat)

def act (s : ViewCluster n) (i : Fin n) (op : LeaderElection.Op) (msgs : List (Envelope n)) :
    ViewCluster n where
  nodes := Function.update s.nodes i ((s.nodes i).apply op)
  sent := s.sent ++ msgs
  won := s.won ++ (((s.nodes i).wins op).map fun claim => (i, claim)).toList

def start (ids : Fin n → PeerId) (auto : Fin n → Bool) (recovery : Fin n → ManualOverrideRecovery) :
    ViewCluster n where
  nodes i := .new (ids i) (auto i) (recovery i)
  sent := []
  won := []

/-- Every message may arrive any number of times or never, and so may every call. -/
def step (s : ViewCluster n) : Action n → Option (ViewCluster n)
  | .call i op =>
    if isCall op then some (s.act i op (requestVotes i ((s.nodes i).requested op))) else none
  | .receive env count =>
    if env ∈ s.sent then
      match env.msg with
      | .requestVote term candidate =>
        let (respTerm, granted) := ((s.nodes env.dst).handleRequestVote term candidate).value
        some (s.act env.dst (.handleRequestVote term candidate)
          [⟨env.dst, env.src, .voteResponse respTerm (s.nodes env.dst).localPeerId granted⟩])
      | .voteResponse term voter granted =>
        some (s.act env.dst (.handleVoteResponse term voter granted count) [])
      | _ => none
    else none

/-- No term wraps, and no assignment clears a vote of its own term. -/
def Unbroken (s : ViewCluster n) : Action n → Prop
  | .call i op => (s.nodes i).InRange op ∧ (s.nodes i).KeepsVote op
  | .receive .. => True

instance (s : ViewCluster n) : (a : Action n) → Decidable (s.Unbroken a)
  | .call .. => inferInstanceAs (Decidable (_ ∧ _))
  | .receive .. => .isTrue trivial

def Honest (ids : Fin n → PeerId) (cast : Votes n) (env : Envelope n) : Prop :=
  match env.msg with
  | .requestVote _ candidate => candidate = ids env.src
  | .voteResponse term voter granted =>
    granted = true → voter = ids env.src ∧ (env.src, term, ids env.dst) ∈ cast
  | _ => True

structure Backed (ids : Fin n → PeerId) (s : ViewCluster n) (b : Ballots (Fin n) UInt64 PeerId) :
    Prop where
  ident : ∀ i, (s.nodes i).localPeerId = ids i
  past : ∀ i term c, (i, term, c) ∈ b.cast → term ≤ (s.nodes i).state.currentTerm
  current : ∀ i c, (i, (s.nodes i).state.currentTerm, c) ∈ b.cast →
    (s.nodes i).state.votedFor = some c
  counted : ∀ i, (s.nodes i).state.role = .candidate → ∀ peer ∈ (s.nodes i).state.votesReceived,
    ∃ k, peer = ids k ∧ (k, (s.nodes i).state.currentTerm, ids i) ∈ b.cast
  wire : ∀ env ∈ s.sent, Honest ids b.cast env
  won : ∀ i term count, (i, term, count) ∈ s.won →
    (ids i, term, majorityThreshold (1 + count)) ∈ b.claims

variable {ids : Fin n → PeerId} {s next : ViewCluster n} {b : Ballots (Fin n) UInt64 PeerId}

theorem backed_start (ids : Fin n → PeerId) (auto : Fin n → Bool)
    (recovery : Fin n → ManualOverrideRecovery) :
    Backed ids (start ids auto recovery) Ballots.empty := by
  constructor <;> simp [start, LeaderElection.new, Ballots.empty]

theorem Honest.mono {cast cast' : Votes n} (hsub : cast ⊆ cast') {env : Envelope n}
    (h : Honest ids cast env) : Honest ids cast' env := by
  obtain ⟨src, dst, msg⟩ := env
  cases msg with
  | voteResponse term voter granted => exact fun hgranted => (h hgranted).imp_right (hsub ·)
  | _ => exact h

theorem Backed.reaches_castBy (h : Backed ids s b) {i : Fin n} {after : LeaderElection}
    {cast : Option (UInt64 × PeerId)} (hvote : VoteOutcome (s.nodes i) after cast) :
    Relation.ReflTransGen Ballots.Step b { b with cast := castBy b.cast i cast } := by
  cases cast with
  | none =>
    have hsame : castBy b.cast i none = b.cast := by simp [castBy]
    rw [hsame]
  | some vote =>
    obtain ⟨term, c⟩ := vote
    have hinsert : castBy b.cast i (some (term, c)) = insert (i, term, c) b.cast := by
      ext ballot
      simp [castBy, or_comm]
    obtain ⟨hterm, hcast, _⟩ := voteOutcome_facts hvote
    obtain ⟨hnow, _, honly⟩ := hcast term c rfl
    rw [hinsert]
    refine .single (.vote i term c ?_)
    intro d hd
    have hsame : (s.nodes i).state.currentTerm = term :=
      UInt64.le_antisymm (hnow ▸ hterm) (h.past i term d hd)
    exact honly hsame d (h.current i d (hsame ▸ hd))

theorem forall_act_nodes (s : ViewCluster n) {i : Fin n} {op : LeaderElection.Op}
    {msgs : List (Envelope n)} (P : Fin n → LeaderElection → Prop) (hself : P i ((s.nodes i).apply op))
    (hothers : ∀ j, j ≠ i → P j (s.nodes j)) (j : Fin n) : P j ((s.act i op msgs).nodes j) :=
  (Function.forall_update_iff s.nodes P).mpr ⟨hself, hothers⟩ j

theorem mem_act_won {i j : Fin n} {op : LeaderElection.Op} {msgs : List (Envelope n)} {term : UInt64}
    {count : Nat} : (j, term, count) ∈ (s.act i op msgs).won ↔
      (j, term, count) ∈ s.won ∨ (j = i ∧ (s.nodes i).wins op = some (term, count)) := by
  simp only [ViewCluster.act, List.mem_append, Option.mem_toList, Option.map_eq_some_iff, Prod.mk.injEq]
  constructor
  · rintro (hold | ⟨_, hwins, rfl, rfl⟩)
    · exact .inl hold
    · exact .inr ⟨rfl, hwins⟩
  · rintro (hold | ⟨rfl, hwins⟩)
    · exact .inl hold
    · exact .inr ⟨_, hwins, rfl, rfl⟩

def Consented (ids : Fin n → PeerId) (cast : Votes n) (i : Fin n) (op : LeaderElection.Op) : Prop :=
  ∀ term voter count, op = .handleVoteResponse term voter true count →
    ∃ k, voter = ids k ∧ (k, term, ids i) ∈ cast

theorem Backed.counted_apply (h : Backed ids s b) {i : Fin n} {op : LeaderElection.Op}
    (hconsent : Consented ids b.cast i op)
    (hrole : ((s.nodes i).apply op).state.role = .candidate) {peer : PeerId}
    (hpeer : peer ∈ ((s.nodes i).apply op).state.votesReceived) :
    ∃ k, peer = ids k ∧ (k, ((s.nodes i).apply op).state.currentTerm, ids i) ∈
      castBy b.cast i ((s.nodes i).voteCast op) := by
  obtain ⟨count, rfl, heq⟩ | hcont := candidate_apply hrole
  · have hterm : ((s.nodes i).apply (.startElection count)).state.currentTerm =
        (s.nodes i).state.currentTerm + 1 := by rw [heq]; rfl
    have hvote := voteCast_startElection hterm
    rw [heq] at hpeer ⊢
    obtain rfl : peer = (s.nodes i).localPeerId := Finset.mem_singleton.mp hpeer
    refine ⟨i, h.ident i, mem_castBy_self.mpr (.inr ?_)⟩
    rw [hvote, h.ident]
    rfl
  · rw [hcont.term]
    obtain hold | ⟨count, rfl⟩ := (hcont.tally peer).mp hpeer
    · obtain ⟨k, hk, hcast⟩ := h.counted i hcont.candidate peer hold
      exact ⟨k, hk, subset_castBy _ _ _ hcast⟩
    · obtain ⟨k, hk, hcast⟩ := hconsent _ peer count rfl
      exact ⟨k, hk, subset_castBy _ _ _ hcast⟩

theorem Backed.exists_voters (h : Backed ids s b) {i : Fin n} {op : LeaderElection.Op}
    (hconsent : Consented ids b.cast i op) {term : UInt64} {count : Nat}
    (hwins : (s.nodes i).wins op = some (term, count)) :
    ∃ voters : Finset (Fin n), majorityThreshold (1 + count) ≤ voters.card ∧
      ∀ v ∈ voters, (v, term, ids i) ∈ castBy b.cast i ((s.nodes i).voteCast op) := by
  classical
  obtain ⟨rfl, _, rfl, hfew, hterm⟩ | ⟨voter, granted, rfl, hrole, rfl, hmajority⟩ := wins_cases hwins
  · refine ⟨{i}, by simpa using hfew, ?_⟩
    intro v hv
    obtain rfl : v = i := Finset.mem_singleton.mp hv
    refine mem_castBy_self.mpr (.inr ?_)
    rw [voteCast_startElection hterm, h.ident]
  · let tally : Finset PeerId := (countVote (s.nodes i).state voter granted).votesReceived
    have htally : ∀ peer ∈ tally, ∃ k, peer = ids k ∧ (k, (s.nodes i).state.currentTerm, ids i) ∈ b.cast := by
      intro peer hpeer
      cases granted with
      | false => exact h.counted i hrole peer hpeer
      | true =>
        obtain rfl | hold := Finset.mem_insert.mp hpeer
        · exact hconsent _ peer count rfl
        · exact h.counted i hrole peer hold
    let voters : Finset (Fin n) :=
      Finset.univ.filter fun k => (k, (s.nodes i).state.currentTerm, ids i) ∈ b.cast
    have hcover : tally ⊆ voters.image ids := by
      intro peer hpeer
      obtain ⟨k, rfl, hcast⟩ := htally peer hpeer
      exact Finset.mem_image_of_mem ids (Finset.mem_filter.mpr ⟨Finset.mem_univ k, hcast⟩)
    refine ⟨voters, ?_, fun v hv => subset_castBy _ _ _ (Finset.mem_filter.mp hv).2⟩
    calc majorityThreshold (1 + count) ≤ tally.card := hmajority
      _ ≤ (voters.image ids).card := Finset.card_le_card hcover
      _ ≤ voters.card := Finset.card_image_le

theorem Backed.act_of_claims (h : Backed ids s b) {i : Fin n} {op : LeaderElection.Op}
    {msgs : List (Envelope n)} (hrange : (s.nodes i).InRange op) (hkeep : (s.nodes i).KeepsVote op)
    (hconsent : Consented ids b.cast i op)
    (hmsgs : ∀ env ∈ msgs, Honest ids (castBy b.cast i ((s.nodes i).voteCast op)) env)
    {claims : Set (PeerId × UInt64 × Nat)} (hclaims : b.claims ⊆ claims)
    (hwon : ∀ term count, (s.nodes i).wins op = some (term, count) →
      (ids i, term, majorityThreshold (1 + count)) ∈ claims) :
    Backed ids (s.act i op msgs) ⟨castBy b.cast i ((s.nodes i).voteCast op), claims⟩ := by
  obtain ⟨hterm, hcast, hstays⟩ := voteOutcome_facts (apply_voteOutcome hrange hkeep)
  have hsub := subset_castBy b.cast i ((s.nodes i).voteCast op)
  constructor
  · refine s.forall_act_nodes (fun j e => e.localPeerId = ids j) ?_ fun j _ => h.ident j
    rw [apply_localPeerId, h.ident]
  · refine s.forall_act_nodes (fun j e => ∀ term c,
      (j, term, c) ∈ castBy b.cast i ((s.nodes i).voteCast op) → term ≤ e.state.currentTerm) ?_ ?_
    · intro term c hv
      obtain hv | hv := mem_castBy_self.mp hv
      · exact UInt64.le_trans (h.past i term c hv) hterm
      · exact (hcast term c hv).1 ▸ UInt64.le_refl _
    · intro j hj term c hv
      exact h.past j term c ((mem_castBy_of_ne hj).mp hv)
  · refine s.forall_act_nodes (fun j e => ∀ c,
      (j, e.state.currentTerm, c) ∈ castBy b.cast i ((s.nodes i).voteCast op) →
        e.state.votedFor = some c) ?_ ?_
    · intro c hv
      obtain hv | hv := mem_castBy_self.mp hv
      · have hsame : ((s.nodes i).apply op).state.currentTerm = (s.nodes i).state.currentTerm :=
          UInt64.le_antisymm (h.past i _ c hv) hterm
        exact hstays hsame c (h.current i c (hsame ▸ hv))
      · exact (hcast _ c hv).2.1
    · intro j hj c hv
      exact h.current j c ((mem_castBy_of_ne hj).mp hv)
  · refine s.forall_act_nodes (fun j e => e.state.role = .candidate → ∀ peer ∈ e.state.votesReceived,
      ∃ k, peer = ids k ∧
        (k, e.state.currentTerm, ids j) ∈ castBy b.cast i ((s.nodes i).voteCast op)) ?_ ?_
    · exact fun hrole peer hpeer => h.counted_apply hconsent hrole hpeer
    · intro j _ hrole peer hpeer
      obtain ⟨k, hk, hv⟩ := h.counted j hrole peer hpeer
      exact ⟨k, hk, hsub hv⟩
  · intro env henv
    obtain henv | henv := List.mem_append.mp henv
    · exact (h.wire env henv).mono hsub
    · exact hmsgs env henv
  · intro j term count hmem
    obtain hold | ⟨rfl, hwins⟩ := mem_act_won.mp hmem
    · exact hclaims (h.won j term count hold)
    · exact hwon term count hwins

theorem Backed.act (h : Backed ids s b) {i : Fin n} {op : LeaderElection.Op}
    {msgs : List (Envelope n)} (hrange : (s.nodes i).InRange op) (hkeep : (s.nodes i).KeepsVote op)
    (hconsent : Consented ids b.cast i op)
    (hmsgs : ∀ env ∈ msgs, Honest ids (castBy b.cast i ((s.nodes i).voteCast op)) env) :
    ∃ b', Relation.ReflTransGen Ballots.Step b b' ∧ Backed ids (s.act i op msgs) b' := by
  have hcast := h.reaches_castBy (apply_voteOutcome hrange hkeep)
  cases hwins : (s.nodes i).wins op with
  | none =>
    refine ⟨_, hcast, h.act_of_claims hrange hkeep hconsent hmsgs (Set.Subset.refl _) ?_⟩
    simp [hwins]
  | some claim =>
    obtain ⟨term, count⟩ := claim
    obtain ⟨voters, hsize, hsupport⟩ := h.exists_voters hconsent hwins
    refine ⟨_, hcast.tail (.claim (ids i) term _ voters hsize hsupport),
      h.act_of_claims hrange hkeep hconsent hmsgs (Set.subset_insert _ _) ?_⟩
    intro term' count' hwins'
    rw [hwins] at hwins'
    cases hwins'
    exact Set.mem_insert _ _

theorem consented_of_call {cast : Votes n} {i : Fin n} {op : LeaderElection.Op} (hcall : isCall op = true) :
    Consented ids cast i op := by
  rintro term voter count rfl
  cases hcall

theorem Backed.honest_requestVotes (h : Backed ids s b) (i : Fin n) (op : LeaderElection.Op)
    (cast : Votes n) {env : Envelope n} (henv : env ∈ requestVotes i ((s.nodes i).requested op)) :
    Honest ids cast env := by
  cases hrequested : (s.nodes i).requested op with
  | none => simp [hrequested, requestVotes] at henv
  | some request =>
    obtain ⟨term, candidate⟩ := request
    rw [hrequested, requestVotes] at henv
    obtain ⟨hsrc, _, hmsg⟩ := mem_broadcast.mp henv
    rw [Honest, hmsg, hsrc]
    exact (candidate_of_requested hrequested).trans (h.ident i)

theorem Backed.honest_response (h : Backed ids s b) {src dst : Fin n} {term : UInt64} {candidate : PeerId}
    (hcandidate : candidate = ids src) :
    Honest ids (castBy b.cast dst ((s.nodes dst).voteCast (.handleRequestVote term candidate)))
      ⟨dst, src, .voteResponse ((s.nodes dst).handleRequestVote term candidate).value.1
        (s.nodes dst).localPeerId ((s.nodes dst).handleRequestVote term candidate).value.2⟩ := by
  intro hgranted
  refine ⟨h.ident dst, mem_castBy_self.mpr (.inr ?_)⟩
  rw [voteCast, ← hcandidate]
  exact if_pos hgranted

/-- Every step of the cluster is some steps of the ballots. -/
theorem Backed.step (h : Backed ids s b) {a : Action n} (hunbroken : s.Unbroken a)
    (hstep : s.step a = some next) :
    ∃ b', Relation.ReflTransGen Ballots.Step b b' ∧ Backed ids next b' := by
  cases a with
  | call i op =>
    obtain ⟨hcall, hnext⟩ := Option.ite_none_right_eq_some.mp hstep
    obtain rfl := Option.some.inj hnext
    exact h.act hunbroken.1 hunbroken.2 (consented_of_call hcall)
      fun env henv => h.honest_requestVotes i op _ henv
  | receive env count =>
    obtain ⟨hsent, hnext⟩ := Option.ite_none_right_eq_some.mp hstep
    have hhonest := h.wire env hsent
    obtain ⟨src, dst, msg⟩ := env
    cases msg with
    | requestVote term candidate =>
      obtain rfl := Option.some.inj hnext
      refine h.act trivial trivial (fun _ _ _ hop => by cases hop) ?_
      intro env henv
      obtain rfl := List.mem_singleton.mp henv
      exact h.honest_response hhonest
    | voteResponse term voter granted =>
      obtain rfl := Option.some.inj hnext
      refine h.act trivial trivial ?_ (by simp)
      intro term' voter' count' hop
      cases hop
      obtain ⟨hvoter, hcast⟩ := hhonest rfl
      exact ⟨src, hvoter, hcast⟩
    | _ => cases hnext

/-- The cluster refines the ballots: every run from the start of its nodes is an election of theirs. -/
theorem exists_backed {auto : Fin n → Bool} {recovery : Fin n → ManualOverrideRecovery}
    {acts : List (Action n)} (hunbroken : Along step Unbroken (start ids auto recovery) acts)
    (hrun : run step (start ids auto recovery) acts = some s) :
    ∃ b : Ballots (Fin n) UInt64 PeerId, b.Reachable ∧ Backed ids s b := by
  refine invariant (I := fun s => ∃ b : Ballots (Fin n) UInt64 PeerId, b.Reachable ∧ Backed ids s b)
    ?_ ⟨_, .refl, backed_start ids auto recovery⟩ hunbroken hrun
  rintro s a t ⟨b, hreach, h⟩ ha ht
  obtain ⟨b', hsteps, h'⟩ := h.step ha ht
  exact ⟨b', hreach.trans hsteps, h'⟩

/-- The nodes that win a term need, together, no more nodes than there are, each as many as are a
majority of what it was connected to: two leaders of one term both saw too little of the cluster. -/
theorem majorities_of_winners_le (hids : Function.Injective ids) {auto : Fin n → Bool}
    {recovery : Fin n → ManualOverrideRecovery} {acts : List (Action n)}
    (hunbroken : Along step Unbroken (start ids auto recovery) acts)
    (hrun : run step (start ids auto recovery) acts = some s) (term : UInt64)
    (winners : Finset (Fin n)) (view : Fin n → Nat)
    (hwinners : ∀ i ∈ winners, (i, term, view i) ∈ s.won) :
    ∑ i ∈ winners, majorityThreshold (1 + view i) ≤ n := by
  obtain ⟨b, hreach, h⟩ := exists_backed hunbroken hrun
  have hsum := hreach.valid.sum_le_card term (winners.map ⟨ids, hids⟩)
    (Function.extend ids (fun i => majorityThreshold (1 + view i)) 0) ?_
  · rw [Finset.sum_map, Fintype.card_fin] at hsum
    simpa [hids.extend_apply] using hsum
  · intro c hc
    obtain ⟨i, hi, rfl⟩ := Finset.mem_map.mp hc
    rw [Function.Embedding.coeFn_mk, hids.extend_apply]
    exact h.won i term (view i) (hwinners i hi)

def threePeers : Fin 3 → PeerId := ![⟨"peer1"⟩, ⟨"peer2"⟩, ⟨"peer3"⟩]

/-- Two of three nodes that see nobody lead the same term, and two nodes are enough for it. -/
theorem majorities_of_two_alone :
    ∃ s, run step (start threePeers (fun _ => true) fun _ => .hold)
      [.call 0 (.startElection 0), .call 1 (.startElection 0)] = some s ∧
      (∀ i ∈ ({0, 1} : Finset (Fin 3)), (i, 1, 0) ∈ s.won) ∧
      ∑ _i ∈ ({0, 1} : Finset (Fin 3)), majorityThreshold (1 + 0) ≤ 3 := by
  have hunbroken : Along step Unbroken (start threePeers (fun _ => true) fun _ => .hold)
      [.call 0 (.startElection 0), .call 1 (.startElection 0)] := by decide
  exact ⟨_, rfl, by decide, majorities_of_winners_le (by decide) hunbroken rfl 1 {0, 1} (fun _ => 0)
    (by decide)⟩

end ViewCluster

end MetaMystia

import MetaMystia.Election.Cluster
import MetaMystia.Election.SingleVote
import Mathlib.Data.Fin.VecNotation
import Mathlib.Data.Fintype.Card
import Mathlib.Data.Set.Insert

/-! # Election safety

`Safe` ties every vote on the wire and every counted vote to the vote its sender
really gave in that term. Two leaders of one term would share a voter, and a node
gives one vote per term.
-/

namespace MetaMystia.Cluster

open LeaderElection Runs

variable {n : Nat} {ids : Fin n → PeerId} {s : Cluster n}

/-- Votes given so far: the voter, the term and the candidate. -/
abbrev Votes (n : Nat) := Set (Fin n × UInt64 × PeerId)

/-- A majority of the nodes gave their vote of the term to node `i`. -/
def Elected (ids : Fin n → PeerId) (votes : Votes n) (i : Fin n) (term : UInt64) : Prop :=
  ∃ quorum : Finset PeerId, majorityThreshold (1 + (n - 1)) ≤ quorum.card ∧
    ∀ peer ∈ quorum, ∃ k, peer = ids k ∧ (k, term, ids i) ∈ votes

/-- What a message on the wire says about its sender. -/
def Genuine (ids : Fin n → PeerId) (votes : Votes n) (held : List (Fin n × UInt64))
    (env : Envelope n) : Prop :=
  match env.msg with
  | .requestVote _ candidate => candidate = ids env.src
  | .voteResponse term voter granted =>
    granted = true → voter = ids env.src ∧ (env.src, term, ids env.dst) ∈ votes
  | .heartbeat term leader _ => leader = ids env.src ∧ (env.src, term) ∈ held ∧ env.dst ≠ env.src
  | .leaderAssign .. => False
  | _ => True

structure Safe (ids : Fin n → PeerId) (s : Cluster n) (votes : Votes n) : Prop where
  ident : ∀ i, (s.nodes i).localPeerId = ids i
  automatic : ∀ i, (s.nodes i).state.manualOverride = false
  past : ∀ i term c, (i, term, c) ∈ votes → term ≤ (s.nodes i).state.currentTerm
  current : ∀ i c, (i, (s.nodes i).state.currentTerm, c) ∈ votes → (s.nodes i).state.votedFor = some c
  single : ∀ i term c d, (i, term, c) ∈ votes → (i, term, d) ∈ votes → c = d
  counted : ∀ i, (s.nodes i).state.role = .candidate → ∀ peer ∈ (s.nodes i).state.votesReceived,
    ∃ k, peer = ids k ∧ (k, (s.nodes i).state.currentTerm, ids i) ∈ votes
  heldPast : ∀ i term, (i, term) ∈ s.held → term ≤ (s.nodes i).state.currentTerm
  tenure : ∀ i, (i, (s.nodes i).state.currentTerm) ∈ s.held → (s.nodes i).state.role = .leader
  leading : ∀ i, (s.nodes i).state.role = .leader → (i, (s.nodes i).state.currentTerm) ∈ s.held
  elected : ∀ i term, (i, term) ∈ s.held → Elected ids votes i term
  wire : ∀ env ∈ s.sent, Genuine ids votes s.held env

theorem safe_start (ids : Fin n → PeerId) (recovery : ManualOverrideRecovery) :
    Safe ids (start ids recovery) ∅ := by
  constructor <;> simp [start, LeaderElection.new]

theorem Elected.mono {votes votes' : Votes n} (hsub : votes ⊆ votes') {i : Fin n} {term : UInt64}
    (h : Elected ids votes i term) : Elected ids votes' i term := by
  obtain ⟨quorum, hcard, hquorum⟩ := h
  refine ⟨quorum, hcard, ?_⟩
  intro peer hpeer
  obtain ⟨k, hk, hvote⟩ := hquorum peer hpeer
  exact ⟨k, hk, hsub hvote⟩

theorem Genuine.mono {votes votes' : Votes n} (hsub : votes ⊆ votes')
    {held held' : List (Fin n × UInt64)} (hheld : held ⊆ held') {env : Envelope n}
    (h : Genuine ids votes held env) : Genuine ids votes' held' env := by
  obtain ⟨src, dst, msg⟩ := env
  cases msg with
  | requestVote term candidate => exact h
  | voteResponse term voter granted => exact fun hg => ⟨(h hg).1, hsub (h hg).2⟩
  | heartbeat term leader timestamp => exact ⟨h.1, hheld h.2.1, h.2.2⟩
  | leaderAssign term leader assigner => exact h
  | _ => trivial

/-- Two majorities of the same cluster share a voter. -/
theorem Elected.unique (hids : Function.Injective ids) (hn : 3 ≤ n) {votes : Votes n}
    (hsingle : ∀ i term c d, (i, term, c) ∈ votes → (i, term, d) ∈ votes → c = d)
    {i j : Fin n} {term : UInt64} (hi : Elected ids votes i term) (hj : Elected ids votes j term) :
    i = j := by
  obtain ⟨p, hp, hpi⟩ := hi
  obtain ⟨q, hq, hqj⟩ := hj
  have hthreshold : majorityThreshold (1 + (n - 1)) = n / 2 + 1 := by
    rw [majorityThreshold, if_neg (by omega), Nat.add_sub_cancel' (by omega)]
  have hpids : p ⊆ Finset.univ.image ids := by
    intro peer hpeer
    obtain ⟨k, rfl, _⟩ := hpi peer hpeer
    exact Finset.mem_image_of_mem ids (Finset.mem_univ k)
  have hqids : q ⊆ Finset.univ.image ids := by
    intro peer hpeer
    obtain ⟨k, rfl, _⟩ := hqj peer hpeer
    exact Finset.mem_image_of_mem ids (Finset.mem_univ k)
  have hcard : (Finset.univ.image ids).card = n := by
    rw [Finset.card_image_of_injective _ hids, Finset.card_univ, Fintype.card_fin]
  obtain ⟨peer, hpeer⟩ := Finset.inter_nonempty_of_card_lt_card_add_card hpids hqids (by omega)
  obtain ⟨hpeerp, hpeerq⟩ := Finset.mem_inter.mp hpeer
  obtain ⟨k, hk, hvotei⟩ := hpi peer hpeerp
  obtain ⟨l, hl, hvotej⟩ := hqj peer hpeerq
  obtain rfl : k = l := hids (hk.symm.trans hl)
  exact hids (hsingle k term (ids i) (ids j) hvotei hvotej)

theorem Safe.held_unique {votes : Votes n} (h : Safe ids s votes) (hids : Function.Injective ids)
    (hn : 3 ≤ n) {i j : Fin n} {term : UInt64} (hi : (i, term) ∈ s.held) (hj : (j, term) ∈ s.held) :
    i = j :=
  Elected.unique hids hn h.single (h.elected i term hi) (h.elected j term hj)

def castBy (votes : Votes n) (i : Fin n) (cast : Option (UInt64 × PeerId)) : Votes n :=
  votes ∪ {vote | ∃ term c, cast = some (term, c) ∧ vote = (i, term, c)}

theorem subset_castBy (votes : Votes n) (i : Fin n) (cast : Option (UInt64 × PeerId)) :
    votes ⊆ castBy votes i cast := Set.subset_union_left

theorem mem_castBy_of_ne {votes : Votes n} {i j : Fin n} {cast : Option (UInt64 × PeerId)}
    {term : UInt64} {c : PeerId} (hne : j ≠ i) :
    (j, term, c) ∈ castBy votes i cast ↔ (j, term, c) ∈ votes := by
  simp [castBy, hne]

theorem mem_castBy_self {votes : Votes n} {i : Fin n} {cast : Option (UInt64 × PeerId)}
    {term : UInt64} {c : PeerId} :
    (i, term, c) ∈ castBy votes i cast ↔ (i, term, c) ∈ votes ∨ cast = some (term, c) := by
  simp only [castBy, Set.mem_union, Set.mem_ofPred_eq, Prod.mk.injEq, true_and]
  constructor
  · rintro (h | ⟨t, d, hcast, rfl, rfl⟩)
    · exact .inl h
    · exact .inr hcast
  · rintro (h | h)
    · exact .inl h
    · exact .inr ⟨term, c, h, rfl, rfl⟩

/-- A node's new vote is the only one of its term, whatever the operation did to the term. -/
theorem voteOutcome_facts {e after : LeaderElection} {cast : Option (UInt64 × PeerId)}
    (h : VoteOutcome e after cast) :
    e.state.currentTerm ≤ after.state.currentTerm ∧
    (∀ term c, cast = some (term, c) → term = after.state.currentTerm ∧
      after.state.votedFor = some c ∧
      (e.state.currentTerm = term → ∀ d, e.state.votedFor = some d → d = c)) ∧
    (after.state.currentTerm = e.state.currentTerm → ∀ c, e.state.votedFor = some c →
      after.state.votedFor = some c) := by
  obtain ⟨hterm, hvote, rfl⟩ | ⟨candidate, hterm, hfree, hvote, rfl⟩ | ⟨hterm, rfl⟩ := h
  · refine ⟨hterm ▸ UInt64.le_refl _, by simp, ?_⟩
    intro _ c hc
    rw [hvote, hc]
  · refine ⟨hterm ▸ UInt64.le_refl _, ?_, ?_⟩
    · rintro term c heq
      obtain ⟨rfl, rfl⟩ : after.state.currentTerm = term ∧ candidate = c := by simpa using heq
      refine ⟨rfl, hvote, ?_⟩
      intro _ d hd
      cases hfree with
      | inl hnone => simp [hnone] at hd
      | inr hsome => exact Option.some.inj (hd.symm.trans hsome)
    · intro _ c hc
      cases hfree with
      | inl hnone => simp [hnone] at hc
      | inr hsome => rw [hvote, ← hsome, hc]
  · refine ⟨UInt64.le_of_lt hterm, ?_, ?_⟩
    · intro term c heq
      obtain ⟨d, hd, heq⟩ := Option.map_eq_some_iff.mp heq
      obtain ⟨rfl, rfl⟩ : after.state.currentTerm = term ∧ d = c := by simpa using heq
      refine ⟨rfl, hd, ?_⟩
      intro hsame
      grind
    · intro hsame
      grind

/-- A vote that an operation casts is the only one of its term. -/
theorem Safe.single_castBy {votes : Votes n} (h : Safe ids s votes) {i : Fin n} {after : LeaderElection}
    {cast : Option (UInt64 × PeerId)} (hvote : VoteOutcome (s.nodes i) after cast) :
    ∀ j term c d, (j, term, c) ∈ castBy votes i cast → (j, term, d) ∈ castBy votes i cast → c = d := by
  obtain ⟨hterm, hcast, _⟩ := voteOutcome_facts hvote
  intro j term c d hc hd
  by_cases hj : j = i
  · subst hj
    have hfresh : ∀ a b, (j, term, a) ∈ votes → cast = some (term, b) → a = b := by
      intro a b ha hb
      obtain ⟨hnow, _, honly⟩ := hcast term b hb
      have hsame : (s.nodes j).state.currentTerm = term :=
        UInt64.le_antisymm (hnow ▸ hterm) (h.past j term a ha)
      exact honly hsame a (h.current j a (hsame ▸ ha))
    obtain hc | hc := mem_castBy_self.mp hc <;> obtain hd | hd := mem_castBy_self.mp hd
    · exact h.single j term c d hc hd
    · exact hfresh c d hc hd
    · exact (hfresh d c hd hc).symm
    · exact (Prod.mk.inj (Option.some.inj (hc.symm.trans hd))).2
  · exact h.single j term c d ((mem_castBy_of_ne hj).mp hc) ((mem_castBy_of_ne hj).mp hd)

/-- One operation of node `i`, described by what it does to the term, the vote and the role. -/
theorem Safe.act {votes : Votes n} (h : Safe ids s votes) {i : Fin n} {after : LeaderElection}
    {cast : Option (UInt64 × PeerId)} {msgs : List (Envelope n)}
    (hident : after.localPeerId = (s.nodes i).localPeerId)
    (hauto : after.state.manualOverride = false)
    (hvote : VoteOutcome (s.nodes i) after cast)
    (hcounted : after.state.role = .candidate → ∀ peer ∈ after.state.votesReceived,
      ∃ k, peer = ids k ∧ (k, after.state.currentTerm, ids i) ∈ castBy votes i cast)
    (hkeeps : after.state.currentTerm = (s.nodes i).state.currentTerm →
      (s.nodes i).state.role = .leader → after.state.role = .leader)
    (helected : after.state.role = .leader → (i, after.state.currentTerm) ∈ s.held ∨
      Elected ids (castBy votes i cast) i after.state.currentTerm)
    (hmsgs : ∀ env ∈ msgs, Genuine ids (castBy votes i cast) (s.act i after msgs).held env) :
    Safe ids (s.act i after msgs) (castBy votes i cast) := by
  obtain ⟨hterm, hcast, hstays⟩ := voteOutcome_facts hvote
  have hsub := subset_castBy votes i cast
  have hheld : s.held ⊆ (s.act i after msgs).held := fun _ he => mem_act_held.mpr (.inl he)
  constructor
  · refine s.forall_act_nodes (fun j e => e.localPeerId = ids j) ?_ fun j _ => h.ident j
    rw [hident, h.ident]
  · exact s.forall_act_nodes (fun _ e => e.state.manualOverride = false) hauto fun j _ => h.automatic j
  · refine s.forall_act_nodes
      (fun j e => ∀ term c, (j, term, c) ∈ castBy votes i cast → term ≤ e.state.currentTerm) ?_ ?_
    · intro term c hv
      cases mem_castBy_self.mp hv with
      | inl hv => exact UInt64.le_trans (h.past i term c hv) hterm
      | inr hv => exact (hcast term c hv).1 ▸ UInt64.le_refl _
    · intro j hj term c hv
      exact h.past j term c ((mem_castBy_of_ne hj).mp hv)
  · refine s.forall_act_nodes
      (fun j e => ∀ c, (j, e.state.currentTerm, c) ∈ castBy votes i cast → e.state.votedFor = some c) ?_ ?_
    · intro c hv
      cases mem_castBy_self.mp hv with
      | inl hv =>
        have hsame : after.state.currentTerm = (s.nodes i).state.currentTerm :=
          UInt64.le_antisymm (h.past i _ c hv) hterm
        exact hstays hsame c (h.current i c (hsame ▸ hv))
      | inr hv => exact (hcast _ c hv).2.1
    · intro j hj c hv
      exact h.current j c ((mem_castBy_of_ne hj).mp hv)
  · exact h.single_castBy hvote
  · refine s.forall_act_nodes
      (fun j e => e.state.role = .candidate → ∀ peer ∈ e.state.votesReceived,
        ∃ k, peer = ids k ∧ (k, e.state.currentTerm, ids j) ∈ castBy votes i cast) hcounted ?_
    intro j _ hrole peer hpeer
    obtain ⟨k, hk, hv⟩ := h.counted j hrole peer hpeer
    exact ⟨k, hk, hsub hv⟩
  · intro j term he
    obtain hold | ⟨_, hnew⟩ := mem_act_held.mp he
    · by_cases hj : j = i
      · subst hj
        rw [act_nodes_self]
        exact UInt64.le_trans (h.heldPast j term hold) hterm
      · rw [act_nodes_of_ne s hj]
        exact h.heldPast j term hold
    · obtain ⟨rfl, rfl⟩ := Prod.mk.inj hnew
      rw [act_nodes_self]
      exact UInt64.le_refl _
  · refine s.forall_act_nodes
      (fun j e => (j, e.state.currentTerm) ∈ (s.act i after msgs).held → e.state.role = .leader) ?_ ?_
    · intro he
      obtain he | ⟨hrole, _⟩ := mem_act_held.mp he
      · have hsame : after.state.currentTerm = (s.nodes i).state.currentTerm :=
          UInt64.le_antisymm (h.heldPast i _ he) hterm
        exact hkeeps hsame (h.tenure i (hsame ▸ he))
      · exact hrole
    · intro j hj he
      obtain he | ⟨_, he⟩ := mem_act_held.mp he
      · exact h.tenure j he
      · exact absurd (Prod.mk.inj he).1 hj
  · refine s.forall_act_nodes
      (fun j e => e.state.role = .leader → (j, e.state.currentTerm) ∈ (s.act i after msgs).held) ?_ ?_
    · exact fun hrole => mem_act_held.mpr (.inr ⟨hrole, rfl⟩)
    · exact fun j _ hrole => hheld (h.leading j hrole)
  · intro j term he
    obtain he | ⟨hrole, he⟩ := mem_act_held.mp he
    · exact (h.elected j term he).mono hsub
    · obtain ⟨rfl, rfl⟩ := Prod.mk.inj he
      exact (helected hrole).elim (fun he => (h.elected j _ he).mono hsub) id
  · intro env henv
    cases mem_act_sent.mp henv with
    | inl henv => exact (h.wire env henv).mono hsub hheld
    | inr henv => exact hmsgs env henv

theorem Safe.act_frame {votes : Votes n} (h : Safe ids s votes) {i : Fin n} {after : LeaderElection}
    {msgs : List (Envelope n)} (hident : after.localPeerId = (s.nodes i).localPeerId)
    (hauto : after.state.manualOverride = false)
    (hterm : after.state.currentTerm = (s.nodes i).state.currentTerm)
    (hvote : after.state.votedFor = (s.nodes i).state.votedFor)
    (hrole : after.state.role = (s.nodes i).state.role)
    (hreceived : after.state.votesReceived = (s.nodes i).state.votesReceived)
    (hmsgs : ∀ env ∈ msgs, Genuine ids (castBy votes i none) (s.act i after msgs).held env) :
    Safe ids (s.act i after msgs) (castBy votes i none) := by
  refine h.act hident hauto (.kept hterm hvote rfl) ?_ (fun _ hl => hrole.trans hl) ?_ hmsgs
  · intro hcand peer hpeer
    rw [hrole] at hcand
    rw [hreceived] at hpeer
    obtain ⟨k, hk, hv⟩ := h.counted i hcand peer hpeer
    exact ⟨k, hk, subset_castBy _ _ _ (hterm ▸ hv)⟩
  · intro hl
    exact .inl (hterm ▸ h.leading i (hrole ▸ hl))

theorem Safe.startElection {votes : Votes n} (h : Safe ids s votes) (hn : 3 ≤ n) (i : Fin n)
    (hrange : (s.nodes i).InRange (.startElection (n - 1))) :
    ∃ votes', Safe ids (s.act i ((s.nodes i).startElection (n - 1)).election
      (requestVotes i ((s.nodes i).startElection (n - 1)).value)) votes' := by
  have hvote := startElection_voteOutcome hrange
  obtain ⟨_, heq⟩ | ⟨hauto, hman, _, heq⟩ | ⟨_, _, hno, _⟩ := (s.nodes i).startElection_cases (n - 1)
  · rw [heq]
    exact ⟨_, h.act_frame rfl (h.automatic i) rfl rfl rfl rfl (by simp [requestVotes])⟩
  · rw [apply, heq] at hvote
    rw [heq]
    have hown := h.ident i
    have hne : (s.nodes i).state.currentTerm + 1 ≠ (s.nodes i).state.currentTerm := by
      have := lt_add_one (hrange hauto hman)
      grind
    refine ⟨_, h.act rfl hman hvote ?_ (fun hsame => absurd hsame hne) (by simp [campaign]) ?_⟩
    · intro _ peer hpeer
      refine ⟨i, (Finset.mem_singleton.mp hpeer).trans hown, mem_castBy_self.mpr (.inr ?_)⟩
      simp [voteCast, heq, campaign, currentTerm, hne, hown]
    · intro env henv
      obtain ⟨hsrc, _, hmsg⟩ := mem_broadcast.mp henv
      simp [Genuine, hmsg, hsrc, hown]
  · exact absurd hno (Nat.not_le.mpr (one_lt_majorityThreshold (by omega)))

theorem Safe.requestVote {votes : Votes n} (h : Safe ids s votes) {src i : Fin n} {term : UInt64}
    {candidate : PeerId} (hsent : ⟨src, i, .requestVote term candidate⟩ ∈ s.sent) :
    ∃ votes', Safe ids (s.act i ((s.nodes i).handleRequestVote term candidate).election
      [⟨i, src, .voteResponse ((s.nodes i).handleRequestVote term candidate).value.1
        (s.nodes i).localPeerId ((s.nodes i).handleRequestVote term candidate).value.2⟩]) votes' := by
  obtain rfl : candidate = ids src := h.wire _ hsent
  have hvote := (s.nodes i).handleRequestVote_voteOutcome term (ids src)
  rcases (s.nodes i).handleRequestVote_cases term (ids src) with
    ⟨_, heq⟩ | ⟨_, _, heq⟩ | ⟨hterm, _, heq⟩ | ⟨hlt, heq⟩
  · rw [heq]
    exact ⟨_, h.act_frame rfl (h.automatic i) rfl rfl rfl rfl (by simp [Genuine])⟩
  · rw [heq]
    exact ⟨_, h.act_frame rfl (h.automatic i) rfl rfl rfl rfl (by simp [Genuine])⟩
  · rw [apply, heq] at hvote
    rw [heq]
    refine ⟨_, h.act rfl (h.automatic i) hvote ?_ (fun _ => id) (fun hl => .inl (h.leading i hl)) ?_⟩
    · intro hcand peer hpeer
      obtain ⟨k, hk, hv⟩ := h.counted i hcand peer hpeer
      exact ⟨k, hk, subset_castBy _ _ _ hv⟩
    · intro env henv
      obtain rfl := List.mem_singleton.mp henv
      refine fun _ => ⟨h.ident i, mem_castBy_self.mpr (.inr ?_)⟩
      simp [voteCast, heq]
  · rw [apply, heq] at hvote
    rw [heq]
    refine ⟨_, h.act rfl (h.automatic i) hvote (by simp [adoptTerm]) ?_ (by simp [adoptTerm]) ?_⟩
    · intro hsame
      have : term = (s.nodes i).state.currentTerm := hsame
      grind
    · intro env henv
      obtain rfl := List.mem_singleton.mp henv
      refine fun _ => ⟨h.ident i, mem_castBy_self.mpr (.inr ?_)⟩
      simp [voteCast, heq]

theorem Safe.voteResponse {votes : Votes n} (h : Safe ids s votes) {src i : Fin n} {term : UInt64}
    {voter : PeerId} {granted : Bool} (hsent : ⟨src, i, .voteResponse term voter granted⟩ ∈ s.sent)
    {msgs : List (Envelope n)}
    (hmsgs : ∀ votes', ∀ env ∈ msgs, Genuine ids votes'
      (s.act i ((s.nodes i).handleVoteResponse term voter granted (n - 1)).election msgs).held env) :
    ∃ votes', Safe ids
      (s.act i ((s.nodes i).handleVoteResponse term voter granted (n - 1)).election msgs) votes' := by
  have hwire := h.wire _ hsent
  have hvote := (s.nodes i).handleVoteResponse_voteOutcome term voter granted (n - 1)
  have hcount : (s.nodes i).state.role = .candidate → term = (s.nodes i).state.currentTerm →
      ∀ peer ∈ (countVote (s.nodes i).state voter granted).votesReceived,
        ∃ k, peer = ids k ∧ (k, (s.nodes i).state.currentTerm, ids i) ∈ votes := by
    rintro hcand rfl peer hpeer
    cases granted with
    | false => exact h.counted i hcand peer hpeer
    | true =>
      obtain rfl | hpeer := Finset.mem_insert.mp hpeer
      · exact ⟨src, hwire rfl⟩
      · exact h.counted i hcand peer hpeer
  rcases (s.nodes i).handleVoteResponse_cases term voter granted (n - 1) with
    ⟨hlt, heq⟩ | ⟨_, _, heq⟩ | ⟨hcand, hterm, _, heq⟩ | ⟨hcand, hterm, hmajority, heq⟩
  · rw [apply, heq] at hvote
    rw [heq] at hmsgs ⊢
    refine ⟨_, h.act rfl (h.automatic i) hvote (by simp [adoptTerm]) ?_ (by simp [adoptTerm]) (hmsgs _)⟩
    intro hsame
    have : term = (s.nodes i).state.currentTerm := hsame
    grind
  · rw [heq] at hmsgs ⊢
    exact ⟨_, h.act_frame rfl (h.automatic i) rfl rfl rfl rfl (hmsgs _)⟩
  · rw [apply, heq] at hvote
    rw [heq] at hmsgs ⊢
    refine ⟨_, h.act rfl ?_ hvote ?_ ?_ ?_ (hmsgs _)⟩
    · cases granted <;> exact h.automatic i
    · intro _ peer hpeer
      obtain ⟨k, hk, hv⟩ := hcount hcand hterm peer hpeer
      refine ⟨k, hk, subset_castBy _ _ _ ?_⟩
      cases granted <;> exact hv
    · intro _ hl
      exact absurd (hcand.symm.trans hl) (by simp)
    · intro hl
      cases granted <;> exact absurd (hcand.symm.trans hl) (by simp)
  · rw [apply, heq] at hvote
    rw [heq] at hmsgs ⊢
    refine ⟨_, h.act rfl ?_ hvote (fun hno => by cases hno) (fun _ _ => rfl) ?_ (hmsgs _)⟩
    · cases granted <;> exact h.automatic i
    · intro _
      refine .inr ⟨(countVote (s.nodes i).state voter granted).votesReceived, hmajority, ?_⟩
      intro peer hpeer
      obtain ⟨k, hk, hv⟩ := hcount hcand hterm peer hpeer
      refine ⟨k, hk, subset_castBy _ _ _ ?_⟩
      cases granted <;> exact hv

theorem Safe.heartbeat {votes : Votes n} (h : Safe ids s votes) (hids : Function.Injective ids)
    (hn : 3 ≤ n) {src i : Fin n} {term timestamp : UInt64} {leader : PeerId}
    (hsent : ⟨src, i, .heartbeat term leader timestamp⟩ ∈ s.sent) :
    ∃ votes', Safe ids (s.act i ((s.nodes i).handleHeartbeat term leader).election
      [⟨i, src, .heartbeatResponse term timestamp⟩]) votes' := by
  obtain ⟨_, hheld, hne⟩ := h.wire _ hsent
  have hvote := (s.nodes i).handleHeartbeat_voteOutcome term leader
  obtain ⟨_, heq⟩ | ⟨_, _, _, heq⟩ := (s.nodes i).handleHeartbeat_cases term leader
  · rw [heq]
    exact ⟨_, h.act_frame rfl (h.automatic i) rfl rfl rfl rfl (by simp [Genuine])⟩
  · rw [apply, heq] at hvote
    rw [heq]
    refine ⟨_, h.act rfl (h.automatic i) hvote (by simp [follow]) ?_ (by simp [follow])
      (by simp [Genuine])⟩
    intro hsame hl
    have hterm : term = (s.nodes i).state.currentTerm := hsame
    exact absurd (h.held_unique hids hn (h.leading i hl) (hterm ▸ hheld)) hne

theorem Safe.announce {votes : Votes n} (h : Safe ids s votes) {i : Fin n} {term now : UInt64}
    (hheld : (i, term) ∈ s.held) :
    ∃ votes', Safe ids (s.act i (s.nodes i)
      (broadcast i (.heartbeat term (s.nodes i).localPeerId now))) votes' := by
  refine ⟨_, h.act_frame rfl (h.automatic i) rfl rfl rfl rfl ?_⟩
  intro env henv
  obtain ⟨rfl, hdst, hmsg⟩ := mem_broadcast.mp henv
  simp only [Genuine, hmsg]
  exact ⟨h.ident _, mem_act_held.mpr (.inl hheld), hdst⟩

theorem Safe.handlePeerLeft {votes : Votes n} (h : Safe ids s votes) (i : Fin n) (peer : PeerId) :
    ∃ votes', Safe ids (s.act i ((s.nodes i).handlePeerLeft peer).election []) votes' := by
  obtain ⟨_, heq⟩ | ⟨_, manual, hmanual, heq⟩ := (s.nodes i).handlePeerLeft_cases peer
  · rw [heq]
    exact ⟨_, h.act_frame rfl (h.automatic i) rfl rfl rfl rfl (by simp)⟩
  · rw [heq]
    refine ⟨_, h.act_frame rfl ?_ rfl rfl rfl rfl (by simp)⟩
    exact Bool.eq_false_iff.mpr fun hm => Bool.eq_false_iff.mp (h.automatic i) (hmanual hm)

theorem Safe.enableAutoElection {votes : Votes n} (h : Safe ids s votes) (i : Fin n) (enable : Bool) :
    ∃ votes', Safe ids (s.act i ((s.nodes i).enableAutoElection enable).election []) votes' := by
  obtain ⟨manual, hmanual, _, heq⟩ := (s.nodes i).enableAutoElection_cases enable
  rw [heq]
  refine ⟨_, h.act_frame rfl ?_ rfl rfl rfl rfl (by simp)⟩
  exact Bool.eq_false_iff.mpr fun hm => Bool.eq_false_iff.mp (h.automatic i) (hmanual hm)

theorem Safe.receive {votes : Votes n} (h : Safe ids s votes) (hids : Function.Injective ids)
    (hn : 3 ≤ n) {env : Envelope n} (hsent : env ∈ s.sent) (now : UInt64) :
    ∃ votes', Safe ids (s.act env.dst ((s.nodes env.dst).handleMessage (n - 1) now env.msg).1
      (((s.nodes env.dst).handleMessage (n - 1) now env.msg).2.flatMap
        (Outgoing.post env.dst env.src))) votes' := by
  obtain ⟨src, i, msg⟩ := env
  cases msg with
  | heartbeat term leader timestamp => simpa [handleMessage, Outgoing.post] using h.heartbeat hids hn hsent
  | requestVote term candidate => simpa [handleMessage, Outgoing.post] using h.requestVote hsent
  | voteResponse term voter granted =>
    refine h.voteResponse hsent ?_
    intro votes' env henv
    by_cases hwon : ((s.nodes i).handleVoteResponse term voter granted (n - 1)).value = true
    · simp only [handleMessage, if_pos hwon, List.flatMap_cons, List.flatMap_nil, List.append_nil,
        Outgoing.post] at henv
      obtain ⟨rfl, hdst, hmsg⟩ := mem_broadcast.mp henv
      simp only [Genuine, hmsg]
      exact ⟨h.ident _, mem_act_held.mpr (.inr ⟨role_of_won hwon, rfl⟩), hdst⟩
    · simp [handleMessage, hwon] at henv
  | leaderAssign term leader assigner => exact absurd (h.wire _ hsent) id
  | _ =>
    exact ⟨_, h.act_frame rfl (h.automatic i) rfl rfl rfl rfl (by simp [handleMessage])⟩

theorem safe_step {votes : Votes n} (h : Safe ids s votes) (hids : Function.Injective ids)
    (hn : 3 ≤ n) {a : Action n} (hrange : s.InRange a) {next : Cluster n}
    (hstep : s.step a = some next) : ∃ votes', Safe ids next votes' := by
  cases a with
  | startElection i =>
    obtain rfl : _ = next := Option.some.inj hstep
    exact h.startElection hn i hrange
  | receive i env now =>
    simp only [step, Option.ite_none_right_eq_some, Option.some.injEq] at hstep
    obtain ⟨⟨hsent, rfl⟩, rfl⟩ := hstep
    exact h.receive hids hn hsent now
  | heartbeat i now =>
    simp only [step, Option.ite_none_right_eq_some, Option.some.injEq] at hstep
    obtain ⟨hleader, rfl⟩ := hstep
    exact h.announce (h.leading i (by simpa [isLeader] using hleader))
  | handlePeerLeft i peer =>
    obtain rfl : _ = next := Option.some.inj hstep
    exact h.handlePeerLeft i peer
  | enableAutoElection i enable =>
    obtain rfl : _ = next := Option.some.inj hstep
    exact h.enableAutoElection i enable

theorem safe_run (hids : Function.Injective ids) (hn : 3 ≤ n) {recovery : ManualOverrideRecovery}
    {acts : List (Action n)} (hrange : Along step InRange (start ids recovery) acts)
    (hrun : run step (start ids recovery) acts = some s) : ∃ votes, Safe ids s votes :=
  invariant (I := fun s => ∃ votes, Safe ids s votes)
    (fun _ _ _ ⟨_, h⟩ hin hstep => safe_step h hids hn hin hstep) ⟨∅, safe_start ids recovery⟩ hrange hrun

/-- As long as no term wraps, a term has at most one Leader over the whole run, and all heartbeats
of a term name the same leader. -/
theorem one_leader_per_term (hn : 3 ≤ n) (hids : Function.Injective ids)
    (recovery : ManualOverrideRecovery) (acts : List (Action n))
    (hrange : Along step InRange (start ids recovery) acts)
    (hrun : run step (start ids recovery) acts = some s) :
    (∀ term i j, (i, term) ∈ s.held → (j, term) ∈ s.held → i = j) ∧
    ∀ term l m t u, ∀ env ∈ s.sent, ∀ env' ∈ s.sent, env.msg = .heartbeat term l t →
      env'.msg = .heartbeat term m u → l = m := by
  obtain ⟨votes, hsafe⟩ := safe_run hids hn hrange hrun
  refine ⟨fun term i j hi hj => hsafe.held_unique hids hn hi hj, ?_⟩
  intro term l m t u env henv env' henv' hmsg hmsg'
  have hl := hsafe.wire env henv
  have hm := hsafe.wire env' henv'
  simp only [Genuine, hmsg] at hl
  simp only [Genuine, hmsg'] at hm
  rw [hl.1, hm.1, hsafe.held_unique hids hn hl.2.1 hm.2.1]

def threeIds : Fin 3 → PeerId := ![⟨"a"⟩, ⟨"b"⟩, ⟨"c"⟩]

theorem threeIds_injective : Function.Injective threeIds := by decide

def firstElection : List (Action 3) :=
  [.startElection 0, .receive 1 ⟨0, 1, .requestVote 1 ⟨"a"⟩⟩ 0,
    .receive 0 ⟨1, 0, .voteResponse 1 ⟨"b"⟩ true⟩ 0]

theorem one_leader_after_first_election :
    ∃ s, run step (start threeIds .hold) firstElection = some s ∧ (0, 1) ∈ s.held ∧
      ∀ j, (j, 1) ∈ s.held → j = 0 := by
  have hzero : ∃ s, run step (start threeIds .hold) firstElection = some s ∧ (0, 1) ∈ s.held :=
    ⟨_, rfl, by decide⟩
  obtain ⟨s, hrun, hheld⟩ := hzero
  have honce := one_leader_per_term (Nat.le_refl 3) threeIds_injective .hold firstElection (by decide) hrun
  exact ⟨s, hrun, hheld, fun j hj => honce.1 1 j 0 hj hheld⟩

/-- A node that keeps starting elections only moves its own term, one step at a time. -/
theorem run_startElection_replicate (hn : 3 ≤ n) (s : Cluster n) (i : Fin n)
    (hauto : (s.nodes i).state.autoElectionEnabled = true)
    (hman : (s.nodes i).state.manualOverride = false) (k : Nat) :
    ∃ next, run step s (List.replicate (k + 1) (.startElection i)) = some next ∧
      next.nodes = Function.update s.nodes i { s.nodes i with state :=
        { (s.nodes i).campaign with
          currentTerm := (s.nodes i).state.currentTerm + UInt64.ofNat (k + 1) } } ∧
      next.held = s.held ∧
      ∀ j, j ≠ i → ⟨i, j, .requestVote ((s.nodes i).state.currentTerm + UInt64.ofNat (k + 1))
        (s.nodes i).localPeerId⟩ ∈ next.sent := by
  have hcampaign : ∀ e : LeaderElection, e.state.autoElectionEnabled = true →
      e.state.manualOverride = false → e.startElection (n - 1) =
        ⟨{ e with state := e.campaign }, none, some (e.state.currentTerm + 1, e.localPeerId)⟩ := by
    intro e hauto hman
    obtain ⟨hno | hno, _⟩ | ⟨_, _, _, heq⟩ | ⟨_, _, hno, _⟩ := e.startElection_cases (n - 1)
    · simp [hauto] at hno
    · simp [hman] at hno
    · exact heq
    · exact absurd hno (Nat.not_le.mpr (one_lt_majorityThreshold (by omega)))
  induction k with
  | zero =>
    refine ⟨_, rfl, ?_⟩
    simp +contextual [act, hcampaign _ hauto hman, isLeader, campaign, requestVotes, mem_broadcast]
  | succ k ih =>
    obtain ⟨m, hm, hnodes, hheld, _⟩ := ih
    have hlast : (m.nodes i).startElection (n - 1) = _ :=
      hcampaign (m.nodes i) (by simp [hnodes, campaign, hauto]) (by simp [hnodes, campaign, hman])
    refine ⟨m.act i ((m.nodes i).startElection (n - 1)).election
      (requestVotes i ((m.nodes i).startElection (n - 1)).value), ?_, ?_⟩
    · rw [List.replicate_succ', run_concat_iff]
      exact ⟨m, hm, rfl⟩
    · simp only [hlast]
      simp +contextual [act, isLeader, campaign, requestVotes, mem_broadcast, hnodes, hheld,
        UInt64.add_assoc]

/-- After its first election the cluster watches node 1 go once round all the terms of `u64` and
ask node 2 for its vote. -/
def wrapRun : List (Action 3) :=
  firstElection ++ (List.replicate (2 ^ 64) (.startElection 1) ++
    [.receive 2 ⟨1, 2, .requestVote 1 ⟨"b"⟩⟩ 0, .receive 1 ⟨2, 1, .voteResponse 1 ⟨"c"⟩ true⟩ 0])

theorem two_leaders_of_one_term_after_wrap :
    ∃ s, run step (start threeIds .hold) wrapRun = some s ∧ (0, 1) ∈ s.held ∧ (1, 1) ∈ s.held := by
  obtain ⟨first, hfirst, hheld, hnode, hthird⟩ :
      ∃ first, run step (start threeIds .hold) firstElection = some first ∧ (0, 1) ∈ first.held ∧
        first.nodes 1 = { LeaderElection.new ⟨"b"⟩ true .hold with state :=
          { (LeaderElection.new ⟨"b"⟩ true .hold).state with currentTerm := 1, votedFor := some ⟨"a"⟩ } } ∧
        first.nodes 2 = LeaderElection.new ⟨"c"⟩ true .hold :=
    ⟨_, rfl, by decide, by decide, by decide⟩
  have hsize : 2 ^ 64 - 1 + 1 = 2 ^ 64 := by decide
  obtain ⟨round, hround, hnodes, hroundHeld, hrequest⟩ := run_startElection_replicate (Nat.le_refl 3)
    first 1 (by rw [hnode]; rfl) (by rw [hnode]; rfl) (2 ^ 64 - 1)
  rw [hsize] at hround hnodes hrequest
  have hterm : (first.nodes 1).state.currentTerm + UInt64.ofNat (2 ^ 64) = 1 := by
    rw [hnode]
    decide
  rw [hterm] at hnodes hrequest
  have hsecond : round.nodes 1 = { LeaderElection.new ⟨"b"⟩ true .hold with state :=
      { (LeaderElection.new ⟨"b"⟩ true .hold).campaign with currentTerm := 1 } } := by
    simp [hnodes, hnode, campaign, LeaderElection.new]
  have hlast : round.nodes 2 = LeaderElection.new ⟨"c"⟩ true .hold := by
    simp [hnodes, hthird]
  have hask : ⟨1, 2, .requestVote 1 ⟨"b"⟩⟩ ∈ round.sent := by
    have := hrequest 2 (by decide)
    rwa [hnode] at this
  have hstep : step round (.receive 2 ⟨1, 2, .requestVote 1 ⟨"b"⟩⟩ 0) = some (round.act 2
      ((LeaderElection.new ⟨"c"⟩ true .hold).apply (.handleRequestVote 1 ⟨"b"⟩))
      [⟨2, 1, .voteResponse 1 ⟨"c"⟩ true⟩]) := by
    simp only [step, hask, hlast, true_and, if_true]
    rfl
  have hfinal : ∀ m : Cluster 3, m.nodes 1 = round.nodes 1 →
      ⟨2, 1, .voteResponse 1 ⟨"c"⟩ true⟩ ∈ m.sent → ∃ last,
        step m (.receive 1 ⟨2, 1, .voteResponse 1 ⟨"c"⟩ true⟩ 0) = some last ∧
        m.held ⊆ last.held ∧ (1, 1) ∈ last.held := by
    intro m hm hsent
    refine ⟨_, by simp only [step, hsent, true_and, if_true]; rfl, ?_, ?_⟩
    · exact fun _ h => mem_act_held.mpr (.inl h)
    · rw [hm, hsecond]
      exact mem_act_held.mpr (.inr (by decide))
  obtain ⟨last, hlaststep, hsub, hone⟩ := hfinal (round.act 2
      ((LeaderElection.new ⟨"c"⟩ true .hold).apply (.handleRequestVote 1 ⟨"b"⟩))
      [⟨2, 1, .voteResponse 1 ⟨"c"⟩ true⟩]) (act_nodes_of_ne _ (by decide) _ _)
      (mem_act_sent.mpr (.inr (List.mem_singleton_self _)))
  refine ⟨last, run_append_iff.mpr ⟨first, hfirst, run_append_iff.mpr ⟨round, hround, ?_⟩⟩, ?_, hone⟩
  · exact run_cons_iff.mpr ⟨_, hstep, run_cons_iff.mpr ⟨last, hlaststep, rfl⟩⟩
  · exact hsub (mem_act_held.mpr (.inl (hroundHeld ▸ hheld)))

end MetaMystia.Cluster

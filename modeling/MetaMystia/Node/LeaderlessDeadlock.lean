import MetaMystia.Node.PeerMesh
import Mathlib.Data.Finset.Max
import Mathlib.Data.Fintype.Basic
import Mathlib.Data.Prod.Lex

/-! # A mesh without a leader

A node that names a leader does not start an election, so the mesh is stuck if
every node names a leader and no node is one. The order of the leaders that a
node has followed, by term and then id, rules this out as long as a Leader is
not demoted by a vote message and a former Leader is not taken back to a smaller
id.
-/

namespace MetaMystia.PeerMesh

open Runs Mesh LeaderElection MembershipManager

variable {n : Nat} {ids : Fin n → PeerId} {s next : PeerMesh n}

/-- The message does not demote a Leader without naming another one, and does not take a node that
led its current term back to a leader with a smaller id. -/
def calm (e : LeaderElection) (led : UInt64 → Bool) : List InternalMessage → Bool
  | .requestVote term _ :: _ | .voteResponse term _ _ :: _ =>
    !e.isLeader || !decide (e.currentTerm < term)
  | .heartbeat term leader _ :: _ =>
    e.isLeader || term != e.currentTerm || !led term || !decide (leader < e.localPeerId)
  | _ => true

def Calm (s : PeerMesh n) : Action n → Prop
  | .electionTick i _ =>
    (s.election i).InRange (.startElection (s.nodes i).membership.getConnectedPeerCount)
  | .deliver src dst _ =>
    calm (s.election dst) (fun term => (dst, term) ∈ s.held) (s.channels src dst) = true
  | _ => True

instance (s : PeerMesh n) : (a : Action n) → Decidable (s.Calm a)
  | .electionTick i _ => inferInstanceAs
      (Decidable ((s.election i).InRange (.startElection (s.nodes i).membership.getConnectedPeerCount)))
  | .deliver .. => inferInstanceAs (Decidable (_ = true))
  | .heartbeatTick .. | .watch _ | .leave _ => .isTrue trivial

/-- Nothing keeps the node from an election but the leader that it names. -/
def Automatic (e : LeaderElection) : Prop :=
  e.state.autoElectionEnabled = true ∧ e.state.manualOverride = false

/-- What the leader of a node tells about the past. `since` is the term in which it was named. -/
structure Pointing (ids : Fin n → PeerId) (held : List (Fin n × UInt64)) (i : Fin n)
    (since : UInt64) (e : LeaderElection) : Prop where
  ident : e.localPeerId = ids i
  automatic : Automatic e
  leading : e.state.role = .leader → (i, e.state.currentTerm) ∈ held ∧
    e.state.leaderId = some (ids i) ∧ since = e.state.currentTerm
  past : ∀ term, (i, term) ∈ held → term ≤ e.state.currentTerm
  pointer : ∀ x, e.state.leaderId = some x → (∃ m, x = ids m ∧ (m, since) ∈ held) ∧
    since ≤ e.state.currentTerm
  rank : ∀ term x, (i, term) ∈ held → e.state.leaderId = some x →
    term < since ∨ (term = since ∧ (ids i < x ∨ e.state.role = .leader))

theorem Pointing.others {held : List (Fin n × UInt64)} {i j : Fin n} {since : UInt64}
    {e after : LeaderElection} (h : Pointing ids held j since e) (hj : j ≠ i) :
    Pointing ids (heldAfter held i after) j since e := by
  have hsub : ∀ term, (j, term) ∈ heldAfter held i after → (j, term) ∈ held := by
    intro term hmem
    obtain hold | ⟨_, hnew⟩ := mem_heldAfter.mp hmem
    · exact hold
    · exact absurd (congrArg Prod.fst hnew) hj
  refine ⟨h.ident, h.automatic, ?_, ?_, ?_, ?_⟩
  · intro hrole
    obtain ⟨hheld, hrest⟩ := h.leading hrole
    exact ⟨mem_heldAfter.mpr (.inl hheld), hrest⟩
  · exact fun term hmem => h.past term (hsub term hmem)
  · intro x hx
    obtain ⟨⟨m, hm, hheld⟩, hle⟩ := h.pointer x hx
    exact ⟨⟨m, hm, mem_heldAfter.mpr (.inl hheld)⟩, hle⟩
  · exact fun term x hmem hx => h.rank term x (hsub term hmem) hx

theorem Pointing.frame {held : List (Fin n × UInt64)} {i : Fin n} {since : UInt64}
    {e after : LeaderElection} (h : Pointing ids held i since e)
    (hident : after.localPeerId = e.localPeerId) (hauto : Automatic after)
    (hleader : after.state.leaderId = e.state.leaderId)
    (hterm : e.state.currentTerm ≤ after.state.currentTerm)
    (hrole : after.state.role = .leader ↔ e.state.role = .leader)
    (hsame : e.state.role = .leader → after.state.currentTerm = e.state.currentTerm) :
    Pointing ids (heldAfter held i after) i since after := by
  have hsub : ∀ term, (i, term) ∈ heldAfter held i after → (i, term) ∈ held := by
    intro term hmem
    obtain hold | ⟨hl, hnew⟩ := mem_heldAfter.mp hmem
    · exact hold
    · rw [hnew, hsame (hrole.mp hl)]
      exact (h.leading (hrole.mp hl)).1
  refine ⟨hident.trans h.ident, hauto, ?_, ?_, ?_, ?_⟩
  · intro hl
    obtain ⟨hheld, hself, hsince⟩ := h.leading (hrole.mp hl)
    rw [hsame (hrole.mp hl), hleader]
    exact ⟨mem_heldAfter.mpr (.inl hheld), hself, hsince⟩
  · exact fun term hmem => UInt64.le_trans (h.past term (hsub term hmem)) hterm
  · intro x hx
    obtain ⟨⟨m, hm, hheld⟩, hle⟩ := h.pointer x (hleader ▸ hx)
    exact ⟨⟨m, hm, mem_heldAfter.mpr (.inl hheld)⟩, UInt64.le_trans hle hterm⟩
  · intro term x hmem hx
    rw [hrole]
    exact h.rank term x (hsub term hmem) (hleader ▸ hx)

theorem Pointing.same {held : List (Fin n × UInt64)} {i : Fin n} {since : UInt64}
    {e : LeaderElection} (h : Pointing ids held i since e) :
    Pointing ids (heldAfter held i e) i since e :=
  h.frame rfl h.automatic rfl (UInt64.le_refl _) Iff.rfl fun _ => rfl

theorem Pointing.forget {held : List (Fin n × UInt64)} {i : Fin n} {since : UInt64}
    {e after : LeaderElection} (h : Pointing ids held i since e)
    (hident : after.localPeerId = e.localPeerId) (hauto : Automatic after)
    (hleader : after.state.leaderId = none)
    (hterm : e.state.currentTerm ≤ after.state.currentTerm) (hrole : after.state.role ≠ .leader) :
    Pointing ids (heldAfter held i after) i since after := by
  refine ⟨hident.trans h.ident, hauto, fun hl => absurd hl hrole, ?_, ?_, ?_⟩
  · intro term hmem
    obtain hold | ⟨hl, _⟩ := mem_heldAfter.mp hmem
    · exact UInt64.le_trans (h.past term hold) hterm
    · exact absurd hl hrole
  · intro x hx
    simp [hleader] at hx
  · intro term x _ hx
    simp [hleader] at hx

theorem Pointing.elect {held : List (Fin n × UInt64)} {i : Fin n} {since : UInt64}
    {e after : LeaderElection} (h : Pointing ids held i since e)
    (hident : after.localPeerId = e.localPeerId) (hauto : Automatic after)
    (hrole : after.state.role = .leader)
    (hleader : after.state.leaderId = some (ids i))
    (hterm : e.state.currentTerm ≤ after.state.currentTerm) :
    Pointing ids (heldAfter held i after) i after.state.currentTerm after := by
  have hpast : ∀ term, (i, term) ∈ heldAfter held i after → term ≤ after.state.currentTerm := by
    intro term hmem
    obtain hold | ⟨_, hnew⟩ := mem_heldAfter.mp hmem
    · exact UInt64.le_trans (h.past term hold) hterm
    · rw [(Prod.mk.inj hnew).2]
      exact UInt64.le_refl _
  have hheld : (i, after.state.currentTerm) ∈ heldAfter held i after :=
    mem_heldAfter.mpr (.inr ⟨hrole, rfl⟩)
  refine ⟨hident.trans h.ident, hauto, fun _ => ⟨hheld, hleader, rfl⟩, hpast, ?_, ?_⟩
  · intro x hx
    obtain rfl : ids i = x := Option.some.inj (hleader.symm.trans hx)
    exact ⟨⟨i, rfl, hheld⟩, UInt64.le_refl _⟩
  · intro term x hmem _
    by_cases heq : term = after.state.currentTerm
    · exact .inr ⟨heq, .inr hrole⟩
    · exact .inl (UInt64.lt_of_le_of_ne (hpast term hmem) heq)

theorem Pointing.follow {held : List (Fin n × UInt64)} {i src : Fin n} {since term : UInt64}
    {e : LeaderElection} (h : Pointing ids held i since e) (hids : Function.Injective ids)
    (hsrc : src ≠ i) (hheld : (src, term) ∈ held) (hlow : ¬ term < e.state.currentTerm)
    (hstep : e.state.role = .leader → e.state.currentTerm < term ∨ e.localPeerId < ids src)
    (hcalm : e.state.role = .leader ∨ term ≠ e.state.currentTerm ∨ (i, term) ∉ held ∨
      ¬ ids src < e.localPeerId) :
    Pointing ids (heldAfter held i { e with state := LeaderElection.follow e.state term (ids src) }) i term
      { e with state := LeaderElection.follow e.state term (ids src) } := by
  have hle : e.state.currentTerm ≤ term := UInt64.not_lt.mp hlow
  have hsub : ∀ entry, entry ∈ heldAfter held i
      { e with state := LeaderElection.follow e.state term (ids src) } → entry ∈ held := by
    intro entry hmem
    obtain hold | ⟨hl, _⟩ := mem_heldAfter.mp hmem
    · exact hold
    · exact absurd hl nofun
  refine ⟨h.ident, h.automatic, nofun, ?_, ?_, ?_⟩
  · exact fun t hmem => UInt64.le_trans (h.past t (hsub _ hmem)) hle
  · intro x hx
    obtain rfl : ids src = x := Option.some.inj hx
    exact ⟨⟨src, rfl, mem_heldAfter.mpr (.inl hheld)⟩, UInt64.le_refl _⟩
  · intro t x hmem hx
    obtain rfl : ids src = x := Option.some.inj hx
    by_cases heq : t = term
    · refine .inr ⟨heq, .inl ?_⟩
      subst heq
      have hcurrent : t = e.state.currentTerm := UInt64.le_antisymm (h.past t (hsub _ hmem)) hle
      have hne : ids i ≠ ids src := fun hsame => hsrc (hids hsame).symm
      rw [h.ident] at hstep hcalm
      by_cases hl : e.state.role = .leader
      · exact (hstep hl).resolve_left (hcurrent ▸ UInt64.lt_irrefl _)
      · obtain hrole | hterm | hnot | hid := hcalm
        · exact absurd hrole hl
        · exact absurd hcurrent hterm
        · exact absurd (hsub _ hmem) hnot
        · exact lt_of_le_of_ne (not_lt.mp hid) hne
    · exact .inl (UInt64.lt_of_le_of_ne (UInt64.le_trans (h.past t (hsub _ hmem)) hle) heq)

/-- An election message keeps the order of leaders, if it comes from a node that may send it. -/
theorem Pointing.handleMessage {held : List (Fin n × UInt64)} {i src : Fin n} {since : UInt64}
    {e : LeaderElection} (h : Pointing ids held i since e) (hids : Function.Injective ids)
    (hsrc : src ≠ i) {msg : InternalMessage} {rest : List InternalMessage} {count : Nat} {now : UInt64}
    (hheartbeat : ∀ term leader timestamp, msg = .heartbeat term leader timestamp →
      leader = ids src ∧ (src, term) ∈ held)
    (hassign : ∀ term leader assigner, msg ≠ .leaderAssign term leader assigner)
    (hcalm : calm e (fun term => (i, term) ∈ held) (msg :: rest) = true) :
    ∃ since', Pointing ids (heldAfter held i (e.handleMessage count now msg).1) i since'
      (e.handleMessage count now msg).1 := by
  have hvote : ∀ term, (e.isLeader = false ∨ ¬ e.currentTerm < term) → e.state.currentTerm < term →
      e.state.role ≠ .leader := by
    intro term hor hlt hl
    cases hor with
    | inl hnot => simp [isLeader, hl] at hnot
    | inr hge => exact hge hlt
  cases msg with
  | heartbeat term leader timestamp =>
    obtain ⟨rfl, hheld⟩ := hheartbeat term leader timestamp rfl
    simp only [calm, Bool.or_eq_true, bne_iff_ne, Bool.not_eq_true', decide_eq_false_iff_not] at hcalm
    obtain ⟨_, heq⟩ | ⟨hlow, _, hstep, heq⟩ := e.handleHeartbeat_cases term (ids src)
    · simp only [LeaderElection.handleMessage, heq]
      exact ⟨since, h.same⟩
    · simp only [LeaderElection.handleMessage, heq]
      refine ⟨term, h.follow hids hsrc hheld hlow hstep ?_⟩
      obtain ((hl | hterm) | hnot) | hid := hcalm
      · exact .inl (by simpa [isLeader] using hl)
      · exact .inr (.inl hterm)
      · exact .inr (.inr (.inl hnot))
      · exact .inr (.inr (.inr hid))
  | requestVote term candidate =>
    simp only [calm, Bool.or_eq_true, Bool.not_eq_true', decide_eq_false_iff_not] at hcalm
    obtain ⟨_, heq⟩ | ⟨_, _, heq⟩ | ⟨_, _, heq⟩ | ⟨hlt, heq⟩ := e.handleRequestVote_cases term candidate
    · simp only [LeaderElection.handleMessage, heq]
      exact ⟨since, h.same⟩
    · simp only [LeaderElection.handleMessage, heq]
      exact ⟨since, h.same⟩
    · simp only [LeaderElection.handleMessage, heq]
      exact ⟨since, h.frame rfl h.automatic rfl (UInt64.le_refl _) Iff.rfl (fun _ => rfl)⟩
    · simp only [LeaderElection.handleMessage, heq]
      have hrole := hvote term hcalm hlt
      exact ⟨since, h.frame rfl h.automatic rfl (UInt64.le_of_lt hlt) ⟨by simp [adoptTerm], fun hl => absurd hl hrole⟩
        (fun hl => absurd hl hrole)⟩
  | voteResponse term voter granted =>
    simp only [calm, Bool.or_eq_true, Bool.not_eq_true', decide_eq_false_iff_not] at hcalm
    rcases e.handleVoteResponse_cases term voter granted count with
      ⟨hlt, heq⟩ | ⟨_, _, heq⟩ | ⟨hcand, _, _, heq⟩ | ⟨hcand, _, _, heq⟩
    · simp only [LeaderElection.handleMessage, heq]
      have hrole := hvote term hcalm hlt
      exact ⟨since, h.frame rfl h.automatic rfl (UInt64.le_of_lt hlt) ⟨by simp [adoptTerm], fun hl => absurd hl hrole⟩
        (fun hl => absurd hl hrole)⟩
    · simp only [LeaderElection.handleMessage, heq]
      exact ⟨since, h.same⟩
    · simp only [LeaderElection.handleMessage, heq]
      refine ⟨since, ?_⟩
      cases granted <;> exact h.frame rfl h.automatic rfl (UInt64.le_refl _) Iff.rfl (fun _ => rfl)
    · simp only [LeaderElection.handleMessage, heq]
      refine ⟨_, h.elect rfl ?_ rfl (by rw [← h.ident]; rfl) ?_⟩
      · cases granted <;> exact h.automatic
      · cases granted <;> exact UInt64.le_refl _
  | leaderAssign term leader assigner => exact absurd rfl (hassign term leader assigner)
  | _ => exact ⟨since, h.same⟩

theorem Pointing.electionTick {held : List (Fin n × UInt64)} {i : Fin n} {since : UInt64}
    {node : NetworkState} (h : Pointing ids held i since node.leaderElection)
    (hrange : node.leaderElection.InRange (.startElection node.membership.getConnectedPeerCount))
    (now : Clock) :
    ∃ since', Pointing ids (heldAfter held i (node.electionTick now).1.leaderElection) i since'
      (node.electionTick now).1.leaderElection := by
  obtain ⟨_, heq⟩ | ⟨_, hnone, hauto, hman, heq | heq⟩ := node.electionTick_cases now
  · rw [heq]
    exact ⟨since, h.same⟩
  · rw [heq]
    exact ⟨since, h.forget rfl h.automatic hnone (UInt64.le_of_lt (lt_add_one (hrange hauto hman))) nofun⟩
  · rw [heq]
    exact ⟨_, h.elect rfl h.automatic rfl (by rw [← h.ident]; rfl)
      (UInt64.le_of_lt (lt_add_one (hrange hauto hman)))⟩

theorem Pointing.handlePeerLeft {held : List (Fin n × UInt64)} {i : Fin n} {since : UInt64}
    {e : LeaderElection} (h : Pointing ids held i since e) {peer : PeerId} (hpeer : peer ≠ ids i) :
    Pointing ids (heldAfter held i (e.handlePeerLeft peer).election) i since
      (e.handlePeerLeft peer).election := by
  cases e.handlePeerLeft_cases peer with
  | inl hcase =>
    rw [hcase.2]
    exact h.same
  | inr hcase =>
    obtain ⟨hleader, manual, hmanual, heq⟩ := hcase
    have hfalse : manual = false := by
      cases manual with
      | false => rfl
      | true => exact absurd (hmanual rfl) (by simp [h.automatic.2])
    rw [heq]
    refine h.forget rfl ⟨h.automatic.1, hfalse⟩ rfl (UInt64.le_refl _) ?_
    intro hrole
    have hself := (h.leading hrole).2.1
    exact hpeer (Option.some.inj (hleader.symm.trans hself))

structure Ordered (ids : Fin n → PeerId) (s : PeerMesh n) : Prop where
  wired : Wired ids s
  pointing : ∀ i, ∃ since, Pointing ids s.held i since (s.election i)

theorem ordered_start {nodes : Fin n → NetworkState} (h : FullyConnected ids nodes) :
    Ordered ids (start nodes) := by
  refine ⟨wired_start h, fun i => ⟨0, ?_⟩⟩
  obtain ⟨recovery, heq⟩ := h.started i
  have helection : (start nodes).election i = .new (ids i) true recovery := heq
  rw [helection]
  exact ⟨rfl, ⟨rfl, rfl⟩, nofun, nofun, nofun, nofun⟩

theorem pointing_setNode (h : ∀ k, ∃ since, Pointing ids s.held k since (s.election k)) {i : Fin n}
    {node : NetworkState}
    (hi : ∃ since, Pointing ids (heldAfter s.held i node.leaderElection) i since node.leaderElection)
    (k : Fin n) :
    ∃ since, Pointing ids (s.setNode i node).held k since ((s.setNode i node).election k) := by
  refine forall_setNode (P := fun k node => ∃ since, Pointing ids (heldAfter s.held i _) k since
    node.leaderElection) hi (fun j hj => ?_) k
  obtain ⟨since, hpoint⟩ := h j
  exact ⟨since, hpoint.others hj⟩

theorem Ordered.electionTick (h : Ordered ids s) (hids : Function.Injective ids) {i : Fin n}
    (hpresent : s.present i = true) (now : Clock)
    (hrange : (s.election i).InRange (.startElection (s.nodes i).membership.getConnectedPeerCount)) :
    Ordered ids ((s.setNode i ((s.nodes i).electionTick now).1).send i i
      ((s.nodes i).electionTick now).2) := by
  obtain ⟨since, hpoint⟩ := h.pointing i
  refine ⟨?_, pointing_setNode h.pointing (hpoint.electionTick hrange now)⟩
  obtain ⟨_, heq⟩ | ⟨_, _, _, _, heq | heq⟩ := (s.nodes i).electionTick_cases now
  · rw [heq]
    exact h.wired.setElection (fun _ _ hleader => hleader)
  · rw [heq]
    refine Wired.send (h.wired.setElection ?_) hpresent ?_
    · exact fun _ _ hleader => hleader
    · intro item hitem
      rw [List.mem_singleton.mp hitem]
      trivial
  · rw [heq]
    refine Wired.send (h.wired.setElection ?_) hpresent ?_
    · intro m hm hleader
      have hself : ids i = ids m := hpoint.ident.symm.trans (Option.some.inj hleader)
      exact absurd (hids hself).symm hm
    · intro item hitem
      rw [List.mem_singleton.mp hitem]
      exact ⟨h.wired.name i, mem_setNode_held.mpr (.inr ⟨rfl, rfl⟩)⟩

theorem Ordered.heartbeatTick (h : Ordered ids s) {i : Fin n} (hpresent : s.present i = true)
    (hleader : (s.election i).isLeader = true) (now : Clock) :
    Ordered ids (s.send i i [.broadcast (.heartbeat (s.election i).currentTerm
      (s.nodes i).transport.localPeerId now.timestampMs)]) := by
  obtain ⟨since, hpoint⟩ := h.pointing i
  have hrole : (s.election i).state.role = .leader := by simpa [isLeader] using hleader
  refine ⟨h.wired.send hpresent ?_, h.pointing⟩
  intro item hitem
  rw [List.mem_singleton.mp hitem]
  exact ⟨h.wired.name i, (hpoint.leading hrole).1⟩

theorem Ordered.watch (h : Ordered ids s) (hids : Function.Injective ids) {i : Fin n}
    {node : NetworkState} (hwatch : (s.nodes i).watch = some node) : Ordered ids (s.setNode i node) := by
  obtain ⟨since, hpoint⟩ := h.pointing i
  rcases NetworkState.watch_cases hwatch with
    ⟨peer, rest, hevents, rfl⟩ | ⟨event, rest, hevents, hevent, rfl⟩
  · have hqueued : ∀ other, .left other ∈ rest → ∃ m, m ≠ i ∧ other = ids m :=
      fun other hmem => h.wired.queued i other (hevents ▸ List.mem_cons_of_mem _ hmem)
    obtain ⟨k, hk, rfl⟩ := h.wired.queued i peer (hevents ▸ List.mem_cons_self)
    refine ⟨h.wired.setNode (h.wired.name i) (fun _ => id) hqueued ?_,
      pointing_setNode h.pointing ⟨since, hpoint.handlePeerLeft (hids.ne hk)⟩⟩
    intro m hm habsent hleader
    rw [leaderId_handlePeerLeft] at hleader
    split_ifs at hleader with hsame
    have hne : ids m ≠ ids k := fun heq => hsame (heq ▸ hleader)
    refine (h.wired.departed m i hm habsent hleader).imp_right fun hmem => ?_
    rw [hevents] at hmem
    exact (List.mem_cons.mp hmem).resolve_left fun heq => hne (MembershipEvent.left.inj heq)
  · refine ⟨h.wired.setNode (h.wired.name i) (fun _ => id) ?_ ?_,
      pointing_setNode h.pointing ⟨since, hpoint.same⟩⟩
    · exact fun other hmem => h.wired.queued i other (hevents ▸ List.mem_cons_of_mem _ hmem)
    · intro m hm habsent hleader
      refine (h.wired.departed m i hm habsent hleader).imp_right fun hmem => ?_
      rw [hevents] at hmem
      exact (List.mem_cons.mp hmem).resolve_left fun heq => hevent _ heq.symm

theorem mayPost_handleMessage {i src : Fin n} (hsrc : src ≠ i) {node after : NetworkState}
    (hident : node.leaderElection.localPeerId = ids i) {now : Clock} {peer : PeerId}
    {msg : InternalMessage} (hsend : s.MaySend ids src msg)
    (hafter : after.leaderElection = (node.handleMessage peer now msg).1.leaderElection) :
    ∀ item ∈ (node.handleMessage peer now msg).2, (s.setNode i after).MayPost ids i src item := by
  intro item hitem
  cases msg with
  | heartbeat term leader timestamp =>
    rw [List.mem_singleton.mp hitem]
    exact ⟨hsrc, trivial⟩
  | requestVote term candidate =>
    rw [List.mem_singleton.mp hitem]
    exact ⟨hsrc, trivial⟩
  | voteResponse term voter granted =>
    simp only [NetworkState.handleMessage, NetworkState.handleMembership, LeaderElection.handleMessage,
      List.append_nil] at hitem hafter
    split_ifs at hitem with hwon
    · rw [List.mem_singleton.mp hitem]
      refine ⟨hident, mem_setNode_held.mpr (.inr ?_)⟩
      rw [hafter]
      exact ⟨role_of_won hwon, rfl⟩
    · cases hitem
  | peerLeave leaving => cases hitem
  | heartbeatResponse term timestamp => cases hitem
  | _ => exact hsend.elim

/-- A message other than `PeerLeave` leaves the membership as it is, but for `last_seen`. -/
theorem handleMessage_of_maySend {src : Fin n} {msg : InternalMessage}
    (hsend : s.MaySend ids src msg) (hleave : ∀ peer, msg ≠ .peerLeave peer) (node : NetworkState)
    (peer : PeerId) (now : Clock) :
    (node.handleMessage peer now msg).1.transport = node.transport ∧
    (node.handleMessage peer now msg).1.membership.eventTx = node.membership.eventTx ∧
    ∀ other, other ∈ node.membership.peers →
      other ∈ (node.handleMessage peer now msg).1.membership.peers := by
  cases msg with
  | heartbeat term leader timestamp => exact ⟨rfl, modify_eventTx, fun _ => mem_peers_modify⟩
  | heartbeatResponse term timestamp => exact ⟨rfl, modify_eventTx, fun _ => mem_peers_modify⟩
  | requestVote term candidate => exact ⟨rfl, rfl, fun _ => id⟩
  | voteResponse term voter granted => exact ⟨rfl, rfl, fun _ => id⟩
  | peerLeave leaving => exact absurd rfl (hleave leaving)
  | _ => exact hsend.elim

theorem Ordered.deliver (h : Ordered ids s) (hids : Function.Injective ids) {src dst : Fin n}
    (hpresent : s.present dst = true) {msg : InternalMessage} {rest : List InternalMessage}
    (hhead : s.channels src dst = msg :: rest) (now : Clock)
    (hcalm : calm (s.election dst) (fun term => (dst, term) ∈ s.held) (s.channels src dst) = true) :
    Ordered ids (((s.setNode dst ((s.nodes dst).handleMessage (s.nodes src).transport.localPeerId now
        msg).1).consume src dst).send dst src
      ((s.nodes dst).handleMessage (s.nodes src).transport.localPeerId now msg).2) := by
  obtain ⟨since, hpoint⟩ := h.pointing dst
  obtain ⟨hne, hsend⟩ := h.wired.traffic src dst msg (hhead ▸ List.mem_cons_self)
  have hassign : ∀ term leader assigner, msg ≠ .leaderAssign term leader assigner := by
    rintro term leader assigner rfl
    exact hsend
  have hnames : ∀ peer, msg.Names peer → peer = ids src := by
    intro peer hname
    cases msg with
    | heartbeat term leader timestamp => exact hname.symm.trans hsend.1
    | leaderAssign term leader assigner => exact hsend.elim
    | _ => exact hname.elim
  have hheartbeat : ∀ term leader timestamp, msg = .heartbeat term leader timestamp →
      leader = ids src ∧ (src, term) ∈ s.held := by
    rintro term leader timestamp rfl
    exact hsend
  have hpost := mayPost_handleMessage hne hpoint.ident hsend
    (rfl : ((s.nodes dst).handleMessage (s.nodes src).transport.localPeerId now msg).1.leaderElection = _)
  refine ⟨Wired.send ?_ hpresent hpost, pointing_setNode h.pointing ?_⟩
  · by_cases hleave : ∃ peer, msg = .peerLeave peer
    · obtain ⟨peer, rfl⟩ := hleave
      obtain ⟨rfl, _⟩ := hsend
      refine h.wired.farewell hids hhead ?_ rfl rfl
      exact TransportManager.modify_localPeerId.trans (h.wired.name dst)
    · obtain ⟨htransport, hevents, hpeers⟩ := handleMessage_of_maySend hsend
        (fun peer heq => hleave ⟨peer, heq⟩) (s.nodes dst) (s.nodes src).transport.localPeerId now
      have hkeep : msg ≠ .peerLeave (ids src) := fun heq => hleave ⟨_, heq⟩
      refine Wired.consume (h.wired.setNode ?_ hpeers ?_ ?_) hhead hkeep
      · rw [htransport]
        exact h.wired.name dst
      · rw [hevents]
        exact h.wired.queued dst
      · intro m hm habsent hleader
        rw [hevents]
        obtain hold | hself | hnamed := leaderId_of_handleMessage hleader
        · exact h.wired.departed m dst hm habsent hold
        · exact absurd (hids (hself.trans hpoint.ident)) hm
        · obtain rfl : m = src := hids (hnames _ hnamed)
          exact .inl (h.wired.closing m dst habsent (by simp [hhead]))
  · exact hpoint.handleMessage hids hne hheartbeat hassign (hhead ▸ hcalm)

theorem Ordered.leave (h : Ordered ids s) {i : Fin n} (hpresent : s.present i = true) :
    Ordered ids { s with
      present := Function.update s.present i false
      channels := postAll s.channels i (.peerLeave (s.nodes i).transport.localPeerId) } := by
  rw [h.wired.name i]
  exact ⟨h.wired.leave hpresent, h.pointing⟩

theorem Ordered.ordered_step (hids : Function.Injective ids) (h : Ordered ids s) {a : Action n}
    (hcalm : s.Calm a) (hstep : s.step a = some next) : Ordered ids next := by
  cases a with
  | electionTick i now =>
    simp only [step, Option.ite_none_right_eq_some] at hstep
    obtain ⟨hpresent, hnext⟩ := hstep
    obtain rfl := Option.some.inj hnext
    exact h.electionTick hids hpresent now hcalm
  | heartbeatTick i now =>
    simp only [step, Option.ite_none_right_eq_some] at hstep
    obtain ⟨⟨hpresent, hleader⟩, hnext⟩ := hstep
    obtain rfl := Option.some.inj hnext
    exact h.heartbeatTick hpresent hleader now
  | deliver src dst now =>
    simp only [step, Option.ite_none_right_eq_some] at hstep
    obtain ⟨hpresent, hnext⟩ := hstep
    cases hhead : s.channels src dst with
    | nil => simp [hhead] at hnext
    | cons msg rest =>
      simp only [hhead, Option.some.injEq] at hnext
      obtain rfl := hnext
      exact h.deliver hids hpresent hhead now hcalm
  | watch i =>
    simp only [step, Option.ite_none_right_eq_some, Option.map_eq_some_iff] at hstep
    obtain ⟨_, node, hwatch, rfl⟩ := hstep
    exact h.watch hids hwatch
  | leave i =>
    simp only [step, Option.ite_none_right_eq_some] at hstep
    obtain ⟨hpresent, hnext⟩ := hstep
    obtain rfl := Option.some.inj hnext
    exact h.leave hpresent

theorem ordered_of_run {nodes : Fin n → NetworkState} {acts : List (Action n)}
    (hids : Function.Injective ids) (hnodes : FullyConnected ids nodes)
    (hcalm : Along step Calm (start nodes) acts) (hrun : run step (start nodes) acts = some s) :
    Ordered ids s :=
  invariant (I := Ordered ids) (fun _ _ _ h ha hstep => h.ordered_step hids ha hstep)
    (ordered_start hnodes) hcalm hrun

/-- In a quiet mesh a node does not name one that has left. -/
theorem Ordered.pointed_present (h : Ordered ids s) (hquiet : s.Quiet) {i m : Fin n}
    (hpresent : s.present i = true) (hleader : (s.election i).state.leaderId = some (ids m)) :
    s.present m = true := by
  by_contra habsent
  rw [Bool.not_eq_true] at habsent
  have hne : m ≠ i := by
    rintro rfl
    exact absurd (hpresent.symm.trans habsent) nofun
  cases h.wired.departed m i hne habsent hleader with
  | inl hpending =>
    rw [hquiet.1 m i hpresent] at hpending
    exact nomatch hpending
  | inr hevent =>
    rw [hquiet.2 i hpresent] at hevent
    exact nomatch hevent

/-- A node that a leader is followed from has gone on to a later leader, or leads itself. -/
theorem Pointing.later {held : List (Fin n × UInt64)} {m : Fin n} {since term : UInt64}
    {e : LeaderElection} {x : PeerId} (h : Pointing ids held m since e) (hheld : (m, term) ∈ held)
    (hleader : e.state.leaderId = some x) (hrole : e.state.role ≠ .leader) :
    toLex (term.toNat, ids m) < toLex (since.toNat, x) := by
  rw [Prod.Lex.toLex_lt_toLex]
  cases h.rank term x hheld hleader with
  | inl hlt => exact .inl hlt
  | inr heq =>
    obtain ⟨rfl, hid⟩ := heq
    exact .inr ⟨rfl, hid.resolve_right hrole⟩

theorem Ordered.exists_leaderless (h : Ordered ids s) (hquiet : s.Quiet)
    (hsome : ∃ i, s.present i = true)
    (hleader : ∀ i, s.present i = true → (s.election i).isLeader = false) :
    ∃ i, s.present i = true ∧ (s.election i).state.leaderId = none := by
  by_contra hno
  push Not at hno
  choose since hpoint using h.pointing
  have hnamed : ∀ i, s.present i = true → ∃ m, (s.election i).state.leaderId = some (ids m) ∧
      (m, since i) ∈ s.held ∧ s.present m = true := by
    intro i hi
    obtain ⟨x, hx⟩ := Option.ne_none_iff_exists'.mp (hno i hi)
    obtain ⟨⟨m, rfl, hheld⟩, _⟩ := (hpoint i).pointer x hx
    exact ⟨m, hx, hheld, h.pointed_present hquiet hi hx⟩
  choose! target htarget hheld hpresent using hnamed
  obtain ⟨i, hi, hmax⟩ := Finset.exists_max_image (Finset.univ.filter fun i => s.present i = true)
    (fun i => toLex ((since i).toNat, ids (target i))) (by simpa [Finset.Nonempty] using hsome)
  rw [Finset.mem_filter_univ] at hi
  have hm := hpresent i hi
  have hrole : (s.election (target i)).state.role ≠ .leader := by
    simpa [isLeader] using hleader (target i) hm
  have hlater := (hpoint (target i)).later (hheld i hi) (htarget (target i) hm) hrole
  exact absurd hlater (not_lt.mpr (hmax (target i) (by simpa using hm)))

/-- The election timer of the node starts an election, in the next term. -/
def CanElect (node : NetworkState) : Prop :=
  ∀ now, (node.electionTick now).1.leaderElection.currentTerm = node.leaderElection.currentTerm + 1

theorem canElect_of_leaderless {node : NetworkState} (hauto : Automatic node.leaderElection)
    (hrole : node.leaderElection.state.role ≠ .leader)
    (hleader : node.leaderElection.state.leaderId = none) : CanElect node := by
  intro now
  obtain ⟨hor, _⟩ | ⟨_, _, _, _, heq | heq⟩ := node.electionTick_cases now
  · obtain hl | hsome | hoff | hman := hor
    · exact absurd hl hrole
    · exact absurd hleader hsome
    · exact absurd hauto.1 (by simp [hoff])
    · exact absurd hauto.2 (by simp [hman])
  · rw [heq]
    rfl
  · rw [heq]
    rfl

/-- A quiet mesh without a Leader has a node that can start an election. -/
theorem leaderless_mesh_can_elect {nodes : Fin n → NetworkState} {acts : List (Action n)}
    (hids : Function.Injective ids) (hnodes : FullyConnected ids nodes)
    (hcalm : Along step Calm (start nodes) acts) (hrun : run step (start nodes) acts = some s)
    (hquiet : s.Quiet) (hsome : ∃ i, s.present i = true)
    (hleader : ∀ i, s.present i = true → (s.election i).isLeader = false) :
    ∃ i, s.present i = true ∧ (s.election i).leaderId = none ∧ CanElect (s.nodes i) := by
  have hordered := ordered_of_run hids hnodes hcalm hrun
  obtain ⟨i, hi, hnone⟩ := hordered.exists_leaderless hquiet hsome hleader
  obtain ⟨since, hpoint⟩ := hordered.pointing i
  have hrole : (s.election i).state.role ≠ .leader := by simpa [isLeader] using hleader i hi
  exact ⟨i, hi, hnone, canElect_of_leaderless hpoint.automatic hrole hnone⟩

def trioIds : Fin 3 → PeerId
  | 0 => ⟨"a"⟩
  | 1 => ⟨"b"⟩
  | 2 => ⟨"c"⟩

def trioNode (i : Fin 3) : NetworkState :=
  { NetworkState.new (trioIds i) "session" 4000 true 500 3 true .hold with
    membership := { MembershipManager.new (trioIds i) 500 3 with
      peers := (AList.insert (trioIds (i + 1)) (.new (trioIds (i + 1)) "10.0.0.1:4000" 0) ∅).insert
        (trioIds (i + 2)) (.new (trioIds (i + 2)) "10.0.0.2:4000" 0) } }

theorem trioIds_injective : Function.Injective trioIds := by decide

theorem trio_fullyConnected : FullyConnected trioIds trioNode where
  started i := ⟨.hold, rfl⟩
  name i := rfl
  connected i peer := by
    have hothers : ∀ i j : Fin 3, j ≠ i ↔ j = i + 1 ∨ j = i + 2 := by decide
    simp only [hothers, or_and_right, exists_or, exists_eq_left]
    by_cases hsecond : peer = trioIds (i + 2)
    · subst hsecond
      simp [trioNode, getPeerStatus, PeerInfo.new]
    · by_cases hfirst : peer = trioIds (i + 1)
      · subst hfirst
        simp [trioNode, getPeerStatus, PeerInfo.new, AList.lookup_insert_ne hsecond, -AList.insert_empty]
      · simp [trioNode, getPeerStatus, AList.lookup_insert_ne hsecond, AList.lookup_insert_ne hfirst,
          -AList.insert_empty,
          hfirst, hsecond]
  quiet i := rfl

/-- Node `a` wins term 1 with the vote of `b`, and `b` hears its heartbeat. -/
def electA : List (Action 3) :=
  [.electionTick 0 ⟨0, 0⟩, .deliver 0 1 ⟨1, 1⟩, .deliver 1 0 ⟨2, 2⟩, .deliver 0 1 ⟨3, 3⟩,
    .deliver 1 0 ⟨4, 4⟩]

/-- `c` hears of `a` as well, and `a` leaves. -/
def leaderLeaves : List (Action 3) :=
  electA ++ [.deliver 0 2 ⟨5, 5⟩, .deliver 0 2 ⟨6, 6⟩, .deliver 2 0 ⟨7, 7⟩, .deliver 2 0 ⟨8, 8⟩,
    .leave 0, .deliver 0 1 ⟨9, 9⟩, .deliver 0 2 ⟨9, 9⟩, .watch 1, .watch 2]

theorem trio_can_elect_after_leave :
    ∃ s, run step (start trioNode) leaderLeaves = some s ∧ s.Quiet ∧
      (∀ i, s.present i = true → (s.election i).isLeader = false) ∧
      ∃ i, s.present i = true ∧ (s.election i).leaderId = none ∧ CanElect (s.nodes i) := by
  obtain ⟨s, hrun, hquiet, hsome, hleader⟩ :
      ∃ s, run step (start trioNode) leaderLeaves = some s ∧ s.Quiet ∧
        (∃ i, s.present i = true) ∧ ∀ i, s.present i = true → (s.election i).isLeader = false :=
    ⟨_, rfl, by decide, by decide, by decide⟩
  exact ⟨s, hrun, hquiet, hleader, leaderless_mesh_can_elect trioIds_injective trio_fullyConnected
    (by decide) hrun hquiet hsome hleader⟩

/-- Before `c` hears of it, `c` starts an election in term 2, which demotes `a`; `c` then leaves. -/
def candidateLeaves : List (Action 3) :=
  electA ++ [.deliver 0 2 ⟨5, 5⟩, .electionTick 2 ⟨6, 6⟩, .deliver 2 0 ⟨7, 7⟩, .deliver 2 0 ⟨8, 8⟩,
    .deliver 2 1 ⟨8, 8⟩, .leave 2, .deliver 2 0 ⟨9, 9⟩, .deliver 2 1 ⟨9, 9⟩, .watch 0, .watch 1]

theorem trio_stuck_after_leave :
    Function.Injective trioIds ∧ FullyConnected trioIds trioNode ∧
    ∃ s, run step (start trioNode) candidateLeaves = some s ∧ s.Quiet ∧
      (∃ i j, i ≠ j ∧ s.present i = true ∧ s.present j = true) ∧
      (∀ i, s.present i = true → (s.election i).isLeader = false) ∧
      ∀ i, s.present i = true → (s.election i).leaderId ≠ none :=
  ⟨trioIds_injective, trio_fullyConnected, _, rfl, by decide, by decide, by decide, by decide⟩

end MetaMystia.PeerMesh

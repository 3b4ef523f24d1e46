import MetaMystia.Election.StableLeadership

/-! # An election that nobody disturbs

A node starts an election in a term that is ahead of all others, and until it is over
no other node starts one. Earlier messages may still arrive, and messages may overtake
each other and be received several times. Once the nodes of a majority have received
the messages of the term, the node leads and they follow it; the others may have failed.
-/

namespace MetaMystia.Cluster

open LeaderElection Runs

variable {n : Nat} {ids : Fin n → PeerId} {s t : Cluster n} {i k : Fin n} {term : UInt64}
  {e : LeaderElection} {votes : Votes n} {held : List (Fin n × UInt64)}

/-- Nobody starts an election or hears that the candidate has left. -/
def Undisturbed (candidate : PeerId) : Action n → Prop
  | .startElection _ => False
  | .handlePeerLeft _ peer => peer ≠ candidate
  | _ => True

instance (candidate : PeerId) : (a : Action n) → Decidable (Undisturbed candidate a)
  | .startElection _ => .isFalse id
  | .handlePeerLeft .. => inferInstanceAs (Decidable (_ ≠ _))
  | .receive .. | .heartbeat .. | .enableAutoElection .. => .isTrue trivial

/-- In the term only node `i` stands, and nobody has voted for another. -/
structure Backs (ids : Fin n → PeerId) (i : Fin n) (term : UInt64) (k : Fin n) (e : LeaderElection) :
    Prop where
  below : e.state.currentTerm ≤ term
  alone : e.state.currentTerm = term → e.state.role ≠ .follower → k = i
  vote : e.state.currentTerm = term → e.state.votedFor = none ∨ e.state.votedFor = some (ids i)

/-- The candidate is still collecting votes or has won. -/
structure Stands (ids : Fin n → PeerId) (i : Fin n) (term : UInt64) (e : LeaderElection) : Prop where
  term : e.state.currentTerm = term
  role : (e.state.role = .candidate ∧ ids i ∈ e.state.votesReceived ∧
      e.state.votesReceived.card < majorityThreshold (1 + (n - 1))) ∨
    (e.state.role = .leader ∧ e.state.leaderId = some (ids i))

/-- A message that is on the wire during the campaign. -/
structure Timely (ids : Fin n → PeerId) (i : Fin n) (term : UInt64) (votes : Votes n)
    (held : List (Fin n × UInt64)) (env : Envelope n) : Prop where
  genuine : Genuine ids votes held env
  behind : ∀ sent ∈ env.msg.electionTerm, sent ≤ term
  asking : ∀ candidate, env.msg = .requestVote term candidate → env.src = i

theorem Backs.handleMessage (h : Backs ids i term k e) {src : Fin n} {msg : InternalMessage}
    (hmsg : Timely ids i term votes held ⟨src, k, msg⟩) (count : Nat) (now : UInt64) :
    Backs ids i term k (e.handleMessage count now msg).1 := by
  have hbehind := hmsg.behind
  cases msg with
  | heartbeat sent leader timestamp =>
    have hsent : sent ≤ term := hbehind sent rfl
    obtain ⟨_, heq⟩ | ⟨hlow, _, _, heq⟩ := e.handleHeartbeat_cases sent leader
    · simp only [LeaderElection.handleMessage, heq]
      exact h
    · simp only [LeaderElection.handleMessage, heq]
      refine ⟨hsent, fun _ hrole => absurd rfl hrole, ?_⟩
      intro hterm
      have hterm : sent = term := hterm
      by_cases hhigh : e.state.currentTerm < sent
      · exact .inl (if_pos hhigh)
      · have hsame : e.state.currentTerm = term :=
          (UInt64.le_antisymm (UInt64.not_lt.mp hlow) (UInt64.not_lt.mp hhigh)).trans hterm
        simpa [follow, hhigh] using h.vote hsame
  | requestVote sent candidate =>
    have hsent : sent ≤ term := hbehind sent rfl
    have hcandidate : sent = term → candidate = ids i := by
      rintro rfl
      have hgenuine : candidate = ids src := hmsg.genuine
      rw [hgenuine, show src = i from hmsg.asking candidate rfl]
    obtain ⟨_, heq⟩ | ⟨_, _, heq⟩ | ⟨hsame, _, heq⟩ | ⟨_, heq⟩ := e.handleRequestVote_cases sent candidate
    · simp only [LeaderElection.handleMessage, heq]
      exact h
    · simp only [LeaderElection.handleMessage, heq]
      exact h
    · simp only [LeaderElection.handleMessage, heq]
      exact ⟨h.below, h.alone, fun hterm => .inr (by rw [hcandidate (hsame.trans hterm)])⟩
    · simp only [LeaderElection.handleMessage, heq]
      exact ⟨hsent, fun _ hrole => absurd rfl hrole, fun hterm => .inr (by rw [hcandidate hterm])⟩
  | voteResponse sent voter granted =>
    have hsent : sent ≤ term := hbehind sent rfl
    obtain ⟨_, heq⟩ | ⟨_, _, heq⟩ | ⟨hcandidate, _, _, heq⟩ | ⟨hcandidate, _, _, heq⟩ :=
      e.handleVoteResponse_cases sent voter granted count
    · simp only [LeaderElection.handleMessage, heq]
      exact ⟨hsent, fun _ hrole => absurd rfl hrole, fun _ => .inl rfl⟩
    · simp only [LeaderElection.handleMessage, heq]
      exact h
    · have hstood : e.state.role ≠ .follower := by simp [hcandidate]
      simp only [LeaderElection.handleMessage, heq]
      cases granted with
      | false => exact ⟨h.below, h.alone, h.vote⟩
      | true => exact ⟨h.below, fun hterm _ => h.alone hterm hstood, h.vote⟩
    · have hstood : e.state.role ≠ .follower := by simp [hcandidate]
      simp only [LeaderElection.handleMessage, heq]
      cases granted with
      | false => exact ⟨h.below, fun hterm _ => h.alone hterm hstood, h.vote⟩
      | true => exact ⟨h.below, fun hterm _ => h.alone hterm hstood, h.vote⟩
  | leaderAssign sent leader assigner => exact absurd hmsg.genuine id
  | _ => exact h

/-- The candidate is as it was, has one more vote, or has won and says so. -/
theorem Stands.handleMessage_cases (h : Stands ids i term e) {src : Fin n} {msg : InternalMessage}
    (hmsg : Timely ids i term votes held ⟨src, i, msg⟩) (hident : e.localPeerId = ids i)
    (hheld : ∀ j, (j, term) ∈ held → j = i) (now : UInt64) {e' : LeaderElection} {out : List Outgoing}
    (hresult : e.handleMessage (n - 1) now msg = (e', out)) :
    e'.state.currentTerm = term ∧
    ((e'.state.role = e.state.role ∧ e'.state.leaderId = e.state.leaderId ∧
        e'.state.votesReceived = e.state.votesReceived) ∨
      (∃ voter granted, msg = .voteResponse term voter granted ∧ e.state.role = .candidate ∧
        e'.state.role = .candidate ∧ e'.state.votesReceived =
          (countVote e.state voter granted).votesReceived ∧
        e'.state.votesReceived.card < majorityThreshold (1 + (n - 1))) ∨
      (e'.state.role = .leader ∧ e'.state.leaderId = some (ids i) ∧
        .broadcast (.heartbeat term (ids i) now) ∈ out)) := by
  obtain ⟨rfl, hrole⟩ := h
  have hbehind := hmsg.behind
  cases msg with
  | heartbeat sent leader timestamp =>
    obtain ⟨rfl, hin, hne⟩ : leader = ids src ∧ (src, sent) ∈ held ∧ i ≠ src := hmsg.genuine
    obtain ⟨_, heq⟩ | ⟨hlow, _, _, heq⟩ := e.handleHeartbeat_cases sent (ids src)
    · simp only [LeaderElection.handleMessage, heq] at hresult
      cases hresult
      exact ⟨rfl, .inl ⟨rfl, rfl, rfl⟩⟩
    · have hsent : sent = e.state.currentTerm :=
        UInt64.le_antisymm (hbehind sent rfl) (UInt64.not_lt.mp hlow)
      exact absurd (hheld src (hsent ▸ hin)).symm hne
  | requestVote sent candidate =>
    have hsent : ¬ e.state.currentTerm < sent := UInt64.not_lt.mpr (hbehind sent rfl)
    obtain ⟨_, heq⟩ | ⟨_, _, heq⟩ | ⟨_, _, heq⟩ | ⟨hhigh, _⟩ := e.handleRequestVote_cases sent candidate
    · simp only [LeaderElection.handleMessage, heq] at hresult
      cases hresult
      exact ⟨rfl, .inl ⟨rfl, rfl, rfl⟩⟩
    · simp only [LeaderElection.handleMessage, heq] at hresult
      cases hresult
      exact ⟨rfl, .inl ⟨rfl, rfl, rfl⟩⟩
    · simp only [LeaderElection.handleMessage, heq] at hresult
      cases hresult
      exact ⟨rfl, .inl ⟨rfl, rfl, rfl⟩⟩
    · exact absurd hhigh hsent
  | voteResponse sent voter granted =>
    have hsent : ¬ e.state.currentTerm < sent := UInt64.not_lt.mpr (hbehind sent rfl)
    obtain ⟨hhigh, _⟩ | ⟨_, _, heq⟩ | ⟨hcandidate, rfl, hfew, heq⟩ | ⟨_, rfl, _, heq⟩ :=
      e.handleVoteResponse_cases sent voter granted (n - 1)
    · exact absurd hhigh hsent
    · simp only [LeaderElection.handleMessage, heq] at hresult
      cases hresult
      exact ⟨rfl, .inl ⟨rfl, rfl, rfl⟩⟩
    · simp only [LeaderElection.handleMessage, heq] at hresult
      cases hresult
      have hkept : (countVote e.state voter granted).currentTerm = e.state.currentTerm ∧
          (countVote e.state voter granted).role = e.state.role := by
        cases granted <;> exact ⟨rfl, rfl⟩
      exact ⟨hkept.1, .inr (.inl ⟨voter, granted, rfl, hcandidate, hkept.2.trans hcandidate, rfl, hfew⟩)⟩
    · simp only [LeaderElection.handleMessage, heq] at hresult
      cases hresult
      have hkept : (countVote e.state voter granted).currentTerm = e.state.currentTerm := by
        cases granted <;> rfl
      exact ⟨hkept, .inr (.inr ⟨rfl, congrArg some hident, by
        simp [elected, LeaderElection.currentTerm, hkept, hident]⟩)⟩
  | leaderAssign sent leader assigner => exact absurd hmsg.genuine id
  | _ =>
    cases hresult
    exact ⟨rfl, .inl ⟨rfl, rfl, rfl⟩⟩

theorem mem_countVote {state : ElectionState} {peer voter : PeerId} {granted : Bool}
    (h : peer ∈ state.votesReceived) : peer ∈ (countVote state voter granted).votesReceived := by
  cases granted with
  | false => exact h
  | true => exact Finset.mem_insert_of_mem h

theorem Stands.handleMessage (h : Stands ids i term e) {src : Fin n} {msg : InternalMessage}
    (hmsg : Timely ids i term votes held ⟨src, i, msg⟩) (hident : e.localPeerId = ids i)
    (hheld : ∀ j, (j, term) ∈ held → j = i) (now : UInt64) {e' : LeaderElection} {out : List Outgoing}
    (hresult : e.handleMessage (n - 1) now msg = (e', out)) : Stands ids i term e' := by
  obtain ⟨hterm, ⟨hrole, hleader, hvotes⟩ | ⟨voter, granted, _, hcandidate, hrole, hvotes, hfew⟩ |
    ⟨hrole, hleader, _⟩⟩ := h.handleMessage_cases hmsg hident hheld now hresult
  · refine ⟨hterm, ?_⟩
    rw [hrole, hleader, hvotes]
    exact h.role
  · refine ⟨hterm, .inl ⟨hrole, ?_, hfew⟩⟩
    obtain ⟨_, hself, _⟩ | ⟨hleads, _⟩ := h.role
    · rw [hvotes]
      exact mem_countVote hself
    · exact absurd (hcandidate.symm.trans hleads) (by simp)
  · exact ⟨hterm, .inr ⟨hrole, hleader⟩⟩

/-- The candidate has won or has counted the vote of the peer. -/
def Counted (peer : PeerId) (e : LeaderElection) : Prop :=
  e.state.role = .leader ∨ peer ∈ e.state.votesReceived

theorem Counted.handleMessage {peer : PeerId} (hcounted : Counted peer e) (h : Stands ids i term e)
    {src : Fin n} {msg : InternalMessage} (hmsg : Timely ids i term votes held ⟨src, i, msg⟩)
    (hident : e.localPeerId = ids i) (hheld : ∀ j, (j, term) ∈ held → j = i) (now : UInt64)
    {e' : LeaderElection} {out : List Outgoing}
    (hresult : e.handleMessage (n - 1) now msg = (e', out)) : Counted peer e' := by
  obtain ⟨_, ⟨hrole, _, hvotes⟩ | ⟨voter, granted, _, hcandidate, _, hvotes, _⟩ | ⟨hrole, _⟩⟩ :=
    h.handleMessage_cases hmsg hident hheld now hresult
  · rwa [Counted, hrole, hvotes]
  · obtain hleads | hmem := hcounted
    · exact absurd (hcandidate.symm.trans hleads) (by simp)
    · exact .inr (hvotes ▸ mem_countVote hmem)
  · exact .inl hrole

/-- Node `i` has begun its campaign, and nobody else has begun one in the term. -/
structure Campaign (ids : Fin n → PeerId) (i : Fin n) (term : UInt64) (s : Cluster n) : Prop where
  safe : ∃ votes, Safe ids s votes
  wire : WireTerms s
  backs : ∀ k, Backs ids i term k (s.nodes k)
  stands : Stands ids i term (s.nodes i)
  asking : ∀ env ∈ s.sent, ∀ candidate, env.msg = .requestVote term candidate → env.src = i
  asked : ∀ k, k ≠ i → ⟨i, k, .requestVote term (ids i)⟩ ∈ s.sent
  announced : (s.nodes i).state.role = .leader →
    ∀ k, k ≠ i → ∃ stamp, ⟨i, k, .heartbeat term (ids i) stamp⟩ ∈ s.sent

theorem Campaign.holder (h : Campaign ids i term s) {j : Fin n} (hj : (j, term) ∈ s.held) : j = i := by
  obtain ⟨votes, hsafe⟩ := h.safe
  have hterm : (s.nodes j).state.currentTerm = term :=
    UInt64.le_antisymm (h.backs j).below (hsafe.heldPast j term hj)
  have hleads := hsafe.tenure j (hterm.symm ▸ hj)
  exact (h.backs j).alone hterm (by simp [hleads])

theorem Campaign.timely (h : Campaign ids i term s) (hsafe : Safe ids s votes) {env : Envelope n}
    (henv : env ∈ s.sent) : Timely ids i term votes s.held env where
  genuine := hsafe.wire env henv
  behind sent hsent := UInt64.le_trans (h.wire env henv sent hsent) (h.backs env.src).below
  asking candidate hmsg := h.asking env henv candidate hmsg

/-- What a step of node `j` has to give for the campaign to go on. -/
theorem Campaign.act (h : Campaign ids i term s) {j : Fin n} {msgs : List (Envelope n)}
    (hsafe : ∃ votes, Safe ids (s.act j e msgs) votes) (hwire : WireTerms (s.act j e msgs))
    (hbacks : Backs ids i term j e) (hstands : j = i → Stands ids i term e)
    (hmsgs : ∀ env ∈ msgs, ∀ candidate, env.msg ≠ .requestVote term candidate)
    (hannounced : j = i → e.state.role = .leader → (s.nodes i).state.role = .leader ∨
      ∀ k, k ≠ i → ∃ stamp, ⟨i, k, .heartbeat term (ids i) stamp⟩ ∈ msgs) :
    Campaign ids i term (s.act j e msgs) := by
  have hsent : ∀ env ∈ s.sent, env ∈ (s.act j e msgs).sent := fun _ henv => mem_act_sent.mpr (.inl henv)
  refine ⟨hsafe, hwire, ?_, ?_, ?_, ?_, ?_⟩
  · exact s.forall_act_nodes (Backs ids i term) hbacks fun k _ => h.backs k
  · exact s.forall_act_nodes (fun k e => k = i → Stands ids i term e) hstands
      (fun k _ hk => hk ▸ h.stands) i rfl
  · intro env henv candidate hmsg
    obtain hold | hnew := mem_act_sent.mp henv
    · exact h.asking env hold candidate hmsg
    · exact absurd hmsg (hmsgs env hnew candidate)
  · exact fun k hk => hsent _ (h.asked k hk)
  · intro hleads k hk
    by_cases hj : j = i
    · subst hj
      rw [act_nodes_self] at hleads
      obtain hold | hnew := hannounced rfl hleads
      · obtain ⟨stamp, hstamp⟩ := h.announced hold k hk
        exact ⟨stamp, hsent _ hstamp⟩
      · obtain ⟨stamp, hstamp⟩ := hnew k hk
        exact ⟨stamp, mem_act_sent.mpr (.inr hstamp)⟩
    · rw [act_nodes_of_ne s (Ne.symm hj)] at hleads
      obtain ⟨stamp, hstamp⟩ := h.announced hleads k hk
      exact ⟨stamp, hsent _ hstamp⟩

theorem not_requestVote_of_receive {j peer : Fin n} {count : Nat} {now : UInt64} {msg : InternalMessage} :
    ∀ env ∈ (e.handleMessage count now msg).2.flatMap (Outgoing.post j peer),
      ∀ sent candidate, env.msg ≠ .requestVote sent candidate := by
  intro env henv sent candidate
  obtain ⟨out, hout, hposted⟩ := List.mem_flatMap.mp henv
  cases msg with
  | heartbeat | requestVote =>
    obtain rfl := List.mem_singleton.mp hout
    obtain rfl := List.mem_singleton.mp hposted
    simp
  | voteResponse term voter granted =>
    simp only [handleMessage] at hout
    split at hout
    · obtain rfl := List.mem_singleton.mp hout
      obtain ⟨_, _, hmsg⟩ := mem_broadcast.mp hposted
      simp [hmsg]
    · cases hout
  | _ => cases hout

theorem campaign_step (hids : Function.Injective ids) (hn : 3 ≤ n) (h : Campaign ids i term s)
    {a : Action n} (ha : Undisturbed (ids i) a) (hstep : s.step a = some t) : Campaign ids i term t := by
  obtain ⟨votes, hsafe⟩ := h.safe
  have hrange : s.InRange a := by
    cases a with
    | startElection j => exact absurd ha id
    | _ => trivial
  have hsafe' := safe_step hsafe hids hn hrange hstep
  have hwire' := wireTerms_step h.wire hrange hstep
  cases a with
  | startElection j => exact absurd ha id
  | receive j env now =>
    simp only [step, Option.ite_none_right_eq_some, Option.some.injEq] at hstep
    obtain ⟨⟨hsent, rfl⟩, rfl⟩ := hstep
    obtain ⟨src, dst, msg⟩ := env
    have htimely := h.timely hsafe hsent
    have hbacks := (h.backs dst).handleMessage htimely (n - 1) now
    refine h.act hsafe' hwire' hbacks ?_ (fun env henv => not_requestVote_of_receive env henv _) ?_
    · rintro rfl
      exact h.stands.handleMessage htimely (hsafe.ident dst) (fun j hj => h.holder hj) now rfl
    · rintro rfl hleads
      generalize hresult : (s.nodes dst).handleMessage (n - 1) now msg = result at hleads ⊢
      obtain ⟨e', out⟩ := result
      obtain ⟨_, ⟨hrole, _⟩ | ⟨_, _, _, _, hrole, _⟩ | ⟨_, _, hwon⟩⟩ :=
        h.stands.handleMessage_cases htimely (hsafe.ident dst) (fun j hj => h.holder hj) now hresult
      · exact .inl (hrole.symm.trans hleads)
      · exact absurd (hrole.symm.trans hleads) (by simp)
      · refine .inr fun k hk => ⟨now, ?_⟩
        exact List.mem_flatMap.mpr ⟨_, hwon, mem_broadcast.mpr ⟨rfl, hk, rfl⟩⟩
  | heartbeat j now =>
    simp only [step, Option.ite_none_right_eq_some, Option.some.injEq] at hstep
    obtain ⟨_, rfl⟩ := hstep
    refine h.act hsafe' hwire' (h.backs j) (fun hj => hj ▸ h.stands) ?_ ?_
    · intro env henv candidate
      obtain ⟨_, _, hmsg⟩ := mem_broadcast.mp henv
      simp [hmsg]
    · rintro rfl hleads
      exact .inl hleads
  | handlePeerLeft j peer =>
    obtain rfl := Option.some.inj hstep
    obtain ⟨_, heq⟩ | ⟨hleader, manual, _, heq⟩ := (s.nodes j).handlePeerLeft_cases peer
    · rw [heq] at hsafe' hwire' ⊢
      exact h.act hsafe' hwire' (h.backs j) (fun hj => hj ▸ h.stands) (by simp)
        fun hj hleads => .inl (hj ▸ hleads)
    · rw [heq] at hsafe' hwire' ⊢
      refine h.act hsafe' hwire' ⟨(h.backs j).below, (h.backs j).alone, (h.backs j).vote⟩ ?_ (by simp)
        fun hj hleads => .inl (hj ▸ hleads)
      rintro rfl
      obtain ⟨hterm, hstands | ⟨_, hself⟩⟩ := h.stands
      · exact ⟨hterm, .inl hstands⟩
      · exact absurd (Option.some.inj (hleader.symm.trans hself)) ha
  | enableAutoElection j enable =>
    obtain rfl := Option.some.inj hstep
    obtain ⟨manual, _, _, heq⟩ := (s.nodes j).enableAutoElection_cases enable
    rw [heq] at hsafe' hwire' ⊢
    refine h.act hsafe' hwire' ⟨(h.backs j).below, (h.backs j).alone, (h.backs j).vote⟩ ?_ (by simp)
      fun hj hleads => .inl (hj ▸ hleads)
    rintro rfl
    exact ⟨h.stands.term, h.stands.role⟩

/-- The vote of a node that has received the request is on its way to the candidate. -/
theorem answered (h : Campaign ids i term s) {now : UInt64}
    (hstep : s.step (.receive k ⟨i, k, .requestVote term (ids i)⟩ now) = some t) :
    ⟨k, i, .voteResponse term (ids k) true⟩ ∈ t.sent := by
  obtain ⟨votes, hsafe⟩ := h.safe
  have hbacks := h.backs k
  have hident := hsafe.ident k
  simp only [step, Option.ite_none_right_eq_some, Option.some.injEq] at hstep
  obtain ⟨_, rfl⟩ := hstep
  apply mem_act_sent.mpr
  right
  obtain ⟨hlow, _⟩ | ⟨hterm, ⟨voted, hvoted, hother⟩, _⟩ | ⟨_, _, heq⟩ | ⟨_, heq⟩ :=
    (s.nodes k).handleRequestVote_cases term (ids i)
  · exact absurd hlow (UInt64.not_lt.mpr hbacks.below)
  · obtain hnone | hsome := hbacks.vote hterm.symm
    · cases hvoted.symm.trans hnone
    · exact absurd (Option.some.inj (hvoted.symm.trans hsome)) hother
  · simp [handleMessage, heq, Outgoing.post, hident]
  · simp [handleMessage, heq, Outgoing.post, hident]

theorem counted (h : Campaign ids i term s) {now : UInt64}
    (hstep : s.step (.receive i ⟨k, i, .voteResponse term (ids k) true⟩ now) = some t) :
    Counted (ids k) (t.nodes i) := by
  have hstands := h.stands
  simp only [step, Option.ite_none_right_eq_some, Option.some.injEq] at hstep
  obtain ⟨_, rfl⟩ := hstep
  rw [act_nodes_self]
  obtain ⟨hhigh, _⟩ | ⟨_, hskip, heq⟩ | ⟨_, _, _, heq⟩ | ⟨_, _, _, heq⟩ :=
    (s.nodes i).handleVoteResponse_cases term (ids k) true (n - 1)
  · exact absurd (hstands.term ▸ hhigh) (UInt64.lt_irrefl _)
  · simp only [handleMessage, heq]
    obtain ⟨hcandidate, _⟩ | ⟨hleads, _⟩ := hstands.role
    · obtain hrole | hterm := hskip
      · exact absurd hcandidate hrole
      · exact absurd hstands.term.symm hterm
    · exact .inl hleads
  · simp only [handleMessage, heq]
    exact .inr (Finset.mem_insert_self _ _)
  · simp only [handleMessage, heq]
    exact .inl rfl

theorem Campaign.counted_step (h : Campaign ids i term s) {a : Action n} (ha : Undisturbed (ids i) a)
    {peer : PeerId} (hcounted : Counted peer (s.nodes i)) (hstep : s.step a = some t) :
    Counted peer (t.nodes i) := by
  cases a with
  | startElection j => exact absurd ha id
  | receive j env now =>
    simp only [step, Option.ite_none_right_eq_some, Option.some.injEq] at hstep
    obtain ⟨⟨hsent, rfl⟩, rfl⟩ := hstep
    obtain ⟨src, dst, msg⟩ := env
    obtain ⟨votes, hsafe⟩ := h.safe
    by_cases hdst : dst = i
    · subst hdst
      rw [act_nodes_self]
      exact hcounted.handleMessage h.stands (h.timely hsafe hsent) (hsafe.ident dst)
        (fun j hj => h.holder hj) now rfl
    · rwa [act_nodes_of_ne s (Ne.symm hdst)]
  | heartbeat j now =>
    simp only [step, Option.ite_none_right_eq_some, Option.some.injEq] at hstep
    obtain ⟨_, rfl⟩ := hstep
    exact s.forall_act_nodes (fun k e => k = i → Counted peer e) (fun hj => hj ▸ hcounted)
      (fun k _ hk => hk ▸ hcounted) i rfl
  | handlePeerLeft j gone =>
    obtain rfl := Option.some.inj hstep
    refine s.forall_act_nodes (fun k e => k = i → Counted peer e) ?_
      (fun k _ hk => hk ▸ hcounted) i rfl
    rintro rfl
    obtain ⟨_, heq⟩ | ⟨_, _, _, heq⟩ := (s.nodes j).handlePeerLeft_cases gone
    · rwa [heq]
    · rw [heq]
      exact hcounted
  | enableAutoElection j enable =>
    obtain rfl := Option.some.inj hstep
    refine s.forall_act_nodes (fun k e => k = i → Counted peer e) ?_
      (fun k _ hk => hk ▸ hcounted) i rfl
    rintro rfl
    obtain ⟨_, _, _, heq⟩ := (s.nodes j).enableAutoElection_cases enable
    rw [heq]
    exact hcounted

theorem followed (h : Campaign ids i term s) (hk : k ≠ i) {stamp now : UInt64}
    (hstep : s.step (.receive k ⟨i, k, .heartbeat term (ids i) stamp⟩ now) = some t) :
    Settled ids i term k (t.nodes k) := by
  obtain ⟨votes, hsafe⟩ := h.safe
  have hbacks := h.backs k
  simp only [step, Option.ite_none_right_eq_some, Option.some.injEq] at hstep
  obtain ⟨_, rfl⟩ := hstep
  rw [act_nodes_self]
  obtain ⟨hlow | ⟨hmanual, _⟩ | ⟨hleads, hterm, _⟩, _⟩ | ⟨_, _, _, heq⟩ :=
    (s.nodes k).handleHeartbeat_cases term (ids i)
  · exact absurd hlow (UInt64.not_lt.mpr hbacks.below)
  · exact absurd (hmanual.symm.trans (hsafe.automatic k)) (by simp)
  · exact absurd (hbacks.alone hterm.symm (by simp [hleads])) hk
  · simp only [handleMessage, heq]
    exact ⟨rfl, rfl, (if_neg hk).symm⟩

theorem Campaign.settled_step (h : Campaign ids i term s) {a : Action n} (ha : Undisturbed (ids i) a)
    (hsettled : Settled ids i term k (s.nodes k)) (hstep : s.step a = some t) :
    Settled ids i term k (t.nodes k) := by
  have hkept : ∀ j (e : LeaderElection) (msgs : List (Envelope n)),
      (j = k → Settled ids i term k e) → Settled ids i term k ((s.act j e msgs).nodes k) := by
    intro j e msgs hnew
    exact s.forall_act_nodes (fun l e => l = k → Settled ids i term k e) hnew
      (fun l _ hl => hl ▸ hsettled) k rfl
  cases a with
  | startElection j => exact absurd ha id
  | receive j env now =>
    simp only [step, Option.ite_none_right_eq_some, Option.some.injEq] at hstep
    obtain ⟨⟨hsent, rfl⟩, rfl⟩ := hstep
    obtain ⟨src, dst, msg⟩ := env
    obtain ⟨votes, hsafe⟩ := h.safe
    have htimely := h.timely hsafe hsent
    apply hkept
    rintro rfl
    exact hsettled.handleMessage htimely.genuine htimely.behind (fun j hj => h.holder hj) _ _
  | heartbeat j now =>
    simp only [step, Option.ite_none_right_eq_some, Option.some.injEq] at hstep
    obtain ⟨_, rfl⟩ := hstep
    exact hkept _ _ _ fun hj => hj ▸ hsettled
  | handlePeerLeft j peer =>
    obtain rfl := Option.some.inj hstep
    exact hkept _ _ _ fun hj => hj ▸ (hj ▸ hsettled : Settled ids i term j (s.nodes j)).handlePeerLeft ha
  | enableAutoElection j enable =>
    obtain rfl := Option.some.inj hstep
    exact hkept _ _ _ fun hj =>
      hj ▸ (hj ▸ hsettled : Settled ids i term j (s.nodes j)).enableAutoElection enable

theorem sent_subset_of_step {a : Action n} (hstep : s.step a = some t) : s.sent ⊆ t.sent := by
  cases a with
  | startElection | handlePeerLeft | enableAutoElection =>
    obtain rfl := Option.some.inj hstep
    exact fun _ henv => mem_act_sent.mpr (.inl henv)
  | receive | heartbeat =>
    simp only [step, Option.ite_none_right_eq_some, Option.some.injEq] at hstep
    obtain ⟨_, rfl⟩ := hstep
    exact fun _ henv => mem_act_sent.mpr (.inl henv)

/-- A node that is behind nobody begins a campaign in the next term. -/
theorem campaign_startElection (hn : 3 ≤ n) (hids : Function.Injective ids) (hsafe : Safe ids s votes)
    (hwire : WireTerms s) (hauto : (s.nodes i).state.autoElectionEnabled = true)
    (hmax : (s.nodes i).state.currentTerm < maxTerm)
    (hahead : ∀ k, (s.nodes k).state.currentTerm ≤ (s.nodes i).state.currentTerm)
    (hstep : s.step (.startElection i) = some t) :
    Campaign ids i ((s.nodes i).state.currentTerm + 1) t := by
  have hrange : s.InRange (.startElection i) := fun _ _ => hmax
  have hlt := lt_add_one hmax
  have hsafe' := safe_step hsafe hids hn hrange hstep
  have hwire' := wireTerms_step hwire hrange hstep
  have hmajority : 1 < majorityThreshold (1 + (n - 1)) := one_lt_majorityThreshold (by omega)
  have hident := hsafe.ident i
  obtain rfl := Option.some.inj hstep
  obtain ⟨hoff | hmanual, _⟩ | ⟨_, _, _, heq⟩ | ⟨_, _, hfew, _⟩ := (s.nodes i).startElection_cases (n - 1)
  · exact absurd (hauto.symm.trans hoff) (by simp)
  · exact absurd (hmanual.symm.trans (hsafe.automatic i)) (by simp)
  · rw [heq] at hsafe' hwire' ⊢
    refine ⟨hsafe', hwire', ?_, ?_, ?_, ?_, ?_⟩
    · refine s.forall_act_nodes (Backs ids i ((s.nodes i).state.currentTerm + 1)) ?_ ?_
      · exact ⟨UInt64.le_refl _, fun _ _ => rfl, fun _ => .inr (congrArg some hident)⟩
      · intro k _
        have hbehind := UInt64.lt_of_le_of_lt (hahead k) hlt
        have hnot : (s.nodes k).state.currentTerm ≠ (s.nodes i).state.currentTerm + 1 :=
          UInt64.ne_of_lt hbehind
        exact ⟨UInt64.le_of_lt hbehind, fun hterm => absurd hterm hnot, fun hterm => absurd hterm hnot⟩
    · rw [act_nodes_self]
      exact ⟨rfl, .inl ⟨rfl, by simp [campaign, hident], by simpa [campaign] using hmajority⟩⟩
    · intro env henv candidate hmsg
      obtain hold | hnew := mem_act_sent.mp henv
      · have hsent := hwire env hold _ (by rw [hmsg]; rfl)
        exact absurd (UInt64.le_trans hsent (hahead env.src)) (UInt64.not_le.mpr hlt)
      · exact (mem_broadcast.mp hnew).1
    · intro k hk
      exact mem_act_sent.mpr (.inr (mem_broadcast.mpr ⟨rfl, hk, by rw [hident]⟩))
    · intro hleads
      rw [act_nodes_self] at hleads
      cases hleads
  · omega

/-- A node that is behind nobody starts an election, and until it is over no other is started and
nobody hears that the node has left. Once the nodes of a majority have received the messages of the
new term, in any order and among any earlier ones, the node leads and they follow it, whatever becomes
of the messages to the other nodes. -/
theorem undisturbed_election_completes (hn : 3 ≤ n) (hids : Function.Injective ids)
    {recovery : ManualOverrideRecovery} {acts more : List (Action n)} {majority : Finset (Fin n)}
    (hrange : Along step InRange (start ids recovery) acts)
    (hrun : run step (start ids recovery) acts = some s)
    (hauto : (s.nodes i).state.autoElectionEnabled = true)
    (hmax : (s.nodes i).state.currentTerm < maxTerm)
    (hahead : ∀ k, (s.nodes k).state.currentTerm ≤ (s.nodes i).state.currentTerm)
    (hi : i ∈ majority) (hmajority : majorityThreshold n ≤ majority.card)
    (hmore : ∀ a ∈ more, Undisturbed (ids i) a)
    (hlater : run step s (.startElection i :: more) = some t)
    (hreceived : ∀ env ∈ t.sent, env.dst ∈ majority → env.src ∈ majority →
      env.msg.electionTerm = some ((s.nodes i).state.currentTerm + 1) →
      ∃ now, .receive env.dst env now ∈ more) :
    ∀ k ∈ majority, Settled ids i ((s.nodes i).state.currentTerm + 1) k (t.nodes k) := by
  obtain ⟨votes, hsafe⟩ := safe_run hids hn hrange hrun
  obtain ⟨m, hm, hrest⟩ := run_cons_iff.mp hlater
  have hbegun := campaign_startElection hn hids hsafe (wireTerms_run hrange hrun) hauto hmax hahead hm
  generalize (s.nodes i).state.currentTerm + 1 = term at hreceived hbegun ⊢
  have hquiet : Along step (fun _ a => Undisturbed (ids i) a) m more :=
    along_of_forall_mem (fun a ha _ => hmore a ha) m
  have hgoes : ∀ s a t, Campaign ids i term s → Undisturbed (ids i) a → step s a = some t →
      Campaign ids i term t := fun _ _ _ h ha hstep => campaign_step hids hn h ha hstep
  have hend : Campaign ids i term t := invariant hgoes hbegun hquiet hrest
  have hanswered : ∀ k ∈ majority, k ≠ i → ⟨k, i, .voteResponse term (ids k) true⟩ ∈ t.sent := by
    intro k hk hne
    obtain ⟨now, hmem⟩ := hreceived _ (hend.asked k hne) hk hi rfl
    exact holds_of_mem hgoes (fun _ _ h _ hstep => answered h hstep)
      (fun _ _ _ _ _ hold hstep => sent_subset_of_step hstep hold) hbegun hquiet hrest hmem
  have hcounted : ∀ k ∈ majority, k ≠ i → Counted (ids k) (t.nodes i) := by
    intro k hk hne
    obtain ⟨now, hmem⟩ := hreceived _ (hanswered k hk hne) hi hk rfl
    exact holds_of_mem hgoes (fun _ _ h _ hstep => counted h hstep)
      (fun _ _ _ h ha hold hstep => h.counted_step ha hold hstep) hbegun hquiet hrest hmem
  have hwon : (t.nodes i).state.role = .leader ∧ (t.nodes i).state.leaderId = some (ids i) := by
    obtain ⟨hcandidate, hself, hfew⟩ | hwon := hend.stands.role
    · -- the votes of the majority are counted
      have hall : majority.image ids ⊆ (t.nodes i).state.votesReceived := by
        intro peer hpeer
        obtain ⟨k, hk, rfl⟩ := Finset.mem_image.mp hpeer
        by_cases hne : k = i
        · exact hne ▸ hself
        · exact (hcounted k hk hne).resolve_left (by simp [hcandidate])
      have hcard := Finset.card_le_card hall
      rw [Finset.card_image_of_injective _ hids] at hcard
      rw [show 1 + (n - 1) = n by omega] at hfew
      omega
    · exact hwon
  intro k hk
  by_cases hne : k = i
  · subst hne
    exact ⟨hend.stands.term, hwon.2, by rw [if_pos rfl, hwon.1]⟩
  · obtain ⟨stamp, hsent⟩ := hend.announced hwon.1 k hne
    obtain ⟨now, hmem⟩ := hreceived _ hsent hk hi rfl
    exact holds_of_mem hgoes (fun _ _ h _ hstep => followed h hne hstep)
      (fun _ _ _ h ha hold hstep => h.settled_step ha hold hstep) hbegun hquiet hrest hmem

/-- The second node hears nothing of the election. -/
def secondRound : List (Action 3) :=
  [.receive 2 ⟨0, 2, .requestVote 1 ⟨"a"⟩⟩ 0, .receive 0 ⟨2, 0, .voteResponse 1 ⟨"c"⟩ true⟩ 0,
    .receive 2 ⟨0, 2, .heartbeat 1 ⟨"a"⟩ 0⟩ 0]

theorem first_election_completes :
    ∃ t, run step (start threeIds .hold) (.startElection 0 :: secondRound) = some t ∧
      ∀ k ∈ ({0, 2} : Finset (Fin 3)), Settled threeIds 0 1 k (t.nodes k) := by
  obtain ⟨t, hrun, hsent⟩ : ∃ t, run step (start threeIds .hold) (.startElection 0 :: secondRound) =
      some t ∧ t.sent =
        [⟨0, 1, .requestVote 1 ⟨"a"⟩⟩, ⟨0, 2, .requestVote 1 ⟨"a"⟩⟩,
          ⟨2, 0, .voteResponse 1 ⟨"c"⟩ true⟩, ⟨0, 1, .heartbeat 1 ⟨"a"⟩ 0⟩, ⟨0, 2, .heartbeat 1 ⟨"a"⟩ 0⟩,
          ⟨2, 0, .heartbeatResponse 1 0⟩] := ⟨_, rfl, rfl⟩
  have hstart : run step (start threeIds .hold) [] = some (start threeIds .hold) := rfl
  have hrange : Along step InRange (start threeIds .hold) [] := trivial
  refine ⟨t, hrun, undisturbed_election_completes (Nat.le_refl 3) threeIds_injective hrange hstart rfl
    (by decide) (by decide) (by decide) (by decide) ?_ hrun ?_⟩
  · simp [secondRound, Undisturbed]
  · intro env henv hdst _ hterm
    simp only [hsent, List.mem_cons, List.not_mem_nil, or_false] at henv
    obtain rfl | rfl | rfl | rfl | rfl | rfl := henv
    · exact absurd hdst (by decide)
    · exact ⟨0, by simp [secondRound]⟩
    · exact ⟨0, by simp [secondRound]⟩
    · exact absurd hdst (by decide)
    · exact ⟨0, by simp [secondRound]⟩
    · cases hterm

end MetaMystia.Cluster

import MetaMystia.Election.Operations

/-! # What a Candidate holds

Role, vote and tally are written apart from one another in seven operations. An
operation that leaves a Candidate behind has either started the election or kept
everything but the tally, to which it adds at most one vote of the current term.
-/

namespace MetaMystia.LeaderElection

/-- The tally belongs to the role, and a Candidate's vote of its term is its own. -/
structure Bookkept (election : LeaderElection) : Prop where
  idle : election.state.role ≠ .candidate → election.state.votesReceived = ∅
  own : election.state.role = .candidate → election.localPeerId ∈ election.state.votesReceived
  pledged : election.state.role = .candidate →
    election.state.votedFor = some election.localPeerId

/-- The operation leaves a Candidate a Candidate of the same term. -/
structure Continues (election next : LeaderElection) (op : Op) : Prop where
  candidate : election.state.role = .candidate
  term : next.state.currentTerm = election.state.currentTerm
  pledge : ∀ voted, election.state.votedFor = some voted → next.state.votedFor = some voted
  tally : ∀ voter, voter ∈ next.state.votesReceived ↔ voter ∈ election.state.votesReceived ∨
    ∃ count, op = .handleVoteResponse election.state.currentTerm voter true count

theorem Continues.of_kept {self next : LeaderElection} {op : Op}
    (hrole : self.state.role = .candidate)
    (hterm : next.state.currentTerm = self.state.currentTerm)
    (hvotes : next.state.votesReceived = self.state.votesReceived)
    (hpledge : ∀ voted, self.state.votedFor = some voted → next.state.votedFor = some voted)
    (hop : ∀ voter count, op ≠ .handleVoteResponse self.state.currentTerm voter true count) :
    Continues self next op := by
  refine ⟨hrole, hterm, hpledge, ?_⟩
  intro voter
  rw [hvotes]
  constructor
  · exact .inl
  · rintro (hmem | ⟨count, heq⟩)
    · exact hmem
    · exact absurd heq (hop voter count)

theorem Continues.of_countVote {self : LeaderElection} {voter : PeerId} {granted : Bool} {count : Nat}
    (hrole : self.state.role = .candidate) :
    Continues self { self with state := countVote self.state voter granted }
      (.handleVoteResponse self.state.currentTerm voter granted count) := by
  cases granted with
  | false => exact .of_kept hrole rfl rfl (fun _ => id) (by simp)
  | true =>
    refine ⟨hrole, rfl, fun _ => id, ?_⟩
    intro other
    show other ∈ insert voter self.state.votesReceived ↔ _
    simp [or_comm, eq_comm]

/-- Every way to come out of an operation as a Candidate. -/
theorem candidate_apply {self : LeaderElection} {op : Op}
    (h : (self.apply op).state.role = .candidate) :
    (∃ count, op = .startElection count ∧ self.apply op = { self with state := self.campaign }) ∨
      Continues self (self.apply op) op := by
  cases op with
  | startElection count =>
    obtain ⟨_, heq⟩ | ⟨_, _, _, heq⟩ | ⟨_, _, _, heq⟩ := self.startElection_cases count
    · rw [apply, heq] at h ⊢
      exact .inr (.of_kept h rfl rfl (fun _ => id) (by simp))
    · exact .inl ⟨count, rfl, by rw [apply, heq]⟩
    · rw [apply, heq] at h
      cases h
  | handleRequestVote term candidate =>
    right
    obtain ⟨_, heq⟩ | ⟨_, _, heq⟩ | ⟨_, hfree, heq⟩ | ⟨_, heq⟩ :=
      self.handleRequestVote_cases term candidate
    · rw [apply, heq] at h ⊢
      exact .of_kept h rfl rfl (fun _ => id) (by simp)
    · rw [apply, heq] at h ⊢
      exact .of_kept h rfl rfl (fun _ => id) (by simp)
    · rw [apply, heq] at h ⊢
      refine .of_kept h rfl rfl ?_ (by simp)
      -- the vote is free only for the one it was given to
      rintro voted hvoted
      cases hfree with
      | inl hnone => exact absurd (hnone.symm.trans hvoted) (by simp)
      | inr hsome => exact hsome.symm.trans hvoted
    · rw [apply, heq] at h
      cases h
  | handleVoteResponse term voter granted count =>
    right
    rcases self.handleVoteResponse_cases term voter granted count with
      ⟨_, heq⟩ | ⟨_, hskip, heq⟩ | ⟨hrole, rfl, _, heq⟩ | ⟨_, _, _, heq⟩
    · rw [apply, heq] at h
      cases h
    · rw [apply, heq] at h ⊢
      refine .of_kept h rfl rfl (fun _ => id) ?_
      rintro voter' count' hop
      obtain ⟨hterm, _⟩ := Op.handleVoteResponse.inj hop
      exact hskip.elim (absurd h) (absurd hterm)
    · rw [apply, heq]
      exact .of_countVote hrole
    · rw [apply, heq] at h
      cases h
  | handleHeartbeat term leader =>
    right
    obtain ⟨_, heq⟩ | ⟨_, _, _, heq⟩ := self.handleHeartbeat_cases term leader
    · rw [apply, heq] at h ⊢
      exact .of_kept h rfl rfl (fun _ => id) (by simp)
    · rw [apply, heq] at h
      cases h
  | handleLeaderAssign term leader assigner =>
    rw [apply, handleLeaderAssign_eq] at h
    by_cases hlocal : leader = self.localPeerId <;> simp [assigned, hlocal] at h
  | setLeader leader =>
    by_cases hlocal : leader = self.localPeerId <;> simp [apply, setLeader, hlocal] at h
  | enableAutoElection enable =>
    right
    obtain ⟨manual, _, _, heq⟩ := self.enableAutoElection_cases enable
    rw [apply, heq] at h ⊢
    exact .of_kept h rfl rfl (fun _ => id) (by simp)
  | handlePeerLeft peer =>
    right
    obtain ⟨_, heq⟩ | ⟨_, _, _, heq⟩ := self.handlePeerLeft_cases peer
    · rw [apply, heq] at h ⊢
      exact .of_kept h rfl rfl (fun _ => id) (by simp)
    · rw [apply, heq] at h ⊢
      exact .of_kept h rfl rfl (fun _ => id) (by simp)

theorem idle_apply {self : LeaderElection}
    (hidle : self.state.role ≠ .candidate → self.state.votesReceived = ∅) {op : Op}
    (h : (self.apply op).state.role ≠ .candidate) : (self.apply op).state.votesReceived = ∅ := by
  cases op with
  | startElection count =>
    obtain ⟨_, heq⟩ | ⟨_, _, _, heq⟩ | ⟨_, _, _, heq⟩ := self.startElection_cases count
    · rw [apply, heq] at h ⊢
      exact hidle h
    · rw [apply, heq] at h
      exact absurd rfl h
    · rw [apply, heq]
      rfl
  | handleRequestVote term candidate =>
    obtain ⟨_, heq⟩ | ⟨_, _, heq⟩ | ⟨_, _, heq⟩ | ⟨_, heq⟩ :=
      self.handleRequestVote_cases term candidate
    · rw [apply, heq] at h ⊢
      exact hidle h
    · rw [apply, heq] at h ⊢
      exact hidle h
    · rw [apply, heq] at h ⊢
      exact hidle h
    · rw [apply, heq]
      rfl
  | handleVoteResponse term voter granted count =>
    rcases self.handleVoteResponse_cases term voter granted count with
      ⟨_, heq⟩ | ⟨_, _, heq⟩ | ⟨hrole, _, _, heq⟩ | ⟨_, _, _, heq⟩
    · rw [apply, heq]
      rfl
    · rw [apply, heq] at h ⊢
      exact hidle h
    · rw [apply, heq] at h
      have hstays : (countVote self.state voter granted).role = .candidate := by
        cases granted <;> exact hrole
      exact absurd hstays h
    · rw [apply, heq]
      rfl
  | handleHeartbeat term leader =>
    obtain ⟨_, heq⟩ | ⟨_, _, _, heq⟩ := self.handleHeartbeat_cases term leader
    · rw [apply, heq] at h ⊢
      exact hidle h
    · rw [apply, heq]
      -- a Follower's tally is left to the invariant, every other one is cleared
      by_cases hrole : self.state.role = .follower
      · simpa [follow, hrole] using hidle
      · simp [follow, hrole]
  | handleLeaderAssign term leader assigner =>
    rw [apply, handleLeaderAssign_eq]
    rfl
  | setLeader leader => rfl
  | enableAutoElection enable =>
    obtain ⟨manual, _, _, heq⟩ := self.enableAutoElection_cases enable
    rw [apply, heq] at h ⊢
    exact hidle h
  | handlePeerLeft peer =>
    obtain ⟨_, heq⟩ | ⟨_, _, _, heq⟩ := self.handlePeerLeft_cases peer
    · rw [apply, heq] at h ⊢
      exact hidle h
    · rw [apply, heq] at h ⊢
      exact hidle h

theorem Bookkept.apply {self : LeaderElection} (h : self.Bookkept) (op : Op) :
    (self.apply op).Bookkept where
  idle := idle_apply h.idle
  own hrole := by
    rw [apply_localPeerId]
    obtain ⟨_, _, heq⟩ | hcont := candidate_apply hrole
    · rw [heq]
      exact Finset.mem_singleton_self _
    · exact (hcont.tally _).mpr (.inl (h.own hcont.candidate))
  pledged hrole := by
    rw [apply_localPeerId]
    obtain ⟨_, _, heq⟩ | hcont := candidate_apply hrole
    · rw [heq]
      rfl
    · exact hcont.pledge _ (h.pledged hcont.candidate)

theorem bookkept_of_new {localPeerId : PeerId} {auto : Bool} {recovery : ManualOverrideRecovery}
    (ops : List Op) : (ops.foldl apply (.new localPeerId auto recovery)).Bookkept := by
  induction ops using List.reverseRecOn with
  | nil => exact ⟨fun _ => rfl, nofun, nofun⟩
  | append_singleton front op ih =>
    rw [List.foldl_append]
    exact ih.apply op

theorem Bookkept.nonempty_iff {self : LeaderElection} (h : self.Bookkept) :
    self.state.votesReceived.Nonempty ↔ self.state.role = .candidate := by
  constructor
  · intro hsome
    by_contra hrole
    rw [h.idle hrole] at hsome
    exact Finset.not_nonempty_empty hsome
  · exact fun hrole => ⟨_, h.own hrole⟩

/-- A Candidate's vote of its term is taken for every rival. -/
theorem Bookkept.refuses {self : LeaderElection} (h : self.Bookkept)
    (hrole : self.state.role = .candidate) {rival : PeerId} (hrival : rival ≠ self.localPeerId) :
    self.handleRequestVote self.state.currentTerm rival =
      ⟨self, none, (self.state.currentTerm, false)⟩ := by
  have hvoted := h.pledged hrole
  obtain ⟨_, heq⟩ | ⟨_, _, heq⟩ | ⟨_, hfree, _⟩ | ⟨hhigh, _⟩ :=
    self.handleRequestVote_cases self.state.currentTerm rival
  · exact heq
  · exact heq
  · cases hfree with
    | inl hnone => exact absurd (hnone.symm.trans hvoted) nofun
    | inr hsome => exact absurd (Option.some.inj (hsome.symm.trans hvoted)) hrival
  · exact absurd hhigh (UInt64.lt_irrefl _)

theorem handleVoteResponse_of_earlier {self : LeaderElection} {term : UInt64}
    (h : term < self.state.currentTerm) (voter : PeerId) (granted : Bool) (count : Nat) :
    self.handleVoteResponse term voter granted count = ⟨self, none, false⟩ := by
  obtain ⟨hhigh, _⟩ | ⟨_, _, heq⟩ | ⟨_, hterm, _⟩ | ⟨_, hterm, _⟩ :=
    self.handleVoteResponse_cases term voter granted count
  · exact absurd h (UInt64.lt_asymm hhigh)
  · exact heq
  · exact absurd (hterm ▸ h) (UInt64.lt_irrefl _)
  · exact absurd (hterm ▸ h) (UInt64.lt_irrefl _)

/-- The campaign that the node has run since `start`: in one term throughout, with the votes of the
node itself and of those whose consent to that term has arrived since. -/
structure Campaigning (start : LeaderElection) (since : List Op) (election : LeaderElection) :
    Prop where
  lasts : ∀ front back, since = front ++ back → (front.foldl apply start).state.role = .candidate ∧
    (front.foldl apply start).state.currentTerm = election.state.currentTerm
  tally : ∀ voter, voter ∈ election.state.votesReceived ↔ voter = election.localPeerId ∨
    ∃ count, .handleVoteResponse election.state.currentTerm voter true count ∈ since

theorem Campaigning.started (self : LeaderElection) :
    Campaigning { self with state := self.campaign } [] { self with state := self.campaign } := by
  constructor
  · intro front back hnil
    obtain ⟨rfl, _⟩ := List.append_eq_nil_iff.mp hnil.symm
    exact ⟨rfl, rfl⟩
  · intro voter
    simp [campaign]

theorem Campaigning.continued {start self : LeaderElection} {since : List Op} {op : Op}
    (h : Campaigning start since self) (hself : since.foldl apply start = self)
    (hrole : (self.apply op).state.role = .candidate) (hcont : Continues self (self.apply op) op) :
    Campaigning start (since ++ [op]) (self.apply op) := by
  constructor
  · intro front back hsince
    obtain rfl | ⟨back, op', rfl⟩ := List.eq_nil_or_concat back
    · rw [List.append_nil] at hsince
      rw [← hsince, List.foldl_append, hself]
      exact ⟨hrole, rfl⟩
    · rw [List.concat_eq_append, ← List.append_assoc] at hsince
      obtain ⟨hfront, _⟩ := List.append_inj' hsince rfl
      rw [hcont.term]
      exact h.lasts front back hfront
  · intro voter
    rw [hcont.tally, h.tally, hcont.term, apply_localPeerId, or_assoc]
    simp only [List.mem_append, List.mem_singleton, exists_or, eq_comm]

/-- Every Candidate is in a campaign that it has started itself. -/
theorem exists_campaign (start : LeaderElection) (hstart : start.state.role ≠ .candidate)
    (ops : List Op) (hrole : (ops.foldl apply start).state.role = .candidate) :
    ∃ before count since, ops = before ++ .startElection count :: since ∧
      Campaigning ((before ++ [.startElection count]).foldl apply start) since
        (ops.foldl apply start) := by
  induction ops using List.reverseRecOn with
  | nil => exact absurd hrole hstart
  | append_singleton front op ih =>
    rw [List.foldl_append] at hrole ⊢
    obtain ⟨count, rfl, heq⟩ | hcont := candidate_apply hrole
    · refine ⟨front, count, [], rfl, ?_⟩
      rw [List.foldl_append]
      simp only [List.foldl_cons, List.foldl_nil, heq]
      exact .started (front.foldl apply start)
    · obtain ⟨before, count, since, rfl, hcampaign⟩ := ih hcont.candidate
      refine ⟨before, count, since ++ [op], by simp, ?_⟩
      refine hcampaign.continued ?_ hrole hcont
      simp

/-- What the books of a node say that was created as `created` and has taken the operations. -/
structure Accounted (created : LeaderElection) (ops : List Op) (election : LeaderElection) :
    Prop where
  votes : election.state.votesReceived.Nonempty ↔ election.state.role = .candidate
  own : election.state.role = .candidate → created.localPeerId ∈ election.state.votesReceived
  pledged : election.state.role = .candidate →
    election.state.votedFor = some created.localPeerId
  loyal : election.state.role = .candidate → ∀ rival, rival ≠ created.localPeerId →
    election.handleRequestVote election.state.currentTerm rival =
      ⟨election, none, (election.state.currentTerm, false)⟩
  earlier : ∀ term, term < election.state.currentTerm → ∀ voter granted count,
    election.handleVoteResponse term voter granted count = ⟨election, none, false⟩
  campaign : election.state.role = .candidate → ∃ before count since,
    ops = before ++ .startElection count :: since ∧
      Campaigning ((before ++ [.startElection count]).foldl apply created) since election

/-- After every sequence of operations, votes are held by a Candidate alone. A Candidate holds its
own, has voted for itself and refuses its term to every rival; what it has counted are the
consents to its current term that arrived during this campaign. -/
theorem candidate_accounted (localPeerId : PeerId) (auto : Bool) (recovery : ManualOverrideRecovery)
    (ops : List Op) :
    Accounted (.new localPeerId auto recovery) ops
      (ops.foldl apply (.new localPeerId auto recovery)) := by
  have hbooks : (ops.foldl apply (.new localPeerId auto recovery)).Bookkept := bookkept_of_new ops
  have hlocal : (ops.foldl apply (.new localPeerId auto recovery)).localPeerId = localPeerId :=
    localPeerId_of_foldl _ ops
  constructor
  · exact hbooks.nonempty_iff
  · intro hrole
    have hown := hbooks.own hrole
    rwa [hlocal] at hown
  · intro hrole
    have hpledged := hbooks.pledged hrole
    rwa [hlocal] at hpledged
  · intro hrole rival hrival
    exact hbooks.refuses hrole (by rwa [hlocal])
  · intro term hterm
    exact handleVoteResponse_of_earlier hterm
  · exact exists_campaign _ (show Role.follower ≠ .candidate from nofun) ops

end MetaMystia.LeaderElection

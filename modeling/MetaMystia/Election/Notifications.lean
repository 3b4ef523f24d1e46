import MetaMystia.Election.RoleAgreement

/-! # Leader notifications of concurrent calls

A call updates the election under the write lock. `become_leader_inner` puts its
notification into the channel before the lock is released; the other handlers
release the lock first and put theirs later, so two calls can notify in the
order opposite to that of their updates.
-/

namespace MetaMystia

open Runs

/-- One election under concurrent calls. `pending` holds what the calls that have released the lock
are still to put into `leader_change_tx`; `channel` what the watcher has not received yet. -/
structure ElectionCalls where
  election : LeaderElection
  pending : List (Option PeerId)
  channel : List (Option PeerId)
  callbacks : List (Option PeerId)
deriving DecidableEq

namespace ElectionCalls

inductive Action
  | update (op : LeaderElection.Op)
  | notifyLeaderChange (call : Nat)
  | leaderChangeWatcher

def start (election : LeaderElection) : ElectionCalls := ⟨election, [], [], []⟩

def sent (s : ElectionCalls) : List (Option PeerId) := s.callbacks ++ s.channel

/-- The election timer starts an election only without a leader. -/
def mayRun (election : LeaderElection) : LeaderElection.Op → Bool
  | .startElection _ => election.leaderId.isNone
  | _ => true

def update (s : ElectionCalls) (op : LeaderElection.Op) : ElectionCalls :=
  let notice := (s.election.notice op).toList
  let inner := LeaderElection.Campaigns op
  { s with
    election := s.election.apply op
    pending := if inner then s.pending else s.pending ++ notice
    channel := if inner then s.channel ++ notice else s.channel }

def step (s : ElectionCalls) : Action → Option ElectionCalls
  | .update op => if mayRun s.election op then some (s.update op) else none
  | .notifyLeaderChange call =>
    s.pending[call]?.map fun leader =>
      { s with pending := s.pending.eraseIdx call, channel := s.channel ++ [leader] }
  | .leaderChangeWatcher =>
    match s.channel with
    | [] => none
    | leader :: rest => some { s with channel := rest, callbacks := s.callbacks ++ [leader] }

/-- A call that notifies after it released the lock still finds the leader it is to announce. -/
def Current (s : ElectionCalls) : Action → Prop
  | .notifyLeaderChange call => s.pending[call]? = some s.election.leaderId
  | _ => True

instance (s : ElectionCalls) : (a : Action) → Decidable (s.Current a)
  | .notifyLeaderChange _ => inferInstanceAs (Decidable (_ = _))
  | .update _ | .leaderChangeWatcher => .isTrue trivial

def Informed (s : ElectionCalls) : Prop :=
  s.sent.getLastD none = s.election.leaderId ∨ s.election.leaderId ∈ s.pending

end ElectionCalls

namespace LeaderElection

theorem noticeOfChange_getD (oldLeader : Option PeerId) (newLeader : PeerId) :
    (noticeOfChange oldLeader newLeader).getD oldLeader = some newLeader := by
  unfold noticeOfChange
  split_ifs with hchange
  · rfl
  · exact not_not.mp hchange

theorem leaderId_apply (self : LeaderElection) (op : Op) :
    (self.apply op).leaderId = (self.notice op).getD self.leaderId := by
  have hshift := self.shift_apply op
  generalize self.notice op = value at hshift ⊢
  cases hshift with
  | keeps _ hknown | campaigns _ hknown | wins _ _ hknown | deposed _ _ hknown
  | vacates _ _ hknown => exact hknown
  | follows _ hknown | assigned _ _ hknown =>
    exact hknown.trans (noticeOfChange_getD self.leaderId _).symm

end LeaderElection

namespace ElectionCalls

theorem sent_update {s : ElectionCalls} {op : LeaderElection.Op} :
    (s.update op).sent =
      if LeaderElection.Campaigns op then s.sent ++ (s.election.notice op).toList else s.sent := by
  unfold update sent
  cases LeaderElection.Campaigns op <;> simp

theorem Informed.update {s : ElectionCalls} (h : s.Informed) (op : LeaderElection.Op) :
    (s.update op).Informed := by
  have helection : (s.update op).election = s.election.apply op := rfl
  unfold Informed at *
  rw [sent_update, helection, LeaderElection.leaderId_apply]
  cases hnotice : s.election.notice op with
  | none => simpa [ElectionCalls.update, hnotice] using h
  | some leader =>
    cases hinner : LeaderElection.Campaigns op with
    | true => exact .inl (by simp)
    | false => exact .inr (by simp [ElectionCalls.update, hnotice, hinner])

theorem Informed.step {s t : ElectionCalls} {a : Action} (h : s.Informed) (ha : s.Current a)
    (hstep : s.step a = some t) : t.Informed := by
  cases a with
  | update op =>
    simp only [ElectionCalls.step] at hstep
    split_ifs at hstep
    obtain rfl := Option.some.inj hstep
    exact h.update op
  | notifyLeaderChange call =>
    obtain ⟨leader, hcall, rfl⟩ := Option.map_eq_some_iff.mp hstep
    obtain rfl := Option.some.inj (hcall.symm.trans ha)
    exact .inl (by simp [sent])
  | leaderChangeWatcher =>
    cases hchannel : s.channel with
    | nil => simp [ElectionCalls.step, hchannel] at hstep
    | cons leader rest =>
      simp only [ElectionCalls.step, hchannel] at hstep
      obtain rfl := Option.some.inj hstep
      simpa [Informed, sent, hchannel] using h

/-- In every interleaving in which the calls that notify after releasing the lock still announce
the current leader: once all calls have finished, the last value put into the channel is the
leader, and so is the last `LeaderChanged` callback once the watcher has received everything. -/
theorem notifications_end_on_leader {localPeerId : PeerId} {auto : Bool}
    {recovery : ManualOverrideRecovery} {acts : List Action} {t : ElectionCalls}
    (hcurrent : Along step Current (start (.new localPeerId auto recovery)) acts)
    (hrun : run step (start (.new localPeerId auto recovery)) acts = some t)
    (hdone : t.pending = []) :
    t.sent.getLastD none = t.election.leaderId ∧
      (t.channel = [] → t.callbacks.getLastD none = t.election.leaderId) := by
  have hinformed : t.Informed :=
    invariant (fun _ _ _ h ha hstep => h.step ha hstep) (.inl rfl) hcurrent hrun
  have hlast : t.sent.getLastD none = t.election.leaderId := by
    cases hinformed with
    | inl hlast => exact hlast
    | inr hpending => simp [hdone] at hpending
  refine ⟨hlast, ?_⟩
  intro hchannel
  simpa [sent, hchannel] using hlast

/-- Node `a` wins an election, then follows `b`, then `c`; each call notifies before the next. -/
theorem notifications_in_turn :
    let acts : List Action := [.update (.startElection 2),
      .update (.handleVoteResponse 1 ⟨"b"⟩ true 2), .update (.handleHeartbeat 2 ⟨"b"⟩),
      .notifyLeaderChange 0, .leaderChangeWatcher, .update (.setLeader ⟨"c"⟩), .notifyLeaderChange 0]
    ∃ t, run step (start (.new ⟨"a"⟩ true .hold)) acts = some t ∧
      t.sent.getLastD none = some ⟨"c"⟩ := by
  intro acts
  have hcurrent : Along step Current (start (.new ⟨"a"⟩ true .hold)) acts := by decide
  exact ⟨_, rfl, (notifications_end_on_leader hcurrent rfl rfl).1⟩

/-- A heartbeat of `b` and `SetLeader(c)` on two threads: the heartbeat is handled first and
notifies last. -/
theorem notifications_end_on_old_leader :
    ¬ ∀ acts t, run step (start (.new ⟨"a"⟩ true .hold)) acts = some t → t.pending = [] →
      t.sent.getLastD none = t.election.leaderId := by
  intro h
  have hlast := h [.update (.handleHeartbeat 1 ⟨"b"⟩), .update (.setLeader ⟨"c"⟩),
    .notifyLeaderChange 1, .notifyLeaderChange 0] _ rfl rfl
  exact absurd hlast (by decide)

end ElectionCalls

end MetaMystia

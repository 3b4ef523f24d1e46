import MetaMystia.Election.Operations
import MetaMystia.Protocol
import Mathlib.Algebra.GroupWithZero.Nat
import Mathlib.Data.List.FinRange
import Mathlib.Logic.Function.Basic

/-! # A cluster of elections over an unreliable network

`sent` keeps every message ever sent and a message may be received any number of
times or never, so delay, reordering, duplication and loss are all runs of the
cluster. `held` records each leadership: which node was Leader in which term.
-/

namespace MetaMystia

/-- What `handle_message` sends while it handles a message, and the connections it opens. -/
inductive Outgoing
  | reply (msg : InternalMessage)
  | broadcast (msg : InternalMessage)
  | connect (addr : String)
deriving DecidableEq

namespace LeaderElection

/-- The arms of `handle_message` that reach the election. `count` is the number of connected
peers and `now` the clock that stamps a heartbeat. -/
def handleMessage (self : LeaderElection) (count : Nat) (now : UInt64) :
    InternalMessage → LeaderElection × List Outgoing
  | .heartbeat term leaderId timestampMs =>
    ((self.handleHeartbeat term leaderId).election, [.reply (.heartbeatResponse term timestampMs)])
  | .requestVote term candidateId =>
    let response := self.handleRequestVote term candidateId
    let (respTerm, granted) := response.value
    (response.election, [.reply (.voteResponse respTerm self.localPeerId granted)])
  | .voteResponse term voterId granted =>
    let response := self.handleVoteResponse term voterId granted count
    (response.election,
      if response.value then
        [.broadcast (.heartbeat response.election.currentTerm self.localPeerId now)]
      else [])
  | .leaderAssign term leaderId assignerId =>
    ((self.handleLeaderAssign term leaderId assignerId).election, [])
  | _ => (self, [])

end LeaderElection

structure Envelope (n : Nat) where
  src : Fin n
  dst : Fin n
  msg : InternalMessage
deriving DecidableEq

/-- Named, as is the next one: the models over a cluster share one proof of each. -/
instance Envelope.lawfulBEq {n : Nat} : LawfulBEq (Envelope n) := inferInstance

instance Cluster.three_ne_zero : NeZero 3 := ⟨by decide⟩

def broadcast {n : Nat} (src : Fin n) (msg : InternalMessage) : List (Envelope n) :=
  ((List.finRange n).filter (· ≠ src)).map fun dst => ⟨src, dst, msg⟩

def Outgoing.post {n : Nat} (src peer : Fin n) : Outgoing → List (Envelope n)
  | .reply msg => [⟨src, peer, msg⟩]
  | .broadcast msg => MetaMystia.broadcast src msg
  | .connect _ => []

structure Cluster (n : Nat) where
  nodes : Fin n → LeaderElection
  sent : List (Envelope n)
  held : List (Fin n × UInt64)

namespace Cluster

variable {n : Nat}

inductive Action (n : Nat)
  | startElection (i : Fin n)
  | receive (i : Fin n) (env : Envelope n) (now : UInt64)
  | heartbeat (i : Fin n) (now : UInt64)
  | handlePeerLeft (i : Fin n) (peer : PeerId)
  | enableAutoElection (i : Fin n) (enable : Bool)

/-- Node `i` replaces its election and sends messages; a leadership it then holds is recorded. -/
def act (s : Cluster n) (i : Fin n) (election : LeaderElection) (msgs : List (Envelope n)) :
    Cluster n where
  nodes := Function.update s.nodes i election
  sent := s.sent ++ msgs
  held := if election.isLeader then s.held ++ [(i, election.currentTerm)] else s.held

def start (ids : Fin n → PeerId) (recovery : ManualOverrideRecovery) : Cluster n where
  nodes i := LeaderElection.new (ids i) true recovery
  sent := []
  held := []

def requestVotes (i : Fin n) : Option (UInt64 × PeerId) → List (Envelope n)
  | some (term, candidate) => broadcast i (.requestVote term candidate)
  | none => []

def step (s : Cluster n) : Action n → Option (Cluster n)
  | .startElection i =>
    let reply := (s.nodes i).startElection (n - 1)
    some (s.act i reply.election (requestVotes i reply.value))
  | .receive i env now =>
    if env ∈ s.sent ∧ env.dst = i then
      let (election, out) := (s.nodes i).handleMessage (n - 1) now env.msg
      some (s.act i election (out.flatMap (Outgoing.post i env.src)))
    else none
  | .heartbeat i now =>
    if (s.nodes i).isLeader then
      some (s.act i (s.nodes i)
        (broadcast i (.heartbeat (s.nodes i).currentTerm (s.nodes i).localPeerId now)))
    else none
  | .handlePeerLeft i peer => some (s.act i ((s.nodes i).handlePeerLeft peer).election [])
  | .enableAutoElection i enable => some (s.act i ((s.nodes i).enableAutoElection enable).election [])

/-- No node starts an election in the last term of `u64`. -/
def InRange (s : Cluster n) : Action n → Prop
  | .startElection i => (s.nodes i).InRange (.startElection (n - 1))
  | _ => True

instance (s : Cluster n) : (a : Action n) → Decidable (s.InRange a)
  | .startElection i => inferInstanceAs (Decidable ((s.nodes i).InRange (.startElection (n - 1))))
  | .receive .. | .heartbeat .. | .handlePeerLeft .. | .enableAutoElection .. => .isTrue trivial

theorem mem_broadcast {src : Fin n} {msg : InternalMessage} {env : Envelope n} :
    env ∈ broadcast src msg ↔ env.src = src ∧ env.dst ≠ src ∧ env.msg = msg := by
  obtain ⟨a, b, m⟩ := env
  simp only [broadcast, List.mem_map, List.mem_filter, List.mem_finRange, true_and, decide_eq_true_eq,
    Envelope.mk.injEq]
  constructor
  · rintro ⟨dst, hne, rfl, rfl, rfl⟩
    exact ⟨rfl, hne, rfl⟩
  · rintro ⟨rfl, hne, rfl⟩
    exact ⟨b, hne, rfl, rfl, rfl⟩

@[simp] theorem act_nodes_self (s : Cluster n) (i : Fin n) (election : LeaderElection)
    (msgs : List (Envelope n)) : (s.act i election msgs).nodes i = election :=
  Function.update_self ..

theorem act_nodes_of_ne (s : Cluster n) {i j : Fin n} (h : j ≠ i) (election : LeaderElection)
    (msgs : List (Envelope n)) : (s.act i election msgs).nodes j = s.nodes j :=
  Function.update_of_ne h ..

/-- What holds of the new state at its node and of the others as they were holds of all nodes. -/
theorem forall_act_nodes (s : Cluster n) {i : Fin n} {election : LeaderElection}
    {msgs : List (Envelope n)} (P : Fin n → LeaderElection → Prop) (hself : P i election)
    (hothers : ∀ j, j ≠ i → P j (s.nodes j)) (j : Fin n) : P j ((s.act i election msgs).nodes j) :=
  (Function.forall_update_iff s.nodes P).mpr ⟨hself, hothers⟩ j

theorem mem_act_sent {s : Cluster n} {i : Fin n} {election : LeaderElection}
    {msgs : List (Envelope n)} {env : Envelope n} :
    env ∈ (s.act i election msgs).sent ↔ env ∈ s.sent ∨ env ∈ msgs :=
  List.mem_append

theorem mem_act_held {s : Cluster n} {i : Fin n} {election : LeaderElection}
    {msgs : List (Envelope n)} {entry : Fin n × UInt64} :
    entry ∈ (s.act i election msgs).held ↔
      entry ∈ s.held ∨ (election.state.role = .leader ∧ entry = (i, election.state.currentTerm)) := by
  unfold act LeaderElection.isLeader LeaderElection.currentTerm
  by_cases h : election.state.role = .leader <;> simp [h]

end Cluster

end MetaMystia

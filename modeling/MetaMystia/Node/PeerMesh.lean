import MetaMystia.Library.Mesh
import MetaMystia.Node.NetworkState

/-! # A mesh of nodes

Nodes exchange election messages over FIFO channels and leave gracefully. The tick
of a timer and the handling of a message are one step each; `TaskCluster` has their
lock sections. `held` records each leadership. `Wired` is what holds of the messages
on their way: who may have sent them, and that a node that has left is announced to
the others before they can do without it.
-/

namespace MetaMystia

structure PeerMesh (n : Nat) where
  nodes : Fin n → NetworkState
  present : Fin n → Bool
  channels : Mesh.Channels (Fin n) InternalMessage
  held : List (Fin n × UInt64)

namespace PeerMesh

open Runs Mesh LeaderElection MembershipManager

variable {n : Nat} {ids : Fin n → PeerId} {s next : PeerMesh n}

inductive Action (n : Nat)
  | electionTick (i : Fin n) (now : Clock)
  | heartbeatTick (i : Fin n) (now : Clock)
  | deliver (src dst : Fin n) (now : Clock)
  | watch (i : Fin n)
  | leave (i : Fin n)

def start (nodes : Fin n → NetworkState) : PeerMesh n where
  nodes := nodes
  present _ := true
  channels _ _ := []
  held := []

def election (s : PeerMesh n) (i : Fin n) : LeaderElection := (s.nodes i).leaderElection

/-- The leaderships on record once node `i` has become `e`. -/
def heldAfter (held : List (Fin n × UInt64)) (i : Fin n) (e : LeaderElection) :
    List (Fin n × UInt64) :=
  if e.isLeader then held ++ [(i, e.currentTerm)] else held

def setNode (s : PeerMesh n) (i : Fin n) (node : NetworkState) : PeerMesh n :=
  { s with
    nodes := Function.update s.nodes i node
    held := heldAfter s.held i node.leaderElection }

def sendOne (i peer : Fin n) (channels : Channels (Fin n) InternalMessage) :
    Outgoing → Channels (Fin n) InternalMessage
  | .reply msg => post channels i peer msg
  | .broadcast msg => postAll channels i msg
  | .connect _ => channels

def send (s : PeerMesh n) (i peer : Fin n) (out : List Outgoing) : PeerMesh n :=
  { s with channels := out.foldl (sendOne i peer) s.channels }

def consume (s : PeerMesh n) (src dst : Fin n) : PeerMesh n :=
  { s with channels := take s.channels src dst }

def step (s : PeerMesh n) : Action n → Option (PeerMesh n)
  | .electionTick i now =>
    if s.present i then
      let (node, out) := (s.nodes i).electionTick now
      some ((s.setNode i node).send i i out)
    else none
  | .heartbeatTick i now =>
    if s.present i ∧ (s.election i).isLeader then
      some (s.send i i [.broadcast (.heartbeat (s.election i).currentTerm
        (s.nodes i).transport.localPeerId now.timestampMs)])
    else none
  | .deliver src dst now =>
    if s.present dst then
      match s.channels src dst with
      | msg :: _ =>
        let (node, out) := (s.nodes dst).handleMessage (s.nodes src).transport.localPeerId now msg
        some (((s.setNode dst node).consume src dst).send dst src out)
      | [] => none
    else none
  | .watch i =>
    if s.present i then (s.nodes i).watch.map (s.setNode i) else none
  | .leave i =>
    if s.present i then
      some { s with
        present := Function.update s.present i false
        channels := postAll s.channels i (.peerLeave (s.nodes i).transport.localPeerId) }
    else none

/-- Every node has just started and is connected to all others. -/
structure FullyConnected (ids : Fin n → PeerId) (nodes : Fin n → NetworkState) : Prop where
  started : ∀ i, ∃ recovery, (nodes i).leaderElection = .new (ids i) true recovery
  name : ∀ i, (nodes i).transport.localPeerId = ids i
  connected : ∀ i peer, (nodes i).membership.getPeerStatus peer = some .connected ↔
    ∃ j, j ≠ i ∧ peer = ids j
  quiet : ∀ i, (nodes i).membership.eventTx = []

/-- No message is on its way to a present node, and the watchers have received every event. -/
def Quiet (s : PeerMesh n) : Prop :=
  (∀ src dst, s.present dst = true → s.channels src dst = []) ∧
  ∀ i, s.present i = true → (s.nodes i).membership.eventTx = []

instance (s : PeerMesh n) : Decidable s.Quiet := inferInstanceAs (Decidable (_ ∧ _))

theorem mem_heldAfter {held : List (Fin n × UInt64)} {i : Fin n} {e : LeaderElection}
    {entry : Fin n × UInt64} : entry ∈ heldAfter held i e ↔
      entry ∈ held ∨ (e.state.role = .leader ∧ entry = (i, e.state.currentTerm)) := by
  unfold heldAfter isLeader currentTerm
  by_cases h : e.state.role = .leader <;> simp [h]

def MaySend (ids : Fin n → PeerId) (s : PeerMesh n) (src : Fin n) : InternalMessage → Prop
  | .heartbeat term leader _ => leader = ids src ∧ (src, term) ∈ s.held
  | .peerLeave peer => peer = ids src ∧ s.present src = false
  | .requestVote _ _ | .voteResponse _ _ _ | .heartbeatResponse _ _ => True
  | _ => False

structure Wired (ids : Fin n → PeerId) (s : PeerMesh n) : Prop where
  name : ∀ i, (s.nodes i).transport.localPeerId = ids i
  traffic : ∀ src dst msg, msg ∈ s.channels src dst → src ≠ dst ∧ s.MaySend ids src msg
  last : ∀ src dst, (s.channels src dst).Pairwise fun early _ => early ≠ .peerLeave (ids src)
  closing : ∀ src dst, s.present src = false → s.channels src dst ≠ [] →
    .peerLeave (ids src) ∈ s.channels src dst
  known : ∀ src dst, src ≠ dst →
    s.present src = true ∨ .peerLeave (ids src) ∈ s.channels src dst →
    ids src ∈ (s.nodes dst).membership.peers
  queued : ∀ i peer, .left peer ∈ (s.nodes i).membership.eventTx → ∃ m, m ≠ i ∧ peer = ids m
  departed : ∀ m k, m ≠ k → s.present m = false → (s.election k).state.leaderId = some (ids m) →
    .peerLeave (ids m) ∈ s.channels m k ∨ .left (ids m) ∈ (s.nodes k).membership.eventTx

theorem wired_start {nodes : Fin n → NetworkState} (h : FullyConnected ids nodes) :
    Wired ids (start nodes) where
  name := h.name
  traffic _ _ _ hmem := nomatch hmem
  last _ _ := .nil
  closing _ _ hpresent := nomatch hpresent
  known src dst hne _ := mem_peers_of_status ((h.connected dst (ids src)).mpr ⟨src, hne, rfl⟩)
  queued i peer hmem := by
    have hquiet : ((start nodes).nodes i).membership.eventTx = [] := h.quiet i
    rw [hquiet] at hmem
    exact nomatch hmem
  departed _ _ _ hpresent := nomatch hpresent

theorem MaySend.setNode {src i : Fin n} {node : NetworkState} {msg : InternalMessage}
    (h : s.MaySend ids src msg) : (s.setNode i node).MaySend ids src msg := by
  cases msg with
  | heartbeat term leader timestamp => exact ⟨h.1, mem_heldAfter.mpr (.inl h.2)⟩
  | _ => exact h

theorem forall_setNode {i : Fin n} {node : NetworkState} {P : Fin n → NetworkState → Prop}
    (hself : P i node) (hothers : ∀ k, k ≠ i → P k (s.nodes k)) (k : Fin n) :
    P k ((s.setNode i node).nodes k) :=
  (Function.forall_update_iff s.nodes P).mpr ⟨hself, hothers⟩ k

theorem mem_setNode_held {i : Fin n} {node : NetworkState} {entry : Fin n × UInt64} :
    entry ∈ (s.setNode i node).held ↔ entry ∈ s.held ∨
      (node.leaderElection.state.role = .leader ∧ entry = (i, node.leaderElection.state.currentTerm)) :=
  mem_heldAfter

theorem Wired.setNode (h : Wired ids s) {i : Fin n} {node : NetworkState}
    (hname : node.transport.localPeerId = ids i)
    (hknown : ∀ peer, peer ∈ (s.nodes i).membership.peers → peer ∈ node.membership.peers)
    (hqueued : ∀ peer, .left peer ∈ node.membership.eventTx → ∃ m, m ≠ i ∧ peer = ids m)
    (hdeparted : ∀ m, m ≠ i → s.present m = false →
      node.leaderElection.state.leaderId = some (ids m) →
      .peerLeave (ids m) ∈ s.channels m i ∨ .left (ids m) ∈ node.membership.eventTx) :
    Wired ids (s.setNode i node) := by
  constructor
  · exact forall_setNode (P := fun k node => node.transport.localPeerId = ids k) hname
      fun k _ => h.name k
  · intro src dst msg hmem
    obtain ⟨hne, hsend⟩ := h.traffic src dst msg hmem
    exact ⟨hne, hsend.setNode⟩
  · exact h.last
  · exact h.closing
  · intro src
    refine forall_setNode (P := fun k node => src ≠ k →
      s.present src = true ∨ .peerLeave (ids src) ∈ s.channels src k →
      ids src ∈ node.membership.peers) ?_ fun k _ => h.known src k
    exact fun hne hor => hknown _ (h.known src i hne hor)
  · exact forall_setNode (P := fun k node => ∀ peer, .left peer ∈ node.membership.eventTx →
      ∃ m, m ≠ k ∧ peer = ids m) hqueued fun k _ => h.queued k
  · intro m
    exact forall_setNode (P := fun k node => m ≠ k → s.present m = false →
      node.leaderElection.state.leaderId = some (ids m) →
      .peerLeave (ids m) ∈ s.channels m k ∨ .left (ids m) ∈ node.membership.eventTx)
      (hdeparted m) fun k _ => h.departed m k

theorem Wired.setElection (h : Wired ids s) {i : Fin n} {e : LeaderElection}
    (hleader : ∀ m, m ≠ i → e.state.leaderId = some (ids m) →
      (s.election i).state.leaderId = some (ids m)) :
    Wired ids (s.setNode i { s.nodes i with leaderElection := e }) :=
  h.setNode (h.name i) (fun _ => id) (h.queued i)
    fun m hm hpresent hpoint => h.departed m i hm hpresent (hleader m hm hpoint)

theorem Wired.consume (h : Wired ids s) {src dst : Fin n} {msg : InternalMessage}
    {rest : List InternalMessage} (hhead : s.channels src dst = msg :: rest)
    (hmsg : msg ≠ .peerLeave (ids src)) : Wired ids (s.consume src dst) := by
  have hkeep : ∀ i j, .peerLeave (ids i) ∈ s.channels i j →
      .peerLeave (ids i) ∈ take s.channels src dst i j := by
    intro i j hmem
    cases mem_take_or hhead hmem with
    | inl hin => exact hin
    | inr htaken =>
      obtain ⟨rfl, _, heq⟩ := htaken
      exact absurd heq.symm hmsg
  constructor
  · exact h.name
  · exact fun i j m hmem => h.traffic i j m (mem_of_mem_take hmem)
  · intro i j
    exact (h.last i j).sublist (take_sublist ..)
  · intro i j hpresent hne
    refine hkeep i j (h.closing i j hpresent ?_)
    intro hnil
    exact hne (List.sublist_nil.mp (hnil ▸ take_sublist ..))
  · exact fun i j hne hor => h.known i j hne (hor.imp_right mem_of_mem_take)
  · exact h.queued
  · exact fun m k hne hpresent hleader =>
      (h.departed m k hne hpresent hleader).imp_left (hkeep m k)

theorem Wired.sendMessage (h : Wired ids s) {i : Fin n} {msg : InternalMessage}
    {channels : Channels (Fin n) InternalMessage} (hpresent : s.present i = true)
    (hsend : s.MaySend ids i msg) (hext : Extends s.channels channels i msg) :
    Wired ids { s with channels := channels } := by
  have hleave : msg ≠ .peerLeave (ids i) := by
    rintro rfl
    exact absurd hsend.2 (by simp [hpresent])
  have hopen : ∀ j m, m ∈ s.channels i j → m ≠ .peerLeave (ids i) := by
    rintro j m hmem rfl
    exact absurd (h.traffic i j _ hmem).2.2 (by simp [hpresent])
  constructor
  · exact h.name
  · intro src dst m hmem
    cases hext.mem hmem with
    | inl hold => exact h.traffic src dst m hold
    | inr hnew =>
      obtain ⟨rfl, hdst, rfl⟩ := hnew
      exact ⟨hdst.symm, hsend⟩
  · intro src dst
    cases hext src dst with
    | inl heq =>
      show (channels src dst).Pairwise _
      rw [heq]
      exact h.last src dst
    | inr hnew =>
      obtain ⟨rfl, _, heq⟩ := hnew
      show (channels src dst).Pairwise _
      rw [heq, List.pairwise_append]
      exact ⟨h.last src dst, List.pairwise_singleton .., fun m hm _ _ => hopen dst m hm⟩
  · intro src dst habsent hne
    cases hext src dst with
    | inl heq =>
      show _ ∈ channels src dst
      rw [heq]
      exact h.closing src dst habsent (heq ▸ hne)
    | inr hnew =>
      obtain ⟨rfl, _, _⟩ := hnew
      exact absurd hpresent (by simp_all)
  · intro src dst hne hor
    refine h.known src dst hne (hor.imp_right fun hmem => ?_)
    cases hext.mem hmem with
    | inl hold => exact hold
    | inr hnew =>
      obtain ⟨rfl, _, heq⟩ := hnew
      exact absurd heq.symm hleave
  · exact h.queued
  · exact fun m k hne habsent hleader =>
      (h.departed m k hne habsent hleader).imp_left hext.subset

/-- The message that an item of `handle_message`'s output puts on the network is allowed. -/
def MayPost (ids : Fin n → PeerId) (s : PeerMesh n) (i peer : Fin n) : Outgoing → Prop
  | .reply msg => peer ≠ i ∧ s.MaySend ids i msg
  | .broadcast msg => s.MaySend ids i msg
  | .connect _ => True

theorem Wired.send {i peer : Fin n} {out : List Outgoing} (h : Wired ids s)
    (hpresent : s.present i = true) (hout : ∀ item ∈ out, s.MayPost ids i peer item) :
    Wired ids (s.send i peer out) := by
  induction out generalizing s with
  | nil => exact h
  | cons item rest ih =>
    have hrest := fun other hmem => hout other (List.mem_cons_of_mem _ hmem)
    have hitem := hout item List.mem_cons_self
    cases item with
    | reply msg =>
      exact ih (h.sendMessage hpresent hitem.2 (extends_post hitem.1)) hpresent hrest
    | broadcast msg => exact ih (h.sendMessage hpresent hitem extends_postAll) hpresent hrest
    | connect addr => exact ih h hpresent hrest

theorem Wired.leave (h : Wired ids s) {i : Fin n} (hpresent : s.present i = true) :
    Wired ids { s with
      present := Function.update s.present i false
      channels := postAll s.channels i (.peerLeave (ids i)) } := by
  have hext : Extends s.channels (postAll s.channels i (.peerLeave (ids i))) i (.peerLeave (ids i)) :=
    extends_postAll
  have hopen : ∀ j m, m ∈ s.channels i j → m ≠ .peerLeave (ids i) := by
    rintro j m hmem rfl
    exact absurd (h.traffic i j _ hmem).2.2 (by simp [hpresent])
  have hposted : ∀ j, j ≠ i → .peerLeave (ids i) ∈ postAll s.channels i (.peerLeave (ids i)) i j :=
    fun j hj => mem_postAll.mpr (.inr ⟨rfl, hj, rfl⟩)
  constructor
  · exact h.name
  · intro src dst m hmem
    cases hext.mem hmem with
    | inl hold =>
      obtain ⟨hne, hsend⟩ := h.traffic src dst m hold
      refine ⟨hne, ?_⟩
      cases m with
      | peerLeave peer =>
        refine ⟨hsend.1, ?_⟩
        have hsrc : src ≠ i := by
          rintro rfl
          exact absurd hsend.2 (by simp [hpresent])
        exact (Function.update_of_ne hsrc ..).trans hsend.2
      | _ => exact hsend
    | inr hnew =>
      obtain ⟨rfl, hdst, rfl⟩ := hnew
      exact ⟨hdst.symm, rfl, Function.update_self ..⟩
  · intro src dst
    cases hext src dst with
    | inl heq =>
      show (postAll s.channels i (.peerLeave (ids i)) src dst).Pairwise _
      rw [heq]
      exact h.last src dst
    | inr hnew =>
      obtain ⟨rfl, _, heq⟩ := hnew
      show (postAll s.channels src (.peerLeave (ids src)) src dst).Pairwise _
      rw [heq, List.pairwise_append]
      exact ⟨h.last src dst, List.pairwise_singleton .., fun m hm _ _ => hopen dst m hm⟩
  · intro src dst habsent hne
    by_cases hsrc : src = i
    · subst hsrc
      obtain ⟨msg, hmsg⟩ := List.exists_mem_of_ne_nil _ hne
      cases hext.mem hmsg with
      | inl hold => exact hposted dst (h.traffic src dst msg hold).1.symm
      | inr hnew => exact hposted dst hnew.2.1
    · have hsame : s.present src = false := (Function.update_of_ne hsrc ..).symm.trans habsent
      refine hext.subset (h.closing src dst hsame ?_)
      intro hnil
      cases hext src dst with
      | inl heq => exact hne (heq.trans hnil)
      | inr hnew => exact hsrc hnew.1
  · intro src dst hne hor
    by_cases hsrc : src = i
    · subst hsrc
      exact h.known src dst hne (.inl hpresent)
    · refine h.known src dst hne (hor.imp ?_ ?_)
      · exact fun hp => (Function.update_of_ne hsrc ..).symm.trans hp
      · intro hmem
        cases hext.mem hmem with
        | inl hold => exact hold
        | inr hnew => exact absurd hnew.1 hsrc
  · exact h.queued
  · intro m k hne habsent hleader
    by_cases hm : m = i
    · subst hm
      exact .inl (hposted k hne.symm)
    · have hsame : s.present m = false := (Function.update_of_ne hm ..).symm.trans habsent
      exact (h.departed m k hne hsame hleader).imp_left hext.subset

theorem Wired.farewell (h : Wired ids s) (hids : Function.Injective ids) {src dst : Fin n}
    {rest : List InternalMessage} {node : NetworkState}
    (hhead : s.channels src dst = .peerLeave (ids src) :: rest)
    (hname : node.transport.localPeerId = ids dst)
    (hmembership : node.membership = (s.nodes dst).membership.removePeer (ids src))
    (hleader : node.leaderElection = s.election dst) :
    Wired ids ((s.setNode dst node).consume src dst) := by
  have hin : .peerLeave (ids src) ∈ s.channels src dst := hhead ▸ List.mem_cons_self
  obtain ⟨hne, -, habsent⟩ := h.traffic src dst _ hin
  have hrest : rest = [] := by
    have hpair := h.last src dst
    rw [hhead, List.pairwise_cons] at hpair
    exact List.eq_nil_iff_forall_not_mem.mpr fun m hm => hpair.1 m hm rfl
  have hempty : take s.channels src dst src dst = [] := by
    simp [Mesh.take, hhead, hrest]
  have hother : ∀ i j, ¬ (i = src ∧ j = dst) → take s.channels src dst i j = s.channels i j := by
    intro i j hnot
    exact if_neg hnot
  constructor
  · exact forall_setNode (P := fun k node => node.transport.localPeerId = ids k) hname
      fun k _ => h.name k
  · intro i j m hmem
    obtain ⟨hij, hsend⟩ := h.traffic i j m (mem_of_mem_take hmem)
    exact ⟨hij, hsend.setNode⟩
  · intro i j
    exact (h.last i j).sublist (take_sublist ..)
  · intro i j hpresent hnil
    show _ ∈ take s.channels src dst i j
    by_cases hij : i = src ∧ j = dst
    · obtain ⟨rfl, rfl⟩ := hij
      exact absurd hempty hnil
    · rw [hother i j hij]
      exact h.closing i j hpresent (hother i j hij ▸ hnil)
  · intro i
    refine forall_setNode (P := fun j node => i ≠ j →
      s.present i = true ∨ .peerLeave (ids i) ∈ take s.channels src dst i j →
      ids i ∈ node.membership.peers) ?_ fun k _ hik hor => h.known i k hik (hor.imp_right mem_of_mem_take)
    intro hi hor
    have hsrc : i ≠ src := by
      rintro rfl
      cases hor with
      | inl hp => exact absurd (hp.symm.trans habsent) nofun
      | inr hmem =>
        rw [hempty] at hmem
        exact nomatch hmem
    rw [hmembership]
    exact mem_peers_removePeer (hids.ne hsrc) (h.known i dst hi (hor.imp_right mem_of_mem_take))
  · refine forall_setNode (P := fun k node => ∀ peer, .left peer ∈ node.membership.eventTx →
      ∃ m, m ≠ k ∧ peer = ids m) ?_ fun k _ => h.queued k
    intro peer hmem
    rw [hmembership] at hmem
    cases left_of_mem_removePeer hmem with
    | inl hold => exact h.queued dst peer hold
    | inr hpeer => exact ⟨src, hne, hpeer⟩
  · intro m
    refine forall_setNode (P := fun k node => m ≠ k → s.present m = false →
      node.leaderElection.state.leaderId = some (ids m) →
      .peerLeave (ids m) ∈ take s.channels src dst m k ∨ .left (ids m) ∈ node.membership.eventTx) ?_ ?_
    · intro hm hgone hpoint
      rw [hmembership]
      by_cases hms : m = src
      · subst hms
        exact .inr (left_mem_removePeer (h.known m dst hm (.inr hin)))
      · rw [hother m dst (fun hboth => hms hboth.1)]
        exact (h.departed m dst hm hgone (hleader ▸ hpoint)).imp_right eventTx_subset_removePeer
    · intro k hk hm hgone hpoint
      rw [hother m k (fun hboth => hk hboth.2)]
      exact h.departed m k hm hgone hpoint

end PeerMesh

end MetaMystia

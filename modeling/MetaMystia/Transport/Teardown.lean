import MetaMystia.Library.Runs
import MetaMystia.Transport.Connections

/-! # Who tears a connection down

The control read tasks run beside the connection map. A task that has left its
loop may wait arbitrarily long for the lock, and then looks the entry up by peer
id alone. The entry it finds is its own as long as no peer is registered again
while a read task of an earlier connection is unfinished.
-/

namespace MetaMystia

/-- A control read task that has not finished; `exited` once it has left its loop. -/
structure ReadTask where
  peerId : PeerId
  generation : Nat
  exited : Bool
deriving DecidableEq

theorem ReadTask.of_find {tasks : List ReadTask} {generation : Nat} {state : ReadTask → Bool}
    {task : ReadTask}
    (h : (tasks.find? fun task => task.generation == generation && state task) = some task) :
    task ∈ tasks ∧ task.generation = generation := by
  have hfound := List.find?_some h
  simp only [Bool.and_eq_true, beq_iff_eq] at hfound
  exact ⟨List.mem_of_find?_eq_some h, hfound.1⟩

structure Transport where
  manager : TransportManager
  tasks : List ReadTask

namespace Transport

open Runs TransportManager

inductive Action
  | register (peerId : PeerId) (peerAddr : String) (now : Nat)
  | registerDataChannel (peerId : PeerId)
  | disconnectPeer (peerId : PeerId) (fits : Bool)
  | cancelShutdownToken
  | shutdown
  | leaveLoop (generation : Nat)
  | cleanup (generation : Nat)

def start (manager : TransportManager) : Transport where
  manager := manager
  tasks := []

def step (s : Transport) : Action → Option Transport
  | .register peerId peerAddr now =>
    match s.manager.registerConnection peerId peerAddr now with
    | .ok manager =>
      some
        { manager
          tasks := s.tasks ++
            [{ peerId, generation := s.manager.nextGeneration, exited := false }] }
    | .error _ => some s
  | .registerDataChannel peerId => some { s with manager := s.manager.registerDataChannel peerId }
  | .disconnectPeer peerId fits =>
    match s.manager.disconnectPeer peerId fits with
    | .ok manager => some { s with manager }
    | .error _ => some s
  | .cancelShutdownToken => some { s with manager := { s.manager with shutdownCancelled := true } }
  | .shutdown => some { s with manager := s.manager.shutdown }
  | .leaveLoop generation =>
    if s.tasks.any fun task => task.generation == generation && !task.exited then
      some { s with
        tasks := s.tasks.map fun task =>
          if task.generation = generation then { task with exited := true } else task }
    else none
  | .cleanup generation =>
    match s.tasks.find? fun task => task.generation == generation && task.exited with
    | some task =>
      some
        { manager := (s.manager.cleanup task.peerId).1
          tasks := s.tasks.filter fun task => task.generation != generation }
    | none => none

def MayTearDown (peerId : PeerId) (generation : Nat) : Action → Prop
  | .disconnectPeer peer _ => peer = peerId
  | .cancelShutdownToken | .shutdown => True
  | .cleanup g => g = generation
  | _ => False

/-- The entry is gone, or its token is cancelled that was not before. -/
def TornDown (peerId : PeerId) (generation : Nat) (s next : TransportManager) : Prop :=
  (∀ conn, next.connections.lookup peerId = some conn → conn.controlCancel ≠ generation) ∨
  (s.isCancelled (.control generation) = false ∧ next.isCancelled (.control generation) = true)

/-- The step tears down no connection but those it may. -/
def OwnTeardown (s : Transport) (a : Action) : Prop :=
  ∀ next, s.step a = some next → ∀ peerId conn, s.manager.connections.lookup peerId = some conn →
    TornDown peerId conn.controlCancel s.manager next.manager → MayTearDown peerId conn.controlCancel a

/-- A peer is registered again only after the read tasks of its earlier connections have finished. -/
def Finished (s : Transport) : Action → Prop
  | .register peerId _ _ => peerId ∈ s.manager.connections ∨ ∀ task ∈ s.tasks, task.peerId ≠ peerId
  | _ => True

instance (s : Transport) : (a : Action) → Decidable (s.Finished a)
  | .register .. => inferInstanceAs (Decidable (_ ∨ _))
  | .registerDataChannel _ | .disconnectPeer .. | .cancelShutdownToken | .shutdown | .leaveLoop _
  | .cleanup _ => .isTrue trivial

variable {s next : Transport}

/-- Generations are fresh and identify the peer, in the map and among the tasks. -/
structure Numbered (s : Transport) : Prop where
  fresh : ∀ peerId conn, s.manager.connections.lookup peerId = some conn →
    conn.controlCancel < s.manager.nextGeneration
  distinct : ∀ p q c d, s.manager.connections.lookup p = some c →
    s.manager.connections.lookup q = some d → c.controlCancel = d.controlCancel → p = q
  taskFresh : ∀ task ∈ s.tasks, task.generation < s.manager.nextGeneration
  taskPeer : ∀ t ∈ s.tasks, ∀ u ∈ s.tasks, t.generation = u.generation → t.peerId = u.peerId

def Matched (s : Transport) : Prop :=
  ∀ task ∈ s.tasks, ∀ conn, s.manager.connections.lookup task.peerId = some conn →
    conn.controlCancel = task.generation

/-- What a step other than a registration does: entries and tasks only go away. -/
structure Shrinks (s next : Transport) : Prop where
  entries : ∀ peerId conn, next.manager.connections.lookup peerId = some conn →
    ∃ old, s.manager.connections.lookup peerId = some old ∧ old.controlCancel = conn.controlCancel
  counter : s.manager.nextGeneration ≤ next.manager.nextGeneration
  tasks : ∀ task ∈ next.tasks, ∃ old ∈ s.tasks, old.peerId = task.peerId ∧
    old.generation = task.generation

/-- A registration adds one entry and one task of a fresh generation. -/
def Registers (s : Transport) (peerId : PeerId) (next : Transport) : Prop :=
  peerId ∉ s.manager.connections ∧ ∃ info,
    next = { manager := { s.manager with
               connections := s.manager.connections.insert peerId
                 { controlCancel := s.manager.nextGeneration, dataCancel := none, info }
               nextGeneration := s.manager.nextGeneration + 1 }
             tasks := s.tasks ++
               [{ peerId, generation := s.manager.nextGeneration, exited := false }] }

theorem Shrinks.of_tearDown (peerId : PeerId) {tasks : List ReadTask} (htasks : tasks ⊆ s.tasks) :
    Shrinks s { manager := s.manager.tearDown peerId, tasks } where
  entries _ conn h := ⟨conn, lookup_of_tearDown h, rfl⟩
  counter := Nat.le_of_eq tearDown_nextGeneration.symm
  tasks task h := ⟨task, htasks h, rfl, rfl⟩

theorem Shrinks.refl (s : Transport) : Shrinks s s where
  entries _ conn h := ⟨conn, h, rfl⟩
  counter := Nat.le_refl _
  tasks task h := ⟨task, h, rfl, rfl⟩

theorem step_registers_or_shrinks {a : Action} (hstep : s.step a = some next) :
    (∃ peerId peerAddr now, a = .register peerId peerAddr now ∧ Registers s peerId next) ∨
      Shrinks s next := by
  cases a with
  | register peerId peerAddr now =>
    rcases s.manager.registerConnection_cases peerId peerAddr now with
      ⟨_, heq⟩ | ⟨hnew, heq⟩
    · simp only [step, heq, Option.some.injEq] at hstep
      subst hstep
      exact .inr (Shrinks.refl s)
    · simp only [step, heq, Option.some.injEq] at hstep
      exact .inl ⟨peerId, peerAddr, now, rfl, hnew, _, hstep.symm⟩
  | registerDataChannel peerId =>
    simp only [step, Option.some.injEq] at hstep
    subst hstep
    refine .inr ⟨fun _ _ => lookup_of_registerDataChannel, ?_, fun task h => ⟨task, h, rfl, rfl⟩⟩
    simp [registerDataChannel_nextGeneration]
  | disconnectPeer peerId fits =>
    obtain ⟨e, heq⟩ | heq := s.manager.disconnectPeer_cases peerId fits
    · simp only [step, heq, Option.some.injEq] at hstep
      subst hstep
      exact .inr (Shrinks.refl s)
    · simp only [step, heq, Option.some.injEq] at hstep
      subst hstep
      exact .inr (Shrinks.of_tearDown peerId (List.Subset.refl _))
  | cancelShutdownToken =>
    simp only [step, Option.some.injEq] at hstep
    subst hstep
    exact .inr ⟨fun _ conn h => ⟨conn, h, rfl⟩, Nat.le_refl _, fun task h => ⟨task, h, rfl, rfl⟩⟩
  | shutdown =>
    simp only [step, Option.some.injEq] at hstep
    subst hstep
    refine .inr ⟨?_, Nat.le_refl _, fun task h => ⟨task, h, rfl, rfl⟩⟩
    simp [TransportManager.shutdown]
  | leaveLoop generation =>
    simp only [step, Option.ite_none_right_eq_some, Option.some.injEq] at hstep
    obtain ⟨_, rfl⟩ := hstep
    refine .inr ⟨fun _ conn h => ⟨conn, h, rfl⟩, Nat.le_refl _, ?_⟩
    intro task htask
    obtain ⟨old, hold, rfl⟩ := List.mem_map.mp htask
    refine ⟨old, hold, ?_⟩
    split <;> exact ⟨rfl, rfl⟩
  | cleanup generation =>
    simp only [step] at hstep
    split at hstep
    · obtain rfl := Option.some.inj hstep
      rw [cleanup_fst]
      exact .inr (Shrinks.of_tearDown _ (List.filter_subset_self _))
    · exact absurd hstep nofun

theorem Numbered.registers (h : Numbered s) {peerId : PeerId} (hnext : Registers s peerId next) :
    Numbered next := by
  obtain ⟨_, info, rfl⟩ := hnext
  refine ⟨?_, ?_, ?_, ?_⟩
  · intro peer conn hconn
    obtain ⟨_, rfl⟩ | ⟨_, hold⟩ := Assoc.lookup_insert_cases hconn
    · exact Nat.lt_succ_self _
    · exact Nat.lt_succ_of_lt (h.fresh peer conn hold)
  · intro p q c d hc hd hgen
    obtain ⟨rfl, rfl⟩ | ⟨_, hcold⟩ := Assoc.lookup_insert_cases hc
    · obtain ⟨rfl, _⟩ | ⟨_, hdold⟩ := Assoc.lookup_insert_cases hd
      · rfl
      · exact absurd (h.fresh q d hdold) (Nat.not_lt.mpr (Nat.le_of_eq hgen))
    · obtain ⟨rfl, rfl⟩ | ⟨_, hdold⟩ := Assoc.lookup_insert_cases hd
      · exact absurd (h.fresh p c hcold) (Nat.not_lt.mpr (Nat.le_of_eq hgen.symm))
      · exact h.distinct p q c d hcold hdold hgen
  · intro task htask
    cases List.mem_append.mp htask with
    | inl hold => exact Nat.lt_succ_of_lt (h.taskFresh task hold)
    | inr hnewTask =>
      obtain rfl := List.mem_singleton.mp hnewTask
      exact Nat.lt_succ_self _
  · intro t ht u hu hgen
    cases List.mem_append.mp ht with
    | inl htold =>
      cases List.mem_append.mp hu with
      | inl huold => exact h.taskPeer t htold u huold hgen
      | inr hunew =>
        have hlt := h.taskFresh t htold
        rw [hgen, List.mem_singleton.mp hunew] at hlt
        exact absurd hlt (Nat.lt_irrefl _)
    | inr htnew =>
      cases List.mem_append.mp hu with
      | inl huold =>
        have hlt := h.taskFresh u huold
        rw [← hgen, List.mem_singleton.mp htnew] at hlt
        exact absurd hlt (Nat.lt_irrefl _)
      | inr hunew => rw [List.mem_singleton.mp htnew, List.mem_singleton.mp hunew]

theorem Numbered.shrinks (h : Numbered s) (hshrinks : Shrinks s next) : Numbered next := by
  refine ⟨?_, ?_, ?_, ?_⟩
  · intro peer conn hconn
    obtain ⟨old, hold, hgen⟩ := hshrinks.entries peer conn hconn
    have := h.fresh peer old hold
    have := hshrinks.counter
    omega
  · intro p q c d hc hd hgen
    obtain ⟨c', hc', hcgen⟩ := hshrinks.entries p c hc
    obtain ⟨d', hd', hdgen⟩ := hshrinks.entries q d hd
    exact h.distinct p q c' d' hc' hd' (by omega)
  · intro task htask
    obtain ⟨old, hold, _, hgen⟩ := hshrinks.tasks task htask
    have := h.taskFresh old hold
    have := hshrinks.counter
    omega
  · intro t ht u hu hgen
    obtain ⟨t', ht', htpeer, htgen⟩ := hshrinks.tasks t ht
    obtain ⟨u', hu', hupeer, hugen⟩ := hshrinks.tasks u hu
    rw [← htpeer, ← hupeer]
    exact h.taskPeer t' ht' u' hu' (by omega)

theorem Numbered.step (h : Numbered s) {a : Action} (hstep : s.step a = some next) : Numbered next := by
  obtain ⟨peerId, _, _, _, hregisters⟩ | hshrinks := step_registers_or_shrinks hstep
  · exact h.registers hregisters
  · exact h.shrinks hshrinks

theorem Matched.step (h : Matched s) {a : Action} (ha : s.Finished a) (hstep : s.step a = some next) :
    Matched next := by
  obtain ⟨peerId, _, _, rfl, hnew, info, rfl⟩ | hshrinks := step_registers_or_shrinks hstep
  · have hfinished : ∀ task ∈ s.tasks, task.peerId ≠ peerId := ha.resolve_left hnew
    intro task htask conn hconn
    cases List.mem_append.mp htask with
    | inl hold =>
      rw [AList.lookup_insert_ne (hfinished task hold)] at hconn
      exact h task hold conn hconn
    | inr hnewTask =>
      obtain rfl := List.mem_singleton.mp hnewTask
      rw [AList.lookup_insert] at hconn
      obtain rfl := Option.some.inj hconn
      rfl
  · intro task htask conn hconn
    obtain ⟨old, hold, hpeer, hgen⟩ := hshrinks.tasks task htask
    obtain ⟨conn', hconn', hcancel⟩ := hshrinks.entries task.peerId conn hconn
    rw [← hcancel, ← hgen]
    exact h old hold conn' (hpeer ▸ hconn')

theorem not_tornDown {peerId : PeerId} {conn conn' : PeerConnection} {m m' : TransportManager}
    (hentry : m'.connections.lookup peerId = some conn')
    (hgen : conn'.controlCancel = conn.controlCancel)
    (hcancel : m'.isCancelled (.control conn.controlCancel) = true →
      m.isCancelled (.control conn.controlCancel) = true) :
    ¬ TornDown peerId conn.controlCancel m m' := by
  rintro (hgone | ⟨hbefore, hafter⟩)
  · exact hgone conn' hentry hgen
  · simp [hcancel hafter] at hbefore

theorem eq_of_tornDown_tearDown (h : Numbered s) {peerId peer : PeerId} {conn : PeerConnection}
    (hentry : s.manager.connections.lookup peer = some conn)
    (htorn : TornDown peer conn.controlCancel s.manager (s.manager.tearDown peerId)) :
    peer = peerId := by
  by_contra hne
  have hkept : (s.manager.tearDown peerId).connections.lookup peer = some conn := by
    rw [lookup_tearDown_of_ne hne, hentry]
  refine not_tornDown hkept rfl ?_ htorn
  intro hcancelled
  obtain hold | ⟨other, hother, hgen⟩ := isCancelled_of_tearDown hcancelled
  · exact hold
  · exact absurd (h.distinct peer peerId conn other hentry hother hgen.symm) hne

theorem ownTeardown (h : Numbered s) (hmatched : Matched s) (a : Action) : s.OwnTeardown a := by
  intro next hstep peer conn hentry htorn
  cases a with
  | register peerId peerAddr now =>
    rcases s.manager.registerConnection_cases peerId peerAddr now with
      ⟨_, heq⟩ | ⟨hnew, heq⟩
    · simp only [step, heq, Option.some.injEq] at hstep
      subst hstep
      exact not_tornDown hentry rfl id htorn
    · simp only [step, heq, Option.some.injEq] at hstep
      subst hstep
      have hne : peer ≠ peerId := by
        rintro rfl
        exact hnew (Assoc.mem_of_lookup hentry)
      exact not_tornDown ((AList.lookup_insert_ne hne).trans hentry) rfl id htorn
  | registerDataChannel peerId =>
    simp only [step, Option.some.injEq] at hstep
    subst hstep
    have hmap := s.manager.registerDataChannel_lookup peerId peer
    simp only [hentry, Option.map_some, Option.map_eq_some_iff] at hmap
    obtain ⟨conn', hentry', hgen⟩ := hmap
    refine not_tornDown hentry' hgen ?_ htorn
    rw [registerDataChannel_isCancelled]
    exact id
  | disconnectPeer peerId fits =>
    obtain ⟨e, heq⟩ | heq := s.manager.disconnectPeer_cases peerId fits
    · simp only [step, heq, Option.some.injEq] at hstep
      subst hstep
      exact absurd htorn (not_tornDown hentry rfl id)
    · simp only [step, heq, Option.some.injEq] at hstep
      subst hstep
      exact (eq_of_tornDown_tearDown h hentry htorn).symm
  | cancelShutdownToken => trivial
  | shutdown => trivial
  | leaveLoop generation =>
    simp only [step, Option.ite_none_right_eq_some, Option.some.injEq] at hstep
    obtain ⟨_, rfl⟩ := hstep
    exact not_tornDown hentry rfl id htorn
  | cleanup generation =>
    simp only [step] at hstep
    split at hstep
    · rename_i task hfind
      obtain rfl := Option.some.inj hstep
      rw [cleanup_fst] at htorn
      obtain rfl := eq_of_tornDown_tearDown h hentry htorn
      obtain ⟨hmem, hgen⟩ := ReadTask.of_find hfind
      rw [MayTearDown, ← hgen]
      exact (hmatched task hmem conn hentry).symm
    · exact absurd hstep nofun

theorem numbered_start (manager : TransportManager) (hempty : manager.connections = ∅) :
    Numbered (start manager) := by
  constructor <;> simp [start, hempty]

theorem numbered_run {manager : TransportManager} (hempty : manager.connections = ∅)
    {acts : List Action} (hrun : run step (start manager) acts = some s) : Numbered s :=
  invariant (P := fun _ _ => True) (fun _ _ _ h _ hstep => h.step hstep)
    (numbered_start manager hempty) (along_of_forall (fun _ _ => trivial) _ acts) hrun

theorem matched_run {manager : TransportManager} {acts : List Action}
    (hfinished : Along step Finished (start manager) acts)
    (hrun : run step (start manager) acts = some s) : Matched s :=
  invariant (fun _ _ _ h ha hstep => h.step ha hstep) (by simp [Matched, start]) hfinished hrun

/-- A read task that takes the lock after its peer was registered again removes the new entry. -/
theorem not_ownTeardown_cleanup (h : Numbered s) {task : ReadTask} (htask : task ∈ s.tasks)
    (hexited : task.exited = true) {conn : PeerConnection}
    (hentry : s.manager.connections.lookup task.peerId = some conn)
    (hlater : task.generation ≠ conn.controlCancel) : ¬ s.OwnTeardown (.cleanup task.generation) := by
  intro hown
  obtain ⟨found, hfind⟩ : ∃ found, s.tasks.find? (fun t => t.generation == task.generation && t.exited) =
      some found := by
    cases hfind : s.tasks.find? fun t => t.generation == task.generation && t.exited with
    | some found => exact ⟨found, rfl⟩
    | none => exact absurd (List.find?_eq_none.mp hfind task htask) (by simp [hexited])
  have hpeer : found.peerId = task.peerId := by
    obtain ⟨hmem, hgen⟩ := ReadTask.of_find hfind
    exact h.taskPeer found hmem task htask hgen
  refine hlater (hown _ (by simp only [step, hfind]; rfl) task.peerId conn hentry (.inl ?_))
  intro conn' hconn'
  rw [cleanup_fst, hpeer, lookup_tearDown_self] at hconn'
  exact absurd hconn' nofun

theorem exists_foreign_teardown (h : Numbered s) {a : Action} (ha : ¬ s.Finished a) :
    ∃ more, ¬ Along step OwnTeardown s (a :: more) := by
  cases a with
  | register peerId peerAddr now =>
    simp only [Finished, not_or, not_forall, not_not] at ha
    obtain ⟨hnew, task, htask, hpeer⟩ := ha
    obtain ⟨s₁, hs₁, hentry, htasks⟩ : ∃ s₁, s.step (.register peerId peerAddr now) = some s₁ ∧
        (∃ conn, s₁.manager.connections.lookup peerId = some conn ∧
          conn.controlCancel = s.manager.nextGeneration) ∧ s.tasks ⊆ s₁.tasks := by
      rcases s.manager.registerConnection_cases peerId peerAddr now with
        ⟨hmem, _⟩ | ⟨_, heq⟩
      · exact absurd hmem hnew
      · refine ⟨_, by simp only [step, heq]; rfl, ⟨_, AList.lookup_insert _, rfl⟩, ?_⟩
        exact List.subset_append_left ..
    obtain ⟨conn, hconn, hgen⟩ := hentry
    have hlater : task.generation ≠ conn.controlCancel := by
      have := h.taskFresh task htask
      omega
    have hnumbered := h.step hs₁
    cases hexited : task.exited with
    | true =>
      refine ⟨[.cleanup task.generation], fun halong => ?_⟩
      exact not_ownTeardown_cleanup hnumbered (htasks htask) hexited (hpeer ▸ hconn) hlater
        (halong.2 s₁ hs₁).1
    | false =>
      have hs₂ : s₁.step (.leaveLoop task.generation) = some { s₁ with
          tasks := s₁.tasks.map fun t =>
            if t.generation = task.generation then { t with exited := true } else t } := by
        refine if_pos (List.any_eq_true.mpr ⟨task, htasks htask, by simp [hexited]⟩)
      refine ⟨[.leaveLoop task.generation, .cleanup task.generation], fun halong => ?_⟩
      have htask₂ : { task with exited := true } ∈ s₁.tasks.map fun t =>
          if t.generation = task.generation then { t with exited := true } else t :=
        List.mem_map.mpr ⟨task, htasks htask, if_pos rfl⟩
      exact not_ownTeardown_cleanup (hnumbered.step hs₂) htask₂ rfl (hpeer ▸ hconn) hlater
        ((halong.2 s₁ hs₁).2 _ hs₂).1
  | registerDataChannel | disconnectPeer | cancelShutdownToken | shutdown | leaveLoop | cleanup =>
    exact absurd trivial ha

/-- A connection is torn down by its own tasks in every run that registers a peer only after the
read tasks of its earlier connections have finished; any other registration can go wrong. -/
theorem ownTeardown_iff_finished (localPeerId : PeerId) (sessionId : String) (listenPort : UInt16)
    (autoReconnect : Bool) (acts : List Action) :
    (Along step Finished (start (.new localPeerId sessionId listenPort autoReconnect)) acts →
      Along step OwnTeardown (start (.new localPeerId sessionId listenPort autoReconnect)) acts) ∧
    ∀ s a, run step (start (.new localPeerId sessionId listenPort autoReconnect)) acts = some s →
      ¬ s.Finished a → ∃ more, ¬ Along step OwnTeardown s (a :: more) := by
  constructor
  · intro hfinished
    by_contra hnot
    obtain ⟨front, a, back, s, rfl, hfront, _, ha⟩ := exists_first_failure hnot
    exact ha (ownTeardown (numbered_run rfl hfront)
      (matched_run (along_append_iff.mp hfinished).1 hfront) a)
  · intro s a hrun ha
    exact exists_foreign_teardown (numbered_run rfl hrun) ha

def emptyTransport : Transport := start (.new ⟨"a"⟩ "session" 4000 true)

/-- Peer `b` is disconnected and registered again once its first read task has finished. -/
def orderlyReconnect : List Action :=
  [.register ⟨"b"⟩ "10.0.0.2:4000" 0, .disconnectPeer ⟨"b"⟩ true, .leaveLoop 0, .cleanup 0,
    .register ⟨"b"⟩ "10.0.0.2:4000" 5]

theorem ownTeardown_of_orderly_reconnect :
    Along step Finished emptyTransport orderlyReconnect ∧
      Along step OwnTeardown emptyTransport orderlyReconnect :=
  ⟨by decide, (ownTeardown_iff_finished ⟨"a"⟩ "session" 4000 true orderlyReconnect).1 (by decide)⟩

theorem late_cleanup_removes_new_connection :
    ∃ s, run step emptyTransport [.register ⟨"b"⟩ "10.0.0.2:4000" 0, .disconnectPeer ⟨"b"⟩ true,
        .register ⟨"b"⟩ "10.0.0.2:4000" 5, .leaveLoop 0] = some s ∧
      (s.manager.connections.lookup ⟨"b"⟩).map (·.controlCancel) = some 1 ∧
      s.manager.isCancelled (.control 1) = false ∧
      ∃ next, s.step (.cleanup 0) = some next ∧ next.manager.connections.lookup ⟨"b"⟩ = none ∧
        next.manager.isCancelled (.control 1) = true :=
  ⟨_, rfl, by decide, by decide, _, rfl, by decide, by decide⟩

end Transport

end MetaMystia

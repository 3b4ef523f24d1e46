import MetaMystia.Library.Runs
import MetaMystia.Library.Slots
import MetaMystia.Messaging

/-! # The incoming queue

The read tasks of all channels send into one bounded queue, and so does the task
that has completed a handshake, once, to announce the peer. The message handler
takes one packet at a time and waits for nothing else. A task that finds the queue
full waits for room; only the read task of a data channel gives up after a while.
-/

namespace MetaMystia

open Runs

inductive SenderKind
  | handshake
  | control
  | data
deriving DecidableEq, Repr

/-- `ended` with the packet that the task still had in hand. -/
inductive SenderPhase
  | reading
  | sending (packet : RawPacket)
  | ended (lost : Option RawPacket)
deriving DecidableEq

/-- A task with a handle of `incoming_tx`. `taken` records what it took from its socket. -/
structure QueueSender where
  peerId : PeerId
  kind : SenderKind
  phase : SenderPhase
  taken : List RawPacket
deriving DecidableEq

/-- An element of the queue is a peer id and a packet; `sender` records the task it came from. -/
structure QueueItem where
  sender : Nat
  peerId : PeerId
  packet : RawPacket
deriving DecidableEq

/-- `handled` records the calls of `handle_message`, `dropped` what the queue held when the message
handler ended. -/
structure IncomingQueue where
  senders : List QueueSender
  queue : List QueueItem
  handled : List QueueItem
  dropped : List QueueItem
  handling : Bool
  shutdownCancelled : Bool
deriving DecidableEq

namespace QueueSender

def inHand (self : QueueSender) : List RawPacket :=
  match self.phase with
  | .reading => []
  | .sending packet => [packet]
  | .ended lost => lost.toList

def isSending (self : QueueSender) : Bool :=
  match self.phase with
  | .sending _ => true
  | _ => false

/-- After its packet is queued a read task goes on reading; the announcing task is done. -/
def sent (self : QueueSender) : QueueSender :=
  { self with phase := if self.kind = .handshake then .ended none else .reading }

@[simp] theorem sent_taken (self : QueueSender) : self.sent.taken = self.taken := rfl

@[simp] theorem inHand_sent (self : QueueSender) : self.sent.inHand = [] := by
  by_cases hkind : self.kind = .handshake <;> simp [sent, inHand, hkind]

@[simp] theorem isSending_sent (self : QueueSender) : self.sent.isSending = false := by
  by_cases hkind : self.kind = .handshake <;> simp [sent, isSending, hkind]

theorem isSending_iff {self : QueueSender} :
    self.isSending = true ↔ ∃ packet, self.phase = .sending packet := by
  cases hphase : self.phase <;> simp [isSending, hphase]

end QueueSender

namespace IncomingQueue

inductive Action
  | registerConnection (peerId : PeerId) (notifyPacket : RawPacket)
  | registerDataChannel (peerId : PeerId)
  | read (sender : Nat) (packet : RawPacket)
  | send (sender : Nat)
  | giveUp (sender : Nat)
  | leaveLoop (sender : Nat)
  | handleMessage
  | cancelShutdownToken
  | stopHandler

def start : IncomingQueue := ⟨[], [], [], [], true, false⟩

def setSender (self : IncomingQueue) (i : Nat) (sender : QueueSender) : IncomingQueue :=
  { self with senders := self.senders.set i sender }

/-- The task stops waiting for room: the receiver is gone, the wait of a data channel has timed out,
or the shutdown token has cancelled the reconnect attempt that the handshake was made in. -/
def mayGiveUp (self : IncomingQueue) (sender : QueueSender) : Bool :=
  match sender.kind with
  | .handshake => self.shutdownCancelled || !self.handling
  | .control => !self.handling
  | .data => true

def step (capacity : Nat) (s : IncomingQueue) : Action → Option IncomingQueue
  | .registerConnection peerId notifyPacket =>
    some { s with senders := s.senders ++ [⟨peerId, .control, .reading, []⟩] ++
             [⟨peerId, .handshake, .sending notifyPacket, [notifyPacket]⟩] }
  | .registerDataChannel peerId =>
    some { s with senders := s.senders ++ [⟨peerId, .data, .reading, []⟩] }
  | .read i packet =>
    match s.senders[i]? with
    | some ⟨peerId, kind, .reading, taken⟩ =>
      some (s.setSender i ⟨peerId, kind, .sending packet, taken ++ [packet]⟩)
    | _ => none
  | .send i =>
    match s.senders[i]? with
    | some sender =>
      match sender.phase with
      | .sending packet =>
        if s.handling ∧ s.queue.length < capacity then
          some { s.setSender i sender.sent with
            queue := s.queue ++ [⟨i, sender.peerId, packet⟩] }
        else none
      | _ => none
    | none => none
  | .giveUp i =>
    match s.senders[i]? with
    | some sender =>
      match sender.phase with
      | .sending packet =>
        if s.mayGiveUp sender then
          some (s.setSender i { sender with phase := .ended (some packet) })
        else none
      | _ => none
    | none => none
  | .leaveLoop i =>
    match s.senders[i]? with
    | some sender =>
      if sender.phase = .reading then some (s.setSender i { sender with phase := .ended none })
      else none
    | none => none
  | .handleMessage =>
    match s.handling, s.queue with
    | true, item :: rest => some { s with queue := rest, handled := s.handled ++ [item] }
    | _, _ => none
  | .cancelShutdownToken => some { s with shutdownCancelled := true }
  | .stopHandler =>
    if s.handling ∧ s.shutdownCancelled then
      some { s with queue := [], dropped := s.queue, handling := false }
    else none

def packetsOf (i : Nat) (items : List QueueItem) : List RawPacket :=
  (items.filter fun item => item.sender == i).map QueueItem.packet

/-- Everything that was ever queued, the oldest first. -/
def queued (self : IncomingQueue) : List QueueItem := self.handled ++ self.dropped ++ self.queue

/-- The packets of each task stay in the order it took them, under its own peer id, and none is
missing but the one it has in hand. Before the shutdown only a data channel ends with one. -/
structure Accounted (capacity : Nat) (s : IncomingQueue) : Prop where
  bounded : s.queue.length ≤ capacity
  labelled : ∀ item ∈ s.queued, ∃ sender, s.senders[item.sender]? = some sender ∧
    sender.peerId = item.peerId
  inOrder : ∀ i sender, s.senders[i]? = some sender →
    sender.taken = packetsOf i s.queued ++ sender.inHand
  running : s.shutdownCancelled = false → s.handling = true
  nothingDropped : s.handling = true → s.dropped = []
  lossless : s.shutdownCancelled = false → ∀ (i : Nat) (sender : QueueSender) (packet : RawPacket),
    s.senders[i]? = some sender → sender.phase = .ended (some packet) → sender.kind = .data

variable {capacity : Nat} {s t : IncomingQueue}

@[simp] theorem packetsOf_append (i : Nat) (front back : List QueueItem) :
    packetsOf i (front ++ back) = packetsOf i front ++ packetsOf i back := by
  simp [packetsOf]

theorem packetsOf_singleton (i : Nat) (item : QueueItem) :
    packetsOf i [item] = if item.sender = i then [item.packet] else [] := by
  by_cases h : item.sender = i <;> simp [packetsOf, h]

/-- No task has a number that is not yet given out. -/
theorem Accounted.packetsOf_fresh (hs : Accounted capacity s) {i : Nat}
    (hi : s.senders.length ≤ i) : packetsOf i s.queued = [] := by
  simp only [packetsOf, List.map_eq_nil_iff, List.filter_eq_nil_iff, beq_iff_eq]
  rintro item hitem rfl
  obtain ⟨sender, hsender, _⟩ := hs.labelled item hitem
  have hlt := (List.getElem?_eq_some_iff.mp hsender).1
  omega

theorem accounted_start : Accounted capacity start := by
  constructor
  · exact Nat.zero_le _
  · intro item hitem
    simp [start, queued] at hitem
  · intro i sender hsender
    simp [start] at hsender
  · exact fun _ => rfl
  · exact fun _ => rfl
  · intro _ i sender packet hsender
    simp [start] at hsender

theorem Accounted.add (hs : Accounted capacity s) (sender : QueueSender)
    (htaken : sender.taken = sender.inHand) (hrunning : ∀ lost, sender.phase ≠ .ended lost) :
    Accounted capacity { s with senders := s.senders ++ [sender] } := by
  constructor
  · exact hs.bounded
  · intro item hitem
    obtain ⟨old, hold, hpeer⟩ := hs.labelled item hitem
    exact ⟨old, Slots.getElem?_concat_of_some hold, hpeer⟩
  · apply Slots.forall_concat
    · have hfresh : packetsOf s.senders.length s.queued = [] := hs.packetsOf_fresh (Nat.le_refl _)
      change sender.taken = packetsOf s.senders.length s.queued ++ sender.inHand
      rw [hfresh, List.nil_append, htaken]
    · exact hs.inOrder
  · exact hs.running
  · exact hs.nothingDropped
  · intro hshutdown i old packet hold hended
    cases Slots.getElem?_concat_cases hold with
    | inl hold => exact hs.lossless hshutdown i old packet hold hended
    | inr hnew =>
      obtain ⟨-, rfl⟩ := hnew
      exact absurd hended (hrunning _)

/-- A write to the slot of a task that keeps its peer id, with `new` items queued. -/
theorem Accounted.update (hs : Accounted capacity s) {i : Nat} {old sender : QueueSender}
    (hold : s.senders[i]? = some old) (hpeer : sender.peerId = old.peerId)
    {new : List QueueItem} (hlength : (s.queue ++ new).length ≤ capacity)
    (hnew : ∀ item ∈ new, item.sender = i ∧ item.peerId = old.peerId)
    (htaken : sender.taken = packetsOf i s.queued ++ packetsOf i new ++ sender.inHand)
    (hlossless : s.shutdownCancelled = false → ∀ packet, sender.phase = .ended (some packet) →
      sender.kind = .data) :
    Accounted capacity { s.setSender i sender with queue := s.queue ++ new } := by
  have hi := (List.getElem?_eq_some_iff.mp hold).1
  have hqueued : queued { s.setSender i sender with queue := s.queue ++ new } = s.queued ++ new := by
    simp [queued, setSender]
  have hslot : ∀ (j : Nat) (other : QueueSender), s.senders[j]? = some other →
      ∃ now : QueueSender, (s.senders.set i sender)[j]? = some now ∧ now.peerId = other.peerId := by
    intro j other hother
    rw [List.getElem?_set]
    by_cases hij : i = j
    · subst hij
      obtain rfl : old = other := Option.some.inj (hold.symm.trans hother)
      exact ⟨sender, by simp [hi], hpeer⟩
    · exact ⟨other, by simpa [hij] using hother, rfl⟩
  constructor
  · exact hlength
  · intro item hitem
    rw [hqueued] at hitem
    obtain hbefore | hadded := List.mem_append.mp hitem
    · obtain ⟨other, hother, hlabel⟩ := hs.labelled item hbefore
      obtain ⟨now, hnow, hsame⟩ := hslot _ _ hother
      exact ⟨now, hnow, hsame.trans hlabel⟩
    · obtain ⟨rfl, hlabel⟩ := hnew item hadded
      obtain ⟨now, hnow, hsame⟩ := hslot _ _ hold
      exact ⟨now, hnow, hsame.trans hlabel.symm⟩
  · rw [hqueued]
    refine Slots.forall_set ?_ ?_
    · simpa using htaken
    · intro j other hji hother
      have hothers : packetsOf j new = [] := by
        simp only [packetsOf, List.map_eq_nil_iff, List.filter_eq_nil_iff, beq_iff_eq]
        intro item hitem hsender
        exact hji (hsender.symm.trans (hnew item hitem).1)
      rw [packetsOf_append, hothers, List.append_nil]
      exact hs.inOrder j other hother
  · exact hs.running
  · exact hs.nothingDropped
  · intro hshutdown j other packet hother hended
    obtain ⟨-, rfl⟩ | ⟨-, hbefore⟩ : (i = j ∧ sender = other) ∨ (i ≠ j ∧ s.senders[j]? = some other) := by
      simp only [setSender, List.getElem?_set, hi, if_true] at hother
      split at hother
      · next hij => exact .inl ⟨hij, Option.some.inj hother⟩
      · next hij => exact .inr ⟨hij, hother⟩
    · exact hlossless hshutdown packet hended
    · exact hs.lossless hshutdown j other packet hbefore hended

/-- A write to the slot of a task that queues nothing. -/
theorem Accounted.set (hs : Accounted capacity s) {i : Nat} {old sender : QueueSender}
    (hold : s.senders[i]? = some old) (hpeer : sender.peerId = old.peerId)
    (htaken : sender.taken = packetsOf i s.queued ++ sender.inHand)
    (hlossless : s.shutdownCancelled = false → ∀ packet, sender.phase = .ended (some packet) →
      sender.kind = .data) :
    Accounted capacity (s.setSender i sender) := by
  have hsame : { s.setSender i sender with queue := s.queue ++ [] } = s.setSender i sender := by
    simp [setSender]
  rw [← hsame]
  apply hs.update hold hpeer
  · simpa using hs.bounded
  · simp
  · simpa [packetsOf] using htaken
  · exact hlossless

theorem step_registerConnection {peerId : PeerId} {notifyPacket : RawPacket}
    (hs : Accounted capacity s) (h : step capacity s (.registerConnection peerId notifyPacket) = some t) :
    Accounted capacity t := by
  cases h
  have hcontrol := hs.add ⟨peerId, .control, .reading, []⟩ rfl (by simp)
  exact hcontrol.add ⟨peerId, .handshake, .sending notifyPacket, [notifyPacket]⟩ rfl (by simp)

/-- What a step of a task does: it takes a packet, queues the one in hand or ends. -/
theorem task_cases {a : Action} (h : step capacity s a = some t) :
    (∃ peerId notifyPacket, a = .registerConnection peerId notifyPacket) ∨
    (∃ peerId, a = .registerDataChannel peerId) ∨
    (∃ i sender packet, a = .read i packet ∧ s.senders[i]? = some sender ∧ sender.phase = .reading ∧
      t = s.setSender i
        { sender with phase := .sending packet, taken := sender.taken ++ [packet] }) ∨
    (∃ i sender packet, a = .send i ∧ s.senders[i]? = some sender ∧
      sender.phase = .sending packet ∧ s.handling = true ∧ s.queue.length < capacity ∧
      t = { s.setSender i sender.sent with queue := s.queue ++ [⟨i, sender.peerId, packet⟩] }) ∨
    (∃ i sender packet, a = .giveUp i ∧ s.senders[i]? = some sender ∧
      sender.phase = .sending packet ∧ s.mayGiveUp sender = true ∧
      t = s.setSender i { sender with phase := .ended (some packet) }) ∨
    (∃ i sender, a = .leaveLoop i ∧ s.senders[i]? = some sender ∧ sender.phase = .reading ∧
      t = s.setSender i { sender with phase := .ended none }) ∨
    (∃ item rest, a = .handleMessage ∧ s.handling = true ∧ s.queue = item :: rest ∧
      t = { s with queue := rest, handled := s.handled ++ [item] }) ∨
    (a = .cancelShutdownToken ∧ t = { s with shutdownCancelled := true }) ∨
    (a = .stopHandler ∧ s.handling = true ∧ s.shutdownCancelled = true ∧
      t = { s with queue := [], dropped := s.queue, handling := false }) := by
  cases a with
  | registerConnection peerId notifyPacket => exact .inl ⟨_, _, rfl⟩
  | registerDataChannel peerId => exact .inr (.inl ⟨_, rfl⟩)
  | read i packet =>
    simp only [step] at h
    split at h
    · next peerId kind taken hsender =>
      cases h
      exact .inr (.inr (.inl ⟨i, _, packet, rfl, hsender, rfl, rfl⟩))
    · cases h
  | send i =>
    simp only [step] at h
    split at h
    · next sender hsender =>
      split at h
      · next packet hphase =>
        split at h
        · next hroom =>
          cases h
          exact .inr (.inr (.inr (.inl ⟨i, sender, packet, rfl, hsender, hphase, hroom.1, hroom.2, rfl⟩)))
        · cases h
      · cases h
    · cases h
  | giveUp i =>
    simp only [step] at h
    split at h
    · next sender hsender =>
      split at h
      · next packet hphase =>
        split at h
        · next hmay =>
          cases h
          exact .inr (.inr (.inr (.inr (.inl ⟨i, sender, packet, rfl, hsender, hphase, hmay, rfl⟩))))
        · cases h
      · cases h
    · cases h
  | leaveLoop i =>
    simp only [step] at h
    split at h
    · next sender hsender =>
      split at h
      · next hphase =>
        cases h
        exact .inr (.inr (.inr (.inr (.inr (.inl ⟨i, sender, rfl, hsender, hphase, rfl⟩)))))
      · cases h
    · cases h
  | handleMessage =>
    simp only [step] at h
    split at h
    · next item rest hhandling hqueue =>
      cases h
      exact .inr (.inr (.inr (.inr (.inr (.inr (.inl ⟨item, rest, rfl, hhandling, hqueue, rfl⟩))))))
    · cases h
  | cancelShutdownToken =>
    cases h
    exact .inr (.inr (.inr (.inr (.inr (.inr (.inr (.inl ⟨rfl, rfl⟩)))))))
  | stopHandler =>
    simp only [step] at h
    split at h
    · next hstop =>
      cases h
      exact .inr (.inr (.inr (.inr (.inr (.inr (.inr (.inr ⟨rfl, hstop.1, hstop.2, rfl⟩)))))))
    · cases h

theorem step_accounted {a : Action} (hs : Accounted capacity s) (h : step capacity s a = some t) :
    Accounted capacity t := by
  obtain ⟨peerId, notifyPacket, rfl⟩ | ⟨peerId, rfl⟩ | ⟨i, sender, packet, rfl, hsender, hphase, rfl⟩ |
    ⟨i, sender, packet, rfl, hsender, hphase, _, hroom, rfl⟩ |
    ⟨i, sender, packet, rfl, hsender, hphase, hmay, rfl⟩ | ⟨i, sender, rfl, hsender, hphase, rfl⟩ |
    ⟨item, rest, rfl, hhandling, hqueue, rfl⟩ | ⟨rfl, rfl⟩ | ⟨rfl, hhandling, hshutdown, rfl⟩ := task_cases h
  · exact step_registerConnection hs h
  · cases h
    exact hs.add ⟨peerId, .data, .reading, []⟩ rfl (by simp)
  · have htaken := hs.inOrder i sender hsender
    apply hs.set hsender
    · rfl
    · simp only [QueueSender.inHand, hphase, List.append_nil] at htaken ⊢
      rw [htaken]
    · simp
  · have htaken := hs.inOrder i sender hsender
    apply hs.update hsender
    · rfl
    · simp only [List.length_append, List.length_singleton]
      omega
    · simp
    · rw [QueueSender.inHand_sent, packetsOf_singleton, if_pos rfl, List.append_nil]
      simpa [QueueSender.inHand, hphase] using htaken
    · intro _ packet hended
      simp only [QueueSender.sent] at hended
      split at hended <;> cases hended
  · have htaken := hs.inOrder i sender hsender
    apply hs.set hsender
    · rfl
    · simpa [QueueSender.inHand, hphase] using htaken
    · intro hshutdown _ _
      have hhandling := hs.running hshutdown
      cases hkind : sender.kind <;> simp_all [mayGiveUp]
  · have htaken := hs.inOrder i sender hsender
    apply hs.set hsender
    · rfl
    · simpa [QueueSender.inHand, hphase] using htaken
    · simp
  · have hsame : queued { s with queue := rest, handled := s.handled ++ [item] } = s.queued := by
      simp [queued, hqueue, hs.nothingDropped hhandling]
    have hbounded := hs.bounded
    constructor
    · rw [hqueue] at hbounded
      exact Nat.le_of_succ_le hbounded
    · rw [hsame]
      exact hs.labelled
    · rw [hsame]
      exact hs.inOrder
    · exact hs.running
    · exact hs.nothingDropped
    · exact hs.lossless
  · exact ⟨hs.bounded, hs.labelled, hs.inOrder, by simp, hs.nothingDropped, by simp⟩
  · have hsame : queued { s with queue := [], dropped := s.queue, handling := false } = s.queued := by
      simp [queued, hs.nothingDropped hhandling]
    constructor
    · exact Nat.zero_le _
    · rw [hsame]
      exact hs.labelled
    · rw [hsame]
      exact hs.inOrder
    · simp [hshutdown]
    · simp
    · simp [hshutdown]

/-- The message handler gets the packets of each channel in their order and under the peer id of the
channel; until the shutdown none goes missing but one that a data channel gives up at its end. -/
theorem accounted {acts : List Action} (hrun : run (step capacity) start acts = some s) :
    Accounted capacity s :=
  invariant (P := fun _ _ => True) (fun _ _ _ hs _ => step_accounted hs) accounted_start
    (along_of_forall (fun _ _ => trivial) start acts) hrun

/-- Peer `p` connects and opens a data channel, whose first packet finds no room. -/
def crowded : List Action :=
  [.registerConnection ⟨"p"⟩ ⟨2, 0, []⟩, .registerDataChannel ⟨"p"⟩, .send 1,
    .read 0 ⟨3, 0, []⟩, .read 2 ⟨0x0100, 0, [7]⟩]

theorem accounted_crowded : ∃ s, run (step 1) start (crowded ++ [.giveUp 2, .handleMessage, .send 0]) =
    some s ∧ s.queue = [⟨0, ⟨"p"⟩, ⟨3, 0, []⟩⟩] ∧ s.handled = [⟨1, ⟨"p"⟩, ⟨2, 0, []⟩⟩] ∧
    Accounted 1 s := by
  obtain ⟨s, hrun, hqueue, hhandled⟩ : ∃ s,
    run (step 1) start (crowded ++ [.giveUp 2, .handleMessage, .send 0]) = some s ∧
      s.queue = [⟨0, ⟨"p"⟩, ⟨3, 0, []⟩⟩] ∧ s.handled = [⟨1, ⟨"p"⟩, ⟨2, 0, []⟩⟩] := ⟨_, rfl, rfl, rfl⟩
  exact ⟨s, hrun, hqueue, hhandled, accounted hrun⟩

/-- The steps that need nobody outside the node: a task queues its packet, the handler takes one. -/
def Drains : Action → Prop
  | .send _ | .handleMessage => True
  | _ => False

/-- How many such steps are left at most. -/
def backlog (self : IncomingQueue) : Nat :=
  self.queue.length + 2 * self.senders.countP QueueSender.isSending

theorem step_backlog {a : Action} (ha : Drains a) (h : step capacity s a = some t) :
    t.backlog + 1 = s.backlog ∧ t.handling = s.handling ∧
      t.shutdownCancelled = s.shutdownCancelled := by
  obtain ⟨_, _, rfl⟩ | ⟨_, rfl⟩ | ⟨_, _, _, rfl, _⟩ |
    ⟨i, sender, packet, rfl, hsender, hphase, _, hroom, rfl⟩ | ⟨_, _, _, rfl, _⟩ | ⟨_, _, rfl, _⟩ |
    ⟨item, rest, rfl, hhandling, hqueue, rfl⟩ | ⟨rfl, _⟩ | ⟨rfl, _⟩ := task_cases h
  case inr.inr.inr.inl =>
    have hsending : sender.isSending = true := QueueSender.isSending_iff.mpr ⟨packet, hphase⟩
    have hcount := Slots.countP_set_add (p := QueueSender.isSending) (a := sender.sent) hsender
    simp only [hsending, if_true, QueueSender.isSending_sent, Bool.false_eq_true, if_false] at hcount
    refine ⟨?_, rfl, rfl⟩
    simp only [backlog, setSender, List.length_append, List.length_singleton]
    omega
  case inr.inr.inr.inr.inr.inr.inl =>
    refine ⟨?_, rfl, rfl⟩
    simp only [backlog, hqueue, List.length_cons]
    omega
  all_goals cases ha

theorem run_backlog {acts : List Action} (hacts : ∀ a ∈ acts, Drains a)
    (hrun : run (step capacity) s acts = some t) :
    t.backlog + acts.length = s.backlog ∧ t.handling = s.handling ∧
      t.shutdownCancelled = s.shutdownCancelled := by
  induction acts generalizing s with
  | nil =>
    obtain rfl : s = t := by simpa using hrun
    exact ⟨rfl, rfl, rfl⟩
  | cons a rest ih =>
    obtain ⟨ha, hrest⟩ := List.forall_mem_cons.mp hacts
    obtain ⟨m, hm, ht⟩ := run_cons_iff.mp hrun
    obtain ⟨hfirst, hhandling, hshutdown⟩ := step_backlog ha hm
    obtain ⟨hlater, hhandling', hshutdown'⟩ := ih hrest ht
    refine ⟨?_, hhandling'.trans hhandling, hshutdown'.trans hshutdown⟩
    rw [List.length_cons]
    omega

/-- Nobody waits for ever: with a packet queued or in hand, some such step can be taken. -/
theorem exists_drains (hcapacity : 0 < capacity) (hhandling : s.handling = true)
    (hbacklog : s.backlog ≠ 0) : ∃ a, Drains a ∧ (step capacity s a).isSome := by
  cases hqueue : s.queue with
  | cons item rest => exact ⟨.handleMessage, trivial, by simp [step, hhandling, hqueue]⟩
  | nil =>
    have hwaiting : 0 < s.senders.countP QueueSender.isSending := by
      simp only [backlog, hqueue, List.length_nil] at hbacklog
      omega
    obtain ⟨sender, hmem, hsending⟩ := List.countP_pos_iff.mp hwaiting
    obtain ⟨i, hi⟩ := List.getElem?_of_mem hmem
    obtain ⟨packet, hphase⟩ := QueueSender.isSending_iff.mp hsending
    exact ⟨.send i, trivial, by simp [step, hi, hphase, hhandling, hqueue, hcapacity]⟩

/-- Before the shutdown the queue empties whatever order its tasks run in: after `backlog` steps of
theirs, and no more are possible, everything taken from a socket has been handled, but for what data
channels gave up at their ends. -/
theorem drains (hcapacity : 0 < capacity) {acts : List Action}
    (hrun : run (step capacity) start acts = some s) (hshutdown : s.shutdownCancelled = false)
    {rest : List Action} (hrest : ∀ a ∈ rest, Drains a) (hfinish : run (step capacity) s rest = some t) :
    rest.length ≤ s.backlog ∧
    (rest.length < s.backlog → ∃ a, Drains a ∧ (step capacity t a).isSome) ∧
    (rest.length = s.backlog → t.queue = [] ∧ ∀ (i : Nat) (sender : QueueSender),
      t.senders[i]? = some sender → ∃ lost : Option RawPacket,
        sender.taken = packetsOf i t.handled ++ lost.toList ∧ (lost ≠ none → sender.kind = .data)) := by
  obtain ⟨hbacklog, hhandling, hstill⟩ := run_backlog hrest hfinish
  have hrunning : t.handling = true := hhandling.trans ((accounted hrun).running hshutdown)
  refine ⟨by omega, fun hlt => exists_drains hcapacity hrunning (by omega), ?_⟩
  intro hdone
  have ht : Accounted capacity t := accounted (run_append_iff.mpr ⟨s, hrun, hfinish⟩)
  have hempty : t.queue = [] := List.length_eq_zero_iff.mp (by unfold backlog at *; omega)
  refine ⟨hempty, ?_⟩
  intro i sender hsender
  have htaken := ht.inOrder i sender hsender
  simp only [queued, hempty, ht.nothingDropped hrunning, List.append_nil] at htaken
  have hidle : t.senders.countP QueueSender.isSending = 0 := by
    unfold backlog at *
    omega
  cases hphase : sender.phase with
  | reading => exact ⟨none, by simpa [QueueSender.inHand, hphase] using htaken, by simp⟩
  | sending packet =>
    have hsending : sender.isSending = true := QueueSender.isSending_iff.mpr ⟨packet, hphase⟩
    exact absurd hsending (by simpa using List.countP_eq_zero.mp hidle sender (List.mem_of_getElem? hsender))
  | ended lost =>
    refine ⟨lost, by simpa [QueueSender.inHand, hphase] using htaken, ?_⟩
    intro hlost
    obtain ⟨packet, rfl⟩ := Option.ne_none_iff_exists'.mp hlost
    exact ht.lossless (hstill.trans hshutdown) i sender packet hsender hphase

theorem crowded_drains : ∃ s t, run (step 1) start crowded = some s ∧
    run (step 1) s [.handleMessage, .send 2, .handleMessage, .send 0, .handleMessage] = some t ∧
    s.backlog = 5 ∧ t.queue = [] := by
  obtain ⟨s, hrun, hbacklog, hshutdown, t, hfinish⟩ : ∃ s, run (step 1) start crowded = some s ∧
      s.backlog = 5 ∧ s.shutdownCancelled = false ∧ ∃ t,
      run (step 1) s [.handleMessage, .send 2, .handleMessage, .send 0, .handleMessage] = some t :=
    ⟨_, rfl, rfl, rfl, _, rfl⟩
  have hdrains := drains (by decide) hrun hshutdown (by simp [Drains]) hfinish
  exact ⟨s, t, hrun, hfinish, hbacklog, (hdrains.2.2 hbacklog.symm).1⟩

end IncomingQueue

end MetaMystia

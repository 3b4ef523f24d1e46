import MetaMystia.Library.Runs
import MetaMystia.Library.Slots
import MetaMystia.Transport.UserMessages

/-! # The order of user messages

One node sends to another over the control channel and over data channels that
come and go. Each channel is a queue, a write task, a socket and a read task; the
read tasks of all channels feed one incoming queue. Either task holds a packet in
its hands between taking it and passing it on. Nothing waits for the earlier
messages when the channel changes, so the order holds while each message finds
the other channels empty.
-/

namespace MetaMystia

open Runs

inductive TaskPhase
  | notStarted
  | running
  | ended
deriving DecidableEq, Repr

/-- `writing` is the packet between `send_rx.recv` and the end of `sink.send`, `reading` the one
between `stream.next` and the end of `incoming_tx.send`. -/
structure Channel where
  sendQueue : List RawPacket
  writing : Option RawPacket
  socket : List RawPacket
  reading : Option RawPacket
  writeTask : TaskPhase
  readTask : TaskPhase
deriving DecidableEq, Repr

/-- The sender's half and the receiver's half of one link; channel `0` is the control channel. -/
structure Link where
  dataTx : Option Nat
  channels : List Channel
  incoming : List RawPacket
  events : List Received
  delivered : List Received
  sent : List RawPacket
deriving DecidableEq, Repr

inductive LinkAction
  | sendToPeer (packet : RawPacket)
  | recv (channel : Nat)
  | write (channel : Nat)
  | read (channel : Nat)
  | send (channel : Nat)
  | handleMessage (room : Bool)
  | dispatchEvent
  | openDataChannel
  | registerAtSender (channel : Nat)
  | registerAtReceiver (channel : Nat)
  | clearDataChannel
  | endWriteTask (channel : Nat)
  | endReadTask (channel : Nat)
deriving DecidableEq, Repr

namespace Channel

/-- The packets that were enqueued and have not reached the incoming queue, the oldest first. -/
def pending (self : Channel) : List RawPacket :=
  self.reading.toList ++ self.socket ++ self.writing.toList ++ self.sendQueue

variable {c : Channel} {packet : RawPacket} {rest : List RawPacket}

theorem pending_recv (hqueue : c.sendQueue = packet :: rest) (hwriting : c.writing = none) :
    pending { c with sendQueue := rest, writing := some packet } = c.pending := by
  simp [pending, hqueue, hwriting]

theorem pending_read (hsocket : c.socket = packet :: rest) (hreading : c.reading = none) :
    pending { c with socket := rest, reading := some packet } = c.pending := by
  simp [pending, hsocket, hreading]

/-- A packet that is written to a closed socket is gone. -/
theorem pending_write_sublist (hwriting : c.writing = some packet) :
    (pending { c with
      writing := none
      socket := if c.readTask = .ended then c.socket else c.socket ++ [packet] }).Sublist c.pending := by
  simp only [pending, hwriting, Option.toList_some, Option.toList_none, List.append_assoc, List.nil_append]
  refine List.Sublist.append_left ?_ _
  split
  · exact (List.sublist_append_right _ _).append_left _
  · rw [List.append_assoc]

end Channel

namespace Link

/-- The receive event a packet leads to, if any. Events of forwarded messages are not recorded. -/
def received (lz4 : Lz4) (sender : PeerId) (packet : RawPacket) : Option Received :=
  if packet.isInternal then none else handleUserPacket lz4 sender packet

def channelFor (self : Link) (packet : RawPacket) : Nat :=
  if packet.isInternal then 0 else self.dataTx.getD 0

def setChannel (self : Link) (channel : Nat) (c : Channel) : Link :=
  { self with channels := self.channels.set channel c }

/-- One step of a task of either node. Only sends that succeed are steps; `room` says whether the
queue of the callback thread has room. -/
def step (lz4 : Lz4) (sender : PeerId) (self : Link) : LinkAction → Option Link
  | .sendToPeer packet =>
    match self.channels[self.channelFor packet]? with
    | some c =>
      if c.writeTask = .running then
        some { self.setChannel (self.channelFor packet) { c with sendQueue := c.sendQueue ++ [packet] } with
          sent := self.sent ++ [packet] }
      else none
    | none => none
  | .recv channel =>
    match self.channels[channel]? with
    | some c =>
      match c.sendQueue, c.writing with
      | packet :: rest, none =>
        if c.writeTask = .running then
          some (self.setChannel channel { c with sendQueue := rest, writing := some packet })
        else none
      | _, _ => none
    | none => none
  | .write channel =>
    match self.channels[channel]? with
    | some c =>
      match c.writing with
      | some packet =>
        some (self.setChannel channel { c with
          writing := none
          socket := if c.readTask = .ended then c.socket else c.socket ++ [packet] })
      | none => none
    | none => none
  | .read channel =>
    match self.channels[channel]? with
    | some c =>
      match c.socket, c.reading with
      | packet :: rest, none =>
        if c.readTask = .running then
          some (self.setChannel channel { c with socket := rest, reading := some packet })
        else none
      | _, _ => none
    | none => none
  | .send channel =>
    match self.channels[channel]? with
    | some c =>
      match c.reading with
      | some packet =>
        some { self.setChannel channel { c with reading := none } with
          incoming := self.incoming ++ [packet] }
      | none => none
    | none => none
  | .handleMessage room =>
    match self.incoming with
    | packet :: rest =>
      some { self with
        incoming := rest
        events := if room then self.events ++ (received lz4 sender packet).toList else self.events }
    | [] => none
  | .dispatchEvent =>
    match self.events with
    | event :: rest => some { self with events := rest, delivered := self.delivered ++ [event] }
    | [] => none
  | .openDataChannel =>
    some { self with channels := self.channels ++ [⟨[], none, [], none, .notStarted, .notStarted⟩] }
  | .registerAtSender channel =>
    match self.channels[channel]? with
    | some c =>
      if c.writeTask = .notStarted then
        some { self.setChannel channel { c with writeTask := .running } with dataTx := some channel }
      else none
    | none => none
  | .registerAtReceiver channel =>
    match self.channels[channel]? with
    | some c =>
      if c.readTask = .notStarted then
        some (self.setChannel channel { c with readTask := .running })
      else none
    | none => none
  | .clearDataChannel => some { self with dataTx := none }
  | .endWriteTask channel =>
    match self.channels[channel]? with
    | some c =>
      if channel ≠ 0 then
        some (self.setChannel channel { c with writeTask := .ended, sendQueue := [], writing := none })
      else none
    | none => none
  | .endReadTask channel =>
    match self.channels[channel]? with
    | some c =>
      if channel ≠ 0 then
        some (self.setChannel channel { c with readTask := .ended, socket := [], reading := none })
      else none
    | none => none

def connected : Link := ⟨none, [⟨[], none, [], none, .running, .running⟩], [], [], [], []⟩

/-- A user message is sent only when no other channel still holds one. -/
def FindsOthersEmpty (self : Link) : LinkAction → Prop
  | .sendToPeer packet => packet.isInternal = false →
    ∀ channel < self.channels.length, channel ≠ self.channelFor packet →
      ∀ c ∈ self.channels[channel]?, ∀ waiting ∈ c.pending, waiting.isInternal = true
  | _ => True

instance (self : Link) : (action : LinkAction) → Decidable (self.FindsOthersEmpty action)
  | .sendToPeer packet => inferInstanceAs (Decidable (packet.isInternal = false →
      ∀ channel < self.channels.length, channel ≠ self.channelFor packet →
        ∀ c ∈ self.channels[channel]?, ∀ waiting ∈ c.pending, waiting.isInternal = true))
  | .recv _ | .write _ | .read _ | .send _ | .handleMessage _ | .dispatchEvent | .openDataChannel
  | .registerAtSender _ | .registerAtReceiver _ | .clearDataChannel | .endWriteTask _
  | .endReadTask _ => .isTrue trivial

section

variable {lz4 : Lz4} {sender : PeerId} {s t : Link}

def eventsOf (lz4 : Lz4) (sender : PeerId) (packets : List RawPacket) : List Received :=
  packets.filterMap (received lz4 sender)

@[simp] theorem eventsOf_append (front back : List RawPacket) :
    eventsOf lz4 sender (front ++ back) = eventsOf lz4 sender front ++ eventsOf lz4 sender back :=
  List.filterMap_append

theorem eventsOf_sublist {front back : List RawPacket} (h : front.Sublist back) :
    (eventsOf lz4 sender front).Sublist (eventsOf lz4 sender back) :=
  h.filterMap _

theorem eventsOf_singleton (packet : RawPacket) :
    eventsOf lz4 sender [packet] = (received lz4 sender packet).toList := by
  cases h : received lz4 sender packet <;> simp [eventsOf, h]

theorem eventsOf_of_internal {packets : List RawPacket}
    (h : ∀ packet ∈ packets, packet.isInternal = true) : eventsOf lz4 sender packets = [] := by
  apply List.filterMap_eq_nil_iff.mpr
  intro packet hpacket
  exact if_pos (h packet hpacket)

def arrived (lz4 : Lz4) (sender : PeerId) (self : Link) : List Received :=
  self.delivered ++ self.events ++ eventsOf lz4 sender self.incoming

/-- Channel `j` had at least the pending events that it has as `d`. -/
def HadPending (lz4 : Lz4) (sender : PeerId) (s : Link) (j : Nat) (d : Channel) : Prop :=
  eventsOf lz4 sender d.pending = [] ∨ ∃ c, s.channels[j]? = some c ∧
    (eventsOf lz4 sender d.pending).Sublist (eventsOf lz4 sender c.pending)

theorem HadPending.same {j : Nat} {c : Channel} (hc : s.channels[j]? = some c) :
    HadPending lz4 sender s j c :=
  .inr ⟨c, hc, .refl _⟩

/-- Nothing is added: what has arrived and what is pending can only shrink. -/
structure Shrinks (lz4 : Lz4) (sender : PeerId) (s t : Link) : Prop where
  sent : t.sent = s.sent
  arrived : (t.arrived lz4 sender).Sublist (s.arrived lz4 sender)
  pending : ∀ j d, t.channels[j]? = some d → HadPending lz4 sender s j d

theorem Shrinks.of_channels (hsent : t.sent = s.sent)
    (harrived : (t.arrived lz4 sender).Sublist (s.arrived lz4 sender))
    (hchannels : t.channels = s.channels) : Shrinks lz4 sender s t := by
  refine ⟨hsent, harrived, ?_⟩
  intro j d hd
  exact .same (hchannels ▸ hd)

theorem Shrinks.of_set {j : Nat} {c d : Channel} (hc : s.channels[j]? = some c)
    (hpending : d.pending.Sublist c.pending) (dataTx : Option Nat) :
    Shrinks lz4 sender s { s.setChannel j d with dataTx } := by
  have hwritten : HadPending lz4 sender s j d := .inr ⟨c, hc, eventsOf_sublist hpending⟩
  exact ⟨rfl, .refl _, Slots.forall_set hwritten fun _ _ _ => .same⟩

/-- A step enqueues a packet, passes one on to the incoming queue, or adds nothing. -/
theorem step_cases {a : LinkAction} (h : step lz4 sender s a = some t) :
    (∃ packet c, a = .sendToPeer packet ∧ s.channels[s.channelFor packet]? = some c ∧
      t = { s.setChannel (s.channelFor packet) { c with sendQueue := c.sendQueue ++ [packet] } with
        sent := s.sent ++ [packet] }) ∨
    (∃ j c packet, a = .send j ∧ s.channels[j]? = some c ∧ c.reading = some packet ∧
      t = { s.setChannel j { c with reading := none } with incoming := s.incoming ++ [packet] }) ∨
    Shrinks lz4 sender s t := by
  cases a with
  | sendToPeer packet =>
    simp only [step] at h
    split at h
    · next c hc =>
      split at h
      · cases h
        exact .inl ⟨packet, c, rfl, hc, rfl⟩
      · cases h
    · cases h
  | recv j =>
    simp only [step] at h
    split at h
    · next c hc =>
      split at h
      · next packet rest hqueue hwriting =>
        split at h
        · cases h
          exact .inr (.inr (Shrinks.of_set hc (by rw [Channel.pending_recv hqueue hwriting]) _))
        · cases h
      · cases h
    · cases h
  | write j =>
    simp only [step] at h
    split at h
    · next c hc =>
      split at h
      · next packet hwriting =>
        cases h
        exact .inr (.inr (Shrinks.of_set hc (Channel.pending_write_sublist hwriting) _))
      · cases h
    · cases h
  | read j =>
    simp only [step] at h
    split at h
    · next c hc =>
      split at h
      · next packet rest hsocket hreading =>
        split at h
        · cases h
          exact .inr (.inr (Shrinks.of_set hc (by rw [Channel.pending_read hsocket hreading]) _))
        · cases h
      · cases h
    · cases h
  | send j =>
    simp only [step] at h
    split at h
    · next c hc =>
      split at h
      · next packet hreading =>
        cases h
        exact .inr (.inl ⟨j, c, packet, rfl, hc, hreading, rfl⟩)
      · cases h
    · cases h
  | handleMessage room =>
    simp only [step] at h
    split at h
    · next packet rest hincoming =>
      cases h
      refine .inr (.inr (.of_channels rfl ?_ rfl))
      have hsplit : eventsOf lz4 sender (packet :: rest) =
          (received lz4 sender packet).toList ++ eventsOf lz4 sender rest := by
        rw [← eventsOf_singleton, ← eventsOf_append, List.singleton_append]
      simp only [arrived, hincoming, hsplit]
      cases room with
      | true =>
        simp only [if_true, List.append_assoc]
        exact .refl _
      | false =>
        rw [if_neg (by decide)]
        exact (List.sublist_append_right _ _).append_left _
    · cases h
  | dispatchEvent =>
    simp only [step] at h
    split at h
    · next event rest hevents =>
      cases h
      refine .inr (.inr (.of_channels rfl ?_ rfl))
      simp only [arrived, hevents, List.append_assoc, List.singleton_append]
      exact .refl _
    · cases h
  | openDataChannel =>
    cases h
    have hnew : HadPending lz4 sender s s.channels.length
        ⟨[], none, [], none, .notStarted, .notStarted⟩ :=
      .inl rfl
    exact .inr (.inr ⟨rfl, .refl _, Slots.forall_concat hnew fun _ _ => .same⟩)
  | registerAtSender j =>
    simp only [step] at h
    split at h
    · next c hc =>
      split at h
      · cases h
        refine .inr (.inr (Shrinks.of_set hc ?_ _))
        exact .refl _
      · cases h
    · cases h
  | registerAtReceiver j =>
    simp only [step] at h
    split at h
    · next c hc =>
      split at h
      · cases h
        refine .inr (.inr (Shrinks.of_set hc ?_ _))
        exact .refl _
      · cases h
    · cases h
  | clearDataChannel =>
    cases h
    exact .inr (.inr (.of_channels rfl (.refl _) rfl))
  | endWriteTask j =>
    simp only [step] at h
    split at h
    · next c hc =>
      split at h
      · cases h
        refine .inr (.inr (Shrinks.of_set hc ?_ _))
        exact ((List.nil_sublist _).append_left _).append (List.nil_sublist _)
      · cases h
    · cases h
  | endReadTask j =>
    simp only [step] at h
    split at h
    · next c hc =>
      split at h
      · cases h
        refine .inr (.inr (Shrinks.of_set hc ?_ _))
        exact ((List.nil_sublist _).append_right _).append_right _
      · cases h
    · cases h

/-- What is pending comes after what arrived, and only the active channel has user messages
pending. -/
structure InOrder (lz4 : Lz4) (sender : PeerId) (active : Nat) (s : Link) : Prop where
  arrived : (s.arrived lz4 sender).Sublist (eventsOf lz4 sender s.sent)
  pending : ∀ (j : Nat) (c : Channel), s.channels[j]? = some c →
    (s.arrived lz4 sender ++ eventsOf lz4 sender c.pending).Sublist (eventsOf lz4 sender s.sent)
  idle : ∀ (j : Nat) (c : Channel), s.channels[j]? = some c → j ≠ active →
    eventsOf lz4 sender c.pending = []

variable {active : Nat}

theorem inOrder_connected : InOrder lz4 sender 0 connected := by
  constructor
  · exact .refl _
  · intro j c hc
    cases j with
    | zero =>
      cases hc
      exact .refl _
    | succ j => cases hc
  · intro j c hc hj
    cases j with
    | zero => exact absurd rfl hj
    | succ j => cases hc

theorem InOrder.shrinks (hs : InOrder lz4 sender active s) (h : Shrinks lz4 sender s t) :
    InOrder lz4 sender active t := by
  have harrived := h.arrived.trans hs.arrived
  constructor
  · rw [h.sent]
    exact harrived
  · intro j d hd
    rw [h.sent]
    obtain hnone | ⟨c, hc, hsub⟩ := h.pending j d hd
    · rw [hnone, List.append_nil]
      exact harrived
    · exact (h.arrived.append hsub).trans (hs.pending j c hc)
  · intro j d hd hj
    obtain hnone | ⟨c, hc, hsub⟩ := h.pending j d hd
    · exact hnone
    · rw [hs.idle j c hc hj] at hsub
      exact List.sublist_nil.mp hsub

theorem pending_enqueue (c : Channel) (packet : RawPacket) :
    Channel.pending { c with sendQueue := c.sendQueue ++ [packet] } = c.pending ++ [packet] :=
  (List.append_assoc ..).symm

theorem InOrder.enqueue (hs : InOrder lz4 sender active s) {k : Nat} {c : Channel}
    (hc : s.channels[k]? = some c) (packet : RawPacket)
    (hidle : ∀ j d, s.channels[j]? = some d → j ≠ k → eventsOf lz4 sender d.pending = []) :
    InOrder lz4 sender k
      { s.setChannel k { c with sendQueue := c.sendQueue ++ [packet] } with
        sent := s.sent ++ [packet] } := by
  have hlonger : (eventsOf lz4 sender s.sent).Sublist (eventsOf lz4 sender (s.sent ++ [packet])) :=
    eventsOf_sublist (List.sublist_append_left _ _)
  constructor
  · exact hs.arrived.trans hlonger
  · refine Slots.forall_set (P := fun _ (d : Channel) => (s.arrived lz4 sender ++
      eventsOf lz4 sender d.pending).Sublist (eventsOf lz4 sender (s.sent ++ [packet]))) ?_ ?_
    · simp only [pending_enqueue, eventsOf_append, ← List.append_assoc]
      exact (hs.pending k c hc).append_right _
    · intro j d _ hd
      exact (hs.pending j d hd).trans hlonger
  · refine Slots.forall_set (P := fun j (d : Channel) => j ≠ k → eventsOf lz4 sender d.pending = []) ?_ ?_
    · exact fun hno => absurd rfl hno
    · exact fun j d _ => hidle j d

theorem InOrder.enqueue_silent (hs : InOrder lz4 sender active s) {k : Nat} {c : Channel}
    (hc : s.channels[k]? = some c) {packet : RawPacket} (hnone : eventsOf lz4 sender [packet] = []) :
    InOrder lz4 sender active
      { s.setChannel k { c with sendQueue := c.sendQueue ++ [packet] } with
        sent := s.sent ++ [packet] } := by
  have hsent : eventsOf lz4 sender (s.sent ++ [packet]) = eventsOf lz4 sender s.sent := by
    rw [eventsOf_append, hnone, List.append_nil]
  have hqueue : eventsOf lz4 sender
      (Channel.pending { c with sendQueue := c.sendQueue ++ [packet] }) =
      eventsOf lz4 sender c.pending := by
    rw [pending_enqueue, eventsOf_append, hnone, List.append_nil]
  constructor
  · rw [hsent]
    exact hs.arrived
  · rw [hsent]
    refine Slots.forall_set (P := fun _ (d : Channel) => (s.arrived lz4 sender ++
      eventsOf lz4 sender d.pending).Sublist (eventsOf lz4 sender s.sent)) ?_ ?_
    · rw [hqueue]
      exact hs.pending k c hc
    · exact fun j d _ => hs.pending j d
  · refine Slots.forall_set (P := fun j (d : Channel) => j ≠ active → eventsOf lz4 sender d.pending = []) ?_ ?_
    · rw [hqueue]
      exact hs.idle k c hc
    · exact fun j d _ => hs.idle j d

theorem InOrder.sendToPeer (hs : InOrder lz4 sender active s) {packet : RawPacket} {c : Channel}
    (hc : s.channels[s.channelFor packet]? = some c)
    (hothers : s.FindsOthersEmpty (.sendToPeer packet)) :
    ∃ active', InOrder lz4 sender active'
      { s.setChannel (s.channelFor packet) { c with sendQueue := c.sendQueue ++ [packet] } with
        sent := s.sent ++ [packet] } := by
  cases hinternal : packet.isInternal with
  | true =>
    have hnone : eventsOf lz4 sender [packet] = [] := eventsOf_of_internal (by simpa using hinternal)
    exact ⟨active, hs.enqueue_silent hc hnone⟩
  | false =>
    refine ⟨s.channelFor packet, hs.enqueue hc packet ?_⟩
    intro j d hd hj
    have hlength : j < s.channels.length := (List.getElem?_eq_some_iff.mp hd).1
    exact eventsOf_of_internal (hothers hinternal j hlength hj d hd)

theorem InOrder.send (hs : InOrder lz4 sender active s) {j : Nat} {c : Channel} {packet : RawPacket}
    (hc : s.channels[j]? = some c) (hreading : c.reading = some packet) :
    InOrder lz4 sender active
      { s.setChannel j { c with reading := none } with incoming := s.incoming ++ [packet] } := by
  let d : Channel := { c with reading := none }
  let u : Link := { s.setChannel j d with incoming := s.incoming ++ [packet] }
  have hpending : eventsOf lz4 sender c.pending =
      eventsOf lz4 sender [packet] ++ eventsOf lz4 sender d.pending := by
    rw [← eventsOf_append, Channel.pending, hreading]
    rfl
  have harrived : u.arrived lz4 sender = s.arrived lz4 sender ++ eventsOf lz4 sender [packet] := by
    simp only [Link.arrived, eventsOf_append, u, ← List.append_assoc]
    rfl
  have hall : (u.arrived lz4 sender ++ eventsOf lz4 sender d.pending).Sublist
      (eventsOf lz4 sender s.sent) := by
    rw [harrived, List.append_assoc, ← hpending]
    exact hs.pending j c hc
  have hsome : (u.arrived lz4 sender).Sublist (eventsOf lz4 sender s.sent) :=
    (List.sublist_append_left _ _).trans hall
  have hidle : j ≠ active → eventsOf lz4 sender [packet] = [] ∧ eventsOf lz4 sender d.pending = [] := by
    intro hj
    exact List.append_eq_nil_iff.mp (hpending ▸ hs.idle j c hc hj)
  constructor
  · exact hsome
  · refine Slots.forall_set (P := fun _ (d : Channel) => (u.arrived lz4 sender ++
      eventsOf lz4 sender d.pending).Sublist (eventsOf lz4 sender s.sent)) hall ?_
    intro i e hi he
    by_cases hactive : i = active
    · rw [harrived, (hidle (hactive ▸ Ne.symm hi)).1, List.append_nil]
      exact hs.pending i e he
    · rw [hs.idle i e he hactive, List.append_nil]
      exact hsome
  · refine Slots.forall_set (P := fun i (d : Channel) => i ≠ active →
      eventsOf lz4 sender d.pending = []) ?_ ?_
    · exact fun hj => (hidle hj).2
    · exact fun i e _ => hs.idle i e

theorem step_inOrder {a : LinkAction} (hs : ∃ active, InOrder lz4 sender active s)
    (ha : s.FindsOthersEmpty a) (h : step lz4 sender s a = some t) :
    ∃ active, InOrder lz4 sender active t := by
  obtain ⟨active, hs⟩ := hs
  obtain ⟨packet, c, rfl, hc, rfl⟩ | ⟨j, c, packet, rfl, hc, hreading, rfl⟩ | h := step_cases h
  · exact hs.sendToPeer hc ha
  · exact ⟨active, hs.send hc hreading⟩
  · exact ⟨active, hs.shrinks h⟩

/-- As long as each user message finds the other channels without one, the receive callback sees
the messages in the order of the sends. -/
theorem delivered_in_order (acts : List LinkAction)
    (halong : Along (step lz4 sender) FindsOthersEmpty connected acts)
    (hrun : run (step lz4 sender) connected acts = some s) :
    s.delivered.Sublist (s.sent.filterMap (received lz4 sender)) := by
  obtain ⟨active, hs⟩ := invariant (I := fun s => ∃ active, InOrder lz4 sender active s)
    (fun s a t hs ha h => step_inOrder hs ha h) ⟨0, inOrder_connected⟩ halong hrun
  have hdelivered : s.delivered.Sublist (s.arrived lz4 sender) := by
    rw [arrived, List.append_assoc]
    exact List.sublist_append_left _ _
  exact hdelivered.trans hs.arrived

end

/-- A data channel is opened after the first message has reached the incoming queue. -/
theorem delivered_in_order_over_new_data_channel :
    ∃ s, run (step literalBlock ⟨"a"⟩) connected
        [.sendToPeer ⟨0x0100, 0, [1]⟩, .recv 0, .write 0, .read 0, .send 0, .openDataChannel,
          .registerAtSender 1, .registerAtReceiver 1, .sendToPeer ⟨0x0100, 0, [2]⟩, .recv 1,
          .write 1, .read 1, .send 1, .handleMessage true, .handleMessage true, .dispatchEvent,
          .dispatchEvent] = some s ∧
      s.delivered = [⟨⟨"a"⟩, [1], 0x0100, 0⟩, ⟨⟨"a"⟩, [2], 0x0100, 0⟩] ∧
      s.delivered.Sublist (s.sent.filterMap (received literalBlock ⟨"a"⟩)) := by
  refine ⟨_, rfl, by decide, ?_⟩
  exact delivered_in_order [.sendToPeer ⟨0x0100, 0, [1]⟩, .recv 0, .write 0, .read 0, .send 0,
    .openDataChannel, .registerAtSender 1, .registerAtReceiver 1, .sendToPeer ⟨0x0100, 0, [2]⟩,
    .recv 1, .write 1, .read 1, .send 1, .handleMessage true, .handleMessage true, .dispatchEvent,
    .dispatchEvent] (by decide) rfl

/-- The second message overtakes the first on a data channel opened in between, while the first is
in the hands of the control channel's read task. -/
theorem delivered_out_of_order :
    ¬ ∀ acts s, run (step literalBlock ⟨"a"⟩) connected acts = some s →
      s.delivered.Sublist (s.sent.filterMap (received literalBlock ⟨"a"⟩)) := by
  intro h
  have hwrong := h
    [.sendToPeer ⟨0x0100, 0, [1]⟩, .recv 0, .write 0, .read 0, .openDataChannel,
      .registerAtSender 1, .registerAtReceiver 1, .sendToPeer ⟨0x0100, 0, [2]⟩, .recv 1, .write 1,
      .read 1, .send 1, .handleMessage true, .dispatchEvent, .send 0, .handleMessage true,
      .dispatchEvent] _ rfl
  exact absurd hwrong (by decide)

end Link

end MetaMystia

import MetaMystia.Messaging
import MetaMystia.Transport.BroadcastSends

/-! # A node that leaves

`NetworkState::shutdown` puts a `PeerLeave` into every control queue, waits until all
queues of the map are empty or a second is over, and only then cancels the tasks. An
empty queue is not one that was thrown away: in the map, only a failed write ends a
write task.
-/

namespace MetaMystia

open Runs

namespace Channels

open TransportManager

def queueOf (s : Channels) (channel : Nat) : List RawPacket :=
  (s.channels[channel]?.map ChannelTasks.queue).getD []

/-- `drain_send_queues` finds the capacity of every queue of the map unused. -/
def allEmpty (s : Channels) : Bool :=
  s.manager.connections.entries.all fun entry =>
    (PeerConnection.tokens entry.2).all fun token => (s.queueOf token.generation).isEmpty

end Channels

/-- How far `NetworkState::shutdown` has come. -/
inductive ShutdownPhase
  | running
  | draining
  | drained
  | cancelled
  | closed
deriving DecidableEq

/-- `accepted` tells what the queue of each channel has taken, `written` what its write task has
taken from there and written; a write under way counts as what it comes to. -/
structure Departure where
  channels : Channels
  phase : ShutdownPhase
  accepted : Nat → List RawPacket
  written : Nat → List RawPacket

namespace Departure

open Channels TransportManager

inductive Action
  | traffic (action : TrafficAction)
  | broadcastPeerLeave
  | findEmpty
  | reachDeadline
  | cancelShutdownToken
  | shutdown

def start (localPeerId : PeerId) (sessionId : String) (listenPort : UInt16) (autoReconnect : Bool) :
    Departure where
  channels := .start (.new localPeerId sessionId listenPort autoReconnect)
  phase := .running
  accepted _ := []
  written _ := []

/-- What the queues hold behind their old content is accepted. -/
def sent (s : Departure) (channels : Channels) : Departure :=
  { s with
    channels
    accepted := fun channel =>
      s.accepted channel ++ (channels.queueOf channel).drop (s.channels.queueOf channel).length }

/-- The head of the queue is written. -/
def wrote (s : Departure) (channel : Nat) (channels : Channels) : Departure :=
  { s with
    channels
    written := Function.update s.written channel
      (s.written channel ++ (s.channels.queueOf channel).take 1) }

/-- The steps of `shutdown` in their order, and all that goes on meanwhile. The shutdown token and
the map belong to `shutdown`. -/
def step (capacity : Nat) (postcard : Postcard) (maxMessageSize : UInt32) (s : Departure) :
    Action → Option Departure
  | .traffic action =>
    let next := s.channels.trafficStep capacity action
    match action with
    | .channels .cancelShutdownToken | .channels .shutdown => none
    | .channels (.sendToPeer _ _) | .broadcast _ _ => next.map s.sent
    | .channels (.task channel .write) => next.map (s.wrote channel)
    | _ => next.map fun channels => { s with channels }
  | .broadcastPeerLeave =>
    if s.phase = .running then
      match encodeInternal postcard (.peerLeave s.channels.manager.localPeerId) maxMessageSize with
      | .ok packet =>
        some { s.sent (s.channels.broadcast capacity packet none).1 with phase := .draining }
      | .error _ => some { s with phase := .draining }
    else none
  | .findEmpty =>
    if s.phase = .draining ∧ s.channels.allEmpty = true then some { s with phase := .drained } else none
  | .reachDeadline => if s.phase = .draining then some { s with phase := .drained } else none
  | .cancelShutdownToken =>
    if s.phase = .drained then
      (s.channels.step capacity .cancelShutdownToken).map fun channels =>
        { s with channels, phase := .cancelled }
    else none
  | .shutdown =>
    if s.phase = .cancelled then
      (s.channels.step capacity .shutdown).map fun channels => { s with channels, phase := .closed }
    else none

/-- The channel whose write fails or times out; its write task ends. -/
def Action.failing : Action → Option Nat
  | .traffic (.channels (.task channel .failWrite)) => some channel
  | _ => none

def FailsWrite (channel : Nat) (_ : Departure) (action : Action) : Prop :=
  action.failing = some channel

instance (channel : Nat) (s : Departure) (action : Action) : Decidable (FailsWrite channel s action) :=
  inferInstanceAs (Decidable (_ = _))

end Departure

namespace Channels

open TransportManager

variable {s t : Channels} {capacity : Nat} {packet : RawPacket} {exclude : Option (List PeerId)}
  {action : Action}

/-- What one send leaves in a channel. -/
def afterSend (capacity : Nat) (packet : RawPacket) : ChannelTasks → ChannelTasks :=
  Mailboxes.settle (trySendPacket capacity packet)

theorem afterSend_grows (capacity : Nat) (packet : RawPacket) (c : ChannelTasks) :
    (afterSend capacity packet c).writing = c.writing ∧
      ∃ more, (afterSend capacity packet c).queue = c.queue ++ more := by
  unfold afterSend Mailboxes.settle trySendPacket
  split_ifs
  · exact ⟨rfl, [], by simp⟩
  · exact ⟨rfl, [packet], rfl⟩
  · exact ⟨rfl, [], by simp⟩

/-- Every queue of the map is tried once. -/
theorem Owned.broadcast_of_target (h : s.Owned) {p : PeerId} {conn : PeerConnection}
    (hp : p ∈ s.recipients exclude) (hconn : s.manager.connections.lookup p = some conn) :
    (s.broadcast capacity packet exclude).1.channels[(conn.queueFor packet).generation]? =
      s.channels[(conn.queueFor packet).generation]?.map (afterSend capacity packet) := by
  rw [broadcast_eq h]
  refine Mailboxes.getElem?_putAll_of_mem _ _ h.nodup_targets ?_
  rw [List.map_map]
  exact List.mem_map.mpr ⟨p, hp, by rw [Function.comp_apply, target_of_lookup hconn]⟩

/-- After some sends, a channel is as it was, but for what its queue has taken. -/
def Grows (s t : Channels) : Prop :=
  t.channels.length = s.channels.length ∧ ∀ (i : Nat) (c' : ChannelTasks), t.channels[i]? = some c' →
    ∃ c, s.channels[i]? = some c ∧ c'.writing = c.writing ∧ ∃ more, c'.queue = c.queue ++ more

theorem grows_of_cases (capacity : Nat) (packet : RawPacket) (h : ∀ i : Nat, t.channels[i]? = s.channels[i]? ∨
    t.channels[i]? = s.channels[i]?.map (afterSend capacity packet)) : s.Grows t := by
  refine ⟨?_, ?_⟩
  · have hnone : ∀ i : Nat, t.channels[i]? = none ↔ s.channels[i]? = none := by
      intro i
      obtain heq | heq := h i <;> simp [heq]
    simp only [List.getElem?_eq_none_iff] at hnone
    exact Nat.le_antisymm ((hnone _).mpr (Nat.le_refl _)) ((hnone _).mp (Nat.le_refl _))
  · intro i c' hc'
    obtain heq | heq := h i
    · exact ⟨c', heq ▸ hc', rfl, [], by simp⟩
    · rw [hc'] at heq
      obtain ⟨c, hc, rfl⟩ := Option.map_eq_some_iff.mp heq.symm
      exact ⟨c, hc, afterSend_grows capacity packet c⟩

theorem Owned.grows_broadcast (h : s.Owned) : s.Grows (s.broadcast capacity packet exclude).1 := by
  refine grows_of_cases capacity packet fun i => ?_
  by_cases hchanged : (s.broadcast capacity packet exclude).1.channels[i]? = s.channels[i]?
  · exact .inl hchanged
  · obtain ⟨p, conn, hp, hconn, rfl⟩ := h.taken_of_changed hchanged
    exact .inr (h.broadcast_of_target hp hconn)

theorem grows_sendAt (queue : Nat) : s.Grows (s.sendAt capacity packet queue).1 := by
  refine grows_of_cases capacity packet fun i => ?_
  simp only [sendAt, Mailboxes.put_fst]
  obtain rfl | hne := eq_or_ne queue i
  · exact .inr (List.getElem?_modify_eq ..)
  · exact .inl (List.getElem?_modify_ne _ _ hne)

theorem grows_sendToPeer {peerId : PeerId}
    (ht : s.step capacity (.sendToPeer peerId packet) = some t) : s.Grows t := by
  rw [step_sendToPeer] at ht
  obtain rfl := Option.some.inj ht
  unfold sendToPeer
  cases s.manager.connections.lookup peerId with
  | none => exact grows_of_cases capacity packet fun _ => .inl rfl
  | some conn => exact grows_sendAt _

/-- The queues of the write tasks that go on are as they were; a new channel has an empty one. -/
def KeepsQueues (before after : List ChannelTasks) : Prop :=
  before.length ≤ after.length ∧
    ∀ (i : Nat) (c' : ChannelTasks), after[i]? = some c' → c'.writing = true →
      (∃ c, before[i]? = some c ∧ c.writing = true ∧ c'.queue = c.queue) ∨
        (before.length ≤ i ∧ c'.queue = [])

theorem KeepsQueues.refl (channels : List ChannelTasks) : KeepsQueues channels channels :=
  ⟨Nat.le_refl _, fun _ c' hc' hwriting => .inl ⟨c', hc', hwriting, rfl⟩⟩

theorem keepsQueues_concat {channels : List ChannelTasks} {c : ChannelTasks} (hempty : c.queue = []) :
    KeepsQueues channels (channels ++ [c]) := by
  refine ⟨by simp, ?_⟩
  intro i c' hc' hwriting
  obtain hold | ⟨rfl, rfl⟩ := Slots.getElem?_concat_cases hc'
  · exact .inl ⟨c', hold, hwriting, rfl⟩
  · exact .inr ⟨Nat.le_refl _, hempty⟩

theorem keepsQueues_set {channels : List ChannelTasks} {channel : Nat} {c c' : ChannelTasks}
    (hc : channels[channel]? = some c) (hsame : c'.writing = true → c.writing = true ∧ c'.queue = c.queue) :
    KeepsQueues channels (channels.set channel c') := by
  refine ⟨by simp, Slots.forall_set (fun hwriting => ?_) fun j d _ hd hwriting => ?_⟩
  · obtain ⟨hbefore, hqueue⟩ := hsame hwriting
    exact .inl ⟨c, hc, hbefore, hqueue⟩
  · exact .inl ⟨d, hd, hwriting, rfl⟩

/-- A step that sends and writes nothing. -/
theorem keepsQueues_step (ht : s.trafficStep capacity (.channels action) = some t)
    (hsend : ∀ p packet, action ≠ .sendToPeer p packet) (hwrite : ∀ i, action ≠ .task i .write) :
    KeepsQueues s.channels t.channels := by
  cases step_effect ht with
  | idle | disconnect | cancelShutdownToken | shutdown => exact .refl _
  | register => exact keepsQueues_concat rfl
  | registerDataChannel =>
    refine keepsQueues_concat ?_
    split <;> rfl
  | enqueue => exact absurd rfl (hsend _ _)
  | write => exact absurd rfl (hwrite _)
  | leaveLoop hc | cleanup hc | check hc | clear hc =>
    exact keepsQueues_set hc fun hwriting => ⟨hwriting, rfl⟩
  | endWrite hc => exact keepsQueues_set hc nofun

end Channels

namespace TransportManager

variable {self next : TransportManager} {peerId : PeerId}

/-- The tokens of an entry stay with it or are new ones, and only a token that leaves an entry is
cancelled. -/
structure Inherits (m next : TransportManager) : Prop where
  generation : m.nextGeneration ≤ next.nextGeneration
  tokens : ∀ p conn, next.connections.lookup p = some conn → ∀ token ∈ PeerConnection.tokens conn,
    (∃ old, m.connections.lookup p = some old ∧ token ∈ PeerConnection.tokens old) ∨
      (token.generation = m.nextGeneration ∧ m.nextGeneration < next.nextGeneration)
  cancelled : ∀ token ∈ next.cancelled, token ∈ m.cancelled ∨
    ∃ p old, m.connections.lookup p = some old ∧ token ∈ PeerConnection.tokens old ∧
      ∀ conn, next.connections.lookup p = some conn → token ∉ PeerConnection.tokens conn

theorem inherits_of_entries (hnext : next.nextGeneration = self.nextGeneration)
    (hcancelled : next.cancelled = self.cancelled)
    (hentries : ∀ p conn, next.connections.lookup p = some conn → ∃ old,
      self.connections.lookup p = some old ∧ PeerConnection.tokens conn ⊆ PeerConnection.tokens old) :
    self.Inherits next := by
  refine ⟨hnext.ge, ?_, fun token htoken => .inl (hcancelled ▸ htoken)⟩
  intro p conn hconn token htoken
  obtain ⟨old, hold, hsubset⟩ := hentries p conn hconn
  exact .inl ⟨old, hold, hsubset htoken⟩

theorem inherits_modify {f : PeerConnection → PeerConnection}
    (hf : ∀ conn, PeerConnection.tokens (f conn) ⊆ PeerConnection.tokens conn) :
    self.Inherits (self.modify peerId f) := by
  refine inherits_of_entries modify_nextGeneration modify_cancelled ?_
  intro p conn hconn
  obtain ⟨old, hold, ⟨_, rfl⟩ | ⟨_, rfl⟩⟩ := lookup_of_modify hconn
  · exact ⟨old, hold, hf old⟩
  · exact ⟨conn, hold, List.Subset.refl _⟩

theorem inherits_tearDown : self.Inherits (self.tearDown peerId) := by
  refine ⟨tearDown_nextGeneration.ge, ?_, ?_⟩
  · intro p conn hconn token htoken
    exact .inl ⟨conn, lookup_of_tearDown hconn, htoken⟩
  · intro token htoken
    rw [tearDown_cancelled, List.mem_append] at htoken
    refine htoken.imp_right fun htorn => ?_
    cases hconn : self.connections.lookup peerId with
    | none => simp [hconn] at htorn
    | some conn =>
      refine ⟨peerId, conn, hconn, by simpa [hconn] using htorn, ?_⟩
      simp [lookup_tearDown_self]

theorem inherits_shutdown : self.Inherits self.shutdown := by
  refine ⟨Nat.le_refl _, ?_, ?_⟩
  · intro p conn hconn
    cases hconn
  · intro token htoken
    simp only [TransportManager.shutdown, List.mem_append, List.mem_flatMap] at htoken
    obtain hold | ⟨entry, hentry, htoken⟩ := htoken
    · exact .inl hold
    · refine .inr ⟨entry.1, entry.2, AList.mem_lookup_iff.mpr hentry, htoken, ?_⟩
      intro conn hconn
      cases hconn

theorem inherits_insert {conn : PeerConnection} {cancelled : List Token}
    (htokens : ∀ token ∈ PeerConnection.tokens conn, token.generation = self.nextGeneration ∨
      ∃ old, self.connections.lookup peerId = some old ∧ token ∈ PeerConnection.tokens old)
    (hcancelled : ∀ token ∈ cancelled, token ∈ self.cancelled ∨
      ∃ old, self.connections.lookup peerId = some old ∧ token ∈ PeerConnection.tokens old ∧
        token ∉ PeerConnection.tokens conn) :
    self.Inherits { self with
      connections := self.connections.insert peerId conn
      cancelled
      nextGeneration := self.nextGeneration + 1 } := by
  refine ⟨Nat.le_succ _, ?_, ?_⟩
  · intro p other hother token htoken
    obtain ⟨rfl, rfl⟩ | ⟨_, hold⟩ := Assoc.lookup_insert_cases hother
    · exact (htokens token htoken).symm.imp_right fun hnew => ⟨hnew, Nat.lt_succ_self _⟩
    · exact .inl ⟨other, hold, htoken⟩
  · intro token htoken
    refine (hcancelled token htoken).imp_right ?_
    rintro ⟨old, hold, hmem, hgone⟩
    refine ⟨peerId, old, hold, hmem, ?_⟩
    intro other hother
    rw [AList.lookup_insert] at hother
    rwa [← Option.some.inj hother]

theorem inherits_registerDataChannel
    (hlt : ∀ p conn, self.connections.lookup p = some conn → ∀ token ∈ PeerConnection.tokens conn,
      token.generation < self.nextGeneration) : self.Inherits (self.registerDataChannel peerId) := by
  unfold registerDataChannel
  cases hlookup : self.connections.lookup peerId with
  | none =>
    exact ⟨Nat.le_succ _, fun p conn hconn token htoken => .inl ⟨conn, hconn, htoken⟩, fun _ => .inl⟩
  | some old =>
    refine inherits_insert ?_ ?_
    · intro token htoken
      obtain rfl | hdata := List.mem_cons.mp htoken
      · exact .inr ⟨old, hlookup, List.mem_cons_self⟩
      · obtain rfl : token = .data self.nextGeneration := by simpa using hdata
        exact .inl rfl
    · intro token htoken
      refine (List.mem_append.mp htoken).imp_right fun hdata => ?_
      have hmem : token ∈ PeerConnection.tokens old := List.mem_cons_of_mem _ hdata
      refine ⟨old, hlookup, hmem, ?_⟩
      intro hnew
      obtain rfl | hfresh := List.mem_cons.mp hnew
      · cases hold : old.dataCancel <;> simp [hold] at hdata
      · obtain rfl : token = .data self.nextGeneration := by simpa using hfresh
        exact lt_irrefl _ (hlt peerId old hlookup _ hmem)

end TransportManager

namespace Channels

open TransportManager

variable {s t : Channels} {capacity : Nat}

theorem Owned.token_lt (h : s.Owned) {p : PeerId} {conn : PeerConnection}
    (hconn : s.manager.connections.lookup p = some conn) {token : Token}
    (htoken : token ∈ PeerConnection.tokens conn) : token.generation < s.manager.nextGeneration := by
  obtain ⟨c, hc, _⟩ := (h.entries p conn hconn).2 token htoken
  rw [← h.length]
  exact (List.getElem?_eq_some_iff.mp hc).1

theorem Owned.inherits (h : s.Owned) {action : TrafficAction}
    (ht : s.trafficStep capacity action = some t) : s.manager.Inherits t.manager := by
  have hsame : s.manager.Inherits s.manager :=
    inherits_of_entries rfl rfl fun p conn hconn => ⟨conn, hconn, List.Subset.refl _⟩
  cases action with
  | channels action =>
    cases step_effect ht with
    | idle | enqueue | leaveLoop | write | endWrite | check => exact hsame
    | cancelShutdownToken =>
      exact inherits_of_entries rfl rfl fun p conn hconn => ⟨conn, hconn, List.Subset.refl _⟩
    | register hnew =>
      refine inherits_insert ?_ fun _ => .inl
      intro token htoken
      exact .inl (by simp [PeerConnection.tokens] at htoken; rw [htoken]; rfl)
    | registerDataChannel => exact inherits_registerDataChannel fun p conn hconn _ => h.token_lt hconn
    | disconnect | cleanup => exact inherits_tearDown
    | shutdown => exact inherits_shutdown
    | clear => exact inherits_modify fun conn => by simp [PeerConnection.tokens]
  | broadcast packet exclude =>
    cases ht
    exact hsame
  | setShouldReconnect | updateLastSeen | updateRtt =>
    cases ht
    exact inherits_modify fun _ => List.Subset.refl _

/-- The tokens of the map are not cancelled. -/
structure Live (m : TransportManager) : Prop where
  fresh : ∀ token ∈ m.cancelled, token.generation < m.nextGeneration
  live : ∀ p conn, m.connections.lookup p = some conn → ∀ token ∈ PeerConnection.tokens conn,
    token ∉ m.cancelled

theorem Live.of_inherits (h : Live s.manager) (howned : s.Owned) {next : TransportManager}
    (hinherits : s.manager.Inherits next) : Live next := by
  refine ⟨?_, ?_⟩
  · intro token htoken
    refine Nat.lt_of_lt_of_le ?_ hinherits.generation
    obtain hold | ⟨p, old, hold, hmem, _⟩ := hinherits.cancelled token htoken
    · exact h.fresh token hold
    · exact howned.token_lt hold hmem
  · intro p conn hconn token htoken hcancelled
    obtain ⟨old, hold, hmem⟩ | ⟨hnew, _⟩ := hinherits.tokens p conn hconn token htoken
    · obtain hin | ⟨q, other, hother, hleft, hgone⟩ := hinherits.cancelled token hcancelled
      · exact h.live p old hold token hmem hin
      · -- The token left the entry of its peer, but there it is.
        obtain ⟨rfl, _⟩ := howned.token_eq hold hother hmem hleft rfl
        exact hgone conn hconn htoken
    · obtain hin | ⟨q, other, hother, hleft, _⟩ := hinherits.cancelled token hcancelled
      · exact absurd (h.fresh token hin) (by omega)
      · exact absurd (howned.token_lt hother hleft) (by omega)

/-- Why the write task of a channel has ended: it had before, its write has failed, its token is
cancelled or nobody has its queue any more. -/
theorem writing_step (h : s.Owned) {action : TrafficAction} (ht : s.trafficStep capacity action = some t)
    {i : Nat} (hi : i < s.channels.length) {c' : ChannelTasks} (hc' : t.channels[i]? = some c')
    (hstopped : c'.writing = false) :
    ∃ c, s.channels[i]? = some c ∧ (c.writing = false ∨ action = .channels (.task i .failWrite) ∨
      s.manager.isCancelled c.token = true ∨ s.hasSender c = false) := by
  have hgrown : s.Grows t → ∃ c, s.channels[i]? = some c ∧ c.writing = false := by
    rintro ⟨_, hqueues⟩
    obtain ⟨c, hc, hsame, _⟩ := hqueues i c' hc'
    exact ⟨c, hc, hsame ▸ hstopped⟩
  have hkept : ∀ {channels : List ChannelTasks}, channels[i]? = some c' → channels = s.channels →
      ∃ c, s.channels[i]? = some c ∧ c.writing = false := by
    rintro channels hc' rfl
    exact ⟨c', hc', hstopped⟩
  have hset : ∀ {channel : Nat} {c d : ChannelTasks}, s.channels[channel]? = some c →
      (s.channels.set channel d)[i]? = some c' → d.writing = c.writing →
      ∃ c, s.channels[i]? = some c ∧ c.writing = false := by
    refine fun hc hd hsame => ?_
    have hback := Slots.forall_set (P := fun i d => ∃ c, s.channels[i]? = some c ∧ c.writing = d.writing)
      ⟨_, hc, hsame.symm⟩ (fun j b _ hb => ⟨b, hb, rfl⟩) i c' hd
    obtain ⟨c, hc, hwriting⟩ := hback
    exact ⟨c, hc, hwriting.trans hstopped⟩
  have hbefore : ∀ {P : ChannelTasks → Prop}, (∃ c, s.channels[i]? = some c ∧ c.writing = false) →
      ∃ c, s.channels[i]? = some c ∧ (c.writing = false ∨ P c) :=
    fun ⟨c, hc, hwriting⟩ => ⟨c, hc, .inl hwriting⟩
  cases action with
  | channels action =>
    cases step_effect ht with
    | idle | disconnect | cancelShutdownToken | shutdown => exact hbefore (hkept hc' rfl)
    | register | registerDataChannel =>
      obtain hold | ⟨rfl, _⟩ := Slots.getElem?_concat_cases hc'
      · exact hbefore ⟨c', hold, hstopped⟩
      · exact absurd hi (Nat.lt_irrefl _)
    | enqueue => exact hbefore (hgrown (grows_sendToPeer ht))
    | leaveLoop hc | write hc | cleanup hc | check hc | clear hc => exact hbefore (hset hc hc' rfl)
    | @endWrite channel taskAction c hc hcause =>
      obtain rfl | hne := eq_or_ne channel i
      · exact ⟨c, hc, .inr (by simpa using hcause)⟩
      · rw [setChannel, List.getElem?_set_ne hne] at hc'
        exact hbefore ⟨c', hc', hstopped⟩
  | broadcast packet exclude =>
    cases ht
    exact hbefore (hgrown h.grows_broadcast)
  | setShouldReconnect | updateLastSeen | updateRtt =>
    cases ht
    exact hbefore (hkept hc' rfl)

/-- A channel that comes into the map starts with a write task. -/
theorem Owned.writing_of_new (h : s.Owned) {action : TrafficAction}
    (ht : s.trafficStep capacity action = some t) {p : PeerId} {conn : PeerConnection}
    (hconn : t.manager.connections.lookup p = some conn) {token : Token}
    (htoken : token ∈ PeerConnection.tokens conn) (hnew : token.generation = s.manager.nextGeneration)
    (hnext : s.manager.nextGeneration < t.manager.nextGeneration) {c : ChannelTasks}
    (hc : t.channels[token.generation]? = some c) : c.writing = true := by
  have hopened : ∀ d : ChannelTasks, (s.channels ++ [d])[token.generation]? = some c → d = c := by
    intro d hd
    rw [hnew, ← h.length, List.getElem?_concat_length] at hd
    exact Option.some.inj hd
  cases action with
  | channels action =>
    cases step_effect ht with
    | register => rw [← hopened _ hc]; rfl
    | @registerDataChannel peerId =>
      rw [← hopened _ hc]
      split
      · rfl
      · next hmissing =>
        have hnone : s.manager.connections.lookup peerId = none := AList.lookup_eq_none.mpr hmissing
        have hold : s.manager.connections.lookup p = some conn := by
          simpa [dataRegistered, TransportManager.registerDataChannel, hnone] using hconn
        exact absurd hnew (h.token_lt hold htoken).ne
    | disconnect | cleanup => exact absurd (hnext.trans_eq tearDown_nextGeneration) (Nat.lt_irrefl _)
    | clear => exact absurd (hnext.trans_eq modify_nextGeneration) (Nat.lt_irrefl _)
    | _ => exact absurd hnext (Nat.lt_irrefl _)
  | broadcast packet exclude =>
    cases ht
    exact absurd hnext (Nat.lt_irrefl _)
  | setShouldReconnect | updateLastSeen | updateRtt =>
    cases ht
    exact absurd (hnext.trans_eq modify_nextGeneration) (Nat.lt_irrefl _)

theorem shutdownCancelled_step {action : TrafficAction} (ht : s.trafficStep capacity action = some t) :
    (action = .channels .cancelShutdownToken ∧ t.manager.shutdownCancelled = true) ∨
      t.manager.shutdownCancelled = s.manager.shutdownCancelled := by
  cases action with
  | channels action =>
    cases step_effect ht with
    | cancelShutdownToken => exact .inl ⟨rfl, rfl⟩
    | registerDataChannel => exact .inr registerDataChannel_shutdownCancelled
    | disconnect | cleanup => exact .inr tearDown_shutdownCancelled
    | clear => exact .inr modify_shutdownCancelled
    | _ => exact .inr rfl
  | broadcast packet exclude =>
    cases ht
    exact .inr rfl
  | setShouldReconnect | updateLastSeen | updateRtt =>
    cases ht
    exact .inr modify_shutdownCancelled

end Channels

namespace Departure

open Channels TransportManager

variable {capacity : Nat} {postcard : Postcard} {maxMessageSize : UInt32} {s t : Departure}
  {action : Action} {channels : Channels}

/-- What the queue of a channel has taken is written, or still in the queue of a write task that goes
on. -/
structure Accounted (s : Departure) : Prop where
  fresh : ∀ i, s.channels.channels.length ≤ i → s.accepted i = [] ∧ s.written i = []
  running : ∀ (i : Nat) (c : ChannelTasks), s.channels.channels[i]? = some c → c.writing = true →
    s.accepted i = s.written i ++ c.queue

theorem queueOf_of_some {s : Channels} {i : Nat} {c : ChannelTasks} (hc : s.channels[i]? = some c) :
    s.queueOf i = c.queue := by
  simp [queueOf, hc]

theorem Accounted.sent (h : Accounted s) (hgrows : s.channels.Grows channels) :
    Accounted (s.sent channels) := by
  obtain ⟨hlength, hqueues⟩ := hgrows
  refine ⟨?_, ?_⟩
  · intro i hi
    obtain ⟨haccepted, hwritten⟩ := h.fresh i (hlength ▸ hi)
    have hnone : channels.channels[i]? = none := List.getElem?_eq_none hi
    exact ⟨by simp [Departure.sent, haccepted, queueOf, hnone], hwritten⟩
  · intro i c' hc' hwriting
    obtain ⟨c, hc, hsame, more, hqueue⟩ := hqueues i c' hc'
    have hbefore := h.running i c hc (hsame ▸ hwriting)
    have hafter : channels.queueOf i = c.queue ++ more := (queueOf_of_some hc').trans hqueue
    simp [Departure.sent, queueOf_of_some hc, hafter, hbefore, hqueue]

theorem Accounted.wrote (h : Accounted s) {channel : Nat}
    (ht : s.channels.trafficStep capacity (.channels (.task channel .write)) = some channels) :
    Accounted (s.wrote channel channels) := by
  simp only [trafficStep, Channels.step, taskStep] at ht
  split at ht
  · next c hc =>
    split at ht
    · next packet rest hwriting hqueue =>
      cases ht
      refine ⟨?_, ?_⟩
      · intro i hi
        have hle : s.channels.channels.length ≤ i := by
          simpa [Departure.wrote, Channels.setChannel] using hi
        have hne : i ≠ channel := by
          rintro rfl
          exact absurd (List.getElem?_eq_some_iff.mp hc).1 (Nat.not_lt.mpr hle)
        simpa [Departure.wrote, hne] using h.fresh i hle
      · refine Slots.forall_set ?_ fun i d hne hd hwriting => ?_
        · intro _
          simp [Departure.wrote, queueOf_of_some hc, hqueue, h.running channel c hc hwriting]
        · simpa [Departure.wrote, hne] using h.running i d hd hwriting
    · cases ht
  · cases ht

theorem Accounted.of_keepsQueues (h : Accounted s) (phase : ShutdownPhase)
    (hkept : KeepsQueues s.channels.channels channels.channels) : Accounted { s with channels, phase } := by
  refine ⟨fun i hi => h.fresh i (hkept.1.trans hi), ?_⟩
  intro i c' hc' hwriting
  obtain ⟨c, hc, hrunning, hqueue⟩ | ⟨hi, hqueue⟩ := hkept.2 i c' hc' hwriting
  · rw [hqueue]
    exact h.running i c hc hrunning
  · obtain ⟨haccepted, hwritten⟩ := h.fresh i hi
    simp [haccepted, hwritten, hqueue]

theorem step_traffic {traffic : TrafficAction}
    (ht : s.step capacity postcard maxMessageSize (.traffic traffic) = some t) :
    s.channels.trafficStep capacity traffic = some t.channels ∧
      ((s.channels.Owned → s.channels.Grows t.channels) ∧ t = s.sent t.channels ∨
        (∃ i, traffic = .channels (.task i .write) ∧ t = s.wrote i t.channels) ∨
        KeepsQueues s.channels.channels t.channels.channels ∧ t = { s with channels := t.channels }) := by
  cases traffic with
  | channels action =>
    cases action with
    | cancelShutdownToken | shutdown => cases ht
    | sendToPeer peerId packet =>
      obtain ⟨channels, hchannels, rfl⟩ := Option.map_eq_some_iff.mp ht
      exact ⟨hchannels, .inl ⟨fun _ => grows_sendToPeer hchannels, rfl⟩⟩
    | task i action =>
      cases action with
      | write =>
        obtain ⟨channels, hchannels, rfl⟩ := Option.map_eq_some_iff.mp ht
        exact ⟨hchannels, .inr (.inl ⟨i, rfl, rfl⟩)⟩
      | _ =>
        obtain ⟨channels, hchannels, rfl⟩ := Option.map_eq_some_iff.mp ht
        exact ⟨hchannels, .inr (.inr ⟨keepsQueues_step hchannels nofun nofun, rfl⟩)⟩
    | _ =>
      simp only [step] at ht
      obtain ⟨channels, hchannels, rfl⟩ := Option.map_eq_some_iff.mp ht
      exact ⟨hchannels, .inr (.inr ⟨keepsQueues_step hchannels nofun nofun, rfl⟩)⟩
  | broadcast packet exclude =>
    cases ht
    exact ⟨rfl, .inl ⟨fun howned => howned.grows_broadcast, rfl⟩⟩
  | setShouldReconnect | updateLastSeen | updateRtt =>
    cases ht
    exact ⟨rfl, .inr (.inr ⟨.refl _, rfl⟩)⟩

/-- A step is one of the channels, and a failing write is one of `FailsWrite`, or it leaves them. -/
theorem step_channels (ht : s.step capacity postcard maxMessageSize action = some t) :
    t.channels = s.channels ∨ ∃ traffic, s.channels.trafficStep capacity traffic = some t.channels ∧
      ∀ i, traffic = .channels (.task i .failWrite) → FailsWrite i s action := by
  cases action with
  | traffic traffic =>
    exact .inr ⟨traffic, (step_traffic ht).1, fun i hi => by rw [hi]; rfl⟩
  | broadcastPeerLeave =>
    simp only [step] at ht
    split_ifs at ht
    split at ht
    · next packet _ =>
      cases ht
      exact .inr ⟨.broadcast packet none, rfl, nofun⟩
    · cases ht
      exact .inl rfl
  | findEmpty | reachDeadline =>
    simp only [step] at ht
    split_ifs at ht
    cases ht
    exact .inl rfl
  | cancelShutdownToken =>
    simp only [step] at ht
    split_ifs at ht
    obtain ⟨channels, hchannels, rfl⟩ := Option.map_eq_some_iff.mp ht
    exact .inr ⟨.channels .cancelShutdownToken, hchannels, nofun⟩
  | shutdown =>
    simp only [step] at ht
    split_ifs at ht
    obtain ⟨channels, hchannels, rfl⟩ := Option.map_eq_some_iff.mp ht
    exact .inr ⟨.channels .shutdown, hchannels, nofun⟩

theorem Accounted.step (h : Accounted s) (howned : s.channels.Owned)
    (ht : s.step capacity postcard maxMessageSize action = some t) : Accounted t := by
  cases action with
  | traffic traffic =>
    obtain ⟨hchannels, ⟨hgrows, heq⟩ | ⟨i, rfl, heq⟩ | ⟨hkept, heq⟩⟩ := step_traffic ht
    · rw [heq]
      exact h.sent (hgrows howned)
    · rw [heq]
      exact h.wrote hchannels
    · rw [heq]
      exact h.of_keepsQueues s.phase hkept
  | broadcastPeerLeave =>
    simp only [Departure.step] at ht
    split_ifs at ht
    split at ht
    · cases ht
      exact ⟨(h.sent howned.grows_broadcast).fresh, (h.sent howned.grows_broadcast).running⟩
    · cases ht
      exact ⟨h.fresh, h.running⟩
  | findEmpty | reachDeadline =>
    simp only [Departure.step] at ht
    split_ifs at ht
    cases ht
    exact ⟨h.fresh, h.running⟩
  | cancelShutdownToken | shutdown =>
    simp only [Departure.step] at ht
    split_ifs at ht
    cases ht
    exact h.of_keepsQueues _ (.refl _)

/-- Before `shutdown` cancels anything, only a failed write ends the write task of a channel in the
map. -/
structure Kept (capacity : Nat) (postcard : Postcard) (maxMessageSize : UInt32) (start : Departure)
    (acts : List Action) (s : Departure) : Prop where
  owned : s.channels.Owned
  live : Live s.channels.manager
  accounted : Accounted s
  uncancelled : s.phase ≠ .cancelled → s.phase ≠ .closed → s.channels.manager.shutdownCancelled = false
  failed : s.channels.manager.shutdownCancelled = false → ∀ p conn,
    s.channels.manager.connections.lookup p = some conn → ∀ token ∈ PeerConnection.tokens conn,
      ∀ c, s.channels.channels[token.generation]? = some c → c.writing = false →
        Occurs (step capacity postcard maxMessageSize) (FailsWrite token.generation) start acts

theorem uncancelled_step (h : s.phase ≠ .cancelled → s.phase ≠ .closed →
      s.channels.manager.shutdownCancelled = false)
    (ht : s.step capacity postcard maxMessageSize action = some t) :
    t.phase ≠ .cancelled → t.phase ≠ .closed → t.channels.manager.shutdownCancelled = false := by
  cases action with
  | traffic traffic =>
    obtain ⟨hchannels, hcases⟩ := step_traffic ht
    have hphase : t.phase = s.phase := by
      obtain ⟨_, heq⟩ | ⟨_, _, heq⟩ | ⟨_, heq⟩ := hcases <;> rw [heq] <;> rfl
    obtain ⟨rfl, _⟩ | hsame := shutdownCancelled_step hchannels
    · cases ht
    · rwa [hphase, hsame]
  | broadcastPeerLeave =>
    simp only [step] at ht
    split_ifs at ht with hrunning
    have hbefore := h (by simp [hrunning]) (by simp [hrunning])
    split at ht <;> cases ht <;> exact fun _ _ => hbefore
  | findEmpty =>
    simp only [step] at ht
    split_ifs at ht with hdraining
    cases ht
    exact fun _ _ => h (by simp [hdraining.1]) (by simp [hdraining.1])
  | reachDeadline =>
    simp only [step] at ht
    split_ifs at ht with hdraining
    cases ht
    exact fun _ _ => h (by simp [hdraining]) (by simp [hdraining])
  | cancelShutdownToken =>
    simp only [step] at ht
    split_ifs at ht
    cases ht
    exact fun hphase => absurd rfl hphase
  | shutdown =>
    simp only [step] at ht
    split_ifs at ht
    cases ht
    exact fun _ hphase => absurd rfl hphase

variable {start : Departure} {front acts : List Action}

theorem Kept.failed_step (h : Kept capacity postcard maxMessageSize start front s)
    {traffic : TrafficAction} (ht : s.channels.trafficStep capacity traffic = some t.channels)
    (hrunning : t.channels.manager.shutdownCancelled = false) {p : PeerId} {conn : PeerConnection}
    (hconn : t.channels.manager.connections.lookup p = some conn) {token : Token}
    (htoken : token ∈ PeerConnection.tokens conn) {c' : ChannelTasks}
    (hc' : t.channels.channels[token.generation]? = some c') (hstopped : c'.writing = false) :
    Occurs (step capacity postcard maxMessageSize) (FailsWrite token.generation) start front ∨
      traffic = .channels (.task token.generation .failWrite) := by
  have hbefore : s.channels.manager.shutdownCancelled = false := by
    obtain ⟨_, hcancelled⟩ | hsame := shutdownCancelled_step ht
    · cases hrunning.symm.trans hcancelled
    · rwa [← hsame]
  obtain ⟨old, hold, hmem⟩ | ⟨hnew, hnext⟩ := (h.owned.inherits ht).tokens p conn hconn token htoken
  · obtain ⟨found, hfound, rfl, rfl⟩ := (h.owned.entries p old hold).2 token hmem
    have hlt := (List.getElem?_eq_some_iff.mp hfound).1
    obtain ⟨c, hc, hcause⟩ := writing_step h.owned ht hlt hc' hstopped
    obtain rfl : found = c := Option.some.inj (hfound.symm.trans hc)
    obtain hstopped | hfails | hcancelled | hclosed := hcause
    · exact .inl (h.failed hbefore _ old hold _ hmem found hfound hstopped)
    · exact .inr hfails
    · -- The token is in the map, so it is not cancelled.
      have hlive := h.live.live _ old hold _ hmem
      cases hbefore.symm.trans (shutdownCancelled_of_isCancelled hcancelled hlive)
    · have hsender : s.channels.hasSender found = true := by
        simp only [hasSender, hold]
        exact decide_eq_true hmem
      cases hclosed.symm.trans hsender
  · cases hstopped.symm.trans (h.owned.writing_of_new ht hconn htoken hnew hnext hc')

theorem Kept.step (h : Kept capacity postcard maxMessageSize start front s)
    (hrun : run (step capacity postcard maxMessageSize) start front = some s)
    (ht : s.step capacity postcard maxMessageSize action = some t) :
    Kept capacity postcard maxMessageSize start (front ++ [action]) t := by
  have haccounted := h.accounted.step h.owned ht
  have huncancelled := uncancelled_step h.uncancelled ht
  obtain hsame | ⟨traffic, htraffic, hfails⟩ := step_channels ht
  · refine ⟨hsame ▸ h.owned, hsame ▸ h.live, haccounted, huncancelled, ?_⟩
    intro hrunning p conn hconn token htoken c hc hstopped
    rw [hsame] at hrunning hconn hc
    exact (occurs_concat_iff hrun).mpr (.inl (h.failed hrunning p conn hconn token htoken c hc hstopped))
  · refine ⟨h.owned.trafficStep htraffic, h.live.of_inherits h.owned (h.owned.inherits htraffic),
      haccounted, huncancelled, ?_⟩
    intro hrunning p conn hconn token htoken c hc hstopped
    refine (occurs_concat_iff hrun).mpr ?_
    exact (h.failed_step htraffic hrunning hconn htoken hc hstopped).imp_right (hfails _)

/-- The write task of a channel in the map goes on unless a write of it has failed. -/
theorem Kept.writing (h : Kept capacity postcard maxMessageSize start front s)
    (hphase : s.phase ≠ .cancelled ∧ s.phase ≠ .closed) {p : PeerId} {conn : PeerConnection}
    (hconn : s.channels.manager.connections.lookup p = some conn) {token : Token}
    (htoken : token ∈ PeerConnection.tokens conn)
    (hwrites : ¬ Occurs (Departure.step capacity postcard maxMessageSize) (FailsWrite token.generation)
      start front) :
    ∃ c, s.channels.channels[token.generation]? = some c ∧ c.writing = true := by
  obtain ⟨c, hc, _⟩ := (h.owned.entries p conn hconn).2 token htoken
  refine ⟨c, hc, ?_⟩
  by_contra hstopped
  have hrunning := h.uncancelled hphase.1 hphase.2
  exact hwrites (h.failed hrunning p conn hconn token htoken c hc (Bool.not_eq_true _ ▸ hstopped))

end Departure

end MetaMystia

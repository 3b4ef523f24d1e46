import MetaMystia.Library.Mailboxes
import MetaMystia.Transport.ChannelOwners

/-! # A broadcast and single sends

`send_to_peer` and `broadcast` choose the queue of a peer and map the errors of
`try_send` each on its own, and only `broadcast` looks at the status of the entry.
They agree because every entry in the map is Connected and no two entries share a
queue.
-/

namespace MetaMystia

open Runs

namespace Channels

open TransportManager

/-- `try_send` at one queue: a queue without its write task is closed. -/
def trySendPacket (capacity : Nat) (packet : RawPacket) (c : ChannelTasks) :
    Except MessageError ChannelTasks :=
  if !c.writing then .error (.connectionFailed "send channel closed")
  else if c.queue.length < capacity then .ok { c with queue := c.queue ++ [packet] }
  else .error .sendQueueFull

/-- One `try_send`, at the queue with this number. -/
def sendAt (capacity : Nat) (packet : RawPacket) (s : Channels) (queue : Nat) :
    Channels × Except MessageError Unit :=
  let sent := Mailboxes.put (trySendPacket capacity packet)
    (.connectionFailed "send channel closed") s.channels queue
  ({ s with channels := sent.1 }, sent.2)

/-- The loop over the targets, with the errors it collects. -/
def sendAll (capacity : Nat) (packet : RawPacket) (s : Channels) (targets : List (PeerId × Nat)) :
    Channels × List (PeerId × MessageError) :=
  let sent := Mailboxes.putAll (trySendPacket capacity packet)
    (.connectionFailed "send channel closed") s.channels targets
  ({ s with channels := sent.1 }, sent.2)

def sendToPeer (capacity : Nat) (s : Channels) (peerId : PeerId) (packet : RawPacket) :
    Channels × Except MessageError Unit :=
  match s.manager.connections.lookup peerId with
  | none => (s, .error (.peerNotFound peerId))
  | some conn =>
    let tx := if packet.isInternal then Token.control conn.controlCancel
      else (conn.dataCancel.map Token.data).getD (.control conn.controlCancel)
    s.sendAt capacity packet tx.generation

def broadcast (capacity : Nat) (s : Channels) (packet : RawPacket) (exclude : Option (List PeerId)) :
    Channels × List (PeerId × MessageError) :=
  let useData := !packet.isInternal
  let targets := (s.manager.connections.entries.filter fun entry =>
      entry.2.info.status == .connected &&
        !(exclude.any fun excluded => excluded.contains entry.1)).map fun entry =>
    let tx := if useData then
        (entry.2.dataCancel.map Token.data).getD (.control entry.2.controlCancel)
      else Token.control entry.2.controlCancel
    (entry.1, tx.generation)
  s.sendAll capacity packet targets

/-- `send_to_peer` for each of the peers in turn, and the peers for which it failed. -/
def sendEach (capacity : Nat) (packet : RawPacket) (s : Channels) :
    List PeerId → Channels × List (PeerId × MessageError)
  | [] => (s, [])
  | peerId :: rest =>
    let (next, result) := s.sendToPeer capacity peerId packet
    let (last, errors) := next.sendEach capacity packet rest
    match result with
    | .ok _ => (last, errors)
    | .error e => (last, (peerId, e) :: errors)

/-- The peers in the map that the exclude list leaves. -/
def recipients (s : Channels) (exclude : Option (List PeerId)) : List PeerId :=
  s.manager.connections.keys.filter fun peerId =>
    !(exclude.any fun excluded => excluded.contains peerId)

/-- The queue that takes the packet for a peer of the map. -/
def target (m : TransportManager) (packet : RawPacket) (peerId : PeerId) : PeerId × Nat :=
  (peerId, ((m.connections.lookup peerId).map fun conn => (conn.queueFor packet).generation).getD 0)

variable {s t : Channels} {capacity : Nat} {packet : RawPacket} {exclude : Option (List PeerId)}
  {peerId : PeerId} {conn : PeerConnection}

theorem target_of_lookup {m : TransportManager} (hconn : m.connections.lookup peerId = some conn) :
    target m packet peerId = (peerId, (conn.queueFor packet).generation) := by
  rw [target, hconn]
  rfl

theorem sendToPeer_eq (hmem : peerId ∈ s.manager.connections) :
    s.sendToPeer capacity peerId packet = s.sendAt capacity packet (target s.manager packet peerId).2 := by
  obtain ⟨conn, hconn⟩ := Assoc.exists_lookup_of_mem hmem
  rw [target_of_lookup hconn, sendToPeer, hconn]
  rfl

theorem sendAll_cons (target : PeerId × Nat) (rest : List (PeerId × Nat)) :
    s.sendAll capacity packet (target :: rest) =
      let (next, result) := s.sendAt capacity packet target.2
      let (last, errors) := next.sendAll capacity packet rest
      match result with
      | .ok _ => (last, errors)
      | .error e => (last, (target.1, e) :: errors) := by
  simp only [sendAll, sendAt, Mailboxes.putAll]
  cases (Mailboxes.put (trySendPacket capacity packet) (.connectionFailed "send channel closed")
    s.channels target.2).2 <;> rfl

theorem sendEach_eq {peers : List PeerId} (hpeers : ∀ p ∈ peers, p ∈ s.manager.connections) :
    s.sendEach capacity packet peers =
      s.sendAll capacity packet (peers.map (target s.manager packet)) := by
  induction peers generalizing s with
  | nil => rfl
  | cons p rest ih =>
    obtain ⟨hp, hrest⟩ := List.forall_mem_cons.mp hpeers
    have hlater := ih (s := (s.sendAt capacity packet (target s.manager packet p).2).1) hrest
    rw [sendEach, sendToPeer_eq hp, List.map_cons, sendAll_cons]
    simp only [hlater]
    rfl

theorem lookup_of_broadcastTargets {entry : Sigma fun _ : PeerId => PeerConnection}
    (hentry : entry ∈ s.manager.broadcastTargets exclude) :
    s.manager.connections.lookup entry.1 = some entry.2 :=
  AList.mem_lookup_iff.mpr (List.mem_filter.mp hentry).1

/-- The loop of a broadcast goes over the recipients: all entries are Connected. -/
theorem Owned.targets_eq (h : s.Owned) :
    (s.manager.broadcastTargets exclude).map (fun entry => target s.manager packet entry.1) =
      (s.recipients exclude).map (target s.manager packet) := by
  have hkeys : s.manager.connections.keys = s.manager.connections.entries.map Sigma.fst := rfl
  have hfilter : s.manager.broadcastTargets exclude = s.manager.connections.entries.filter
      ((fun p => !(exclude.any fun excluded => excluded.contains p)) ∘ Sigma.fst) := by
    apply List.filter_congr
    intro entry hentry
    have hstatus := (h.entries entry.1 entry.2 (AList.mem_lookup_iff.mpr hentry)).1
    simp [hstatus]
  rw [hfilter, recipients, hkeys, List.filter_map, List.map_map]
  rfl

theorem broadcast_eq (h : s.Owned) :
    s.broadcast capacity packet exclude =
      s.sendAll capacity packet ((s.recipients exclude).map (target s.manager packet)) := by
  rw [← h.targets_eq]
  refine congrArg (sendAll capacity packet s) (List.map_congr_left ?_)
  intro entry hentry
  rw [target_of_lookup (lookup_of_broadcastTargets hentry), PeerConnection.queueFor]
  cases packet.isInternal <;> rfl

theorem mem_recipients {p : PeerId} :
    p ∈ s.recipients exclude ↔
      p ∈ s.manager.connections ∧ ∀ excluded ∈ exclude, p ∉ excluded := by
  cases exclude <;> simp [recipients, AList.mem_keys]

/-- No two recipients share a queue. -/
theorem Owned.nodup_targets (h : s.Owned) :
    (((s.recipients exclude).map (target s.manager packet)).map Prod.snd).Nodup := by
  rw [List.map_map]
  refine List.Nodup.map_on ?_ (s.manager.connections.keys_nodup.filter _)
  intro p hp q hq heq
  obtain ⟨c, hc⟩ := Assoc.exists_lookup_of_mem (mem_recipients.mp hp).1
  obtain ⟨d, hd⟩ := Assoc.exists_lookup_of_mem (mem_recipients.mp hq).1
  rw [Function.comp_apply, Function.comp_apply, target_of_lookup hc, target_of_lookup hd] at heq
  exact (h.token_eq hc hd (queueFor_mem_tokens c packet) (queueFor_mem_tokens d packet) heq).1

/-- A queue that the loop changes takes the packet for some recipient. -/
theorem Owned.taken_of_changed (h : s.Owned) {i : Nat}
    (hchanged : (s.broadcast capacity packet exclude).1.channels[i]? ≠ s.channels[i]?) :
    ∃ p conn, p ∈ s.recipients exclude ∧ s.manager.connections.lookup p = some conn ∧
      i = (conn.queueFor packet).generation := by
  rw [broadcast_eq h] at hchanged
  have hmem : i ∈ ((s.recipients exclude).map (target s.manager packet)).map Prod.snd := by
    by_contra hno
    exact hchanged (Mailboxes.getElem?_putAll_of_notMem _ _ hno)
  rw [List.map_map] at hmem
  obtain ⟨p, hp, hi⟩ := List.mem_map.mp hmem
  obtain ⟨conn, hconn⟩ := Assoc.exists_lookup_of_mem (mem_recipients.mp hp).1
  rw [Function.comp_apply, target_of_lookup hconn] at hi
  exact ⟨p, conn, hp, hconn, hi.symm⟩

/-- What a broadcast and one send for each recipient have in common. -/
structure OneSendPerPeer (s : Channels) (capacity : Nat) (packet : RawPacket)
    (exclude : Option (List PeerId)) : Prop where
  queues : ∀ peers, peers.Perm (s.recipients exclude) →
    (s.sendEach capacity packet peers).1 = (s.broadcast capacity packet exclude).1
  errors : ∀ peers, peers.Perm (s.recipients exclude) →
    (s.sendEach capacity packet peers).2.Perm (s.broadcast capacity packet exclude).2
  failures : ∀ p e, (p, e) ∈ (s.broadcast capacity packet exclude).2 ↔
    p ∈ s.recipients exclude ∧ (s.sendToPeer capacity p packet).2 = .error e
  once : ((s.broadcast capacity packet exclude).2.map Prod.fst).Nodup
  excluded : ∀ excluded ∈ exclude, ∀ p ∈ excluded,
    ∀ conn ∈ s.manager.connections.lookup p, ∀ token ∈ PeerConnection.tokens conn,
      (s.broadcast capacity packet exclude).1.channels[token.generation]? =
        s.channels[token.generation]?
  internal : packet.isInternal = true → ∀ (i : Nat) (c : ChannelTasks), s.channels[i]? = some c →
    c.token = .data i → (s.broadcast capacity packet exclude).1.channels[i]? = some c
  user : packet.isInternal = false → ∀ (i : Nat) (c : ChannelTasks), s.channels[i]? = some c →
    c.token = .control i → (s.broadcast capacity packet exclude).1.channels[i]? ≠ some c →
    ∃ conn, s.manager.connections.lookup c.peerId = some conn ∧ conn.controlCancel = i ∧
      conn.dataCancel = none

theorem Owned.queues (h : s.Owned) {peers : List PeerId} (hperm : peers.Perm (s.recipients exclude)) :
    (s.sendEach capacity packet peers).1 = (s.broadcast capacity packet exclude).1 := by
  have hpeers : ∀ p ∈ peers, p ∈ s.manager.connections :=
    fun p hp => (mem_recipients.mp (hperm.subset hp)).1
  rw [sendEach_eq hpeers, broadcast_eq h, sendAll, sendAll]
  simp only [Mailboxes.putAll_fst_perm _ _ (hperm.map (target s.manager packet))]

theorem Owned.broadcast_errors (h : s.Owned) :
    (s.broadcast capacity packet exclude).2 =
      ((s.recipients exclude).map (target s.manager packet)).filterMap
        (Mailboxes.failure (trySendPacket capacity packet)
          (.connectionFailed "send channel closed") s.channels) := by
  rw [broadcast_eq h]
  exact Mailboxes.putAll_snd _ _ h.nodup_targets

theorem Owned.errors (h : s.Owned) {peers : List PeerId} (hperm : peers.Perm (s.recipients exclude)) :
    (s.sendEach capacity packet peers).2.Perm (s.broadcast capacity packet exclude).2 := by
  have hpeers : ∀ p ∈ peers, p ∈ s.manager.connections :=
    fun p hp => (mem_recipients.mp (hperm.subset hp)).1
  have htargets := hperm.map (target s.manager packet)
  have hnodup : ((peers.map (target s.manager packet)).map Prod.snd).Nodup :=
    (htargets.map Prod.snd).nodup_iff.mpr h.nodup_targets
  have hfailures : (s.sendEach capacity packet peers).2 =
      (peers.map (target s.manager packet)).filterMap
        (Mailboxes.failure (trySendPacket capacity packet)
          (.connectionFailed "send channel closed") s.channels) := by
    rw [sendEach_eq hpeers]
    exact Mailboxes.putAll_snd _ _ hnodup
  rw [hfailures, h.broadcast_errors]
  exact htargets.filterMap _

theorem failure_eq_some_iff {p q : PeerId} {e : MessageError} (hmem : q ∈ s.manager.connections) :
    Mailboxes.failure (trySendPacket capacity packet) (.connectionFailed "send channel closed")
        s.channels (target s.manager packet q) = some (p, e) ↔
      q = p ∧ (s.sendToPeer capacity q packet).2 = .error e := by
  rw [sendToPeer_eq hmem, Mailboxes.failure, sendAt]
  cases hresult : (Mailboxes.put (trySendPacket capacity packet)
    (.connectionFailed "send channel closed") s.channels (target s.manager packet q).2).2 <;>
    simp [target]

theorem Owned.failures (h : s.Owned) (p : PeerId) (e : MessageError) :
    (p, e) ∈ (s.broadcast capacity packet exclude).2 ↔
      p ∈ s.recipients exclude ∧ (s.sendToPeer capacity p packet).2 = .error e := by
  rw [h.broadcast_errors, List.mem_filterMap]
  constructor
  · rintro ⟨_, htarget, hfails⟩
    obtain ⟨q, hq, rfl⟩ := List.mem_map.mp htarget
    obtain ⟨rfl, hsend⟩ := (failure_eq_some_iff (mem_recipients.mp hq).1).mp hfails
    exact ⟨hq, hsend⟩
  · rintro ⟨hp, hsend⟩
    exact ⟨_, List.mem_map_of_mem hp,
      (failure_eq_some_iff (mem_recipients.mp hp).1).mpr ⟨rfl, hsend⟩⟩

theorem Owned.once (h : s.Owned) : ((s.broadcast capacity packet exclude).2.map Prod.fst).Nodup := by
  rw [h.broadcast_errors, List.map_filterMap, List.filterMap_map]
  refine List.Nodup.filterMap ?_ (s.manager.connections.keys_nodup.filter _)
  have hkey : ∀ p q, q ∈ ((Mailboxes.failure (trySendPacket capacity packet)
      (.connectionFailed "send channel closed") s.channels (target s.manager packet p)).map Prod.fst) →
      q = p := by
    intro p q hq
    obtain ⟨error, herror, rfl⟩ := Option.map_eq_some_iff.mp hq
    exact Mailboxes.fst_of_failure _ _ herror
  intro p q b hp hq
  exact (hkey p b hp).symm.trans (hkey q b hq)

theorem Owned.excluded (h : s.Owned) {excluded : List PeerId} (hexclude : excluded ∈ exclude)
    {p : PeerId} (hp : p ∈ excluded) (hconn : conn ∈ s.manager.connections.lookup p) {token : Token}
    (htoken : token ∈ PeerConnection.tokens conn) :
    (s.broadcast capacity packet exclude).1.channels[token.generation]? =
      s.channels[token.generation]? := by
  by_contra hchanged
  obtain ⟨q, other, hq, hother, heq⟩ := h.taken_of_changed hchanged
  have hsame := h.token_eq hconn hother htoken (queueFor_mem_tokens other packet) heq
  exact (mem_recipients.mp hq).2 excluded hexclude (hsame.1 ▸ hp)

/-- A queue that takes the packet has the token that `send_to_peer` chooses. -/
theorem Owned.token_of_changed (h : s.Owned) {i : Nat} {c : ChannelTasks}
    (hc : s.channels[i]? = some c)
    (hchanged : (s.broadcast capacity packet exclude).1.channels[i]? ≠ some c) :
    ∃ conn, s.manager.connections.lookup c.peerId = some conn ∧ c.token = conn.queueFor packet := by
  obtain ⟨p, conn, _, hconn, rfl⟩ := h.taken_of_changed (hc ▸ hchanged)
  obtain ⟨found, hfound, hpeer, htoken⟩ :=
    (h.entries p conn hconn).2 (conn.queueFor packet) (queueFor_mem_tokens conn packet)
  obtain rfl : found = c := Option.some.inj (hfound.symm.trans hc)
  exact ⟨conn, hpeer ▸ hconn, htoken⟩

theorem Owned.oneSendPerPeer (h : s.Owned) (capacity : Nat) (packet : RawPacket)
    (exclude : Option (List PeerId)) : s.OneSendPerPeer capacity packet exclude where
  queues _ hperm := h.queues hperm
  errors _ hperm := h.errors hperm
  failures := h.failures
  once := h.once
  excluded _ hexclude _ hp _ hconn _ htoken := h.excluded hexclude hp hconn htoken
  internal hinternal i c hc htoken := by
    by_contra hchanged
    obtain ⟨conn, _, hqueue⟩ := h.token_of_changed hc hchanged
    rw [htoken, PeerConnection.queueFor, if_pos hinternal] at hqueue
    cases hqueue
  user huser i c hc htoken hchanged := by
    obtain ⟨conn, hconn, hqueue⟩ := h.token_of_changed hc hchanged
    refine ⟨conn, hconn, ?_⟩
    rw [htoken, PeerConnection.queueFor, huser] at hqueue
    cases hdata : conn.dataCancel with
    | none =>
      simp only [hdata] at hqueue
      cases hqueue
      exact ⟨rfl, rfl⟩
    | some g =>
      simp only [hdata] at hqueue
      cases hqueue

theorem sendAt_snd (token : Token) :
    (s.sendAt capacity packet token.generation).2 = s.trySend capacity token := by
  unfold sendAt Mailboxes.put trySend trySendPacket
  cases hc : s.channels[token.generation]? with
  | none => simp
  | some c =>
    cases hwriting : c.writing with
    | false => simp [hwriting]
    | true =>
      by_cases hroom : c.queue.length < capacity
      · simp [hwriting, hroom]
      · simp [hwriting, hroom]

/-- The send of the channels' step function is this one. -/
theorem step_sendToPeer (peerId : PeerId) (packet : RawPacket) :
    s.step capacity (.sendToPeer peerId packet) = some (s.sendToPeer capacity peerId packet).1 := by
  cases hconn : s.manager.connections.lookup peerId with
  | none => simp only [Channels.step, sendToPeer, hconn]
  | some conn =>
    have hmem := Assoc.mem_of_lookup hconn
    rw [sendToPeer_eq hmem, target_of_lookup hconn]
    simp only [Channels.step, TransportManager.sendToPeer, hconn]
    unfold sendAt Mailboxes.put trySend trySendPacket Channels.enqueue
    cases hc : s.channels[(conn.queueFor packet).generation]? with
    | none => simp [Except.map]
    | some c =>
      cases hwriting : c.writing with
      | false => simp [hwriting, Except.map]
      | true =>
        by_cases hroom : c.queue.length < capacity
        · simp [hwriting, hroom, Except.map, setChannel, hc]
        · simp [hwriting, hroom, Except.map]

/-- The errors that a router sees, which asks for the outcome of `try_send` at each queue. -/
theorem Owned.broadcast_snd (h : s.Owned) :
    (s.broadcast capacity packet exclude).2 =
      (s.manager.broadcast (s.trySend capacity) packet exclude).2 := by
  rw [h.broadcast_errors, ← h.targets_eq, List.filterMap_map]
  apply List.filterMap_congr
  intro entry hentry
  rw [Function.comp_apply, target_of_lookup (lookup_of_broadcastTargets hentry), Mailboxes.failure]
  have hsend : (Mailboxes.put (trySendPacket capacity packet) (.connectionFailed "send channel closed")
      s.channels (entry.2.queueFor packet).generation).2 = s.trySend capacity (entry.2.queueFor packet) :=
    sendAt_snd _
  rw [hsend]
  cases s.trySend capacity (entry.2.queueFor packet) <;> rfl

/-- Sends change nothing but queues. -/
theorem origin_settle (c : ChannelTasks) :
    origin (Mailboxes.settle (trySendPacket capacity packet) c) = origin c := by
  unfold Mailboxes.settle trySendPacket
  split_ifs <;> rfl

/-- The steps of the channels, and the calls that touch the map or the queues as a whole. -/
inductive TrafficAction
  | channels (action : Action)
  | broadcast (packet : RawPacket) (exclude : Option (List PeerId))
  | setShouldReconnect (peerId : PeerId) (shouldReconnect : Bool)
  | updateLastSeen (peerId : PeerId) (now : Nat)
  | updateRtt (peerId : PeerId) (rttMs : UInt32) (now : Nat)

def trafficStep (capacity : Nat) (s : Channels) : TrafficAction → Option Channels
  | .channels action => s.step capacity action
  | .broadcast packet exclude => some (s.broadcast capacity packet exclude).1
  | .setShouldReconnect peerId shouldReconnect =>
    some { s with manager := s.manager.setShouldReconnect peerId shouldReconnect }
  | .updateLastSeen peerId now => some { s with manager := s.manager.updateLastSeen peerId now }
  | .updateRtt peerId rttMs now => some { s with manager := s.manager.updateRtt peerId rttMs now }

theorem Owned.broadcast (h : s.Owned) : (s.broadcast capacity packet exclude).1.Owned :=
  h.setChannels (Mailboxes.map_putAll _ _ origin_settle _)

theorem Owned.trafficStep {a : TrafficAction} (h : s.Owned) (ht : s.trafficStep capacity a = some t) :
    t.Owned := by
  cases a with
  | channels action => exact h.step ht
  | broadcast packet exclude =>
    cases ht
    exact h.broadcast
  | setShouldReconnect | updateLastSeen | updateRtt =>
    cases ht
    exact h.modify _ (fun _ => rfl) fun _ => List.Subset.refl _

/-- In every state that the channels and the map reach, whatever is in the queues: a broadcast is
one `send_to_peer` for each peer in the map that is not excluded. -/
theorem broadcast_is_one_send_per_peer {capacity : Nat} {localPeerId : PeerId} {sessionId : String}
    {listenPort : UInt16} {auto : Bool} {acts : List TrafficAction}
    (hrun : run (trafficStep capacity) (start (.new localPeerId sessionId listenPort auto)) acts = some s)
    (packet : RawPacket) (exclude : Option (List PeerId)) :
    s.OneSendPerPeer capacity packet exclude := by
  have hstart := owned_start localPeerId sessionId listenPort auto
  have h : s.Owned := invariant (P := fun _ _ => True) (fun _ _ _ h _ ht => h.trafficStep ht) hstart
    (along_of_forall (fun _ _ => trivial) _ acts) hrun
  exact h.oneSendPerPeer capacity packet exclude

/-- Peer `c` has a data channel whose write task has ended, `b` has none, and `d` is excluded. -/
theorem broadcast_to_mixed_peers :
    let acts : List TrafficAction := [.channels (.register ⟨"b"⟩ "10.0.0.2:4000" 0),
      .channels (.register ⟨"c"⟩ "10.0.0.3:4000" 0), .channels (.registerDataChannel ⟨"c"⟩),
      .channels (.sendToPeer ⟨"c"⟩ userPacket), .channels (.task 2 .failWrite),
      .channels (.register ⟨"d"⟩ "10.0.0.4:4000" 0), .updateLastSeen ⟨"b"⟩ 7]
    ∃ s ∈ run (trafficStep 8) (start (.new ⟨"a"⟩ "room" 4000 true)) acts,
      s.OneSendPerPeer 8 userPacket (some [⟨"d"⟩]) ∧
        (s.broadcast 8 userPacket (some [⟨"d"⟩])).2 =
          [(⟨"c"⟩, .connectionFailed "send channel closed")] := by
  intro acts
  obtain ⟨s, hrun, herrors⟩ : ∃ s ∈ run (trafficStep 8) (start (.new ⟨"a"⟩ "room" 4000 true)) acts,
      (s.broadcast 8 userPacket (some [⟨"d"⟩])).2 =
        [(⟨"c"⟩, .connectionFailed "send channel closed")] := by decide +kernel
  exact ⟨s, hrun, broadcast_is_one_send_per_peer hrun userPacket (some [⟨"d"⟩]), herrors⟩

end Channels

end MetaMystia

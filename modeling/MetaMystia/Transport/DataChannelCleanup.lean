import MetaMystia.Transport.ChannelOwners

/-! # The end of a data channel and its successor

The read task of a data channel clears the slot of its peer's entry at its end. It
asks whether its token was cancelled first, and takes the lock of the map for the
write alone: a channel registered in between cancels the token too late.
-/

namespace MetaMystia

open Runs

namespace TransportManager

/-- `data_cancel` of the peer's entry. -/
def dataSlot (self : TransportManager) (peerId : PeerId) : Option Nat :=
  (self.connections.lookup peerId).bind (·.dataCancel)

variable {self : TransportManager} {peerId peer : PeerId}

theorem dataSlot_tearDown :
    (self.tearDown peerId).dataSlot peer = if peer = peerId then none else self.dataSlot peer := by
  unfold dataSlot
  split_ifs with hpeer
  · rw [hpeer, lookup_tearDown_self]
    rfl
  · rw [lookup_tearDown_of_ne hpeer]

theorem dataSlot_clearDataChannel :
    (self.clearDataChannel peerId).dataSlot peer =
      if peer = peerId then none else self.dataSlot peer := by
  unfold dataSlot clearDataChannel modify
  cases hlookup : self.connections.lookup peerId with
  | none =>
    split_ifs with hpeer
    · rw [hpeer, hlookup]
      rfl
    · rfl
  | some conn =>
    split_ifs with hpeer
    · rw [hpeer, AList.lookup_insert]
      rfl
    · rw [AList.lookup_insert_ne hpeer]

theorem dataSlot_registerDataChannel (hmem : peerId ∈ self.connections) :
    (self.registerDataChannel peerId).dataSlot peer =
      if peer = peerId then some self.nextGeneration else self.dataSlot peer := by
  obtain ⟨conn, hlookup⟩ := Assoc.exists_lookup_of_mem hmem
  unfold dataSlot registerDataChannel
  simp only [hlookup]
  split_ifs with hpeer
  · rw [hpeer, AList.lookup_insert]
    rfl
  · rw [AList.lookup_insert_ne hpeer]

theorem mem_cancelled_registerDataChannel {token : Token} :
    token ∈ (self.registerDataChannel peerId).cancelled ↔
      token ∈ self.cancelled ∨ ∃ g ∈ self.dataSlot peerId, token = .data g := by
  unfold dataSlot registerDataChannel
  cases hlookup : self.connections.lookup peerId with
  | none => simp
  | some conn => cases hdata : conn.dataCancel <;> simp [hdata]

theorem data_mem_cancelled_tearDown {g : Nat} (h : self.dataSlot peerId = some g) :
    .data g ∈ (self.tearDown peerId).cancelled := by
  obtain ⟨conn, hconn, hdata⟩ := Option.bind_eq_some_iff.mp h
  rw [tearDown_cancelled, hconn]
  simp [PeerConnection.tokens, hdata]

theorem data_mem_cancelled_shutdown {g : Nat} (h : self.dataSlot peerId = some g) :
    .data g ∈ self.shutdown.cancelled := by
  obtain ⟨conn, hconn, hdata⟩ := Option.bind_eq_some_iff.mp h
  have hentry := AList.mem_lookup_iff.mp hconn
  refine List.mem_append_right _ (List.mem_flatMap.mpr ⟨_, hentry, ?_⟩)
  simp [PeerConnection.tokens, hdata]

end TransportManager

namespace Channels

open TransportManager

/-- A cleanup that writes finds the slot of its own channel, or an empty one. -/
def ClearsOwnSlot (s : Channels) : Action → Prop
  | .task channel .cleanup => ∀ c ∈ s.channels[channel]?, c.token = .data channel →
      c.readPhase = .clearing → ∀ g ∈ s.manager.dataSlot c.peerId, g = channel
  | _ => True

/-- A data channel that is alive is the one that `send_to_peer` uses. -/
def LiveIsUsed (s : Channels) : Prop :=
  ∀ (channel : Nat) (c : ChannelTasks), s.channels[channel]? = some c → c.token = .data channel →
    c.readPhase = .reading → s.manager.isCancelled c.token = false →
    ∃ conn, s.manager.connections.lookup c.peerId = some conn ∧
      ∀ packet : RawPacket, packet.isInternal = false → conn.queueFor packet = c.token

/-- A data channel is attached to the entry of its peer while no read task of an earlier one is
between its check and its write. -/
def AttachesAlone (s : Channels) : Action → Prop
  | .registerDataChannel peerId => peerId ∈ s.manager.connections →
      ∀ c ∈ s.channels, c.peerId = peerId → c.readPhase ≠ .clearing
  | _ => True

instance (s : Channels) : (a : Action) → Decidable (s.ClearsOwnSlot a)
  | .task _ .cleanup => inferInstanceAs (Decidable (∀ _ ∈ _, _ → _ → ∀ _ ∈ _, _))
  | .register .. | .registerDataChannel _ | .disconnectPeer .. | .cancelShutdownToken | .shutdown
  | .sendToPeer .. | .task _ .endOfStream | .task _ .write | .task _ .failWrite
  | .task _ .stopWriting | .task _ .stopReading => .isTrue trivial

instance (s : Channels) : (a : Action) → Decidable (s.AttachesAlone a)
  | .registerDataChannel _ => inferInstanceAs (Decidable (_ → _))
  | .register .. | .disconnectPeer .. | .cancelShutdownToken | .shutdown | .sendToPeer ..
  | .task .. => .isTrue trivial

structure Serves (m : TransportManager) (channel : Nat) (c : ChannelTasks) : Prop where
  serving : c.token = .data channel → c.readPhase = .reading ∨ c.readPhase = .leftLoop →
    c.token ∉ m.cancelled → m.dataSlot c.peerId = some channel
  clearing : c.readPhase = .clearing → c.token = .data channel ∧
    ∀ g ∈ m.dataSlot c.peerId, g = channel

/-- Until its read task has ended, a channel has the slot of its peer or its token is cancelled. -/
structure Served (s : Channels) : Prop where
  owned : s.Owned
  serves : ∀ (i : Nat) (c : ChannelTasks), s.channels[i]? = some c → Serves s.manager i c

variable {s t : Channels}

theorem Serves.setManager {m next : TransportManager} {i : Nat} {c : ChannelTasks}
    (h : Serves m i c) (hcancelled : m.cancelled ⊆ next.cancelled)
    (hslot : next.dataSlot c.peerId = m.dataSlot c.peerId ∨
      (next.dataSlot c.peerId = none ∧ ∀ g ∈ m.dataSlot c.peerId, .data g ∈ next.cancelled)) :
    Serves next i c := by
  constructor
  · intro htoken hphase hlive
    have hold := h.serving htoken hphase fun hno => hlive (hcancelled hno)
    obtain hsame | ⟨_, hgone⟩ := hslot
    · exact hsame.trans hold
    · exact absurd (htoken ▸ hgone i hold) hlive
  · intro hphase
    obtain ⟨htoken, hown⟩ := h.clearing hphase
    refine ⟨htoken, ?_⟩
    intro g hg
    obtain hsame | ⟨hnone, _⟩ := hslot
    · exact hown g (hsame ▸ hg)
    · cases hnone.symm.trans hg

theorem Served.of_manager (h : s.Served) {m : TransportManager} (howned : Owned { s with manager := m })
    (hcancelled : s.manager.cancelled ⊆ m.cancelled)
    (hslot : ∀ p, m.dataSlot p = s.manager.dataSlot p ∨
      (m.dataSlot p = none ∧ ∀ g ∈ s.manager.dataSlot p, .data g ∈ m.cancelled)) :
    Served { s with manager := m } :=
  ⟨howned, fun i c hc => (h.serves i c hc).setManager hcancelled (hslot c.peerId)⟩

theorem Served.setChannel (h : s.Served) {channel : Nat} {c c' : ChannelTasks}
    (hc : s.channels[channel]? = some c) (hsame : origin c' = origin c)
    (hserves : Serves s.manager channel c → Serves s.manager channel c') :
    (s.setChannel channel c').Served := by
  refine ⟨h.owned.setChannel hc hsame, ?_⟩
  exact Slots.forall_set (hserves (h.serves channel c hc)) fun j b _ hb => h.serves j b hb

theorem Served.tearDown (h : s.Served) (peerId : PeerId) :
    Served { s with manager := s.manager.tearDown peerId } := by
  refine h.of_manager (h.owned.tearDown peerId) ?_ ?_
  · rw [tearDown_cancelled]
    exact List.subset_append_left _ _
  · intro p
    rw [dataSlot_tearDown]
    split_ifs with hp
    · refine .inr ⟨rfl, ?_⟩
      intro g hg
      exact data_mem_cancelled_tearDown (hp ▸ hg)
    · exact .inl rfl

theorem Served.register (h : s.Served) {peerId : PeerId} (hnew : peerId ∉ s.manager.connections)
    (peerAddr : String) (now : Nat) : (s.registered peerId (.new peerId peerAddr now)).Served := by
  refine ⟨h.owned.register peerId peerAddr now, ?_⟩
  refine Slots.forall_concat ⟨nofun, nofun⟩ ?_
  intro i c hc
  refine (h.serves i c hc).setManager (List.Subset.refl _) (.inl ?_)
  unfold dataSlot registered
  by_cases hp : c.peerId = peerId
  · rw [hp, AList.lookup_insert, AList.lookup_eq_none.mpr hnew]
    rfl
  · rw [AList.lookup_insert_ne hp]

theorem Served.registerDataChannel (h : s.Served) {peerId : PeerId}
    (halone : s.AttachesAlone (.registerDataChannel peerId)) : (s.dataRegistered peerId).Served := by
  refine ⟨h.owned.registerDataChannel peerId, ?_⟩
  unfold dataRegistered
  by_cases hmem : peerId ∈ s.manager.connections
  · rw [if_pos hmem]
    refine Slots.forall_concat ?_ ?_
    · constructor
      · intro _ _ _
        rw [dataSlot_registerDataChannel hmem, h.owned.length]
        exact if_pos rfl
      · simp [opened]
    · intro i c hc
      by_cases hp : c.peerId = peerId
      · -- The channels of the peer lose the slot: their tokens are cancelled.
        constructor
        · intro htoken hphase hlive
          rw [mem_cancelled_registerDataChannel, not_or] at hlive
          have hold := (h.serves i c hc).serving htoken hphase hlive.1
          exact absurd ⟨i, hp ▸ hold, htoken⟩ hlive.2
        · intro hphase
          exact absurd hphase (halone hmem c (List.mem_of_getElem? hc) hp)
      · refine (h.serves i c hc).setManager ?_ (.inl ?_)
        · intro token htoken
          exact mem_cancelled_registerDataChannel.mpr (.inl htoken)
        · rw [dataSlot_registerDataChannel hmem, if_neg hp]
  · rw [if_neg hmem]
    have hmanager : s.manager.registerDataChannel peerId =
        { s.manager with nextGeneration := s.manager.nextGeneration + 1 } := by
      simp [TransportManager.registerDataChannel, AList.lookup_eq_none.mpr hmem]
    rw [hmanager]
    refine Slots.forall_concat ⟨?_, ?_⟩ ?_
    · rintro _ (hphase | hphase) <;> cases hphase
    · intro hphase
      cases hphase
    · intro i c hc
      exact (h.serves i c hc).setManager (List.Subset.refl _) (.inl rfl)

theorem Serves.leaveLoop {m : TransportManager} {i : Nat} {c : ChannelTasks} (h : Serves m i c)
    (hreading : c.readPhase = .reading) : Serves m i { c with readPhase := .leftLoop } :=
  ⟨fun htoken _ => h.serving htoken (.inl hreading), nofun⟩

theorem serves_finished (m : TransportManager) (i : Nat) (c : ChannelTasks) :
    Serves m i { c with readPhase := .finished } := by
  refine ⟨?_, nofun⟩
  rintro _ (hphase | hphase) <;> cases hphase

/-- The check: the token is not cancelled, so the entry has the slot of the channel. -/
theorem Serves.check {m : TransportManager} {i : Nat} {c : ChannelTasks} (h : Serves m i c)
    (htoken : c.token = .data i) (hleft : c.readPhase = .leftLoop) :
    Serves m i { c with readPhase := if m.isCancelled c.token then .finished else .clearing } := by
  cases hcancelled : m.isCancelled c.token with
  | true => exact serves_finished m i c
  | false =>
    refine ⟨?_, ?_⟩
    · rintro _ (hphase | hphase) <;> cases hphase
    · intro _
      refine ⟨htoken, ?_⟩
      intro g hg
      have hlive : c.token ∉ m.cancelled := by
        intro hno
        simp [isCancelled, hno] at hcancelled
      have hslot := h.serving htoken (.inr hleft) hlive
      exact Option.some.inj (hg.symm.trans hslot)

/-- The write: the entry had the slot of the channel, so no other channel of the peer had one. -/
theorem Served.clear (h : s.Served) {channel : Nat} {c : ChannelTasks}
    (hc : s.channels[channel]? = some c) (hphase : c.readPhase = .clearing) :
    Served
      { manager := s.manager.clearDataChannel c.peerId
        channels := s.channels.set channel { c with readPhase := .finished } } := by
  have howned := (h.owned.clearDataChannel c.peerId).setChannel hc
    (rfl : origin { c with readPhase := .finished } = origin c)
  refine ⟨howned, ?_⟩
  refine Slots.forall_set (serves_finished _ channel c) ?_
  intro j d hj hd
  have hcancelled : (s.manager.clearDataChannel c.peerId).cancelled = s.manager.cancelled :=
    modify_cancelled
  have hold := h.serves j d hd
  by_cases hp : d.peerId = c.peerId
  · constructor
    · intro hdata hphase' hlive
      have hslot := hold.serving hdata hphase' (hcancelled ▸ hlive)
      exact absurd (((h.serves channel c hc).clearing hphase).2 j (hp ▸ hslot)) hj
    · intro hphase'
      refine ⟨(hold.clearing hphase').1, ?_⟩
      intro g hg
      rw [dataSlot_clearDataChannel, if_pos hp] at hg
      cases hg
  · refine hold.setManager ?_ (.inl ?_)
    · rw [hcancelled]
      exact List.Subset.refl _
    · rw [dataSlot_clearDataChannel, if_neg hp]

theorem Served.step {capacity : Nat} {a : Action} (h : s.Served) (ha : s.AttachesAlone a)
    (ht : s.step capacity a = some t) : t.Served := by
  have howned := h.owned.step ht
  cases step_effect ht with
  | idle => exact h
  | register hnew => exact h.register hnew _ _
  | registerDataChannel => exact h.registerDataChannel ha
  | disconnect => exact h.tearDown _
  | cancelShutdownToken =>
    refine ⟨howned, ?_⟩
    intro i c hc
    exact (h.serves i c hc).setManager (List.Subset.refl _) (.inl rfl)
  | shutdown =>
    refine h.of_manager howned (List.subset_append_left _ _) ?_
    intro p
    refine .inr ⟨rfl, ?_⟩
    intro g hg
    exact data_mem_cancelled_shutdown hg
  | enqueue hc | write hc | endWrite hc =>
    exact h.setChannel hc rfl fun hserves => ⟨hserves.serving, hserves.clearing⟩
  | leaveLoop hc hreading => exact h.setChannel hc rfl fun hserves => hserves.leaveLoop hreading
  | @cleanup channel _ c hc =>
    exact (h.tearDown c.peerId).setChannel hc rfl fun _ => serves_finished _ channel c
  | @check channel g c hc htoken hleft =>
    have hnumber : g = channel := by
      have hgeneration := h.owned.numbered channel c hc
      rwa [htoken] at hgeneration
    exact h.setChannel hc rfl fun hserves => hserves.check (hnumber ▸ htoken) hleft
  | clear hc _ hphase => exact h.clear hc hphase

theorem Served.liveIsUsed (h : s.Served) : s.LiveIsUsed := by
  intro channel c hc htoken hreading hlive
  have hmem : c.token ∉ s.manager.cancelled := by
    intro hno
    simp [isCancelled, hno] at hlive
  have hslot := (h.serves channel c hc).serving htoken (.inl hreading) hmem
  obtain ⟨conn, hconn, hdata⟩ := Option.bind_eq_some_iff.mp hslot
  refine ⟨conn, hconn, ?_⟩
  intro packet huser
  simp [PeerConnection.queueFor, huser, hdata, htoken]

theorem Served.clearsOwnSlot (h : s.Served) (a : Action) : s.ClearsOwnSlot a := by
  cases a with
  | task channel action =>
    cases action with
    | cleanup =>
      intro c hc _ hphase
      exact ((h.serves channel c hc).clearing hphase).2
    | _ => trivial
  | _ => trivial

/-- A registration beside a cleanup that has passed its check: the write that is left to that
cleanup finds the slot of the new channel. -/
theorem Served.wipes (h : s.Served) {capacity : Nat} {a : Action} (ha : ¬ s.AttachesAlone a) :
    ∃ channel u, s.step capacity a = some u ∧ ¬ u.ClearsOwnSlot (.task channel .cleanup) := by
  cases a with
  | registerDataChannel peerId =>
    unfold AttachesAlone at ha
    push Not at ha
    obtain ⟨hmem, c, hc, hpeer, hphase⟩ := ha
    obtain ⟨channel, hlt, hget⟩ := List.getElem_of_mem hc
    have hfound : s.channels[channel]? = some c := List.getElem?_eq_some_iff.mpr ⟨hlt, hget⟩
    refine ⟨channel, _, rfl, ?_⟩
    intro hown
    have hslot := @dataSlot_registerDataChannel s.manager peerId c.peerId hmem
    rw [if_pos hpeer] at hslot
    have hnumber := hown c (Slots.getElem?_concat_of_some hfound)
      ((h.serves channel c hfound).clearing hphase).1 hphase _ hslot
    rw [← h.owned.length] at hnumber
    omega
  | _ => exact absurd trivial ha

theorem served_start (localPeerId : PeerId) (sessionId : String) (listenPort : UInt16) (auto : Bool) :
    (start (.new localPeerId sessionId listenPort auto)).Served :=
  ⟨owned_start localPeerId sessionId listenPort auto, nofun⟩

/-- In every run in which no data channel is attached while a cleanup of an earlier one of the same
peer is between its check and its write: a cleanup clears the slot of its own channel only, and in
every state a live data channel is the one that `send_to_peer` uses. A registration that breaks the
condition leaves a cleanup that wipes the new channel. -/
theorem dying_channel_keeps_successor {capacity : Nat} {localPeerId : PeerId} {sessionId : String}
    {listenPort : UInt16} {auto : Bool} {acts : List Action}
    (halone : Along (step capacity) AttachesAlone
      (start (.new localPeerId sessionId listenPort auto)) acts) :
    Along (step capacity) ClearsOwnSlot (start (.new localPeerId sessionId listenPort auto)) acts ∧
      Throughout (step capacity) LiveIsUsed (start (.new localPeerId sessionId listenPort auto)) acts ∧
      ∀ s a, run (step capacity) (start (.new localPeerId sessionId listenPort auto)) acts = some s →
        ¬ s.AttachesAlone a →
        ∃ channel u, s.step capacity a = some u ∧ ¬ u.ClearsOwnSlot (.task channel .cleanup) := by
  have hstart := served_start localPeerId sessionId listenPort auto
  have hstep : ∀ s a t, Served s → AttachesAlone s a → step capacity s a = some t → Served t :=
    fun _ _ _ h ha ht => h.step ha ht
  refine ⟨halone.of_invariant hstep (fun _ a h _ => h.clearsOwnSlot a) hstart,
    halone.throughout hstep (fun _ h => h.liveIsUsed) hstart, ?_⟩
  intro s a hrun ha
  have hserved : s.Served := invariant hstep hstart halone hrun
  exact hserved.wipes ha

/-- The read task of the first data channel ends, the second channel is attached before the task
checks its token, and is still used after the cleanup. -/
theorem replaced_channel_keeps_successor :
    let acts := openedPair ++ [.task 1 .endOfStream, .registerDataChannel ⟨"b"⟩, .task 1 .cleanup]
    ∃ s ∈ run (step 8) (start (.new ⟨"a"⟩ "room" 4000 true)) acts, s.LiveIsUsed ∧
      s.manager.dataSlot ⟨"b"⟩ = some 2 := by
  intro acts
  have halone : Along (step 8) AttachesAlone (start (.new ⟨"a"⟩ "room" 4000 true)) acts := by
    decide +kernel
  obtain ⟨s, hrun, hslot⟩ : ∃ s ∈ run (step 8) (start (.new ⟨"a"⟩ "room" 4000 true)) acts,
      s.manager.dataSlot ⟨"b"⟩ = some 2 := by decide +kernel
  exact ⟨s, hrun, (dying_channel_keeps_successor halone).2.1 acts [] s (by simp) hrun, hslot⟩

/-- The second channel is attached between the check of the first one's cleanup and its write: the
slot is empty afterwards, and user messages go to the control queue. -/
theorem cleanup_wipes_successor :
    let acts := openedPair ++ [.task 1 .endOfStream, .task 1 .cleanup, .registerDataChannel ⟨"b"⟩,
      .task 1 .cleanup]
    ¬ Along (step 8) ClearsOwnSlot (start (.new ⟨"a"⟩ "room" 4000 true)) acts ∧
      ¬ Throughout (step 8) LiveIsUsed (start (.new ⟨"a"⟩ "room" 4000 true)) acts := by
  intro acts
  refine ⟨by decide +kernel, ?_⟩
  obtain ⟨s, hrun, ⟨data, hdata, htoken, hreading, hlive⟩, hqueue⟩ :
      ∃ s ∈ run (step 8) (start (.new ⟨"a"⟩ "room" 4000 true)) acts,
        (∃ data ∈ s.channels[2]?, data = ⟨⟨"b"⟩, .data 2, true, [], .reading⟩ ∧
          data.readPhase = .reading ∧ s.manager.isCancelled data.token = false) ∧
        ∀ conn ∈ s.manager.connections.lookup ⟨"b"⟩, conn.queueFor userPacket = .control 0 := by
    decide +kernel
  subst htoken
  intro hused
  obtain ⟨conn, hconn, hdataQueue⟩ := hused acts [] s (by simp) hrun 2 _ hdata rfl hreading hlive
  exact absurd ((hqueue conn hconn).symm.trans (hdataQueue userPacket rfl)) nofun

end Channels

end MetaMystia

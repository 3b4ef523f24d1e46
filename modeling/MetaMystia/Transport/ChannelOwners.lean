import MetaMystia.Transport.StalledChannel

/-! # Whose channels the entries have

In every run, every entry of the connection map is Connected and its tokens are
those of channels that were opened for its peer: a read task of the control
channel marks its entry Disconnected and removes it in one step.
-/

namespace MetaMystia

open Runs

namespace Channels

open TransportManager

/-- The channel with this token was opened for the peer. -/
def Opened (channels : List ChannelTasks) (peerId : PeerId) (token : Token) : Prop :=
  ∃ c, channels[token.generation]? = some c ∧ c.peerId = peerId ∧ c.token = token

def Owns (s : Channels) (peerId : PeerId) (conn : PeerConnection) : Prop :=
  conn.info.status = .connected ∧
    ∀ token ∈ PeerConnection.tokens conn, Opened s.channels peerId token

structure Owned (s : Channels) : Prop where
  length : s.channels.length = s.manager.nextGeneration
  numbered : ∀ (i : Nat) (c : ChannelTasks), s.channels[i]? = some c → c.token.generation = i
  entries : ∀ p conn, s.manager.connections.lookup p = some conn → s.Owns p conn

variable {s t : Channels}

/-- Two tokens of the map with one number are one token, of one peer. -/
theorem Owned.token_eq (h : s.Owned) {p q : PeerId} {c d : PeerConnection} {token other : Token}
    (hc : s.manager.connections.lookup p = some c) (hd : s.manager.connections.lookup q = some d)
    (htoken : token ∈ PeerConnection.tokens c) (hother : other ∈ PeerConnection.tokens d)
    (heq : token.generation = other.generation) : p = q ∧ token = other := by
  obtain ⟨first, hfirst, hp, htoken⟩ := (h.entries p c hc).2 token htoken
  obtain ⟨second, hsecond, hq, hother⟩ := (h.entries q d hd).2 other hother
  obtain rfl : first = second := Option.some.inj (hfirst.symm.trans (heq ▸ hsecond))
  exact ⟨hp.symm.trans hq, htoken.symm.trans hother⟩

theorem Owned.setManager (h : s.Owned) {m : TransportManager}
    (hnext : m.nextGeneration = s.manager.nextGeneration)
    (hentries : ∀ p conn, m.connections.lookup p = some conn →
      ∃ old, s.manager.connections.lookup p = some old ∧ conn.info.status = old.info.status ∧
        PeerConnection.tokens conn ⊆ PeerConnection.tokens old) :
    Owned { s with manager := m } := by
  refine ⟨h.length.trans hnext.symm, h.numbered, ?_⟩
  intro p conn hconn
  obtain ⟨old, hold, hstatus, htokens⟩ := hentries p conn hconn
  obtain ⟨hconnected, hopened⟩ := h.entries p old hold
  exact ⟨hstatus.trans hconnected, fun token htoken => hopened token (htokens htoken)⟩

/-- A channel keeps its peer and its token. -/
def origin (c : ChannelTasks) : PeerId × Token := (c.peerId, c.token)

theorem Owned.setChannels (h : s.Owned) {channels : List ChannelTasks}
    (hsame : channels.map origin = s.channels.map origin) : Owned { s with channels } := by
  have hback : ∀ (i : Nat) (c : ChannelTasks), channels[i]? = some c → ∃ old, s.channels[i]? = some old ∧ origin old = origin c := by
    intro i c hc
    have hmap : (s.channels.map origin)[i]? = some (origin c) := by
      rw [← hsame, List.getElem?_map, hc]
      rfl
    rw [List.getElem?_map] at hmap
    exact Option.map_eq_some_iff.mp hmap
  have hforth : ∀ (i : Nat) (c : ChannelTasks), s.channels[i]? = some c → ∃ new, channels[i]? = some new ∧ origin new = origin c := by
    intro i c hc
    have hmap : (channels.map origin)[i]? = some (origin c) := by
      rw [hsame, List.getElem?_map, hc]
      rfl
    rw [List.getElem?_map] at hmap
    exact Option.map_eq_some_iff.mp hmap
  refine ⟨?_, ?_, ?_⟩
  · have hlength := congrArg List.length hsame
    rw [List.length_map, List.length_map] at hlength
    exact hlength.trans h.length
  · intro i c hc
    obtain ⟨old, hold, horigin⟩ := hback i c hc
    exact (congrArg (fun o => o.2.generation) horigin).symm.trans (h.numbered i old hold)
  · intro p conn hconn
    obtain ⟨hconnected, hopened⟩ := h.entries p conn hconn
    refine ⟨hconnected, ?_⟩
    intro token htoken
    obtain ⟨c, hc, hpeer, hsame⟩ := hopened token htoken
    obtain ⟨new, hnew, horigin⟩ := hforth _ c hc
    exact ⟨new, hnew, (congrArg Prod.fst horigin).trans hpeer, (congrArg Prod.snd horigin).trans hsame⟩

theorem Owned.setChannel (h : s.Owned) {channel : Nat} {c c' : ChannelTasks}
    (hc : s.channels[channel]? = some c) (hsame : origin c' = origin c) :
    (s.setChannel channel c').Owned := by
  apply h.setChannels
  obtain ⟨hlt, rfl⟩ := List.getElem?_eq_some_iff.mp hc
  rw [List.map_set, hsame, ← List.map_set, List.set_getElem_self]

theorem Opened.concat {channels : List ChannelTasks} {p : PeerId} {token : Token}
    (h : Opened channels p token) (c : ChannelTasks) : Opened (channels ++ [c]) p token := by
  obtain ⟨found, hfound, hsame⟩ := h
  exact ⟨found, Slots.getElem?_concat_of_some hfound, hsame⟩

/-- A new channel, and an entry whose tokens are old ones or that of the channel. -/
theorem Owned.opens (h : s.Owned) {m : TransportManager} {c : ChannelTasks}
    (hnext : m.nextGeneration = s.manager.nextGeneration + 1)
    (hnumber : c.token.generation = s.manager.nextGeneration)
    (hentries : ∀ p conn, m.connections.lookup p = some conn → conn.info.status = .connected ∧
      ∀ token ∈ PeerConnection.tokens conn, (token = c.token ∧ c.peerId = p) ∨
        Opened s.channels p token) :
    Owned { manager := m, channels := s.channels ++ [c] } := by
  refine ⟨by simp [h.length, hnext], ?_, ?_⟩
  · refine Slots.forall_concat ?_ h.numbered
    exact hnumber.trans h.length.symm
  · intro p conn hconn
    obtain ⟨hconnected, htokens⟩ := hentries p conn hconn
    refine ⟨hconnected, ?_⟩
    intro token htoken
    obtain ⟨rfl, hpeer⟩ | hopened := htokens token htoken
    · refine ⟨c, ?_, hpeer, rfl⟩
      rw [hnumber, ← h.length, List.getElem?_concat_length]
    · exact hopened.concat c

theorem Owned.register (h : s.Owned) (peerId : PeerId) (peerAddr : String) (now : Nat) :
    (s.registered peerId (.new peerId peerAddr now)).Owned := by
  refine h.opens rfl rfl ?_
  intro p conn hconn
  obtain ⟨rfl, rfl⟩ | ⟨_, hold⟩ := Assoc.lookup_insert_cases hconn
  · refine ⟨rfl, ?_⟩
    intro token htoken
    obtain rfl : token = .control s.manager.nextGeneration := by
      simpa [PeerConnection.tokens] using htoken
    exact .inl ⟨rfl, rfl⟩
  · obtain ⟨hconnected, hopened⟩ := h.entries p conn hold
    exact ⟨hconnected, fun token htoken => .inr (hopened token htoken)⟩

theorem Owned.registerDataChannel (h : s.Owned) (peerId : PeerId) : (s.dataRegistered peerId).Owned := by
  refine h.opens registerDataChannel_nextGeneration ?_ ?_
  · split <;> rfl
  · intro p conn hconn
    unfold TransportManager.registerDataChannel at hconn
    cases hlookup : s.manager.connections.lookup peerId with
    | none =>
      simp only [hlookup] at hconn
      obtain ⟨hconnected, hopened⟩ := h.entries p conn hconn
      exact ⟨hconnected, fun token htoken => .inr (hopened token htoken)⟩
    | some old =>
      simp only [hlookup] at hconn
      rw [if_pos (Assoc.mem_of_lookup hlookup)]
      obtain ⟨rfl, rfl⟩ | ⟨_, hold⟩ := Assoc.lookup_insert_cases hconn
      · obtain ⟨hconnected, hopened⟩ := h.entries p old hlookup
        refine ⟨hconnected, ?_⟩
        intro token htoken
        obtain rfl | hdata := List.mem_cons.mp htoken
        · exact .inr (hopened _ List.mem_cons_self)
        · obtain rfl : token = .data s.manager.nextGeneration := by simpa using hdata
          exact .inl ⟨rfl, rfl⟩
      · obtain ⟨hconnected, hopened⟩ := h.entries p conn hold
        exact ⟨hconnected, fun token htoken => .inr (hopened token htoken)⟩

theorem Owned.tearDown (h : s.Owned) (peerId : PeerId) :
    Owned { s with manager := s.manager.tearDown peerId } := by
  refine h.setManager tearDown_nextGeneration ?_
  intro p conn hconn
  exact ⟨conn, lookup_of_tearDown hconn, rfl, List.Subset.refl _⟩

theorem Owned.modify (h : s.Owned) (peerId : PeerId) {f : PeerConnection → PeerConnection}
    (hstatus : ∀ conn, (f conn).info.status = conn.info.status)
    (htokens : ∀ conn, PeerConnection.tokens (f conn) ⊆ PeerConnection.tokens conn) :
    Owned { s with manager := s.manager.modify peerId f } := by
  refine h.setManager modify_nextGeneration ?_
  intro p conn hconn
  obtain ⟨old, hold, ⟨_, rfl⟩ | ⟨_, rfl⟩⟩ := lookup_of_modify hconn
  · exact ⟨old, hold, hstatus old, htokens old⟩
  · exact ⟨conn, hold, rfl, List.Subset.refl _⟩

theorem Owned.clearDataChannel (h : s.Owned) (peerId : PeerId) :
    Owned { s with manager := s.manager.clearDataChannel peerId } := by
  refine h.modify peerId (fun _ => rfl) ?_
  intro conn
  simp [PeerConnection.tokens]

theorem Owned.step {capacity : Nat} {a : Action} (h : s.Owned) (ht : s.step capacity a = some t) :
    t.Owned := by
  cases step_effect ht with
  | idle => exact h
  | register => exact h.register _ _ _
  | registerDataChannel => exact h.registerDataChannel _
  | disconnect => exact h.tearDown _
  | cancelShutdownToken => exact ⟨h.length, h.numbered, h.entries⟩
  | shutdown => exact ⟨h.length, h.numbered, fun _ _ hconn => nomatch hconn⟩
  | enqueue hc | leaveLoop hc | write hc | endWrite hc | check hc => exact h.setChannel hc rfl
  | cleanup hc => exact (h.tearDown _).setChannel hc rfl
  | clear hc => exact (h.clearDataChannel _).setChannel hc rfl

theorem owned_start (localPeerId : PeerId) (sessionId : String) (listenPort : UInt16) (auto : Bool) :
    (start (.new localPeerId sessionId listenPort auto)).Owned :=
  ⟨rfl, nofun, fun _ _ hconn => nomatch hconn⟩

end Channels

end MetaMystia

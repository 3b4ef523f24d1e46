import MetaMystia.Library.Assoc
import MetaMystia.Types

/-! # The connection map of the transport

An entry is identified by the token that cancels its control tasks, drawn from a
counter: the generation of the connection. All tokens are children of the
shutdown token.
-/

namespace MetaMystia

/-- A cancellation token: of the control tasks or of the data tasks of a connection. -/
inductive Token
  | control (generation : Nat)
  | data (generation : Nat)
deriving DecidableEq

structure PeerConnection where
  controlCancel : Nat
  dataCancel : Option Nat
  info : PeerInfo
deriving DecidableEq

structure TransportManager where
  localPeerId : PeerId
  sessionId : String
  listenPort : UInt16
  connections : AList fun _ : PeerId => PeerConnection
  autoReconnectEnabled : Bool
  shutdownCancelled : Bool
  cancelled : List Token
  nextGeneration : Nat

namespace TransportManager

def new (localPeerId : PeerId) (sessionId : String) (listenPort : UInt16)
    (autoReconnectEnabled : Bool) : TransportManager where
  localPeerId
  sessionId
  listenPort
  connections := ∅
  autoReconnectEnabled
  shutdownCancelled := false
  cancelled := []
  nextGeneration := 0

def isCancelled (self : TransportManager) (token : Token) : Bool :=
  self.shutdownCancelled || token ∈ self.cancelled

def hasPeer (self : TransportManager) (peerId : PeerId) : Bool := peerId ∈ self.connections

def getPeerAddr (self : TransportManager) (peerId : PeerId) : Option String :=
  (self.connections.lookup peerId).map (·.info.addr)

def getPeerListForSync (self : TransportManager) : List (PeerId × String) :=
  (self.connections.entries.filter fun entry => entry.2.info.status == .connected).map fun entry =>
    (entry.2.info.peerId, entry.2.info.addr)

/-- `get_mut` on the connection map. -/
def modify (self : TransportManager) (peerId : PeerId) (f : PeerConnection → PeerConnection) :
    TransportManager :=
  match self.connections.lookup peerId with
  | some conn => { self with connections := self.connections.insert peerId (f conn) }
  | none => self

def setShouldReconnect (self : TransportManager) (peerId : PeerId) (shouldReconnect : Bool) :
    TransportManager :=
  self.modify peerId fun conn => { conn with info := { conn.info with shouldReconnect } }

def updateLastSeen (self : TransportManager) (peerId : PeerId) (now : Nat) : TransportManager :=
  self.modify peerId fun conn => { conn with info := { conn.info with lastSeen := now } }

def updateRtt (self : TransportManager) (peerId : PeerId) (rttMs : UInt32) (now : Nat) :
    TransportManager :=
  self.modify peerId fun conn =>
    { conn with info := { conn.info with rttMs := some rttMs, lastSeen := now } }

/-- The tokens that go with a connection: `control_cancel` and, once taken, `data_cancel`. -/
def PeerConnection.tokens (conn : PeerConnection) : List Token :=
  .control conn.controlCancel :: (conn.dataCancel.map Token.data).toList

def registerConnection (self : TransportManager) (peerId : PeerId) (peerAddr : String) (now : Nat) :
    Except NetworkError TransportManager :=
  if peerId ∈ self.connections then
    .error (.duplicatePeerId peerId)
  else
    .ok { self with
      connections := self.connections.insert peerId
        { controlCancel := self.nextGeneration
          dataCancel := none
          info := .new peerId peerAddr now }
      nextGeneration := self.nextGeneration + 1 }

def registerDataChannel (self : TransportManager) (peerId : PeerId) : TransportManager :=
  match self.connections.lookup peerId with
  | some conn =>
    { self with
      connections := self.connections.insert peerId
        { conn with dataCancel := some self.nextGeneration }
      cancelled := self.cancelled ++ (conn.dataCancel.map Token.data).toList
      nextGeneration := self.nextGeneration + 1 }
  | none => { self with nextGeneration := self.nextGeneration + 1 }

/-- Cancel the tokens of the entry, if there is one, and remove it. -/
def tearDown (self : TransportManager) (peerId : PeerId) : TransportManager :=
  match self.connections.lookup peerId with
  | some conn =>
    { self with
      connections := self.connections.erase peerId
      cancelled := self.cancelled ++ PeerConnection.tokens conn }
  | none => self

/-- `fits` tells whether the encoded `PeerLeave` is within `max_message_size`. -/
def disconnectPeer (self : TransportManager) (peerId : PeerId) (fits : Bool) :
    Except NetworkError TransportManager :=
  if fits then .ok (self.tearDown peerId) else .error .messageTooLarge

/-- What a control read task does once it has left its loop: the entry is found by the peer id.
Returns the address to reconnect to. -/
def cleanup (self : TransportManager) (readPeerId : PeerId) : TransportManager × Option String :=
  match self.connections.lookup readPeerId with
  | some conn =>
    (self.tearDown readPeerId,
      if conn.info.shouldReconnect && !self.shutdownCancelled && self.autoReconnectEnabled then
        some conn.info.addr
      else none)
  | none => (self, none)

def shutdown (self : TransportManager) : TransportManager :=
  { self with
    connections := ∅
    cancelled := self.cancelled ++ self.connections.entries.flatMap fun entry => PeerConnection.tokens entry.2 }

variable {self next : TransportManager} {peerId peer : PeerId} {conn : PeerConnection}

theorem lookup_tearDown_self : (self.tearDown peerId).connections.lookup peerId = none := by
  unfold tearDown
  cases h : self.connections.lookup peerId with
  | none => exact h
  | some conn => exact AList.lookup_erase ..

theorem lookup_tearDown_of_ne (hne : peer ≠ peerId) :
    (self.tearDown peerId).connections.lookup peer = self.connections.lookup peer := by
  unfold tearDown
  cases self.connections.lookup peerId with
  | none => rfl
  | some conn => exact AList.lookup_erase_ne hne

theorem lookup_of_tearDown (h : (self.tearDown peerId).connections.lookup peer = some conn) :
    self.connections.lookup peer = some conn := by
  by_cases hne : peer = peerId
  · subst hne
    simp [lookup_tearDown_self] at h
  · rwa [lookup_tearDown_of_ne hne] at h

@[simp] theorem tearDown_nextGeneration : (self.tearDown peerId).nextGeneration = self.nextGeneration := by
  unfold tearDown
  cases self.connections.lookup peerId <;> rfl

@[simp] theorem tearDown_localPeerId : (self.tearDown peerId).localPeerId = self.localPeerId := by
  unfold tearDown
  cases self.connections.lookup peerId <;> rfl

@[simp] theorem tearDown_sessionId : (self.tearDown peerId).sessionId = self.sessionId := by
  unfold tearDown
  cases self.connections.lookup peerId <;> rfl

/-- Tearing an entry down cancels its own control token and no other. -/
theorem isCancelled_of_tearDown {generation : Nat}
    (h : (self.tearDown peerId).isCancelled (.control generation) = true) :
    self.isCancelled (.control generation) = true ∨
      ∃ conn, self.connections.lookup peerId = some conn ∧ conn.controlCancel = generation := by
  unfold tearDown at h
  cases hlookup : self.connections.lookup peerId with
  | none =>
    simp only [hlookup] at h
    exact .inl h
  | some conn =>
    simp only [hlookup, isCancelled, PeerConnection.tokens, List.mem_append, Bool.or_eq_true,
      decide_eq_true_eq, List.mem_cons, Token.control.injEq] at h ⊢
    obtain h | h | h | h := h
    · exact .inl (.inl h)
    · exact .inl (.inr h)
    · exact .inr ⟨conn, rfl, h.symm⟩
    · cases hdata : conn.dataCancel <;> simp [hdata] at h

theorem cleanup_fst : (self.cleanup peerId).1 = self.tearDown peerId := by
  unfold cleanup tearDown
  cases self.connections.lookup peerId <;> rfl

theorem lookup_modify_none {f : PeerConnection → PeerConnection}
    (h : self.connections.lookup peer = none) :
    (self.modify peerId f).connections.lookup peer = none := by
  unfold modify
  cases hlookup : self.connections.lookup peerId with
  | none => exact h
  | some old => exact Assoc.lookup_replace_none hlookup h

theorem lookup_registerDataChannel_none (h : self.connections.lookup peer = none) :
    (self.registerDataChannel peerId).connections.lookup peer = none := by
  unfold registerDataChannel
  cases hlookup : self.connections.lookup peerId with
  | none => exact h
  | some old => exact Assoc.lookup_replace_none hlookup h

theorem lookup_tearDown_none (h : self.connections.lookup peer = none) :
    (self.tearDown peerId).connections.lookup peer = none := by
  by_cases hne : peer = peerId
  · subst hne
    exact lookup_tearDown_self
  · rwa [lookup_tearDown_of_ne hne]

theorem lookup_of_modify {f : PeerConnection → PeerConnection}
    (h : (self.modify peerId f).connections.lookup peer = some conn) :
    ∃ old, self.connections.lookup peer = some old ∧
      ((peer = peerId ∧ conn = f old) ∨ (peer ≠ peerId ∧ conn = old)) := by
  unfold modify at h
  cases hlookup : self.connections.lookup peerId with
  | none =>
    simp only [hlookup] at h
    refine ⟨conn, h, .inr ⟨?_, rfl⟩⟩
    rintro rfl
    cases hlookup.symm.trans h
  | some old =>
    simp only [hlookup] at h
    obtain ⟨rfl, rfl⟩ | ⟨hne, hold⟩ := Assoc.lookup_insert_cases h
    · exact ⟨old, hlookup, .inl ⟨rfl, rfl⟩⟩
    · exact ⟨conn, hold, .inr ⟨hne, rfl⟩⟩

theorem modify_nextGeneration {f : PeerConnection → PeerConnection} :
    (self.modify peerId f).nextGeneration = self.nextGeneration := by
  unfold modify
  cases self.connections.lookup peerId <;> rfl

theorem modify_cancelled {f : PeerConnection → PeerConnection} :
    (self.modify peerId f).cancelled = self.cancelled := by
  unfold modify
  cases self.connections.lookup peerId <;> rfl

theorem tearDown_cancelled : (self.tearDown peerId).cancelled = self.cancelled ++
    ((self.connections.lookup peerId).map PeerConnection.tokens).getD [] := by
  unfold tearDown
  cases self.connections.lookup peerId <;> simp

theorem modify_shutdownCancelled {f : PeerConnection → PeerConnection} :
    (self.modify peerId f).shutdownCancelled = self.shutdownCancelled := by
  unfold modify
  cases self.connections.lookup peerId <;> rfl

theorem registerDataChannel_shutdownCancelled :
    (self.registerDataChannel peerId).shutdownCancelled = self.shutdownCancelled := by
  unfold registerDataChannel
  cases self.connections.lookup peerId <;> rfl

theorem tearDown_shutdownCancelled :
    (self.tearDown peerId).shutdownCancelled = self.shutdownCancelled := by
  unfold tearDown
  cases self.connections.lookup peerId <;> rfl

theorem registerConnection_cases (self : TransportManager) (peerId : PeerId) (peerAddr : String)
    (now : Nat) :
    (peerId ∈ self.connections ∧
      self.registerConnection peerId peerAddr now = .error (.duplicatePeerId peerId)) ∨
    (peerId ∉ self.connections ∧
      self.registerConnection peerId peerAddr now = .ok { self with
        connections := self.connections.insert peerId
          { controlCancel := self.nextGeneration
            dataCancel := none
            info := .new peerId peerAddr now }
        nextGeneration := self.nextGeneration + 1 }) := by
  unfold registerConnection
  by_cases h : peerId ∈ self.connections
  · exact .inl ⟨h, if_pos h⟩
  · exact .inr ⟨h, if_neg h⟩

theorem disconnectPeer_cases (self : TransportManager) (peerId : PeerId) (fits : Bool) :
    (∃ e, self.disconnectPeer peerId fits = .error e) ∨
      self.disconnectPeer peerId fits = .ok (self.tearDown peerId) := by
  cases fits with
  | false => exact .inl ⟨_, rfl⟩
  | true => exact .inr rfl

theorem registerDataChannel_lookup (self : TransportManager) (peerId peer : PeerId) :
    ((self.registerDataChannel peerId).connections.lookup peer).map (·.controlCancel) =
      (self.connections.lookup peer).map (·.controlCancel) := by
  unfold registerDataChannel
  cases hlookup : self.connections.lookup peerId with
  | none => rfl
  | some conn =>
    by_cases hpeer : peer = peerId
    · subst hpeer
      simp [hlookup]
    · simp [AList.lookup_insert_ne hpeer]

theorem lookup_of_registerDataChannel
    (h : (self.registerDataChannel peerId).connections.lookup peer = some conn) :
    ∃ old, self.connections.lookup peer = some old ∧ old.controlCancel = conn.controlCancel := by
  have hmap := self.registerDataChannel_lookup peerId peer
  rw [h] at hmap
  exact Option.map_eq_some_iff.mp hmap.symm

theorem registerDataChannel_isCancelled (generation : Nat) :
    (self.registerDataChannel peerId).isCancelled (.control generation) =
      self.isCancelled (.control generation) := by
  unfold registerDataChannel
  cases self.connections.lookup peerId with
  | none => rfl
  | some conn => cases hdata : conn.dataCancel <;> simp [isCancelled, hdata]

theorem modify_localPeerId {f : PeerConnection → PeerConnection} :
    (self.modify peerId f).localPeerId = self.localPeerId := by
  unfold modify
  cases self.connections.lookup peerId <;> rfl

theorem registerDataChannel_localPeerId :
    (self.registerDataChannel peerId).localPeerId = self.localPeerId := by
  unfold registerDataChannel
  cases self.connections.lookup peerId <;> rfl

theorem registerDataChannel_sessionId :
    (self.registerDataChannel peerId).sessionId = self.sessionId := by
  unfold registerDataChannel
  cases self.connections.lookup peerId <;> rfl

theorem registerDataChannel_nextGeneration :
    (self.registerDataChannel peerId).nextGeneration = self.nextGeneration + 1 := by
  unfold registerDataChannel
  cases self.connections.lookup peerId <;> rfl

end TransportManager

end MetaMystia

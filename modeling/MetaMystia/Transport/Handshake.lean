import MetaMystia.Protocol
import MetaMystia.Transport.Connections

/-! # The handshake of a control channel

What `connect_to` sends, what the accepting side answers and how the initiator
reads the answer. The texts in an ack are those of the source: the initiator
tells its outcomes apart by them.
-/

namespace MetaMystia

def protocolVersion : UInt16 := 1

namespace TransportManager

variable {self : TransportManager}

/-- The first message of an outbound connection, from a build with this `PROTOCOL_VERSION`. -/
def handshakeAt (self : TransportManager) (version : UInt16) : InternalMessage :=
  .handshake self.localPeerId self.listenPort version self.sessionId

def handshake (self : TransportManager) : InternalMessage := self.handshakeAt protocolVersion

def handshakeAck (self : TransportManager) (success : Bool) (errorReason : Option String) :
    InternalMessage :=
  .handshakeAck self.localPeerId self.listenPort success errorReason

/-- The messages sent back on the socket, and the result: the remote peer, its listen port and
the packet for the local message handler. -/
def processHandshakeMessageAt (self : TransportManager) (expected : UInt16) :
    InternalMessage → List InternalMessage × Except NetworkError (PeerId × UInt16 × InternalMessage)
  | .handshake peerId listenPort version sessionId =>
    if version ≠ expected then
      ([self.handshakeAck false
          (some ("version_mismatch: expected " ++ toString expected ++ ", got " ++ toString version))],
        .error (.versionMismatch expected version))
    else if sessionId ≠ self.sessionId then
      ([self.handshakeAck false (some "session_mismatch")],
        .error (.sessionMismatch self.sessionId sessionId))
    else if peerId ∈ self.connections then
      ([self.handshakeAck true (some "already_connected")], .error (.alreadyConnected peerId))
    else
      let peerList := self.getPeerListForSync
      (self.handshakeAck true none :: (if peerList.isEmpty then [] else [.peerListSync peerList]),
        .ok (peerId, listenPort, .handshake peerId listenPort version sessionId))
  | _ => ([], .error (.handshakeFailed "expected Handshake message"))

def processHandshakeMessage (self : TransportManager) :
    InternalMessage → List InternalMessage × Except NetworkError (PeerId × UInt16 × InternalMessage) :=
  self.processHandshakeMessageAt protocolVersion

def receiveHandshakeAck : InternalMessage → Except NetworkError (PeerId × UInt16 × InternalMessage)
  | .handshakeAck peerId listenPort success errorReason =>
    if !success then
      let reason := errorReason.getD "unknown"
      if reason = "duplicate_peer_id" then .error (.alreadyConnected peerId)
      else .error (.handshakeFailed reason)
    else if errorReason = some "already_connected" then .error (.alreadyConnected peerId)
    else .ok (peerId, listenPort, .handshakeAck peerId listenPort true none)
  | _ => .error (.handshakeFailed "expected HandshakeAck message")

/-- Between nodes of one session only the duplicate check decides. -/
theorem processHandshakeMessage_handshake {remote : TransportManager}
    (hsession : remote.sessionId = self.sessionId) :
    (remote.localPeerId ∈ self.connections ∧
      self.processHandshakeMessage remote.handshake =
        ([self.handshakeAck true (some "already_connected")],
          .error (.alreadyConnected remote.localPeerId))) ∨
    (remote.localPeerId ∉ self.connections ∧ ∃ more,
      self.processHandshakeMessage remote.handshake = (self.handshakeAck true none :: more,
        .ok (remote.localPeerId, remote.listenPort, remote.handshake))) := by
  by_cases h : remote.localPeerId ∈ self.connections
  · exact .inl ⟨h, by
      simp [processHandshakeMessage, processHandshakeMessageAt, handshake, handshakeAt, hsession, h]⟩
  · exact .inr ⟨h, _, by
      simp [processHandshakeMessage, processHandshakeMessageAt, handshake, handshakeAt, hsession, h]
      rfl⟩

/-- Between builds of one version and session only the duplicate check decides. -/
theorem processHandshakeMessageAt_same (self : TransportManager) (peerId : PeerId)
    (listenPort version : UInt16) :
    (peerId ∈ self.connections ∧
      self.processHandshakeMessageAt version (.handshake peerId listenPort version self.sessionId) =
        ([self.handshakeAck true (some "already_connected")], .error (.alreadyConnected peerId))) ∨
    ∃ more result, self.processHandshakeMessageAt version
      (.handshake peerId listenPort version self.sessionId) =
        (self.handshakeAck true none :: more, .ok result) := by
  simp only [processHandshakeMessageAt, ne_eq, not_true_eq_false, if_false]
  split
  · next h => exact .inl ⟨h, rfl⟩
  · exact .inr ⟨_, _, rfl⟩

/-- An initiator of this version and session that goes on after the message knows the acceptor. -/
def Vouches (self : TransportManager) (expected version : UInt16) (sessionId : String)
    (msg : InternalMessage) : Prop :=
  ∀ peerId listenPort notify, receiveHandshakeAck msg = .ok (peerId, listenPort, notify) →
    peerId = self.localPeerId ∧ version = expected ∧ sessionId = self.sessionId

theorem vouches_refusal {expected version : UInt16} {sessionId : String}
    (errorReason : Option String) :
    self.Vouches expected version sessionId (self.handshakeAck false errorReason) := by
  intro peerId listenPort notify h
  simp only [receiveHandshakeAck, handshakeAck] at h
  split at h
  · split at h <;> cases h
  · next hno => exact absurd rfl hno

theorem processHandshakeMessageAt_handshake (self : TransportManager) (expected : UInt16)
    (peerId : PeerId) (listenPort version : UInt16) (sessionId : String) :
    ∃ ack more result,
      self.processHandshakeMessageAt expected (.handshake peerId listenPort version sessionId) =
        (ack :: more, result) ∧
      self.Vouches expected version sessionId ack ∧
      ∀ p port notify, result = .ok (p, port, notify) →
        p = peerId ∧ version = expected ∧ sessionId = self.sessionId := by
  simp only [processHandshakeMessageAt]
  split
  · exact ⟨_, _, _, rfl, vouches_refusal _, fun _ _ _ h => nomatch h⟩
  · next hversion =>
    split
    · exact ⟨_, _, _, rfl, vouches_refusal _, fun _ _ _ h => nomatch h⟩
    · next hsession =>
      have hsame := And.intro (not_not.mp hversion) (not_not.mp hsession)
      split
      · refine ⟨_, _, _, rfl, ?_, fun _ _ _ h => nomatch h⟩
        intro peerId listenPort notify h
        cases h
      · refine ⟨_, _, _, rfl, ?_, ?_⟩
        · intro peerId listenPort notify h
          cases h
          exact ⟨rfl, hsame⟩
        · intro peerId listenPort notify h
          cases h
          exact ⟨rfl, hsame⟩

end TransportManager

end MetaMystia

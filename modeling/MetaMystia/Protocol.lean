import MetaMystia.Types

/-! # Internal protocol messages

Peer ids travel as strings and are wrapped by `PeerId::new` on arrival, so the
fields that hold one carry a `PeerId` here.
-/

namespace MetaMystia

inductive InternalMessage
  | handshake (peerId : PeerId) (listenPort protocolVersion : UInt16) (sessionId : String)
  | handshakeAck (peerId : PeerId) (listenPort : UInt16) (success : Bool) (errorReason : Option String)
  | peerLeave (peerId : PeerId)
  | peerListSync (peers : List (PeerId × String))
  | heartbeat (term : UInt64) (leaderId : PeerId) (timestampMs : UInt64)
  | heartbeatResponse (term : UInt64) (timestampMs : UInt64)
  | ping (timestampMs : UInt64)
  | pong (timestampMs : UInt64)
  | requestVote (term : UInt64) (candidateId : PeerId)
  | voteResponse (term : UInt64) (voterId : PeerId) (granted : Bool)
  | leaderAssign (term : UInt64) (leaderId assignerId : PeerId)
  | forwardedUserData (fromPeerId : PeerId) (originalMsgType : UInt16) (originalFlags : UInt8)
      (payload : List UInt8)
  | dataChannelHandshake (peerId : PeerId)
  | dataChannelHandshakeAck (peerId : PeerId) (success : Bool)
deriving DecidableEq, Repr

end MetaMystia

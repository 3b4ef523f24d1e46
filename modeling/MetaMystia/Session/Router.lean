import MetaMystia.Election.LeaderElection
import MetaMystia.Messaging
import MetaMystia.Transport.Connections

/-! # The session router

Each operation returns the packets it enqueues, each with the peer it is for.
What `try_send` finds at a queue is a parameter, given by the token of the tasks
that empty the queue.
-/

namespace MetaMystia

/-- The outcome of `try_send` at the queue of each channel. -/
abbrev TrySend := Token → Except MessageError Unit

/-- The queue a packet goes to; the data channel is there as long as its token is. -/
def PeerConnection.queueFor (conn : PeerConnection) (packet : RawPacket) : Token :=
  if packet.isInternal then .control conn.controlCancel
  else (conn.dataCancel.map Token.data).getD (.control conn.controlCancel)

namespace TransportManager

def sendToPeer (self : TransportManager) (trySend : TrySend) (peerId : PeerId) (packet : RawPacket) :
    Except MessageError (List (PeerId × RawPacket)) :=
  match self.connections.lookup peerId with
  | some conn => (trySend (conn.queueFor packet)).map fun _ => [(peerId, packet)]
  | none => .error (.peerNotFound peerId)

def broadcastTargets (self : TransportManager) (exclude : Option (List PeerId)) :
    List (Sigma fun _ : PeerId => PeerConnection) :=
  self.connections.entries.filter fun entry =>
    entry.2.info.status == .connected && !(exclude.any fun excluded => excluded.contains entry.1)

/-- What was enqueued, and the peers for which that failed. -/
def broadcast (self : TransportManager) (trySend : TrySend) (packet : RawPacket)
    (exclude : Option (List PeerId)) : List (PeerId × RawPacket) × List (PeerId × MessageError) :=
  let targets := self.broadcastTargets exclude
  (targets.filterMap fun entry =>
      match trySend (entry.2.queueFor packet) with
      | .ok _ => some (entry.1, packet)
      | .error _ => none,
    targets.filterMap fun entry =>
      match trySend (entry.2.queueFor packet) with
      | .ok _ => none
      | .error e => some (entry.1, e))

end TransportManager

inductive MessageTarget
  | broadcast
  | toPeer (peerId : PeerId)
  | toLeader
deriving DecidableEq, Repr

inductive ForwardTarget
  | toPeer (peerId : PeerId)
  | broadcast
deriving DecidableEq, Repr

structure SessionRouter where
  localPeerId : PeerId
  transport : TransportManager
  leaderElection : LeaderElection
  centralizedMode : Bool
  centralizedAutoForward : Bool
  compressionThreshold : UInt32
  maxMessageSize : UInt32

namespace SessionRouter

def isLeader (self : SessionRouter) : Bool := self.leaderElection.isLeader

def leaderId (self : SessionRouter) : Option PeerId := self.leaderElection.leaderId

variable (lz4 : Lz4) (postcard : Postcard) (trySend : TrySend)

def routeMessage (self : SessionRouter) (target : MessageTarget) (msgType : UInt16)
    (data : List UInt8) (userFlags : UInt8) : Except MessageError (List (PeerId × RawPacket)) :=
  if msgType < userMessageStart then
    .error (.invalidArgument "msg_type must be >= 0x0100")
  else
    let cleanFlags := userFlags &&& 0xFE
    let packet := encodePacket lz4 msgType data cleanFlags self.compressionThreshold
      self.maxMessageSize
    match target with
    | .broadcast =>
      if self.centralizedMode && !self.isLeader then
        match self.leaderId with
        | some leader =>
          (encodeInternal postcard (.forwardedUserData self.localPeerId msgType cleanFlags data)
            self.maxMessageSize).bind (self.transport.sendToPeer trySend leader)
        | none => .error .notLeader
      else
        packet.map fun packet => (self.transport.broadcast trySend packet none).1
    | .toPeer peerId => packet.bind (self.transport.sendToPeer trySend peerId)
    | .toLeader =>
      if self.isLeader then
        .ok []
      else
        match self.leaderId with
        | some leader => packet.bind (self.transport.sendToPeer trySend leader)
        | none => .error .notLeader

def sendFromLeader (self : SessionRouter) (msgType : UInt16) (data : List UInt8) (userFlags : UInt8) :
    Except MessageError (List (PeerId × RawPacket)) :=
  if msgType < userMessageStart then
    .error (.invalidArgument "msg_type must be >= 0x0100")
  else if !self.isLeader then
    .error .notLeader
  else
    (encodePacket lz4 msgType data (userFlags &&& 0xFE) self.compressionThreshold
      self.maxMessageSize).map fun packet => (self.transport.broadcast trySend packet none).1

def forwardMessage (self : SessionRouter) (fromPeerId : PeerId) (target : ForwardTarget)
    (msgType : UInt16) (flags : UInt8) (payload : List UInt8) :
    Except MessageError (List (PeerId × RawPacket)) :=
  if msgType < userMessageStart then
    .error (.invalidArgument "msg_type must be >= 0x0100")
  else if !self.isLeader then
    .error .notLeader
  else
    (encodePacket lz4 msgType payload (flags &&& 0xFE) self.compressionThreshold
      self.maxMessageSize).bind fun packet =>
    match target with
    | .toPeer peerId => self.transport.sendToPeer trySend peerId packet
    | .broadcast => .ok (self.transport.broadcast trySend packet (some [fromPeerId])).1

/-- The packet to deliver here, and what is forwarded. -/
def handleForwardedUserData (self : SessionRouter) (fromPeerId : PeerId) (originalMsgType : UInt16)
    (originalFlags : UInt8) (payload : List UInt8) :
    Option RawPacket × List (PeerId × RawPacket) :=
  let forwarded :=
    if self.isLeader && self.centralizedAutoForward then
      match self.forwardMessage lz4 trySend fromPeerId .broadcast originalMsgType originalFlags
        payload with
      | .ok sends => sends
      | .error _ => []
    else []
  (some { msgType := originalMsgType, flags := originalFlags, payload }, forwarded)

/-- The arms of `handle_message` that lead to a receive event: what is enqueued, and the events. -/
def handleMessage (self : SessionRouter) (peerId : PeerId) (packet : RawPacket) :
    List (PeerId × RawPacket) × List Received :=
  if packet.isInternal then
    match decodeInternal postcard packet with
    | .ok (.forwardedUserData fromPeerId originalMsgType originalFlags payload) =>
      match self.handleForwardedUserData lz4 trySend fromPeerId originalMsgType originalFlags
        payload with
      | (some userPacket, sends) =>
        let data := match decodePayload lz4 userPacket with
          | .ok data => data
          | .error _ => userPacket.payload
        (sends, [{ peerId := fromPeerId
                   data
                   msgType := userPacket.msgType
                   flags := userPacket.flags }])
      | (none, sends) => (sends, [])
    | _ => ([], [])
  else
    ([], (handleUserPacket lz4 peerId packet).toList)

end SessionRouter

end MetaMystia

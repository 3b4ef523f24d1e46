import MetaMystia.Protocol

/-! # Packets

User packets, with optional compression, and packets that carry an internal
message. `lz4_flex` and `postcard` are parameters.
-/

namespace MetaMystia

inductive MessageError
  | invalidArgument (msg : String)
  | messageTooLarge (length : UInt32)
  | serialization (msg : String)
  | internal (msg : String)
  | notLeader
  | peerNotFound (id : PeerId)
  | sendQueueFull
  | connectionFailed (msg : String)
deriving DecidableEq, Repr

structure RawPacket where
  msgType : UInt16
  flags : UInt8
  payload : List UInt8
deriving DecidableEq, Repr

/-- `lz4_flex::block`. -/
structure Lz4 where
  compressPrependSize : List UInt8 → List UInt8
  decompressSizePrepended : List UInt8 → Except String (List UInt8)

/-- `postcard`, at the type of internal messages. -/
structure Postcard where
  toAllocvec : InternalMessage → Except String (List UInt8)
  fromBytes : List UInt8 → Except String InternalMessage

def userMessageStart : UInt16 := 0x0100

def InternalMessage.msgType : InternalMessage → UInt16
  | .handshake .. => 0x0001
  | .handshakeAck .. => 0x0002
  | .peerLeave _ => 0x0003
  | .peerListSync _ => 0x0004
  | .heartbeat .. => 0x0010
  | .heartbeatResponse .. => 0x0011
  | .ping _ => 0x0012
  | .pong _ => 0x0013
  | .requestVote .. => 0x0020
  | .voteResponse .. => 0x0021
  | .leaderAssign .. => 0x0022
  | .forwardedUserData .. => 0x0030
  | .dataChannelHandshake _ => 0x0040
  | .dataChannelHandshakeAck .. => 0x0041

namespace RawPacket

def isCompressed (self : RawPacket) : Bool := self.flags &&& 0x01 != 0

def isInternal (self : RawPacket) : Bool := decide (self.msgType < userMessageStart)

end RawPacket

/-- Lengths are compared as `u32`, as the source casts them. -/
def encodePacket (lz4 : Lz4) (msgType : UInt16) (data : List UInt8) (userFlags : UInt8)
    (compressionThreshold maxMessageSize : UInt32) : Except MessageError RawPacket :=
  if msgType < userMessageStart then
    .error (.invalidArgument "msg_type must be >= 0x0100 for user messages")
  else if maxMessageSize < UInt32.ofNat data.length then
    .error (.messageTooLarge (UInt32.ofNat data.length))
  else
    let cleanFlags := userFlags &&& 0xFE
    let compressed := lz4.compressPrependSize data
    if compressionThreshold < UInt32.ofNat data.length ∧ compressed.length < data.length then
      .ok { msgType, flags := cleanFlags ||| 0x01, payload := compressed }
    else
      .ok { msgType, flags := cleanFlags, payload := data }

def decodePayload (lz4 : Lz4) (packet : RawPacket) : Except MessageError (List UInt8) :=
  if packet.isCompressed then
    match lz4.decompressSizePrepended packet.payload with
    | .ok data => .ok data
    | .error e => .error (.internal ("LZ4 decompression failed: " ++ e))
  else
    .ok packet.payload

def encodeInternal (postcard : Postcard) (msg : InternalMessage) (maxMessageSize : UInt32) :
    Except MessageError RawPacket :=
  match postcard.toAllocvec msg with
  | .error e => .error (.serialization e)
  | .ok payload =>
    if maxMessageSize < UInt32.ofNat payload.length then
      .error (.messageTooLarge (UInt32.ofNat payload.length))
    else
      .ok { msgType := msg.msgType, flags := 0, payload }

def decodeInternal (postcard : Postcard) (packet : RawPacket) : Except MessageError InternalMessage :=
  match postcard.fromBytes packet.payload with
  | .ok msg => .ok msg
  | .error e => .error (.serialization e)

/-- `CallbackEvent::Received`. -/
structure Received where
  peerId : PeerId
  data : List UInt8
  msgType : UInt16
  flags : UInt8
deriving DecidableEq, Repr

/-- What `handle_message` passes to `send_received` for a user packet; a payload that does not
decode is dropped. -/
def handleUserPacket (lz4 : Lz4) (peerId : PeerId) (packet : RawPacket) : Option Received :=
  match decodePayload lz4 packet with
  | .ok data => some { peerId, data, msgType := packet.msgType, flags := packet.flags }
  | .error _ => none

theorem toNat_ofNat_length {bytes : List UInt8} (h : bytes.length < 2 ^ 32) :
    (UInt32.ofNat bytes.length).toNat = bytes.length := by
  simpa using h

end MetaMystia

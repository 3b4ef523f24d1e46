import Mathlib.Data.String.Basic
import Mathlib.Order.Lattice

/-! # Identifiers and enumerations shared by the components

Peer ids are ordered as Rust orders `str`: by UTF-8 bytes, which is the order of
the code points, hence the order of `String`.
-/

namespace MetaMystia

structure PeerId where
  id : String
deriving Repr

theorem PeerId.id_injective : Function.Injective PeerId.id := by
  rintro ⟨a⟩ ⟨b⟩ h
  exact congrArg PeerId.mk h

instance : LinearOrder PeerId := LinearOrder.lift' PeerId.id PeerId.id_injective

/-- What happens to the manual override when a manually assigned leader leaves. -/
inductive ManualOverrideRecovery
  | hold
  | autoElect
deriving DecidableEq, Repr

inductive PeerStatus
  | connected
  | disconnected
  | reconnecting
  | handshaking
deriving DecidableEq, Repr

/-- What is kept about a peer, in the membership table and beside its connection. Instants are
milliseconds of the monotonic clock. -/
structure PeerInfo where
  peerId : PeerId
  addr : String
  status : PeerStatus
  lastSeen : Nat
  rttMs : Option UInt32
  connectedAt : Nat
  shouldReconnect : Bool
deriving DecidableEq, Repr

def PeerInfo.new (peerId : PeerId) (addr : String) (now : Nat) : PeerInfo where
  peerId
  addr
  status := .connected
  lastSeen := now
  rttMs := none
  connectedAt := now
  shouldReconnect := true

inductive NetworkError
  | messageTooLarge
  | handshakeFailed (msg : String)
  | duplicatePeerId (id : PeerId)
  | versionMismatch (expected got : UInt16)
  | sessionMismatch (expected got : String)
  | alreadyConnected (id : PeerId)
deriving DecidableEq, Repr

end MetaMystia

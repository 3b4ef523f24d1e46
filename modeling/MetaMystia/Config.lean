import MetaMystia.Messaging

/-! # The network configuration

`validate` looks at one condition after the other and reports the first that fails.
-/

namespace MetaMystia

structure NetworkConfig where
  reconnectMaxMs : UInt32
  maxMessageSize : UInt32
  heartbeatIntervalMs : UInt16
  electionTimeoutMinMs : UInt16
  electionTimeoutMaxMs : UInt16
  reconnectInitialMs : UInt16
  handshakeTimeoutMs : UInt16
  writeTimeoutMs : UInt16
  sendQueueCapacity : Nat
  incomingQueueCapacity : Nat
  maxConnections : Nat
  keepaliveTimeSecs : UInt16
  keepaliveIntervalSecs : UInt16
  heartbeatTimeoutMultiplier : UInt8
  keepaliveRetries : UInt8
  reconnectMaxRetries : UInt8

namespace NetworkConfig

def default : NetworkConfig where
  reconnectMaxMs := 30000
  maxMessageSize := 256 * 1024
  heartbeatIntervalMs := 500
  electionTimeoutMinMs := 1500
  electionTimeoutMaxMs := 3000
  reconnectInitialMs := 1000
  handshakeTimeoutMs := 5000
  writeTimeoutMs := 5000
  sendQueueCapacity := 128
  incomingQueueCapacity := 256
  maxConnections := 64
  keepaliveTimeSecs := 60
  keepaliveIntervalSecs := 10
  heartbeatTimeoutMultiplier := 3
  keepaliveRetries := 3
  reconnectMaxRetries := 0

/-- The conditions under which a configuration is refused, in the order in which they are checked. -/
def refusals (self : NetworkConfig) : List (Bool × String) :=
  [(self.heartbeatIntervalMs == 0, "heartbeat_interval_ms must be > 0"),
    (decide (self.electionTimeoutMinMs ≤ self.heartbeatIntervalMs),
      "election_timeout_min_ms must be > heartbeat_interval_ms"),
    (decide (self.electionTimeoutMinMs > self.electionTimeoutMaxMs),
      "election_timeout_min_ms must be <= election_timeout_max_ms"),
    (self.heartbeatTimeoutMultiplier == 0, "heartbeat_timeout_multiplier must be > 0"),
    (self.reconnectInitialMs == 0, "reconnect_initial_ms must be > 0"),
    (decide (self.reconnectInitialMs.toUInt32 > self.reconnectMaxMs),
      "reconnect_initial_ms must be <= reconnect_max_ms"),
    (self.sendQueueCapacity == 0, "send_queue_capacity must be > 0"),
    (self.incomingQueueCapacity == 0, "incoming_queue_capacity must be > 0"),
    (self.maxConnections == 0, "max_connections must be > 0"),
    (self.maxMessageSize == 0, "max_message_size must be > 0"),
    (self.handshakeTimeoutMs == 0, "handshake_timeout_ms must be > 0"),
    (self.writeTimeoutMs == 0, "write_timeout_ms must be > 0"),
    (self.keepaliveTimeSecs == 0, "keepalive_time_secs must be > 0"),
    (self.keepaliveIntervalSecs == 0, "keepalive_interval_secs must be > 0"),
    (self.keepaliveRetries == 0, "keepalive_retries must be > 0")]

def validate (self : NetworkConfig) : Except MessageError Unit :=
  match self.refusals.find? (·.1) with
  | some (_, msg) => .error (.invalidArgument msg)
  | none => .ok ()

theorem validate_eq_ok_iff {self : NetworkConfig} :
    self.validate = .ok () ↔ ∀ refusal ∈ self.refusals, refusal.1 = false := by
  unfold validate
  cases hfind : self.refusals.find? (·.1) with
  | none => simpa using hfind
  | some refusal =>
    have hrefused := List.find?_some hfind
    simp only [reduceCtorEq, false_iff, not_forall]
    exact ⟨refusal, List.mem_of_find?_eq_some hfind, by simp [hrefused]⟩

theorem initial_le_max_of_validate {self : NetworkConfig} (h : self.validate = .ok ()) :
    self.reconnectInitialMs.toNat ≤ self.reconnectMaxMs.toNat := by
  have hmem : (decide (self.reconnectInitialMs.toUInt32 > self.reconnectMaxMs),
      "reconnect_initial_ms must be <= reconnect_max_ms") ∈ self.refusals := by
    simp only [refusals, List.mem_cons, true_or, or_true]
  have hrefusal := validate_eq_ok_iff.mp h _ hmem
  rw [decide_eq_false_iff_not, gt_iff_lt, UInt32.not_lt, UInt32.le_iff_toNat_le] at hrefusal
  simpa using hrefusal

example : default.validate = .ok () := rfl

end NetworkConfig

end MetaMystia

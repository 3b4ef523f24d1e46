import MetaMystia.Ffi.SetLeader

/-! # The round-trip time at the FFI boundary

The difference of two `u64` clocks saturates at zero, is cast to `u32` where it is
stored and to `i32` where it is read, and `-1` stands for a time that is not known.
The casts wrap, each at its own boundary.
-/

namespace MetaMystia

def MembershipManager.getPeerRtt (self : MembershipManager) (peerId : PeerId) : Option UInt32 :=
  (self.peers.lookup peerId).bind (·.rttMs)

def getPeerRTT (describe : List UInt8 → String) (network : Option NetworkState)
    (peerId : Option (List UInt8)) : Int32 :=
  match cStrToString describe peerId with
  | .error _ => -1
  | .ok pid =>
    match network with
    | none => -1
    | some state =>
      match state.membership.getPeerRtt ⟨pid⟩ with
      | some rtt => rtt.toInt32
      | none => -1

def elapsedMs (nowMs sentTimestampMs : UInt64) : Nat := nowMs.toNat - sentTimestampMs.toNat

namespace NetworkState

def rttAfterPong (self : NetworkState) (describe : List UInt8 → String) (peerId : PeerId)
    (pointer : Option (List UInt8)) (timestampMs : UInt64) (now : Clock) : Int32 :=
  getPeerRTT describe (some (self.handleMessage peerId now (.pong timestampMs)).1) pointer

/-- The reading is the round-trip time as far as it fits, never the value for an unknown one, and
no smaller than a reading at an earlier time of the clock. -/
structure ReadsRtt (state : NetworkState) (describe : List UInt8 → String) (peerId : PeerId)
    (pointer : Option (List UInt8)) (timestampMs : UInt64) (now : Clock) : Prop where
  nonneg : 0 ≤ (state.rttAfterPong describe peerId pointer timestampMs now).toInt
  sentinel : state.rttAfterPong describe peerId pointer timestampMs now = -1 →
    (state.handleMessage peerId now (.pong timestampMs)).1.membership.getPeerRtt peerId = none
  exact : elapsedMs now.timestampMs timestampMs < 2 ^ 31 →
    (state.rttAfterPong describe peerId pointer timestampMs now).toInt =
      elapsedMs now.timestampMs timestampMs
  monotone : ∀ earlier : Clock, earlier.timestampMs ≤ now.timestampMs →
    (state.rttAfterPong describe peerId pointer timestampMs earlier).toInt ≤
      (state.rttAfterPong describe peerId pointer timestampMs now).toInt

end NetworkState

theorem MembershipManager.getPeerRtt_handlePong {self : MembershipManager} {peerId : PeerId}
    (h : peerId ∈ self.peers) (sentTimestampMs : UInt64) (now : Nat) (nowMs : UInt64) :
    (self.handlePong peerId sentTimestampMs now nowMs).getPeerRtt peerId =
      some (UInt32.ofNat (elapsedMs nowMs sentTimestampMs)) := by
  obtain ⟨info, hinfo⟩ := Option.isSome_iff_exists.mp (AList.lookup_isSome.mpr h)
  have hrtt : (if sentTimestampMs ≤ nowMs then nowMs - sentTimestampMs else 0).toUInt32 =
      UInt32.ofNat (elapsedMs nowMs sentTimestampMs) := by
    apply UInt32.toNat_inj.mp
    rw [UInt64.toNat_toUInt32, UInt32.toNat_ofNat', elapsedMs]
    split_ifs with hle
    · rw [UInt64.toNat_sub_of_le _ _ hle]
    · rw [UInt64.not_le, UInt64.lt_iff_toNat_lt] at hle
      rw [Nat.sub_eq_zero_of_le hle.le]
      rfl
  simp only [handlePong, modify, hinfo, getPeerRtt, AList.lookup_insert, Option.bind_some, hrtt]

theorem toInt_toInt32_ofNat (n : Nat) :
    (UInt32.ofNat n).toInt32.toInt =
      if n % 2 ^ 32 < 2 ^ 31 then ((n % 2 ^ 32 : Nat) : Int) else ((n % 2 ^ 32 : Nat) : Int) - 2 ^ 32 := by
  rw [UInt32.toInt32_ofNat', ← Int32.toInt_toBitVec, Int32.toBitVec_ofNat', BitVec.toInt_eq_toNat_cond,
    BitVec.toNat_ofNat]
  split_ifs <;> omega

namespace NetworkState

variable {state : NetworkState} {describe : List UInt8 → String} {peerId : PeerId}
  {pointer : Option (List UInt8)}

theorem getPeerRtt_of_pong (hknown : peerId ∈ state.membership.peers) (timestampMs : UInt64)
    (now : Clock) :
    (state.handleMessage peerId now (.pong timestampMs)).1.membership.getPeerRtt peerId =
      some (UInt32.ofNat (elapsedMs now.timestampMs timestampMs)) :=
  MembershipManager.getPeerRtt_handlePong hknown timestampMs now.instant now.timestampMs

theorem toInt_rttAfterPong (hknown : peerId ∈ state.membership.peers)
    (hpointer : cStrToString describe pointer = .ok peerId.id) (timestampMs : UInt64) (now : Clock) :
    (state.rttAfterPong describe peerId pointer timestampMs now).toInt =
      if elapsedMs now.timestampMs timestampMs % 2 ^ 32 < 2 ^ 31 then
        ((elapsedMs now.timestampMs timestampMs % 2 ^ 32 : Nat) : Int)
      else ((elapsedMs now.timestampMs timestampMs % 2 ^ 32 : Nat) : Int) - 2 ^ 32 := by
  rw [rttAfterPong, getPeerRTT, hpointer]
  simp only [getPeerRtt_of_pong hknown]
  exact toInt_toInt32_ofNat _

/-- A reading after `2 ^ 31 - 1` milliseconds is the largest there is. -/
theorem exists_largest_reading {timestampMs : UInt64} {now : Clock}
    (hlong : 2 ^ 31 ≤ elapsedMs now.timestampMs timestampMs) :
    ∃ earlier : Clock, earlier.timestampMs ≤ now.timestampMs ∧
      elapsedMs earlier.timestampMs timestampMs = 2 ^ 31 - 1 := by
  have hnow := now.timestampMs.toNat_lt
  unfold elapsedMs at hlong
  have hmoment : (UInt64.ofNat (timestampMs.toNat + (2 ^ 31 - 1))).toNat =
      timestampMs.toNat + (2 ^ 31 - 1) := UInt64.toNat_ofNat_of_lt' (by unfold UInt64.size; omega)
  refine ⟨⟨now.instant, UInt64.ofNat (timestampMs.toNat + (2 ^ 31 - 1))⟩, ?_, ?_⟩
  · rw [UInt64.le_iff_toNat_le, hmoment]
    omega
  · rw [elapsedMs, hmoment]
    omega

/-- For a known peer and every pair of clock value and timestamp, the reading is what it should be
if and only if the time fits an `i32`, or wraps around to the largest one. -/
theorem readsRtt_iff (hknown : peerId ∈ state.membership.peers)
    (hpointer : cStrToString describe pointer = .ok peerId.id) (timestampMs : UInt64) (now : Clock) :
    state.ReadsRtt describe peerId pointer timestampMs now ↔
      elapsedMs now.timestampMs timestampMs < 2 ^ 31 ∨
        elapsedMs now.timestampMs timestampMs % 2 ^ 32 = 2 ^ 31 - 1 := by
  have hread := toInt_rttAfterPong hknown hpointer timestampMs
  constructor
  · intro h
    by_contra hnot
    obtain ⟨hlong, hwrapped⟩ := not_or.mp hnot
    obtain ⟨earlier, hearlier, helapsed⟩ := exists_largest_reading (not_lt.mp hlong)
    have hmonotone := h.monotone earlier hearlier
    rw [hread earlier, hread now, helapsed] at hmonotone
    split_ifs at hmonotone <;> omega
  · intro h
    have hlt : elapsedMs now.timestampMs timestampMs % 2 ^ 32 < 2 ^ 31 := by omega
    constructor
    · rw [hread, if_pos hlt]
      omega
    · intro hsentinel
      have hnegative := hread now
      rw [hsentinel, if_pos hlt] at hnegative
      have hminus : (-1 : Int32).toInt = -1 := by decide
      omega
    · intro hshort
      rw [hread, if_pos hlt, Nat.mod_eq_of_lt (by omega)]
    · rintro earlier hearlier
      have hle : elapsedMs earlier.timestampMs timestampMs ≤
          elapsedMs now.timestampMs timestampMs :=
        Nat.sub_le_sub_right (UInt64.le_iff_toNat_le.mp hearlier) _
      rw [hread earlier, hread now]
      split_ifs <;> omega

def besidePeer : NetworkState :=
  let state := NetworkState.new ⟨"a"⟩ "s" 4000 true 1000 3 true .hold
  { state with
    membership :=
      { state.membership with peers := state.membership.peers.insert ⟨"b"⟩ (.new ⟨"b"⟩ "h:1" 0) } }

theorem besidePeer_reads_rtt :
    besidePeer.ReadsRtt (fun _ => "") ⟨"b"⟩ (some "b".toUTF8.data.toList) 960 ⟨0, 1000⟩ :=
  (readsRtt_iff (by decide) (cStrToString_toUTF8 _ "b") 960 ⟨0, 1000⟩).mpr (.inl (by decide))

/-- The peer echoes a timestamp `2 ^ 32 - 1` milliseconds old. -/
theorem besidePeer_reads_unknown :
    ⟨"b"⟩ ∈ besidePeer.membership.peers ∧
      (besidePeer.handleMessage ⟨"b"⟩ ⟨0, 1700000000000⟩ (.pong 1695705032705)).1.membership.getPeerRtt
        ⟨"b"⟩ = some 4294967295 ∧
      besidePeer.rttAfterPong (fun _ => "") ⟨"b"⟩ (some "b".toUTF8.data.toList) 1695705032705
        ⟨0, 1700000000000⟩ = -1 ∧
      ¬ besidePeer.ReadsRtt (fun _ => "") ⟨"b"⟩ (some "b".toUTF8.data.toList) 1695705032705
        ⟨0, 1700000000000⟩ := by
  have hknown : (⟨"b"⟩ : PeerId) ∈ besidePeer.membership.peers := by decide
  have hmeasured := getPeerRtt_of_pong hknown 1695705032705 ⟨0, 1700000000000⟩
  have hread : besidePeer.rttAfterPong (fun _ => "") ⟨"b"⟩ (some "b".toUTF8.data.toList) 1695705032705
      ⟨0, 1700000000000⟩ = -1 := by
    apply Int32.toInt_inj.mp
    rw [toInt_rttAfterPong hknown (cStrToString_toUTF8 _ "b")]
    decide
  refine ⟨hknown, hmeasured, hread, ?_⟩
  intro h
  exact absurd (hmeasured.symm.trans (h.sentinel hread)) nofun

end NetworkState

end MetaMystia

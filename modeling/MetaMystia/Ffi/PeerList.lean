import Mathlib.Data.List.TakeWhile
import MetaMystia.Library.Separated
import MetaMystia.Library.Utf8
import MetaMystia.Node.NetworkState
import MetaMystia.Transport.Handshake

/-! # The list of connected peers at the FFI boundary

`GetPeerList` joins the ids with newlines into one C string, and the wrapper splits
it again. A handshake admits any string as an id. A C string is its bytes before the
terminating NUL; the text that the wrapper takes them for depends on the platform.
-/

namespace MetaMystia

def MembershipManager.getConnectedPeers (self : MembershipManager) : List PeerId :=
  (self.peers.entries.filter fun entry => entry.2.status == .connected).map (·.1)

def PeerId.bytes (peerId : PeerId) : List UInt8 := Utf8.bytes peerId.id

/-- `CString::new` refuses a NUL byte, and the empty C string stands in. -/
def returnString (s : String) : List UInt8 := if 0 ∈ Utf8.bytes s then [] else Utf8.bytes s

/-- `none` is the null pointer. -/
def getPeerList (network : Option NetworkState) : Option (List UInt8) :=
  network.map fun state =>
    returnString ("\n".intercalate (state.membership.getConnectedPeers.map (·.id)))

def getPeerCount (network : Option NetworkState) : Int32 :=
  match network with
  | some state => Int32.ofNat state.membership.getConnectedPeerCount
  | none => -1

def readToNul (pointer : Option (List UInt8)) : List UInt8 := (pointer.getD []).takeWhile (· ≠ 0)

def peerListPieces (network : Option NetworkState) : List (List UInt8) :=
  Separated.pieces 10 (readToNul (getPeerList network))

/-- `decode` is what `Marshal.PtrToStringAnsi` does: UTF-8, or the ANSI code page on Windows. -/
def ptrToString (decode : List UInt8 → List Char) (pointer : Option (List UInt8)) : List Char :=
  match pointer with
  | some _ => decode (readToNul pointer)
  | none => []

def getPeerIds (decode : List UInt8 → List Char) (network : Option NetworkState) : List PeerId :=
  (Separated.pieces '\n' (ptrToString decode (getPeerList network))).map fun piece =>
    ⟨String.ofList piece⟩

structure ListsPeers (state : NetworkState) : Prop where
  ids : (peerListPieces (some state)).Perm (state.membership.getConnectedPeers.map PeerId.bytes)
  once : (peerListPieces (some state)).Nodup
  count : (peerListPieces (some state)).length = (getPeerCount (some state)).toInt

def PeerId.Listable (peerId : PeerId) : Prop :=
  peerId.id ≠ "" ∧ '\n' ∉ peerId.id.toList ∧ '\x00' ∉ peerId.id.toList

theorem newline_mem_bytes_iff {s : String} : 10 ∈ Utf8.bytes s ↔ '\n' ∈ s.toList :=
  Utf8.mem_bytes_iff (by decide) rfl

theorem nul_mem_bytes_iff {s : String} : 0 ∈ Utf8.bytes s ↔ '\x00' ∈ s.toList :=
  Utf8.mem_bytes_iff (by decide) rfl

theorem PeerId.bytes_injective : Function.Injective PeerId.bytes :=
  fun _ _ h => PeerId.id_injective (Utf8.bytes_inj.mp h)

namespace MembershipManager

theorem length_getConnectedPeers (self : MembershipManager) :
    self.getConnectedPeers.length = self.getConnectedPeerCount := by
  rw [getConnectedPeers, List.length_map, getConnectedPeerCount, List.countP_eq_length_filter]

theorem nodup_getConnectedPeers (self : MembershipManager) : self.getConnectedPeers.Nodup := by
  have hsub : self.getConnectedPeers.Sublist self.peers.keys := List.filter_sublist.map Sigma.fst
  exact hsub.nodup self.peers.keys_nodup

end MembershipManager

def listing (peers : List PeerId) : List UInt8 := Separated.joined 10 (peers.map PeerId.bytes)

theorem toList_listing (peers : List PeerId) :
    ("\n".intercalate (peers.map (·.id))).toList =
      Separated.joined '\n' (peers.map fun peerId => peerId.id.toList) := by
  rw [String.toList_intercalate, List.map_map]
  rfl

theorem bytes_listing (peers : List PeerId) :
    Utf8.bytes ("\n".intercalate (peers.map (·.id))) = listing peers := by
  have hsep : String.utf8EncodeChar '\n' = [10] := by decide
  rw [Utf8.bytes_eq_encode, toList_listing, Utf8.encode, Separated.flatMap_joined hsep, List.map_map,
    listing]
  refine congrArg _ (List.map_congr_left fun peerId _ => ?_)
  exact (Utf8.bytes_eq_encode _).symm

theorem readToNul_getPeerList (state : NetworkState) :
    readToNul (getPeerList (some state)) =
      if 0 ∈ listing state.membership.getConnectedPeers then []
      else listing state.membership.getConnectedPeers := by
  simp only [readToNul, getPeerList, returnString, Option.map_some, Option.getD_some, bytes_listing]
  split_ifs with hnul
  · rfl
  · rw [List.takeWhile_eq_self_iff]
    intro byte hbyte
    apply decide_eq_true
    rintro rfl
    exact hnul hbyte

theorem nul_mem_listing_iff {peers : List PeerId} :
    0 ∈ listing peers ↔ ∃ peerId ∈ peers, '\x00' ∈ peerId.id.toList := by
  constructor
  · intro h
    obtain heq | ⟨bytes, hbytes, hmem⟩ := Separated.exists_of_mem_joined h
    · exact absurd heq (by decide)
    · obtain ⟨peerId, hpeer, rfl⟩ := List.mem_map.mp hbytes
      exact ⟨peerId, hpeer, nul_mem_bytes_iff.mp hmem⟩
  · rintro ⟨peerId, hpeer, hmem⟩
    exact Separated.mem_joined (List.mem_map_of_mem hpeer) (nul_mem_bytes_iff.mpr hmem)

theorem separable_iff {peers : List PeerId} (hnul : 0 ∉ listing peers) :
    Separated.Separable 10 (peers.map PeerId.bytes) ↔ ∀ peerId ∈ peers, peerId.Listable := by
  unfold Separated.Separable
  rw [List.forall_mem_map]
  refine forall₂_congr fun peerId hpeer => ?_
  have hfree : '\x00' ∉ peerId.id.toList := fun hmem => hnul (nul_mem_listing_iff.mpr ⟨peerId, hpeer, hmem⟩)
  simp only [PeerId.bytes, ne_eq, Utf8.bytes_eq_nil_iff, newline_mem_bytes_iff, PeerId.Listable, hfree,
    not_false_eq_true, and_true]

theorem ids_iff (state : NetworkState) :
    (peerListPieces (some state)).Perm (state.membership.getConnectedPeers.map PeerId.bytes) ↔
      ∀ peerId ∈ state.membership.getConnectedPeers, peerId.Listable := by
  rw [peerListPieces, readToNul_getPeerList]
  generalize state.membership.getConnectedPeers = peers
  split_ifs with hnul
  · -- The application gets the empty string, and at least one id is there.
    obtain ⟨peerId, hpeer, hmem⟩ := nul_mem_listing_iff.mp hnul
    refine iff_of_false ?_ fun h => (h peerId hpeer).2.2 hmem
    intro hperm
    have hempty := List.nil_perm.mp hperm
    rw [List.map_eq_nil_iff] at hempty
    exact absurd hpeer (hempty ▸ List.not_mem_nil)
  · rw [listing, Separated.pieces_perm_iff]
    exact separable_iff hnul

/-- Where the platform decodes the listing to the text that it was made from, the wrapper returns the
ids themselves. -/
theorem getPeerIds_of_decodes {decode : List UInt8 → List Char} {state : NetworkState}
    (hlistable : ∀ peerId ∈ state.membership.getConnectedPeers, peerId.Listable)
    (hdecodes : decode (listing state.membership.getConnectedPeers) =
      Separated.joined '\n' (state.membership.getConnectedPeers.map fun peerId => peerId.id.toList)) :
    getPeerIds decode (some state) = state.membership.getConnectedPeers := by
  have hnul : 0 ∉ listing state.membership.getConnectedPeers := by
    intro h
    obtain ⟨peerId, hpeer, hmem⟩ := nul_mem_listing_iff.mp h
    exact (hlistable peerId hpeer).2.2 hmem
  have hseparable : Separated.Separable '\n'
      (state.membership.getConnectedPeers.map fun peerId => peerId.id.toList) := by
    intro chars hchars
    obtain ⟨peerId, hpeer, rfl⟩ := List.mem_map.mp hchars
    obtain ⟨hne, hsep, _⟩ := hlistable peerId hpeer
    exact ⟨fun hempty => hne (String.toList_eq_nil_iff.mp hempty), hsep⟩
  have hread : ptrToString decode (getPeerList (some state)) =
      decode (readToNul (getPeerList (some state))) := rfl
  rw [getPeerIds, hread, readToNul_getPeerList, if_neg hnul, hdecodes, Separated.pieces_joined hseparable,
    List.map_map]
  conv_rhs => rw [← List.map_id state.membership.getConnectedPeers]
  exact List.map_congr_left fun peerId _ => congrArg PeerId.mk String.ofList_toList

theorem toInt_ofNat_eq_iff (n : Nat) : (n : Int) = (Int32.ofNat n).toInt ↔ n < 2 ^ 31 := by
  constructor
  · intro h
    have hlt := (Int32.ofNat n).toInt_lt
    omega
  · intro h
    exact (Int32.toInt_ofNat_of_lt h).symm

/-- For every node: the pieces of the C string are the ids of the connected peers, each once, and as
many as `GetPeerCount` tells, if and only if no id of a connected peer is empty or contains a newline
or a NUL, and the number of connected peers is an `i32`. -/
theorem lists_peers_iff (state : NetworkState) :
    ListsPeers state ↔
      (∀ peerId ∈ state.membership.getConnectedPeers, peerId.Listable) ∧
        state.membership.getConnectedPeerCount < 2 ^ 31 := by
  have hcount := toInt_ofNat_eq_iff state.membership.getConnectedPeerCount
  constructor
  · rintro ⟨hids, _, hlength⟩
    refine ⟨(ids_iff state).mp hids, hcount.mp ?_⟩
    rw [hids.length_eq, List.length_map, MembershipManager.length_getConnectedPeers] at hlength
    exact hlength
  · rintro ⟨hlistable, hrange⟩
    have hids := (ids_iff state).mpr hlistable
    have hnodup := state.membership.nodup_getConnectedPeers.map PeerId.bytes_injective
    refine ⟨hids, hids.nodup_iff.mpr hnodup, ?_⟩
    rw [hids.length_eq, List.length_map, MembershipManager.length_getConnectedPeers]
    exact hcount.mpr hrange

def admitting (peerId : PeerId) : Option NetworkState :=
  let state := NetworkState.new ⟨"a"⟩ "room" 4000 true 500 3 true .hold
  match (state.transport.processHandshakeMessage (.handshake peerId 4001 1 "room")).2 with
  | .ok (remoteId, _, _) =>
    match state.transport.registerConnection remoteId "10.0.0.2:4001" 1 with
    | .ok transport => some ({ state with transport }.peerConnected remoteId ⟨1, 1⟩)
    | .error _ => none
  | .error _ => none

/-- A peer whose id has a newline in it is two peers to the application. -/
theorem newline_in_id_lists_two_peers :
    ∃ state ∈ admitting ⟨"b\nc"⟩, state.membership.getConnectedPeers = [⟨"b\nc"⟩] ∧
      peerListPieces (some state) = [PeerId.bytes ⟨"b"⟩, PeerId.bytes ⟨"c"⟩] ∧
      getPeerCount (some state) = 1 ∧ ¬ ListsPeers state := by
  have hadmitted : ∃ state ∈ admitting ⟨"b\nc"⟩, state.membership.getConnectedPeers = [⟨"b\nc"⟩] ∧
      peerListPieces (some state) = [PeerId.bytes ⟨"b"⟩, PeerId.bytes ⟨"c"⟩] ∧
      getPeerCount (some state) = 1 := by decide +kernel
  obtain ⟨state, hstate, hpeers, hids, hcount⟩ := hadmitted
  refine ⟨state, hstate, hpeers, hids, hcount, ?_⟩
  intro h
  have hlength := h.ids.length_eq
  rw [hids, hpeers] at hlength
  exact absurd hlength (by decide)

end MetaMystia

import MetaMystia.Node.DnsLabel
import MetaMystia.Types

/-! # The mDNS instance name

Session and peer are joined by a `_` that may occur in both, and what is too long is
cut and hashed. So two pairs share a name when the separator is read in another
place, when their hashes collide, or when one pair spells out the other's label.
-/

namespace MetaMystia

open Utf8

def joinedName (sessionId : String) (localPeerId : PeerId) : String :=
  sessionId ++ "_" ++ localPeerId.id

/-- `instance_name` of `DiscoveryManager::new`. -/
def instanceName (sessionId : String) (localPeerId : PeerId) : Option String :=
  makeUniqueDnsLabel (joinedName sessionId localPeerId)

/-- The session of the second pair goes on where that of the first has its separator. -/
def Regroups (session : String) (peer : PeerId) (session' : String) (peer' : PeerId) : Prop :=
  ∃ middle, session' = session ++ "_" ++ middle ∧ peer.id = middle ++ "_" ++ peer'.id

def SharesDigest (s t : String) : Prop :=
  maxDnsLabelBytes < s.utf8ByteSize ∧ maxDnsLabelBytes < t.utf8ByteSize ∧ fnv1a64 s = fnv1a64 t ∧
    ∃ front, LongestPrefix s 46 front ∧ LongestPrefix t 46 front

/-- A short text that reads like the cut of a long one with its hash behind. -/
def Imitates (s t : String) : Prop :=
  s.utf8ByteSize ≤ maxDnsLabelBytes ∧ maxDnsLabelBytes < t.utf8ByteSize ∧
    ∃ front, LongestPrefix t 46 front ∧ s = front ++ "_" ++ fnv1a64Hex t

structure ToldApart (session : String) (peer : PeerId) (session' : String) (peer' : PeerId) :
    Prop where
  grouping : ¬ Regroups session peer session' peer'
  grouping' : ¬ Regroups session' peer' session peer
  digest : ¬ SharesDigest (joinedName session peer) (joinedName session' peer')
  imitation : ¬ Imitates (joinedName session peer) (joinedName session' peer')
  imitation' : ¬ Imitates (joinedName session' peer') (joinedName session peer)

theorem Regroups.joinedName_eq {session session' : String} {peer peer' : PeerId}
    (h : Regroups session peer session' peer') : joinedName session peer = joinedName session' peer' := by
  obtain ⟨middle, hsession, hpeer⟩ := h
  rw [joinedName, joinedName, hsession, hpeer]
  simp only [String.append_assoc]

theorem regroups_of_longer {session session' : String} {peer peer' : PeerId} {more : List Char}
    (hne : (session, peer) ≠ (session', peer')) (hsession : session'.toList = session.toList ++ more)
    (hpeer : '_' :: peer.id.toList = more ++ '_' :: peer'.id.toList) :
    Regroups session peer session' peer' := by
  cases more with
  | nil =>
    rw [List.append_nil] at hsession
    have hid : peer.id = peer'.id := String.toList_inj.mp (List.cons.inj hpeer).2
    have hpair : (session, peer) = (session', peer') := by
      rw [String.toList_inj.mp hsession, PeerId.id_injective hid]
    exact absurd hpair hne
  | cons c middle =>
    obtain ⟨rfl, hid⟩ := List.cons.inj hpeer
    refine ⟨String.ofList middle, String.toList_inj.mp ?_, String.toList_inj.mp ?_⟩
    · simp only [String.toList_append, String.toList_ofList, hsession]
      simp
    · simp only [String.toList_append, String.toList_ofList, hid]
      simp

theorem joinedName_eq_iff {session session' : String} {peer peer' : PeerId}
    (hne : (session, peer) ≠ (session', peer')) :
    joinedName session peer = joinedName session' peer' ↔
      Regroups session peer session' peer' ∨ Regroups session' peer' session peer := by
  have hchars : ∀ (session : String) (peer : PeerId),
      (joinedName session peer).toList = session.toList ++ '_' :: peer.id.toList := by
    intro session peer
    simp [joinedName]
  constructor
  · intro h
    have hsplit := congrArg String.toList h
    rw [hchars, hchars, List.append_eq_append_iff] at hsplit
    obtain ⟨more, hsession, hpeer⟩ | ⟨more, hsession, hpeer⟩ := hsplit
    · exact .inl (regroups_of_longer hne hsession hpeer)
    · exact .inr (regroups_of_longer hne.symm hsession hpeer)
  · rintro (h | h)
    · exact h.joinedName_eq
    · exact h.joinedName_eq.symm

theorem fnv1a64Hex_inj {s t : String} (h : fnv1a64Hex s = fnv1a64Hex t) : fnv1a64 s = fnv1a64 t := by
  have hdigits := String.ofList_injective h
  apply UInt64.toNat_inj.mp
  rw [← (writes_fnv1a64 s).value, ← (writes_fnv1a64 t).value, hdigits]

theorem label_inj {front front' s t : String}
    (h : front ++ "_" ++ fnv1a64Hex s = front' ++ "_" ++ fnv1a64Hex t) :
    front = front' ∧ fnv1a64 s = fnv1a64 t := by
  have hbytes := congrArg bytes h
  simp only [bytes_append] at hbytes
  have hsize : (bytes (fnv1a64Hex s)).length = (bytes (fnv1a64Hex t)).length := by
    rw [length_bytes, length_bytes, utf8ByteSize_fnv1a64Hex, utf8ByteSize_fnv1a64Hex]
  obtain ⟨hfront, hhex⟩ := List.append_inj' hbytes hsize
  exact ⟨bytes_inj.mp (List.append_inj' hfront rfl).1, fnv1a64Hex_inj (bytes_inj.mp hhex)⟩

theorem SharesDigest.label_eq {s t : String} (h : SharesDigest s t) :
    makeUniqueDnsLabel s = makeUniqueDnsLabel t := by
  obtain ⟨hs, ht, hhash, front, hfront, hfront'⟩ := h
  obtain ⟨cut, heq, hcut⟩ := makeUniqueDnsLabel_of_long hs
  obtain ⟨cut', heq', hcut'⟩ := makeUniqueDnsLabel_of_long ht
  rw [heq, heq', hcut.unique hfront, hcut'.unique hfront', fnv1a64Hex, fnv1a64Hex, hhash]

theorem Imitates.label_eq {s t : String} (h : Imitates s t) :
    makeUniqueDnsLabel s = makeUniqueDnsLabel t := by
  obtain ⟨hs, ht, front, hfront, heq⟩ := h
  obtain ⟨cut, hlabel, hcut⟩ := makeUniqueDnsLabel_of_long ht
  rw [makeUniqueDnsLabel_of_short hs, hlabel, hcut.unique hfront, ← heq]

theorem makeUniqueDnsLabel_eq_iff {s t : String} :
    makeUniqueDnsLabel s = makeUniqueDnsLabel t ↔
      s = t ∨ SharesDigest s t ∨ Imitates s t ∨ Imitates t s := by
  constructor
  · intro h
    obtain hs | hs := Nat.lt_or_ge maxDnsLabelBytes s.utf8ByteSize <;>
      obtain ht | ht := Nat.lt_or_ge maxDnsLabelBytes t.utf8ByteSize
    · obtain ⟨front, heq, hfront⟩ := makeUniqueDnsLabel_of_long hs
      obtain ⟨front', heq', hfront'⟩ := makeUniqueDnsLabel_of_long ht
      rw [heq, heq', Option.some.injEq] at h
      obtain ⟨rfl, hhash⟩ := label_inj h
      exact .inr (.inl ⟨hs, ht, hhash, front, hfront, hfront'⟩)
    · obtain ⟨front, heq, hfront⟩ := makeUniqueDnsLabel_of_long hs
      rw [heq, makeUniqueDnsLabel_of_short ht, Option.some.injEq] at h
      exact .inr (.inr (.inr ⟨ht, hs, front, hfront, h.symm⟩))
    · obtain ⟨front, heq, hfront⟩ := makeUniqueDnsLabel_of_long ht
      rw [heq, makeUniqueDnsLabel_of_short hs, Option.some.injEq] at h
      exact .inr (.inr (.inl ⟨hs, ht, front, hfront, h⟩))
    · rw [makeUniqueDnsLabel_of_short hs, makeUniqueDnsLabel_of_short ht, Option.some.injEq] at h
      exact .inl h
  · rintro (rfl | h | h | h)
    · rfl
    · exact h.label_eq
    · exact h.label_eq
    · exact h.label_eq.symm

/-- For every two pairs of session and peer: their instance names differ if and only if no separator
is read in two places, no two long names share beginning and hash, and no short name spells out
the label of a long one. -/
theorem instanceName_ne_iff {session session' : String} {peer peer' : PeerId}
    (hne : (session, peer) ≠ (session', peer')) :
    instanceName session peer ≠ instanceName session' peer' ↔
      ToldApart session peer session' peer' := by
  unfold instanceName
  rw [Ne, makeUniqueDnsLabel_eq_iff, joinedName_eq_iff hne]
  constructor
  · intro h
    simp only [not_or] at h
    obtain ⟨⟨hgrouping, hgrouping'⟩, hdigest, himitation, himitation'⟩ := h
    exact ⟨hgrouping, hgrouping', hdigest, himitation, himitation'⟩
  · rintro h ((hgrouping | hgrouping) | hdigest | himitation | himitation)
    · exact h.grouping hgrouping
    · exact h.grouping' hgrouping
    · exact h.digest hdigest
    · exact h.imitation himitation
    · exact h.imitation' himitation

theorem session_and_peers_told_apart : ToldApart "s" ⟨"a"⟩ "s" ⟨"b"⟩ :=
  (instanceName_ne_iff (by decide)).mp (by decide)

/-- Every long name is the name of a pair of short ids, too. -/
theorem exists_imitator {session : String} {peer : PeerId}
    (hlong : maxDnsLabelBytes < (joinedName session peer).utf8ByteSize) :
    ∃ session' peer', (session', peer') ≠ (session, peer) ∧
      instanceName session' peer' = instanceName session peer := by
  obtain ⟨front, hlabel, hfront⟩ := makeUniqueDnsLabel_of_long hlong
  have hsize : (front ++ "_" ++ fnv1a64Hex (joinedName session peer)).utf8ByteSize =
      front.utf8ByteSize + 17 := utf8ByteSize_label (joinedName session peer)
  have hfits := hfront.fits
  have hjoined : joinedName front ⟨fnv1a64Hex (joinedName session peer)⟩ =
      front ++ "_" ++ fnv1a64Hex (joinedName session peer) := rfl
  have himitates : Imitates (joinedName front ⟨fnv1a64Hex (joinedName session peer)⟩)
      (joinedName session peer) := by
    refine ⟨?_, hlong, front, hfront, hjoined⟩
    rw [hjoined, hsize]
    unfold maxDnsLabelBytes
    omega
  refine ⟨front, ⟨fnv1a64Hex (joinedName session peer)⟩, ?_, himitates.label_eq⟩
  intro hsame
  have hlt := himitates.1
  obtain ⟨rfl, hpeer⟩ := Prod.mk.inj hsame
  rw [hpeer] at hlt
  omega

def longId : String := "0123456789012345678901234567890123456789"

/-- A `_` in the ids, and a name that is too long. -/
theorem different_pairs_collide :
    (("a_b", ⟨"c"⟩) : String × PeerId) ≠ ("a", ⟨"b_c"⟩) ∧
      instanceName "a_b" ⟨"c"⟩ = instanceName "a" ⟨"b_c"⟩ ∧
      ∃ session peer, ((session, peer) : String × PeerId) ≠ (longId, ⟨longId⟩) ∧
        instanceName session peer = instanceName longId ⟨longId⟩ := by
  refine ⟨by decide, rfl, exists_imitator ?_⟩
  decide

end MetaMystia

import MetaMystia.Node.Overlay
import MetaMystia.Session.DeliveredPayload

/-! # A user message is delivered at most once

A follower hands a broadcast to the node it takes for the leader, which delivers it
and sends it on if it takes itself for one. Roles, connections and what the nodes
think of each other may change at any time, and packets may be lost.
-/

namespace MetaMystia

variable {lz4 : Lz4} {postcard : Postcard} {p : PeerId}

/-- How often the packet may still lead to a delivery at node `p`. -/
def Flight.copies (postcard : Postcard) (p : PeerId) (flight : Flight) : Nat :=
  if flight.packet.isInternal then
    match decodeInternal postcard flight.packet with
    | .ok (.forwardedUserData fromPeerId ..) =>
      if p = flight.dst then 1 else if p = fromPeerId then 0 else 1
    | _ => 0
  else if p = flight.dst then 1 else 0

def HandledPacket.copies (p : PeerId) (handled : HandledPacket) : Nat :=
  if handled.node = p then handled.received.length else 0

theorem Flight.copies_user {flight : Flight} (huser : flight.packet.isInternal = false) :
    flight.copies postcard p = if p = flight.dst then 1 else 0 := by
  simp [copies, huser]

theorem Flight.copies_internal {flight : Flight} {msg : InternalMessage}
    (hdecode : decodeInternal postcard flight.packet = .ok msg)
    (hinternal : flight.packet.isInternal = true)
    (hmsg : ∀ fromPeerId msgType flags data, msg ≠ .forwardedUserData fromPeerId msgType flags data) :
    flight.copies postcard p = 0 := by
  simp only [copies, hinternal, hdecode, if_true]
  cases msg with
  | forwardedUserData fromPeerId msgType flags data => exact absurd rfl (hmsg _ _ _ _)
  | _ => rfl

theorem Flight.copies_forwarded {flight : Flight} {fromPeerId : PeerId} {msgType : UInt16}
    {flags : UInt8} {data : List UInt8} (hinternal : flight.packet.isInternal = true)
    (hdecode : decodeInternal postcard flight.packet =
      .ok (.forwardedUserData fromPeerId msgType flags data)) :
    flight.copies postcard p = if p = flight.dst then 1 else if p = fromPeerId then 0 else 1 := by
  simp only [copies, hinternal, hdecode, if_true]

/-- The message handler never wraps a user message itself. -/
theorem NetworkState.forwardsData_handleMessage {net : NetworkState} {src : PeerId} {now : Clock}
    {msg : InternalMessage} {out : Outgoing} (h : out ∈ (net.handleMessage src now msg).2) :
    Overlay.forwardsData out = false := by
  cases msg with
  | voteResponse term voter granted =>
    simp only [handleMessage, LeaderElection.handleMessage, handleMembership, List.append_nil] at h
    split at h
    · obtain rfl := List.mem_singleton.mp h
      rfl
    · cases h
  | peerListSync peers =>
    obtain ⟨entry, _, rfl⟩ := List.mem_map.mp h
    rfl
  | heartbeat term leader timestamp =>
    obtain rfl := List.mem_singleton.mp h
    rfl
  | requestVote term candidate =>
    obtain rfl := List.mem_singleton.mp h
    rfl
  | ping timestamp =>
    obtain rfl := List.mem_singleton.mp h
    rfl
  | _ => cases h

namespace Overlay

open Cascade Runs

def NotOwnPeer (p : PeerId) (peer : Peer) : Prop :=
  peer.net.transport.localPeerId = p ∧ p ∉ peer.net.transport.connections

theorem notOwnPeer_handleMessage (p : PeerId) (peer : Peer) (found : Found) (src : PeerId)
    (packet : RawPacket) (h : NotOwnPeer p peer) :
    NotOwnPeer p (peer.handleMessage lz4 postcard found src packet).1 := by
  refine ⟨(peer.localPeerId_handleMessage lz4 postcard found src packet).trans h.1, ?_⟩
  intro hmem
  exact h.2 ((peer.perm_keys_handleMessage lz4 postcard found src packet).mem_iff.mp hmem)

theorem sum_copies_le_one {peer : Peer} {sends : List (PeerId × RawPacket)} (h : peer.Distinct sends) :
    (sends.map fun send => if p = send.1 then 1 else 0).sum ≤ 1 := by
  have hcount : (sends.map fun send => if p = send.1 then 1 else 0).sum =
      (sends.map Prod.fst).count p := by
    induction sends with
    | nil => rfl
    | cons send rest ih =>
      have hrest : peer.Distinct rest :=
        ⟨h.nodup.of_cons, fun other hother => h.connected other (List.mem_cons_of_mem _ hother)⟩
      rw [List.map_cons, List.sum_cons, ih hrest, List.map_cons, List.count_cons, Nat.add_comm]
      simp only [beq_iff_eq, eq_comm (b := p)]
  rw [hcount]
  exact List.nodup_iff_count_le_one.mp h.nodup p

theorem sum_copies_eq_zero {sends : List (PeerId × RawPacket)} (h : ∀ send ∈ sends, send.1 ≠ p) :
    (sends.map fun send => if p = send.1 then 1 else 0).sum = 0 := by
  apply List.sum_eq_zero
  intro n hn
  obtain ⟨send, hsend, rfl⟩ := List.mem_map.mp hn
  exact if_neg (Ne.symm (h send hsend))

theorem copies_of_spreads {peer : Peer} {src : PeerId} {msgType : UInt16} {data : List UInt8}
    {flags : UInt8} {sends : List (PeerId × RawPacket)} (h : peer.Spreads lz4 msgType data flags sends) :
    ((flights src sends).map (Flight.copies postcard p)).sum =
      (sends.map fun send => if p = send.1 then 1 else 0).sum := by
  rw [flights, List.map_map]
  refine congrArg List.sum (List.map_congr_left ?_)
  intro send hsend
  exact Flight.copies_user (isInternal_of_encodePacket h.user (h.encoded send hsend))

theorem copies_of_post (hpostcard : postcard.RoundTrips) {peer : Peer} {trySend : TrySend}
    {src sender : PeerId} {out : Outgoing} (hout : forwardsData out = false) :
    ∀ flight ∈ flights src (peer.post postcard trySend sender out), flight.copies postcard p = 0 := by
  intro flight hflight
  obtain ⟨send, hsend, rfl⟩ := List.mem_map.mp hflight
  obtain ⟨hinternal, msg, hdecode, hmsg⟩ := Peer.decodes_of_post hpostcard hsend
  refine Flight.copies_internal hdecode hinternal ?_
  rintro fromPeerId msgType flags data rfl
  obtain rfl | rfl := hmsg <;> cases hout

theorem sum_eq_zero_of_forall {flightList : List Flight}
    (h : ∀ flight ∈ flightList, flight.copies postcard p = 0) :
    (flightList.map (Flight.copies postcard p)).sum = 0 := by
  apply List.sum_eq_zero
  intro n hn
  obtain ⟨flight, hflight, rfl⟩ := List.mem_map.mp hn
  exact h flight hflight

/-- A delivery at node `p` uses up the packet, and a packet sent on is one that may lead to it. -/
theorem conserves_copies (hpostcard : postcard.RoundTrips) (p : PeerId) :
    Conserves (rules lz4 postcard) (fun peers => ∀ q, NotOwnPeer q (peers q)) (Flight.copies postcard p)
      (HandledPacket.copies p) := by
  rintro peers found ⟨src, dst, packet⟩ hpeers
  simp only [rules]
  rcases (peers dst).handleMessage_cases lz4 postcard found src packet with
    ⟨fromPeerId, msgType, flags, data, event, hinternal, hdecode, hsends, hreceived, _⟩ |
    ⟨msg, hinternal, hdecode, hmsg, hsends, hreceived⟩ | ⟨_, hsends, hreceived⟩
  · rw [hsends, hreceived, Flight.copies_forwarded hinternal hdecode, HandledPacket.copies]
    obtain hnone | ⟨hspreads, hnot⟩ := (peers dst).handleForwardedUserData_spreads lz4 found.trySend
      fromPeerId msgType flags data
    · rw [hnone]
      by_cases hp : p = dst
      · simp [flights, hp]
      · simp [flights, Ne.symm hp]
    · rw [copies_of_spreads hspreads]
      by_cases hp : p = dst
      · subst hp
        rw [sum_copies_eq_zero]
        · simp
        · rintro send hsend rfl
          exact (hpeers _).2 (hspreads.distinct.connected send hsend)
      · rw [if_neg (Ne.symm hp), if_neg hp]
        by_cases hfrom : p = fromPeerId
        · subst hfrom
          rw [sum_copies_eq_zero hnot, if_pos rfl]
        · rw [if_neg hfrom]
          exact sum_copies_le_one hspreads.distinct
  · rw [hsends, hreceived, HandledPacket.copies, List.length_nil, ite_self, sum_eq_zero_of_forall]
    · exact Nat.zero_le _
    · intro flight hflight
      obtain ⟨send, hsend, rfl⟩ := List.mem_map.mp hflight
      obtain ⟨out, hout, hsend⟩ := List.mem_flatMap.mp hsend
      exact copies_of_post hpostcard (NetworkState.forwardsData_handleMessage hout) _
        (List.mem_map_of_mem hsend)
  · rw [hsends, hreceived, HandledPacket.copies]
    cases huser : packet.isInternal with
    | true => simp [flights]
    | false =>
      rw [Flight.copies_user huser]
      by_cases hp : p = dst
      · simp [flights, hp]
      · simp [flights, hp, Ne.symm hp]

theorem endows_copies (hpostcard : postcard.RoundTrips) (p : PeerId) :
    Endows (rules lz4 postcard) (fun peers => ∀ q, NotOwnPeer q (peers q)) (Flight.copies postcard p)
      (fun origin => if origin.node = p then 0 else 1) := by
  rintro peers ⟨node, trySend, call⟩ label next sent hpeers horiginate
  obtain ⟨rfl, _, rfl⟩ : (⟨node, call.message⟩ : Origin) = label ∧ _ ∧
      flights node (calls lz4 postcard (peers node) trySend call) = sent := by
    simpa [rules] using horiginate
  obtain ⟨hlocal, hown⟩ := hpeers node
  obtain hnone | ⟨_, _, _, _, hspreads⟩ |
    ⟨_, _, _, leader, packet, _, _, hsends, hleader, hinternal, hdecode⟩ | ⟨sender, out, _, hout, hsends⟩ :=
      calls_cases lz4 hpostcard (peers node) trySend call
  · simp [hnone, flights]
  · show _ ≤ if node = p then 0 else 1
    rw [copies_of_spreads hspreads]
    by_cases hp : node = p
    · subst hp
      rw [if_pos rfl, sum_copies_eq_zero]
      rintro send hsend rfl
      exact hown (hspreads.distinct.connected send hsend)
    · rw [if_neg hp]
      exact sum_copies_le_one hspreads.distinct
  · have hne : leader ≠ node := by
      rintro rfl
      exact hown hleader
    rw [hsends, flights, List.map_singleton, List.map_singleton, List.sum_singleton,
      Flight.copies_forwarded hinternal hdecode, hlocal]
    show (if p = leader then 1 else if p = node then 0 else 1) ≤ if node = p then 0 else 1
    by_cases hp : node = p
    · subst hp
      rw [if_neg (Ne.symm hne), if_pos rfl]
    · rw [if_neg hp]
      split_ifs <;> omega
  · rw [sum_eq_zero_of_forall (hsends ▸ copies_of_post hpostcard hout)]
    exact Nat.zero_le _

def deliveredTo (p : PeerId) (cause : Nat) (s : Run) : Nat :=
  weightOf (HandledPacket.copies p) cause s.records

/-- As long as no node is its own peer, what one call sends is delivered at most once to every node,
and never to the node that has made the call. -/
theorem delivered_at_most_once (hpostcard : postcard.RoundTrips) {peers : PeerId → Peer}
    (hstart : ∀ p, NotOwnPeer p (peers p)) {acts : List Action}
    (hacts : ∀ a ∈ acts, Respects NotOwnPeer a) {s : Run}
    (hrun : run (step (rules lz4 postcard)) (start peers) acts = some s) {cause : Nat} {origin : Origin}
    (horigin : s.origins[cause]? = some origin) (p : PeerId) :
    deliveredTo p cause s ≤ if origin.node = p then 0 else 1 :=
  worth_le (conserves_copies hpostcard p) (endows_copies hpostcard p)
    (along_of_respects notOwnPeer_handleMessage hstart hacts) hrun horigin

theorem notOwnPeer_samplePeer (peers : List PeerId) (p : PeerId) : NotOwnPeer p (samplePeer peers p) := by
  refine ⟨rfl, ?_⟩
  simp [samplePeer, Session.sampleRouter, Session.mem_linked]

theorem samplePostcard_roundTrips : Session.samplePostcard.RoundTrips := by
  intro msg bytes h
  simp only [Session.samplePostcard] at h
  split_ifs at h with hmsg
  cases h
  rw [hmsg]
  rfl

/-- Follower `b` broadcasts; leader `a` and then `c` handle what reaches them. -/
def broadcasting : List Action :=
  [.originate (⟨"b"⟩, fun _ => .ok (), .routeMessage .broadcast 0x0100 [104, 105] 0x03),
    .handle 0 ⟨⟨0, 5⟩, fun _ => .ok ()⟩, .handle 0 ⟨⟨0, 7⟩, fun _ => .ok ()⟩]

/-- The message of `b` comes once to `a` and to `c`, and not to `b`. -/
theorem trio_delivered_once :
    ∃ s, run (step (rules zeroRunBlock Session.samplePostcard))
        (start (samplePeer [⟨"a"⟩, ⟨"b"⟩, ⟨"c"⟩])) broadcasting = some s ∧
      deliveredTo ⟨"a"⟩ 0 s = 1 ∧ deliveredTo ⟨"c"⟩ 0 s = 1 ∧
      ∀ p, deliveredTo p 0 s ≤ if (⟨"b"⟩ : PeerId) = p then 0 else 1 := by
  have hacts : ∀ a ∈ broadcasting, Respects NotOwnPeer a := by simp [broadcasting, Respects]
  obtain ⟨s, hrun, horigin, ha, hc⟩ : ∃ s, run (step (rules zeroRunBlock Session.samplePostcard))
        (start (samplePeer [⟨"a"⟩, ⟨"b"⟩, ⟨"c"⟩])) broadcasting = some s ∧
      s.origins[0]? = some ⟨⟨"b"⟩, some (0x0100, [104, 105], 0x03)⟩ ∧
      deliveredTo ⟨"a"⟩ 0 s = 1 ∧ deliveredTo ⟨"c"⟩ 0 s = 1 :=
    ⟨_, rfl, rfl, by decide +kernel, by decide +kernel⟩
  exact ⟨s, hrun, ha, hc, delivered_at_most_once samplePostcard_roundTrips (notOwnPeer_samplePeer _)
    hacts hrun horigin⟩

/-- What a packet shows of the user message that it comes from. -/
def Shows (lz4 : Lz4) (postcard : Postcard) (origin : Origin) (flight : Flight) : Prop :=
  if flight.packet.isInternal then
    ∀ fromPeerId msgType flags data,
      decodeInternal postcard flight.packet = .ok (.forwardedUserData fromPeerId msgType flags data) →
      ∃ userFlags, origin.message = some (msgType, data, userFlags) ∧ flags = userFlags &&& 0xFE ∧
        data.length < 2 ^ 32
  else
    ∃ msgType data userFlags, origin.message = some (msgType, data, userFlags) ∧
      flight.packet.msgType = msgType ∧ decodePayload lz4 flight.packet = .ok data ∧
      flight.packet.flags &&& 0xFE = userFlags &&& 0xFE

def Copies (origin : Origin) (handled : HandledPacket) : Prop :=
  ∀ event ∈ handled.received, ∃ msgType data userFlags,
    origin.message = some (msgType, data, userFlags) ∧ Session.IsCopy msgType data userFlags event

/-- The message of the call has less than 4 GiB. -/
def Short : PeerId × TrySend × Call → Prop
  | (_, _, call) => ∀ msgType data flags, call.message = some (msgType, data, flags) → data.length < 2 ^ 32

end Overlay

/-- `lz4_flex` restores every block of less than 4 GiB. -/
def Lz4.RoundTrips (lz4 : Lz4) : Prop :=
  ∀ data : List UInt8, data.length < 2 ^ 32 →
    lz4.decompressSizePrepended (lz4.compressPrependSize data) = .ok data

theorem encodePacket_restores (hlz4 : lz4.RoundTrips) {msgType : UInt16} {data : List UInt8}
    {flags : UInt8} {compressionThreshold maxMessageSize : UInt32} {packet : RawPacket}
    (hdata : data.length < 2 ^ 32)
    (h : encodePacket lz4 msgType data flags compressionThreshold maxMessageSize = .ok packet) :
    packet.msgType = msgType ∧ decodePayload lz4 packet = .ok data ∧
      packet.flags &&& 0xFE = flags &&& 0xFE := by
  simp only [encodePacket] at h
  split_ifs at h
  · cases h
    obtain ⟨hbit, hclean⟩ := flags_with_compression flags
    refine ⟨rfl, ?_, hclean⟩
    simp [decodePayload, RawPacket.isCompressed, hbit, hlz4 data hdata]
  · cases h
    obtain ⟨hbit, hclean⟩ := flags_without_compression flags
    refine ⟨rfl, ?_, hclean⟩
    simp [decodePayload, RawPacket.isCompressed, hbit]

namespace Overlay

open Cascade Runs

theorem shows_of_spreads (hlz4 : lz4.RoundTrips) {peer : Peer} {src : PeerId} {msgType : UInt16}
    {data : List UInt8} {flags userFlags : UInt8} {origin : Origin} (hdata : data.length < 2 ^ 32)
    (horigin : origin.message = some (msgType, data, userFlags))
    (hflags : flags &&& 0xFE = userFlags &&& 0xFE) {sends : List (PeerId × RawPacket)}
    (h : peer.Spreads lz4 msgType data flags sends) :
    ∀ flight ∈ flights src sends, Shows lz4 postcard origin flight := by
  intro flight hflight
  obtain ⟨send, hsend, rfl⟩ := List.mem_map.mp hflight
  have hencoded := h.encoded send hsend
  obtain ⟨htype, hpayload, hclean⟩ := encodePacket_restores hlz4 hdata hencoded
  have huser := isInternal_of_encodePacket h.user hencoded
  rw [Shows, huser]
  refine ⟨msgType, data, userFlags, horigin, htype, hpayload, ?_⟩
  rw [hclean, (flags_without_compression flags).2, hflags]

theorem shows_of_post (hpostcard : postcard.RoundTrips) {peer : Peer} {trySend : TrySend}
    {src sender : PeerId} {out : Outgoing} (hout : forwardsData out = false) (origin : Origin) :
    ∀ flight ∈ flights src (peer.post postcard trySend sender out), Shows lz4 postcard origin flight := by
  intro flight hflight
  obtain ⟨send, hsend, rfl⟩ := List.mem_map.mp hflight
  obtain ⟨hinternal, msg, hdecode, hmsg⟩ := Peer.decodes_of_post hpostcard hsend
  rw [Shows, hinternal]
  intro fromPeerId msgType flags data hforwarded
  obtain rfl : msg = _ := Except.ok.inj (hdecode.symm.trans hforwarded)
  obtain rfl | rfl := hmsg <;> cases hout

theorem faithful (hlz4 : lz4.RoundTrips) (hpostcard : postcard.RoundTrips) :
    Faithful (rules lz4 postcard) Short (Shows lz4 postcard) Copies := by
  constructor
  · rintro peers found ⟨src, dst, packet⟩ origin hshows
    simp only [rules]
    rcases (peers dst).handleMessage_cases lz4 postcard found src packet with
      ⟨fromPeerId, msgType, flags, data, event, hinternal, hdecode, hsends, hreceived, hevent⟩ |
      ⟨msg, hinternal, hdecode, _, hsends, hreceived⟩ | ⟨hnone, hsends, hreceived⟩
    · rw [Shows, hinternal] at hshows
      obtain ⟨userFlags, horigin, rfl, hdata⟩ := hshows fromPeerId msgType flags data hdecode
      obtain ⟨hbit, hclean⟩ := flags_without_compression userFlags
      rw [hsends, hreceived]
      constructor
      · obtain hnone | ⟨hspreads, _⟩ := (peers dst).handleForwardedUserData_spreads lz4 found.trySend
          fromPeerId msgType (userFlags &&& 0xFE) data
        · simp [hnone, flights]
        · exact shows_of_spreads hlz4 hdata horigin hclean hspreads
      · intro other hother
        obtain rfl := List.mem_singleton.mp hother
        refine ⟨msgType, data, userFlags, horigin, ?_⟩
        rw [hevent]
        exact ⟨by simp [decodePayload, RawPacket.isCompressed, hbit], rfl, hclean⟩
    · rw [hsends, hreceived]
      refine ⟨?_, fun event hevent => by cases hevent⟩
      intro flight hflight
      obtain ⟨send, hsend, rfl⟩ := List.mem_map.mp hflight
      obtain ⟨out, hout, hsend⟩ := List.mem_flatMap.mp hsend
      exact shows_of_post hpostcard (NetworkState.forwardsData_handleMessage hout) origin _
        (List.mem_map_of_mem hsend)
    · rw [hsends, hreceived]
      refine ⟨by simp [flights], ?_⟩
      cases huser : packet.isInternal with
      | true =>
        intro event hevent
        cases hevent
      | false =>
        rw [Shows, huser] at hshows
        obtain ⟨msgType, data, userFlags, horigin, htype, hpayload, hflags⟩ := hshows
        intro event hevent
        simp only [handleUserPacket, hpayload] at hevent
        obtain rfl := List.mem_singleton.mp hevent
        exact ⟨msgType, data, userFlags, horigin, rfl, htype, hflags⟩
  · rintro peers ⟨node, trySend, call⟩ label next sent hshort horiginate
    obtain ⟨rfl, _, rfl⟩ : (⟨node, call.message⟩ : Origin) = label ∧ _ ∧
        flights node (calls lz4 postcard (peers node) trySend call) = sent := by
      simpa [rules] using horiginate
    obtain hnone | ⟨msgType, data, flags, hmessage, hspreads⟩ |
      ⟨msgType, data, flags, leader, packet, hmessage, _, hsends, _, hinternal, hdecode⟩ |
      ⟨sender, out, _, hout, hsends⟩ := calls_cases lz4 hpostcard (peers node) trySend call
    · simp [hnone, flights]
    · exact shows_of_spreads hlz4 (hshort _ _ _ hmessage) hmessage rfl hspreads
    · rw [hsends]
      intro flight hflight
      obtain rfl := List.mem_singleton.mp hflight
      rw [Shows, hinternal]
      intro fromPeerId msgType' flags' data' hforwarded
      obtain ⟨_, rfl, rfl, rfl⟩ := InternalMessage.forwardedUserData.inj
        (Except.ok.inj (hdecode.symm.trans hforwarded))
      exact ⟨flags, hmessage, rfl, hshort _ _ _ hmessage⟩
    · rw [hsends]
      exact shows_of_post hpostcard hout _

/-- Everything that the receive callbacks of the network are ever given is a copy of the message of a
call: its data, its type and its flags as they were passed to it. -/
theorem delivered_is_what_was_sent (hlz4 : lz4.RoundTrips) (hpostcard : postcard.RoundTrips)
    {peers : PeerId → Peer} {acts : List Action} (hacts : ∀ a ∈ acts, a.Begins Short) {s : Run}
    (hrun : run (step (rules lz4 postcard)) (start peers) acts = some s) {cause : Nat}
    {handled : HandledPacket} (hhandled : (cause, handled) ∈ s.records) {event : Received}
    (hevent : event ∈ handled.received) :
    ∃ origin msgType data userFlags, s.origins[cause]? = some origin ∧
      origin.message = some (msgType, data, userFlags) ∧ Session.IsCopy msgType data userFlags event := by
  obtain ⟨origin, horigin, hcopies⟩ :=
    (told_of_run (faithful hlz4 hpostcard) hacts hrun).records cause handled hhandled
  obtain ⟨msgType, data, userFlags, hmessage, hcopy⟩ := hcopies event hevent
  exact ⟨origin, msgType, data, userFlags, horigin, hmessage, hcopy⟩

/-- What `c` receives of the broadcast of `b`. -/
theorem trio_delivered_copy :
    ∃ s, run (step (rules zeroRunBlock Session.samplePostcard))
        (start (samplePeer [⟨"a"⟩, ⟨"b"⟩, ⟨"c"⟩])) broadcasting = some s ∧
      (0, ⟨⟨"c"⟩, [⟨⟨"a"⟩, [104, 105], 0x0100, 0x02⟩]⟩) ∈ s.records ∧
      ∃ origin msgType data userFlags, s.origins[0]? = some origin ∧
        origin.message = some (msgType, data, userFlags) ∧
        Session.IsCopy msgType data userFlags ⟨⟨"a"⟩, [104, 105], 0x0100, 0x02⟩ := by
  have hacts : ∀ a ∈ broadcasting, a.Begins Short := by
    simp [broadcasting, Action.Begins, Short, Call.message]
  obtain ⟨s, hrun, hrecord⟩ : ∃ s, run (step (rules zeroRunBlock Session.samplePostcard))
        (start (samplePeer [⟨"a"⟩, ⟨"b"⟩, ⟨"c"⟩])) broadcasting = some s ∧
      (0, ⟨⟨"c"⟩, [⟨⟨"a"⟩, [104, 105], 0x0100, 0x02⟩]⟩) ∈ s.records :=
    ⟨_, rfl, by decide +kernel⟩
  exact ⟨s, hrun, hrecord, delivered_is_what_was_sent (fun data _ => zeroRunBlock_inverts data)
    samplePostcard_roundTrips hacts hrun hrecord (List.mem_singleton_self _)⟩

end Overlay

end MetaMystia

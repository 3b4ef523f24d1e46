import MetaMystia.Node.Overlay

/-! # No message storms

Every packet that a node handles may make it send others, up to one to each of its
connections. A packet weighs as much as all the packets that can come of it, and
handling it takes at least its own weight away: what one call sets off dies out.
-/

namespace MetaMystia

/-- The largest number of packets that a message stands for where no node has more than `d`
connections: itself, the reply to it, and what the reply or the message is spread to. -/
def InternalMessage.load (d : Nat) : InternalMessage → Nat
  | .ping _ | .heartbeat .. => 2
  | .forwardedUserData .. => 1 + d
  | .voteResponse .. => 1 + 2 * d
  | .requestVote .. => 2 + 2 * d
  | _ => 1

def RawPacket.load (postcard : Postcard) (d : Nat) (packet : RawPacket) : Nat :=
  if packet.isInternal then
    match decodeInternal postcard packet with
    | .ok msg => msg.load d
    | .error _ => 1
  else 1

def Outgoing.load (d : Nat) : Outgoing → Nat
  | .reply msg => msg.load d
  | .broadcast msg => d * msg.load d
  | .connect _ => 0

variable {lz4 : Lz4} {postcard : Postcard} {d : Nat}

theorem InternalMessage.load_pos (msg : InternalMessage) : 1 ≤ msg.load d := by
  cases msg <;> simp only [load] <;> omega

theorem InternalMessage.load_le (msg : InternalMessage) : msg.load d ≤ 2 * (d + 1) := by
  cases msg <;> simp only [load] <;> omega

theorem RawPacket.load_pos (packet : RawPacket) : 1 ≤ packet.load postcard d := by
  unfold load
  split
  · split
    · exact InternalMessage.load_pos _
    · exact le_refl 1
  · exact le_refl 1

theorem RawPacket.load_le (packet : RawPacket) : packet.load postcard d ≤ 2 * (d + 1) := by
  unfold load
  split
  · split
    · exact InternalMessage.load_le _
    · omega
  · omega

theorem RawPacket.load_internal {packet : RawPacket} {msg : InternalMessage}
    (hinternal : packet.isInternal = true) (hdecode : decodeInternal postcard packet = .ok msg) :
    packet.load postcard d = msg.load d := by
  simp only [load, hinternal, hdecode, if_true]

theorem RawPacket.load_user {packet : RawPacket} (huser : packet.isInternal = false) :
    packet.load postcard d = 1 := by
  simp [load, huser]

/-- What the handler answers to a message, except a forwarded one, is what the message weighs beyond
itself. -/
theorem NetworkState.load_handleMessage (net : NetworkState) (src : PeerId) (now : Clock)
    (msg : InternalMessage) : ((net.handleMessage src now msg).2.map (Outgoing.load d)).sum + 1 ≤ msg.load d := by
  cases msg with
  | voteResponse term voter granted =>
    simp only [handleMessage, LeaderElection.handleMessage, handleMembership, List.append_nil]
    split
    · simp only [List.map_cons, List.map_nil, List.sum_cons, List.sum_nil, Outgoing.load,
        InternalMessage.load]
      omega
    · simp only [List.map_nil, List.sum_nil, InternalMessage.load]
      omega
  | peerListSync peers =>
    have hnone : ((net.peersToConnect peers).map (Outgoing.load d)).sum = 0 := by
      apply List.sum_eq_zero
      intro load hload
      obtain ⟨out, hout, rfl⟩ := List.mem_map.mp hload
      obtain ⟨entry, _, rfl⟩ := List.mem_map.mp hout
      rfl
    simp only [handleMessage, LeaderElection.handleMessage, handleMembership, List.nil_append, hnone,
      InternalMessage.load]
    omega
  | handshakeAck remoteId listenPort success reason =>
    simp [handleMessage, LeaderElection.handleMessage, handleMembership, InternalMessage.load]
  | requestVote term candidate =>
    simp only [handleMessage, LeaderElection.handleMessage, handleMembership, List.append_nil,
      List.map_cons, List.map_nil, List.sum_cons, List.sum_nil, Outgoing.load, InternalMessage.load]
    omega
  | forwardedUserData fromPeerId msgType flags data =>
    simp [handleMessage, LeaderElection.handleMessage, handleMembership, InternalMessage.load]
  | _ => simp [handleMessage, LeaderElection.handleMessage, handleMembership, Outgoing.load,
      InternalMessage.load]

theorem Peer.Distinct.length_le {peer : Peer} {sends : List (PeerId × RawPacket)}
    (h : peer.Distinct sends) : sends.length ≤ peer.net.transport.connections.keys.length := by
  have hsub : sends.map Prod.fst ⊆ peer.net.transport.connections.keys := by
    intro peerId hmem
    obtain ⟨send, hsend, rfl⟩ := List.mem_map.mp hmem
    exact h.connected send hsend
  have hle := (h.nodup.subperm hsub).length_le
  rwa [List.length_map] at hle

/-- Packets of one weight to different peers. -/
theorem Peer.Distinct.load_le {peer : Peer} {sends : List (PeerId × RawPacket)} {load : Nat}
    (h : peer.Distinct sends) (hd : peer.net.transport.connections.keys.length ≤ d)
    (hload : ∀ send ∈ sends, send.2.load postcard d ≤ load) :
    (sends.map fun send => send.2.load postcard d).sum ≤ d * load := by
  have hsum : (sends.map fun send => send.2.load postcard d).sum ≤ sends.length * load := by
    have hcard := List.sum_le_card_nsmul (sends.map fun send => send.2.load postcard d) load ?_
    · simpa using hcard
    · intro n hn
      obtain ⟨send, hsend, rfl⟩ := List.mem_map.mp hn
      exact hload send hsend
  have hlength := h.length_le
  exact hsum.trans (Nat.mul_le_mul_right load (by omega))

theorem Peer.load_post {peer : Peer} (hpostcard : postcard.RoundTrips)
    (hd : peer.net.transport.connections.keys.length ≤ d) (trySend : TrySend) (sender : PeerId)
    (out : Outgoing) :
    ((peer.post postcard trySend sender out).map fun send => send.2.load postcard d).sum ≤ out.load d := by
  have hload : ∀ msg, (out = .reply msg ∨ out = .broadcast msg) →
      ∀ send ∈ peer.post postcard trySend sender out, send.2.load postcard d = msg.load d := by
    intro msg hout send hsend
    obtain ⟨hinternal, msg', hdecode, hout'⟩ := Peer.decodes_of_post hpostcard hsend
    rw [RawPacket.load_internal hinternal hdecode]
    obtain rfl : msg' = msg := by
      obtain rfl | rfl := hout <;> simpa [eq_comm] using hout'
    rfl
  obtain hnone | ⟨msg, packet, rfl, _, hsend⟩ | ⟨msg, packet, rfl, _, _⟩ :=
    peer.post_cases trySend sender out
  · rw [hnone]
    exact Nat.zero_le _
  · have hpacket := hload msg (.inl rfl)
    rw [TransportManager.sends_of_sendToPeer hsend] at hpacket ⊢
    simpa [Outgoing.load] using (hpacket _ (List.mem_singleton_self _)).le
  · exact (peer.distinct_post trySend sender _).load_le hd fun send hsend =>
      (hload msg (.inr rfl) send hsend).le

theorem Peer.load_posts (hpostcard : postcard.RoundTrips) (peer : Peer)
    (hd : peer.net.transport.connections.keys.length ≤ d) (trySend : TrySend) (sender : PeerId)
    (outs : List Outgoing) : ((outs.flatMap (peer.post postcard trySend sender)).map
      fun send => send.2.load postcard d).sum ≤ (outs.map (Outgoing.load d)).sum := by
  induction outs with
  | nil => exact le_refl 0
  | cons out rest ih =>
    have hout := Peer.load_post hpostcard hd trySend sender out
    rw [List.flatMap_cons, List.map_append, List.sum_append, List.map_cons, List.sum_cons]
    omega

namespace Overlay

open Cascade Runs

/-- The node has at most `d` connections. -/
def Narrow (d : Nat) (_ : PeerId) (peer : Peer) : Prop :=
  peer.net.transport.connections.keys.length ≤ d

theorem load_flights (src : PeerId) (sends : List (PeerId × RawPacket)) :
    ((flights src sends).map fun flight => flight.packet.load postcard d).sum =
      (sends.map fun send => send.2.load postcard d).sum := by
  simp [flights, Function.comp_def]

/-- A handled packet weighs at least one more than all that is sent while it is handled. -/
theorem conserves_load (hpostcard : postcard.RoundTrips) :
    Conserves (rules lz4 postcard) (fun peers => ∀ p, Narrow d p (peers p)) (fun flight => flight.packet.load postcard d)
      (fun _ => 1) := by
  intro peers found flight hd
  simp only [rules, load_flights]
  obtain ⟨src, dst, packet⟩ := flight
  rcases (peers dst).handleMessage_cases lz4 postcard found src packet with
    ⟨fromPeerId, msgType, flags, data, event, hinternal, hdecode, hsends, _⟩ |
    ⟨msg, hinternal, hdecode, _, hsends, _⟩ | ⟨_, hsends, _⟩
  · rw [hsends, RawPacket.load_internal hinternal hdecode, InternalMessage.load]
    obtain hnone | ⟨hspreads, _⟩ := (peers dst).handleForwardedUserData_spreads lz4 found.trySend
      fromPeerId msgType flags data
    · simp [hnone]
    · have hone : ∀ send ∈ ((peers dst).router.handleForwardedUserData lz4 found.trySend fromPeerId
          msgType flags data).2, send.2.load postcard d ≤ 1 := by
        intro send hsend
        have huser := isInternal_of_encodePacket hspreads.user (hspreads.encoded send hsend)
        exact (RawPacket.load_user huser).le
      have hload := hspreads.distinct.load_le (hd dst) hone
      omega
  · have hkeys := ((peers dst).net.perm_keys_handleMessage src found.now msg).length_eq
    have hposts := Peer.load_posts hpostcard
      ((peers dst).withNet ((peers dst).net.handleMessage src found.now msg).1)
      (hkeys.trans_le (hd dst)) found.trySend src ((peers dst).net.handleMessage src found.now msg).2
    have hall := (peers dst).net.load_handleMessage (d := d) src found.now msg
    rw [hsends, RawPacket.load_internal hinternal hdecode]
    omega
  · rw [hsends]
    exact packet.load_pos

/-- The packets of a call go to different peers. -/
theorem endows_load (hpostcard : postcard.RoundTrips) :
    Endows (rules lz4 postcard) (fun peers => ∀ p, Narrow d p (peers p)) (fun flight => flight.packet.load postcard d)
      (fun _ => 2 * d * (d + 1)) := by
  rintro peers ⟨node, trySend, call⟩ label next sent hd horiginate
  obtain ⟨_, _, rfl⟩ : _ ∧ _ ∧ flights node (calls lz4 postcard (peers node) trySend call) = sent := by
    simpa [rules] using horiginate
  have hdistinct : (peers node).Distinct (calls lz4 postcard (peers node) trySend call) := by
    obtain hnone | ⟨_, _, _, _, hspreads⟩ | ⟨_, _, _, leader, packet, _, _, hsends, hleader, _⟩ |
      ⟨sender, out, _, _, hsends⟩ := calls_cases lz4 hpostcard (peers node) trySend call
    · rw [hnone]
      exact Peer.distinct_nil _
    · exact hspreads.distinct
    · rw [hsends]
      exact Peer.distinct_single hleader packet
    · rw [hsends]
      exact Peer.distinct_post _ trySend sender out
  rw [load_flights]
  calc ((calls lz4 postcard (peers node) trySend call).map fun send => send.2.load postcard d).sum
      ≤ d * (2 * (d + 1)) := hdistinct.load_le (hd node) fun send _ => send.2.load_le
    _ = 2 * d * (d + 1) := by rw [Nat.mul_left_comm, Nat.mul_assoc]

/-- How many of the packets handled so far go back to the call. -/
def handledFor (cause : Nat) (s : Run) : Nat := s.records.countP fun entry => entry.1 == cause

theorem weightOf_one (cause : Nat) (entries : List (Nat × HandledPacket)) :
    weightOf (fun _ => 1) cause entries = entries.countP fun entry => entry.1 == cause := by
  induction entries with
  | nil => rfl
  | cons entry rest ih =>
    rw [List.countP_cons, ← ih, weightOf, List.map_cons, List.sum_cons, Nat.add_comm]
    simp [weightOf]

/-- Where no node ever has more than `d` connections, all that is ever handled because of one call,
every packet it sends and all that these are answered with, spread to and followed up by, is at most
`2 * d * (d + 1)` packets: in every order and whatever else goes on. -/
theorem handled_le (hpostcard : postcard.RoundTrips) {peers : PeerId → Peer}
    (hstart : ∀ p, Narrow d p (peers p)) {acts : List Action} (hacts : ∀ a ∈ acts, Respects (Narrow d) a)
    {s : Run} (hrun : run (step (rules lz4 postcard)) (start peers) acts = some s) (cause : Nat) :
    handledFor cause s ≤ 2 * d * (d + 1) := by
  have hkeeps : ∀ p (peer : Peer) found src packet, Narrow d p peer →
      Narrow d p (peer.handleMessage lz4 postcard found src packet).1 := fun p peer found src packet h =>
    (peer.perm_keys_handleMessage lz4 postcard found src packet).length_eq.trans_le h
  have hworth := worth_le_of_any (conserves_load hpostcard) (endows_load hpostcard)
    (along_of_respects hkeeps hstart hacts) hrun cause
  rwa [weightOf_one] at hworth

/-- `postcard` on two messages: the variant, then the field. -/
def pingPostcard : Postcard where
  toAllocvec msg :=
    if msg = .ping 5 then .ok [6, 5] else if msg = .pong 5 then .ok [7, 5] else .error "unsupported"
  fromBytes bytes :=
    if bytes = [6, 5] then .ok (.ping 5) else if bytes = [7, 5] then .ok (.pong 5)
    else .error "unsupported"

theorem pingPostcard_roundTrips : pingPostcard.RoundTrips := by
  intro msg bytes h
  simp only [pingPostcard] at h
  split_ifs at h with hping hpong
  · cases h
    rw [hping]
    rfl
  · cases h
    rw [hpong]
    rfl

theorem length_keys_linked (peers : List PeerId) : (Session.linked peers).keys.length ≤ peers.length := by
  induction peers with
  | nil => exact le_refl 0
  | cons peer rest ih =>
    have herase := List.length_erase_le (a := peer) (l := (Session.linked rest).keys)
    rw [Session.linked, AList.keys_insert, List.length_cons, List.length_cons]
    omega

theorem narrow_samplePeer (peers : List PeerId) (p : PeerId) : Narrow peers.length p (samplePeer peers p) :=
  (length_keys_linked _).trans (List.length_filter_le _ _)

/-- Node `a` pings, and the packets are handled one after the other. -/
def pinging : List Action :=
  [.originate (⟨"a"⟩, fun _ => .ok (), .post ⟨"a"⟩ (.broadcast (.ping 5))),
    .handle 0 ⟨⟨0, 5⟩, fun _ => .ok ()⟩, .handle 0 ⟨⟨0, 7⟩, fun _ => .ok ()⟩]

/-- A ping of one of two nodes: the ping and the pong are handled. -/
theorem ping_handled_twice :
    ∃ s, run (step (rules literalBlock pingPostcard)) (start (samplePeer [⟨"a"⟩, ⟨"b"⟩])) pinging = some s ∧
      handledFor 0 s = 2 ∧ handledFor 0 s ≤ 2 * 2 * (2 + 1) := by
  have hnarrow : ∀ a ∈ pinging, Respects (Narrow 2) a := by simp [pinging, Respects]
  exact ⟨_, rfl, by decide +kernel,
    handled_le pingPostcard_roundTrips (narrow_samplePeer [⟨"a"⟩, ⟨"b"⟩]) hnarrow rfl 0⟩

end Overlay

end MetaMystia

import MetaMystia.Ffi.SetLeader
import MetaMystia.Session.AtMostOnce

/-! # The send calls of the FFI layer

Five calls check their pointers and the length, look into `NETWORK` and hand the
message to the session router. What goes wrong is returned as a code and is left in
`LAST_ERROR`, with its text, for the calls that ask for it.
-/

namespace MetaMystia

/-- What is in `NETWORK`, as far as messages are sent with it. -/
structure RunningPeer where
  peer : Peer
  config : NetworkConfig
  limit : peer.maxMessageSize = config.maxMessageSize

def FfiError.text : FfiError → String
  | .notInitialized => "network not initialized"
  | .failed (.invalidArgument msg) => "invalid argument: " ++ msg
  | .failed (.connectionFailed msg) => "connection failed: " ++ msg
  | .failed (.peerNotFound id) => "peer not found: " ++ id.id
  | .failed .notLeader => "not leader"
  | .failed .sendQueueFull => "send queue full"
  | .failed (.messageTooLarge length) => "message too large: " ++ toString length ++ " bytes"
  | .failed (.serialization e) => "serialization error: " ++ e
  | .failed (.internal msg) => "internal error: " ++ msg

/-- `NETWORK` and `LAST_ERROR`. -/
structure FfiGlobals where
  network : Option RunningPeer
  lastError : Option (Int32 × String)

structure SendResult where
  globals : FfiGlobals
  code : Int32
  enqueued : List (PeerId × RawPacket)

namespace FfiGlobals

def getLastErrorCode (self : FfiGlobals) : Int32 := (self.lastError.map (·.1)).getD 0

/-- `set_error`, and the return of the code. -/
def setError (self : FfiGlobals) (code : Int32) (msg : String) : SendResult :=
  ⟨{ self with lastError := some (code, msg) }, code, []⟩

def setNetworkError (self : FfiGlobals) (e : FfiError) : SendResult :=
  self.setError e.errorCode e.text

def withNetwork {α : Type} (self : FfiGlobals) (f : RunningPeer → Except MessageError α) :
    Except FfiError α :=
  match self.network with
  | none => .error .notInitialized
  | some running => (f running).mapError .failed

/-- The pointer is null, or to the bytes that may be read from it on. -/
def invalidData (data : Option (List UInt8)) (length : Int32) : Bool :=
  data.isNone || decide (length < 0)

/-- `slice::from_raw_parts`. -/
def sliceOf (data : Option (List UInt8)) (length : Int32) : List UInt8 :=
  (data.getD []).take length.toNatClampNeg

/-- The part that the calls share, from `with_network` on. -/
def sendSlice (self : FfiGlobals) (length : Int32)
    (f : SessionRouter → Except MessageError (List (PeerId × RawPacket))) : SendResult :=
  let result := self.withNetwork fun running =>
    if running.config.maxMessageSize < length.toUInt32 then
      .error (.invalidArgument "message exceeds max_message_size")
    else f running.peer.router
  match result with
  | .ok sends => ⟨self, 0, sends⟩
  | .error e => self.setNetworkError e

def sendChecked (self : FfiGlobals) (data : Option (List UInt8)) (length : Int32)
    (f : SessionRouter → List UInt8 → Except MessageError (List (PeerId × RawPacket))) : SendResult :=
  if invalidData data length then self.setError (-3) "invalid data pointer or length"
  else self.sendSlice length fun router => f router (sliceOf data length)

variable (lz4 : Lz4) (postcard : Postcard) (trySend : TrySend) (describe : List UInt8 → String)

def broadcastMessage (self : FfiGlobals) (data : Option (List UInt8)) (length : Int32)
    (msgType : UInt16) (flags : UInt8) : SendResult :=
  self.sendChecked data length fun router slice =>
    router.routeMessage lz4 postcard trySend .broadcast msgType slice flags

def sendToPeer (self : FfiGlobals) (target : Option (List UInt8)) (data : Option (List UInt8))
    (length : Int32) (msgType : UInt16) (flags : UInt8) : SendResult :=
  match cStrToString describe target with
  | .error e => self.setNetworkError (.failed e)
  | .ok target =>
    self.sendChecked data length fun router slice =>
      router.routeMessage lz4 postcard trySend (.toPeer ⟨target⟩) msgType slice flags

def sendToLeader (self : FfiGlobals) (data : Option (List UInt8)) (length : Int32) (msgType : UInt16)
    (flags : UInt8) : SendResult :=
  self.sendChecked data length fun router slice =>
    router.routeMessage lz4 postcard trySend .toLeader msgType slice flags

def sendFromLeader (self : FfiGlobals) (data : Option (List UInt8)) (length : Int32)
    (msgType : UInt16) (flags : UInt8) : SendResult :=
  self.sendChecked data length fun router slice =>
    router.sendFromLeader lz4 trySend msgType slice flags

/-- A null target stands for a broadcast. -/
def forwardTarget (target : Option (List UInt8)) : Except MessageError ForwardTarget :=
  match target with
  | none => .ok .broadcast
  | some bytes => (cStrToString describe (some bytes)).map fun s => .toPeer ⟨s⟩

/-- The data is looked at before the target. -/
def forwardMessage (self : FfiGlobals) (sender target : Option (List UInt8))
    (data : Option (List UInt8)) (length : Int32) (msgType : UInt16) (flags : UInt8) : SendResult :=
  match cStrToString describe sender with
  | .error e => self.setNetworkError (.failed e)
  | .ok sender =>
    if invalidData data length then self.setError (-3) "invalid data pointer or length"
    else
      match forwardTarget describe target with
      | .error e => self.setNetworkError (.failed e)
      | .ok target =>
        self.sendSlice length fun router =>
          router.forwardMessage lz4 trySend ⟨sender⟩ target msgType flags (sliceOf data length)

end FfiGlobals

inductive SendCall
  | broadcastMessage
  | sendToPeer (target : Option (List UInt8))
  | sendToLeader
  | sendFromLeader
  | forwardMessage (sender target : Option (List UInt8))

structure SendArgs where
  data : Option (List UInt8)
  length : Int32
  msgType : UInt16
  flags : UInt8

def SendArgs.slice (args : SendArgs) : List UInt8 := FfiGlobals.sliceOf args.data args.length

namespace FfiGlobals

variable (lz4 : Lz4) (postcard : Postcard) (trySend : TrySend) (describe : List UInt8 → String)

def send (self : FfiGlobals) (call : SendCall) (args : SendArgs) : SendResult :=
  match call with
  | .broadcastMessage =>
    self.broadcastMessage lz4 postcard trySend args.data args.length args.msgType args.flags
  | .sendToPeer target =>
    self.sendToPeer lz4 postcard trySend describe target args.data args.length args.msgType args.flags
  | .sendToLeader =>
    self.sendToLeader lz4 postcard trySend args.data args.length args.msgType args.flags
  | .sendFromLeader => self.sendFromLeader lz4 trySend args.data args.length args.msgType args.flags
  | .forwardMessage sender target =>
    self.forwardMessage lz4 trySend describe sender target args.data args.length args.msgType args.flags

end FfiGlobals

/-- What the session router is asked to do for the call; nothing, if a text is no string. -/
def SendCall.routed (describe : List UInt8 → String) (args : SendArgs) :
    SendCall → Except MessageError Overlay.Call
  | .broadcastMessage => .ok (.routeMessage .broadcast args.msgType args.slice args.flags)
  | .sendToPeer target =>
    (cStrToString describe target).map fun target =>
      .routeMessage (.toPeer ⟨target⟩) args.msgType args.slice args.flags
  | .sendToLeader => .ok (.routeMessage .toLeader args.msgType args.slice args.flags)
  | .sendFromLeader => .ok (.sendFromLeader args.msgType args.slice args.flags)
  | .forwardMessage sender target =>
    (cStrToString describe sender).bind fun sender =>
      (FfiGlobals.forwardTarget describe target).map fun target =>
        .forwardMessage ⟨sender⟩ target args.msgType args.flags args.slice

def SessionRouter.answer (lz4 : Lz4) (postcard : Postcard) (trySend : TrySend) (router : SessionRouter) :
    Overlay.Call → Except MessageError (List (PeerId × RawPacket))
  | .routeMessage target msgType data flags =>
    router.routeMessage lz4 postcard trySend target msgType data flags
  | .sendFromLeader msgType data flags => router.sendFromLeader lz4 trySend msgType data flags
  | .forwardMessage sender target msgType flags data =>
    router.forwardMessage lz4 trySend sender target msgType flags data
  | .post .. | .change _ => .ok []

theorem FfiError.errorCode_ne_zero (e : FfiError) : e.errorCode ≠ 0 := by
  cases e with
  | notInitialized => decide
  | failed error => cases error <;> exact of_decide_eq_true rfl

theorem FfiError.tooLarge_iff (e : MessageError) :
    (FfiError.failed e).errorCode = -8 ↔ ∃ size, e = .messageTooLarge size := by
  cases e with
  | messageTooLarge size => exact iff_of_true rfl ⟨size, rfl⟩
  | _ => exact iff_of_false (of_decide_eq_false rfl) (by rintro ⟨_, h⟩; cases h)

def FfiGlobals.finish (self : FfiGlobals) :
    Except MessageError (List (PeerId × RawPacket)) → SendResult
  | .ok sends => ⟨self, 0, sends⟩
  | .error e => self.setNetworkError (.failed e)

/-- The router is not asked: there is none, or an argument is invalid. -/
def SendResult.Refuses (globals : FfiGlobals) (result : SendResult) : Prop :=
  ∃ code msg, (code = -1 ∧ globals.network = none ∨ code = -3) ∧ result = globals.setError code msg

section

variable {lz4 : Lz4} {postcard : Postcard} {trySend : TrySend} {describe : List UInt8 → String}
  {globals : FfiGlobals} {args : SendArgs}

theorem refuses_of_cStrToString {pointer : Option (List UInt8)} {e : MessageError}
    (h : cStrToString describe pointer = .error e) :
    (globals.setNetworkError (.failed e)).Refuses globals := by
  obtain ⟨msg, rfl⟩ := cStrToString_error h
  exact ⟨-3, _, .inr rfl, rfl⟩

theorem refuses_of_forwardTarget {target : Option (List UInt8)} {e : MessageError}
    (h : FfiGlobals.forwardTarget describe target = .error e) :
    (globals.setNetworkError (.failed e)).Refuses globals := by
  cases target with
  | none => cases h
  | some bytes =>
    cases hbytes : cStrToString describe (some bytes) with
    | ok id => simp [FfiGlobals.forwardTarget, hbytes, Except.map] at h
    | error e' =>
      simp only [FfiGlobals.forwardTarget, hbytes, Except.map, Except.error.injEq] at h
      subst h
      exact refuses_of_cStrToString hbytes

theorem sendSlice_of_size {running : RunningPeer} {length : Int32}
    (hnetwork : globals.network = some running)
    (hsize : length.toUInt32 ≤ running.config.maxMessageSize)
    (f : SessionRouter → Except MessageError (List (PeerId × RawPacket))) :
    globals.sendSlice length f = globals.finish (f running.peer.router) := by
  simp only [FfiGlobals.sendSlice, FfiGlobals.withNetwork, hnetwork, if_neg (UInt32.not_lt.mpr hsize)]
  cases f running.peer.router <;> rfl

theorem sendSlice_cases (globals : FfiGlobals) (length : Int32)
    (f : SessionRouter → Except MessageError (List (PeerId × RawPacket))) :
    (globals.sendSlice length f).Refuses globals ∨
      ∃ running, globals.network = some running ∧
        length.toUInt32 ≤ running.config.maxMessageSize ∧
        globals.sendSlice length f = globals.finish (f running.peer.router) := by
  cases hnetwork : globals.network with
  | none =>
    simp only [FfiGlobals.sendSlice, FfiGlobals.withNetwork, hnetwork]
    exact .inl ⟨-1, _, .inl ⟨rfl, hnetwork⟩, rfl⟩
  | some running =>
    by_cases hsize : running.config.maxMessageSize < length.toUInt32
    · simp only [FfiGlobals.sendSlice, FfiGlobals.withNetwork, hnetwork, if_pos hsize]
      exact .inl ⟨-3, _, .inr rfl, rfl⟩
    · replace hsize := UInt32.not_lt.mp hsize
      exact .inr ⟨running, rfl, hsize, sendSlice_of_size hnetwork hsize f⟩

theorem sendChecked_cases (globals : FfiGlobals) (args : SendArgs)
    (f : SessionRouter → List UInt8 → Except MessageError (List (PeerId × RawPacket))) :
    (globals.sendChecked args.data args.length f).Refuses globals ∨
      FfiGlobals.invalidData args.data args.length = false ∧
      ∃ running, globals.network = some running ∧
        args.length.toUInt32 ≤ running.config.maxMessageSize ∧
        globals.sendChecked args.data args.length f =
          globals.finish (f running.peer.router args.slice) := by
  unfold FfiGlobals.sendChecked
  cases hdata : FfiGlobals.invalidData args.data args.length with
  | true => exact .inl ⟨-3, _, .inr rfl, rfl⟩
  | false =>
    obtain hrefuses | hasked := sendSlice_cases globals args.length fun router => f router args.slice
    · exact .inl hrefuses
    · exact .inr ⟨rfl, hasked⟩

theorem send_cases (lz4 : Lz4) (postcard : Postcard) (trySend : TrySend)
    (describe : List UInt8 → String) (globals : FfiGlobals) (call : SendCall) (args : SendArgs) :
    (globals.send lz4 postcard trySend describe call args).Refuses globals ∨
      FfiGlobals.invalidData args.data args.length = false ∧
      ∃ routed running, call.routed describe args = .ok routed ∧
        globals.network = some running ∧ args.length.toUInt32 ≤ running.config.maxMessageSize ∧
        globals.send lz4 postcard trySend describe call args =
          globals.finish (running.peer.router.answer lz4 postcard trySend routed) := by
  cases call with
  | broadcastMessage =>
    obtain hrefuses | ⟨hdata, running, hnetwork, hsize, hresult⟩ :=
      sendChecked_cases globals args fun router slice =>
        router.routeMessage lz4 postcard trySend .broadcast args.msgType slice args.flags
    · exact .inl hrefuses
    · exact .inr ⟨hdata, _, running, rfl, hnetwork, hsize, hresult⟩
  | sendToPeer target =>
    simp only [FfiGlobals.send, FfiGlobals.sendToPeer, SendCall.routed]
    cases htarget : cStrToString describe target with
    | error e => exact .inl (refuses_of_cStrToString htarget)
    | ok id =>
      obtain hrefuses | ⟨hdata, running, hnetwork, hsize, hresult⟩ :=
        sendChecked_cases globals args fun router slice =>
          router.routeMessage lz4 postcard trySend (.toPeer ⟨id⟩) args.msgType slice args.flags
      · exact .inl hrefuses
      · exact .inr ⟨hdata, _, running, rfl, hnetwork, hsize, hresult⟩
  | sendToLeader =>
    obtain hrefuses | ⟨hdata, running, hnetwork, hsize, hresult⟩ :=
      sendChecked_cases globals args fun router slice =>
        router.routeMessage lz4 postcard trySend .toLeader args.msgType slice args.flags
    · exact .inl hrefuses
    · exact .inr ⟨hdata, _, running, rfl, hnetwork, hsize, hresult⟩
  | sendFromLeader =>
    obtain hrefuses | ⟨hdata, running, hnetwork, hsize, hresult⟩ :=
      sendChecked_cases globals args fun router slice =>
        router.sendFromLeader lz4 trySend args.msgType slice args.flags
    · exact .inl hrefuses
    · exact .inr ⟨hdata, _, running, rfl, hnetwork, hsize, hresult⟩
  | forwardMessage sender target =>
    simp only [FfiGlobals.send, FfiGlobals.forwardMessage, SendCall.routed]
    cases hsender : cStrToString describe sender with
    | error e => exact .inl (refuses_of_cStrToString hsender)
    | ok senderId =>
      cases hdata : FfiGlobals.invalidData args.data args.length with
      | true => exact .inl ⟨-3, _, .inr rfl, rfl⟩
      | false =>
        cases htarget : FfiGlobals.forwardTarget describe target with
        | error e => exact .inl (refuses_of_forwardTarget htarget)
        | ok targetId =>
          obtain hrefuses | ⟨running, hnetwork, hsize, hresult⟩ :=
            sendSlice_cases globals args.length fun router =>
              router.forwardMessage lz4 trySend ⟨senderId⟩ targetId args.msgType args.flags args.slice
          · exact .inl hrefuses
          · exact .inr ⟨rfl, _, running, rfl, hnetwork, hsize, hresult⟩

theorem answer_cases {peer : Peer} {routed : Overlay.Call} {msgType : UInt16} {data : List UInt8}
    {flags : UInt8} {sends : List (PeerId × RawPacket)}
    (hmessage : routed.message = some (msgType, data, flags))
    (h : peer.router.answer lz4 postcard trySend routed = .ok sends) :
    peer.Spreads lz4 msgType data flags sends ∨
      ∃ leader packet, userMessageStart ≤ msgType ∧ sends = [(leader, packet)] ∧
        leader ∈ peer.net.transport.connections ∧
        encodeInternal postcard (.forwardedUserData peer.net.transport.localPeerId msgType
          (flags &&& 0xFE) data) peer.maxMessageSize = .ok packet := by
  cases routed with
  | routeMessage target =>
    cases hmessage
    obtain hspreads | ⟨_, huser, leader, packet, hsends, hleader, hencode⟩ := peer.routeMessage_cases h
    · exact .inl hspreads
    · exact .inr ⟨leader, packet, huser, hsends, hleader, hencode⟩
  | sendFromLeader =>
    cases hmessage
    exact .inl (peer.sendFromLeader_spreads h)
  | forwardMessage =>
    cases hmessage
    exact .inl (peer.forwardMessage_spreads h).1
  | post | change => cases hmessage

/-- The packet fits the codec, and wherever it is handled, one copy of the message is handed to the
application, as from the node it came over or from the node that has sent it. -/
structure Arrives (lz4 : Lz4) (postcard : Postcard) (peer : Peer) (msgType : UInt16)
    (data : List UInt8) (flags : UInt8) (packet : RawPacket) : Prop where
  framed : packet.payload.length < 2 ^ 32 → ∃ bytes,
    PacketCodec.encode ⟨peer.maxMessageSize⟩ packet [] = .ok bytes ∧
    ∀ suffix, PacketCodec.decode ⟨peer.maxMessageSize⟩ (bytes ++ suffix) = .ok (some (packet, suffix))
  handed : ∀ (receiver : Peer) found src, ∃ event,
    (receiver.handleMessage lz4 postcard found src packet).2.2 = [event] ∧
    Session.IsCopy msgType data flags event ∧
    (event.peerId = src ∨ event.peerId = peer.net.transport.localPeerId)

theorem framed_of_size {maxMessageSize : UInt32} {packet : RawPacket}
    (hsize : UInt32.ofNat packet.payload.length ≤ maxMessageSize)
    (hlength : packet.payload.length < 2 ^ 32) : ∃ bytes,
      PacketCodec.encode ⟨maxMessageSize⟩ packet [] = .ok bytes ∧
      ∀ suffix, PacketCodec.decode ⟨maxMessageSize⟩ (bytes ++ suffix) = .ok (some (packet, suffix)) := by
  have hpayload : packet.payload.length ≤ maxMessageSize.toNat := by
    have hle := UInt32.le_iff_toNat_le.mp hsize
    rwa [toNat_ofNat_length hlength] at hle
  exact ⟨_, PacketCodec.encode_eq_frame hpayload [], PacketCodec.decode_frame hpayload⟩

theorem payload_of_encodePacket {msgType : UInt16} {data : List UInt8} {flags : UInt8}
    {compressionThreshold maxMessageSize : UInt32} {packet : RawPacket} (hdata : data.length < 2 ^ 32)
    (h : encodePacket lz4 msgType data flags compressionThreshold maxMessageSize = .ok packet) :
    UInt32.ofNat packet.payload.length ≤ maxMessageSize := by
  have hsize := UInt32.le_iff_toNat_le.mp (size_of_encodePacket h)
  rw [toNat_ofNat_length hdata] at hsize
  have hshorter : packet.payload.length ≤ data.length := by
    simp only [encodePacket] at h
    split_ifs at h with _ _ hcompressed
    · cases h
      exact Nat.le_of_lt hcompressed.2
    · cases h
      exact Nat.le_refl _
  rw [UInt32.le_iff_toNat_le, toNat_ofNat_length (by omega)]
  omega

theorem arrives_of_encodePacket (hlz4 : lz4.RoundTrips) {peer : Peer} {msgType : UInt16}
    {data : List UInt8} {flags : UInt8} {packet : RawPacket} (huser : userMessageStart ≤ msgType)
    (hdata : data.length < 2 ^ 32)
    (h : encodePacket lz4 msgType data (flags &&& 0xFE) peer.compressionThreshold
      peer.maxMessageSize = .ok packet) :
    Arrives lz4 postcard peer msgType data flags packet := by
  have hinternal := isInternal_of_encodePacket huser h
  obtain ⟨htype, hpayload, hflags⟩ := encodePacket_restores hlz4 hdata h
  rw [(flags_without_compression flags).2] at hflags
  refine ⟨framed_of_size (payload_of_encodePacket hdata h), ?_⟩
  intro receiver found src
  refine ⟨⟨src, data, packet.msgType, packet.flags⟩, ?_, ⟨rfl, htype, hflags⟩, .inl rfl⟩
  simp [Peer.handleMessage, SessionRouter.handleMessage, hinternal, handleUserPacket, hpayload]

theorem arrives_of_encodeInternal (hpostcard : postcard.RoundTrips) {peer : Peer} {msgType : UInt16}
    {data : List UInt8} {flags : UInt8} {packet : RawPacket}
    (h : encodeInternal postcard (.forwardedUserData peer.net.transport.localPeerId msgType
      (flags &&& 0xFE) data) peer.maxMessageSize = .ok packet) :
    Arrives lz4 postcard peer msgType data flags packet := by
  obtain ⟨hinternal, hdecode⟩ := encodeInternal_decodes hpostcard h
  obtain ⟨hbit, hflags⟩ := flags_without_compression flags
  constructor
  · refine framed_of_size ?_
    unfold encodeInternal at h
    split at h
    · cases h
    · split_ifs at h with hlarge
      cases h
      exact UInt32.not_lt.mp hlarge
  · intro receiver found src
    obtain ⟨_, _, _, _, event, _, hread, _, hreceived, hevent⟩ | ⟨msg, _, hread, hother, _⟩ | ⟨hnone, _⟩ :=
      receiver.handleMessage_cases lz4 postcard found src packet
    · obtain ⟨rfl, rfl, rfl, rfl⟩ := InternalMessage.forwardedUserData.inj
        (Except.ok.inj (hdecode.symm.trans hread))
      refine ⟨event, hreceived, ?_, .inr ?_⟩
      · rw [hevent]
        exact ⟨by simp [decodePayload, RawPacket.isCompressed, hbit], rfl, hflags⟩
      · rw [hevent]
    · obtain rfl := Except.ok.inj (hdecode.symm.trans hread)
      exact absurd rfl (hother _ _ _ _)
    · exact absurd hdecode (hnone _ hinternal)

theorem SendArgs.length_slice_le (args : SendArgs) : args.slice.length ≤ args.length.toNatClampNeg :=
  List.length_take_le _ _

theorem SendArgs.length_slice_lt (args : SendArgs) : args.slice.length < 2 ^ 32 := by
  have hslice := args.length_slice_le
  have hlength := args.length.toNatClampNeg_lt
  omega

theorem message_of_routed {call : SendCall} {routed : Overlay.Call}
    (h : call.routed describe args = .ok routed) :
    routed.message = some (args.msgType, args.slice, args.flags) := by
  cases call with
  | broadcastMessage | sendToLeader | sendFromLeader =>
    cases h
    rfl
  | sendToPeer target =>
    cases htarget : cStrToString describe target with
    | error e => simp [SendCall.routed, htarget, Except.map] at h
    | ok id =>
      simp only [SendCall.routed, htarget, Except.map, Except.ok.injEq] at h
      rw [← h]
      rfl
  | forwardMessage sender target =>
    cases hsender : cStrToString describe sender with
    | error e => simp [SendCall.routed, hsender, Except.bind] at h
    | ok senderId =>
      cases htarget : FfiGlobals.forwardTarget describe target with
      | error e => simp [SendCall.routed, hsender, htarget, Except.bind, Except.map] at h
      | ok targetId =>
        simp only [SendCall.routed, hsender, htarget, Except.bind, Except.map, Except.ok.injEq] at h
        rw [← h]
        rfl

/-- A send call that returns an error has enqueued nothing, has changed nothing but the last error,
and that is what it has returned. One that returns 0 has put one packet each into the queues of some
connected peers and changed nothing else: every packet fits the codec, and whoever handles it, in
whatever state, hands exactly one copy of the bytes to the application. -/
theorem sent_or_refused (hlz4 : lz4.RoundTrips) (hpostcard : postcard.RoundTrips)
    (globals : FfiGlobals) (call : SendCall) (args : SendArgs) {result : SendResult}
    (hresult : globals.send lz4 postcard trySend describe call args = result) :
    (result.code ≠ 0 ∧ result.enqueued = [] ∧ result.globals.network = globals.network ∧
      result.globals.getLastErrorCode = result.code) ∨
    (result.code = 0 ∧ result.globals = globals ∧ userMessageStart ≤ args.msgType ∧
      ∃ running, globals.network = some running ∧ running.peer.Distinct result.enqueued ∧
        ∀ send ∈ result.enqueued,
          Arrives lz4 postcard running.peer args.msgType args.slice args.flags send.2) := by
  subst hresult
  obtain ⟨code, msg, hcode, hrefused⟩ | ⟨_, routed, running, hrouted, hnetwork, _, hfinish⟩ :=
    send_cases lz4 postcard trySend describe globals call args
  · rw [hrefused]
    have hcode' : code ≠ 0 := by obtain ⟨rfl, _⟩ | rfl := hcode <;> decide
    exact .inl ⟨hcode', rfl, rfl, rfl⟩
  rw [hfinish]
  cases hanswer : running.peer.router.answer lz4 postcard trySend routed with
  | error e => exact .inl ⟨FfiError.errorCode_ne_zero _, rfl, rfl, rfl⟩
  | ok sends =>
    refine .inr ⟨rfl, rfl, ?_⟩
    obtain hspreads | ⟨leader, packet, huser, rfl, hleader, hencode⟩ :=
      answer_cases (message_of_routed hrouted) hanswer
    · refine ⟨hspreads.user, running, hnetwork, hspreads.distinct, fun send hsend => ?_⟩
      exact arrives_of_encodePacket hlz4 hspreads.user args.length_slice_lt (hspreads.encoded send hsend)
    · refine ⟨huser, running, hnetwork, running.peer.distinct_single hleader packet, fun send hsend => ?_⟩
      obtain rfl := List.mem_singleton.mp hsend
      exact arrives_of_encodeInternal hpostcard hencode

theorem size_of_checked {running : RunningPeer}
    (hdata : FfiGlobals.invalidData args.data args.length = false)
    (hsize : args.length.toUInt32 ≤ running.config.maxMessageSize) :
    args.slice.length ≤ running.peer.maxMessageSize.toNat := by
  have hpositive : 0 ≤ args.length := by
    simp only [FfiGlobals.invalidData, Bool.or_eq_false_iff, decide_eq_false_iff_not] at hdata
    exact Int32.not_lt.mp hdata.2
  have hle := UInt32.le_iff_toNat_le.mp hsize
  rw [Int32.toNat_toUInt32_of_le hpositive, ← running.limit] at hle
  exact args.length_slice_le.trans hle

theorem encoded_not_tooLarge {router : SessionRouter} (hqueues : trySend.Queues) {msgType : UInt16}
    {data : List UInt8} {flags : UInt8} (huser : userMessageStart ≤ msgType)
    (hdata : UInt32.ofNat data.length ≤ router.maxMessageSize) (peerId : PeerId) (size : UInt32) :
    (encodePacket lz4 msgType data flags router.compressionThreshold router.maxMessageSize).bind
      (router.transport.sendToPeer trySend peerId) ≠ .error (.messageTooLarge size) := by
  obtain ⟨packet, hpacket⟩ : ∃ packet, encodePacket lz4 msgType data flags
      router.compressionThreshold router.maxMessageSize = .ok packet := exists_encodePacket huser hdata
  rw [hpacket]
  exact SessionRouter.sendToPeer_not_tooLarge hqueues

/-- Only a broadcast that goes to the leader first can be too large for the router, once the FFI layer
has found its payload small enough. -/
theorem answer_not_tooLarge {router : SessionRouter} (hqueues : trySend.Queues)
    {routed : Overlay.Call} {msgType : UInt16} {data : List UInt8} {flags : UInt8}
    (hmessage : routed.message = some (msgType, data, flags))
    (hother : routed ≠ .routeMessage .broadcast msgType data flags)
    (hdata : UInt32.ofNat data.length ≤ router.maxMessageSize) (size : UInt32) :
    router.answer lz4 postcard trySend routed ≠ .error (.messageTooLarge size) := by
  by_cases huser : msgType < userMessageStart
  · cases routed <;> cases hmessage <;>
      simp [SessionRouter.answer, SessionRouter.routeMessage, SessionRouter.sendFromLeader,
        SessionRouter.forwardMessage, huser]
  have huser' := UInt16.not_lt.mp huser
  obtain ⟨packet, hpacket⟩ : ∃ packet, encodePacket lz4 msgType data (flags &&& 0xFE)
      router.compressionThreshold router.maxMessageSize = .ok packet := exists_encodePacket huser' hdata
  cases routed with
  | routeMessage target =>
    cases hmessage
    simp only [SessionRouter.answer, SessionRouter.routeMessage, if_neg huser]
    cases target with
    | broadcast => exact absurd rfl hother
    | toPeer peerId => exact encoded_not_tooLarge hqueues huser' hdata peerId size
    | toLeader =>
      dsimp only
      split
      · simp
      · split
        · exact encoded_not_tooLarge hqueues huser' hdata _ size
        · simp
  | sendFromLeader =>
    cases hmessage
    simp only [SessionRouter.answer, SessionRouter.sendFromLeader, if_neg huser, hpacket]
    split_ifs <;> simp [Except.map]
  | forwardMessage sender target =>
    cases hmessage
    simp only [SessionRouter.answer, SessionRouter.forwardMessage, if_neg huser, hpacket]
    split_ifs
    · simp
    · cases target with
      | toPeer peerId => exact SessionRouter.sendToPeer_not_tooLarge hqueues
      | broadcast => simp [Except.bind]
  | post | change => cases hmessage

theorem rejectsSize_of_within_iff (hpostcard : postcard.WritesForwarded) (hqueues : trySend.Queues)
    {router : SessionRouter} {msgType : UInt16} {data : List UInt8} {flags : UInt8}
    (hdata : data.length ≤ router.maxMessageSize.toNat) :
    router.RejectsSize lz4 postcard trySend msgType data flags ↔
      userMessageStart ≤ msgType ∧ router.forwards = true ∧ router.leaderId ≠ none ∧
        ¬ router.WrapperFits msgType data flags := by
  by_cases huser : userMessageStart ≤ msgType
  · rw [and_iff_right huser]
    by_cases hleader : router.forwards = true → router.leaderId ≠ none
    · rw [SessionRouter.rejectsSize_iff hpostcard hqueues huser hdata hleader]
      exact and_congr_right fun hforwards => (and_iff_right (hleader hforwards)).symm
    · obtain ⟨hforwards, hnone⟩ := Classical.not_imp.mp hleader
      refine iff_of_false ?_ fun h => hnone h.2.1
      rintro ⟨size, h⟩
      rw [SessionRouter.routeMessage_forwarded huser hforwards, not_ne_iff.mp hnone] at h
      cases h
  · refine iff_of_false ?_ fun h => huser h.1
    rintro ⟨size, h⟩
    rw [SessionRouter.routeMessage, if_pos (UInt16.not_le.mp huser)] at h
    cases h

theorem SendCall.broadcast_of_routed {call : SendCall}
    (h : call.routed describe args =
      .ok (.routeMessage .broadcast args.msgType args.slice args.flags)) : call = .broadcastMessage := by
  cases call with
  | broadcastMessage => rfl
  | sendToLeader | sendFromLeader => cases h
  | sendToPeer target =>
    cases htarget : cStrToString describe target <;> simp [routed, htarget, Except.map] at h
  | forwardMessage sender target =>
    cases hsender : cStrToString describe sender <;>
      cases htarget : FfiGlobals.forwardTarget describe target <;>
        simp [routed, hsender, htarget, Except.bind, Except.map] at h

theorem code_of_oversized (globals : FfiGlobals) (call : SendCall) (args : SendArgs)
    {running : RunningPeer} (hnetwork : globals.network = some running)
    (hsize : running.config.maxMessageSize < args.length.toUInt32) :
    (globals.send lz4 postcard trySend describe call args).code = -3 := by
  obtain ⟨code, msg, ⟨_, hnone⟩ | rfl, hresult⟩ | ⟨_, _, running', _, hrunning, hwithin, _⟩ :=
    send_cases lz4 postcard trySend describe globals call args
  · cases hnetwork.symm.trans hnone
  · rw [hresult]
    rfl
  · obtain rfl := Option.some.inj (hnetwork.symm.trans hrunning)
    exact absurd hsize (UInt32.not_lt.mpr hwithin)

/-- `MESSAGE_TOO_LARGE` is never about the payload itself, which is refused as an invalid argument. It
is returned exactly by a broadcast whose payload is within the limit while the message around it, for
the leader it is handed to, is not. -/
theorem too_large_code_iff (hpostcard : postcard.WritesForwarded) (hqueues : trySend.Queues)
    (globals : FfiGlobals) (call : SendCall) (args : SendArgs) :
    ((globals.send lz4 postcard trySend describe call args).code = -8 ↔
      call = .broadcastMessage ∧ FfiGlobals.invalidData args.data args.length = false ∧
        userMessageStart ≤ args.msgType ∧ ∃ running, globals.network = some running ∧
          args.length.toUInt32 ≤ running.config.maxMessageSize ∧
          running.peer.router.forwards = true ∧ running.peer.router.leaderId ≠ none ∧
          ¬ running.peer.router.WrapperFits args.msgType args.slice args.flags) ∧
    ∀ running, globals.network = some running → running.config.maxMessageSize < args.length.toUInt32 →
      (globals.send lz4 postcard trySend describe call args).code = -3 := by
  refine ⟨⟨?_, ?_⟩, fun running hnetwork hsize => code_of_oversized globals call args hnetwork hsize⟩
  · intro hcode
    obtain ⟨code, msg, hrefused, hresult⟩ |
      ⟨hdata, routed, running, hrouted, hnetwork, hsize, hfinish⟩ :=
        send_cases lz4 postcard trySend describe globals call args
    · rw [hresult] at hcode
      obtain rfl : code = -8 := hcode
      obtain ⟨hcode, _⟩ | hcode := hrefused
      · exact absurd hcode (by decide)
      · exact absurd hcode (by decide)
    rw [hfinish] at hcode
    cases hanswer : running.peer.router.answer lz4 postcard trySend routed with
    | ok sends =>
      rw [hanswer] at hcode
      exact absurd hcode (by decide : (0 : Int32) ≠ -8)
    | error e =>
      rw [hanswer] at hcode
      obtain ⟨size, rfl⟩ := (FfiError.tooLarge_iff e).mp hcode
      have hwithin := size_of_checked hdata hsize
      have hwithin' : UInt32.ofNat args.slice.length ≤ running.peer.router.maxMessageSize := by
        rw [UInt32.le_iff_toNat_le, toNat_ofNat_length args.length_slice_lt]
        exact hwithin
      obtain rfl : routed = .routeMessage .broadcast args.msgType args.slice args.flags := by
        by_contra hother
        exact answer_not_tooLarge hqueues (message_of_routed hrouted) hother hwithin' size hanswer
      obtain ⟨huser, hrest⟩ :=
        (rejectsSize_of_within_iff hpostcard hqueues hwithin).mp ⟨size, hanswer⟩
      exact ⟨SendCall.broadcast_of_routed hrouted, hdata, huser, running, hnetwork, hsize, hrest⟩
  · rintro ⟨rfl, hdata, huser, running, hnetwork, hsize, hrest⟩
    have hrejects : running.peer.router.RejectsSize lz4 postcard trySend args.msgType args.slice
        args.flags :=
      (rejectsSize_of_within_iff hpostcard hqueues (size_of_checked hdata hsize)).mpr ⟨huser, hrest⟩
    obtain ⟨size, hrejected⟩ := hrejects
    rw [FfiGlobals.send, FfiGlobals.broadcastMessage, FfiGlobals.sendChecked, hdata,
      if_neg Bool.false_ne_true, sendSlice_of_size hnetwork hsize]
    have hcode := congrArg (fun answer => (globals.finish answer).code) hrejected
    exact hcode

end

def sampleGlobals (maxMessageSize : UInt32) : FfiGlobals where
  network := some {
    peer := { Overlay.samplePeer [⟨"a"⟩, ⟨"b"⟩, ⟨"c"⟩] ⟨"b"⟩ with maxMessageSize }
    config := { NetworkConfig.default with maxMessageSize }
    limit := rfl }
  lastError := none

/-- The broadcast of a follower goes to the leader. -/
theorem broadcast_of_follower_arrives :
    ∃ result, (sampleGlobals 65536).send zeroRunBlock Session.samplePostcard (fun _ => .ok ())
        (fun _ => "") .broadcastMessage ⟨some [104, 105], 2, 0x0100, 3⟩ = result ∧
      result.enqueued.map Prod.fst = [⟨"a"⟩] ∧
      ∀ send ∈ result.enqueued, Arrives zeroRunBlock Session.samplePostcard
        { Overlay.samplePeer [⟨"a"⟩, ⟨"b"⟩, ⟨"c"⟩] ⟨"b"⟩ with maxMessageSize := 65536 } 0x0100 [104, 105] 3
        send.2 := by
  refine ⟨_, rfl, by decide +kernel, ?_⟩
  have hsent := @sent_or_refused zeroRunBlock Session.samplePostcard (fun _ => .ok ()) (fun _ => "")
    (fun data _ => zeroRunBlock_inverts data) Overlay.samplePostcard_roundTrips (sampleGlobals 65536)
    .broadcastMessage ⟨some [104, 105], 2, 0x0100, 3⟩ _ rfl
  obtain ⟨hcode, _⟩ | ⟨_, _, _, running, hnetwork, _, harrives⟩ := hsent
  · exact absurd (by decide +kernel) hcode
  · obtain rfl := Option.some.inj hnetwork
    exact harrives

/-- Eight bytes where eight are allowed. -/
theorem full_broadcast_code :
    ((sampleGlobals 8).send zeroRunBlock SessionRouter.forwardingPostcard (fun _ => .ok ()) (fun _ => "")
      .broadcastMessage ⟨some (List.replicate 8 0), 8, 0x0100, 0⟩).code = -8 := by
  have hqueues : TrySend.Queues fun _ => .ok () := by simp [TrySend.Queues]
  refine (too_large_code_iff (fun _ _ _ _ => rfl) hqueues _ _ _).1.mpr
    ⟨rfl, rfl, by decide, _, rfl, by decide, by decide, by decide, ?_⟩
  exact SessionRouter.not_wrapperFits_of_full rfl
    ((forwardedBytes_length_le (by decide) (by decide)).trans_lt (by decide))

end MetaMystia

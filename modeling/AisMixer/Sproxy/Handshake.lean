import AisMixer.Sproxy.ForwardLoop

/-!
# The handshake of the proxy

`perform_handshake` of `nmea_sproxy/nmea_sproxy.py` sends a ClientHello, waits for a ServerHello that
verifies, confirms the session with a ping and waits for the pong. A turn is one round of one of its two
loops; what it reads from the clocks and the socket is given.
-/

namespace AisMixer.Sproxy

open AisMixer.Library AisMixer.Udpsec

/-- The arguments besides the socket. -/
structure Station (Private Public : Type) where
  stationId : PyStr
  identityPrivateKey : Private
  serverIdentityPublicKey : Public
  remoteAddr : Address
  deriving DecidableEq

/-- What the handshake reads before its loops. -/
structure HandshakeStart (Private : Type) where
  wall : ℚ
  clientRandom : Bytes
  clientEphemeral : Private
  signatureDraw : Bytes
  sendFails : Bool
  originalTimeout : Option ℚ
  now : ℚ

/-- What one round reads; the last four only matter to a ServerHello that verifies. -/
structure HandshakeTurn where
  now : ℚ
  received : Received
  wall : ℚ
  iv : Bytes
  sendFails : Bool
  confirmationNow : ℚ

/-- What both loops keep. -/
structure Waiting (Private : Type) where
  hello : ClientHello
  ephemeral : Private
  originalTimeout : Option ℚ
  handshakeTimeout : ℚ

inductive HandshakeState (Private : Type) where
  | awaitingHello (waiting : Waiting Private) (deadline : ℚ)
  | awaitingConfirmation (waiting : Waiting Private) (keys : SessionKeyMaterial) (deadline : ℚ)
  | returned (result : Option SessionKeyMaterial)
  | raised (e : PyException)

inductive HandshakeEvent (Private : Type) where
  | begun (hello : ClientHello) (ephemeral : Private)
  | timeoutSet (timeout : Option ℚ)
  | accepted (hello : ClientHello) (ephemeral : Private) (serverHello : ServerHello)
      (keys : SessionKeyMaterial)
  | encrypted (key nonce plaintext : Bytes)
  | sent (packet : Bytes) (addr : Address)
  | confirmed (hello : ClientHello) (keys : SessionKeyMaterial)

/-- `except (TypeError, ValueError)`, with the subclasses of `ValueError`. -/
def isTypeOrValueError : PyException → Bool
  | .typeError _ | .valueError _ | .unicodeEncodeError | .unicodeDecodeError | .jsonDecodeError => true
  | _ => false

section Handshake

variable {Private Public : Type} (p : Primitives Private Public) (station : Station Private Public)

/-! ### The ClientHello -/

/-- The ClientHello and its packet. -/
def buildHandshakeHello (start : HandshakeStart Private) : Except PyException (ClientHello × Bytes) := do
  let timestamp := truncate start.wall
  let clientEphemeralPublicKey ← serializeEphemeralPublicKey p (p.publicKey start.clientEphemeral)
  let clientDigest ← buildClientAuthDigest p.sha256 station.stationId timestamp start.clientRandom
    clientEphemeralPublicKey
  let clientSignature ← signTranscriptDigest p station.identityPrivateKey clientDigest start.signatureDraw
  let clientHello ← makeClientHello station.stationId timestamp start.clientRandom clientEphemeralPublicKey
    clientSignature
  let packet ← buildClientHelloPacket clientHello
  return (clientHello, packet)

def handshakeTimeout : Option ℚ → ℚ
  | none => 5
  | some timeout => max timeout (1 / 10)

/-- The handshake up to its first loop. -/
def beginHandshake (start : HandshakeStart Private) :
    HandshakeState Private × List (HandshakeEvent Private) :=
  match buildHandshakeHello p station start with
  | .error e => (.raised e, [])
  | .ok (hello, packet) =>
    if start.sendFails then (.returned none, [.begun hello start.clientEphemeral])
    else
      let timeout := handshakeTimeout start.originalTimeout
      (.awaitingHello ⟨hello, start.clientEphemeral, start.originalTimeout, timeout⟩ (start.now + timeout),
        [.begun hello start.clientEphemeral, .sent packet station.remoteAddr])

/-! ### The ServerHello -/

variable (waiting : Waiting Private)

/-- `return`, and the `finally` clause. -/
def leave (result : Option SessionKeyMaterial) : HandshakeState Private × List (HandshakeEvent Private) :=
  (.returned result, [.timeoutSet waiting.originalTimeout])

/-- An exception that is not handled, and the `finally` clause. -/
def leaveRaising (e : PyException) : HandshakeState Private × List (HandshakeEvent Private) :=
  (.raised e, [.timeoutSet waiting.originalTimeout])

def readServerHello (response : Bytes) : Except PyException (ServerHello × Public) := do
  let serverHello ← parseServerHelloPacket response
  let serverEphemeral ← parseEphemeralPublicKey p serverHello.serverEphemeralPublicKey
  return (serverHello, serverEphemeral)

def verifyServerHello (serverHello : ServerHello) : Except PyException Bool := do
  let hello := waiting.hello
  let serverDigest ← buildServerAuthDigest p.sha256 hello.stationId hello.timestamp hello.clientRandom
    hello.clientEphemeralPublicKey hello.clientSignature serverHello.serverRandom
    serverHello.serverEphemeralPublicKey
  verifyTranscriptSignature p station.serverIdentityPublicKey serverHello.serverSignature serverDigest

def deriveHandshakeKeys (serverHello : ServerHello) (serverEphemeral : Public) :
    Except PyException SessionKeyMaterial := do
  let hello := waiting.hello
  let sharedSecret ← deriveEphemeralSharedSecret p waiting.ephemeral serverEphemeral
  let sessionTranscriptHash ← buildSessionTranscriptHash p.sha256 hello.stationId hello.timestamp
    hello.clientRandom hello.clientEphemeralPublicKey hello.clientSignature serverHello.serverRandom
    serverHello.serverEphemeralPublicKey serverHello.serverSignature
  deriveSessionKeyMaterial p sharedSecret sessionTranscriptHash

/-- The confirmation ping, and the deadline for its pong. -/
def sendConfirmation (turn : HandshakeTurn) (serverHello : ServerHello) (keys : SessionKeyMaterial) :
    HandshakeState Private × List (HandshakeEvent Private) :=
  let key := keys.clientToServerKey
  match messageText (pingMessage sessionConfirmationSequence turn.wall station.stationId) with
  | .error e => leaveRaising waiting e
  | .ok plaintext =>
    let (state, events) :=
      if turn.sendFails then leave waiting none
      else
        (.awaitingConfirmation waiting keys (turn.confirmationNow + waiting.handshakeTimeout),
          [.sent (dataPrefix ++ turn.iv ++ p.encrypt key turn.iv plaintext dataAad) station.remoteAddr])
    (state, .accepted waiting.hello waiting.ephemeral serverHello keys ::
      .encrypted key turn.iv plaintext :: events)

/-- A datagram from the remote address in the first loop. -/
def handleServerHello (turn : HandshakeTurn) (deadline : ℚ) (response : Bytes) :
    HandshakeState Private × List (HandshakeEvent Private) :=
  match readServerHello p response with
  | .error e =>
    if isTypeOrValueError e then (.awaitingHello waiting deadline, []) else leaveRaising waiting e
  | .ok (serverHello, serverEphemeral) =>
    match verifyServerHello p station waiting serverHello with
    | .error e => leaveRaising waiting e
    | .ok false => (.awaitingHello waiting deadline, [])
    | .ok true =>
      match deriveHandshakeKeys p waiting serverHello serverEphemeral with
      | .error e => leaveRaising waiting e
      | .ok keys => sendConfirmation p station waiting turn serverHello keys

def awaitHello (turn : HandshakeTurn) (deadline : ℚ) :
    HandshakeState Private × List (HandshakeEvent Private) :=
  match turn.received with
  | .nothing | .failed => leave waiting none
  | .datagram response addr =>
    if !remoteAddressesMatch addr station.remoteAddr then (.awaitingHello waiting deadline, [])
    else handleServerHello p station waiting turn deadline response

/-! ### The confirmation -/

def awaitConfirmation (turn : HandshakeTurn) (keys : SessionKeyMaterial) (deadline : ℚ) :
    HandshakeState Private × List (HandshakeEvent Private) :=
  match turn.received with
  | .nothing | .failed => leave waiting none
  | .datagram confirmation addr =>
    if !remoteAddressesMatch addr station.remoteAddr then
      (.awaitingConfirmation waiting keys deadline, [])
    else
      match handleServerPacket p confirmation addr station.remoteAddr keys.serverToClientKey
          station.stationId (some sessionConfirmationSequence) with
      | .noSession => leave waiting none
      | .ignored => (.awaitingConfirmation waiting keys deadline, [])
      | .authenticated =>
        (.returned (some keys), [.timeoutSet waiting.originalTimeout, .confirmed waiting.hello keys])

/-- A round of a loop with a deadline: nothing is received once it has passed. -/
def untilDeadline (turn : HandshakeTurn) (deadline : ℚ)
    (receive : HandshakeState Private × List (HandshakeEvent Private)) :
    HandshakeState Private × List (HandshakeEvent Private) :=
  if deadline - turn.now ≤ 0 then leave waiting none
  else (receive.1, .timeoutSet (some (deadline - turn.now)) :: receive.2)

omit waiting in
/-- One round of the loop that the handshake is in. -/
def handshakeTurn (turn : HandshakeTurn) :
    HandshakeState Private → HandshakeState Private × List (HandshakeEvent Private)
  | .awaitingHello waiting deadline =>
    untilDeadline waiting turn deadline (awaitHello p station waiting turn deadline)
  | .awaitingConfirmation waiting keys deadline =>
    untilDeadline waiting turn deadline (awaitConfirmation p station waiting turn keys deadline)
  | state => (state, [])

/-! ### What a round can do -/

section Rounds

variable {p : Primitives Private Public} {station : Station Private Public} {start : HandshakeStart Private}
  {waiting : Waiting Private} {turn : HandshakeTurn} {deadline : ℚ}
  {result : HandshakeState Private × List (HandshakeEvent Private)}

/-- A ClientHello that a station has built and signed. -/
structure Begins (p : Primitives Private Public) (station : Station Private Public) (hello : ClientHello)
    (ephemeral : Private) : Prop where
  stationId : hello.stationId = station.stationId
  publicKey : hello.clientEphemeralPublicKey = p.publicBytes (p.publicKey ephemeral)
  signed : ∃ digest draw, buildClientAuthDigest p.sha256 hello.stationId hello.timestamp hello.clientRandom
      hello.clientEphemeralPublicKey = .ok digest ∧
    signTranscriptDigest p station.identityPrivateKey digest draw = .ok hello.clientSignature

/-- A datagram that is taken as the answer to a ClientHello. -/
structure Accepts (p : Primitives Private Public) (station : Station Private Public) (data : Bytes)
    (waiting : Waiting Private) (serverHello : ServerHello) (keys : SessionKeyMaterial) : Prop where
  parsed : parseServerHelloPacket data = .ok serverHello
  verified : verifyServerHello p station waiting serverHello = .ok true
  derived : ∃ serverEphemeral,
    parseEphemeralPublicKey p serverHello.serverEphemeralPublicKey = .ok serverEphemeral ∧
      deriveHandshakeKeys p waiting serverHello serverEphemeral = .ok keys

lemma serializeEphemeralPublicKey_ok {publicKey : Public} {bytes : Bytes}
    (h : serializeEphemeralPublicKey p publicKey = .ok bytes) : bytes = p.publicBytes publicKey := by
  unfold serializeEphemeralPublicKey at h
  dsimp only at h
  split at h
  · cases h
  · exact (Except.ok.inj h).symm

lemma buildHandshakeHello_ok {hello : ClientHello} {packet : Bytes}
    (h : buildHandshakeHello p station start = .ok (hello, packet)) :
    Begins p station hello start.clientEphemeral ∧ buildClientHelloPacket hello = .ok packet := by
  obtain ⟨publicKey, hkey, h⟩ := bind_eq_ok_iff.mp h
  obtain ⟨digest, hdigest, h⟩ := bind_eq_ok_iff.mp h
  obtain ⟨signature, hsignature, h⟩ := bind_eq_ok_iff.mp h
  obtain ⟨built, hbuilt, h⟩ := bind_eq_ok_iff.mp h
  obtain ⟨packet', hpacket, h⟩ := bind_eq_ok_iff.mp h
  obtain ⟨rfl, rfl⟩ := Prod.mk.inj (Except.ok.inj h)
  obtain ⟨hstation, htime, hrandom, hpublic, hsigned⟩ := makeClientHello_ok hbuilt
  refine ⟨⟨hstation, hpublic.trans (serializeEphemeralPublicKey_ok hkey), digest, start.signatureDraw, ?_, ?_⟩,
    hpacket⟩
  · rw [hstation, htime, hrandom, hpublic]
    exact hdigest
  · rw [hsigned]
    exact hsignature

lemma readServerHello_ok {response : Bytes} {serverHello : ServerHello} {serverEphemeral : Public}
    (h : readServerHello p response = .ok (serverHello, serverEphemeral)) :
    parseServerHelloPacket response = .ok serverHello ∧
      parseEphemeralPublicKey p serverHello.serverEphemeralPublicKey = .ok serverEphemeral := by
  obtain ⟨parsed, hparsed, h⟩ := bind_eq_ok_iff.mp h
  obtain ⟨ephemeral, hephemeral, h⟩ := bind_eq_ok_iff.mp h
  obtain ⟨rfl, rfl⟩ := Prod.mk.inj (Except.ok.inj h)
  exact ⟨hparsed, hephemeral⟩

/-- What the start leaves. -/
inductive StartOutcome (p : Primitives Private Public) (station : Station Private Public)
    (start : HandshakeStart Private) : HandshakeState Private × List (HandshakeEvent Private) → Prop
  | raised (e : PyException) : StartOutcome p station start (.raised e, [])
  | unsent {hello : ClientHello} (begins : Begins p station hello start.clientEphemeral) :
      StartOutcome p station start (.returned none, [.begun hello start.clientEphemeral])
  | waits {hello : ClientHello} {packet : Bytes} {timeout deadline : ℚ}
      (begins : Begins p station hello start.clientEphemeral)
      (packet_eq : buildClientHelloPacket hello = .ok packet) :
      StartOutcome p station start
        (.awaitingHello ⟨hello, start.clientEphemeral, start.originalTimeout, timeout⟩ deadline,
          [.begun hello start.clientEphemeral, .sent packet station.remoteAddr])

lemma beginHandshake_outcome (p : Primitives Private Public) (station : Station Private Public)
    (start : HandshakeStart Private) : StartOutcome p station start (beginHandshake p station start) := by
  unfold beginHandshake
  cases hbuild : buildHandshakeHello p station start with
  | error e => exact .raised e
  | ok built =>
    obtain ⟨hello, packet⟩ := built
    obtain ⟨hbegins, hpacket⟩ := buildHandshakeHello_ok hbuild
    dsimp only
    split
    · exact .unsent hbegins
    · exact .waits hbegins hpacket

/-- Events that tell nothing about secrets. -/
def HandshakeEvent.IsPublic : HandshakeEvent Private → Prop
  | .timeoutSet _ | .sent _ _ => True
  | _ => False

/-- Events of a handshake that ends without keys. -/
def Leaves (result : HandshakeState Private × List (HandshakeEvent Private)) : Prop :=
  (result.1 = .returned none ∨ ∃ e, result.1 = .raised e) ∧ ∀ event ∈ result.2, event.IsPublic

lemma leave_leaves (waiting : Waiting Private) : Leaves (leave waiting none) :=
  ⟨.inl rfl, by simp [leave, HandshakeEvent.IsPublic]⟩

lemma leaveRaising_leaves (waiting : Waiting Private) (e : PyException) : Leaves (leaveRaising waiting e) :=
  ⟨.inr ⟨e, rfl⟩, by simp [leaveRaising, HandshakeEvent.IsPublic]⟩

lemma Leaves.cons {event : HandshakeEvent Private} (h : Leaves result) (hpublic : event.IsPublic) :
    Leaves (result.1, event :: result.2) :=
  ⟨h.1, List.forall_mem_cons.mpr ⟨hpublic, h.2⟩⟩

/-- What a round in a state leaves. -/
inductive RoundOutcome (p : Primitives Private Public) (station : Station Private Public)
    (turn : HandshakeTurn) (state : HandshakeState Private) :
    HandshakeState Private × List (HandshakeEvent Private) → Prop
  | stays {events : List (HandshakeEvent Private)} (quiet : ∀ event ∈ events, event.IsPublic) :
      RoundOutcome p station turn state (state, events)
  | leaves {result : HandshakeState Private × List (HandshakeEvent Private)} (ends : Leaves result) :
      RoundOutcome p station turn state result
  | accepts {waiting : Waiting Private} {deadline : ℚ} {data : Bytes} {addr : Address}
      {serverHello : ServerHello} {keys : SessionKeyMaterial} {plaintext : Bytes}
      {next : HandshakeState Private} {before after : List (HandshakeEvent Private)}
      (state_eq : state = .awaitingHello waiting deadline) (received : turn.received = .datagram data addr)
      (accepted : Accepts p station data waiting serverHello keys)
      (text : messageText (pingMessage sessionConfirmationSequence turn.wall station.stationId) =
        .ok plaintext)
      (next_eq : (∃ deadline, next = .awaitingConfirmation waiting keys deadline) ∨ next = .returned none)
      (quiet_before : ∀ event ∈ before, event.IsPublic) (quiet : ∀ event ∈ after, event.IsPublic) :
      RoundOutcome p station turn state
        (next, before ++ .accepted waiting.hello waiting.ephemeral serverHello keys ::
          .encrypted keys.clientToServerKey turn.iv plaintext :: after)
  | confirms {waiting : Waiting Private} {keys : SessionKeyMaterial} {deadline : ℚ} {data : Bytes}
      {addr : Address} {before : List (HandshakeEvent Private)}
      (state_eq : state = .awaitingConfirmation waiting keys deadline)
      (received : turn.received = .datagram data addr)
      (authentic : handleServerPacket p data addr station.remoteAddr keys.serverToClientKey station.stationId
        (some sessionConfirmationSequence) = .authenticated)
      (quiet_before : ∀ event ∈ before, event.IsPublic) :
      RoundOutcome p station turn state (.returned (some keys), before ++ [.confirmed waiting.hello keys])

lemma handleServerHello_outcome {data : Bytes} {addr : Address}
    (hreceived : turn.received = .datagram data addr) :
    RoundOutcome p station turn (.awaitingHello waiting deadline)
      (handleServerHello p station waiting turn deadline data) := by
  unfold handleServerHello
  cases hread : readServerHello p data with
  | error e =>
    dsimp only
    split
    · exact .stays (by simp)
    · exact .leaves (leaveRaising_leaves waiting e)
  | ok hello =>
    obtain ⟨serverHello, serverEphemeral⟩ := hello
    obtain ⟨hparsed, hephemeral⟩ := readServerHello_ok hread
    dsimp only
    cases hverify : verifyServerHello p station waiting serverHello with
    | error e => exact .leaves (leaveRaising_leaves waiting e)
    | ok verified =>
      cases verified with
      | false => exact .stays (by simp)
      | true =>
        dsimp only
        cases hkeys : deriveHandshakeKeys p waiting serverHello serverEphemeral with
        | error e => exact .leaves (leaveRaising_leaves waiting e)
        | ok keys =>
          have haccepts : Accepts p station data waiting serverHello keys :=
            ⟨hparsed, hverify, serverEphemeral, hephemeral, hkeys⟩
          have hnone : ∀ event ∈ ([] : List (HandshakeEvent Private)), event.IsPublic := by simp
          simp only [sendConfirmation]
          cases htext : messageText (pingMessage sessionConfirmationSequence turn.wall station.stationId) with
          | error e => exact .leaves (leaveRaising_leaves waiting e)
          | ok plaintext =>
            dsimp only
            split
            · exact RoundOutcome.accepts rfl hreceived haccepts htext (.inr rfl) hnone
                (by simp [leave, HandshakeEvent.IsPublic])
            · exact RoundOutcome.accepts rfl hreceived haccepts htext (.inl ⟨_, rfl⟩) hnone
                (by simp [HandshakeEvent.IsPublic])

lemma awaitHello_outcome :
    RoundOutcome p station turn (.awaitingHello waiting deadline)
      (awaitHello p station waiting turn deadline) := by
  unfold awaitHello
  cases hreceived : turn.received with
  | nothing => exact .leaves (leave_leaves waiting)
  | failed => exact .leaves (leave_leaves waiting)
  | datagram data addr =>
    dsimp only
    split
    · exact .stays (by simp)
    · exact handleServerHello_outcome hreceived

lemma awaitConfirmation_outcome {keys : SessionKeyMaterial} :
    RoundOutcome p station turn (.awaitingConfirmation waiting keys deadline)
      (awaitConfirmation p station waiting turn keys deadline) := by
  unfold awaitConfirmation
  cases hreceived : turn.received with
  | nothing => exact .leaves (leave_leaves waiting)
  | failed => exact .leaves (leave_leaves waiting)
  | datagram data addr =>
    dsimp only
    split
    · exact .stays (by simp)
    · cases hpacket : handleServerPacket p data addr station.remoteAddr keys.serverToClientKey
          station.stationId (some sessionConfirmationSequence) with
      | noSession => exact .leaves (leave_leaves waiting)
      | ignored => exact .stays (by simp)
      | authenticated =>
        have hrestored : ∀ event ∈ [(.timeoutSet waiting.originalTimeout : HandshakeEvent Private)],
            event.IsPublic := by simp [HandshakeEvent.IsPublic]
        exact RoundOutcome.confirms rfl hreceived hpacket hrestored

/-- A round under a deadline. -/
lemma untilDeadline_outcome {state : HandshakeState Private} (h : RoundOutcome p station turn state result) :
    RoundOutcome p station turn state (untilDeadline waiting turn deadline result) := by
  unfold untilDeadline
  split
  · exact .leaves (leave_leaves waiting)
  have hpublic : (HandshakeEvent.timeoutSet (some (deadline - turn.now)) : HandshakeEvent Private).IsPublic :=
    trivial
  cases h with
  | stays quiet => exact .stays (List.forall_mem_cons.mpr ⟨hpublic, quiet⟩)
  | leaves ends => exact .leaves (ends.cons hpublic)
  | @accepts _ _ _ _ _ _ _ _ before _ state_eq received accepted text next_eq quiet_before quiet =>
    have hbefore := List.forall_mem_cons.mpr ⟨hpublic, quiet_before⟩
    exact RoundOutcome.accepts state_eq received accepted text next_eq hbefore quiet
  | @confirms _ _ _ _ _ before state_eq received authentic quiet_before =>
    have hbefore := List.forall_mem_cons.mpr ⟨hpublic, quiet_before⟩
    exact RoundOutcome.confirms state_eq received authentic hbefore

lemma handshakeTurn_outcome (p : Primitives Private Public) (station : Station Private Public)
    (turn : HandshakeTurn) (state : HandshakeState Private) :
    RoundOutcome p station turn state (handshakeTurn p station turn state) := by
  cases state with
  | awaitingHello waiting deadline => exact untilDeadline_outcome awaitHello_outcome
  | awaitingConfirmation waiting keys deadline => exact untilDeadline_outcome awaitConfirmation_outcome
  | returned result => exact .stays (by simp)
  | raised e => exact .stays (by simp)

end Rounds

end Handshake

end AisMixer.Sproxy

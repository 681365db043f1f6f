import AisMixer.DataPlane.IngressFrame
import AisMixer.DataPlane.OutputBuilder
import AisMixer.Library.Json
import AisMixer.Udpsec.Crypto
import AisMixer.Udpsec.Protocol
import AisMixer.Udpsec.SecureState

/-!
# The secure listener

One pass of `_secure_server_loop` of `aismixer_secure.py`: what a received datagram does to the
local state, and what the listener does besides, as a list of events in their order. Every
exit of the pass without an effect of its own is a `Refusal`.
-/

namespace AisMixer.Udpsec

open AisMixer.Library

def dataPrefix : Bytes := ascii "NMEA-D"
def nosessionPrefix : Bytes := ascii "NOSESSION"
def dataAad : Bytes := ascii "NMEA"
def sessionConfirmationSequence : Int := 0

/-! ### Data packets -/

def parseSecureDataPacket (data : Bytes) : Except PyException (Bytes × Bytes) :=
  if !dataPrefix.isPrefixOf data then .error (.valueError (str "Invalid secure data packet prefix"))
  else if data.length < dataPrefix.length + 12 + 16 then
    .error (.valueError (str "Secure data packet too short"))
  else .ok ((data.drop dataPrefix.length).take 12, data.drop (dataPrefix.length + 12))

def buildNoSessionHint : Option PyStr → Except PyException Bytes
  | some stationId =>
    if stationId = [] then .ok nosessionPrefix
    else (orRaise .unicodeEncodeError (encodeUtf8 stationId)).map
      (fun encoded => nosessionPrefix ++ pipe :: encoded)
  | none => .ok nosessionPrefix

/-- `json.dumps(message, separators=(",", ":")).encode()`. -/
def messageText (message : Json) : Except PyException Bytes :=
  orRaise .unicodeEncodeError (encodeUtf8 (Json.dumps {} message))

/-- `json.loads(plaintext.decode())`. -/
def loadMessage (plaintext : Bytes) : Except PyException Json := do
  let text ← orRaise .unicodeDecodeError (decodeUtf8 plaintext)
  (Json.loads text).mapError fun
    | .jsonDecodeError => .jsonDecodeError
    | .valueError => .valueError (str "Exceeds the limit for integer string conversion")

def pongMessage (sequence : Int) (wall : ℚ) (stationId : PyStr) : Json :=
  .obj [(str "type", .str (str "pong")), (str "seq", .int sequence),
    (str "timestamp", .int (truncate wall)), (str "source_id", .str stationId)]

/-- Whether a value is a given string. -/
def isText (text : PyStr) : Option Json → Bool
  | some (.str s) => s == text
  | _ => false

def isSessionConfirmationPing (message : Json) (stationId : PyStr) : Bool :=
  isText (str "ping") (message.get? (str "type")) &&
    (match message.get? (str "seq") with
    | some (.int sequence) => sequence == sessionConfirmationSequence
    | _ => false) &&
    (match message.get? (str "timestamp") with
    | some (.int _) => true
    | _ => false) &&
    isText stationId (message.get? (str "source_id"))

/-! ### What the listener is given, and what it does -/

/-- The arguments of the loop and the keys of the module. -/
structure Listener (Private Public : Type) where
  allows : PyStr → Bool
  authorizedKeys : Dict PyStr Public
  serverPriv : Private
  secInputId : Option PyStr

/-- What the system gives to one pass: the datagram, both clocks, the randomness that the pass
draws, and whether the socket fails to send. -/
structure Reception (Private : Type) where
  data : Bytes
  addr : Address
  monotonicNow : ℚ
  wallNow : ℚ
  serverRandom : Bytes
  serverEphemeral : Private
  signatureDraw : Bytes
  nonce : Bytes
  sendFails : Bool

/-- Why a pass ends early. -/
inductive Refusal where
  | timestampOutOfWindow
  | unknownClient
  | handshakeReplay
  | noSession
  | invalidConfirmation
  | duplicateNonce
  | staleSession
  | noActiveSession
  | sourceIdMismatch
  | invalidPing
  | invalidNmea
  | unknownMessageType
  | raised (e : PyException)
  deriving DecidableEq

/-- The result of `_build_server_handshake`, with the packet before it is serialised. -/
structure ServerHandshake where
  serverHello : ServerHello
  responsePacket : Bytes
  keys : SessionKeyMaterial

inductive ListenerEvent (Private : Type) where
  | refused (reason : Refusal)
  | helloAdmitted (hello : ClientHello)
  | installed (pending : PendingSecureSession) (hello : ClientHello) (ephemeral : Private)
      (handshake : ServerHandshake)
  | promoted (pending : PendingSecureSession) (session : SecureSession)
  | nonceAdmitted (session : SecureSession) (nonce : Bytes)
  | encrypted (key nonce plaintext : Bytes)
  | queued (frame : IngressFrame)
  | sent (packet : Bytes) (addr : Address)

section Listener

variable {Private Public : Type} (p : Primitives Private Public) (cfg : SecureSettings)
  (listener : Listener Private Public)

def sendto (reception : Reception Private) (packet : Bytes) : List (ListenerEvent Private) :=
  if reception.sendFails then [.refused (.raised .osError)] else [.sent packet reception.addr]

/-- A pong under a key, sent to the peer. -/
def sendPong (reception : Reception Private) (key : Bytes) (sequence : Int) (stationId : PyStr) :
    List (ListenerEvent Private) :=
  match messageText (pongMessage sequence reception.wallNow stationId) with
  | .error e => [.refused (.raised e)]
  | .ok plaintext =>
    .encrypted key reception.nonce plaintext ::
      sendto reception (dataPrefix ++ reception.nonce ++ p.encrypt key reception.nonce plaintext dataAad)

/-! ### ClientHello -/

/-- A ClientHello whose identity signature has been verified. -/
structure AuthenticHello (Public : Type) where
  hello : ClientHello
  ephemeral : Public
  replayKey : Bytes

def raising {α : Type} (x : Except PyException α) : Except Refusal α := x.mapError .raised

/-- The checks of a ClientHello before the replay admission. -/
def authenticateHello (reception : Reception Private) : Except Refusal (AuthenticHello Public) := do
  let hello ← raising (parseClientHelloPacket reception.data)
  if 30 < |reception.wallNow - hello.timestamp| then throw .timestampOutOfWindow
  let identity ← orRaise .unknownClient (listener.authorizedKeys.get? hello.stationId)
  let digest ← raising (buildClientAuthDigest p.sha256 hello.stationId hello.timestamp hello.clientRandom
    hello.clientEphemeralPublicKey)
  let verified ← raising (verifyTranscriptSignature p identity hello.clientSignature digest)
  if !verified then
    throw (.raised (.valueError (str "ClientHello identity signature verification failed")))
  let ephemeral ← raising (parseEphemeralPublicKey p hello.clientEphemeralPublicKey)
  let replayKey ← raising (buildHandshakeReplayKey p.sha256 digest hello.clientSignature)
  return ⟨hello, ephemeral, replayKey⟩

def buildServerHandshake (hello : ClientHello) (clientEphemeral : Public) (reception : Reception Private) :
    Except PyException ServerHandshake := do
  let serverEphemeralBytes ← serializeEphemeralPublicKey p (p.publicKey reception.serverEphemeral)
  let serverAuthDigest ← buildServerAuthDigest p.sha256 hello.stationId hello.timestamp
    hello.clientRandom hello.clientEphemeralPublicKey hello.clientSignature reception.serverRandom
    serverEphemeralBytes
  let serverSignature ← signTranscriptDigest p listener.serverPriv serverAuthDigest reception.signatureDraw
  let sharedSecret ← deriveEphemeralSharedSecret p reception.serverEphemeral clientEphemeral
  let sessionTranscriptHash ← buildSessionTranscriptHash p.sha256 hello.stationId hello.timestamp
    hello.clientRandom hello.clientEphemeralPublicKey hello.clientSignature reception.serverRandom
    serverEphemeralBytes serverSignature
  let keys ← deriveSessionKeyMaterial p sharedSecret sessionTranscriptHash
  let serverHello ← makeServerHello reception.serverRandom serverEphemeralBytes serverSignature
  return ⟨serverHello, buildServerHelloPacket serverHello, keys⟩

def handleClientHello (state : SecureState) (reception : Reception Private) :
    SecureState × List (ListenerEvent Private) :=
  match authenticateHello p listener reception with
  | .error reason => (state, [.refused reason])
  | .ok authentic =>
    match state.acceptHandshakeReplay authentic.replayKey reception.monotonicNow with
    | (state, .error e) => (state, [.refused (.raised e)])
    | (state, .ok false) => (state, [.refused .handshakeReplay])
    | (state, .ok true) =>
      match buildServerHandshake p listener authentic.hello authentic.ephemeral reception with
      | .error e => (state, [.helloAdmitted authentic.hello, .refused (.raised e)])
      | .ok handshake =>
        let (state, pending) := state.installPendingSession cfg reception.addr
          authentic.hello.stationId handshake.keys.clientToServerKey handshake.keys.serverToClientKey
          reception.monotonicNow
        (state, .helloAdmitted authentic.hello ::
          .installed pending authentic.hello reception.serverEphemeral handshake ::
          sendto reception handshake.responsePacket)

/-! ### Data under the pending session -/

/-- A packet that decrypts under the key of the pending session. -/
def confirmPending (state : SecureState) (reception : Reception Private) (pending : PendingSecureSession)
    (nonce plaintext : Bytes) : SecureState × List (ListenerEvent Private) :=
  match loadMessage plaintext with
  | .error e => (state, [.refused (.raised e)])
  | .ok message =>
    if !isSessionConfirmationPing message pending.stationId then (state, [.refused .invalidConfirmation])
    else
      match state.acceptPendingDataNonce cfg pending nonce reception.monotonicNow with
      | (state, .error e) => (state, [.refused (.raised e)])
      | (state, .ok false) => (state, [.refused .duplicateNonce])
      | (state, .ok true) =>
        match state.promotePendingSession cfg reception.addr pending
          reception.monotonicNow with
        | (state, none) => (state, [.refused .staleSession])
        | (state, some session) =>
          match state.touchSession cfg reception.addr session reception.monotonicNow with
          | (state, false) => (state, [.promoted pending session, .refused .staleSession])
          | (state, true) => (state, .promoted pending session ::
            sendPong p reception session.serverToClientAesgcm sessionConfirmationSequence session.stationId)

/-- The attempt with the pending session; `none` falls through to the active one. -/
def tryPending (state : SecureState) (reception : Reception Private) (nonce ciphertext : Bytes) :
    Option PendingSecureSession → SecureState × Option (List (ListenerEvent Private))
  | none => (state, none)
  | some pending =>
    match state.pendingDataNonceSeen cfg pending nonce reception.monotonicNow with
    | (state, true) => (state, none)
    | (state, false) =>
      match p.decrypt pending.clientToServerAesgcm nonce ciphertext dataAad with
      | none => (state, none)
      | some plaintext =>
        let (state, events) := confirmPending p cfg state reception pending nonce plaintext
        (state, some events)

/-! ### Data under the active session -/

/-- A message of an active session that has passed its checks. -/
inductive SecureMessage where
  | ping (sequence : Int)
  | nmea (payload : Json)

/-- The checks of a decoded message; a value without `get` raises. -/
def checkMessage (stationId : PyStr) (message : Json) : Except Refusal SecureMessage :=
  match message with
  | .obj _ =>
    if !isText stationId (message.get? (str "source_id")) then .error .sourceIdMismatch
    else if isText (str "ping") (message.get? (str "type")) then
      match message.get? (str "seq") with
      | some (.int sequence) =>
        if sequence ≤ sessionConfirmationSequence then .error .invalidPing else .ok (.ping sequence)
      | _ => .error .invalidPing
    else if isText (str "nmea") (message.get? (str "type")) then
      match message.get? (str "payload") with
      | none => .error .invalidNmea
      | some payload => .ok (.nmea payload)
    else .error .unknownMessageType
  | _ => .error (.raised .attributeError)

def buildUdpsecSourceId (stationId : PyStr) : Except PyException PyStr :=
  if stationId = [] then
    .error (.valueError (str "UDPSEC source identity requires authenticated_station_id."))
  else .ok (str "udpsec:" ++ stationId)

/-- `sec_input_id or station_id or "ANONYMOUS"`. -/
def sourceForQueue (secInputId : Option PyStr) (stationId : PyStr) : PyStr :=
  match secInputId.filter (· ≠ []) with
  | some inputId => inputId
  | none => if stationId = [] then str "ANONYMOUS" else stationId

/-- The frame of an NMEA message; there is none for a payload that is no string. -/
def messageFrame (secInputId : Option PyStr) (stationId : PyStr) (addr : Address) (payload : Json) :
    Except PyException (Option IngressFrame) := do
  let sourceId ← buildUdpsecSourceId stationId
  match payload with
  | .str text => return some (frameFromTextPayload {
      kind := str "sec"
      sourceId := sourceId
      aliasForS := some (sourceForQueue secInputId stationId)
      remoteIp := some addr.host
      assemblerKey := addr.host ++ str ":" ++ natStr addr.port } text)
  | _ => return none

/-- What an accepted message leads to. -/
def answerMessage (reception : Reception Private) (session : SecureSession) :
    SecureMessage → List (ListenerEvent Private)
  | .ping sequence => sendPong p reception session.serverToClientAesgcm sequence session.stationId
  | .nmea payload =>
    match messageFrame listener.secInputId session.stationId reception.addr payload with
    | .error e => [.refused (.raised e)]
    | .ok none => []
    | .ok (some frame) => [.queued frame]

/-- Decryption and the checks of the message. -/
def openMessage (session : SecureSession) (nonce ciphertext : Bytes) : Except Refusal SecureMessage := do
  let plaintext ← orRaise (.raised .invalidTag)
    (p.decrypt session.clientToServerAesgcm nonce ciphertext dataAad)
  let message ← raising (loadMessage plaintext)
  checkMessage session.stationId message

def handleActive (state : SecureState) (reception : Reception Private) (session : SecureSession)
    (nonce ciphertext : Bytes) : SecureState × List (ListenerEvent Private) :=
  match state.dataNonceSeen cfg session nonce reception.monotonicNow with
  | (state, true) => (state, [.refused .duplicateNonce])
  | (state, false) =>
    match openMessage p session nonce ciphertext with
    | .error reason => (state, [.refused reason])
    | .ok message =>
      match state.acceptDataNonce cfg session nonce reception.monotonicNow with
      | (state, .error e) => (state, [.refused (.raised e)])
      | (state, .ok false) => (state, [.refused .duplicateNonce])
      | (state, .ok true) =>
        let (state, _) := state.touchSession cfg reception.addr session reception.monotonicNow
        (state, .nonceAdmitted session nonce :: answerMessage p listener reception session message)

/-! ### The pass -/

def handleData (state : SecureState) (reception : Reception Private) :
    SecureState × List (ListenerEvent Private) :=
  let (state, pending) :=
    state.getPendingSession cfg reception.addr reception.monotonicNow
  let (state, session) :=
    state.getActiveSession cfg reception.addr reception.monotonicNow
  if pending.isNone && session.isNone then
    (state, .refused .noSession ::
      match buildNoSessionHint none with
      | .error e => [.refused (.raised e)]
      | .ok hint => sendto reception hint)
  else
    match parseSecureDataPacket reception.data with
    | .error e => (state, [.refused (.raised e)])
    | .ok (nonce, ciphertext) =>
      match tryPending p cfg state reception nonce ciphertext pending with
      | (state, some events) => (state, events)
      | (state, none) =>
        match session with
        | none => (state, [.refused .noActiveSession])
        | some session => handleActive p cfg listener state reception session nonce ciphertext

/-- One pass of the loop. -/
def receive (state : SecureState) (reception : Reception Private) :
    SecureState × List (ListenerEvent Private) :=
  if !listener.allows reception.addr.host then (state, [])
  else
    let state := (state.cleanupExpiredSessions cfg reception.monotonicNow).1
    let state := (state.cleanupExpiredPendingSessions cfg reception.monotonicNow).1
    if clientHelloPrefix.isPrefixOf reception.data then handleClientHello p cfg listener state reception
    else if dataPrefix.isPrefixOf reception.data then handleData p cfg listener state reception
    else (state, [])

/-- The state after passes of one or more listeners that share it. -/
def receiveAll (state : SecureState) (passes : List (Listener Private Public × Reception Private)) :
    SecureState :=
  passes.foldl (fun state pass => (receive p cfg pass.1 state pass.2).1) state

end Listener

end AisMixer.Udpsec

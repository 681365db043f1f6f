import AisMixer.Udpsec.SecureServer

/-!
# The session loop of the proxy

`forward_loop` of `nmea_sproxy/nmea_sproxy.py` forwards sentences, sends pings and takes the pongs of
the server as signs of life. A turn of the loop is given what it reads from the clocks and the sockets
and leaves a trace of what it did.
-/

namespace AisMixer.Sproxy

open AisMixer.Library AisMixer.Udpsec

/-- The results of `handle_server_packet`. -/
inductive ServerPacket where
  | ignored
  | authenticated
  | noSession
  deriving DecidableEq

/-- Why the loop returned. -/
inductive SessionEnd where
  | plannedRefresh
  | peerTimeout
  | noSession
  | socketError
  deriving DecidableEq

structure ProxyConfig where
  stationId : PyStr
  keepaliveInterval : ℚ
  peerTimeout : ℚ
  sessionRefreshInterval : ℚ

/-! ### Packets of the server -/

section Packets

variable {Private Public : Type} (p : Primitives Private Public)

def remoteAddressesMatch (addr remoteAddr : Address) : Bool :=
  addr.host == remoteAddr.host && addr.port == remoteAddr.port

def isNoSessionHint (data : Bytes) : Bool :=
  data == nosessionPrefix || (nosessionPrefix ++ [pipe]).isPrefixOf data

def decryptSecureJsonMessage (data key : Bytes) : Except PyException Json :=
  if !dataPrefix.isPrefixOf data || data.length < dataPrefix.length + 12 + 16 then
    .error (.valueError (str "Invalid secure server packet"))
  else do
    let nonce := (data.drop dataPrefix.length).take 12
    let ciphertext := data.drop (dataPrefix.length + 12)
    let plaintext ← orRaise .invalidTag (p.decrypt key nonce ciphertext dataAad)
    loadMessage plaintext

/-- The checks of a message of the server; only an `int` is a sequence number. -/
def checkPong (message : Json) (stationId : PyStr) (expectedPingSeq : Option Int) : ServerPacket :=
  match message.get? (str "seq") with
  | some (.int sequence) =>
    if isText (str "pong") (message.get? (str "type")) && isText stationId (message.get? (str "source_id")) &&
        some sequence == expectedPingSeq then
      .authenticated
    else .ignored
  | _ => .ignored

def handleServerPacket (data : Bytes) (addr remoteAddr : Address) (serverToClientKey : Bytes)
    (stationId : PyStr) (expectedPingSeq : Option Int) : ServerPacket :=
  if !remoteAddressesMatch addr remoteAddr then .ignored
  else if isNoSessionHint data then .noSession
  else
    match decryptSecureJsonMessage p data serverToClientKey with
    | .error _ => .ignored
    | .ok message => checkPong message stationId expectedPingSeq

def encryptSecureJsonMessage (message : Json) (key iv : Bytes) : Except PyException Bytes :=
  (messageText message).map (fun plaintext => dataPrefix ++ iv ++ p.encrypt key iv plaintext dataAad)

def pingMessage (sequence : Int) (wall : ℚ) (stationId : PyStr) : Json :=
  .obj [(str "type", .str (str "ping")), (str "seq", .int sequence),
    (str "timestamp", .int (truncate wall)), (str "source_id", .str stationId)]

end Packets

def sessionExpirationReason (now sessionStartedAt lastAuthenticatedPeer : ℚ) (config : ProxyConfig) :
    Option SessionEnd :=
  if config.peerTimeout ≤ now - lastAuthenticatedPeer then some .peerTimeout
  else if 0 < config.sessionRefreshInterval ∧ config.sessionRefreshInterval ≤ now - sessionStartedAt then
    some .plannedRefresh
  else none

def sessionPollTimeout (now sessionStartedAt lastAuthenticatedPeer lastPingAt : ℚ) (config : ProxyConfig) :
    ℚ :=
  let deadline := min (lastPingAt + config.keepaliveInterval) (lastAuthenticatedPeer + config.peerTimeout)
  let deadline :=
    if 0 < config.sessionRefreshInterval then min deadline (sessionStartedAt + config.sessionRefreshInterval)
    else deadline
  max 0 (deadline - now)

/-! ### The loop -/

/-- Local input that was forwarded: the sentences sent, and whether an exception ended it. -/
structure Forwarded where
  sentences : List PyStr
  raised : Bool

/-- What `recvfrom` gave, if the socket was readable. -/
inductive Received where
  | nothing
  | failed
  | datagram (data : Bytes) (addr : Address)

/-- What one turn reads. `ready` is missing when `select` raised. -/
structure Ready where
  received : Received
  /-- The reading taken for an authenticated packet. -/
  authenticatedAt : ℚ
  inputs : List Forwarded
  /-- The reading before the keepalive. -/
  pingNow : ℚ
  wall : ℚ
  iv : Bytes
  sendFails : Bool

structure Turn where
  now : ℚ
  inputPollInterval : Option ℚ
  pending : Forwarded
  ready : Option Ready

structure LoopState where
  sessionStartedAt : ℚ
  lastAuthenticatedPeer : ℚ
  lastPingAt : ℚ
  expectedPingSeq : Option Int
  nextPingSeq : Int
  deriving DecidableEq

def LoopState.start (now : ℚ) : LoopState := ⟨now, now, now, none, 1⟩

inductive LoopEvent where
  | sentence (cleanLine : PyStr)
  | selecting (timeout : ℚ)
  | refused (data : Bytes) (addr : Address) (result : ServerPacket)
  | authenticated (data : Bytes) (addr : Address) (now : ℚ)
  | pinged (sequence : Int) (packet : Bytes)
  deriving DecidableEq

/-- The state after some steps, what they did, and whether the loop has returned. -/
structure Progress where
  state : LoopState
  events : List LoopEvent
  ended : Option SessionEnd

/-- A step after others, unless the loop has returned. -/
def Progress.andThen (progress : Progress) (step : LoopState → Progress) : Progress :=
  match progress.ended with
  | some _ => progress
  | none =>
    let next := step progress.state
    { next with events := progress.events ++ next.events }

section Loop

variable {Private Public : Type} (p : Primitives Private Public) (config : ProxyConfig)
  (keys : SessionKeyMaterial) (remoteAddr : Address)

def checkExpiration (turn : Turn) (s : LoopState) : Progress :=
  ⟨s, [], sessionExpirationReason turn.now s.sessionStartedAt s.lastAuthenticatedPeer config⟩

/-- `forward_pending_input` and `forward_input_payload`. -/
def forwardInput (input : Forwarded) (s : LoopState) : Progress :=
  ⟨s, input.sentences.map .sentence, if input.raised then some .socketError else none⟩

def forwardInputs : List Forwarded → LoopState → Progress
  | [], s => ⟨s, [], none⟩
  | input :: inputs, s => (forwardInput input s).andThen (forwardInputs inputs)

def selectSockets (turn : Turn) (s : LoopState) : Progress :=
  let pollTimeout :=
    sessionPollTimeout turn.now s.sessionStartedAt s.lastAuthenticatedPeer s.lastPingAt config
  let pollTimeout :=
    match turn.inputPollInterval with
    | some interval => min pollTimeout interval
    | none => pollTimeout
  ⟨s, [.selecting pollTimeout], if turn.ready.isNone then some .socketError else none⟩

def receivePacket (ready : Ready) (s : LoopState) : Progress :=
  match ready.received with
  | .nothing => ⟨s, [], none⟩
  | .failed => ⟨s, [], some .socketError⟩
  | .datagram data addr =>
    match handleServerPacket p data addr remoteAddr keys.serverToClientKey config.stationId
        s.expectedPingSeq with
    | .noSession => ⟨s, [.refused data addr .noSession], some .noSession⟩
    | .ignored => ⟨s, [.refused data addr .ignored], none⟩
    | .authenticated =>
      ⟨{ s with lastAuthenticatedPeer := ready.authenticatedAt, expectedPingSeq := none },
        [.authenticated data addr ready.authenticatedAt], none⟩

def keepalive (ready : Ready) (s : LoopState) : Progress :=
  if config.keepaliveInterval ≤ ready.pingNow - s.lastPingAt then
    match encryptSecureJsonMessage p (pingMessage s.nextPingSeq ready.wall config.stationId)
        keys.clientToServerKey ready.iv with
    | .error _ => ⟨s, [], some .socketError⟩
    | .ok packet =>
      if ready.sendFails then ⟨s, [], some .socketError⟩
      else
        ⟨{ s with
            expectedPingSeq := some s.nextPingSeq
            nextPingSeq := s.nextPingSeq + 1
            lastPingAt := ready.pingNow }, [.pinged s.nextPingSeq packet], none⟩
  else ⟨s, [], none⟩

/-- The part of a turn behind `select`. -/
def handleReady : Option Ready → LoopState → Progress
  | none, s => ⟨s, [], none⟩
  | some ready, s =>
    ((receivePacket p config keys remoteAddr ready s).andThen (forwardInputs ready.inputs)).andThen
      (keepalive p config keys ready)

/-- One turn of the loop. -/
def forwardTurn (turn : Turn) (s : LoopState) : Progress :=
  (((checkExpiration config turn s).andThen (forwardInput turn.pending)).andThen
    (selectSockets config turn)).andThen (handleReady p config keys remoteAddr turn.ready)

/-- The loop from a state on, for the turns that it is given. -/
def forwardFrom : List Turn → LoopState → Progress
  | [], s => ⟨s, [], none⟩
  | turn :: turns, s => (forwardTurn p config keys remoteAddr turn s).andThen (forwardFrom turns)

/-- `forward_loop`, started at a reading of the clock. -/
def forwardLoop (start : ℚ) (turns : List Turn) : Progress :=
  forwardFrom p config keys remoteAddr turns (.start start)

end Loop

end AisMixer.Sproxy

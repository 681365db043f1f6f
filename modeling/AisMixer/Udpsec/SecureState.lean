import AisMixer.Library.RecordStore
import AisMixer.Udpsec.ExpiringSet

/-!
# Local state of the secure listener

`SecureState` of `aismixer_secure.py`: handshake replay records, pending and active sessions
and their data nonces. A session object is identified by its number; the state keeps the live
object, so a handle from an earlier call is live as long as the object of that number is still
at the address of the handle. `SecureSettings` has passed the validation of the constructor.
-/

namespace AisMixer.Udpsec

open AisMixer.Library

/-- A peer address as `sock_recvfrom` returns it; `scope` is empty for IPv4. -/
structure Address where
  host : PyStr
  port : Nat
  scope : List Nat
  deriving DecidableEq

structure SecureSettings where
  sessionTtl : ℚ
  maxSessions : Nat
  handshakeReplayTtl : ℚ
  handshakeReplayMax : Nat
  dataNonceTtl : ℚ
  dataNonceMaxPerSession : Nat
  pendingSessionTtl : ℚ
  maxPendingSessions : Nat
  ttls : 0 < sessionTtl ∧ 0 < handshakeReplayTtl ∧ 0 < dataNonceTtl ∧ 0 < pendingSessionTtl
  limits : 1 ≤ maxSessions ∧ 1 ≤ handshakeReplayMax ∧ 1 ≤ dataNonceMaxPerSession ∧ 1 ≤ maxPendingSessions

/-- The defaults of the constructor. -/
def defaultSettings : SecureSettings where
  sessionTtl := 300
  maxSessions := 100000
  handshakeReplayTtl := 60
  handshakeReplayMax := 100000
  dataNonceTtl := 300
  dataNonceMaxPerSession := 100000
  pendingSessionTtl := 30
  maxPendingSessions := 100000
  ttls := by norm_num
  limits := by norm_num

/-- `_SecureSession`; `number` is its identity. -/
structure SecureSession where
  number : Nat
  address : Address
  stationId : PyStr
  clientToServerAesgcm : Bytes
  serverToClientAesgcm : Bytes
  createdAt : ℚ
  lastSeen : ℚ
  seenDataNonces : BoundedExpiringSet Bytes

/-- `_PendingSecureSession`; `number` is its identity. -/
structure PendingSecureSession where
  number : Nat
  address : Address
  stationId : PyStr
  clientToServerAesgcm : Bytes
  serverToClientAesgcm : Bytes
  createdAt : ℚ
  seenDataNonces : BoundedExpiringSet Bytes

/-- The counters that belong to no store of sessions. -/
structure SecureCounters where
  handshakeReplayAccepted : Nat
  handshakeReplayRejected : Nat
  handshakeReplayExpired : Nat
  handshakeReplayCapacityEvicted : Nat
  sessionsTouched : Nat
  dataNoncesAccepted : Nat
  dataNonceReplays : Nat
  dataNoncesExpired : Nat
  dataNoncesCapacityEvicted : Nat
  dataNoncesSessionDiscarded : Nat
  currentDataNonces : Int
  peakHandshakeReplays : Nat
  peakDataNonces : Int

structure SecureState where
  handshakeReplays : BoundedExpiringSet Bytes
  sessions : RecordStore Address SecureSession
  pendingSessions : RecordStore Address PendingSecureSession
  counters : SecureCounters
  nextNumber : Nat

structure SecureStateStats where
  handshakeReplayAccepted : Nat
  handshakeReplayRejected : Nat
  handshakeReplayExpired : Nat
  handshakeReplayCapacityEvicted : Nat
  sessionsCreated : Nat
  sessionsReplaced : Nat
  sessionsTouched : Nat
  sessionsExpired : Nat
  sessionsCapacityEvicted : Nat
  pendingSessionsCreated : Nat
  pendingSessionsReplaced : Nat
  pendingSessionsPromoted : Nat
  pendingSessionsExpired : Nat
  pendingSessionsCapacityEvicted : Nat
  dataNoncesAccepted : Nat
  dataNonceReplays : Nat
  dataNoncesExpired : Nat
  dataNoncesCapacityEvicted : Nat
  dataNoncesSessionDiscarded : Nat
  currentHandshakeReplays : Nat
  peakHandshakeReplays : Nat
  currentSessions : Nat
  peakSessions : Nat
  currentPendingSessions : Nat
  peakPendingSessions : Nat
  currentDataNonces : Int
  peakDataNonces : Int

namespace SecureState

def init (cfg : SecureSettings) : SecureState where
  handshakeReplays := .init cfg.handshakeReplayTtl cfg.handshakeReplayMax
  sessions := .empty
  pendingSessions := .empty
  counters := ⟨0, 0, 0, 0, 0, 0, 0, 0, 0, 0, 0, 0, 0⟩
  nextNumber := 0

def stats (state : SecureState) : SecureStateStats where
  handshakeReplayAccepted := state.counters.handshakeReplayAccepted
  handshakeReplayRejected := state.counters.handshakeReplayRejected
  handshakeReplayExpired := state.counters.handshakeReplayExpired
  handshakeReplayCapacityEvicted := state.counters.handshakeReplayCapacityEvicted
  sessionsCreated := state.sessions.created
  sessionsReplaced := state.sessions.replaced
  sessionsTouched := state.counters.sessionsTouched
  sessionsExpired := state.sessions.expired
  sessionsCapacityEvicted := state.sessions.capacityEvicted
  pendingSessionsCreated := state.pendingSessions.created
  pendingSessionsReplaced := state.pendingSessions.replaced
  pendingSessionsPromoted := state.pendingSessions.promoted
  pendingSessionsExpired := state.pendingSessions.expired
  pendingSessionsCapacityEvicted := state.pendingSessions.capacityEvicted
  dataNoncesAccepted := state.counters.dataNoncesAccepted
  dataNonceReplays := state.counters.dataNonceReplays
  dataNoncesExpired := state.counters.dataNoncesExpired
  dataNoncesCapacityEvicted := state.counters.dataNoncesCapacityEvicted
  dataNoncesSessionDiscarded := state.counters.dataNoncesSessionDiscarded
  currentHandshakeReplays := state.handshakeReplays.size
  peakHandshakeReplays := state.counters.peakHandshakeReplays
  currentSessions := state.sessions.size
  peakSessions := state.sessions.peak
  currentPendingSessions := state.pendingSessions.size
  peakPendingSessions := state.pendingSessions.peak
  currentDataNonces := state.counters.currentDataNonces
  peakDataNonces := state.counters.peakDataNonces

/-! ### Handshake replays -/

def acceptHandshakeReplay (state : SecureState) (key : Bytes) (now : ℚ) :
    SecureState × Except PyException Bool :=
  match state.handshakeReplays.accept key now with
  | (replays, .error e) => ({ state with handshakeReplays := replays }, .error e)
  | (replays, .ok admission) =>
    let counters := { state.counters with
      handshakeReplayExpired := state.counters.handshakeReplayExpired + admission.expired
      handshakeReplayCapacityEvicted :=
        state.counters.handshakeReplayCapacityEvicted + admission.capacityEvicted }
    if !admission.accepted then
      ({ state with
        handshakeReplays := replays
        counters := { counters with
          handshakeReplayRejected := counters.handshakeReplayRejected + 1 } }, .ok false)
    else
      ({ state with
        handshakeReplays := replays
        counters := { counters with
          handshakeReplayAccepted := counters.handshakeReplayAccepted + 1
          peakHandshakeReplays := max counters.peakHandshakeReplays replays.size } }, .ok true)

/-! ### Removal -/

/-- `_discard_session_nonces`; the discarded set itself goes with its session. -/
def discardSessionNonces (state : SecureState) (nonces : BoundedExpiringSet Bytes) : SecureState :=
  let discarded := nonces.discardAll.2
  { state with counters := { state.counters with
    currentDataNonces := state.counters.currentDataNonces - discarded
    dataNoncesSessionDiscarded := state.counters.dataNoncesSessionDiscarded + discarded } }

/-- `_remove_session`; the callers know that there is a session at the address. -/
def removeSession (state : SecureState) (addr : Address) (reason : Fate) : SecureState :=
  match state.sessions.records.get? addr with
  | none => state
  | some session =>
    discardSessionNonces { state with sessions := state.sessions.remove addr reason }
      session.seenDataNonces

/-- `_remove_pending_session`; the callers know that there is one at the address. -/
def removePendingSession (state : SecureState) (addr : Address) (reason : Fate) : SecureState :=
  match state.pendingSessions.records.get? addr with
  | none => state
  | some pending =>
    discardSessionNonces { state with pendingSessions := state.pendingSessions.remove addr reason }
      pending.seenDataNonces

/-- The loop of `cleanup_expired_sessions`; removing the first session leaves the others. -/
def cleanupSessionsLoop (cfg : SecureSettings) (now : ℚ) :
    List (Address × SecureSession) → SecureState → SecureState × List Address
  | [], state => (state, [])
  | (addr, session) :: rest, state =>
    if now - session.lastSeen < cfg.sessionTtl then (state, [])
    else
      let (state, expired) := cleanupSessionsLoop cfg now rest (state.removeSession addr .expired)
      (state, addr :: expired)

def cleanupExpiredSessions (cfg : SecureSettings) (state : SecureState) (now : ℚ) :
    SecureState × List Address :=
  cleanupSessionsLoop cfg now state.sessions.records.entries state

/-- The loop of `cleanup_expired_pending_sessions`. -/
def cleanupPendingLoop (cfg : SecureSettings) (now : ℚ) :
    List (Address × PendingSecureSession) → SecureState → SecureState × List Address
  | [], state => (state, [])
  | (addr, pending) :: rest, state =>
    if now < pending.createdAt + cfg.pendingSessionTtl then (state, [])
    else
      let (state, expired) := cleanupPendingLoop cfg now rest (state.removePendingSession addr .expired)
      (state, addr :: expired)

def cleanupExpiredPendingSessions (cfg : SecureSettings) (state : SecureState) (now : ℚ) :
    SecureState × List Address :=
  cleanupPendingLoop cfg now state.pendingSessions.records.entries state

/-! ### Installation -/

/-- What `install_session` and `promote_pending_session` do before they add a session: the
session at the address is replaced, or the oldest one makes room. -/
def makeSessionRoom (cfg : SecureSettings) (state : SecureState) (addr : Address) : SecureState :=
  if state.sessions.records.contains addr then state.removeSession addr .replaced
  else if cfg.maxSessions ≤ state.sessions.size then
    match state.sessions.records.keys with
    | [] => state
    | oldestAddr :: _ => state.removeSession oldestAddr .capacity
  else state

def addSession (state : SecureState) (addr : Address) (session : SecureSession) : SecureState :=
  { state with
    sessions := state.sessions.add addr session
    nextNumber := state.nextNumber + 1 }

def installSession (cfg : SecureSettings) (state : SecureState) (addr : Address) (stationId : PyStr)
    (clientToServerAesgcm serverToClientAesgcm : Bytes) (now : ℚ) : SecureState × SecureSession :=
  let state := (state.cleanupExpiredSessions cfg now).1
  let state := state.makeSessionRoom cfg addr
  let session : SecureSession := {
    number := state.nextNumber
    address := addr
    stationId := stationId
    clientToServerAesgcm := clientToServerAesgcm
    serverToClientAesgcm := serverToClientAesgcm
    createdAt := now
    lastSeen := now
    seenDataNonces := .init cfg.dataNonceTtl cfg.dataNonceMaxPerSession }
  (state.addSession addr session, session)

/-- The same for a pending session. -/
def makePendingRoom (cfg : SecureSettings) (state : SecureState) (addr : Address) : SecureState :=
  if state.pendingSessions.records.contains addr then state.removePendingSession addr .replaced
  else if cfg.maxPendingSessions ≤ state.pendingSessions.size then
    match state.pendingSessions.records.keys with
    | [] => state
    | oldestAddr :: _ => state.removePendingSession oldestAddr .capacity
  else state

def installPendingSession (cfg : SecureSettings) (state : SecureState) (addr : Address)
    (stationId : PyStr) (clientToServerAesgcm serverToClientAesgcm : Bytes) (now : ℚ) :
    SecureState × PendingSecureSession :=
  let state := (state.cleanupExpiredPendingSessions cfg now).1
  let state := state.makePendingRoom cfg addr
  let pending : PendingSecureSession := {
    number := state.nextNumber
    address := addr
    stationId := stationId
    clientToServerAesgcm := clientToServerAesgcm
    serverToClientAesgcm := serverToClientAesgcm
    createdAt := now
    seenDataNonces := .init cfg.dataNonceTtl cfg.dataNonceMaxPerSession }
  ({ state with
    pendingSessions := state.pendingSessions.add addr pending
    nextNumber := state.nextNumber + 1 }, pending)

/-! ### Handles -/

def getActiveSession (cfg : SecureSettings) (state : SecureState) (addr : Address) (now : ℚ) :
    SecureState × Option SecureSession :=
  let state := (state.cleanupExpiredSessions cfg now).1
  (state, state.sessions.records.get? addr)

def getPendingSession (cfg : SecureSettings) (state : SecureState) (addr : Address) (now : ℚ) :
    SecureState × Option PendingSecureSession :=
  let state := (state.cleanupExpiredPendingSessions cfg now).1
  (state, state.pendingSessions.records.get? addr)

/-- The object at an address, if it is the one of the handle. -/
def liveSession (state : SecureState) (addr : Address) (session : SecureSession) : Option SecureSession :=
  (state.sessions.records.get? addr).filter (fun current => current.number == session.number)

def livePending (state : SecureState) (addr : Address) (pending : PendingSecureSession) :
    Option PendingSecureSession :=
  (state.pendingSessions.records.get? addr).filter (fun current => current.number == pending.number)

def getLiveSessionHandle (cfg : SecureSettings) (state : SecureState) (addr : Address)
    (session : SecureSession) (now : ℚ) : SecureState × Option SecureSession :=
  if (state.liveSession addr session).isNone then (state, none)
  else
    let state := (state.cleanupExpiredSessions cfg now).1
    (state, state.liveSession addr session)

def getLivePendingSessionHandle (cfg : SecureSettings) (state : SecureState) (addr : Address)
    (pending : PendingSecureSession) (now : ℚ) : SecureState × Option PendingSecureSession :=
  if (state.livePending addr pending).isNone then (state, none)
  else
    let state := (state.cleanupExpiredPendingSessions cfg now).1
    (state, state.livePending addr pending)

def touchActiveSession (state : SecureState) (addr : Address) (session : SecureSession) (now : ℚ) :
    SecureState :=
  { state with
    sessions := state.sessions.moveToEnd addr { session with lastSeen := now }
    counters := { state.counters with sessionsTouched := state.counters.sessionsTouched + 1 } }

def touchSession (cfg : SecureSettings) (state : SecureState) (addr : Address) (session : SecureSession)
    (now : ℚ) : SecureState × Bool :=
  match state.getLiveSessionHandle cfg addr session now with
  | (state, none) => (state, false)
  | (state, some current) => (state.touchActiveSession addr current now, true)

def promotePendingSession (cfg : SecureSettings) (state : SecureState) (addr : Address)
    (pending : PendingSecureSession) (now : ℚ) : SecureState × Option SecureSession :=
  match state.getLivePendingSessionHandle cfg addr pending now with
  | (state, none) => (state, none)
  | (state, some current) =>
    let state := (state.cleanupExpiredSessions cfg now).1
    let state := { state with pendingSessions := state.pendingSessions.remove addr .promoted }
    let state := state.makeSessionRoom cfg addr
    let session : SecureSession := {
      number := state.nextNumber
      address := addr
      stationId := current.stationId
      clientToServerAesgcm := current.clientToServerAesgcm
      serverToClientAesgcm := current.serverToClientAesgcm
      createdAt := now
      lastSeen := now
      seenDataNonces := current.seenDataNonces }
    (state.addSession addr session, some session)

/-! ### Data nonces -/

def accountExpiredDataNonces (state : SecureState) (expired : Nat) : SecureState :=
  { state with counters := { state.counters with
    dataNoncesExpired := state.counters.dataNoncesExpired + expired
    currentDataNonces := state.counters.currentDataNonces - expired } }

/-- The live session at an address with another state of its nonce set. -/
def setSessionNonces (state : SecureState) (addr : Address) (session : SecureSession)
    (nonces : BoundedExpiringSet Bytes) : SecureState :=
  { state with sessions := state.sessions.update addr { session with seenDataNonces := nonces } }

def setPendingNonces (state : SecureState) (addr : Address) (pending : PendingSecureSession)
    (nonces : BoundedExpiringSet Bytes) : SecureState :=
  { state with
    pendingSessions := state.pendingSessions.update addr { pending with seenDataNonces := nonces } }

def dataNonceSeen (cfg : SecureSettings) (state : SecureState) (session : SecureSession) (nonce : Bytes)
    (now : ℚ) : SecureState × Bool :=
  match state.getLiveSessionHandle cfg session.address session now with
  | (state, none) => (state, false)
  | (state, some current) =>
    let (nonces, seen, expired) := current.seenDataNonces.contains nonce now
    let state := state.setSessionNonces session.address current nonces
    let state := state.accountExpiredDataNonces expired
    let counters := state.counters
    (if seen then { state with counters := { counters with
      dataNonceReplays := counters.dataNonceReplays + 1 } } else state, seen)

def pendingDataNonceSeen (cfg : SecureSettings) (state : SecureState) (pending : PendingSecureSession)
    (nonce : Bytes) (now : ℚ) : SecureState × Bool :=
  match state.getLivePendingSessionHandle cfg pending.address pending now with
  | (state, none) => (state, false)
  | (state, some current) =>
    let (nonces, seen, expired) := current.seenDataNonces.contains nonce now
    let state := state.setPendingNonces pending.address current nonces
    (state.accountExpiredDataNonces expired, seen)

/-- The accounts of an admission, for either kind of session. -/
def accountAdmission (state : SecureState) (admission : ExpiringSetAdmission) : SecureState × Bool :=
  let state := state.accountExpiredDataNonces admission.expired
  let counters := { state.counters with
    dataNoncesCapacityEvicted := state.counters.dataNoncesCapacityEvicted + admission.capacityEvicted
    currentDataNonces := state.counters.currentDataNonces - admission.capacityEvicted }
  if !admission.accepted then
    ({ state with counters := { counters with dataNonceReplays := counters.dataNonceReplays + 1 } }, false)
  else
    ({ state with counters := { counters with
      dataNoncesAccepted := counters.dataNoncesAccepted + 1
      currentDataNonces := counters.currentDataNonces + 1
      peakDataNonces := max counters.peakDataNonces (counters.currentDataNonces + 1) } }, true)

def acceptDataNonce (cfg : SecureSettings) (state : SecureState) (session : SecureSession) (nonce : Bytes)
    (now : ℚ) : SecureState × Except PyException Bool :=
  match state.getLiveSessionHandle cfg session.address session now with
  | (state, none) => (state, .ok false)
  | (state, some current) =>
    match current.seenDataNonces.accept nonce now with
    | (nonces, .error e) => (state.setSessionNonces session.address current nonces, .error e)
    | (nonces, .ok admission) =>
      let (state, accepted) := (state.setSessionNonces session.address current nonces).accountAdmission admission
      (state, .ok accepted)

def acceptPendingDataNonce (cfg : SecureSettings) (state : SecureState) (pending : PendingSecureSession)
    (nonce : Bytes) (now : ℚ) : SecureState × Except PyException Bool :=
  match state.getLivePendingSessionHandle cfg pending.address pending now with
  | (state, none) => (state, .ok false)
  | (state, some current) =>
    match current.seenDataNonces.accept nonce now with
    | (nonces, .error e) => (state.setPendingNonces pending.address current nonces, .error e)
    | (nonces, .ok admission) =>
      let (state, accepted) := (state.setPendingNonces pending.address current nonces).accountAdmission admission
      (state, .ok accepted)

end SecureState

end AisMixer.Udpsec

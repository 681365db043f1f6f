import AisMixer.Udpsec.ObjectNumbers
import AisMixer.Udpsec.PacketOutcomes

/-!
# Where the keys of sessions come from

A pass adds the keys of a pending session only when it installs one, and the keys of an active session
only when it promotes the pending session of its address; it encrypts only under the keys of sessions.
-/

namespace AisMixer.Udpsec

open AisMixer.Library

/-- What a session and its pending session share. -/
structure SessionSecrets where
  stationId : PyStr
  clientToServerKey : Bytes
  serverToClientKey : Bytes
  deriving DecidableEq

def SecureSession.secrets (session : SecureSession) : SessionSecrets :=
  ⟨session.stationId, session.clientToServerAesgcm, session.serverToClientAesgcm⟩

def PendingSecureSession.secrets (pending : PendingSecureSession) : SessionSecrets :=
  ⟨pending.stationId, pending.clientToServerAesgcm, pending.serverToClientAesgcm⟩

namespace SecureState

variable {cfg : SecureSettings} {state state' state'' : SecureState} {addr : Address} {now : ℚ}

/-! ### The state -/

/-- The secrets of the active sessions, with their places. -/
def sessionSecrets (state : SecureState) : List (Address × SessionSecrets) :=
  state.sessions.records.entries.map (fun e => (e.1, e.2.secrets))

def pendingSecrets (state : SecureState) : List (Address × SessionSecrets) :=
  state.pendingSessions.records.entries.map (fun e => (e.1, e.2.secrets))

/-- No secrets are added. -/
structure NoNewSecrets (state state' : SecureState) : Prop where
  sessions : state'.sessionSecrets ⊆ state.sessionSecrets
  pendings : state'.pendingSecrets ⊆ state.pendingSecrets

lemma NoNewSecrets.of_same (hsessions : state'.sessions = state.sessions)
    (hpendings : state'.pendingSessions = state.pendingSessions) : NoNewSecrets state state' where
  sessions := by
    rw [sessionSecrets, sessionSecrets, hsessions]
    exact List.Subset.refl _
  pendings := by
    rw [pendingSecrets, pendingSecrets, hpendings]
    exact List.Subset.refl _

lemma NoNewSecrets.refl (state : SecureState) : NoNewSecrets state state := .of_same rfl rfl

lemma NoNewSecrets.trans (h : NoNewSecrets state state') (h' : NoNewSecrets state' state'') :
    NoNewSecrets state state'' where
  sessions := List.Subset.trans h'.sessions h.sessions
  pendings := List.Subset.trans h'.pendings h.pendings

lemma session_mem {session : SecureSession} (hget : state.sessions.records.get? addr = some session) :
    (addr, session.secrets) ∈ state.sessionSecrets :=
  List.mem_map_of_mem ((Dict.get?_eq_some_iff _ _ _).mp hget)

lemma pending_mem {pending : PendingSecureSession}
    (hget : state.pendingSessions.records.get? addr = some pending) :
    (addr, pending.secrets) ∈ state.pendingSecrets :=
  List.mem_map_of_mem ((Dict.get?_eq_some_iff _ _ _).mp hget)

/-- There is one pending session at an address. -/
lemma pending_unique {pending : PendingSecureSession} {secrets : SessionSecrets}
    (hget : state.pendingSessions.records.get? addr = some pending)
    (hmem : (addr, secrets) ∈ state.pendingSecrets) : secrets = pending.secrets := by
  obtain ⟨⟨other, found⟩, hfound, heq⟩ := List.mem_map.mp hmem
  obtain ⟨rfl, rfl⟩ := Prod.mk.inj heq
  have hother := (Dict.get?_eq_some_iff _ _ _).mpr hfound
  rw [Option.some.inj (hother.symm.trans hget)]

section Records

variable {ρ : Type} {d : Dict Address ρ} {secrets : ρ → SessionSecrets} {old new : ρ}

lemma secrets_erase (d : Dict Address ρ) (key : Address) (secrets : ρ → SessionSecrets) :
    (d.erase key).entries.map (fun e => (e.1, secrets e.2)) ⊆ d.entries.map (fun e => (e.1, secrets e.2)) :=
  ((Dict.entries_erase_sublist d key).map _).subset

lemma secrets_set (hget : d.get? addr = some old) (hsame : secrets new = secrets old) :
    (d.set addr new).entries.map (fun e => (e.1, secrets e.2)) ⊆ d.entries.map (fun e => (e.1, secrets e.2)) := by
  intro x hx
  obtain ⟨e, he, rfl⟩ := List.mem_map.mp hx
  rcases mem_entries_set he with rfl | he
  · rw [hsame]
    exact List.mem_map_of_mem (f := fun e => (e.1, secrets e.2)) ((Dict.get?_eq_some_iff _ _ _).mp hget)
  · exact List.mem_map_of_mem he

lemma secrets_setAtEnd (hget : d.get? addr = some old) (hsame : secrets new = secrets old) :
    (d.setAtEnd addr new).entries.map (fun e => (e.1, secrets e.2)) ⊆
      d.entries.map (fun e => (e.1, secrets e.2)) := by
  intro x hx
  obtain ⟨e, he, rfl⟩ := List.mem_map.mp hx
  rcases mem_entries_set he with rfl | he
  · rw [hsame]
    exact List.mem_map_of_mem (f := fun e => (e.1, secrets e.2)) ((Dict.get?_eq_some_iff _ _ _).mp hget)
  · exact List.mem_map_of_mem (mem_of_mem_erase he)

end Records

lemma noNewSecrets_removeSession (state : SecureState) (addr : Address) (reason : Fate) :
    NoNewSecrets state (state.removeSession addr reason) := by
  unfold removeSession
  split
  · exact .refl state
  · refine ⟨?_, List.Subset.refl _⟩
    simp only [sessionSecrets, discardSessionNonces, RecordStore.remove_records]
    exact secrets_erase _ _ _

lemma noNewSecrets_removePendingSession (state : SecureState) (addr : Address) (reason : Fate) :
    NoNewSecrets state (state.removePendingSession addr reason) := by
  unfold removePendingSession
  split
  · exact .refl state
  · refine ⟨List.Subset.refl _, ?_⟩
    simp only [pendingSecrets, discardSessionNonces, RecordStore.remove_records]
    exact secrets_erase _ _ _

lemma noNewSecrets_cleanupSessions (cfg : SecureSettings) (state : SecureState) (now : ℚ) :
    NoNewSecrets state (state.cleanupExpiredSessions cfg now).1 := by
  unfold cleanupExpiredSessions
  generalize state.sessions.records.entries = entries
  induction entries generalizing state with
  | nil => exact .refl state
  | cons entry rest ih =>
    rw [cleanupSessionsLoop]
    split
    · exact .refl state
    · exact (noNewSecrets_removeSession state entry.1 .expired).trans (ih _)

lemma noNewSecrets_cleanupPendings (cfg : SecureSettings) (state : SecureState) (now : ℚ) :
    NoNewSecrets state (state.cleanupExpiredPendingSessions cfg now).1 := by
  unfold cleanupExpiredPendingSessions
  generalize state.pendingSessions.records.entries = entries
  induction entries generalizing state with
  | nil => exact .refl state
  | cons entry rest ih =>
    rw [cleanupPendingLoop]
    split
    · exact .refl state
    · exact (noNewSecrets_removePendingSession state entry.1 .expired).trans (ih _)

lemma noNewSecrets_makeSessionRoom (cfg : SecureSettings) (state : SecureState) (addr : Address) :
    NoNewSecrets state (state.makeSessionRoom cfg addr) := by
  unfold makeSessionRoom
  split
  · exact noNewSecrets_removeSession state addr .replaced
  · split
    · split
      · exact .refl state
      · exact noNewSecrets_removeSession state _ .capacity
    · exact .refl state

lemma noNewSecrets_makePendingRoom (cfg : SecureSettings) (state : SecureState) (addr : Address) :
    NoNewSecrets state (state.makePendingRoom cfg addr) := by
  unfold makePendingRoom
  split
  · exact noNewSecrets_removePendingSession state addr .replaced
  · split
    · split
      · exact .refl state
      · exact noNewSecrets_removePendingSession state _ .capacity
    · exact .refl state

lemma sessionHandle_secrets (cfg : SecureSettings) (state : SecureState) (addr : Address)
    (session : SecureSession) (now : ℚ) :
    NoNewSecrets state (state.getLiveSessionHandle cfg addr session now).1 ∧
      ∀ current, (state.getLiveSessionHandle cfg addr session now).2 = some current →
        (state.getLiveSessionHandle cfg addr session now).1.sessions.records.get? addr = some current := by
  unfold getLiveSessionHandle
  split
  · exact ⟨.refl state, by simp⟩
  · refine ⟨noNewSecrets_cleanupSessions cfg state now, ?_⟩
    intro current hcurrent
    exact (liveSession_eq_some hcurrent).1

lemma pendingHandle_secrets (cfg : SecureSettings) (state : SecureState) (addr : Address)
    (pending : PendingSecureSession) (now : ℚ) :
    NoNewSecrets state (state.getLivePendingSessionHandle cfg addr pending now).1 ∧
      ∀ current, (state.getLivePendingSessionHandle cfg addr pending now).2 = some current →
        (state.getLivePendingSessionHandle cfg addr pending now).1.pendingSessions.records.get? addr =
          some current := by
  unfold getLivePendingSessionHandle
  split
  · exact ⟨.refl state, by simp⟩
  · refine ⟨noNewSecrets_cleanupPendings cfg state now, ?_⟩
    intro current hcurrent
    exact (livePending_eq_some hcurrent).1

lemma noNewSecrets_setSessionNonces {session : SecureSession}
    (hget : state.sessions.records.get? addr = some session) (nonces : BoundedExpiringSet Bytes) :
    NoNewSecrets state (state.setSessionNonces addr session nonces) :=
  ⟨secrets_set hget rfl, List.Subset.refl _⟩

lemma noNewSecrets_setPendingNonces {pending : PendingSecureSession}
    (hget : state.pendingSessions.records.get? addr = some pending) (nonces : BoundedExpiringSet Bytes) :
    NoNewSecrets state (state.setPendingNonces addr pending nonces) :=
  ⟨List.Subset.refl _, secrets_set hget rfl⟩

lemma noNewSecrets_accountAdmission (state : SecureState) (admission : ExpiringSetAdmission) :
    NoNewSecrets state (state.accountAdmission admission).1 := by
  unfold accountAdmission
  dsimp only
  split
  · exact .of_same rfl rfl
  · exact .of_same rfl rfl

lemma noNewSecrets_acceptHandshakeReplay (state : SecureState) (key : Bytes) (now : ℚ) :
    NoNewSecrets state (state.acceptHandshakeReplay key now).1 := by
  unfold acceptHandshakeReplay
  rcases state.handshakeReplays.accept key now with ⟨replays, e | admission⟩
  · exact .of_same rfl rfl
  · dsimp only
    split
    · exact .of_same rfl rfl
    · exact .of_same rfl rfl

lemma noNewSecrets_dataNonceSeen (cfg : SecureSettings) (state : SecureState) (session : SecureSession)
    (nonce : Bytes) (now : ℚ) : NoNewSecrets state (state.dataNonceSeen cfg session nonce now).1 := by
  obtain ⟨hkept, hfound⟩ := sessionHandle_secrets cfg state session.address session now
  unfold dataNonceSeen
  generalize state.getLiveSessionHandle cfg session.address session now = handle at hkept hfound ⊢
  rcases handle with ⟨live, none | current⟩
  · exact hkept
  · have hset := hkept.trans (noNewSecrets_setSessionNonces (hfound current rfl)
      (current.seenDataNonces.contains nonce now).1)
    dsimp only
    split
    · exact hset.trans (.of_same rfl rfl)
    · exact hset.trans (.of_same rfl rfl)

lemma noNewSecrets_pendingDataNonceSeen (cfg : SecureSettings) (state : SecureState)
    (pending : PendingSecureSession) (nonce : Bytes) (now : ℚ) :
    NoNewSecrets state (state.pendingDataNonceSeen cfg pending nonce now).1 := by
  obtain ⟨hkept, hfound⟩ := pendingHandle_secrets cfg state pending.address pending now
  unfold pendingDataNonceSeen
  generalize state.getLivePendingSessionHandle cfg pending.address pending now = handle at hkept hfound ⊢
  rcases handle with ⟨live, none | current⟩
  · exact hkept
  · have hset := hkept.trans (noNewSecrets_setPendingNonces (hfound current rfl)
      (current.seenDataNonces.contains nonce now).1)
    exact hset.trans (.of_same rfl rfl)

lemma noNewSecrets_acceptDataNonce (cfg : SecureSettings) (state : SecureState) (session : SecureSession)
    (nonce : Bytes) (now : ℚ) : NoNewSecrets state (state.acceptDataNonce cfg session nonce now).1 := by
  obtain ⟨hkept, hfound⟩ := sessionHandle_secrets cfg state session.address session now
  unfold acceptDataNonce
  generalize state.getLiveSessionHandle cfg session.address session now = handle at hkept hfound ⊢
  rcases handle with ⟨live, none | current⟩
  · exact hkept
  · have hset := fun nonces => hkept.trans (noNewSecrets_setSessionNonces (hfound current rfl) nonces)
    dsimp only
    rcases current.seenDataNonces.accept nonce now with ⟨nonces, e | admission⟩
    · exact hset nonces
    · exact (hset nonces).trans (noNewSecrets_accountAdmission _ admission)

lemma noNewSecrets_acceptPendingDataNonce (cfg : SecureSettings) (state : SecureState)
    (pending : PendingSecureSession) (nonce : Bytes) (now : ℚ) :
    NoNewSecrets state (state.acceptPendingDataNonce cfg pending nonce now).1 := by
  obtain ⟨hkept, hfound⟩ := pendingHandle_secrets cfg state pending.address pending now
  unfold acceptPendingDataNonce
  generalize state.getLivePendingSessionHandle cfg pending.address pending now = handle at hkept hfound ⊢
  rcases handle with ⟨live, none | current⟩
  · exact hkept
  · have hset := fun nonces => hkept.trans (noNewSecrets_setPendingNonces (hfound current rfl) nonces)
    dsimp only
    rcases current.seenDataNonces.accept nonce now with ⟨nonces, e | admission⟩
    · exact hset nonces
    · exact (hset nonces).trans (noNewSecrets_accountAdmission _ admission)

lemma noNewSecrets_touchSession (cfg : SecureSettings) (state : SecureState) (addr : Address)
    (session : SecureSession) (now : ℚ) : NoNewSecrets state (state.touchSession cfg addr session now).1 := by
  obtain ⟨hkept, hfound⟩ := sessionHandle_secrets cfg state addr session now
  unfold touchSession
  generalize state.getLiveSessionHandle cfg addr session now = handle at hkept hfound ⊢
  rcases handle with ⟨live, none | current⟩
  · exact hkept
  · have htouched : NoNewSecrets live (live.touchActiveSession addr current now) :=
      ⟨secrets_setAtEnd (hfound current rfl) rfl, List.Subset.refl _⟩
    exact hkept.trans htouched

/-- A pending session is installed with the secrets that it is given. -/
lemma installPending_secrets (cfg : SecureSettings) (state : SecureState) (addr : Address) (stationId : PyStr)
    (clientToServer serverToClient : Bytes) (now : ℚ) :
    let result := state.installPendingSession cfg addr stationId clientToServer serverToClient now
    result.2.secrets = ⟨stationId, clientToServer, serverToClient⟩ ∧
      result.1.sessionSecrets ⊆ state.sessionSecrets ∧
      ∀ x ∈ result.1.pendingSecrets, x ∈ state.pendingSecrets ∨ x.2 = result.2.secrets := by
  have hkept := (noNewSecrets_cleanupPendings cfg state now).trans
    (noNewSecrets_makePendingRoom cfg _ addr)
  refine ⟨rfl, hkept.sessions, ?_⟩
  intro x hx
  obtain ⟨e, he, rfl⟩ := List.mem_map.mp hx
  rcases mem_entries_set he with rfl | he
  · exact .inr rfl
  · exact .inl (hkept.pendings (List.mem_map_of_mem he))

/-- A session is promoted with the secrets of the pending session at the address. -/
lemma promote_secrets (cfg : SecureSettings) (state : SecureState) (addr : Address)
    (pending : PendingSecureSession) (now : ℚ) :
    let result := state.promotePendingSession cfg addr pending now
    result.1.pendingSecrets ⊆ state.pendingSecrets ∧
      (result.2 = none → result.1.sessionSecrets ⊆ state.sessionSecrets) ∧
      ∀ session, result.2 = some session → (addr, session.secrets) ∈ state.pendingSecrets ∧
        ∀ x ∈ result.1.sessionSecrets, x ∈ state.sessionSecrets ∨ x.2 = session.secrets := by
  obtain ⟨hkept, hfound⟩ := pendingHandle_secrets cfg state addr pending now
  unfold promotePendingSession
  generalize state.getLivePendingSessionHandle cfg addr pending now = handle at hkept hfound ⊢
  rcases handle with ⟨live, none | current⟩
  · exact ⟨hkept.pendings, fun _ => hkept.sessions, by simp⟩
  · have htaken : NoNewSecrets (live.cleanupExpiredSessions cfg now).1
        { (live.cleanupExpiredSessions cfg now).1 with
          pendingSessions :=
            (live.cleanupExpiredSessions cfg now).1.pendingSessions.remove addr .promoted } :=
      ⟨List.Subset.refl _, secrets_erase _ _ _⟩
    have hroom := ((hkept.trans (noNewSecrets_cleanupSessions cfg live now)).trans htaken).trans
      (noNewSecrets_makeSessionRoom cfg _ addr)
    refine ⟨hroom.pendings, by simp, ?_⟩
    intro session hsession
    obtain rfl := Option.some.inj hsession
    refine ⟨hkept.pendings (pending_mem (hfound current rfl)), ?_⟩
    intro x hx
    obtain ⟨e, he, rfl⟩ := List.mem_map.mp hx
    rcases mem_entries_set he with rfl | he
    · exact .inr rfl
    · exact .inl (hroom.sessions (List.mem_map_of_mem he))

end SecureState

/-! ### A pass -/

section Passes

open SecureState

variable {Private Public : Type} {p : Primitives Private Public} {cfg : SecureSettings}
  {listener : Listener Private Public} {reception : Reception Private} {start state state' : SecureState}
  {events : List (ListenerEvent Private)}

/-- A pending session that answers an authentic ClientHello. -/
structure Answers (p : Primitives Private Public) (listener : Listener Private Public)
    (reception : Reception Private) (pending : PendingSecureSession) (hello : ClientHello)
    (ephemeral : Private) (handshake : ServerHandshake) : Prop where
  authentic : ∃ replayKey, FreshHello p listener reception hello replayKey
  built : ∃ clientEphemeral, parseEphemeralPublicKey p hello.clientEphemeralPublicKey = .ok clientEphemeral ∧
    buildServerHandshake p listener hello clientEphemeral reception = .ok handshake
  own : ephemeral = reception.serverEphemeral
  secrets : pending.secrets =
    ⟨hello.stationId, handshake.keys.clientToServerKey, handshake.keys.serverToClientKey⟩

/-- The datagram is the confirmation of a session. -/
def Confirms (p : Primitives Private Public) (reception : Reception Private) (secrets : SessionSecrets) : Prop :=
  ∃ nonce message, Decrypts p reception secrets.clientToServerKey nonce message ∧
    isSessionConfirmationPing message secrets.stationId = true

/-- The datagram is NMEA data of a session, which leads to a frame. -/
def Carries (p : Primitives Private Public) (listener : Listener Private Public) (reception : Reception Private)
    (secrets : SessionSecrets) (frame : IngressFrame) : Prop :=
  ∃ nonce message payload, Decrypts p reception secrets.clientToServerKey nonce message ∧
    IsSecureMessage secrets.stationId message (.nmea payload) ∧
    messageFrame listener.secInputId secrets.stationId reception.addr payload = .ok (some frame)

/-- What the events of a pass tell about secrets. -/
structure PassSecrets (p : Primitives Private Public) (listener : Listener Private Public)
    (reception : Reception Private) (state : SecureState)
    (result : SecureState × List (ListenerEvent Private)) : Prop where
  sessions : ∀ x ∈ result.1.sessionSecrets, x ∈ state.sessionSecrets ∨
    ∃ pending session, ListenerEvent.promoted pending session ∈ result.2 ∧ session.secrets = x.2
  pendings : ∀ x ∈ result.1.pendingSecrets, x ∈ state.pendingSecrets ∨
    ∃ pending hello ephemeral handshake,
      ListenerEvent.installed pending hello ephemeral handshake ∈ result.2 ∧ pending.secrets = x.2
  installed : ∀ pending hello ephemeral handshake,
    ListenerEvent.installed pending hello ephemeral handshake ∈ result.2 →
      Answers p listener reception pending hello ephemeral handshake
  promoted : ∀ pending session, ListenerEvent.promoted pending session ∈ result.2 →
    session.secrets = pending.secrets ∧ (reception.addr, pending.secrets) ∈ state.pendingSecrets ∧
      Confirms p reception pending.secrets
  encrypted : ∀ key nonce plaintext, ListenerEvent.encrypted key nonce plaintext ∈ result.2 →
    (∃ x ∈ state.sessionSecrets, x.2.serverToClientKey = key) ∨
      ∃ pending session, ListenerEvent.promoted pending session ∈ result.2 ∧
        session.secrets.serverToClientKey = key
  queued : ∀ frame, ListenerEvent.queued frame ∈ result.2 →
    ∃ secrets, (reception.addr, secrets) ∈ state.sessionSecrets ∧ Carries p listener reception secrets frame

/-- Events that tell nothing about secrets. -/
def ListenerEvent.IsPublic : ListenerEvent Private → Prop
  | .installed .. | .promoted .. | .encrypted .. | .queued _ => False
  | _ => True

lemma PassSecrets.public (hkept : NoNewSecrets state state') (hevents : ∀ event ∈ events, event.IsPublic) :
    PassSecrets p listener reception state (state', events) where
  sessions := fun _ hx => .inl (hkept.sessions hx)
  pendings := fun _ hx => .inl (hkept.pendings hx)
  installed := fun _ _ _ _ hevent => (hevents _ hevent).elim
  promoted := fun _ _ hevent => (hevents _ hevent).elim
  encrypted := fun _ _ _ hevent => (hevents _ hevent).elim
  queued := fun _ hevent => (hevents _ hevent).elim

lemma PassSecrets.after {result : SecureState × List (ListenerEvent Private)}
    (hkept : NoNewSecrets start state) (h : PassSecrets p listener reception state result) :
    PassSecrets p listener reception start result where
  sessions := fun x hx => (h.sessions x hx).imp_left (fun hold => hkept.sessions hold)
  pendings := fun x hx => (h.pendings x hx).imp_left (fun hold => hkept.pendings hold)
  installed := h.installed
  promoted := by
    intro pending session hevent
    obtain ⟨hsame, hmem, hconfirms⟩ := h.promoted pending session hevent
    exact ⟨hsame, hkept.pendings hmem, hconfirms⟩
  encrypted := by
    intro key nonce plaintext hevent
    rcases h.encrypted key nonce plaintext hevent with ⟨x, hx, hkey⟩ | hpromoted
    · exact .inl ⟨x, hkept.sessions hx, hkey⟩
    · exact .inr hpromoted
  queued := by
    intro frame hevent
    obtain ⟨secrets, hmem, hcarries⟩ := h.queued frame hevent
    exact ⟨secrets, hkept.sessions hmem, hcarries⟩

lemma sendto_public (reception : Reception Private) (packet : Bytes) :
    ∀ event ∈ sendto reception packet, event.IsPublic := by
  unfold sendto
  split <;> simp [ListenerEvent.IsPublic]

lemma sendPong_events (reception : Reception Private) (key : Bytes) (sequence : Int) (stationId : PyStr) :
    ∀ event ∈ sendPong p reception key sequence stationId, event.IsPublic ∨
      ∃ nonce plaintext, event = .encrypted key nonce plaintext := by
  unfold sendPong
  split
  · simp [ListenerEvent.IsPublic]
  · intro event hevent
    rcases List.mem_cons.mp hevent with rfl | hsent
    · exact .inr ⟨_, _, rfl⟩
    · exact .inl (sendto_public reception _ event hsent)

lemma clientHello_secrets (state : SecureState) :
    PassSecrets p listener reception state (handleClientHello p cfg listener state reception) := by
  unfold handleClientHello
  cases hauthenticate : authenticateHello p listener reception with
  | error reason => exact .public (.refl state) (by simp [ListenerEvent.IsPublic])
  | ok authentic =>
    have hreplays := noNewSecrets_acceptHandshakeReplay state authentic.replayKey reception.monotonicNow
    dsimp only
    generalize state.acceptHandshakeReplay authentic.replayKey reception.monotonicNow = accepted at hreplays ⊢
    rcases accepted with ⟨mid, e | _ | _⟩
    · exact .public hreplays (by simp [ListenerEvent.IsPublic])
    · exact .public hreplays (by simp [ListenerEvent.IsPublic])
    · dsimp only
      cases hbuild : buildServerHandshake p listener authentic.hello authentic.ephemeral reception with
      | error e => exact .public hreplays (by simp [ListenerEvent.IsPublic])
      | ok handshake =>
        have hephemeral : parseEphemeralPublicKey p authentic.hello.clientEphemeralPublicKey =
            .ok authentic.ephemeral := by
          simp only [authenticateHello, raising, bind_eq_ok_iff, mapError_eq_ok_iff, orRaise_eq_ok_iff,
            throw_if_eq_ok_iff] at hauthenticate
          obtain ⟨hello, -, -, identity, -, digest, -, verified, -, -, ephemeral, hparse, replayKey, -,
            hresult⟩ := hauthenticate
          cases hresult
          exact hparse
        obtain ⟨hsecrets, hsessions, hpendings⟩ := installPending_secrets cfg mid reception.addr
          authentic.hello.stationId handshake.keys.clientToServerKey handshake.keys.serverToClientKey
          reception.monotonicNow
        apply PassSecrets.after hreplays
        constructor
        · exact fun _ hx => .inl (hsessions hx)
        · intro x hx
          rcases hpendings x hx with hold | hnew
          · exact .inl hold
          · exact .inr ⟨_, _, _, _, List.mem_cons_of_mem _ List.mem_cons_self, hnew.symm⟩
        · intro pending hello ephemeral handshake' hevent
          simp only [List.mem_cons, reduceCtorEq, ListenerEvent.installed.injEq, false_or] at hevent
          rcases hevent with ⟨rfl, rfl, rfl, rfl⟩ | hsent
          · exact ⟨⟨_, freshHello_of_authenticate hauthenticate⟩, ⟨_, hephemeral, hbuild⟩, rfl, hsecrets⟩
          · exact (sendto_public reception _ _ hsent).elim
        · intro pending session hevent
          simp only [List.mem_cons, reduceCtorEq, false_or] at hevent
          exact (sendto_public reception _ _ hevent).elim
        · intro key nonce plaintext hevent
          simp only [List.mem_cons, reduceCtorEq, false_or] at hevent
          exact (sendto_public reception _ _ hevent).elim
        · intro frame hevent
          simp only [List.mem_cons, reduceCtorEq, false_or] at hevent
          exact (sendto_public reception _ _ hevent).elim

/-- A pass that promotes the pending session of the address, and sends no more than pongs under its key. -/
lemma PassSecrets.promotes {pending : PendingSecureSession} {session : SecureSession}
    (hsame : session.secrets = pending.secrets) (hmem : (reception.addr, pending.secrets) ∈ state.pendingSecrets)
    (hconfirms : Confirms p reception pending.secrets)
    (hsessions : ∀ x ∈ state'.sessionSecrets, x ∈ state.sessionSecrets ∨ x.2 = session.secrets)
    (hpendings : state'.pendingSecrets ⊆ state.pendingSecrets)
    (hevents : ∀ event ∈ events, event.IsPublic ∨
      ∃ nonce plaintext, event = .encrypted session.serverToClientAesgcm nonce plaintext) :
    PassSecrets p listener reception state (state', .promoted pending session :: events) where
  sessions := by
    intro x hx
    rcases hsessions x hx with hold | hnew
    · exact .inl hold
    · exact .inr ⟨pending, session, List.mem_cons_self, hnew.symm⟩
  pendings := fun _ hx => .inl (hpendings hx)
  installed := by
    intro _ _ _ _ hevent
    rcases List.mem_cons.mp hevent with hfirst | hrest
    · cases hfirst
    · rcases hevents _ hrest with hpublic | ⟨_, _, heq⟩
      · exact hpublic.elim
      · cases heq
  promoted := by
    intro _ _ hevent
    rcases List.mem_cons.mp hevent with hfirst | hrest
    · cases hfirst
      exact ⟨hsame, hmem, hconfirms⟩
    · rcases hevents _ hrest with hpublic | ⟨_, _, heq⟩
      · exact hpublic.elim
      · cases heq
  encrypted := by
    intro key nonce plaintext hevent
    rcases List.mem_cons.mp hevent with hfirst | hrest
    · cases hfirst
    · rcases hevents _ hrest with hpublic | ⟨_, _, heq⟩
      · exact hpublic.elim
      · cases heq
        exact .inr ⟨pending, session, List.mem_cons_self, rfl⟩
  queued := by
    intro _ hevent
    rcases List.mem_cons.mp hevent with hfirst | hrest
    · cases hfirst
    · rcases hevents _ hrest with hpublic | ⟨_, _, heq⟩
      · exact hpublic.elim
      · cases heq

lemma confirmPending_secrets {pending : PendingSecureSession} {nonce ciphertext plaintext : Bytes}
    (hkept : NoNewSecrets start state)
    (hstart : start.pendingSessions.records.get? reception.addr = some pending)
    (hparse : parseSecureDataPacket reception.data = .ok (nonce, ciphertext))
    (hdecrypt : p.decrypt pending.clientToServerAesgcm nonce ciphertext dataAad = some plaintext) :
    PassSecrets p listener reception start (confirmPending p cfg state reception pending nonce plaintext) := by
  unfold confirmPending
  cases hload : loadMessage plaintext with
  | error e => exact .public hkept (by simp [ListenerEvent.IsPublic])
  | ok message =>
    by_cases hconfirms : isSessionConfirmationPing message pending.stationId = true
    case neg =>
      rw [Bool.not_eq_true] at hconfirms
      simp only [hconfirms, Bool.not_false, if_true]
      exact .public hkept (by simp [ListenerEvent.IsPublic])
    simp only [hconfirms, Bool.not_true, Bool.false_eq_true, if_false]
    have hadmitted := hkept.trans
      (noNewSecrets_acceptPendingDataNonce cfg state pending nonce reception.monotonicNow)
    generalize state.acceptPendingDataNonce cfg pending nonce reception.monotonicNow = admitted at hadmitted ⊢
    rcases admitted with ⟨mid, e | _ | _⟩
    · exact .public hadmitted (by simp [ListenerEvent.IsPublic])
    · exact .public hadmitted (by simp [ListenerEvent.IsPublic])
    obtain ⟨hpendings, hnone, hsome⟩ := promote_secrets cfg mid reception.addr pending reception.monotonicNow
    dsimp only
    generalize mid.promotePendingSession cfg reception.addr pending reception.monotonicNow = promotion
      at hpendings hnone hsome ⊢
    rcases promotion with ⟨promoted, none | session⟩
    · exact .public (hadmitted.trans ⟨hnone rfl, hpendings⟩) (by simp [ListenerEvent.IsPublic])
    · obtain ⟨hmem, hsessions⟩ := hsome session rfl
      have hsame := pending_unique hstart (hadmitted.pendings hmem)
      have hconfirms' : Confirms p reception pending.secrets :=
        ⟨nonce, message, ⟨ciphertext, plaintext, hparse, hdecrypt, hload⟩, hconfirms⟩
      have htouched := noNewSecrets_touchSession cfg promoted reception.addr session reception.monotonicNow
      have hsessions' : ∀ x ∈ (promoted.touchSession cfg reception.addr session
          reception.monotonicNow).1.sessionSecrets, x ∈ start.sessionSecrets ∨ x.2 = session.secrets := by
        intro x hx
        rcases hsessions x (htouched.sessions hx) with hold | hnew
        · exact .inl (hadmitted.sessions hold)
        · exact .inr hnew
      have hpendings' : (promoted.touchSession cfg reception.addr session
          reception.monotonicNow).1.pendingSecrets ⊆ start.pendingSecrets :=
        List.Subset.trans htouched.pendings (List.Subset.trans hpendings hadmitted.pendings)
      dsimp only
      generalize promoted.touchSession cfg reception.addr session reception.monotonicNow = touch
        at hsessions' hpendings' ⊢
      rcases touch with ⟨touched, _ | _⟩
      · exact .promotes hsame (pending_mem hstart) hconfirms' hsessions' hpendings'
          (by simp [ListenerEvent.IsPublic])
      · exact .promotes hsame (pending_mem hstart) hconfirms' hsessions' hpendings'
          (sendPong_events reception _ _ _)

/-- Besides public events an answer consists of a pong under the key of the session, or of a frame. -/
inductive AnswerEvent (listener : Listener Private Public) (reception : Reception Private)
    (session : SecureSession) (content : SecureMessage) : ListenerEvent Private → Prop
  | unsecret {event : ListenerEvent Private} (isPublic : event.IsPublic) :
      AnswerEvent listener reception session content event
  | pong (nonce plaintext : Bytes) :
      AnswerEvent listener reception session content (.encrypted session.serverToClientAesgcm nonce plaintext)
  | frame {payload : Json} {frame : IngressFrame} (content_eq : content = .nmea payload)
      (frame_eq : messageFrame listener.secInputId session.stationId reception.addr payload = .ok (some frame)) :
      AnswerEvent listener reception session content (.queued frame)

lemma answerMessage_events (session : SecureSession) (content : SecureMessage) :
    ∀ event ∈ answerMessage p listener reception session content,
      AnswerEvent listener reception session content event := by
  intro event hevent
  cases content with
  | ping sequence =>
    rcases sendPong_events reception _ _ _ event hevent with hpublic | ⟨nonce, plaintext, rfl⟩
    · exact .unsecret hpublic
    · exact .pong nonce plaintext
  | nmea payload =>
    simp only [answerMessage] at hevent
    split at hevent
    · obtain rfl := List.mem_singleton.mp hevent
      exact .unsecret trivial
    · cases hevent
    · next frame hframe =>
      obtain rfl := List.mem_singleton.mp hevent
      exact .frame rfl hframe

lemma handleActive_secrets {session : SecureSession} {nonce ciphertext : Bytes}
    (hkept : NoNewSecrets start state) (hstart : start.sessions.records.get? reception.addr = some session)
    (hparse : parseSecureDataPacket reception.data = .ok (nonce, ciphertext)) :
    PassSecrets p listener reception start
      (handleActive p cfg listener state reception session nonce ciphertext) := by
  unfold handleActive
  have hseen := hkept.trans (noNewSecrets_dataNonceSeen cfg state session nonce reception.monotonicNow)
  generalize state.dataNonceSeen cfg session nonce reception.monotonicNow = seen at hseen ⊢
  rcases seen with ⟨mid, _ | _⟩
  case true => exact .public hseen (by simp [ListenerEvent.IsPublic])
  dsimp only
  cases hopen : openMessage p session nonce ciphertext with
  | error reason => exact .public hseen (by simp [ListenerEvent.IsPublic])
  | ok content =>
    have hadmitted := hseen.trans (noNewSecrets_acceptDataNonce cfg mid session nonce reception.monotonicNow)
    dsimp only
    generalize mid.acceptDataNonce cfg session nonce reception.monotonicNow = admitted at hadmitted ⊢
    rcases admitted with ⟨accepted, e | _ | _⟩
    · exact .public hadmitted (by simp [ListenerEvent.IsPublic])
    · exact .public hadmitted (by simp [ListenerEvent.IsPublic])
    have htouched := hadmitted.trans
      (noNewSecrets_touchSession cfg accepted reception.addr session reception.monotonicNow)
    have hevents : ∀ event ∈ ListenerEvent.nonceAdmitted session nonce ::
        answerMessage p listener reception session content,
        AnswerEvent listener reception session content event :=
      List.forall_mem_cons.mpr ⟨.unsecret trivial, answerMessage_events session content⟩
    constructor
    · exact fun _ hx => .inl (htouched.sessions hx)
    · exact fun _ hx => .inl (htouched.pendings hx)
    · intro _ _ _ _ hevent
      cases hevents _ hevent with
      | unsecret isPublic => exact isPublic.elim
    · intro _ _ hevent
      cases hevents _ hevent with
      | unsecret isPublic => exact isPublic.elim
    · intro key _ _ hevent
      cases hevents _ hevent with
      | unsecret isPublic => exact isPublic.elim
      | pong _ _ => exact .inl ⟨_, session_mem hstart, rfl⟩
    · intro frame hevent
      cases hevents _ hevent with
      | unsecret isPublic => exact isPublic.elim
      | @frame payload _ content_eq frame_eq =>
        obtain ⟨message, hdecrypts, hcheck⟩ := openMessage_ok hparse hopen
        rw [content_eq] at hcheck
        exact ⟨session.secrets, session_mem hstart, nonce, message, payload, hdecrypts, hcheck, frame_eq⟩

lemma tryPending_secrets {pending : Option PendingSecureSession} {nonce ciphertext : Bytes}
    (hkept : NoNewSecrets start state)
    (hstart : start.pendingSessions.records.get? reception.addr = pending)
    (hparse : parseSecureDataPacket reception.data = .ok (nonce, ciphertext)) :
    (∃ mid, tryPending p cfg state reception nonce ciphertext pending = (mid, none) ∧ NoNewSecrets state mid) ∨
      ∃ mid events, tryPending p cfg state reception nonce ciphertext pending = (mid, some events) ∧
        PassSecrets p listener reception start (mid, events) := by
  cases pending with
  | none => exact .inl ⟨state, rfl, .refl state⟩
  | some pending =>
    have hseen := noNewSecrets_pendingDataNonceSeen cfg state pending nonce reception.monotonicNow
    unfold tryPending
    dsimp only
    generalize state.pendingDataNonceSeen cfg pending nonce reception.monotonicNow = seen at hseen ⊢
    rcases seen with ⟨mid, _ | _⟩
    case true => exact .inl ⟨mid, rfl, hseen⟩
    dsimp only
    cases hdecrypt : p.decrypt pending.clientToServerAesgcm nonce ciphertext dataAad with
    | none => exact .inl ⟨mid, rfl, hseen⟩
    | some plaintext =>
      exact .inr ⟨_, _, rfl, confirmPending_secrets (hkept.trans hseen) hstart hparse hdecrypt⟩

lemma handleData_secrets (state : SecureState) :
    PassSecrets p listener reception state (handleData p cfg listener state reception) := by
  unfold handleData getPendingSession getActiveSession
  dsimp only
  apply PassSecrets.after (noNewSecrets_cleanupPendings cfg state reception.monotonicNow)
  generalize (state.cleanupExpiredPendingSessions cfg reception.monotonicNow).1 = looked
  have hkept := noNewSecrets_cleanupSessions cfg looked reception.monotonicNow
  generalize (looked.cleanupExpiredSessions cfg reception.monotonicNow).1 = opened at hkept ⊢
  split
  · apply PassSecrets.public hkept
    intro event hevent
    rcases List.mem_cons.mp hevent with rfl | hsent
    · trivial
    · exact sendto_public reception _ event hsent
  · cases hparse : parseSecureDataPacket reception.data with
    | error e => exact .public hkept (by simp [ListenerEvent.IsPublic])
    | ok packet =>
      obtain ⟨nonce, ciphertext⟩ := packet
      dsimp only
      rcases @tryPending_secrets _ _ p cfg listener reception looked opened _ nonce ciphertext hkept rfl
        hparse with ⟨mid, htry, hmid⟩ | ⟨mid, events, htry, hsecrets⟩
      · rw [htry]
        cases hsession : opened.sessions.records.get? reception.addr with
        | none => exact .public (hkept.trans hmid) (by simp [ListenerEvent.IsPublic])
        | some session => exact .after hkept (handleActive_secrets hmid hsession hparse)
      · rw [htry]
        exact hsecrets

/-- What the events of one pass tell about secrets. -/
lemma receive_secrets (p : Primitives Private Public) (cfg : SecureSettings) (listener : Listener Private Public)
    (reception : Reception Private) (state : SecureState) :
    PassSecrets p listener reception state (receive p cfg listener state reception) := by
  unfold receive
  split
  · exact .public (.refl state) (by simp)
  have hkept := (noNewSecrets_cleanupSessions cfg state reception.monotonicNow).trans
    (noNewSecrets_cleanupPendings cfg _ reception.monotonicNow)
  dsimp only
  split
  · exact .after hkept (clientHello_secrets _)
  · split
    · exact .after hkept (handleData_secrets _)
    · exact .public hkept (by simp)

end Passes

end AisMixer.Udpsec

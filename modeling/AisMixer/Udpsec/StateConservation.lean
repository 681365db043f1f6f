import AisMixer.Udpsec.StateInvariant

/-!
# Runs of the local state

Any sequence of operations at times that do not go back, with handles of live or of stale
sessions, keeps every store within its bound and in order, and gives every record one fate.
-/

namespace AisMixer.Udpsec

open AisMixer.Library

/-- A call of the state; a handle is the object that an earlier call returned. -/
inductive StateOperation where
  | acceptHandshakeReplay (key : Bytes)
  | installSession (addr : Address) (stationId : PyStr) (clientToServerAesgcm serverToClientAesgcm : Bytes)
  | installPendingSession (addr : Address) (stationId : PyStr)
      (clientToServerAesgcm serverToClientAesgcm : Bytes)
  | getActiveSession (addr : Address)
  | getPendingSession (addr : Address)
  | touchSession (addr : Address) (session : SecureSession)
  | promotePendingSession (addr : Address) (pending : PendingSecureSession)
  | dataNonceSeen (session : SecureSession) (nonce : Bytes)
  | pendingDataNonceSeen (pending : PendingSecureSession) (nonce : Bytes)
  | acceptDataNonce (session : SecureSession) (nonce : Bytes)
  | acceptPendingDataNonce (pending : PendingSecureSession) (nonce : Bytes)
  | cleanupExpiredSessions
  | cleanupExpiredPendingSessions

namespace SecureState

variable {cfg : SecureSettings} {now : ℚ} {state : SecureState}

/-- The state after a call at a time. -/
def apply (cfg : SecureSettings) (state : SecureState) (now : ℚ) : StateOperation → SecureState
  | .acceptHandshakeReplay key => (state.acceptHandshakeReplay key now).1
  | .installSession addr stationId clientToServer serverToClient =>
    (state.installSession cfg addr stationId clientToServer serverToClient now).1
  | .installPendingSession addr stationId clientToServer serverToClient =>
    (state.installPendingSession cfg addr stationId clientToServer serverToClient now).1
  | .getActiveSession addr => (state.getActiveSession cfg addr now).1
  | .getPendingSession addr => (state.getPendingSession cfg addr now).1
  | .touchSession addr session => (state.touchSession cfg addr session now).1
  | .promotePendingSession addr pending => (state.promotePendingSession cfg addr pending now).1
  | .dataNonceSeen session nonce => (state.dataNonceSeen cfg session nonce now).1
  | .pendingDataNonceSeen pending nonce => (state.pendingDataNonceSeen cfg pending nonce now).1
  | .acceptDataNonce session nonce => (state.acceptDataNonce cfg session nonce now).1
  | .acceptPendingDataNonce pending nonce => (state.acceptPendingDataNonce cfg pending nonce now).1
  | .cleanupExpiredSessions => (state.cleanupExpiredSessions cfg now).1
  | .cleanupExpiredPendingSessions => (state.cleanupExpiredPendingSessions cfg now).1

def applyAll (cfg : SecureSettings) (state : SecureState) (calls : List (ℚ × StateOperation)) : SecureState :=
  calls.foldl (fun state call => state.apply cfg call.1 call.2) state

lemma Invariant.apply (h : Invariant cfg 0 now state) {at' : ℚ} (hle : now ≤ at')
    (operation : StateOperation) : Invariant cfg 0 at' (state.apply cfg at' operation) := by
  have hlater := h.mono hle
  cases operation with
  | acceptHandshakeReplay key => exact (hlater.acceptHandshakeReplay key at').1
  | installSession addr stationId clientToServer serverToClient =>
    exact h.installSession hle addr stationId clientToServer serverToClient
  | installPendingSession addr stationId clientToServer serverToClient =>
    exact h.installPendingSession hle addr stationId clientToServer serverToClient
  | getActiveSession addr => exact hlater.cleanupSessions at'
  | getPendingSession addr => exact hlater.cleanupPendings at'
  | touchSession addr session => exact h.touchSession hle addr session
  | promotePendingSession addr pending => exact h.promotePendingSession hle addr pending
  | dataNonceSeen session nonce => exact hlater.dataNonceSeen session nonce at'
  | pendingDataNonceSeen pending nonce => exact hlater.pendingDataNonceSeen pending nonce at'
  | acceptDataNonce session nonce => exact (hlater.acceptDataNonce session nonce at').1
  | acceptPendingDataNonce pending nonce => exact (hlater.acceptPendingDataNonce pending nonce at').1
  | cleanupExpiredSessions => exact hlater.cleanupSessions at'
  | cleanupExpiredPendingSessions => exact hlater.cleanupPendings at'

lemma Invariant.applyAll {calls : List (ℚ × StateOperation)} (h : Invariant cfg 0 now state)
    (hstart : ∀ call ∈ calls, now ≤ call.1) (htimes : (calls.map Prod.fst).Pairwise (· ≤ ·)) :
    ∃ now', Invariant cfg 0 now' (state.applyAll cfg calls) := by
  induction calls generalizing now state with
  | nil => exact ⟨now, h⟩
  | cons call calls ih =>
    rw [List.map_cons, List.pairwise_cons] at htimes
    apply ih (h.apply (hstart call (by simp)) call.2) _ htimes.2
    intro later hlater
    exact htimes.1 later.1 (List.mem_map_of_mem hlater)

/-- What the statistics and the stores say about each other. -/
structure Conserves (cfg : SecureSettings) (state : SecureState) : Prop where
  sessionBound : state.stats.currentSessions ≤ cfg.maxSessions
  pendingBound : state.stats.currentPendingSessions ≤ cfg.maxPendingSessions
  replayBound : state.stats.currentHandshakeReplays ≤ cfg.handshakeReplayMax
  nonceBound : ∀ session ∈ state.sessions.records.values,
    session.seenDataNonces.size ≤ cfg.dataNonceMaxPerSession
  pendingNonceBound : ∀ pending ∈ state.pendingSessions.records.values,
    pending.seenDataNonces.size ≤ cfg.dataNonceMaxPerSession
  sessionOrder : state.sessions.records.values.Pairwise (fun a b => a.lastSeen ≤ b.lastSeen)
  pendingOrder : state.pendingSessions.records.values.Pairwise (fun a b => a.createdAt ≤ b.createdAt)
  nonceSum : state.stats.currentDataNonces =
    (state.sessions.records.values.map (fun session => session.seenDataNonces.size)).sum +
      (state.pendingSessions.records.values.map (fun pending => pending.seenDataNonces.size)).sum
  replayPeak : state.stats.currentHandshakeReplays ≤ state.stats.peakHandshakeReplays
  sessionPeak : state.stats.currentSessions ≤ state.stats.peakSessions
  pendingPeak : state.stats.currentPendingSessions ≤ state.stats.peakPendingSessions
  noncePeak : state.stats.currentDataNonces ≤ state.stats.peakDataNonces
  replayFates : state.stats.handshakeReplayAccepted = state.stats.currentHandshakeReplays +
    state.stats.handshakeReplayExpired + state.stats.handshakeReplayCapacityEvicted
  sessionFates : state.stats.sessionsCreated = state.stats.currentSessions +
    state.stats.sessionsReplaced + state.stats.sessionsExpired + state.stats.sessionsCapacityEvicted
  pendingFates : state.stats.pendingSessionsCreated = state.stats.currentPendingSessions +
    state.stats.pendingSessionsReplaced + state.stats.pendingSessionsPromoted +
    state.stats.pendingSessionsExpired + state.stats.pendingSessionsCapacityEvicted
  nonceFates : (state.stats.dataNoncesAccepted : Int) = state.stats.currentDataNonces +
    state.stats.dataNoncesExpired + state.stats.dataNoncesCapacityEvicted +
    state.stats.dataNoncesSessionDiscarded

lemma pairwise_values {κ ρ : Type} {d : Dict κ ρ} {stamp : ρ → ℚ}
    (h : d.entries.Pairwise (fun a b => stamp a.2 ≤ stamp b.2)) :
    d.values.Pairwise (fun a b => stamp a ≤ stamp b) :=
  List.pairwise_map.mpr h

lemma total_values {κ ρ : Type} (store : RecordStore κ ρ) (weight : ρ → Nat) :
    store.total weight = (store.records.values.map weight).sum := by
  rw [RecordStore.total, Dict.values, List.map_map]
  rfl

lemma Invariant.conserves (h : Invariant cfg 0 now state) : Conserves cfg state where
  sessionBound := h.sessions.bounded
  pendingBound := h.pendings.bounded
  replayBound := h.replays.set.fits
  nonceBound := by
    intro session hsession
    obtain ⟨e, he, rfl⟩ := List.mem_map.mp hsession
    exact (h.sessionNonces e he).fits
  pendingNonceBound := by
    intro pending hpending
    obtain ⟨e, he, rfl⟩ := List.mem_map.mp hpending
    exact (h.pendingNonces e he).fits
  sessionOrder := pairwise_values h.sessions.sorted
  pendingOrder := pairwise_values h.pendings.sorted
  nonceSum := by
    have hcurrent := h.nonces.current
    rw [total_values, total_values, add_zero] at hcurrent
    exact hcurrent
  replayPeak := h.replays.peak
  sessionPeak := h.sessions.peak
  pendingPeak := h.pendings.peak
  noncePeak := h.nonces.peak
  replayFates := h.replays.conserved
  sessionFates := by
    have hconserved := h.sessions.conserved
    have hpromoted := h.neverPromoted
    simp only [RecordStore.departed] at hconserved
    simp only [stats]
    omega
  pendingFates := by
    have hconserved := h.pendings.conserved
    simp only [RecordStore.departed] at hconserved
    simp only [stats]
    omega
  nonceFates := h.nonces.conserved

end SecureState

/-- After every run of the state with times that do not go back, the stores are bounded and
ordered, and every record that was admitted is kept or counted under one fate. -/
theorem secure_state_conserved (cfg : SecureSettings) (calls : List (ℚ × StateOperation))
    (htimes : (calls.map Prod.fst).Pairwise (· ≤ ·)) :
    SecureState.Conserves cfg ((SecureState.init cfg).applyAll cfg calls) := by
  cases calls with
  | nil => exact (SecureState.invariant_init cfg 0).conserves
  | cons first rest =>
    have hstart : ∀ call ∈ first :: rest, first.1 ≤ call.1 := by
      intro call hcall
      rw [List.map_cons, List.pairwise_cons] at htimes
      rcases List.mem_cons.mp hcall with rfl | hlater
      · exact le_refl _
      · exact htimes.1 call.1 (List.mem_map_of_mem hlater)
    obtain ⟨now, hinv⟩ := (SecureState.invariant_init cfg first.1).applyAll hstart htimes
    exact hinv.conserves

def harbourAddress : Address := ⟨str "192.0.2.7", 17778, []⟩

/-- The pending session that the first installation of a run returns. -/
def harbourPending (cfg : SecureSettings) : PendingSecureSession where
  number := 0
  address := harbourAddress
  stationId := str "boat1"
  clientToServerAesgcm := [1]
  serverToClientAesgcm := [2]
  createdAt := 0
  seenDataNonces := .init cfg.dataNonceTtl cfg.dataNonceMaxPerSession

/-- A station whose session is promoted, kept for a while and then left to expire. -/
theorem secure_state_conserved_harbour :
    SecureState.Conserves defaultSettings ((SecureState.init defaultSettings).applyAll defaultSettings
      [(0, .acceptHandshakeReplay [7]),
        (0, .installPendingSession harbourAddress (str "boat1") [1] [2]),
        (1, .acceptPendingDataNonce (harbourPending defaultSettings) [0]),
        (1, .promotePendingSession harbourAddress (harbourPending defaultSettings)),
        (1, .getActiveSession harbourAddress),
        (400, .cleanupExpiredSessions)]) := by
  apply secure_state_conserved
  simp only [List.map_cons, List.map_nil, List.pairwise_cons]
  norm_num

end AisMixer.Udpsec

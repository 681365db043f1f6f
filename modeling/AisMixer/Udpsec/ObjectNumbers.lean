import AisMixer.Udpsec.StateConservation

/-!
# The numbers of session objects

Every call of the state leaves records where they are or removes them, and adds at most one object,
which takes the next number. So a number is given once, and the object of a handle that a run has
returned is at the address of the handle or nowhere.
-/

namespace AisMixer.Udpsec

open AisMixer.Library

namespace SecureState

variable {cfg : SecureSettings} {state state' state'' : SecureState} {addr : Address} {now : ℚ}

/-! ### Identities -/

/-- The place of a record, its own address and its number. -/
abbrev Identity := Address × Address × Nat

def sessionIds (state : SecureState) : List Identity :=
  state.sessions.records.entries.map (fun e => (e.1, e.2.address, e.2.number))

def pendingIds (state : SecureState) : List Identity :=
  state.pendingSessions.records.entries.map (fun e => (e.1, e.2.address, e.2.number))

/-- Nothing is added, and no number is given. -/
structure Kept (state state' : SecureState) : Prop where
  sessions : state'.sessionIds ⊆ state.sessionIds
  pendings : state'.pendingIds ⊆ state.pendingIds
  nextNumber : state'.nextNumber = state.nextNumber

/-- What is added to a store is one object, with the next number. -/
def AddsAtMostOne (next next' : Nat) (ids ids' : List Identity) : Prop :=
  ∃ addr, ∀ id ∈ ids', id ∈ ids ∨ id = (addr, addr, next) ∧ next < next'

structure Evolves (state state' : SecureState) : Prop where
  sessions : AddsAtMostOne state.nextNumber state'.nextNumber state.sessionIds state'.sessionIds
  pendings : AddsAtMostOne state.nextNumber state'.nextNumber state.pendingIds state'.pendingIds
  nextNumber : state.nextNumber ≤ state'.nextNumber

lemma Kept.of_same (hsessions : state'.sessions = state.sessions)
    (hpendings : state'.pendingSessions = state.pendingSessions)
    (hnumber : state'.nextNumber = state.nextNumber) : Kept state state' where
  sessions := by rw [sessionIds, sessionIds, hsessions]; exact List.Subset.refl _
  pendings := by rw [pendingIds, pendingIds, hpendings]; exact List.Subset.refl _
  nextNumber := hnumber

lemma Kept.refl (state : SecureState) : Kept state state := .of_same rfl rfl rfl

lemma Kept.trans (h : Kept state state') (h' : Kept state' state'') : Kept state state'' where
  sessions := List.Subset.trans h'.sessions h.sessions
  pendings := List.Subset.trans h'.pendings h.pendings
  nextNumber := h'.nextNumber.trans h.nextNumber

lemma Kept.evolves (h : Kept state state') : Evolves state state' where
  sessions := ⟨⟨[], 0, []⟩, fun _ hid => .inl (h.sessions hid)⟩
  pendings := ⟨⟨[], 0, []⟩, fun _ hid => .inl (h.pendings hid)⟩
  nextNumber := h.nextNumber.ge

lemma Kept.andThen (h : Kept state state') (h' : Evolves state' state'') : Evolves state state'' where
  sessions := by
    obtain ⟨addr, hadds⟩ := h'.sessions
    rw [h.nextNumber] at hadds
    exact ⟨addr, fun id hid => (hadds id hid).imp_left (fun hold => h.sessions hold)⟩
  pendings := by
    obtain ⟨addr, hadds⟩ := h'.pendings
    rw [h.nextNumber] at hadds
    exact ⟨addr, fun id hid => (hadds id hid).imp_left (fun hold => h.pendings hold)⟩
  nextNumber := h.nextNumber ▸ h'.nextNumber

/-! ### Steps that add nothing -/

lemma ids_erase {ρ : Type} (d : Dict Address ρ) (key : Address) (identity : Address × ρ → Identity) :
    (d.erase key).entries.map identity ⊆ d.entries.map identity :=
  ((Dict.entries_erase_sublist d key).map identity).subset

lemma ids_set {ρ : Type} {d : Dict Address ρ} {key : Address} {old new : ρ}
    (identity : Address × ρ → Identity) (hget : d.get? key = some old)
    (hsame : identity (key, new) = identity (key, old)) :
    (d.set key new).entries.map identity ⊆ d.entries.map identity := by
  intro id hid
  obtain ⟨e, he, rfl⟩ := List.mem_map.mp hid
  rcases mem_entries_set he with rfl | he
  · rw [hsame]
    exact List.mem_map_of_mem ((Dict.get?_eq_some_iff _ _ _).mp hget)
  · exact List.mem_map_of_mem he

lemma ids_setAtEnd {ρ : Type} {d : Dict Address ρ} {key : Address} {old new : ρ}
    (identity : Address × ρ → Identity) (hget : d.get? key = some old)
    (hsame : identity (key, new) = identity (key, old)) :
    (d.setAtEnd key new).entries.map identity ⊆ d.entries.map identity := by
  intro id hid
  obtain ⟨e, he, rfl⟩ := List.mem_map.mp hid
  rcases mem_entries_set he with rfl | he
  · rw [hsame]
    exact List.mem_map_of_mem ((Dict.get?_eq_some_iff _ _ _).mp hget)
  · exact List.mem_map_of_mem (mem_of_mem_erase he)

lemma kept_removeSession (state : SecureState) (addr : Address) (reason : Fate) :
    Kept state (state.removeSession addr reason) := by
  unfold removeSession
  split
  · exact .refl state
  · refine ⟨?_, List.Subset.refl _, rfl⟩
    simp only [sessionIds, discardSessionNonces, RecordStore.remove_records]
    exact ids_erase _ _ _

lemma kept_removePendingSession (state : SecureState) (addr : Address) (reason : Fate) :
    Kept state (state.removePendingSession addr reason) := by
  unfold removePendingSession
  split
  · exact .refl state
  · refine ⟨List.Subset.refl _, ?_, rfl⟩
    simp only [pendingIds, discardSessionNonces, RecordStore.remove_records]
    exact ids_erase _ _ _

lemma kept_cleanupSessions (cfg : SecureSettings) (state : SecureState) (now : ℚ) :
    Kept state (state.cleanupExpiredSessions cfg now).1 := by
  unfold cleanupExpiredSessions
  generalize state.sessions.records.entries = entries
  induction entries generalizing state with
  | nil => exact .refl state
  | cons entry rest ih =>
    rw [cleanupSessionsLoop]
    split
    · exact .refl state
    · exact (kept_removeSession state entry.1 .expired).trans (ih _)

lemma kept_cleanupPendings (cfg : SecureSettings) (state : SecureState) (now : ℚ) :
    Kept state (state.cleanupExpiredPendingSessions cfg now).1 := by
  unfold cleanupExpiredPendingSessions
  generalize state.pendingSessions.records.entries = entries
  induction entries generalizing state with
  | nil => exact .refl state
  | cons entry rest ih =>
    rw [cleanupPendingLoop]
    split
    · exact .refl state
    · exact (kept_removePendingSession state entry.1 .expired).trans (ih _)

lemma kept_makeSessionRoom (cfg : SecureSettings) (state : SecureState) (addr : Address) :
    Kept state (state.makeSessionRoom cfg addr) := by
  unfold makeSessionRoom
  split
  · exact kept_removeSession state addr .replaced
  · split
    · split
      · exact .refl state
      · exact kept_removeSession state _ .capacity
    · exact .refl state

lemma kept_makePendingRoom (cfg : SecureSettings) (state : SecureState) (addr : Address) :
    Kept state (state.makePendingRoom cfg addr) := by
  unfold makePendingRoom
  split
  · exact kept_removePendingSession state addr .replaced
  · split
    · split
      · exact .refl state
      · exact kept_removePendingSession state _ .capacity
    · exact .refl state

/-- A handle is refused, or its object is at the address of the handle. -/
lemma getLiveSessionHandle_cases (cfg : SecureSettings) (state : SecureState) (addr : Address)
    (session : SecureSession) (now : ℚ) : ∃ live, Kept state live ∧
      (state.getLiveSessionHandle cfg addr session now = (live, none) ∨
        ∃ current, state.getLiveSessionHandle cfg addr session now = (live, some current) ∧
          live.sessions.records.get? addr = some current) := by
  unfold getLiveSessionHandle
  split
  · exact ⟨state, .refl state, .inl rfl⟩
  · refine ⟨_, kept_cleanupSessions cfg state now, ?_⟩
    dsimp only
    cases hcurrent : (state.cleanupExpiredSessions cfg now).1.liveSession addr session with
    | none => exact .inl rfl
    | some current => exact .inr ⟨current, rfl, (liveSession_eq_some hcurrent).1⟩

lemma getLivePendingSessionHandle_cases (cfg : SecureSettings) (state : SecureState) (addr : Address)
    (pending : PendingSecureSession) (now : ℚ) : ∃ live, Kept state live ∧
      (state.getLivePendingSessionHandle cfg addr pending now = (live, none) ∨
        ∃ current, state.getLivePendingSessionHandle cfg addr pending now = (live, some current) ∧
          live.pendingSessions.records.get? addr = some current) := by
  unfold getLivePendingSessionHandle
  split
  · exact ⟨state, .refl state, .inl rfl⟩
  · refine ⟨_, kept_cleanupPendings cfg state now, ?_⟩
    dsimp only
    cases hcurrent : (state.cleanupExpiredPendingSessions cfg now).1.livePending addr pending with
    | none => exact .inl rfl
    | some current => exact .inr ⟨current, rfl, (livePending_eq_some hcurrent).1⟩

/-! ### Operations -/

lemma kept_setSessionNonces {session : SecureSession} (hget : state.sessions.records.get? addr = some session)
    (nonces : BoundedExpiringSet Bytes) : Kept state (state.setSessionNonces addr session nonces) :=
  ⟨ids_set _ hget rfl, List.Subset.refl _, rfl⟩

lemma kept_setPendingNonces {pending : PendingSecureSession}
    (hget : state.pendingSessions.records.get? addr = some pending) (nonces : BoundedExpiringSet Bytes) :
    Kept state (state.setPendingNonces addr pending nonces) :=
  ⟨List.Subset.refl _, ids_set _ hget rfl, rfl⟩

lemma kept_accountAdmission (state : SecureState) (admission : ExpiringSetAdmission) :
    Kept state (state.accountAdmission admission).1 := by
  unfold accountAdmission
  dsimp only
  split
  · exact .of_same rfl rfl rfl
  · exact .of_same rfl rfl rfl

/-- A new object under the next number. -/
lemma evolves_addSession {session : SecureSession} (haddress : session.address = addr)
    (hnumber : session.number = state.nextNumber) : Evolves state (state.addSession addr session) where
  sessions := by
    refine ⟨addr, ?_⟩
    intro id hid
    obtain ⟨e, he, rfl⟩ := List.mem_map.mp hid
    rcases mem_entries_set he with rfl | he
    · right
      rw [haddress, hnumber]
      exact ⟨rfl, Nat.lt_succ_self _⟩
    · exact .inl (List.mem_map_of_mem he)
  pendings := ⟨addr, fun _ hid => .inl hid⟩
  nextNumber := Nat.le_succ _

lemma evolves_addPending {pending : PendingSecureSession} (haddress : pending.address = addr)
    (hnumber : pending.number = state.nextNumber) : Evolves state { state with
      pendingSessions := state.pendingSessions.add addr pending
      nextNumber := state.nextNumber + 1 } where
  sessions := ⟨addr, fun _ hid => .inl hid⟩
  pendings := by
    refine ⟨addr, ?_⟩
    intro id hid
    obtain ⟨e, he, rfl⟩ := List.mem_map.mp hid
    rcases mem_entries_set he with rfl | he
    · right
      rw [haddress, hnumber]
      exact ⟨rfl, Nat.lt_succ_self _⟩
    · exact .inl (List.mem_map_of_mem he)
  nextNumber := Nat.le_succ _

lemma evolves_touchSession (cfg : SecureSettings) (state : SecureState) (addr : Address)
    (session : SecureSession) (now : ℚ) : Evolves state (state.touchSession cfg addr session now).1 := by
  obtain ⟨live, hkept, hlive | ⟨current, hlive, hget⟩⟩ :=
    getLiveSessionHandle_cases cfg state addr session now
  · rw [touchSession, hlive]
    exact hkept.evolves
  · rw [touchSession, hlive]
    have htouched : Kept live (live.touchActiveSession addr current now) :=
      ⟨ids_setAtEnd _ hget rfl, List.Subset.refl _, rfl⟩
    exact (hkept.trans htouched).evolves

lemma evolves_promotePendingSession (cfg : SecureSettings) (state : SecureState) (addr : Address)
    (pending : PendingSecureSession) (now : ℚ) :
    Evolves state (state.promotePendingSession cfg addr pending now).1 := by
  obtain ⟨live, hkept, hlive | ⟨current, hlive, hget⟩⟩ :=
    getLivePendingSessionHandle_cases cfg state addr pending now
  · rw [promotePendingSession, hlive]
    exact hkept.evolves
  · rw [promotePendingSession, hlive]
    have hcleaned := hkept.trans (kept_cleanupSessions cfg live now)
    have htaken : Kept (live.cleanupExpiredSessions cfg now).1 { (live.cleanupExpiredSessions cfg now).1 with
        pendingSessions :=
          (live.cleanupExpiredSessions cfg now).1.pendingSessions.remove addr .promoted } :=
      ⟨List.Subset.refl _, ids_erase _ _ _, rfl⟩
    have hroom := (hcleaned.trans htaken).trans (kept_makeSessionRoom cfg _ addr)
    exact hroom.andThen (evolves_addSession rfl rfl)

lemma evolves_dataNonceSeen (cfg : SecureSettings) (state : SecureState) (session : SecureSession)
    (nonce : Bytes) (now : ℚ) : Evolves state (state.dataNonceSeen cfg session nonce now).1 := by
  obtain ⟨live, hkept, hlive | ⟨current, hlive, hget⟩⟩ :=
    getLiveSessionHandle_cases cfg state session.address session now
  · rw [dataNonceSeen, hlive]
    exact hkept.evolves
  · rw [dataNonceSeen, hlive]
    have hset := hkept.trans (kept_setSessionNonces hget
      (current.seenDataNonces.contains nonce now).1)
    dsimp only
    apply Kept.evolves
    split
    · exact hset.trans (.of_same rfl rfl rfl)
    · exact hset.trans (.of_same rfl rfl rfl)

lemma evolves_pendingDataNonceSeen (cfg : SecureSettings) (state : SecureState)
    (pending : PendingSecureSession) (nonce : Bytes) (now : ℚ) :
    Evolves state (state.pendingDataNonceSeen cfg pending nonce now).1 := by
  obtain ⟨live, hkept, hlive | ⟨current, hlive, hget⟩⟩ :=
    getLivePendingSessionHandle_cases cfg state pending.address pending now
  · rw [pendingDataNonceSeen, hlive]
    exact hkept.evolves
  · rw [pendingDataNonceSeen, hlive]
    have hset := hkept.trans (kept_setPendingNonces hget
      (current.seenDataNonces.contains nonce now).1)
    apply Kept.evolves
    exact hset.trans (.of_same rfl rfl rfl)

lemma evolves_acceptDataNonce (cfg : SecureSettings) (state : SecureState) (session : SecureSession)
    (nonce : Bytes) (now : ℚ) : Evolves state (state.acceptDataNonce cfg session nonce now).1 := by
  obtain ⟨live, hkept, hlive | ⟨current, hlive, hget⟩⟩ :=
    getLiveSessionHandle_cases cfg state session.address session now
  · rw [acceptDataNonce, hlive]
    exact hkept.evolves
  · rw [acceptDataNonce, hlive]
    have hset := fun nonces => hkept.trans (kept_setSessionNonces hget nonces)
    dsimp only
    rcases current.seenDataNonces.accept nonce now with ⟨nonces, e | admission⟩
    · exact (hset nonces).evolves
    · exact ((hset nonces).trans (kept_accountAdmission _ admission)).evolves

lemma evolves_acceptPendingDataNonce (cfg : SecureSettings) (state : SecureState)
    (pending : PendingSecureSession) (nonce : Bytes) (now : ℚ) :
    Evolves state (state.acceptPendingDataNonce cfg pending nonce now).1 := by
  obtain ⟨live, hkept, hlive | ⟨current, hlive, hget⟩⟩ :=
    getLivePendingSessionHandle_cases cfg state pending.address pending now
  · rw [acceptPendingDataNonce, hlive]
    exact hkept.evolves
  · rw [acceptPendingDataNonce, hlive]
    have hset := fun nonces => hkept.trans (kept_setPendingNonces hget nonces)
    dsimp only
    rcases current.seenDataNonces.accept nonce now with ⟨nonces, e | admission⟩
    · exact (hset nonces).evolves
    · exact ((hset nonces).trans (kept_accountAdmission _ admission)).evolves

lemma kept_acceptHandshakeReplay (state : SecureState) (key : Bytes) (now : ℚ) :
    Kept state (state.acceptHandshakeReplay key now).1 := by
  unfold acceptHandshakeReplay
  rcases state.handshakeReplays.accept key now with ⟨replays, e | admission⟩
  · exact .of_same rfl rfl rfl
  · dsimp only
    split
    · exact .of_same rfl rfl rfl
    · exact .of_same rfl rfl rfl

/-- One call of the state. -/
lemma evolves_apply (cfg : SecureSettings) (state : SecureState) (now : ℚ) (operation : StateOperation) :
    Evolves state (state.apply cfg now operation) := by
  cases operation with
  | acceptHandshakeReplay key => exact (kept_acceptHandshakeReplay state key now).evolves
  | installSession addr stationId clientToServer serverToClient =>
    have hkept := (kept_cleanupSessions cfg state now).trans (kept_makeSessionRoom cfg _ addr)
    exact hkept.andThen (evolves_addSession rfl rfl)
  | installPendingSession addr stationId clientToServer serverToClient =>
    have hkept := (kept_cleanupPendings cfg state now).trans (kept_makePendingRoom cfg _ addr)
    exact hkept.andThen (evolves_addPending rfl rfl)
  | getActiveSession addr => exact (kept_cleanupSessions cfg state now).evolves
  | getPendingSession addr => exact (kept_cleanupPendings cfg state now).evolves
  | touchSession addr session => exact evolves_touchSession cfg state addr session now
  | promotePendingSession addr pending => exact evolves_promotePendingSession cfg state addr pending now
  | dataNonceSeen session nonce => exact evolves_dataNonceSeen cfg state session nonce now
  | pendingDataNonceSeen pending nonce => exact evolves_pendingDataNonceSeen cfg state pending nonce now
  | acceptDataNonce session nonce => exact evolves_acceptDataNonce cfg state session nonce now
  | acceptPendingDataNonce pending nonce => exact evolves_acceptPendingDataNonce cfg state pending nonce now
  | cleanupExpiredSessions => exact (kept_cleanupSessions cfg state now).evolves
  | cleanupExpiredPendingSessions => exact (kept_cleanupPendings cfg state now).evolves

/-! ### Handles of a run -/

/-- The session object that a call returns. -/
def returnedSession (cfg : SecureSettings) (state : SecureState) (now : ℚ) :
    StateOperation → Option SecureSession
  | .installSession addr stationId clientToServer serverToClient =>
    some (state.installSession cfg addr stationId clientToServer serverToClient now).2
  | .getActiveSession addr => (state.getActiveSession cfg addr now).2
  | .promotePendingSession addr pending => (state.promotePendingSession cfg addr pending now).2
  | _ => none

/-- The pending session object that a call returns. -/
def returnedPending (cfg : SecureSettings) (state : SecureState) (now : ℚ) :
    StateOperation → Option PendingSecureSession
  | .installPendingSession addr stationId clientToServer serverToClient =>
    some (state.installPendingSession cfg addr stationId clientToServer serverToClient now).2
  | .getPendingSession addr => (state.getPendingSession cfg addr now).2
  | _ => none

/-- The session objects that the calls of a run return. -/
def sessionHandles (cfg : SecureSettings) : SecureState → List (ℚ × StateOperation) → List SecureSession
  | _, [] => []
  | state, call :: calls => (state.returnedSession cfg call.1 call.2).toList ++
      sessionHandles cfg (state.apply cfg call.1 call.2) calls

def pendingHandles (cfg : SecureSettings) :
    SecureState → List (ℚ × StateOperation) → List PendingSecureSession
  | _, [] => []
  | state, call :: calls => (state.returnedPending cfg call.1 call.2).toList ++
      pendingHandles cfg (state.apply cfg call.1 call.2) calls

/-- Every record stands at its own address, and its number is one that was given, to it alone. -/
def Identified (next : Nat) (ids : List Identity) : Prop :=
  ∀ id ∈ ids, id.1 = id.2.1 ∧ id.2.2 < next ∧ ∀ other ∈ ids, other.2.2 = id.2.2 → other.1 = id.1

/-- A number that was given to an object at an address. -/
def GivenAt (addr : Address) (number next : Nat) (ids : List Identity) : Prop :=
  number < next ∧ ∀ id ∈ ids, id.2.2 = number → id.1 = addr

section Numbers

variable {next next' number : Nat} {ids ids' : List Identity}

lemma Identified.adds (h : Identified next ids) (hadds : AddsAtMostOne next next' ids ids')
    (hle : next ≤ next') : Identified next' ids' := by
  obtain ⟨addr, hadds⟩ := hadds
  intro id hid
  rcases hadds id hid with hold | ⟨rfl, hlt⟩
  · obtain ⟨haddress, hnumber, hunique⟩ := h id hold
    refine ⟨haddress, hnumber.trans_le hle, ?_⟩
    intro other hother hsame
    rcases hadds other hother with hold' | ⟨rfl, -⟩
    · exact hunique other hold' hsame
    · exact absurd hsame hnumber.ne'
  · refine ⟨rfl, hlt, ?_⟩
    intro other hother hsame
    rcases hadds other hother with hold' | ⟨rfl, -⟩
    · exact absurd hsame (h other hold').2.1.ne
    · rfl

lemma GivenAt.adds (h : GivenAt addr number next ids) (hadds : AddsAtMostOne next next' ids ids')
    (hle : next ≤ next') : GivenAt addr number next' ids' := by
  obtain ⟨added, hadds⟩ := hadds
  refine ⟨h.1.trans_le hle, ?_⟩
  intro id hid hsame
  rcases hadds id hid with hold | ⟨rfl, -⟩
  · exact h.2 id hold hsame
  · exact absurd hsame h.1.ne'

/-- A number of no record stays the number of none. -/
lemma absent_adds (hgiven : number < next) (habsent : ∀ id ∈ ids, id.2.2 ≠ number)
    (hadds : AddsAtMostOne next next' ids ids') : ∀ id ∈ ids', id.2.2 ≠ number := by
  obtain ⟨added, hadds⟩ := hadds
  intro id hid
  rcases hadds id hid with hold | ⟨rfl, -⟩
  · exact habsent id hold
  · exact hgiven.ne'

lemma Identified.givenAt (h : Identified next ids) {id : Identity} (hid : id ∈ ids) :
    GivenAt id.2.1 id.2.2 next ids := by
  obtain ⟨haddress, hnumber, hunique⟩ := h id hid
  exact ⟨hnumber, fun other hother hsame => (hunique other hother hsame).trans haddress⟩

end Numbers

/-- The records of both stores are identified. -/
structure Numbered (state : SecureState) : Prop where
  sessions : Identified state.nextNumber state.sessionIds
  pendings : Identified state.nextNumber state.pendingIds

/-- The object of a handle is nowhere but at its own address. -/
def SessionGiven (state : SecureState) (session : SecureSession) : Prop :=
  GivenAt session.address session.number state.nextNumber state.sessionIds

def PendingGiven (state : SecureState) (pending : PendingSecureSession) : Prop :=
  GivenAt pending.address pending.number state.nextNumber state.pendingIds

lemma numbered_init (cfg : SecureSettings) : Numbered (.init cfg) where
  sessions := fun _ hid => nomatch hid
  pendings := fun _ hid => nomatch hid

lemma Numbered.evolves (h : Numbered state) (hevolves : Evolves state state') : Numbered state' where
  sessions := h.sessions.adds hevolves.sessions hevolves.nextNumber
  pendings := h.pendings.adds hevolves.pendings hevolves.nextNumber

lemma SessionGiven.applyAll {session : SecureSession} (h : SessionGiven state session)
    (calls : List (ℚ × StateOperation)) : SessionGiven (state.applyAll cfg calls) session := by
  induction calls generalizing state with
  | nil => exact h
  | cons call calls ih =>
    have hstep := evolves_apply cfg state call.1 call.2
    exact ih (GivenAt.adds h hstep.sessions hstep.nextNumber)

lemma PendingGiven.applyAll {pending : PendingSecureSession} (h : PendingGiven state pending)
    (calls : List (ℚ × StateOperation)) : PendingGiven (state.applyAll cfg calls) pending := by
  induction calls generalizing state with
  | nil => exact h
  | cons call calls ih =>
    have hstep := evolves_apply cfg state call.1 call.2
    exact ih (GivenAt.adds h hstep.pendings hstep.nextNumber)

lemma Numbered.session (h : Numbered state) {session : SecureSession}
    (hget : state.sessions.records.get? addr = some session) : SessionGiven state session :=
  h.sessions.givenAt (List.mem_map_of_mem ((Dict.get?_eq_some_iff _ _ _).mp hget))

lemma Numbered.pending (h : Numbered state) {pending : PendingSecureSession}
    (hget : state.pendingSessions.records.get? addr = some pending) : PendingGiven state pending :=
  h.pendings.givenAt (List.mem_map_of_mem ((Dict.get?_eq_some_iff _ _ _).mp hget))

lemma get?_addSession (state : SecureState) (addr : Address) (session : SecureSession) :
    (state.addSession addr session).sessions.records.get? addr = some session := by
  rw [addSession, RecordStore.add, Dict.get?_set, if_pos rfl]

/-- The object that a call returns is in the store after it. -/
lemma returnedSession_given (h : Numbered state) {operation : StateOperation} {session : SecureSession}
    (hreturned : state.returnedSession cfg now operation = some session) :
    SessionGiven (state.apply cfg now operation) session := by
  have hnext := h.evolves (evolves_apply cfg state now operation)
  apply @Numbered.session _ session.address hnext
  cases operation with
  | installSession addr stationId clientToServer serverToClient =>
    obtain rfl := Option.some.inj hreturned
    exact get?_addSession _ addr _
  | getActiveSession addr =>
    have hget : (state.cleanupExpiredSessions cfg now).1.sessions.records.get? addr = some session := hreturned
    have hids := (h.evolves (kept_cleanupSessions cfg state now).evolves).sessions
      (addr, session.address, session.number)
      (List.mem_map_of_mem ((Dict.get?_eq_some_iff _ _ _).mp hget))
    obtain rfl : addr = session.address := hids.1
    exact hget
  | promotePendingSession addr pending =>
    rw [returnedSession, promotePendingSession] at hreturned
    rw [SecureState.apply, promotePendingSession]
    obtain ⟨live, -, hlive | ⟨current, hlive, -⟩⟩ :=
      getLivePendingSessionHandle_cases cfg state addr pending now
    · rw [hlive] at hreturned
      cases hreturned
    · rw [hlive] at hreturned ⊢
      obtain rfl := Option.some.inj hreturned
      exact get?_addSession _ addr _
  | acceptHandshakeReplay | installPendingSession | getPendingSession | touchSession | dataNonceSeen
  | pendingDataNonceSeen | acceptDataNonce | acceptPendingDataNonce | cleanupExpiredSessions
  | cleanupExpiredPendingSessions => cases hreturned

lemma returnedPending_given (h : Numbered state) {operation : StateOperation}
    {pending : PendingSecureSession} (hreturned : state.returnedPending cfg now operation = some pending) :
    PendingGiven (state.apply cfg now operation) pending := by
  have hnext := h.evolves (evolves_apply cfg state now operation)
  apply @Numbered.pending _ pending.address hnext
  cases operation with
  | installPendingSession addr stationId clientToServer serverToClient =>
    obtain rfl := Option.some.inj hreturned
    rw [SecureState.apply, installPendingSession, RecordStore.add, Dict.get?_set, if_pos rfl]
  | getPendingSession addr =>
    have hget : (state.cleanupExpiredPendingSessions cfg now).1.pendingSessions.records.get? addr =
        some pending := hreturned
    have hids := (h.evolves (kept_cleanupPendings cfg state now).evolves).pendings
      (addr, pending.address, pending.number)
      (List.mem_map_of_mem ((Dict.get?_eq_some_iff _ _ _).mp hget))
    obtain rfl : addr = pending.address := hids.1
    exact hget
  | acceptHandshakeReplay | installSession | getActiveSession | touchSession | promotePendingSession
  | dataNonceSeen | pendingDataNonceSeen | acceptDataNonce | acceptPendingDataNonce
  | cleanupExpiredSessions | cleanupExpiredPendingSessions => cases hreturned

lemma sessionHandles_given (h : Numbered state) {calls : List (ℚ × StateOperation)}
    {session : SecureSession} (hsession : session ∈ sessionHandles cfg state calls) :
    SessionGiven (state.applyAll cfg calls) session := by
  induction calls generalizing state with
  | nil => cases hsession
  | cons call calls ih =>
    rcases List.mem_append.mp hsession with hnow | hlater
    · have hgiven := returnedSession_given h (Option.mem_toList.mp hnow)
      exact hgiven.applyAll calls
    · exact ih (h.evolves (evolves_apply cfg state call.1 call.2)) hlater

lemma pendingHandles_given (h : Numbered state) {calls : List (ℚ × StateOperation)}
    {pending : PendingSecureSession} (hpending : pending ∈ pendingHandles cfg state calls) :
    PendingGiven (state.applyAll cfg calls) pending := by
  induction calls generalizing state with
  | nil => cases hpending
  | cons call calls ih =>
    rcases List.mem_append.mp hpending with hnow | hlater
    · have hgiven := returnedPending_given h (Option.mem_toList.mp hnow)
      exact hgiven.applyAll calls
    · exact ih (h.evolves (evolves_apply cfg state call.1 call.2)) hlater

end SecureState

end AisMixer.Udpsec

import AisMixer.Udpsec.Aging

/-!
# The effects of the operations

What each operation does to the stores of a state in which nothing has expired: an admission
of a nonce, the installation of a pending session, a promotion and a touch.
-/

namespace AisMixer.Udpsec

open AisMixer.Library

namespace SecureState

variable {cfg : SecureSettings} {now : ℚ} {state state' : SecureState} {addr : Address} {nonce : Bytes}

/-! ### Lookups of nonces -/

lemma update_fades {ρ ι : Type} {gone : Address × ρ → Prop} {facts : ρ → ι}
    {nonces : ρ → BoundedExpiringSet Bytes} {store : RecordStore Address ρ} {old record : ρ}
    (hget : store.records.get? addr = some old) (hfacts : facts record = facts old)
    (hnonces : AgedSet now (nonces old) (nonces record)) :
    Fades gone (AgedEntry facts nonces now) store.records.entries
      (store.update addr record).records.entries := by
  obtain ⟨before, after, hentries, hset, -⟩ := Dict.exists_split hget
  have hsame : AgedEntry facts nonces now (addr, old) (addr, record) := ⟨rfl, hfacts, hnonces⟩
  rw [RecordStore.update, hset record, hentries]
  exact .replace AgedEntry.refl hsame before after

lemma aged_setSessionNonces {session : SecureSession} (hget : state.sessions.records.get? addr = some session)
    {nonces : BoundedExpiringSet Bytes} (haged : AgedSet now session.seenDataNonces nonces) :
    Aged cfg now state (state.setSessionNonces addr session nonces) where
  sessions := update_fades hget rfl haged
  pendings := .refl AgedEntry.refl _
  nextNumber := rfl
  activity := rfl

lemma aged_setPendingNonces {pending : PendingSecureSession}
    (hget : state.pendingSessions.records.get? addr = some pending) {nonces : BoundedExpiringSet Bytes}
    (haged : AgedSet now pending.seenDataNonces nonces) :
    Aged cfg now state (state.setPendingNonces addr pending nonces) where
  sessions := .refl AgedEntry.refl _
  pendings := update_fades hget rfl haged
  nextNumber := rfl
  activity := rfl

lemma Invariant.sessionNonceSet {past : ℚ} (h : Invariant cfg 0 past state) {session : SecureSession}
    (hget : state.sessions.records.get? addr = some session) : NonceSet cfg session.seenDataNonces :=
  h.sessionNonces (addr, session) ((Dict.get?_eq_some_iff _ _ _).mp hget)

lemma Invariant.pendingNonceSet {past : ℚ} (h : Invariant cfg 0 past state) {pending : PendingSecureSession}
    (hget : state.pendingSessions.records.get? addr = some pending) : NonceSet cfg pending.seenDataNonces :=
  h.pendingNonces (addr, pending) ((Dict.get?_eq_some_iff _ _ _).mp hget)

lemma Live.aged_dataNonceSeen {past : ℚ} (hlive : Live cfg now state) (h : Invariant cfg 0 past state)
    (session : SecureSession) (nonce : Bytes) :
    Aged cfg now state (state.dataNonceSeen cfg session nonce now).1 := by
  rw [SecureState.dataNonceSeen, hlive.sessionHandle_eq]
  cases hcurrent : state.liveSession session.address session with
  | none => exact .refl cfg now state
  | some current =>
    obtain ⟨hget, -⟩ := liveSession_eq_some hcurrent
    have haged : Aged cfg now state (state.setSessionNonces session.address current _) :=
      aged_setSessionNonces hget (agedSet_contains (h.sessionNonceSet hget) nonce)
    dsimp only
    split
    · exact haged.trans (.of_same rfl rfl rfl rfl)
    · exact haged.trans (.of_same rfl rfl rfl rfl)

lemma Live.aged_pendingDataNonceSeen {past : ℚ} (hlive : Live cfg now state) (h : Invariant cfg 0 past state)
    (pending : PendingSecureSession) (nonce : Bytes) :
    Aged cfg now state (state.pendingDataNonceSeen cfg pending nonce now).1 := by
  rw [SecureState.pendingDataNonceSeen, hlive.pendingHandle_eq]
  cases hcurrent : state.livePending pending.address pending with
  | none => exact .refl cfg now state
  | some current =>
    obtain ⟨hget, -⟩ := livePending_eq_some hcurrent
    have haged : Aged cfg now state (state.setPendingNonces pending.address current _) :=
      aged_setPendingNonces hget (agedSet_contains (h.pendingNonceSet hget) nonce)
    exact haged.trans (.of_same rfl rfl rfl rfl)

/-! ### Admissions of nonces -/

/-- The nonce of a session at an address has been admitted. -/
structure AdmitsData (now : ℚ) (nonce : Bytes) (session current : SecureSession)
    (nonces : BoundedExpiringSet Bytes) (state state' : SecureState) : Prop where
  found : state.sessions.records.get? session.address = some current
  number : current.number = session.number
  admitted : Admitted now nonce current.seenDataNonces nonces
  sessions : state'.sessions.records =
    state.sessions.records.set session.address { current with seenDataNonces := nonces }
  pendings : state'.pendingSessions = state.pendingSessions
  nextNumber : state'.nextNumber = state.nextNumber

structure AdmitsPending (now : ℚ) (nonce : Bytes) (pending current : PendingSecureSession)
    (nonces : BoundedExpiringSet Bytes) (state state' : SecureState) : Prop where
  found : state.pendingSessions.records.get? pending.address = some current
  number : current.number = pending.number
  admitted : Admitted now nonce current.seenDataNonces nonces
  pendings : state'.pendingSessions.records =
    state.pendingSessions.records.set pending.address { current with seenDataNonces := nonces }
  sessions : state'.sessions = state.sessions
  nextNumber : state'.nextNumber = state.nextNumber

lemma accountAdmission_frame (state : SecureState) (admission : ExpiringSetAdmission) :
    (state.accountAdmission admission).1.sessions = state.sessions ∧
      (state.accountAdmission admission).1.pendingSessions = state.pendingSessions ∧
      (state.accountAdmission admission).1.nextNumber = state.nextNumber ∧
      (state.accountAdmission admission).2 = admission.accepted := by
  unfold accountAdmission
  cases admission.accepted with
  | false => exact ⟨rfl, rfl, rfl, rfl⟩
  | true => exact ⟨rfl, rfl, rfl, rfl⟩

lemma accountAdmission_refused {admission : ExpiringSetAdmission} (haccepted : admission.accepted = false)
    (hevicted : admission.capacityEvicted = 0) (state : SecureState) :
    (state.accountAdmission admission).1.activity = state.activity := by
  unfold accountAdmission
  rw [haccepted, hevicted]
  rfl

/-- An admission to a session either leaves the state as it is or admits the nonce. -/
lemma Live.acceptDataNonce_cases {past : ℚ} (hlive : Live cfg now state) (h : Invariant cfg 0 past state)
    (session : SecureSession) (nonce : Bytes) :
    (∃ result, state.acceptDataNonce cfg session nonce now = (result, .ok false) ∧ Aged cfg now state result) ∨
      ∃ result current nonces, state.acceptDataNonce cfg session nonce now = (result, .ok true) ∧
        AdmitsData now nonce session current nonces state result := by
  rw [SecureState.acceptDataNonce, hlive.sessionHandle_eq]
  cases hcurrent : state.liveSession session.address session with
  | none => exact .inl ⟨state, rfl, .refl cfg now state⟩
  | some current =>
    obtain ⟨hget, hnumber⟩ := liveSession_eq_some hcurrent
    obtain ⟨admission, hadmission, hcase⟩ := @accept_cases _ now _ _ (h.sessionNonceSet hget)
      cfg.limits.2.2.1 nonce
    obtain ⟨nonces, result, haccept⟩ : ∃ nonces result, current.seenDataNonces.accept nonce now =
        (nonces, result) := ⟨_, _, rfl⟩
    rw [haccept] at hadmission hcase
    dsimp only at hadmission hcase
    dsimp only
    rw [haccept, hadmission]
    dsimp only
    obtain ⟨hsessions, hpendings, hnext, hresult⟩ :=
      accountAdmission_frame (state.setSessionNonces session.address current nonces) admission
    rcases hcase with ⟨haccepted, hevicted, haged⟩ | ⟨haccepted, hadmitted⟩
    · refine .inl ⟨_, by rw [hresult, haccepted], (aged_setSessionNonces hget haged).trans ?_⟩
      exact .of_same hsessions hpendings hnext (accountAdmission_refused haccepted hevicted _)
    · refine .inr ⟨_, current, nonces, by rw [hresult, haccepted], hget, hnumber, hadmitted, ?_, ?_, ?_⟩
      · rw [hsessions]
        rfl
      · exact hpendings
      · exact hnext

lemma Live.acceptPendingDataNonce_cases {past : ℚ} (hlive : Live cfg now state)
    (h : Invariant cfg 0 past state) (pending : PendingSecureSession) (nonce : Bytes) :
    (∃ result, state.acceptPendingDataNonce cfg pending nonce now = (result, .ok false) ∧
        Aged cfg now state result) ∨
      ∃ result current nonces, state.acceptPendingDataNonce cfg pending nonce now = (result, .ok true) ∧
        AdmitsPending now nonce pending current nonces state result := by
  rw [SecureState.acceptPendingDataNonce, hlive.pendingHandle_eq]
  cases hcurrent : state.livePending pending.address pending with
  | none => exact .inl ⟨state, rfl, .refl cfg now state⟩
  | some current =>
    obtain ⟨hget, hnumber⟩ := livePending_eq_some hcurrent
    obtain ⟨admission, hadmission, hcase⟩ := @accept_cases _ now _ _ (h.pendingNonceSet hget)
      cfg.limits.2.2.1 nonce
    obtain ⟨nonces, result, haccept⟩ : ∃ nonces result, current.seenDataNonces.accept nonce now =
        (nonces, result) := ⟨_, _, rfl⟩
    rw [haccept] at hadmission hcase
    dsimp only at hadmission hcase
    dsimp only
    rw [haccept, hadmission]
    dsimp only
    obtain ⟨hsessions, hpendings, hnext, hresult⟩ :=
      accountAdmission_frame (state.setPendingNonces pending.address current nonces) admission
    rcases hcase with ⟨haccepted, hevicted, haged⟩ | ⟨haccepted, hadmitted⟩
    · refine .inl ⟨_, by rw [hresult, haccepted], (aged_setPendingNonces hget haged).trans ?_⟩
      exact .of_same hsessions hpendings hnext (accountAdmission_refused haccepted hevicted _)
    · refine .inr ⟨_, current, nonces, by rw [hresult, haccepted], hget, hnumber, hadmitted, ?_, ?_, ?_⟩
      · rw [hpendings]
        rfl
      · exact hsessions
      · exact hnext

/-! ### Installation, promotion and touch -/

/-- All entries of a store but at most one. -/
def AllButOne {ρ : Type} (entries kept : List (Address × ρ)) : Prop :=
  kept.Sublist entries ∧ entries.length ≤ kept.length + 1

lemma allButOne_erase {ρ : Type} {d : Dict Address ρ} {record : ρ} (hget : d.get? addr = some record) :
    AllButOne d.entries (d.erase addr).entries := by
  have hsize := d.size_erase_of_mem ((Dict.mem_keys_iff _ _).mpr ⟨record, hget⟩)
  refine ⟨List.filter_sublist, ?_⟩
  simp only [Dict.size] at hsize
  omega

lemma allButOne_self {ρ : Type} (entries : List (Address × ρ)) : AllButOne entries entries :=
  ⟨.refl _, Nat.le_succ _⟩

lemma makeSessionRoom_frame (state : SecureState) (addr : Address) :
    AllButOne state.sessions.records.entries (state.makeSessionRoom cfg addr).sessions.records.entries ∧
      (state.makeSessionRoom cfg addr).nextNumber = state.nextNumber := by
  have hremove : ∀ (key : Address) (reason : Fate), AllButOne state.sessions.records.entries
      (state.removeSession key reason).sessions.records.entries ∧
        (state.removeSession key reason).nextNumber = state.nextNumber := by
    intro key reason
    cases hget : state.sessions.records.get? key with
    | none =>
      simp only [removeSession, hget, and_true]
      exact allButOne_self _
    | some session =>
      rw [removeSession_eq hget, RecordStore.remove_records]
      exact ⟨allButOne_erase hget, rfl⟩
  unfold makeSessionRoom
  split
  · exact hremove addr .replaced
  · split
    · split
      · exact ⟨allButOne_self _, rfl⟩
      · exact hremove _ .capacity
    · exact ⟨allButOne_self _, rfl⟩

lemma makePendingRoom_frame (state : SecureState) (addr : Address) :
    AllButOne state.pendingSessions.records.entries
        (state.makePendingRoom cfg addr).pendingSessions.records.entries ∧
      (state.makePendingRoom cfg addr).nextNumber = state.nextNumber := by
  have hremove : ∀ (key : Address) (reason : Fate), AllButOne state.pendingSessions.records.entries
      (state.removePendingSession key reason).pendingSessions.records.entries ∧
        (state.removePendingSession key reason).nextNumber = state.nextNumber := by
    intro key reason
    cases hget : state.pendingSessions.records.get? key with
    | none =>
      simp only [removePendingSession, hget, and_true]
      exact allButOne_self _
    | some pending =>
      rw [removePendingSession_eq hget, RecordStore.remove_records]
      exact ⟨allButOne_erase hget, rfl⟩
  unfold makePendingRoom
  split
  · exact hremove addr .replaced
  · split
    · split
      · exact ⟨allButOne_self _, rfl⟩
      · exact hremove _ .capacity
    · exact ⟨allButOne_self _, rfl⟩

/-- A pending session has been installed at an address; at most one other has made room. -/
structure Installs (addr : Address) (pending : PendingSecureSession) (state state' : SecureState) : Prop where
  sessions : state'.sessions = state.sessions
  pendings : ∃ kept, AllButOne state.pendingSessions.records.entries kept ∧
    state'.pendingSessions.records.entries = kept ++ [(addr, pending)]
  address : pending.address = addr
  number : pending.number = state.nextNumber
  nonces : pending.seenDataNonces.expiryOrder = []
  nextNumber : state'.nextNumber = state.nextNumber + 1

lemma Live.installs {past : ℚ} (hlive : Live cfg now state) (h : Invariant cfg 0 past state)
    (addr : Address) (stationId : PyStr) (clientToServer serverToClient : Bytes) :
    Installs addr (state.installPendingSession cfg addr stationId clientToServer serverToClient now).2 state
      (state.installPendingSession cfg addr stationId clientToServer serverToClient now).1 := by
  obtain ⟨-, hfree, -, hsessions⟩ := h.makePendingRoom addr
  obtain ⟨hkept, hnumber⟩ := @makePendingRoom_frame cfg state addr
  have hkey := (Dict.get?_eq_none_iff _ _).mp hfree
  unfold SecureState.installPendingSession
  rw [hlive.cleanupPendings_eq]
  exact {
    sessions := hsessions
    pendings := ⟨_, hkept, Dict.entries_set_of_not_mem _ _ hkey⟩
    address := rfl
    number := hnumber
    nonces := rfl
    nextNumber := congrArg (· + 1) hnumber }

/-- A pending session has become the active one at its address. -/
structure Promotes (now : ℚ) (addr : Address) (pending : PendingSecureSession) (session : SecureSession)
    (state state' : SecureState) : Prop where
  found : state.pendingSessions.records.get? addr = some pending
  promoted : session = {
    number := state.nextNumber
    address := addr
    stationId := pending.stationId
    clientToServerAesgcm := pending.clientToServerAesgcm
    serverToClientAesgcm := pending.serverToClientAesgcm
    createdAt := now
    lastSeen := now
    seenDataNonces := pending.seenDataNonces }
  pendings : state'.pendingSessions.records = state.pendingSessions.records.erase addr
  sessions : ∃ kept, AllButOne state.sessions.records.entries kept ∧ addr ∉ kept.map Prod.fst ∧
    state'.sessions.records.entries = kept ++ [(addr, session)]
  nextNumber : state'.nextNumber = state.nextNumber + 1

lemma Live.promotes {past : ℚ} (hlive : Live cfg now state) (h : Invariant cfg 0 past state)
    {pending current : PendingSecureSession} (hget : state.pendingSessions.records.get? addr = some current)
    (hnumber : current.number = pending.number) :
    ∃ result session, state.promotePendingSession cfg addr pending now = (result, some session) ∧
      Promotes now addr current session state result := by
  have hcurrent : state.livePending addr pending = some current := by
    rw [livePending, hget, Option.filter_some, beq_iff_eq.mpr hnumber, if_pos rfl]
  obtain ⟨-, hfree, -, hpendings⟩ := (h.takePending hget).makeSessionRoom addr
  obtain ⟨hkept, hnext⟩ := @makeSessionRoom_frame cfg
    { state with pendingSessions := state.pendingSessions.remove addr .promoted } addr
  have hkey := (Dict.get?_eq_none_iff _ _).mp hfree
  rw [SecureState.promotePendingSession, hlive.pendingHandle_eq, hcurrent]
  dsimp only
  rw [hlive.cleanupSessions_eq]
  refine ⟨_, _, rfl, hget, ?_, ?_, ⟨_, hkept, hkey, Dict.entries_set_of_not_mem _ _ hkey⟩,
    congrArg (· + 1) hnext⟩
  · rw [hnext]
  · rw [SecureState.addSession, hpendings, RecordStore.remove_records]

/-- A session has been touched. -/
structure Touches (now : ℚ) (addr : Address) (current : SecureSession) (state state' : SecureState) : Prop where
  sessions : ∃ before after, state.sessions.records.entries = before ++ (addr, current) :: after ∧
    state'.sessions.records.entries = before ++ after ++ [(addr, { current with lastSeen := now })]
  pendings : state'.pendingSessions = state.pendingSessions
  nextNumber : state'.nextNumber = state.nextNumber

lemma Live.touches (hlive : Live cfg now state) {session current : SecureSession}
    (hget : state.sessions.records.get? addr = some current) (hnumber : current.number = session.number) :
    ∃ result, state.touchSession cfg addr session now = (result, true) ∧
      Touches now addr current state result := by
  have hcurrent : state.liveSession addr session = some current := by
    rw [liveSession, hget, Option.filter_some, beq_iff_eq.mpr hnumber, if_pos rfl]
  have hmoved := RecordStore.moveToEnd_entries ({ current with lastSeen := now } : SecureSession) hget
  rw [SecureState.touchSession, hlive.sessionHandle_eq, hcurrent]
  exact ⟨_, rfl, hmoved, rfl, rfl⟩

end SecureState

end AisMixer.Udpsec

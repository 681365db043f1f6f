import AisMixer.Udpsec.Aging
import AisMixer.Udpsec.ObjectNumbers

/-!
# Handles of objects that have left

An object that is no longer the one at its address never comes back to it: numbers are given once, and
no operation puts an old object into a store. An operation with the handle of such an object refuses
before it cleans anything up, so that it leaves the whole state as it was. The handle of an object that
is kept but has expired is refused as well, after the cleanup that removes it.
-/

namespace AisMixer.Udpsec

open AisMixer.Library

namespace SecureState

variable {cfg : SecureSettings} {state state' : SecureState} {addr : Address} {now : ℚ}

/-! ### Refusal -/

/-- The operations with a session handle refuse, and leave the state as it is. -/
structure SessionInert (cfg : SecureSettings) (state : SecureState) (session : SecureSession) : Prop where
  touch : ∀ addr now, state.touchSession cfg addr session now = (state, false)
  seen : ∀ nonce now, state.dataNonceSeen cfg session nonce now = (state, false)
  accept : ∀ nonce now, state.acceptDataNonce cfg session nonce now = (state, .ok false)

structure PendingInert (cfg : SecureSettings) (state : SecureState) (pending : PendingSecureSession) :
    Prop where
  promote : ∀ addr now, state.promotePendingSession cfg addr pending now = (state, none)
  seen : ∀ nonce now, state.pendingDataNonceSeen cfg pending nonce now = (state, false)
  accept : ∀ nonce now, state.acceptPendingDataNonce cfg pending nonce now = (state, .ok false)

/-- The operations with a session handle refuse at a time. -/
structure SessionRefused (cfg : SecureSettings) (state : SecureState) (session : SecureSession) (now : ℚ) :
    Prop where
  touch : ∀ addr, (state.touchSession cfg addr session now).2 = false
  seen : ∀ nonce, (state.dataNonceSeen cfg session nonce now).2 = false
  accept : ∀ nonce, (state.acceptDataNonce cfg session nonce now).2 = .ok false

structure PendingRefused (cfg : SecureSettings) (state : SecureState) (pending : PendingSecureSession)
    (now : ℚ) : Prop where
  promote : ∀ addr, (state.promotePendingSession cfg addr pending now).2 = none
  seen : ∀ nonce, (state.pendingDataNonceSeen cfg pending nonce now).2 = false
  accept : ∀ nonce, (state.acceptPendingDataNonce cfg pending nonce now).2 = .ok false

section Refusal

variable {session : SecureSession} {pending : PendingSecureSession}

lemma touchSession_of_refused
    (h : state.getLiveSessionHandle cfg addr session now = (state', none)) :
    state.touchSession cfg addr session now = (state', false) := by
  rw [touchSession, h]

lemma dataNonceSeen_of_refused (nonce : Bytes)
    (h : state.getLiveSessionHandle cfg session.address session now = (state', none)) :
    state.dataNonceSeen cfg session nonce now = (state', false) := by
  rw [dataNonceSeen, h]

lemma acceptDataNonce_of_refused (nonce : Bytes)
    (h : state.getLiveSessionHandle cfg session.address session now = (state', none)) :
    state.acceptDataNonce cfg session nonce now = (state', .ok false) := by
  rw [acceptDataNonce, h]

lemma promotePendingSession_of_refused
    (h : state.getLivePendingSessionHandle cfg addr pending now = (state', none)) :
    state.promotePendingSession cfg addr pending now = (state', none) := by
  rw [promotePendingSession, h]

lemma pendingDataNonceSeen_of_refused (nonce : Bytes)
    (h : state.getLivePendingSessionHandle cfg pending.address pending now = (state', none)) :
    state.pendingDataNonceSeen cfg pending nonce now = (state', false) := by
  rw [pendingDataNonceSeen, h]

lemma acceptPendingDataNonce_of_refused (nonce : Bytes)
    (h : state.getLivePendingSessionHandle cfg pending.address pending now = (state', none)) :
    state.acceptPendingDataNonce cfg pending nonce now = (state', .ok false) := by
  rw [acceptPendingDataNonce, h]

/-! ### Objects that have left -/

/-- An object that is not at its own address is nowhere. -/
lemma SessionGiven.absent (h : SessionGiven state session)
    (hstale : state.liveSession session.address session = none) :
    ∀ id ∈ state.sessionIds, id.2.2 ≠ session.number := by
  intro id hid hnumber
  have haddress := h.2 id hid hnumber
  obtain ⟨e, he, rfl⟩ := List.mem_map.mp hid
  have hget : state.sessions.records.get? session.address = some e.2 := by
    rw [← show e.1 = session.address from haddress]
    exact (Dict.get?_eq_some_iff _ _ _).mpr he
  have hsame : (e.2.number == session.number) = true := beq_iff_eq.mpr hnumber
  rw [liveSession, hget, Option.filter_some, if_pos hsame] at hstale
  cases hstale

lemma PendingGiven.absent (h : PendingGiven state pending)
    (hstale : state.livePending pending.address pending = none) :
    ∀ id ∈ state.pendingIds, id.2.2 ≠ pending.number := by
  intro id hid hnumber
  have haddress := h.2 id hid hnumber
  obtain ⟨e, he, rfl⟩ := List.mem_map.mp hid
  have hget : state.pendingSessions.records.get? pending.address = some e.2 := by
    rw [← show e.1 = pending.address from haddress]
    exact (Dict.get?_eq_some_iff _ _ _).mpr he
  have hsame : (e.2.number == pending.number) = true := beq_iff_eq.mpr hnumber
  rw [livePending, hget, Option.filter_some, if_pos hsame] at hstale
  cases hstale

/-- It does not come back. -/
lemma absent_session_applyAll {number : Nat} (hgiven : number < state.nextNumber)
    (habsent : ∀ id ∈ state.sessionIds, id.2.2 ≠ number) (calls : List (ℚ × StateOperation)) :
    ∀ id ∈ (state.applyAll cfg calls).sessionIds, id.2.2 ≠ number := by
  induction calls generalizing state with
  | nil => exact habsent
  | cons call calls ih =>
    have hstep := evolves_apply cfg state call.1 call.2
    exact ih (hgiven.trans_le hstep.nextNumber) (absent_adds hgiven habsent hstep.sessions)

lemma absent_pending_applyAll {number : Nat} (hgiven : number < state.nextNumber)
    (habsent : ∀ id ∈ state.pendingIds, id.2.2 ≠ number) (calls : List (ℚ × StateOperation)) :
    ∀ id ∈ (state.applyAll cfg calls).pendingIds, id.2.2 ≠ number := by
  induction calls generalizing state with
  | nil => exact habsent
  | cons call calls ih =>
    have hstep := evolves_apply cfg state call.1 call.2
    exact ih (hgiven.trans_le hstep.nextNumber) (absent_adds hgiven habsent hstep.pendings)

lemma liveSession_none (h : ∀ id ∈ state.sessionIds, id.2.2 ≠ session.number) (addr : Address) :
    state.liveSession addr session = none := by
  cases hcurrent : state.liveSession addr session with
  | none => rfl
  | some current =>
    obtain ⟨hget, hnumber⟩ := liveSession_eq_some hcurrent
    exact (h _ (List.mem_map_of_mem ((Dict.get?_eq_some_iff _ _ _).mp hget)) hnumber).elim

lemma livePending_none (h : ∀ id ∈ state.pendingIds, id.2.2 ≠ pending.number) (addr : Address) :
    state.livePending addr pending = none := by
  cases hcurrent : state.livePending addr pending with
  | none => rfl
  | some current =>
    obtain ⟨hget, hnumber⟩ := livePending_eq_some hcurrent
    exact (h _ (List.mem_map_of_mem ((Dict.get?_eq_some_iff _ _ _).mp hget)) hnumber).elim

/-- The first look at the address refuses, before any cleanup. -/
lemma getLiveSessionHandle_of_none (h : state.liveSession addr session = none) :
    state.getLiveSessionHandle cfg addr session now = (state, none) := by
  rw [getLiveSessionHandle, h]
  rfl

lemma getLivePendingSessionHandle_of_none (h : state.livePending addr pending = none) :
    state.getLivePendingSessionHandle cfg addr pending now = (state, none) := by
  rw [getLivePendingSessionHandle, h]
  rfl

lemma sessionInert_of_absent (h : ∀ id ∈ state.sessionIds, id.2.2 ≠ session.number) :
    SessionInert cfg state session where
  touch := fun addr _ => touchSession_of_refused (getLiveSessionHandle_of_none (liveSession_none h addr))
  seen := fun nonce _ =>
    dataNonceSeen_of_refused nonce (getLiveSessionHandle_of_none (liveSession_none h _))
  accept := fun nonce _ =>
    acceptDataNonce_of_refused nonce (getLiveSessionHandle_of_none (liveSession_none h _))

lemma pendingInert_of_absent (h : ∀ id ∈ state.pendingIds, id.2.2 ≠ pending.number) :
    PendingInert cfg state pending where
  promote := fun addr _ =>
    promotePendingSession_of_refused (getLivePendingSessionHandle_of_none (livePending_none h addr))
  seen := fun nonce _ =>
    pendingDataNonceSeen_of_refused nonce (getLivePendingSessionHandle_of_none (livePending_none h _))
  accept := fun nonce _ =>
    acceptPendingDataNonce_of_refused nonce (getLivePendingSessionHandle_of_none (livePending_none h _))

/-! ### Objects that have expired -/

/-- The cleanup of a sorted store leaves live sessions only, all of which were there. -/
lemma Invariant.cleanupSessions_get? {past : ℚ} (h : Invariant cfg 0 past state) {current : SecureSession}
    (hget : (state.cleanupExpiredSessions cfg now).1.sessions.records.get? addr = some current) :
    state.sessions.records.get? addr = some current ∧ LiveSession cfg now current := by
  have hmem := (Dict.get?_eq_some_iff _ _ _).mp hget
  rw [(h.cleanedSessions now).sessions] at hmem
  refine ⟨(Dict.get?_eq_some_iff _ _ _).mpr ((List.dropWhile_suffix _).mem hmem), ?_⟩
  have hmono : ∀ a b : Address × SecureSession, a.2.lastSeen ≤ b.2.lastSeen →
      decide (now - a.2.lastSeen < cfg.sessionTtl) = true →
      decide (now - b.2.lastSeen < cfg.sessionTtl) = true := by
    intro a b hab ha
    rw [decide_eq_true_eq] at ha ⊢
    linarith
  have hlive := forall_mem_dropWhile_of_sorted hmono h.sessions.sorted _ hmem
  rw [decide_eq_true_eq] at hlive
  exact hlive

lemma Invariant.cleanupPendings_get? {past : ℚ} (h : Invariant cfg 0 past state)
    {current : PendingSecureSession}
    (hget : (state.cleanupExpiredPendingSessions cfg now).1.pendingSessions.records.get? addr =
      some current) :
    state.pendingSessions.records.get? addr = some current ∧ LivePending cfg now current := by
  have hmem := (Dict.get?_eq_some_iff _ _ _).mp hget
  rw [(h.cleanedPendings now).pendings] at hmem
  refine ⟨(Dict.get?_eq_some_iff _ _ _).mpr ((List.dropWhile_suffix _).mem hmem), ?_⟩
  have hmono : ∀ a b : Address × PendingSecureSession, a.2.createdAt ≤ b.2.createdAt →
      decide (now < a.2.createdAt + cfg.pendingSessionTtl) = true →
      decide (now < b.2.createdAt + cfg.pendingSessionTtl) = true := by
    intro a b hab ha
    rw [decide_eq_true_eq] at ha ⊢
    linarith
  have hlive := forall_mem_dropWhile_of_sorted hmono h.pendings.sorted _ hmem
  rw [decide_eq_true_eq] at hlive
  exact hlive

/-- An expired object is refused at every address. -/
lemma Invariant.sessionHandle_expired {past : ℚ} (h : Invariant cfg 0 past state)
    (hexpired : ∀ addr current, state.liveSession addr session = some current →
      ¬LiveSession cfg now current) (addr : Address) :
    ∃ live, state.getLiveSessionHandle cfg addr session now = (live, none) := by
  rw [getLiveSessionHandle]
  split
  · exact ⟨state, rfl⟩
  · refine ⟨_, Prod.ext rfl ?_⟩
    dsimp only
    cases hcurrent : (state.cleanupExpiredSessions cfg now).1.liveSession addr session with
    | none => rfl
    | some current =>
      obtain ⟨hget, hnumber⟩ := liveSession_eq_some hcurrent
      obtain ⟨hbefore, hlive⟩ := h.cleanupSessions_get? hget
      have hsame : state.liveSession addr session = some current := by
        rw [liveSession, hbefore, Option.filter_some, if_pos (beq_iff_eq.mpr hnumber)]
      exact (hexpired addr current hsame hlive).elim

lemma Invariant.pendingHandle_expired {past : ℚ} (h : Invariant cfg 0 past state)
    (hexpired : ∀ addr current, state.livePending addr pending = some current →
      ¬LivePending cfg now current) (addr : Address) :
    ∃ live, state.getLivePendingSessionHandle cfg addr pending now = (live, none) := by
  rw [getLivePendingSessionHandle]
  split
  · exact ⟨state, rfl⟩
  · refine ⟨_, Prod.ext rfl ?_⟩
    dsimp only
    cases hcurrent : (state.cleanupExpiredPendingSessions cfg now).1.livePending addr pending with
    | none => rfl
    | some current =>
      obtain ⟨hget, hnumber⟩ := livePending_eq_some hcurrent
      obtain ⟨hbefore, hlive⟩ := h.cleanupPendings_get? hget
      have hsame : state.livePending addr pending = some current := by
        rw [livePending, hbefore, Option.filter_some, if_pos (beq_iff_eq.mpr hnumber)]
      exact (hexpired addr current hsame hlive).elim

lemma Invariant.sessionRefused {past : ℚ} (h : Invariant cfg 0 past state)
    (hexpired : ∀ addr current, state.liveSession addr session = some current →
      ¬LiveSession cfg now current) : SessionRefused cfg state session now where
  touch := by
    intro addr
    obtain ⟨live, hlive⟩ := h.sessionHandle_expired hexpired addr
    rw [touchSession_of_refused hlive]
  seen := by
    intro nonce
    obtain ⟨live, hlive⟩ := h.sessionHandle_expired hexpired session.address
    rw [dataNonceSeen_of_refused nonce hlive]
  accept := by
    intro nonce
    obtain ⟨live, hlive⟩ := h.sessionHandle_expired hexpired session.address
    rw [acceptDataNonce_of_refused nonce hlive]

lemma Invariant.pendingRefused {past : ℚ} (h : Invariant cfg 0 past state)
    (hexpired : ∀ addr current, state.livePending addr pending = some current →
      ¬LivePending cfg now current) : PendingRefused cfg state pending now where
  promote := by
    intro addr
    obtain ⟨live, hlive⟩ := h.pendingHandle_expired hexpired addr
    rw [promotePendingSession_of_refused hlive]
  seen := by
    intro nonce
    obtain ⟨live, hlive⟩ := h.pendingHandle_expired hexpired pending.address
    rw [pendingDataNonceSeen_of_refused nonce hlive]
  accept := by
    intro nonce
    obtain ⟨live, hlive⟩ := h.pendingHandle_expired hexpired pending.address
    rw [acceptPendingDataNonce_of_refused nonce hlive]

end Refusal

lemma applyAll_append (state : SecureState) (calls later : List (ℚ × StateOperation)) :
    (state.applyAll cfg calls).applyAll cfg later = state.applyAll cfg (calls ++ later) :=
  List.foldl_append.symm

/-- The state that a run with sorted times reaches keeps the invariant. -/
lemma exists_invariant_applyAll {calls : List (ℚ × StateOperation)}
    (htimes : (calls.map Prod.fst).Pairwise (· ≤ ·)) :
    ∃ past, Invariant cfg 0 past ((init cfg).applyAll cfg calls) := by
  cases calls with
  | nil => exact ⟨0, invariant_init cfg 0⟩
  | cons first rest =>
    apply (invariant_init cfg first.1).applyAll _ htimes
    rw [List.map_cons, List.pairwise_cons] at htimes
    intro call hcall
    rcases List.mem_cons.mp hcall with rfl | hlater
    · exact le_refl _
    · exact htimes.1 call.1 (List.mem_map_of_mem hlater)

end SecureState

open SecureState

/-- A handle that a run has returned and that is not of the object at its address is inert from then on:
whatever is called later, every operation with it refuses at any time and changes nothing. A handle
whose object has expired is refused. -/
theorem stale_handles_inert (cfg : SecureSettings) (calls later : List (ℚ × StateOperation))
    (htimes : ((calls ++ later).map Prod.fst).Pairwise (· ≤ ·)) :
    let state := (SecureState.init cfg).applyAll cfg calls
    let state' := state.applyAll cfg later
    (∀ session ∈ sessionHandles cfg (.init cfg) calls,
      (state.liveSession session.address session = none → SessionInert cfg state' session) ∧
        ∀ now, (∀ current, state'.liveSession session.address session = some current →
          cfg.sessionTtl ≤ now - current.lastSeen) → SessionRefused cfg state' session now) ∧
    ∀ pending ∈ pendingHandles cfg (.init cfg) calls,
      (state.livePending pending.address pending = none → PendingInert cfg state' pending) ∧
        ∀ now, (∀ current, state'.livePending pending.address pending = some current →
          current.createdAt + cfg.pendingSessionTtl ≤ now) → PendingRefused cfg state' pending now := by
  intro state state'
  obtain ⟨past, hinvariant⟩ := @exists_invariant_applyAll cfg _ htimes
  rw [← applyAll_append] at hinvariant
  constructor
  · intro session hsession
    have hgiven : SessionGiven state session := sessionHandles_given (numbered_init cfg) hsession
    have hgiven' : SessionGiven state' session := hgiven.applyAll later
    constructor
    · intro hstale
      exact sessionInert_of_absent (absent_session_applyAll hgiven.1 (hgiven.absent hstale) later)
    · intro now hexpired
      apply hinvariant.sessionRefused
      intro addr current hcurrent hlive
      obtain ⟨hget, hnumber⟩ := liveSession_eq_some hcurrent
      have haddress : addr = session.address :=
        hgiven'.2 _ (List.mem_map_of_mem ((Dict.get?_eq_some_iff _ _ _).mp hget)) hnumber
      rw [haddress] at hcurrent
      exact absurd hlive (not_lt.mpr (hexpired current hcurrent))
  · intro pending hpending
    have hgiven : PendingGiven state pending := pendingHandles_given (numbered_init cfg) hpending
    have hgiven' : PendingGiven state' pending := hgiven.applyAll later
    constructor
    · intro hstale
      exact pendingInert_of_absent (absent_pending_applyAll hgiven.1 (hgiven.absent hstale) later)
    · intro now hexpired
      apply hinvariant.pendingRefused
      intro addr current hcurrent hlive
      obtain ⟨hget, hnumber⟩ := livePending_eq_some hcurrent
      have haddress : addr = pending.address :=
        hgiven'.2 _ (List.mem_map_of_mem ((Dict.get?_eq_some_iff _ _ _).mp hget)) hnumber
      rw [haddress] at hcurrent
      exact absurd hlive (not_lt.mpr (hexpired current hcurrent))

/-- A pending session is promoted and its session replaced; both handles are stale then. -/
def harbourCalls : List (ℚ × StateOperation) :=
  [(0, .installPendingSession harbourAddress (str "boat1") [1] [2]),
    (1, .promotePendingSession harbourAddress (harbourPending defaultSettings)),
    (2, .installSession harbourAddress (str "boat1") [3] [4])]

theorem stale_handles_inert_harbour :
    PendingInert defaultSettings
      (((SecureState.init defaultSettings).applyAll defaultSettings harbourCalls).applyAll defaultSettings
      [(5, .cleanupExpiredSessions)]) (harbourPending defaultSettings) := by
  have htimes :
      ((harbourCalls ++ [(5, StateOperation.cleanupExpiredSessions)]).map Prod.fst).Pairwise (· ≤ ·) := by
    simp only [harbourCalls, List.cons_append, List.nil_append, List.map_cons, List.map_nil,
      List.pairwise_cons]
    norm_num
  have hreturned : harbourPending defaultSettings ∈
      pendingHandles defaultSettings (.init defaultSettings) harbourCalls := List.mem_cons_self ..
  have hstale : ((SecureState.init defaultSettings).applyAll defaultSettings harbourCalls).livePending
      harbourAddress (harbourPending defaultSettings) = none := by
    rw [← Option.isNone_iff_eq_none]
    decide +kernel
  exact ((stale_handles_inert defaultSettings harbourCalls _ htimes).2 _ hreturned).1 hstale

end AisMixer.Udpsec

import AisMixer.Library.Fading
import AisMixer.Udpsec.StateInvariant

/-!
# What time takes from the local state

`Aged` relates two states that differ by the removal of expired records only. In a state that
has been cleaned at a time, the cleanups of the operations at that time do nothing, so that
each operation has the effect on the stores that its name promises.
-/

namespace AisMixer.Udpsec

open AisMixer.Library

/-! ### Nonce sets -/

/-- A set that some expired records have left. -/
structure AgedSet (now : ℚ) (set set' : BoundedExpiringSet Bytes) : Prop where
  ttl_eq : set'.ttl = set.ttl
  bound_eq : set'.maxEntries = set.maxEntries
  records : Fades (fun r : ExpiringRecord Bytes => r.expiresAt ≤ now) Eq set.expiryOrder set'.expiryOrder

/-- A set that a key has entered at the end, for which the oldest record may have made room. -/
structure Admitted (now : ℚ) (key : Bytes) (set set' : BoundedExpiringSet Bytes) : Prop where
  ttl_eq : set'.ttl = set.ttl
  bound_eq : set'.maxEntries = set.maxEntries
  unseen : ∀ r ∈ set.expiryOrder, now < r.expiresAt → r.key ≠ key
  records : ∃ live number dropped,
    Fades (fun r : ExpiringRecord Bytes => r.expiresAt ≤ now) Eq set.expiryOrder live ∧
      set'.expiryOrder = live.drop dropped ++ [⟨number, key, now + set.ttl⟩] ∧
      (dropped = 0 ∨ dropped = 1 ∧ set.maxEntries ≤ live.length)

lemma AgedSet.refl (now : ℚ) (set : BoundedExpiringSet Bytes) : AgedSet now set set :=
  ⟨rfl, rfl, .refl (fun _ => rfl) _⟩

lemma AgedSet.trans {now : ℚ} {a b c : BoundedExpiringSet Bytes} (h : AgedSet now a b) (h' : AgedSet now b c) :
    AgedSet now a c where
  ttl_eq := h'.ttl_eq.trans h.ttl_eq
  bound_eq := h'.bound_eq.trans h.bound_eq
  records := h.records.trans (fun _ _ heq hgone => heq ▸ hgone) (fun _ _ _ => Eq.trans) h'.records

lemma fades_liveAt (now : ℚ) (order : List (ExpiringRecord Bytes)) :
    Fades (fun r => r.expiresAt ≤ now) Eq order (BoundedExpiringSet.liveAt now order) :=
  .dropWhile (fun _ => rfl) (fun _ h => of_decide_eq_true h) order

lemma agedSet_contains {ttl now : ℚ} {bound : Nat} {set : BoundedExpiringSet Bytes}
    (h : BoundedSet ttl bound set) (key : Bytes) : AgedSet now set (set.contains key now).1 := by
  obtain ⟨-, horder, httl, hbound, -⟩ := BoundedExpiringSet.contains_spec h.consistent key now
  refine ⟨httl, hbound, ?_⟩
  rw [horder]
  exact fades_liveAt now _

/-- An admission either refuses a live key or admits one that was not. -/
lemma accept_cases {ttl now : ℚ} {bound : Nat} {set : BoundedExpiringSet Bytes}
    (h : BoundedSet ttl bound set) (hbound : 1 ≤ bound) (key : Bytes) :
    ∃ admission, (set.accept key now).2 = .ok admission ∧
      (admission.accepted = false ∧ admission.capacityEvicted = 0 ∧ AgedSet now set (set.accept key now).1 ∨
        admission.accepted = true ∧ Admitted now key set (set.accept key now).1) := by
  have hmax : 0 < set.maxEntries := by
    rw [h.bound_eq]
    omega
  obtain ⟨-, httl, hmaxEq, admission, hadmission, -, hcase⟩ :=
    BoundedExpiringSet.accept_spec h.consistent hmax key now
  refine ⟨admission, hadmission, ?_⟩
  rcases hcase with ⟨haccepted, hevicted, -, horder⟩ | ⟨haccepted, hunseen, number, dropped, -, horder, hroom⟩
  · refine .inl ⟨haccepted, hevicted, httl, hmaxEq, ?_⟩
    rw [horder]
    exact fades_liveAt now _
  · refine .inr ⟨haccepted, httl, hmaxEq, ?_, _, number, dropped, fades_liveAt now _, horder, ?_⟩
    · intro r hr hlive
      rcases (fades_liveAt now set.expiryOrder).mem_left hr with hgone | ⟨r', hr', rfl⟩
      · exact (not_lt.mpr hgone hlive).elim
      · exact hunseen r hr'
    · rcases hroom with ⟨hzero, -⟩ | ⟨hone, hfull⟩
      · exact .inl hzero
      · exact .inr ⟨hone, hfull⟩

/-! ### Records -/

/-- What a session is, apart from its nonces. -/
def SecureSession.facts (session : SecureSession) : Nat × Address × PyStr × Bytes × Bytes × ℚ × ℚ :=
  (session.number, session.address, session.stationId, session.clientToServerAesgcm,
    session.serverToClientAesgcm, session.createdAt, session.lastSeen)

def PendingSecureSession.facts (pending : PendingSecureSession) : Nat × Address × PyStr × Bytes × Bytes × ℚ :=
  (pending.number, pending.address, pending.stationId, pending.clientToServerAesgcm,
    pending.serverToClientAesgcm, pending.createdAt)

/-- The same record at the same address, with a set of nonces that has aged. -/
structure AgedEntry {ρ ι : Type} (facts : ρ → ι) (nonces : ρ → BoundedExpiringSet Bytes) (now : ℚ)
    (e e' : Address × ρ) : Prop where
  address_eq : e'.1 = e.1
  facts_eq : facts e'.2 = facts e.2
  nonces_aged : AgedSet now (nonces e.2) (nonces e'.2)

abbrev AgedSession : ℚ → Address × SecureSession → Address × SecureSession → Prop :=
  AgedEntry SecureSession.facts SecureSession.seenDataNonces

abbrev AgedPending : ℚ → Address × PendingSecureSession → Address × PendingSecureSession → Prop :=
  AgedEntry PendingSecureSession.facts PendingSecureSession.seenDataNonces

def LiveSession (cfg : SecureSettings) (now : ℚ) (session : SecureSession) : Prop :=
  now - session.lastSeen < cfg.sessionTtl

def LivePending (cfg : SecureSettings) (now : ℚ) (pending : PendingSecureSession) : Prop :=
  now < pending.createdAt + cfg.pendingSessionTtl

section Entry

variable {ρ ι : Type} {facts : ρ → ι} {nonces : ρ → BoundedExpiringSet Bytes} {now : ℚ}

lemma AgedEntry.refl (e : Address × ρ) : AgedEntry facts nonces now e e := ⟨rfl, rfl, .refl now _⟩

lemma AgedEntry.trans (a b c : Address × ρ) (h : AgedEntry facts nonces now a b)
    (h' : AgedEntry facts nonces now b c) : AgedEntry facts nonces now a c :=
  ⟨h'.address_eq.trans h.address_eq, h'.facts_eq.trans h.facts_eq, h.nonces_aged.trans h'.nonces_aged⟩

end Entry

lemma AgedEntry.lastSeen_eq {now : ℚ} {e e' : Address × SecureSession} (h : AgedSession now e e') :
    e'.2.lastSeen = e.2.lastSeen :=
  congrArg (fun facts => facts.2.2.2.2.2.2) h.facts_eq

lemma AgedEntry.createdAt_eq {now : ℚ} {e e' : Address × PendingSecureSession} (h : AgedPending now e e') :
    e'.2.createdAt = e.2.createdAt :=
  congrArg (fun facts => facts.2.2.2.2.2) h.facts_eq

namespace SecureState

variable {cfg : SecureSettings} {now : ℚ} {state state' state'' : SecureState} {addr : Address}

/-! ### States -/

/-- The counters that neither expiry nor a refused replay moves. -/
def activity (state : SecureState) : List Nat :=
  [state.sessions.created, state.sessions.replaced, state.sessions.capacityEvicted, state.sessions.peak,
    state.pendingSessions.created, state.pendingSessions.replaced, state.pendingSessions.promoted,
    state.pendingSessions.capacityEvicted, state.pendingSessions.peak, state.counters.sessionsTouched,
    state.counters.dataNoncesAccepted, state.counters.dataNoncesCapacityEvicted]

/-- A state that some expired records have left. -/
structure Aged (cfg : SecureSettings) (now : ℚ) (state state' : SecureState) : Prop where
  sessions : Fades (fun e => ¬LiveSession cfg now e.2) (AgedSession now) state.sessions.records.entries
    state'.sessions.records.entries
  pendings : Fades (fun e => ¬LivePending cfg now e.2) (AgedPending now) state.pendingSessions.records.entries
    state'.pendingSessions.records.entries
  nextNumber : state'.nextNumber = state.nextNumber
  activity : state'.activity = state.activity

/-- Nothing in the stores of sessions has expired. -/
structure Live (cfg : SecureSettings) (now : ℚ) (state : SecureState) : Prop where
  sessions : ∀ e ∈ state.sessions.records.entries, LiveSession cfg now e.2
  pendings : ∀ e ∈ state.pendingSessions.records.entries, LivePending cfg now e.2

lemma Aged.of_same (hsessions : state'.sessions = state.sessions)
    (hpendings : state'.pendingSessions = state.pendingSessions)
    (hnumber : state'.nextNumber = state.nextNumber) (hactivity : state'.activity = state.activity) :
    Aged cfg now state state' where
  sessions := by
    rw [hsessions]
    exact .refl AgedEntry.refl _
  pendings := by
    rw [hpendings]
    exact .refl AgedEntry.refl _
  nextNumber := hnumber
  activity := hactivity

lemma Aged.refl (cfg : SecureSettings) (now : ℚ) (state : SecureState) : Aged cfg now state state :=
  .of_same rfl rfl rfl rfl

lemma Aged.trans (h : Aged cfg now state state') (h' : Aged cfg now state' state'') :
    Aged cfg now state state'' where
  sessions := by
    refine h.sessions.trans ?_ AgedEntry.trans h'.sessions
    intro e e' haged hgone hlive
    apply hgone
    rw [LiveSession, haged.lastSeen_eq]
    exact hlive
  pendings := by
    refine h.pendings.trans ?_ AgedEntry.trans h'.pendings
    intro e e' haged hgone hlive
    apply hgone
    rw [LivePending, haged.createdAt_eq]
    exact hlive
  nextNumber := h'.nextNumber.trans h.nextNumber
  activity := h'.activity.trans h.activity

lemma Live.aged (h : Live cfg now state) (haged : Aged cfg now state state') : Live cfg now state' where
  sessions := by
    intro e' he'
    obtain ⟨e, he, hsame⟩ := haged.sessions.mem_right he'
    rw [LiveSession, hsame.lastSeen_eq]
    exact h.sessions e he
  pendings := by
    intro e' he'
    obtain ⟨e, he, hsame⟩ := haged.pendings.mem_right he'
    rw [LivePending, hsame.createdAt_eq]
    exact h.pendings e he

/-! ### Looking up -/

/-- What stands at an address stood there before. -/
lemma Aged.get?_session (h : Aged cfg now state state') {session' : SecureSession}
    (hget : state'.sessions.records.get? addr = some session') :
    ∃ session, state.sessions.records.get? addr = some session ∧
      AgedSession now (addr, session) (addr, session') := by
  obtain ⟨⟨addr', session⟩, hmem, hsame⟩ := h.sessions.mem_right ((Dict.get?_eq_some_iff _ _ _).mp hget)
  obtain rfl : addr = addr' := hsame.address_eq
  exact ⟨session, (Dict.get?_eq_some_iff _ _ _).mpr hmem, hsame⟩

lemma Aged.get?_pending (h : Aged cfg now state state') {pending' : PendingSecureSession}
    (hget : state'.pendingSessions.records.get? addr = some pending') :
    ∃ pending, state.pendingSessions.records.get? addr = some pending ∧
      AgedPending now (addr, pending) (addr, pending') := by
  obtain ⟨⟨addr', pending⟩, hmem, hsame⟩ := h.pendings.mem_right ((Dict.get?_eq_some_iff _ _ _).mp hget)
  obtain rfl : addr = addr' := hsame.address_eq
  exact ⟨pending, (Dict.get?_eq_some_iff _ _ _).mpr hmem, hsame⟩

/-! ### Cleanup -/

lemma removeSession_expired_activity (state : SecureState) (addr : Address) :
    (state.removeSession addr .expired).activity = state.activity := by
  unfold removeSession
  split
  · rfl
  · rfl

lemma removePendingSession_expired_activity (state : SecureState) (addr : Address) :
    (state.removePendingSession addr .expired).activity = state.activity := by
  unfold removePendingSession
  split
  · rfl
  · rfl

lemma cleanupSessionsLoop_activity (entries : List (Address × SecureSession)) (state : SecureState) :
    (cleanupSessionsLoop cfg now entries state).1.activity = state.activity := by
  induction entries generalizing state with
  | nil => rfl
  | cons entry rest ih =>
    rw [cleanupSessionsLoop]
    split
    · rfl
    · exact (ih _).trans (removeSession_expired_activity state entry.1)

lemma cleanupPendingLoop_activity (entries : List (Address × PendingSecureSession)) (state : SecureState) :
    (cleanupPendingLoop cfg now entries state).1.activity = state.activity := by
  induction entries generalizing state with
  | nil => rfl
  | cons entry rest ih =>
    rw [cleanupPendingLoop]
    split
    · rfl
    · exact (ih _).trans (removePendingSession_expired_activity state entry.1)

lemma Invariant.aged_cleanupSessions {past : ℚ} (h : Invariant cfg 0 past state) :
    Aged cfg now state (state.cleanupExpiredSessions cfg now).1 := by
  obtain ⟨hpendings, -, hnumber, hsessions⟩ := h.cleanedSessions now
  refine ⟨?_, ?_, hnumber, cleanupSessionsLoop_activity _ _⟩
  · rw [hsessions]
    exact .dropWhile AgedEntry.refl (fun e he => by simpa [LiveSession] using he) _
  · rw [hpendings]
    exact .refl AgedEntry.refl _

lemma Invariant.aged_cleanupPendings {past : ℚ} (h : Invariant cfg 0 past state) :
    Aged cfg now state (state.cleanupExpiredPendingSessions cfg now).1 := by
  obtain ⟨hsessions, -, hnumber, hpendings⟩ := h.cleanedPendings now
  refine ⟨?_, ?_, hnumber, cleanupPendingLoop_activity _ _⟩
  · rw [hsessions]
    exact .refl AgedEntry.refl _
  · rw [hpendings]
    exact .dropWhile AgedEntry.refl (fun e he => by simpa [LivePending] using he) _

/-- Behind a live record of a list in order of time, everything is live. -/
lemma forall_mem_dropWhile_of_sorted {ρ : Type} {stamp : ρ → ℚ} {live : ρ → Bool}
    (hmono : ∀ a b, stamp a ≤ stamp b → live a = true → live b = true) {entries : List ρ}
    (hsorted : entries.Pairwise (fun a b => stamp a ≤ stamp b)) :
    ∀ e ∈ entries.dropWhile (fun e => !live e), live e = true := by
  induction entries with
  | nil => simp
  | cons first rest ih =>
    rw [List.pairwise_cons] at hsorted
    rw [List.dropWhile_cons]
    split
    · exact ih hsorted.2
    · next hlive =>
      have hfirst : live first = true := by simpa using hlive
      intro e he
      rcases List.mem_cons.mp he with rfl | he
      · exact hfirst
      · exact hmono first e (hsorted.1 e he) hfirst

/-- A state after both cleanups of a pass. -/
lemma Invariant.live_cleaned {past : ℚ} (h : Invariant cfg 0 past state) :
    Live cfg now ((state.cleanupExpiredSessions cfg now).1.cleanupExpiredPendingSessions cfg now).1 := by
  have hcleaned := h.cleanedSessions now
  have hcleaned' := (h.cleanupSessions now).cleanedPendings now
  constructor
  · have hlive : ∀ e ∈ state.sessions.records.entries.dropWhile
        (fun e => !decide (now - e.2.lastSeen < cfg.sessionTtl)),
        decide (now - e.2.lastSeen < cfg.sessionTtl) = true := by
      apply forall_mem_dropWhile_of_sorted _ h.sessions.sorted
      intro a b hab ha
      rw [decide_eq_true_eq] at ha ⊢
      linarith
    rw [hcleaned'.sessions, hcleaned.sessions]
    intro e he
    have hkept := hlive e he
    rw [decide_eq_true_eq] at hkept
    exact hkept
  · have hlive : ∀ e ∈ state.pendingSessions.records.entries.dropWhile
        (fun e => !decide (now < e.2.createdAt + cfg.pendingSessionTtl)),
        decide (now < e.2.createdAt + cfg.pendingSessionTtl) = true := by
      apply forall_mem_dropWhile_of_sorted _ h.pendings.sorted
      intro a b hab ha
      rw [decide_eq_true_eq] at ha ⊢
      linarith
    rw [hcleaned'.pendings, hcleaned.pendings]
    intro e he
    have hkept := hlive e he
    rw [decide_eq_true_eq] at hkept
    exact hkept

lemma Live.cleanupSessions_eq (h : Live cfg now state) : state.cleanupExpiredSessions cfg now = (state, []) := by
  unfold cleanupExpiredSessions
  cases hentries : state.sessions.records.entries with
  | nil => rfl
  | cons entry rest =>
    have hlive : now - entry.2.lastSeen < cfg.sessionTtl := h.sessions entry (by rw [hentries]; simp)
    rw [cleanupSessionsLoop, if_pos hlive]

lemma Live.cleanupPendings_eq (h : Live cfg now state) :
    state.cleanupExpiredPendingSessions cfg now = (state, []) := by
  unfold cleanupExpiredPendingSessions
  cases hentries : state.pendingSessions.records.entries with
  | nil => rfl
  | cons entry rest =>
    have hlive : now < entry.2.createdAt + cfg.pendingSessionTtl :=
      h.pendings entry (by rw [hentries]; simp)
    rw [cleanupPendingLoop, if_pos hlive]

lemma Live.sessionHandle_eq (h : Live cfg now state) (addr : Address) (session : SecureSession) :
    state.getLiveSessionHandle cfg addr session now = (state, state.liveSession addr session) := by
  unfold getLiveSessionHandle
  split
  · next hnone => rw [Option.isNone_iff_eq_none.mp hnone]
  · rw [h.cleanupSessions_eq]

lemma Live.pendingHandle_eq (h : Live cfg now state) (addr : Address) (pending : PendingSecureSession) :
    state.getLivePendingSessionHandle cfg addr pending now = (state, state.livePending addr pending) := by
  unfold getLivePendingSessionHandle
  split
  · next hnone => rw [Option.isNone_iff_eq_none.mp hnone]
  · rw [h.cleanupPendings_eq]

end SecureState

end AisMixer.Udpsec

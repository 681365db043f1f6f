import AisMixer.Udpsec.SecureState

/-!
# The invariant of the local state

`Invariant` ties the counters to the stores: every replay record, session, pending session and
data nonce that was ever admitted is either still kept or counted under the one reason for
which it left. The nonces of a session that is being promoted are in neither store for a
moment, so the invariant has their number as a parameter.
-/

namespace AisMixer.Udpsec

open AisMixer.Library

def SecureSession.nonceCount (session : SecureSession) : Nat := session.seenDataNonces.size

def PendingSecureSession.nonceCount (pending : PendingSecureSession) : Nat := pending.seenDataNonces.size

/-- A set that lists its records once each, within its bound. -/
structure BoundedSet (ttl : ℚ) (bound : Nat) (set : BoundedExpiringSet Bytes) : Prop where
  consistent : set.Consistent
  ttl_eq : set.ttl = ttl
  bound_eq : set.maxEntries = bound
  fits : set.size ≤ bound

/-- The nonce set of a session. -/
abbrev NonceSet (cfg : SecureSettings) : BoundedExpiringSet Bytes → Prop :=
  BoundedSet cfg.dataNonceTtl cfg.dataNonceMaxPerSession

namespace SecureState

structure ReplayAccounts (cfg : SecureSettings) (state : SecureState) : Prop where
  set : BoundedSet cfg.handshakeReplayTtl cfg.handshakeReplayMax state.handshakeReplays
  conserved : state.counters.handshakeReplayAccepted = state.handshakeReplays.size +
    state.counters.handshakeReplayExpired + state.counters.handshakeReplayCapacityEvicted
  peak : state.handshakeReplays.size ≤ state.counters.peakHandshakeReplays

structure NonceAccounts (inTransit : Int) (state : SecureState) : Prop where
  current : state.counters.currentDataNonces = state.sessions.total SecureSession.nonceCount +
    state.pendingSessions.total PendingSecureSession.nonceCount + inTransit
  conserved : (state.counters.dataNoncesAccepted : Int) = state.counters.currentDataNonces +
    state.counters.dataNoncesExpired + state.counters.dataNoncesCapacityEvicted +
    state.counters.dataNoncesSessionDiscarded
  peak : state.counters.currentDataNonces ≤ state.counters.peakDataNonces

structure Invariant (cfg : SecureSettings) (inTransit : Int) (now : ℚ) (state : SecureState) : Prop where
  replays : ReplayAccounts cfg state
  sessions : state.sessions.Retains cfg.maxSessions SecureSession.lastSeen now
  pendings : state.pendingSessions.Retains cfg.maxPendingSessions PendingSecureSession.createdAt now
  neverPromoted : state.sessions.promoted = 0
  sessionNonces : ∀ e ∈ state.sessions.records.entries, NonceSet cfg e.2.seenDataNonces
  pendingNonces : ∀ e ∈ state.pendingSessions.records.entries, NonceSet cfg e.2.seenDataNonces
  nonces : NonceAccounts inTransit state

variable {cfg : SecureSettings} {inTransit : Int} {now : ℚ} {state : SecureState} {addr : Address}

/-! ### Nonce sets -/

lemma boundedSet_init (ttl : ℚ) (bound : Nat) :
    BoundedSet ttl bound (.init ttl bound : BoundedExpiringSet Bytes) where
  consistent := BoundedExpiringSet.init_consistent ttl bound
  ttl_eq := rfl
  bound_eq := rfl
  fits := Nat.zero_le bound

/-- What a lookup does to a set and to its size. -/
lemma boundedSet_contains {ttl : ℚ} {bound : Nat} {set : BoundedExpiringSet Bytes}
    (h : BoundedSet ttl bound set) (key : Bytes) (now : ℚ) :
    BoundedSet ttl bound (set.contains key now).1 ∧
      (set.contains key now).1.size + (set.contains key now).2.2 = set.size := by
  obtain ⟨hconsistent, horder, httl, hbound, -⟩ := BoundedExpiringSet.contains_spec h.consistent key now
  obtain ⟨-, -, -, -, hexpired⟩ := BoundedExpiringSet.cleanupExpired_spec h.consistent now
  have hcount : (set.contains key now).2.2 = (set.cleanupExpired now).2 := rfl
  have hsize := BoundedExpiringSet.size_eq_length hconsistent
  have hsize' := BoundedExpiringSet.size_eq_length h.consistent
  rw [horder] at hsize
  have hfits := h.fits
  refine ⟨⟨hconsistent, httl.trans h.ttl_eq, hbound.trans h.bound_eq, by omega⟩, by omega⟩

/-- What an admission does to a set and to its size. -/
lemma boundedSet_accept {ttl : ℚ} {bound : Nat} {set : BoundedExpiringSet Bytes}
    (h : BoundedSet ttl bound set) (hbound : 1 ≤ bound) (key : Bytes) (now : ℚ) :
    BoundedSet ttl bound (set.accept key now).1 ∧ ∃ admission, (set.accept key now).2 = .ok admission ∧
      (set.accept key now).1.size + admission.expired + admission.capacityEvicted =
        set.size + admission.accepted.toNat := by
  have hmax : 0 < set.maxEntries := by
    rw [h.bound_eq]
    omega
  obtain ⟨hconsistent, httl, hmaxEq, admission, hadmission, hexpired, hcase⟩ :=
    BoundedExpiringSet.accept_spec h.consistent hmax key now
  have hsize := BoundedExpiringSet.size_eq_length hconsistent
  have hsize' := BoundedExpiringSet.size_eq_length h.consistent
  have hfits := h.fits
  have hboundEq := h.bound_eq
  have hcounts : (set.accept key now).1.size ≤ bound ∧
      (set.accept key now).1.size + admission.expired + admission.capacityEvicted =
        set.size + admission.accepted.toNat := by
    rcases hcase with ⟨haccepted, hevicted, -, horder⟩ | ⟨haccepted, -, number, dropped, hevicted, horder, hroom⟩
    · rw [horder] at hsize
      rw [haccepted, hevicted, Bool.toNat_false]
      omega
    · rw [horder, List.length_append, List.length_drop, List.length_singleton] at hsize
      rw [haccepted, hevicted, Bool.toNat_true]
      omega
  exact ⟨⟨hconsistent, httl.trans h.ttl_eq, hmaxEq.trans hboundEq, hcounts.1⟩, admission, hadmission,
    hcounts.2⟩

/-! ### Start, and the passing of time -/

lemma invariant_init (cfg : SecureSettings) (now : ℚ) : Invariant cfg 0 now (.init cfg) where
  replays := ⟨boundedSet_init _ _, rfl, Nat.zero_le 0⟩
  sessions := RecordStore.retains_empty
  pendings := RecordStore.retains_empty
  neverPromoted := rfl
  sessionNonces := by simp [init, RecordStore.empty, Dict.empty]
  pendingNonces := by simp [init, RecordStore.empty, Dict.empty]
  nonces := ⟨rfl, rfl, le_refl 0⟩

lemma Invariant.mono (h : Invariant cfg inTransit now state) {now' : ℚ} (hle : now ≤ now') :
    Invariant cfg inTransit now' state :=
  { h with
    sessions := h.sessions.mono hle
    pendings := h.pendings.mono hle }

/-! ### Removal -/

lemma removeSession_eq {session : SecureSession} (h : state.sessions.records.get? addr = some session)
    (reason : Fate) : state.removeSession addr reason =
      { state with
        sessions := state.sessions.remove addr reason
        counters := { state.counters with
          currentDataNonces := state.counters.currentDataNonces - session.nonceCount
          dataNoncesSessionDiscarded :=
            state.counters.dataNoncesSessionDiscarded + session.nonceCount } } := by
  simp only [removeSession, h]
  rfl

lemma removePendingSession_eq {pending : PendingSecureSession}
    (h : state.pendingSessions.records.get? addr = some pending) (reason : Fate) :
    state.removePendingSession addr reason =
      { state with
        pendingSessions := state.pendingSessions.remove addr reason
        counters := { state.counters with
          currentDataNonces := state.counters.currentDataNonces - pending.nonceCount
          dataNoncesSessionDiscarded :=
            state.counters.dataNoncesSessionDiscarded + pending.nonceCount } } := by
  simp only [removePendingSession, h]
  rfl

lemma mem_of_mem_erase {ρ : Type} {d : Dict Address ρ} {e : Address × ρ} (h : e ∈ (d.erase addr).entries) :
    e ∈ d.entries :=
  List.mem_of_mem_filter h

lemma mem_entries_set {κ υ : Type} [DecidableEq κ] {d : Dict κ υ} {key : κ} {value : υ} {e : κ × υ}
    (h : e ∈ (d.set key value).entries) : e = (key, value) ∨ e ∈ d.entries := by
  have hget := (Dict.get?_eq_some_iff (d.set key value) e.1 e.2).mpr h
  rw [Dict.get?_set] at hget
  split at hget
  · next hkey =>
    left
    exact Prod.ext hkey.symm (Option.some_inj.mp hget).symm
  · right
    exact (Dict.get?_eq_some_iff _ _ _).mp hget

lemma remove_promoted {κ ρ : Type} [DecidableEq κ] (store : RecordStore κ ρ) (key : κ) {fate : Fate}
    (h : fate ≠ .promoted) : (store.remove key fate).promoted = store.promoted := by
  cases fate with
  | promoted => exact (h rfl).elim
  | replaced | expired | capacity => rfl

lemma Invariant.removeSession (h : Invariant cfg inTransit now state) {session : SecureSession}
    (hget : state.sessions.records.get? addr = some session) {reason : Fate} (hreason : reason ≠ .promoted) :
    Invariant cfg inTransit now (state.removeSession addr reason) := by
  have htotal := RecordStore.remove_total SecureSession.nonceCount hget reason
  have hcurrent := h.nonces.current
  have hconserved := h.nonces.conserved
  have hpeak := h.nonces.peak
  rw [removeSession_eq hget]
  refine { h with
    sessions := h.sessions.remove hget reason
    neverPromoted := (remove_promoted _ _ hreason).trans h.neverPromoted
    sessionNonces := ?_
    replays := ⟨h.replays.set, h.replays.conserved, h.replays.peak⟩
    nonces := ⟨?_, ?_, ?_⟩ }
  · intro e he
    rw [RecordStore.remove_records] at he
    exact h.sessionNonces e (mem_of_mem_erase he)
  · simp only
    omega
  · push_cast
    omega
  · simp only
    omega

lemma Invariant.removePendingSession (h : Invariant cfg inTransit now state)
    {pending : PendingSecureSession} (hget : state.pendingSessions.records.get? addr = some pending)
    (reason : Fate) : Invariant cfg inTransit now (state.removePendingSession addr reason) := by
  have htotal := RecordStore.remove_total PendingSecureSession.nonceCount hget reason
  have hcurrent := h.nonces.current
  have hconserved := h.nonces.conserved
  have hpeak := h.nonces.peak
  rw [removePendingSession_eq hget]
  refine { h with
    pendings := h.pendings.remove hget reason
    pendingNonces := ?_
    replays := ⟨h.replays.set, h.replays.conserved, h.replays.peak⟩
    nonces := ⟨?_, ?_, ?_⟩ }
  · intro e he
    rw [RecordStore.remove_records] at he
    exact h.pendingNonces e (mem_of_mem_erase he)
  · simp only
    omega
  · push_cast
    omega
  · simp only
    omega

/-! ### Cleanup -/

/-- What a cleanup of the sessions leaves alone, and what it leaves of them. -/
structure CleanedSessions (cfg : SecureSettings) (now : ℚ) (state state' : SecureState) : Prop where
  pendings : state'.pendingSessions = state.pendingSessions
  replays : state'.handshakeReplays = state.handshakeReplays
  nextNumber : state'.nextNumber = state.nextNumber
  sessions : state'.sessions.records.entries =
    state.sessions.records.entries.dropWhile (fun e => !decide (now - e.2.lastSeen < cfg.sessionTtl))

structure CleanedPendings (cfg : SecureSettings) (now : ℚ) (state state' : SecureState) : Prop where
  sessions : state'.sessions = state.sessions
  replays : state'.handshakeReplays = state.handshakeReplays
  nextNumber : state'.nextNumber = state.nextNumber
  pendings : state'.pendingSessions.records.entries = state.pendingSessions.records.entries.dropWhile
    (fun e => !decide (now < e.2.createdAt + cfg.pendingSessionTtl))

lemma head_get? {κ ρ : Type} [DecidableEq κ] {d : Dict κ ρ} {key : κ} {value : ρ} {rest : List (κ × ρ)}
    (h : d.entries = (key, value) :: rest) : d.get? key = some value :=
  (Dict.get?_eq_some_iff d key value).mpr (by rw [h]; simp)

lemma cleanupSessionsLoop_spec {entries : List (Address × SecureSession)} {at' : ℚ}
    (h : Invariant cfg inTransit now state) (hentries : state.sessions.records.entries = entries) :
    Invariant cfg inTransit now (cleanupSessionsLoop cfg at' entries state).1 ∧
      CleanedSessions cfg at' state (cleanupSessionsLoop cfg at' entries state).1 := by
  induction entries generalizing state with
  | nil => exact ⟨h, rfl, rfl, rfl, by rw [cleanupSessionsLoop, hentries]; rfl⟩
  | cons entry rest ih =>
    obtain ⟨first, session⟩ := entry
    rw [cleanupSessionsLoop]
    by_cases hlive : at' - session.lastSeen < cfg.sessionTtl
    · rw [if_pos hlive]
      refine ⟨h, rfl, rfl, rfl, ?_⟩
      rw [hentries, List.dropWhile_cons]
      simp [hlive]
    · rw [if_neg hlive]
      have hget := head_get? hentries
      have hremoved := removeSession_eq hget .expired
      have hrest : (state.removeSession first .expired).sessions.records.entries = rest := by
        rw [hremoved, RecordStore.remove_records]
        exact Dict.entries_erase_head _ hentries
      obtain ⟨hinv, hpendings, hreplays, hnumber, hsessions⟩ := ih (h.removeSession hget (by decide)) hrest
      refine ⟨hinv, hpendings.trans (by rw [hremoved]), hreplays.trans (by rw [hremoved]),
        hnumber.trans (by rw [hremoved]), ?_⟩
      rw [hsessions, hrest, hentries, List.dropWhile_cons]
      simp [hlive]

lemma cleanupPendingLoop_spec {entries : List (Address × PendingSecureSession)} {at' : ℚ}
    (h : Invariant cfg inTransit now state) (hentries : state.pendingSessions.records.entries = entries) :
    Invariant cfg inTransit now (cleanupPendingLoop cfg at' entries state).1 ∧
      CleanedPendings cfg at' state (cleanupPendingLoop cfg at' entries state).1 := by
  induction entries generalizing state with
  | nil => exact ⟨h, rfl, rfl, rfl, by rw [cleanupPendingLoop, hentries]; rfl⟩
  | cons entry rest ih =>
    obtain ⟨first, pending⟩ := entry
    rw [cleanupPendingLoop]
    by_cases hlive : at' < pending.createdAt + cfg.pendingSessionTtl
    · rw [if_pos hlive]
      refine ⟨h, rfl, rfl, rfl, ?_⟩
      rw [hentries, List.dropWhile_cons]
      simp [hlive]
    · rw [if_neg hlive]
      have hget := head_get? hentries
      have hremoved := removePendingSession_eq hget .expired
      have hrest : (state.removePendingSession first .expired).pendingSessions.records.entries = rest := by
        rw [hremoved, RecordStore.remove_records]
        exact Dict.entries_erase_head _ hentries
      obtain ⟨hinv, hsessions, hreplays, hnumber, hpendings⟩ := ih (h.removePendingSession hget .expired) hrest
      refine ⟨hinv, hsessions.trans (by rw [hremoved]), hreplays.trans (by rw [hremoved]),
        hnumber.trans (by rw [hremoved]), ?_⟩
      rw [hpendings, hrest, hentries, List.dropWhile_cons]
      simp [hlive]

lemma Invariant.cleanupSessions (h : Invariant cfg inTransit now state) (at' : ℚ) :
    Invariant cfg inTransit now (state.cleanupExpiredSessions cfg at').1 :=
  (cleanupSessionsLoop_spec h rfl).1

lemma Invariant.cleanedSessions (h : Invariant cfg inTransit now state) (at' : ℚ) :
    CleanedSessions cfg at' state (state.cleanupExpiredSessions cfg at').1 :=
  (cleanupSessionsLoop_spec h rfl).2

lemma Invariant.cleanupPendings (h : Invariant cfg inTransit now state) (at' : ℚ) :
    Invariant cfg inTransit now (state.cleanupExpiredPendingSessions cfg at').1 :=
  (cleanupPendingLoop_spec h rfl).1

lemma Invariant.cleanedPendings (h : Invariant cfg inTransit now state) (at' : ℚ) :
    CleanedPendings cfg at' state (state.cleanupExpiredPendingSessions cfg at').1 :=
  (cleanupPendingLoop_spec h rfl).2

/-! ### Making room and adding -/

/-- The address is free and there is room for one more session. -/
lemma Invariant.makeSessionRoom (h : Invariant cfg inTransit now state) (addr : Address) :
    Invariant cfg inTransit now (state.makeSessionRoom cfg addr) ∧
      (state.makeSessionRoom cfg addr).sessions.records.get? addr = none ∧
      (state.makeSessionRoom cfg addr).sessions.size < cfg.maxSessions ∧
      (state.makeSessionRoom cfg addr).pendingSessions = state.pendingSessions := by
  have hmax := cfg.limits.1
  have hbounded := h.sessions.bounded
  unfold SecureState.makeSessionRoom
  by_cases hcontains : state.sessions.records.contains addr = true
  · rw [if_pos hcontains]
    obtain ⟨session, hget⟩ := (Dict.mem_keys_iff _ _).mp ((Dict.contains_iff _ _).mp hcontains)
    have hsize := RecordStore.remove_size hget .replaced
    refine ⟨h.removeSession hget (by decide), ?_, ?_, ?_⟩
    · rw [removeSession_eq hget, RecordStore.remove_records, Dict.get?_erase, if_pos rfl]
    · rw [removeSession_eq hget]
      simp only
      omega
    · rw [removeSession_eq hget]
  · rw [if_neg hcontains]
    have hfree : state.sessions.records.get? addr = none := by
      rw [Dict.get?_eq_none_iff, ← Dict.contains_iff]
      exact hcontains
    by_cases hfull : cfg.maxSessions ≤ state.sessions.size
    · rw [if_pos hfull]
      have hsize : state.sessions.records.keys.length = state.sessions.size := Dict.length_keys _
      cases hkeys : state.sessions.records.keys with
      | nil =>
        rw [hkeys, List.length_nil] at hsize
        omega
      | cons oldest rest =>
        obtain ⟨session, hget⟩ := (Dict.mem_keys_iff state.sessions.records oldest).mp (by rw [hkeys]; simp)
        have hremoved := RecordStore.remove_size hget .capacity
        dsimp only
        refine ⟨h.removeSession hget (by decide), ?_, ?_, ?_⟩
        · rw [removeSession_eq hget, RecordStore.remove_records, Dict.get?_erase, hfree]
          simp
        · rw [removeSession_eq hget]
          simp only
          omega
        · rw [removeSession_eq hget]
    · rw [if_neg hfull]
      exact ⟨h, hfree, not_le.mp hfull, rfl⟩

lemma Invariant.makePendingRoom (h : Invariant cfg inTransit now state) (addr : Address) :
    Invariant cfg inTransit now (state.makePendingRoom cfg addr) ∧
      (state.makePendingRoom cfg addr).pendingSessions.records.get? addr = none ∧
      (state.makePendingRoom cfg addr).pendingSessions.size < cfg.maxPendingSessions ∧
      (state.makePendingRoom cfg addr).sessions = state.sessions := by
  have hmax := cfg.limits.2.2.2
  have hbounded := h.pendings.bounded
  unfold SecureState.makePendingRoom
  by_cases hcontains : state.pendingSessions.records.contains addr = true
  · rw [if_pos hcontains]
    obtain ⟨pending, hget⟩ := (Dict.mem_keys_iff _ _).mp ((Dict.contains_iff _ _).mp hcontains)
    have hsize := RecordStore.remove_size hget .replaced
    refine ⟨h.removePendingSession hget .replaced, ?_, ?_, ?_⟩
    · rw [removePendingSession_eq hget, RecordStore.remove_records, Dict.get?_erase, if_pos rfl]
    · rw [removePendingSession_eq hget]
      simp only
      omega
    · rw [removePendingSession_eq hget]
  · rw [if_neg hcontains]
    have hfree : state.pendingSessions.records.get? addr = none := by
      rw [Dict.get?_eq_none_iff, ← Dict.contains_iff]
      exact hcontains
    by_cases hfull : cfg.maxPendingSessions ≤ state.pendingSessions.size
    · rw [if_pos hfull]
      have hsize : state.pendingSessions.records.keys.length = state.pendingSessions.size := Dict.length_keys _
      cases hkeys : state.pendingSessions.records.keys with
      | nil =>
        rw [hkeys, List.length_nil] at hsize
        omega
      | cons oldest rest =>
        obtain ⟨pending, hget⟩ :=
          (Dict.mem_keys_iff state.pendingSessions.records oldest).mp (by rw [hkeys]; simp)
        have hremoved := RecordStore.remove_size hget .capacity
        dsimp only
        refine ⟨h.removePendingSession hget .capacity, ?_, ?_, ?_⟩
        · rw [removePendingSession_eq hget, RecordStore.remove_records, Dict.get?_erase, hfree]
          simp
        · rw [removePendingSession_eq hget]
          simp only
          omega
        · rw [removePendingSession_eq hget]
    · rw [if_neg hfull]
      exact ⟨h, hfree, not_le.mp hfull, rfl⟩

/-- A new session takes the nonces that were in transit. -/
lemma Invariant.addSession {session : SecureSession} (h : Invariant cfg inTransit now state)
    (hseen : session.lastSeen = now) (hcount : inTransit = session.nonceCount)
    (hfree : state.sessions.records.get? addr = none) (hroom : state.sessions.size < cfg.maxSessions)
    (hnonces : NonceSet cfg session.seenDataNonces) :
    Invariant cfg 0 now (state.addSession addr session) := by
  have hkey : addr ∉ state.sessions.records.keys := (Dict.get?_eq_none_iff _ _).mp hfree
  have htotal := RecordStore.add_total SecureSession.nonceCount session hfree
  have hcurrent := h.nonces.current
  have hadded := h.sessions.add session hfree hroom hseen.ge
  rw [hseen] at hadded
  refine { h with
    sessions := hadded
    sessionNonces := ?_
    replays := ⟨h.replays.set, h.replays.conserved, h.replays.peak⟩
    nonces := ⟨?_, h.nonces.conserved, h.nonces.peak⟩ }
  · intro e he
    simp only [SecureState.addSession, RecordStore.add, Dict.entries_set_of_not_mem _ _ hkey, List.mem_append,
      List.mem_singleton] at he
    rcases he with he | rfl
    · exact h.sessionNonces e he
    · exact hnonces
  · simp only [SecureState.addSession]
    omega

/-- A new pending session without nonces. -/
lemma Invariant.addPending {pending : PendingSecureSession} (h : Invariant cfg 0 now state)
    (hcreated : pending.createdAt = now)
    (hfree : state.pendingSessions.records.get? addr = none)
    (hroom : state.pendingSessions.size < cfg.maxPendingSessions)
    (hnonces : NonceSet cfg pending.seenDataNonces) (hempty : pending.nonceCount = 0) :
    Invariant cfg 0 now { state with
      pendingSessions := state.pendingSessions.add addr pending
      nextNumber := state.nextNumber + 1 } := by
  have hkey : addr ∉ state.pendingSessions.records.keys := (Dict.get?_eq_none_iff _ _).mp hfree
  have htotal := RecordStore.add_total PendingSecureSession.nonceCount pending hfree
  have hcurrent := h.nonces.current
  have hadded := h.pendings.add pending hfree hroom hcreated.ge
  rw [hcreated] at hadded
  refine { h with
    pendings := hadded
    pendingNonces := ?_
    replays := ⟨h.replays.set, h.replays.conserved, h.replays.peak⟩
    nonces := ⟨?_, h.nonces.conserved, h.nonces.peak⟩ }
  · intro e he
    simp only [RecordStore.add, Dict.entries_set_of_not_mem _ _ hkey, List.mem_append,
      List.mem_singleton] at he
    rcases he with he | rfl
    · exact h.pendingNonces e he
    · exact hnonces
  · simp only
    omega

/-! ### Operations -/

lemma Invariant.acceptHandshakeReplay (h : Invariant cfg inTransit now state) (key : Bytes) (at' : ℚ) :
    Invariant cfg inTransit now (state.acceptHandshakeReplay key at').1 ∧
      ∃ accepted, (state.acceptHandshakeReplay key at').2 = .ok accepted := by
  obtain ⟨hset, admission, hadmission, hcount⟩ :=
    boundedSet_accept h.replays.set cfg.limits.2.1 key at'
  obtain ⟨replays, result, haccept⟩ : ∃ replays result, state.handshakeReplays.accept key at' =
      (replays, result) := ⟨_, _, rfl⟩
  rw [haccept] at hset hadmission hcount
  simp only at hset hadmission hcount
  have hconserved := h.replays.conserved
  have hpeak := h.replays.peak
  rw [SecureState.acceptHandshakeReplay, haccept, hadmission]
  cases haccepted : admission.accepted with
  | false =>
    rw [haccepted, Bool.toNat_false] at hcount
    simp only [haccepted, Bool.not_false, if_true]
    refine ⟨{ h with
      replays := ⟨hset, ?_, ?_⟩
      nonces := ⟨h.nonces.current, h.nonces.conserved, h.nonces.peak⟩ }, false, rfl⟩
    · simp only
      omega
    · simp only
      omega
  | true =>
    rw [haccepted, Bool.toNat_true] at hcount
    simp only [haccepted, Bool.not_true, Bool.false_eq_true, if_false]
    refine ⟨{ h with
      replays := ⟨hset, ?_, le_max_right _ _⟩
      nonces := ⟨h.nonces.current, h.nonces.conserved, h.nonces.peak⟩ }, true, rfl⟩
    simp only
    omega

lemma Invariant.installSession (h : Invariant cfg 0 now state) {at' : ℚ} (hle : now ≤ at')
    (addr : Address) (stationId : PyStr) (clientToServer serverToClient : Bytes) :
    Invariant cfg 0 at' (state.installSession cfg addr stationId clientToServer serverToClient at').1 := by
  obtain ⟨hroom, hfree, hsize, -⟩ := ((h.mono hle).cleanupSessions at').makeSessionRoom addr
  exact hroom.addSession rfl rfl hfree hsize (boundedSet_init _ _)

lemma Invariant.installPendingSession (h : Invariant cfg 0 now state) {at' : ℚ} (hle : now ≤ at')
    (addr : Address) (stationId : PyStr) (clientToServer serverToClient : Bytes) :
    Invariant cfg 0 at'
      (state.installPendingSession cfg addr stationId clientToServer serverToClient at').1 := by
  obtain ⟨hroom, hfree, hsize, -⟩ := ((h.mono hle).cleanupPendings at').makePendingRoom addr
  exact hroom.addPending rfl hfree hsize (boundedSet_init _ _) rfl

lemma liveSession_eq_some {session current : SecureSession} (h : state.liveSession addr session = some current) :
    state.sessions.records.get? addr = some current ∧ current.number = session.number := by
  rw [liveSession, Option.filter_eq_some_iff] at h
  exact ⟨h.1, by simpa using h.2⟩

lemma livePending_eq_some {pending current : PendingSecureSession}
    (h : state.livePending addr pending = some current) :
    state.pendingSessions.records.get? addr = some current ∧ current.number = pending.number := by
  rw [livePending, Option.filter_eq_some_iff] at h
  exact ⟨h.1, by simpa using h.2⟩

/-- A live handle gives the object at its address. -/
lemma Invariant.sessionHandle (h : Invariant cfg inTransit now state) (addr : Address)
    (session : SecureSession) (at' : ℚ) :
    Invariant cfg inTransit now (state.getLiveSessionHandle cfg addr session at').1 ∧
      ∀ current, (state.getLiveSessionHandle cfg addr session at').2 = some current →
        (state.getLiveSessionHandle cfg addr session at').1.sessions.records.get? addr = some current ∧
          current.number = session.number := by
  unfold getLiveSessionHandle
  split
  · exact ⟨h, by simp⟩
  · exact ⟨h.cleanupSessions at', fun current hcurrent => liveSession_eq_some hcurrent⟩

lemma Invariant.pendingHandle (h : Invariant cfg inTransit now state) (addr : Address)
    (pending : PendingSecureSession) (at' : ℚ) :
    Invariant cfg inTransit now (state.getLivePendingSessionHandle cfg addr pending at').1 ∧
      ∀ current, (state.getLivePendingSessionHandle cfg addr pending at').2 = some current →
        (state.getLivePendingSessionHandle cfg addr pending at').1.pendingSessions.records.get? addr =
          some current ∧ current.number = pending.number := by
  unfold getLivePendingSessionHandle
  split
  · exact ⟨h, by simp⟩
  · exact ⟨h.cleanupPendings at', fun current hcurrent => livePending_eq_some hcurrent⟩

lemma Invariant.touchActiveSession (h : Invariant cfg inTransit now state) {session : SecureSession}
    (hget : state.sessions.records.get? addr = some session) {at' : ℚ} (hle : now ≤ at') :
    Invariant cfg inTransit at' (state.touchActiveSession addr session at') := by
  have hmoved := h.sessions.moveToEnd { session with lastSeen := at' } hget hle
  have htotal : (state.sessions.moveToEnd addr { session with lastSeen := at' }).total
      SecureSession.nonceCount = state.sessions.total SecureSession.nonceCount :=
    RecordStore.moveToEnd_total SecureSession.nonceCount hget rfl
  obtain ⟨before, after, hentries, hend⟩ :=
    RecordStore.moveToEnd_entries { session with lastSeen := at' } hget
  have hcurrent := h.nonces.current
  refine {
    replays := ⟨h.replays.set, h.replays.conserved, h.replays.peak⟩
    sessions := hmoved
    pendings := h.pendings.mono hle
    neverPromoted := h.neverPromoted
    sessionNonces := ?_
    pendingNonces := h.pendingNonces
    nonces := ⟨?_, h.nonces.conserved, h.nonces.peak⟩ }
  · intro e he
    have hold := h.sessionNonces
    rw [hentries] at hold
    simp only [SecureState.touchActiveSession, hend, List.mem_append, List.mem_singleton] at he
    rcases he with (he | he) | rfl
    · exact hold e (by simp [he])
    · exact hold e (by simp [he])
    · exact hold (addr, session) (by simp)
  · simp only [SecureState.touchActiveSession, htotal]
    exact hcurrent

lemma Invariant.touchSession (h : Invariant cfg inTransit now state) {at' : ℚ} (hle : now ≤ at')
    (addr : Address) (session : SecureSession) :
    Invariant cfg inTransit at' (state.touchSession cfg addr session at').1 := by
  obtain ⟨hhandle, hlive⟩ := h.sessionHandle addr session at'
  rw [SecureState.touchSession]
  obtain ⟨state', current, hresult⟩ : ∃ state' current,
      state.getLiveSessionHandle cfg addr session at' = (state', current) := ⟨_, _, rfl⟩
  rw [hresult] at hhandle hlive ⊢
  cases current with
  | none => exact hhandle.mono hle
  | some current => exact hhandle.touchActiveSession (hlive current rfl).1 hle

/-- The pending session of a promotion leaves with its nonces. -/
lemma Invariant.takePending (h : Invariant cfg inTransit now state) {pending : PendingSecureSession}
    (hget : state.pendingSessions.records.get? addr = some pending) :
    Invariant cfg (inTransit + pending.nonceCount) now
      { state with pendingSessions := state.pendingSessions.remove addr .promoted } := by
  have htotal := RecordStore.remove_total PendingSecureSession.nonceCount hget .promoted
  have hcurrent := h.nonces.current
  refine { h with
    pendings := h.pendings.remove hget .promoted
    pendingNonces := ?_
    replays := ⟨h.replays.set, h.replays.conserved, h.replays.peak⟩
    nonces := ⟨?_, h.nonces.conserved, h.nonces.peak⟩ }
  · intro e he
    rw [RecordStore.remove_records] at he
    exact h.pendingNonces e (mem_of_mem_erase he)
  · simp only
    omega

lemma Invariant.promotePendingSession (h : Invariant cfg 0 now state) {at' : ℚ} (hle : now ≤ at')
    (addr : Address) (pending : PendingSecureSession) :
    Invariant cfg 0 at' (state.promotePendingSession cfg addr pending at').1 := by
  obtain ⟨hhandle, hlive⟩ := (h.mono hle).pendingHandle addr pending at'
  rw [SecureState.promotePendingSession]
  obtain ⟨state', current, hresult⟩ : ∃ state' current,
      state.getLivePendingSessionHandle cfg addr pending at' = (state', current) := ⟨_, _, rfl⟩
  rw [hresult] at hhandle hlive ⊢
  cases current with
  | none => exact hhandle
  | some current =>
    have hget := (hlive current rfl).1
    have hcleaned := hhandle.cleanedSessions at'
    rw [← hcleaned.pendings] at hget
    have hset := (hhandle.cleanupSessions at').pendingNonces (addr, current)
      ((Dict.get?_eq_some_iff _ _ _).mp hget)
    obtain ⟨hroom, hfree, hsize, -⟩ := ((hhandle.cleanupSessions at').takePending hget).makeSessionRoom addr
    exact hroom.addSession rfl (Int.zero_add _) hfree hsize hset

/-! ### Nonce operations -/

lemma mem_update {ρ : Type} {store : RecordStore Address ρ} {old record : ρ}
    (h : store.records.get? addr = some old) {e : Address × ρ}
    (he : e ∈ (store.update addr record).records.entries) :
    e ∈ store.records.entries ∨ e = (addr, record) := by
  obtain ⟨before, after, hentries, hset, -⟩ := Dict.exists_split h
  rw [RecordStore.update, hset record, List.mem_append, List.mem_cons] at he
  rw [hentries, List.mem_append, List.mem_cons]
  tauto

lemma Invariant.setSessionNonces (h : Invariant cfg inTransit now state) {session : SecureSession}
    (hget : state.sessions.records.get? addr = some session) {nonces : BoundedExpiringSet Bytes}
    (hset : NonceSet cfg nonces) :
    Invariant cfg (inTransit + session.seenDataNonces.size - nonces.size) now
      (state.setSessionNonces addr session nonces) := by
  have htotal := RecordStore.update_total SecureSession.nonceCount
    { session with seenDataNonces := nonces } hget
  have hcurrent := h.nonces.current
  refine { h with
    sessions := h.sessions.update hget rfl
    sessionNonces := ?_
    replays := ⟨h.replays.set, h.replays.conserved, h.replays.peak⟩
    nonces := ⟨?_, h.nonces.conserved, h.nonces.peak⟩ }
  · intro e he
    rcases mem_update hget he with he | rfl
    · exact h.sessionNonces e he
    · exact hset
  · simp only [SecureSession.nonceCount] at htotal hcurrent
    simp only [SecureState.setSessionNonces]
    omega

lemma Invariant.setPendingNonces (h : Invariant cfg inTransit now state) {pending : PendingSecureSession}
    (hget : state.pendingSessions.records.get? addr = some pending) {nonces : BoundedExpiringSet Bytes}
    (hset : NonceSet cfg nonces) :
    Invariant cfg (inTransit + pending.seenDataNonces.size - nonces.size) now
      (state.setPendingNonces addr pending nonces) := by
  have htotal := RecordStore.update_total PendingSecureSession.nonceCount
    { pending with seenDataNonces := nonces } hget
  have hcurrent := h.nonces.current
  refine { h with
    pendings := h.pendings.update hget rfl
    pendingNonces := ?_
    replays := ⟨h.replays.set, h.replays.conserved, h.replays.peak⟩
    nonces := ⟨?_, h.nonces.conserved, h.nonces.peak⟩ }
  · intro e he
    rcases mem_update hget he with he | rfl
    · exact h.pendingNonces e he
    · exact hset
  · simp only [PendingSecureSession.nonceCount] at htotal hcurrent
    simp only [SecureState.setPendingNonces]
    omega

lemma Invariant.accountExpiredDataNonces (h : Invariant cfg inTransit now state) (expired : Nat) :
    Invariant cfg (inTransit - expired) now (state.accountExpiredDataNonces expired) := by
  have hcurrent := h.nonces.current
  have hconserved := h.nonces.conserved
  have hpeak := h.nonces.peak
  refine { h with
    replays := ⟨h.replays.set, h.replays.conserved, h.replays.peak⟩
    nonces := ⟨?_, ?_, ?_⟩ }
  · simp only [SecureState.accountExpiredDataNonces]
    omega
  · simp only [SecureState.accountExpiredDataNonces]
    push_cast
    omega
  · simp only [SecureState.accountExpiredDataNonces]
    omega

lemma Invariant.accountAdmission (h : Invariant cfg inTransit now state) (admission : ExpiringSetAdmission) :
    Invariant cfg (inTransit - admission.expired - admission.capacityEvicted + admission.accepted.toNat) now
        (state.accountAdmission admission).1 ∧
      (state.accountAdmission admission).2 = admission.accepted := by
  have hexpired := h.accountExpiredDataNonces admission.expired
  have hcurrent := hexpired.nonces.current
  have hconserved := hexpired.nonces.conserved
  have hpeak := hexpired.nonces.peak
  unfold SecureState.accountAdmission
  cases haccepted : admission.accepted with
  | false =>
    simp only [Bool.not_false, if_true, Bool.toNat_false]
    refine ⟨{ hexpired with
      replays := ⟨hexpired.replays.set, hexpired.replays.conserved, hexpired.replays.peak⟩
      nonces := ⟨?_, ?_, ?_⟩ }, trivial⟩
    · simp only
      omega
    · push_cast
      omega
    · simp only
      omega
  | true =>
    simp only [Bool.not_true, Bool.false_eq_true, if_false, Bool.toNat_true]
    refine ⟨{ hexpired with
      replays := ⟨hexpired.replays.set, hexpired.replays.conserved, hexpired.replays.peak⟩
      nonces := ⟨?_, ?_, le_max_right _ _⟩ }, trivial⟩
    · push_cast
      omega
    · push_cast
      omega

lemma Invariant.of_eq {inTransit' : Int} (h : Invariant cfg inTransit now state) (heq : inTransit = inTransit') :
    Invariant cfg inTransit' now state := heq ▸ h

lemma Invariant.dataNonceSeen (h : Invariant cfg 0 now state) (session : SecureSession) (nonce : Bytes)
    (at' : ℚ) : Invariant cfg 0 now (state.dataNonceSeen cfg session nonce at').1 := by
  obtain ⟨hhandle, hlive⟩ := h.sessionHandle session.address session at'
  obtain ⟨state', current, hresult⟩ : ∃ state' current,
      state.getLiveSessionHandle cfg session.address session at' = (state', current) := ⟨_, _, rfl⟩
  rw [hresult] at hhandle hlive
  unfold SecureState.dataNonceSeen
  rw [hresult]
  cases current with
  | none => exact hhandle
  | some current =>
    have hget := (hlive current rfl).1
    have hold : NonceSet cfg current.seenDataNonces :=
      hhandle.sessionNonces (session.address, current) ((Dict.get?_eq_some_iff _ _ _).mp hget)
    obtain ⟨hset, hcount⟩ := boundedSet_contains hold nonce at'
    have hfinal := ((hhandle.setSessionNonces hget hset).accountExpiredDataNonces
      (current.seenDataNonces.contains nonce at').2.2).of_eq (show _ = (0 : Int) by omega)
    dsimp only
    split
    · exact { hfinal with
        replays := ⟨hfinal.replays.set, hfinal.replays.conserved, hfinal.replays.peak⟩
        nonces := ⟨hfinal.nonces.current, hfinal.nonces.conserved, hfinal.nonces.peak⟩ }
    · exact hfinal

lemma Invariant.pendingDataNonceSeen (h : Invariant cfg 0 now state) (pending : PendingSecureSession)
    (nonce : Bytes) (at' : ℚ) : Invariant cfg 0 now (state.pendingDataNonceSeen cfg pending nonce at').1 := by
  obtain ⟨hhandle, hlive⟩ := h.pendingHandle pending.address pending at'
  obtain ⟨state', current, hresult⟩ : ∃ state' current,
      state.getLivePendingSessionHandle cfg pending.address pending at' = (state', current) := ⟨_, _, rfl⟩
  rw [hresult] at hhandle hlive
  unfold SecureState.pendingDataNonceSeen
  rw [hresult]
  cases current with
  | none => exact hhandle
  | some current =>
    have hget := (hlive current rfl).1
    have hold : NonceSet cfg current.seenDataNonces :=
      hhandle.pendingNonces (pending.address, current) ((Dict.get?_eq_some_iff _ _ _).mp hget)
    obtain ⟨hset, hcount⟩ := boundedSet_contains hold nonce at'
    exact ((hhandle.setPendingNonces hget hset).accountExpiredDataNonces
      (current.seenDataNonces.contains nonce at').2.2).of_eq (by omega)

lemma Invariant.acceptDataNonce (h : Invariant cfg 0 now state) (session : SecureSession) (nonce : Bytes)
    (at' : ℚ) : Invariant cfg 0 now (state.acceptDataNonce cfg session nonce at').1 ∧
      ∃ accepted, (state.acceptDataNonce cfg session nonce at').2 = .ok accepted := by
  obtain ⟨hhandle, hlive⟩ := h.sessionHandle session.address session at'
  obtain ⟨state', current, hresult⟩ : ∃ state' current,
      state.getLiveSessionHandle cfg session.address session at' = (state', current) := ⟨_, _, rfl⟩
  rw [hresult] at hhandle hlive
  unfold SecureState.acceptDataNonce
  rw [hresult]
  cases current with
  | none => exact ⟨hhandle, false, rfl⟩
  | some current =>
    have hget := (hlive current rfl).1
    have hold : NonceSet cfg current.seenDataNonces :=
      hhandle.sessionNonces (session.address, current) ((Dict.get?_eq_some_iff _ _ _).mp hget)
    obtain ⟨hset, admission, hadmission, hcount⟩ := boundedSet_accept hold cfg.limits.2.2.1 nonce at'
    obtain ⟨nonces, result, haccept⟩ : ∃ nonces result, current.seenDataNonces.accept nonce at' =
        (nonces, result) := ⟨_, _, rfl⟩
    rw [haccept] at hset hadmission hcount
    simp only at hset hadmission hcount
    obtain ⟨hfinal, -⟩ := (hhandle.setSessionNonces hget hset).accountAdmission admission
    simp only [haccept, hadmission]
    exact ⟨hfinal.of_eq (by omega), _, rfl⟩

lemma Invariant.acceptPendingDataNonce (h : Invariant cfg 0 now state) (pending : PendingSecureSession)
    (nonce : Bytes) (at' : ℚ) : Invariant cfg 0 now (state.acceptPendingDataNonce cfg pending nonce at').1 ∧
      ∃ accepted, (state.acceptPendingDataNonce cfg pending nonce at').2 = .ok accepted := by
  obtain ⟨hhandle, hlive⟩ := h.pendingHandle pending.address pending at'
  obtain ⟨state', current, hresult⟩ : ∃ state' current,
      state.getLivePendingSessionHandle cfg pending.address pending at' = (state', current) := ⟨_, _, rfl⟩
  rw [hresult] at hhandle hlive
  unfold SecureState.acceptPendingDataNonce
  rw [hresult]
  cases current with
  | none => exact ⟨hhandle, false, rfl⟩
  | some current =>
    have hget := (hlive current rfl).1
    have hold : NonceSet cfg current.seenDataNonces :=
      hhandle.pendingNonces (pending.address, current) ((Dict.get?_eq_some_iff _ _ _).mp hget)
    obtain ⟨hset, admission, hadmission, hcount⟩ := boundedSet_accept hold cfg.limits.2.2.1 nonce at'
    obtain ⟨nonces, result, haccept⟩ : ∃ nonces result, current.seenDataNonces.accept nonce at' =
        (nonces, result) := ⟨_, _, rfl⟩
    rw [haccept] at hset hadmission hcount
    simp only at hset hadmission hcount
    obtain ⟨hfinal, -⟩ := (hhandle.setPendingNonces hget hset).accountAdmission admission
    simp only [haccept, hadmission]
    exact ⟨hfinal.of_eq (by omega), _, rfl⟩

end SecureState

end AisMixer.Udpsec

import AisMixer.Udpsec.Effects
import AisMixer.Udpsec.SecureServer
import AisMixer.Udpsec.StateConservation
import AisMixer.Udpsec.TranscriptSignatures

/-!
# What a datagram can do

Whatever is received, the stores of sessions lose their expired records and nothing else happens to
them, unless the datagram is an authenticated ClientHello, a confirmation under the key of the
pending session of its address, or a valid message under the key of the active one.
-/

namespace AisMixer.Udpsec

open AisMixer.Library

namespace SecureState

variable {cfg : SecureSettings} {now : ℚ} {state state' state'' : SecureState} {addr : Address}

/-! ### Records know their address -/

/-- Every record stands at its own address. -/
structure Keyed (state : SecureState) : Prop where
  sessions : ∀ e ∈ state.sessions.records.entries, e.2.address = e.1
  pendings : ∀ e ∈ state.pendingSessions.records.entries, e.2.address = e.1

lemma Keyed.aged (h : Keyed state) (haged : Aged cfg now state state') : Keyed state' where
  sessions := by
    intro e' he'
    obtain ⟨e, he, hsame⟩ := haged.sessions.mem_right he'
    have haddress : e'.2.address = e.2.address := congrArg (fun facts => facts.2.1) hsame.facts_eq
    rw [haddress, hsame.address_eq]
    exact h.sessions e he
  pendings := by
    intro e' he'
    obtain ⟨e, he, hsame⟩ := haged.pendings.mem_right he'
    have haddress : e'.2.address = e.2.address := congrArg (fun facts => facts.2.1) hsame.facts_eq
    rw [haddress, hsame.address_eq]
    exact h.pendings e he

lemma Keyed.session (h : Keyed state) {session : SecureSession}
    (hget : state.sessions.records.get? addr = some session) : session.address = addr :=
  h.sessions (addr, session) ((Dict.get?_eq_some_iff _ _ _).mp hget)

lemma Keyed.pending (h : Keyed state) {pending : PendingSecureSession}
    (hget : state.pendingSessions.records.get? addr = some pending) : pending.address = addr :=
  h.pendings (addr, pending) ((Dict.get?_eq_some_iff _ _ _).mp hget)

lemma Keyed.installs {pending : PendingSecureSession} (h : Keyed state)
    (hinstalls : Installs addr pending state state') : Keyed state' where
  sessions := by
    rw [hinstalls.sessions]
    exact h.sessions
  pendings := by
    obtain ⟨kept, ⟨hsub, -⟩, hentries⟩ := hinstalls.pendings
    rw [hentries]
    intro e he
    rcases List.mem_append.mp he with he | he
    · exact h.pendings e (hsub.subset he)
    · obtain rfl := List.mem_singleton.mp he
      exact hinstalls.address

lemma Keyed.admitsData {nonce : Bytes} {session current : SecureSession}
    {nonces : BoundedExpiringSet Bytes} (h : Keyed state)
    (hadmits : AdmitsData now nonce session current nonces state state') : Keyed state' where
  sessions := by
    rw [hadmits.sessions]
    intro e he
    rcases mem_entries_set he with rfl | he
    · exact (show current.address = session.address from h.session hadmits.found)
    · exact h.sessions e he
  pendings := by
    rw [hadmits.pendings]
    exact h.pendings

lemma Keyed.admitsPending {nonce : Bytes} {pending current : PendingSecureSession}
    {nonces : BoundedExpiringSet Bytes} (h : Keyed state)
    (hadmits : AdmitsPending now nonce pending current nonces state state') : Keyed state' where
  sessions := by
    rw [hadmits.sessions]
    exact h.sessions
  pendings := by
    rw [hadmits.pendings]
    intro e he
    rcases mem_entries_set he with rfl | he
    · exact (show current.address = pending.address from h.pending hadmits.found)
    · exact h.pendings e he

lemma Keyed.promotes {pending : PendingSecureSession} {session : SecureSession} (h : Keyed state)
    (hpromotes : Promotes now addr pending session state state') : Keyed state' where
  sessions := by
    obtain ⟨kept, ⟨hsub, -⟩, -, hentries⟩ := hpromotes.sessions
    rw [hentries]
    intro e he
    rcases List.mem_append.mp he with he | he
    · exact h.sessions e (hsub.subset he)
    · obtain rfl := List.mem_singleton.mp he
      rw [hpromotes.promoted]
  pendings := by
    rw [hpromotes.pendings]
    intro e he
    exact h.pendings e (mem_of_mem_erase he)

lemma Keyed.touches {current : SecureSession} (h : Keyed state)
    (htouches : Touches now addr current state state') : Keyed state' where
  sessions := by
    obtain ⟨before, after, hentries, hentries'⟩ := htouches.sessions
    have hold := h.sessions
    rw [hentries] at hold
    rw [hentries']
    intro e he
    rw [List.append_assoc, List.mem_append, List.mem_append, List.mem_singleton] at he
    rcases he with he | he | rfl
    · exact hold e (by simp [he])
    · exact hold e (by simp [he])
    · exact hold (addr, current) (by simp)
  pendings := by
    rw [htouches.pendings]
    exact h.pendings

/-- A state that the listener can be in at a time. -/
structure Sound (cfg : SecureSettings) (now : ℚ) (state : SecureState) : Prop where
  invariant : Invariant cfg 0 now state
  keyed : Keyed state

lemma sound_init (cfg : SecureSettings) (now : ℚ) : Sound cfg now (.init cfg) where
  invariant := invariant_init cfg now
  keyed := ⟨by simp [init, RecordStore.empty, Dict.empty], by simp [init, RecordStore.empty, Dict.empty]⟩

/-! ### What stays live -/

lemma Live.admitsPending {nonce : Bytes} {pending current : PendingSecureSession}
    {nonces : BoundedExpiringSet Bytes} (h : Live cfg now state)
    (hadmits : AdmitsPending now nonce pending current nonces state state') : Live cfg now state' where
  sessions := by
    rw [hadmits.sessions]
    exact h.sessions
  pendings := by
    rw [hadmits.pendings]
    intro e he
    rcases mem_entries_set he with rfl | he
    · exact h.pendings (pending.address, current) ((Dict.get?_eq_some_iff _ _ _).mp hadmits.found)
    · exact h.pendings e he

lemma Live.admitsData {nonce : Bytes} {session current : SecureSession}
    {nonces : BoundedExpiringSet Bytes} (h : Live cfg now state)
    (hadmits : AdmitsData now nonce session current nonces state state') : Live cfg now state' where
  sessions := by
    rw [hadmits.sessions]
    intro e he
    rcases mem_entries_set he with rfl | he
    · exact h.sessions (session.address, current) ((Dict.get?_eq_some_iff _ _ _).mp hadmits.found)
    · exact h.sessions e he
  pendings := by
    rw [hadmits.pendings]
    exact h.pendings

lemma Live.afterPromotion {pending : PendingSecureSession} {session : SecureSession} (h : Live cfg now state)
    (hpromotes : Promotes now addr pending session state state') : Live cfg now state' where
  sessions := by
    obtain ⟨kept, ⟨hsub, -⟩, -, hentries⟩ := hpromotes.sessions
    rw [hentries]
    intro e he
    rcases List.mem_append.mp he with he | he
    · exact h.sessions e (hsub.subset he)
    · obtain rfl := List.mem_singleton.mp he
      rw [LiveSession, hpromotes.promoted, sub_self]
      exact cfg.ttls.1
  pendings := by
    rw [hpromotes.pendings]
    intro e he
    exact h.pendings e (mem_of_mem_erase he)

lemma Promotes.get? {pending : PendingSecureSession} {session : SecureSession}
    (h : Promotes now addr pending session state state') :
    state'.sessions.records.get? addr = some session := by
  obtain ⟨kept, -, -, hentries⟩ := h.sessions
  rw [Dict.get?_eq_some_iff, hentries]
  simp

/-! ### Replay records -/

/-- The records, and how many of them have been evicted. -/
def replayRecords (state : SecureState) : BoundedExpiringSet Bytes × Nat :=
  (state.handshakeReplays, state.counters.handshakeReplayCapacityEvicted)

/-- The records of another state are the same. -/
def SameReplays (state state' : SecureState) : Prop := state'.replayRecords = state.replayRecords

lemma SameReplays.trans (h : SameReplays state state') (h' : SameReplays state' state'') :
    SameReplays state state'' :=
  Eq.trans h' h

/-- Records of which some have expired. -/
structure AgedReplays (now : ℚ) (state state' : SecureState) : Prop where
  aged : AgedSet now state.handshakeReplays state'.handshakeReplays
  evicted : state'.counters.handshakeReplayCapacityEvicted =
    state.counters.handshakeReplayCapacityEvicted

/-- Records that a key has entered. Unless one is evicted, all that are live stay. -/
structure AdmittedReplay (now : ℚ) (key : Bytes) (state state' : SecureState) : Prop where
  admitted : Admitted now key state.handshakeReplays state'.handshakeReplays
  grows : state.counters.handshakeReplayCapacityEvicted ≤
    state'.counters.handshakeReplayCapacityEvicted
  kept : state'.counters.handshakeReplayCapacityEvicted =
    state.counters.handshakeReplayCapacityEvicted →
      ∀ r ∈ state.handshakeReplays.expiryOrder, now < r.expiresAt → r ∈ state'.handshakeReplays.expiryOrder

lemma SameReplays.aged (h : SameReplays state state') : AgedReplays now state state' := by
  obtain ⟨hset, hevicted⟩ := Prod.ext_iff.mp h
  refine ⟨?_, hevicted⟩
  rw [show state'.handshakeReplays = state.handshakeReplays from hset]
  exact .refl _ _

lemma SameReplays.aged_right (h : SameReplays state state') (h' : AgedReplays now state' state'') :
    AgedReplays now state state'' := by
  obtain ⟨hset, hevicted⟩ := Prod.ext_iff.mp h
  refine ⟨?_, h'.evicted.trans hevicted⟩
  rw [← show state'.handshakeReplays = state.handshakeReplays from hset]
  exact h'.aged

lemma AdmittedReplay.same_right {key : Bytes} (h : AdmittedReplay now key state state')
    (h' : SameReplays state' state'') : AdmittedReplay now key state state'' := by
  obtain ⟨hset, hevicted⟩ := Prod.ext_iff.mp h'
  dsimp only [replayRecords] at hset hevicted
  refine ⟨?_, ?_, ?_⟩
  · rw [hset]
    exact h.admitted
  · rw [hevicted]
    exact h.grows
  · rw [hset, hevicted]
    exact h.kept

lemma AdmittedReplay.same_left {key : Bytes} (h : SameReplays state state')
    (h' : AdmittedReplay now key state' state'') : AdmittedReplay now key state state'' := by
  obtain ⟨hset, hevicted⟩ := Prod.ext_iff.mp h
  dsimp only [replayRecords] at hset hevicted
  refine ⟨?_, ?_, ?_⟩
  · rw [← hset]
    exact h'.admitted
  · rw [← hevicted]
    exact h'.grows
  · rw [← hset, ← hevicted]
    exact h'.kept

lemma sameReplays_removeSession (state : SecureState) (addr : Address) (reason : Fate) :
    SameReplays state (state.removeSession addr reason) := by
  unfold removeSession SameReplays
  split <;> rfl

lemma sameReplays_removePendingSession (state : SecureState) (addr : Address) (reason : Fate) :
    SameReplays state (state.removePendingSession addr reason) := by
  unfold removePendingSession SameReplays
  split <;> rfl

lemma sameReplays_cleanupSessionsLoop (entries : List (Address × SecureSession)) (state : SecureState) :
    SameReplays state (cleanupSessionsLoop cfg now entries state).1 := by
  induction entries generalizing state with
  | nil => rfl
  | cons entry rest ih =>
    rw [cleanupSessionsLoop]
    split
    · rfl
    · exact (sameReplays_removeSession state entry.1 .expired).trans (ih _)

lemma sameReplays_cleanupPendingLoop (entries : List (Address × PendingSecureSession)) (state : SecureState) :
    SameReplays state (cleanupPendingLoop cfg now entries state).1 := by
  induction entries generalizing state with
  | nil => rfl
  | cons entry rest ih =>
    rw [cleanupPendingLoop]
    split
    · rfl
    · exact (sameReplays_removePendingSession state entry.1 .expired).trans (ih _)

lemma sameReplays_makeSessionRoom (state : SecureState) (addr : Address) :
    SameReplays state (state.makeSessionRoom cfg addr) := by
  unfold makeSessionRoom
  split
  · exact sameReplays_removeSession state addr .replaced
  · split
    · split
      · exact rfl
      · exact sameReplays_removeSession state _ .capacity
    · exact rfl

lemma sameReplays_makePendingRoom (state : SecureState) (addr : Address) :
    SameReplays state (state.makePendingRoom cfg addr) := by
  unfold makePendingRoom
  split
  · exact sameReplays_removePendingSession state addr .replaced
  · split
    · split
      · exact rfl
      · exact sameReplays_removePendingSession state _ .capacity
    · exact rfl

lemma Live.sameReplays_install (h : Live cfg now state) (addr : Address) (stationId : PyStr)
    (clientToServer serverToClient : Bytes) : SameReplays state
      (state.installPendingSession cfg addr stationId clientToServer serverToClient now).1 := by
  rw [SecureState.installPendingSession, h.cleanupPendings_eq]
  exact sameReplays_makePendingRoom state addr

lemma Live.sameReplays_dataNonceSeen (h : Live cfg now state) (session : SecureSession) (nonce : Bytes) :
    SameReplays state (state.dataNonceSeen cfg session nonce now).1 := by
  rw [SecureState.dataNonceSeen, h.sessionHandle_eq]
  cases state.liveSession session.address session with
  | none => exact rfl
  | some current =>
    dsimp only
    split <;> exact rfl

lemma Live.sameReplays_pendingDataNonceSeen (h : Live cfg now state) (pending : PendingSecureSession)
    (nonce : Bytes) : SameReplays state (state.pendingDataNonceSeen cfg pending nonce now).1 := by
  rw [SecureState.pendingDataNonceSeen, h.pendingHandle_eq]
  cases state.livePending pending.address pending with
  | none => exact rfl
  | some current => exact rfl

lemma sameReplays_accountAdmission (state : SecureState) (admission : ExpiringSetAdmission) :
    SameReplays state (state.accountAdmission admission).1 := by
  unfold accountAdmission
  dsimp only
  split <;> exact rfl

lemma Live.sameReplays_acceptDataNonce (h : Live cfg now state) (session : SecureSession) (nonce : Bytes) :
    SameReplays state (state.acceptDataNonce cfg session nonce now).1 := by
  rw [SecureState.acceptDataNonce, h.sessionHandle_eq]
  cases state.liveSession session.address session with
  | none => exact rfl
  | some current =>
    dsimp only
    rcases current.seenDataNonces.accept nonce now with ⟨nonces, e | admission⟩
    · exact rfl
    · exact sameReplays_accountAdmission _ admission

lemma Live.sameReplays_acceptPendingDataNonce (h : Live cfg now state) (pending : PendingSecureSession)
    (nonce : Bytes) : SameReplays state (state.acceptPendingDataNonce cfg pending nonce now).1 := by
  rw [SecureState.acceptPendingDataNonce, h.pendingHandle_eq]
  cases state.livePending pending.address pending with
  | none => exact rfl
  | some current =>
    dsimp only
    rcases current.seenDataNonces.accept nonce now with ⟨nonces, e | admission⟩
    · exact rfl
    · exact sameReplays_accountAdmission _ admission

lemma Live.sameReplays_promote (h : Live cfg now state) (addr : Address) (pending : PendingSecureSession) :
    SameReplays state (state.promotePendingSession cfg addr pending now).1 := by
  rw [SecureState.promotePendingSession, h.pendingHandle_eq]
  cases state.livePending addr pending with
  | none => exact rfl
  | some current =>
    dsimp only
    rw [h.cleanupSessions_eq]
    exact sameReplays_makeSessionRoom _ addr

lemma Live.sameReplays_touch (h : Live cfg now state) (addr : Address) (session : SecureSession) :
    SameReplays state (state.touchSession cfg addr session now).1 := by
  rw [SecureState.touchSession, h.sessionHandle_eq]
  cases state.liveSession addr session with
  | none => exact rfl
  | some current => exact rfl

/-- An admission for which nothing is evicted keeps what is live. -/
lemma mem_accept {ttl : ℚ} {bound : Nat} {set : BoundedExpiringSet Bytes} (h : BoundedSet ttl bound set)
    (hbound : 1 ≤ bound) {key : Bytes} {admission : ExpiringSetAdmission}
    (hadmission : (set.accept key now).2 = .ok admission) (hevicted : admission.capacityEvicted = 0)
    {r : ExpiringRecord Bytes} (hr : r ∈ set.expiryOrder) (hlive : now < r.expiresAt) :
    r ∈ (set.accept key now).1.expiryOrder := by
  have hmax : 0 < set.maxEntries := by
    rw [h.bound_eq]
    omega
  obtain ⟨-, -, -, admission', hadmission', -, hcase⟩ :=
    BoundedExpiringSet.accept_spec h.consistent hmax key now
  obtain rfl : admission = admission' := Except.ok.inj (hadmission.symm.trans hadmission')
  have hkept : r ∈ BoundedExpiringSet.liveAt now set.expiryOrder := by
    rcases (fades_liveAt now set.expiryOrder).mem_left hr with hgone | ⟨r', hr', rfl⟩
    · exact absurd hlive (not_lt.mpr hgone)
    · exact hr'
  rcases hcase with ⟨-, -, -, horder⟩ | ⟨-, -, number, dropped, hdropped, horder, -⟩
  · rw [horder]
    exact hkept
  · rw [horder, ← hdropped, hevicted, List.drop_zero]
    exact List.mem_append_left _ hkept

/-- The admission of a ClientHello leaves all but the replay records alone. -/
lemma Invariant.acceptHandshakeReplay_cases (h : Invariant cfg 0 now state) (key : Bytes) :
    ∃ result accepted, state.acceptHandshakeReplay key now = (result, .ok accepted) ∧
      result.sessions = state.sessions ∧ result.pendingSessions = state.pendingSessions ∧
      result.nextNumber = state.nextNumber ∧ result.activity = state.activity ∧
      (accepted = false ∧ AgedReplays now state result ∨
        accepted = true ∧ AdmittedReplay now key state result) := by
  have hbound : 1 ≤ cfg.handshakeReplayMax := cfg.limits.2.1
  obtain ⟨admission, hadmission, hcase⟩ := @accept_cases _ now _ _ h.replays.set hbound key
  have hkept := fun hevicted r hr hlive =>
    @mem_accept now _ _ _ h.replays.set hbound key _ hadmission hevicted r hr hlive
  obtain ⟨replays, result, haccept⟩ : ∃ replays result, state.handshakeReplays.accept key now =
      (replays, result) := ⟨_, _, rfl⟩
  rw [haccept] at hadmission hcase hkept
  dsimp only at hadmission hcase hkept
  rw [SecureState.acceptHandshakeReplay, haccept, hadmission]
  dsimp only
  rcases hcase with ⟨haccepted, hevicted, haged⟩ | ⟨haccepted, hadmitted⟩
  · rw [haccepted]
    refine ⟨_, false, rfl, rfl, rfl, rfl, rfl, .inl ⟨rfl, haged, ?_⟩⟩
    exact congrArg (state.counters.handshakeReplayCapacityEvicted + ·) hevicted
  · rw [haccepted]
    refine ⟨_, true, rfl, rfl, rfl, rfl, rfl, .inr ⟨rfl, hadmitted, Nat.le_add_right _ _, ?_⟩⟩
    intro hsame
    exact hkept (Nat.add_eq_left.mp hsame)

end SecureState

/-! ### Events -/

variable {Private Public : Type}

/-- What a pass lets in: frames onto the queue, ClientHellos past the replay records, and nonces into
the sets of the sessions with the given numbers. -/
structure Admissions where
  frames : List IngressFrame
  hellos : List ClientHello
  nonces : List (Nat × Bytes)

def Admissions.none : Admissions := ⟨[], [], []⟩

/-- The frame that an event puts on the queue. -/
def ListenerEvent.frame? : ListenerEvent Private → Option IngressFrame
  | .queued frame => some frame
  | _ => none

def ListenerEvent.hello? : ListenerEvent Private → Option ClientHello
  | .helloAdmitted hello => some hello
  | _ => none

def ListenerEvent.nonce? : ListenerEvent Private → Option (Nat × Bytes)
  | .nonceAdmitted session nonce => some (session.number, nonce)
  | _ => none

def admissions (events : List (ListenerEvent Private)) : Admissions where
  frames := events.filterMap ListenerEvent.frame?
  hellos := events.filterMap ListenerEvent.hello?
  nonces := events.filterMap ListenerEvent.nonce?

lemma admissions_sendto (reception : Reception Private) (packet : Bytes) :
    admissions (sendto reception packet) = .none := by
  unfold sendto
  split <;> rfl

lemma admissions_sendPong (p : Primitives Private Public) (reception : Reception Private) (key : Bytes)
    (sequence : Int) (stationId : PyStr) :
    admissions (sendPong p reception key sequence stationId) = .none := by
  unfold sendPong
  split
  · rfl
  · exact admissions_sendto reception _

/-! ### The four outcomes -/

/-- A message with the source of its session and the shape of a ping or of NMEA data. -/
inductive IsSecureMessage (stationId : PyStr) (message : Json) : SecureMessage → Prop where
  | ping {sequence : Int} (source : isText stationId (message.get? (str "source_id")) = true)
      (type : isText (str "ping") (message.get? (str "type")) = true)
      (sequence_eq : message.get? (str "seq") = some (.int sequence)) (pos : 0 < sequence) :
      IsSecureMessage stationId message (.ping sequence)
  | nmea {payload : Json} (source : isText stationId (message.get? (str "source_id")) = true)
      (type : isText (str "nmea") (message.get? (str "type")) = true)
      (payload_eq : message.get? (str "payload") = some payload) :
      IsSecureMessage stationId message (.nmea payload)

lemma isSecureMessage_of_check {stationId : PyStr} {message : Json} {content : SecureMessage}
    (h : checkMessage stationId message = .ok content) : IsSecureMessage stationId message content := by
  unfold checkMessage at h
  split at h
  · split at h
    · cases h
    · next hsource =>
      have hsource' := Bool.not_eq_false _ |>.mp (by simpa using hsource)
      split at h
      · next htype =>
        split at h
        · next sequence hsequence =>
          split at h
          · cases h
          · next hpos =>
            cases h
            exact .ping hsource' htype hsequence (not_le.mp hpos)
        · cases h
      · split at h
        · next htype =>
          split at h
          · cases h
          · next payload hpayload =>
            cases h
            exact .nmea hsource' htype hpayload
        · cases h
  · cases h

section Outcomes

variable (p : Primitives Private Public) (cfg : SecureSettings) (listener : Listener Private Public)
  (reception : Reception Private)

/-- A ClientHello that is in time and whose signature verifies under the key of its station. -/
structure FreshHello (hello : ClientHello) (replayKey : Bytes) : Prop where
  parsed : parseClientHelloPacket reception.data = .ok hello
  fresh : |reception.wallNow - hello.timestamp| ≤ 30
  signed : ∃ identity digest, listener.authorizedKeys.get? hello.stationId = some identity ∧
    buildClientAuthDigest p.sha256 hello.stationId hello.timestamp hello.clientRandom
      hello.clientEphemeralPublicKey = .ok digest ∧
    verifyTranscriptSignature p identity hello.clientSignature digest = .ok true ∧
    buildHandshakeReplayKey p.sha256 digest hello.clientSignature = .ok replayKey

/-- The datagram is a DATA packet that has a message under a key. -/
def Decrypts (key nonce : Bytes) (message : Json) : Prop :=
  ∃ ciphertext plaintext, parseSecureDataPacket reception.data = .ok (nonce, ciphertext) ∧
    p.decrypt key nonce ciphertext dataAad = some plaintext ∧ loadMessage plaintext = .ok message

/-- The frames of a message: one if it is NMEA data with a text, else none. -/
def messageFrames (stationId : PyStr) (content : SecureMessage) : List IngressFrame :=
  match content with
  | .ping _ => []
  | .nmea payload =>
    match messageFrame listener.secInputId stationId reception.addr payload with
    | .ok (some frame) => [frame]
    | _ => []

/-- What a pass does to the state and what it lets in. -/
inductive Outcome (state state' : SecureState) (admitted : Admissions) : Prop where
  | quiet (aged : state.Aged cfg reception.monotonicNow state')
      (replays : SecureState.AgedReplays reception.monotonicNow state state')
      (admitted_eq : admitted = .none)
  | hello {clientHello : ClientHello} {replayKey : Bytes} {mid : SecureState}
      (prefix_eq : clientHelloPrefix.isPrefixOf reception.data = true)
      (authentic : FreshHello p listener reception clientHello replayKey)
      (replays : SecureState.AdmittedReplay reception.monotonicNow replayKey state state')
      (aged : state.Aged cfg reception.monotonicNow mid)
      (installs : mid.sessions = state'.sessions ∧ mid.pendingSessions = state'.pendingSessions ∧
          mid.nextNumber = state'.nextNumber ∨
        ∃ pending, pending.stationId = clientHello.stationId ∧
          SecureState.Installs reception.addr pending mid state')
      (admitted_eq : admitted = ⟨[], [clientHello], []⟩)
  | confirmation {nonce : Bytes} {message : Json} {nonces : BoundedExpiringSet Bytes}
      {pending : PendingSecureSession} {session : SecureSession} {mid confirmed promoted : SecureState}
      (decrypts : Decrypts p reception pending.clientToServerAesgcm nonce message)
      (confirms : isSessionConfirmationPing message pending.stationId = true)
      (replays : SecureState.SameReplays state state')
      (aged : state.Aged cfg reception.monotonicNow mid)
      (address_eq : pending.address = reception.addr)
      (admits : SecureState.AdmitsPending reception.monotonicNow nonce pending pending nonces mid confirmed)
      (promotes : SecureState.Promotes reception.monotonicNow reception.addr
        { pending with seenDataNonces := nonces } session confirmed promoted)
      (touches : SecureState.Touches reception.monotonicNow reception.addr session promoted state')
      (admitted_eq : admitted = .none)
  | data {nonce : Bytes} {message : Json} {content : SecureMessage} {nonces : BoundedExpiringSet Bytes}
      {session : SecureSession} {mid accepted : SecureState}
      (decrypts : Decrypts p reception session.clientToServerAesgcm nonce message)
      (valid : IsSecureMessage session.stationId message content)
      (replays : SecureState.SameReplays state state')
      (aged : state.Aged cfg reception.monotonicNow mid)
      (address_eq : session.address = reception.addr)
      (admits : SecureState.AdmitsData reception.monotonicNow nonce session session nonces mid accepted)
      (touches : SecureState.Touches reception.monotonicNow reception.addr
        { session with seenDataNonces := nonces } accepted state')
      (admitted_eq : admitted =
        ⟨messageFrames listener reception session.stationId content, [], [(session.number, nonce)]⟩)

variable {p cfg listener reception} {state : SecureState} {now : ℚ}

open SecureState

/-! ### ClientHello -/

lemma freshHello_of_authenticate {authentic : AuthenticHello Public}
    (h : authenticateHello p listener reception = .ok authentic) :
    FreshHello p listener reception authentic.hello authentic.replayKey := by
  simp only [authenticateHello, raising, bind_eq_ok_iff, mapError_eq_ok_iff, orRaise_eq_ok_iff,
    throw_if_eq_ok_iff] at h
  obtain ⟨hello, hparsed, hfresh, identity, hidentity, digest, hdigest, verified, hverified, htrue,
    ephemeral, -, replayKey, hreplayKey, hresult⟩ := h
  cases hresult
  have hverified' : verified = true := by simpa using htrue
  rw [hverified'] at hverified
  exact ⟨hparsed, not_lt.mp hfresh, identity, digest, hidentity, hdigest, hverified, hreplayKey⟩

/-- A state that the listener can be in, in which nothing has expired. -/
structure Cleaned (cfg : SecureSettings) (now : ℚ) (state : SecureState) : Prop where
  live : state.Live cfg now
  sound : Sound cfg now state

/-- A pass that reaches a state with an outcome. -/
structure Reaches (p : Primitives Private Public) (cfg : SecureSettings) (listener : Listener Private Public)
    (reception : Reception Private) (state : SecureState)
    (result : SecureState × List (ListenerEvent Private)) : Prop where
  sound : Sound cfg reception.monotonicNow result.1
  outcome : Outcome p cfg listener reception state result.1 (admissions result.2)

/-- A pass that only ages the state and queues nothing. -/
lemma Reaches.quiet {state' : SecureState} {events : List (ListenerEvent Private)}
    (hsound : Sound cfg reception.monotonicNow state') (haged : state.Aged cfg reception.monotonicNow state')
    (hreplays : SameReplays state state') (hadmitted : admissions events = .none) :
    Reaches p cfg listener reception state (state', events) where
  sound := hsound
  outcome := .quiet haged hreplays.aged hadmitted

lemma reaches_clientHello (h : Cleaned cfg reception.monotonicNow state)
    (hhead : clientHelloPrefix.isPrefixOf reception.data = true) :
    Reaches p cfg listener reception state (handleClientHello p cfg listener state reception) := by
  unfold handleClientHello
  cases hauthentic : authenticateHello p listener reception with
  | error reason => exact .quiet h.sound (.refl _ _ _) rfl rfl
  | ok authentic =>
    have hfresh := freshHello_of_authenticate hauthentic
    obtain ⟨result, accepted, haccept, hsessions, hpendings, hnext, hactivity, hcase⟩ :=
      h.sound.invariant.acceptHandshakeReplay_cases authentic.replayKey
    have haged : state.Aged cfg reception.monotonicNow result :=
      .of_same hsessions hpendings hnext hactivity
    have hinvariant := (h.sound.invariant.acceptHandshakeReplay authentic.replayKey
      reception.monotonicNow).1
    rw [haccept] at hinvariant
    have hsound : Sound cfg reception.monotonicNow result := ⟨hinvariant, h.sound.keyed.aged haged⟩
    have hlive := h.live.aged haged
    dsimp only
    rw [haccept]
    rcases hcase with ⟨rfl, hreplays⟩ | ⟨rfl, hreplays⟩
    · exact ⟨hsound, .quiet haged hreplays rfl⟩
    · dsimp only
      cases buildServerHandshake p listener authentic.hello authentic.ephemeral reception with
      | error e => exact ⟨hsound, .hello hhead hfresh hreplays haged (.inl ⟨rfl, rfl, rfl⟩) rfl⟩
      | ok handshake =>
        have hinstalls := hlive.installs hsound.invariant reception.addr authentic.hello.stationId
          handshake.keys.clientToServerKey handshake.keys.serverToClientKey
        have hsame := hlive.sameReplays_install reception.addr authentic.hello.stationId
          handshake.keys.clientToServerKey handshake.keys.serverToClientKey
        have hafter := hsound.invariant.installPendingSession le_rfl reception.addr
          authentic.hello.stationId handshake.keys.clientToServerKey handshake.keys.serverToClientKey
        refine ⟨⟨hafter, hsound.keyed.installs hinstalls⟩, ?_⟩
        refine .hello hhead hfresh ?_ haged (.inr ⟨_, rfl, hinstalls⟩) ?_
        · exact hreplays.same_right hsame
        · exact congrArg (fun admitted => { admitted with hellos := authentic.hello :: admitted.hellos })
            (admissions_sendto reception handshake.responsePacket)

/-! ### Data under the pending session -/

/-- The start of a DATA packet: what was looked up, and the state after it. -/
structure Opened (cfg : SecureSettings) (now : ℚ) (start state : SecureState) : Prop where
  cleaned : Cleaned cfg now state
  aged : start.Aged cfg now state
  replays : SameReplays start state

lemma Opened.refl (h : Cleaned cfg now state) : Opened cfg now state state := ⟨h, .refl _ _ _, rfl⟩

lemma Opened.quiet {start : SecureState} {events : List (ListenerEvent Private)}
    (h : Opened cfg reception.monotonicNow start state) (hadmitted : admissions events = .none) :
    Reaches p cfg listener reception start (state, events) :=
  .quiet h.cleaned.sound h.aged h.replays hadmitted

/-- One more step that only ages the state. -/
lemma Opened.andThen {start state' : SecureState} (h : Opened cfg now start state)
    (hinvariant : state'.Invariant cfg 0 now) (haged : state.Aged cfg now state')
    (hreplays : SameReplays state state') : Opened cfg now start state' where
  cleaned := ⟨h.cleaned.live.aged haged, hinvariant, h.cleaned.sound.keyed.aged haged⟩
  aged := h.aged.trans haged
  replays := h.replays.trans hreplays

lemma reaches_confirmPending {start : SecureState} {pending : PendingSecureSession}
    {nonce ciphertext plaintext : Bytes} (h : Opened cfg reception.monotonicNow start state)
    (hstart : start.pendingSessions.records.get? reception.addr = some pending)
    (haddress : pending.address = reception.addr)
    (hparse : parseSecureDataPacket reception.data = .ok (nonce, ciphertext))
    (hdecrypt : p.decrypt pending.clientToServerAesgcm nonce ciphertext dataAad = some plaintext) :
    Reaches p cfg listener reception start (confirmPending p cfg state reception pending nonce plaintext) := by
  obtain ⟨⟨hlive, hsound⟩, haged, hreplays⟩ := h
  have hquiet : ∀ reason : Refusal, Reaches p cfg listener reception start (state, [.refused reason]) :=
    fun reason => .quiet hsound haged hreplays rfl
  unfold confirmPending
  cases hload : loadMessage plaintext with
  | error e => exact hquiet _
  | ok message =>
    by_cases hconfirms : isSessionConfirmationPing message pending.stationId = true
    case neg =>
      rw [Bool.not_eq_true] at hconfirms
      simp only [hconfirms, Bool.not_false, if_true]
      exact hquiet _
    simp only [hconfirms, Bool.not_true, Bool.false_eq_true, if_false]
    have hsame := hlive.sameReplays_acceptPendingDataNonce pending nonce
    have hinvariant := (hsound.invariant.acceptPendingDataNonce pending nonce reception.monotonicNow).1
    rcases hlive.acceptPendingDataNonce_cases hsound.invariant pending nonce with
      ⟨result, haccept, hrefused⟩ | ⟨admitted, current, nonces, haccept, hadmits⟩
    · rw [haccept] at hsame hinvariant
      rw [haccept]
      exact .quiet ⟨hinvariant, hsound.keyed.aged hrefused⟩ (haged.trans hrefused)
        (hreplays.trans hsame) rfl
    rw [haccept] at hsame hinvariant
    rw [haccept]
    -- the object of the handle, with what has expired since it was looked up taken from its nonces
    have hfound := hadmits.found
    rw [haddress] at hfound
    obtain ⟨before, hbefore, hcurrent⟩ := haged.get?_pending hfound
    obtain rfl : before = pending := Option.some.inj (hbefore.symm.trans hstart)
    have hfacts := hcurrent.facts_eq
    simp only [PendingSecureSession.facts, Prod.mk.injEq] at hfacts
    obtain ⟨hnumber, hsameAddress, hstation, hkey, -, -⟩ := hfacts
    have hset := hadmits.pendings
    have hadmits' : AdmitsPending reception.monotonicNow nonce current current nonces state admitted := by
      rw [← hsameAddress] at hset
      exact { hadmits with
        found := hsameAddress ▸ hadmits.found
        number := rfl
        pendings := hset }
    have hkeyed := hsound.keyed.admitsPending hadmits
    have hlive' := hlive.admitsPending hadmits
    have hget : admitted.pendingSessions.records.get? reception.addr =
        some { current with seenDataNonces := nonces } := by
      rw [hset, haddress, Dict.get?_set, if_pos rfl]
    have hsame' := hlive'.sameReplays_promote reception.addr before
    have hinvariant' := hinvariant.promotePendingSession le_rfl reception.addr before
    obtain ⟨promoted, session, hpromote, hpromotes⟩ := hlive'.promotes hinvariant hget hnumber
    rw [hpromote] at hsame' hinvariant'
    have hkeyed' := hkeyed.promotes hpromotes
    have hlive'' := hlive'.afterPromotion hpromotes
    have hsame'' := hlive''.sameReplays_touch reception.addr session
    have hinvariant'' := hinvariant'.touchSession le_rfl reception.addr session
    obtain ⟨touched, htouch, htouches⟩ := hlive''.touches hpromotes.get? (rfl : session.number = session.number)
    rw [htouch] at hsame'' hinvariant''
    dsimp only
    rw [hpromote]
    dsimp only
    rw [htouch]
    have hdecrypts : Decrypts p reception current.clientToServerAesgcm nonce message := by
      rw [hkey]
      exact ⟨ciphertext, plaintext, hparse, hdecrypt, hload⟩
    have hconfirms' : isSessionConfirmationPing message current.stationId = true := by
      rw [hstation]
      exact hconfirms
    exact ⟨⟨hinvariant'', hkeyed'.touches htouches⟩, .confirmation hdecrypts hconfirms'
      (((hreplays.trans hsame).trans hsame').trans hsame'') haged (hsameAddress.trans haddress)
      hadmits' hpromotes htouches (admissions_sendPong p reception _ _ _)⟩

/-- The attempt with the pending session ends the pass or only ages the state. -/
lemma tryPending_cases {start : SecureState} {pending : Option PendingSecureSession}
    {nonce ciphertext : Bytes} (h : Opened cfg reception.monotonicNow start state)
    (hstart : ∀ found, pending = some found →
      start.pendingSessions.records.get? reception.addr = some found ∧ found.address = reception.addr)
    (hparse : parseSecureDataPacket reception.data = .ok (nonce, ciphertext)) :
    (∃ state', tryPending p cfg state reception nonce ciphertext pending = (state', none) ∧
        Opened cfg reception.monotonicNow start state') ∨
      ∃ state' events, tryPending p cfg state reception nonce ciphertext pending = (state', some events) ∧
        Reaches p cfg listener reception start (state', events) := by
  cases pending with
  | none => exact .inl ⟨state, rfl, h⟩
  | some pending =>
    obtain ⟨hget, haddress⟩ := hstart pending rfl
    have hopened := h.andThen
      (h.cleaned.sound.invariant.pendingDataNonceSeen pending nonce reception.monotonicNow)
      (h.cleaned.live.aged_pendingDataNonceSeen h.cleaned.sound.invariant pending nonce)
      (h.cleaned.live.sameReplays_pendingDataNonceSeen pending nonce)
    unfold tryPending
    obtain ⟨seenState, seen, hseen⟩ : ∃ seenState seen,
        state.pendingDataNonceSeen cfg pending nonce reception.monotonicNow = (seenState, seen) :=
      ⟨_, _, rfl⟩
    rw [hseen] at hopened
    dsimp only
    rw [hseen]
    cases seen with
    | true => exact .inl ⟨seenState, rfl, hopened⟩
    | false =>
      dsimp only
      cases hdecrypt : p.decrypt pending.clientToServerAesgcm nonce ciphertext dataAad with
      | none => exact .inl ⟨seenState, rfl, hopened⟩
      | some plaintext =>
        exact .inr ⟨_, _, rfl, reaches_confirmPending hopened hget haddress hparse hdecrypt⟩

/-! ### Data under the active session -/

lemma openMessage_ok {session : SecureSession} {nonce ciphertext : Bytes} {content : SecureMessage}
    (hparse : parseSecureDataPacket reception.data = .ok (nonce, ciphertext))
    (h : openMessage p session nonce ciphertext = .ok content) :
    ∃ message, Decrypts p reception session.clientToServerAesgcm nonce message ∧
      IsSecureMessage session.stationId message content := by
  simp only [openMessage, raising, bind_eq_ok_iff, mapError_eq_ok_iff, orRaise_eq_ok_iff] at h
  obtain ⟨plaintext, hdecrypt, message, hload, hcheck⟩ := h
  exact ⟨message, ⟨ciphertext, plaintext, hparse, hdecrypt, hload⟩, isSecureMessage_of_check hcheck⟩

lemma admissions_answer (session : SecureSession) (nonce : Bytes) (content : SecureMessage) :
    admissions (.nonceAdmitted session nonce :: answerMessage p listener reception session content) =
      ⟨messageFrames listener reception session.stationId content, [], [(session.number, nonce)]⟩ := by
  have hevents : admissions (.nonceAdmitted session nonce :: answerMessage p listener reception session content) =
      let answer := admissions (answerMessage p listener reception session content)
      { answer with nonces := (session.number, nonce) :: answer.nonces } := rfl
  rw [hevents]
  cases content with
  | ping sequence =>
    rw [answerMessage, admissions_sendPong]
    rfl
  | nmea payload =>
    simp only [answerMessage, messageFrames]
    cases messageFrame listener.secInputId session.stationId reception.addr payload with
    | error e => rfl
    | ok frame => cases frame <;> rfl

lemma reaches_handleActive {start : SecureState} {session : SecureSession} {nonce ciphertext : Bytes}
    (h : Opened cfg reception.monotonicNow start state)
    (hstart : start.sessions.records.get? reception.addr = some session)
    (haddress : session.address = reception.addr)
    (hparse : parseSecureDataPacket reception.data = .ok (nonce, ciphertext)) :
    Reaches p cfg listener reception start
      (handleActive p cfg listener state reception session nonce ciphertext) := by
  have hopened := h.andThen
    (h.cleaned.sound.invariant.dataNonceSeen session nonce reception.monotonicNow)
    (h.cleaned.live.aged_dataNonceSeen h.cleaned.sound.invariant session nonce)
    (h.cleaned.live.sameReplays_dataNonceSeen session nonce)
  unfold handleActive
  obtain ⟨seenState, seen, hseen⟩ : ∃ seenState seen,
      state.dataNonceSeen cfg session nonce reception.monotonicNow = (seenState, seen) := ⟨_, _, rfl⟩
  rw [hseen] at hopened
  rw [hseen]
  cases seen with
  | true => exact hopened.quiet rfl
  | false =>
    dsimp only
    cases hopen : openMessage p session nonce ciphertext with
    | error reason => exact hopened.quiet rfl
    | ok content =>
      obtain ⟨⟨hlive, hsound⟩, haged, hreplays⟩ := hopened
      have hsame := hlive.sameReplays_acceptDataNonce session nonce
      have hinvariant := (hsound.invariant.acceptDataNonce session nonce reception.monotonicNow).1
      dsimp only
      rcases hlive.acceptDataNonce_cases hsound.invariant session nonce with
        ⟨result, haccept, hrefused⟩ | ⟨admitted, current, nonces, haccept, hadmits⟩
      · rw [haccept] at hsame hinvariant
        rw [haccept]
        exact .quiet ⟨hinvariant, hsound.keyed.aged hrefused⟩ (haged.trans hrefused)
          (hreplays.trans hsame) rfl
      rw [haccept] at hsame hinvariant
      rw [haccept]
      have hfound := hadmits.found
      rw [haddress] at hfound
      obtain ⟨before, hbefore, hcurrent⟩ := haged.get?_session hfound
      obtain rfl : before = session := Option.some.inj (hbefore.symm.trans hstart)
      have hfacts := hcurrent.facts_eq
      simp only [SecureSession.facts, Prod.mk.injEq] at hfacts
      obtain ⟨hnumber, hsameAddress, hstation, hkey, -, -, -⟩ := hfacts
      have hset := hadmits.sessions
      have hadmits' : AdmitsData reception.monotonicNow nonce current current nonces seenState admitted := by
        rw [← hsameAddress] at hset
        exact { hadmits with
          found := hsameAddress ▸ hadmits.found
          number := rfl
          sessions := hset }
      have hkeyed := hsound.keyed.admitsData hadmits
      have hlive' := hlive.admitsData hadmits
      have hget : admitted.sessions.records.get? reception.addr =
          some { current with seenDataNonces := nonces } := by
        rw [hset, haddress, Dict.get?_set, if_pos rfl]
      have hsame' := hlive'.sameReplays_touch reception.addr before
      have hinvariant' := hinvariant.touchSession le_rfl reception.addr before
      obtain ⟨touched, htouch, htouches⟩ := hlive'.touches hget hnumber
      rw [htouch] at hsame' hinvariant'
      dsimp only
      rw [htouch]
      obtain ⟨message, hdecrypts, hmessage⟩ := openMessage_ok hparse hopen
      rw [← hkey] at hdecrypts
      rw [← hstation] at hmessage
      refine ⟨⟨hinvariant', hkeyed.touches htouches⟩, .data hdecrypts hmessage
        ((hreplays.trans hsame).trans hsame') haged (hsameAddress.trans haddress) hadmits' htouches ?_⟩
      rw [hstation, hnumber]
      exact admissions_answer before nonce content

/-! ### Passes -/

lemma reaches_handleData (h : Cleaned cfg reception.monotonicNow state) :
    Reaches p cfg listener reception state (handleData p cfg listener state reception) := by
  have hopened : Opened cfg reception.monotonicNow state state := .refl h
  have hpending : ∀ pending, state.pendingSessions.records.get? reception.addr = some pending →
      state.pendingSessions.records.get? reception.addr = some pending ∧ pending.address = reception.addr :=
    fun pending hget => ⟨hget, h.sound.keyed.pending hget⟩
  unfold handleData getPendingSession getActiveSession
  rw [h.live.cleanupPendings_eq]
  dsimp only
  rw [h.live.cleanupSessions_eq]
  dsimp only
  split
  · apply hopened.quiet
    exact admissions_sendto reception _
  · cases hparse : parseSecureDataPacket reception.data with
    | error e => exact hopened.quiet rfl
    | ok packet =>
      obtain ⟨nonce, ciphertext⟩ := packet
      dsimp only
      rcases @tryPending_cases _ _ p cfg listener reception state state _ nonce ciphertext hopened hpending
        hparse with ⟨state', htry, hopened'⟩ | ⟨state', events, htry, hreaches⟩
      · rw [htry]
        cases hsession : state.sessions.records.get? reception.addr with
        | none => exact hopened'.quiet rfl
        | some session =>
          exact reaches_handleActive hopened' hsession (h.sound.keyed.session hsession) hparse
      · rw [htry]
        exact hreaches

/-- An outcome after some expired records have left. -/
lemma Outcome.of_aged {start state' : SecureState} {admitted : Admissions}
    (haged : start.Aged cfg reception.monotonicNow state) (hreplays : SameReplays start state)
    (h : Outcome p cfg listener reception state state' admitted) :
    Outcome p cfg listener reception start state' admitted := by
  cases h with
  | quiet aged replays admitted_eq =>
    exact .quiet (haged.trans aged) (hreplays.aged_right replays) admitted_eq
  | hello prefix_eq authentic replays aged installs admitted_eq =>
    exact .hello prefix_eq authentic (.same_left hreplays replays) (haged.trans aged) installs admitted_eq
  | confirmation decrypts confirms replays aged address_eq admits promotes touches admitted_eq =>
    exact .confirmation decrypts confirms (hreplays.trans replays) (haged.trans aged) address_eq admits
      promotes touches admitted_eq
  | data decrypts valid replays aged address_eq admits touches admitted_eq =>
    exact .data decrypts valid (hreplays.trans replays) (haged.trans aged) address_eq admits touches
      admitted_eq

/-- One pass. -/
lemma reaches_receive {past : ℚ} (h : Sound cfg past state) (hle : past ≤ reception.monotonicNow) :
    Reaches p cfg listener reception state (receive p cfg listener state reception) := by
  have hinvariant : state.Invariant cfg 0 reception.monotonicNow := h.invariant.mono hle
  unfold receive
  split
  · exact .quiet ⟨hinvariant, h.keyed⟩ (.refl _ _ _) rfl rfl
  have haged := hinvariant.aged_cleanupSessions.trans
    (hinvariant.cleanupSessions reception.monotonicNow).aged_cleanupPendings
  have hreplays : SameReplays state ((state.cleanupExpiredSessions cfg reception.monotonicNow).1
      |>.cleanupExpiredPendingSessions cfg reception.monotonicNow).1 :=
    SameReplays.trans (sameReplays_cleanupSessionsLoop _ state) (sameReplays_cleanupPendingLoop _ _)
  have hsound : Sound cfg reception.monotonicNow
      ((state.cleanupExpiredSessions cfg reception.monotonicNow).1
        |>.cleanupExpiredPendingSessions cfg reception.monotonicNow).1 :=
    ⟨(hinvariant.cleanupSessions reception.monotonicNow).cleanupPendings reception.monotonicNow,
      h.keyed.aged haged⟩
  have hcleaned : Cleaned cfg reception.monotonicNow _ := ⟨hinvariant.live_cleaned, hsound⟩
  dsimp only
  split
  · next hhead =>
    have hreaches := @reaches_clientHello _ _ p cfg listener reception _ hcleaned hhead
    exact ⟨hreaches.sound, hreaches.outcome.of_aged haged hreplays⟩
  · split
    · have hreaches := @reaches_handleData _ _ p cfg listener reception _ hcleaned
      exact ⟨hreaches.sound, hreaches.outcome.of_aged haged hreplays⟩
    · exact .quiet hsound haged hreplays rfl

/-- Passes in the order of time leave the state sound. -/
lemma sound_receiveAll {past : ℚ} {passes : List (Listener Private Public × Reception Private)}
    (h : Sound cfg past state) (htimes : (passes.map (fun pass => pass.2.monotonicNow)).Pairwise (· ≤ ·))
    (hpast : ∀ pass ∈ passes, past ≤ pass.2.monotonicNow) (hnow : ∀ pass ∈ passes, pass.2.monotonicNow ≤ now)
    (hle : past ≤ now) : Sound cfg now (receiveAll p cfg state passes) := by
  induction passes generalizing past state with
  | nil => exact ⟨h.invariant.mono hle, h.keyed⟩
  | cons pass passes ih =>
    rw [List.map_cons, List.pairwise_cons] at htimes
    have hreaches := @reaches_receive _ _ p cfg pass.1 pass.2 _ _ h (hpast pass List.mem_cons_self)
    apply ih hreaches.sound htimes.2
    · intro later hlater
      exact htimes.1 _ (List.mem_map_of_mem hlater)
    · intro later hlater
      exact hnow later (List.mem_cons_of_mem _ hlater)
    · exact hnow pass List.mem_cons_self

/-- The state before the last of some passes in the order of time. -/
lemma sound_run {passes : List (Listener Private Public × Reception Private)}
    (htimes : ((passes ++ [(listener, reception)]).map (fun pass => pass.2.monotonicNow)).Pairwise (· ≤ ·)) :
    Sound cfg reception.monotonicNow (receiveAll p cfg (.init cfg) passes) := by
  rw [List.map_append, List.pairwise_append] at htimes
  obtain ⟨hbefore, -, hlast⟩ := htimes
  have hnow : ∀ pass ∈ passes, pass.2.monotonicNow ≤ reception.monotonicNow := by
    intro pass hpass
    exact hlast _ (List.mem_map_of_mem hpass) _ (List.mem_singleton_self _)
  cases passes with
  | nil => exact sound_init cfg _
  | cons first rest =>
    apply sound_receiveAll (sound_init cfg first.2.monotonicNow) hbefore _ hnow (hnow first List.mem_cons_self)
    intro pass hpass
    rcases List.mem_cons.mp hpass with rfl | hlater
    · exact le_rfl
    · rw [List.map_cons, List.pairwise_cons] at hbefore
      exact hbefore.1 _ (List.mem_map_of_mem hlater)

end Outcomes

/-- In whatever state passes in the order of time have left behind, a pass does no more than to remove
what has expired, unless its datagram is an authentic ClientHello, the confirmation of a pending session
or a valid message of an active one. -/
theorem only_authenticated_packets (p : Primitives Private Public) (cfg : SecureSettings)
    (passes : List (Listener Private Public × Reception Private)) (listener : Listener Private Public)
    (reception : Reception Private)
    (htimes : ((passes ++ [(listener, reception)]).map (fun pass => pass.2.monotonicNow)).Pairwise (· ≤ ·)) :
    let state := receiveAll p cfg (.init cfg) passes
    let result := receive p cfg listener state reception
    Outcome p cfg listener reception state result.1 (admissions result.2) :=
  (reaches_receive (sound_run htimes) le_rfl).outcome

/-! ### A station in the harbour -/

/-- Primitives whose keys are the last octets of what they are derived from, up to a remainder. -/
def harbourPrimitives : Primitives Nat Nat :=
  { exponentPrimitives with
    hkdf := fun salt info key => bigEndian 32 (fromBigEndian (salt ++ info ++ key) % (2 ^ 256 - 189)) }

def harbourListener : Listener Nat Nat where
  allows _ := true
  authorizedKeys := Dict.empty.set (str "boat1") (harbourPrimitives.publicKey 7)
  serverPriv := 5
  secInputId := none

def harbourReception (data : Bytes) (monotonicNow : ℚ) : Reception Nat where
  data := data
  addr := harbourAddress
  monotonicNow := monotonicNow
  wallNow := 1000 + monotonicNow
  serverRandom := List.replicate 32 2
  serverEphemeral := 11
  signatureDraw := []
  nonce := List.replicate 12 9
  sendFails := false

/-- The ClientHello of a station. -/
def harbourHello (timestamp : Int) : Except PyException Bytes := do
  let clientRandom := List.replicate 32 1
  let ephemeral ← serializeEphemeralPublicKey harbourPrimitives (harbourPrimitives.publicKey 3)
  let digest ← buildClientAuthDigest harbourPrimitives.sha256 (str "boat1") timestamp clientRandom ephemeral
  let signature ← signTranscriptDigest harbourPrimitives 7 digest []
  let hello ← makeClientHello (str "boat1") timestamp clientRandom ephemeral signature
  buildClientHelloPacket hello

/-- A datagram that reaches the listener. -/
def harbourPass (packet : Except PyException Bytes) (monotonicNow : ℚ) : Listener Nat Nat × Reception Nat :=
  (harbourListener, harbourReception (packet.toOption.getD []) monotonicNow)

/-- The key that the station and the server agree on for what the station sends. -/
def harbourKey : Bytes :=
  let pass := harbourPass (harbourHello 1000) 0
  let state := (receive harbourPrimitives defaultSettings pass.1 (.init defaultSettings) pass.2).1
  ((state.pendingSessions.records.get? harbourAddress).map (fun pending => pending.clientToServerAesgcm)).getD []

/-- A packet of the station. -/
def harbourData (nonce : UInt8) (message : Json) : Except PyException Bytes :=
  let iv := List.replicate 12 nonce
  (messageText message).map (fun plaintext =>
    dataPrefix ++ iv ++ harbourPrimitives.encrypt harbourKey iv plaintext dataAad)

def harbourPing (sequence : Int) : Json :=
  .obj [(str "type", .str (str "ping")), (str "seq", .int sequence), (str "timestamp", .int 1000),
    (str "source_id", .str (str "boat1"))]

/-- The confirmation of the station promotes its pending session. -/
theorem only_authenticated_packets_harbour :
    let state := receiveAll harbourPrimitives defaultSettings (.init defaultSettings)
      [harbourPass (harbourHello 1000) 0]
    let pass := harbourPass (harbourData 1 (harbourPing 0)) 1
    let result := receive harbourPrimitives defaultSettings pass.1 state pass.2
    Outcome harbourPrimitives defaultSettings pass.1 pass.2 state result.1 (admissions result.2) ∧
      result.1.sessions.records.keys = [harbourAddress] := by
  refine ⟨only_authenticated_packets harbourPrimitives defaultSettings _ _ _ ?_, by decide +kernel⟩
  simp only [List.cons_append, List.nil_append, List.map_cons, List.map_nil, List.pairwise_cons, harbourPass,
    harbourReception]
  norm_num

end AisMixer.Udpsec

import AisMixer.Udpsec.SessionKeys

/-!
# What genuine datagrams lead to

Whatever else the state holds, a fresh ClientHello leads to a pending session, its confirmation to the
active session, and a message of the active session to its frame or its pong.
-/

namespace AisMixer.Udpsec

open AisMixer.Library

/-! ### New keys -/

/-- The key is of no record that a lookup would find. -/
def Unseen (now : ℚ) (key : Bytes) (set : BoundedExpiringSet Bytes) : Prop :=
  ∀ r ∈ BoundedExpiringSet.liveAt now set.expiryOrder, r.key ≠ key

section Sets

variable {ttl now : ℚ} {bound : Nat} {set set' : BoundedExpiringSet Bytes} {key : Bytes}

variable (now key) in
lemma unseen_of_empty (h : set.expiryOrder = []) : Unseen now key set := by
  rw [Unseen, h]
  intro r hr
  cases hr

lemma accept_unseen (h : BoundedSet ttl bound set) (hbound : 1 ≤ bound) (hunseen : Unseen now key set) :
    ∃ admission, (set.accept key now).2 = .ok admission ∧ admission.accepted = true := by
  have hmax : 0 < set.maxEntries := by
    rw [h.bound_eq]
    omega
  obtain ⟨-, -, -, admission, hadmission, -, hcase⟩ :=
    BoundedExpiringSet.accept_spec h.consistent hmax key now
  refine ⟨admission, hadmission, ?_⟩
  rcases hcase with ⟨-, -, ⟨r, hr, hkey⟩, -⟩ | ⟨haccepted, -⟩
  · exact (hunseen r hr hkey).elim
  · exact haccepted

lemma contains_unseen (h : BoundedSet ttl bound set) (hunseen : Unseen now key set) :
    (set.contains key now).2.1 = false := by
  obtain ⟨-, -, -, -, hseen⟩ := BoundedExpiringSet.contains_spec h.consistent key now
  rw [Bool.eq_false_iff]
  intro hcontra
  obtain ⟨r, hr, hkey⟩ := hseen.mp hcontra
  exact hunseen r hr hkey

/-- After an admission a set holds what it held, and the new key. -/
lemma Admitted.keys (h : Admitted now key set set') {r : ExpiringRecord Bytes} (hr : r ∈ set'.expiryOrder) :
    r ∈ set.expiryOrder ∨ r.key = key := by
  obtain ⟨live, number, dropped, hfades, horder, -⟩ := h.records
  rw [horder] at hr
  rcases List.mem_append.mp hr with hold | hnew
  · exact .inl (hfades.sublist_of_eq.subset ((List.drop_sublist _ _).subset hold))
  · obtain rfl := List.mem_singleton.mp hnew
    exact .inr rfl

end Sets

namespace SecureState

variable {cfg : SecureSettings} {now past : ℚ} {state state' : SecureState} {addr : Address} {nonce : Bytes}

/-! ### Records that stay -/

lemma AgedEntry.sessionSecrets {session session' : SecureSession}
    (h : AgedSession now (addr, session) (addr, session')) : session'.secrets = session.secrets := by
  have hfacts := h.facts_eq
  simp only [SecureSession.facts, Prod.mk.injEq] at hfacts
  simp only [SecureSession.secrets, hfacts]

lemma AgedEntry.pendingSecrets {pending pending' : PendingSecureSession}
    (h : AgedPending now (addr, pending) (addr, pending')) : pending'.secrets = pending.secrets := by
  have hfacts := h.facts_eq
  simp only [PendingSecureSession.facts, Prod.mk.injEq] at hfacts
  simp only [PendingSecureSession.secrets, hfacts]

/-- A live session stays where it is when a state ages. -/
lemma Aged.session_stays (h : Aged cfg now state state') {session : SecureSession}
    (hget : state.sessions.records.get? addr = some session) (hlive : LiveSession cfg now session) :
    ∃ session', state'.sessions.records.get? addr = some session' ∧
      AgedSession now (addr, session) (addr, session') := by
  rcases h.sessions.mem_left ((Dict.get?_eq_some_iff _ _ _).mp hget) with hgone | ⟨⟨addr', session'⟩, hmem, hsame⟩
  · exact (hgone hlive).elim
  · obtain rfl : addr' = addr := hsame.address_eq
    exact ⟨session', (Dict.get?_eq_some_iff _ _ _).mpr hmem, hsame⟩

lemma Aged.pending_stays (h : Aged cfg now state state') {pending : PendingSecureSession}
    (hget : state.pendingSessions.records.get? addr = some pending) (hlive : LivePending cfg now pending) :
    ∃ pending', state'.pendingSessions.records.get? addr = some pending' ∧
      AgedPending now (addr, pending) (addr, pending') := by
  rcases h.pendings.mem_left ((Dict.get?_eq_some_iff _ _ _).mp hget) with hgone | ⟨⟨addr', pending'⟩, hmem, hsame⟩
  · exact (hgone hlive).elim
  · obtain rfl : addr' = addr := hsame.address_eq
    exact ⟨pending', (Dict.get?_eq_some_iff _ _ _).mpr hmem, hsame⟩

lemma Aged.no_pending (h : Aged cfg now state state')
    (hnone : state.pendingSessions.records.get? addr = none) :
    state'.pendingSessions.records.get? addr = none := by
  cases hget : state'.pendingSessions.records.get? addr with
  | none => rfl
  | some pending =>
    obtain ⟨before, hbefore, -⟩ := h.get?_pending hget
    rw [hnone] at hbefore
    cases hbefore

/-! ### Admissions that succeed -/

lemma liveSession_self {session current : SecureSession}
    (hget : state.sessions.records.get? addr = some current) (hnumber : current.number = session.number) :
    state.liveSession addr session = some current := by
  rw [liveSession, hget, Option.filter_some, beq_iff_eq.mpr hnumber, if_pos rfl]

lemma livePending_self {pending current : PendingSecureSession}
    (hget : state.pendingSessions.records.get? addr = some current) (hnumber : current.number = pending.number) :
    state.livePending addr pending = some current := by
  rw [livePending, hget, Option.filter_some, beq_iff_eq.mpr hnumber, if_pos rfl]

lemma Live.dataNonceSeen_unseen (hlive : Live cfg now state) (h : Invariant cfg 0 past state)
    {session current : SecureSession} (hget : state.sessions.records.get? session.address = some current)
    (hnumber : current.number = session.number) (hunseen : Unseen now nonce current.seenDataNonces) :
    (state.dataNonceSeen cfg session nonce now).2 = false := by
  rw [SecureState.dataNonceSeen, hlive.sessionHandle_eq, liveSession_self hget hnumber]
  exact contains_unseen (h.sessionNonceSet hget) hunseen

lemma Live.pendingDataNonceSeen_unseen (hlive : Live cfg now state) (h : Invariant cfg 0 past state)
    {pending current : PendingSecureSession}
    (hget : state.pendingSessions.records.get? pending.address = some current)
    (hnumber : current.number = pending.number) (hunseen : Unseen now nonce current.seenDataNonces) :
    (state.pendingDataNonceSeen cfg pending nonce now).2 = false := by
  rw [SecureState.pendingDataNonceSeen, hlive.pendingHandle_eq, livePending_self hget hnumber]
  exact contains_unseen (h.pendingNonceSet hget) hunseen

lemma Live.acceptDataNonce_unseen (hlive : Live cfg now state) (h : Invariant cfg 0 past state)
    {session current : SecureSession} (hget : state.sessions.records.get? session.address = some current)
    (hnumber : current.number = session.number) (hunseen : Unseen now nonce current.seenDataNonces) :
    ∃ result nonces, state.acceptDataNonce cfg session nonce now = (result, .ok true) ∧
      AdmitsData now nonce session current nonces state result := by
  have htrue : (state.acceptDataNonce cfg session nonce now).2 = .ok true := by
    obtain ⟨admission, hadmission, haccepted⟩ := accept_unseen (h.sessionNonceSet hget) cfg.limits.2.2.1 hunseen
    rw [SecureState.acceptDataNonce, hlive.sessionHandle_eq, liveSession_self hget hnumber]
    dsimp only
    generalize current.seenDataNonces.accept nonce now = accepted at hadmission ⊢
    obtain ⟨nonces, result⟩ := accepted
    dsimp only at hadmission ⊢
    subst hadmission
    exact congrArg Except.ok ((accountAdmission_frame _ admission).2.2.2.trans haccepted)
  rcases hlive.acceptDataNonce_cases h session nonce with ⟨result, haccept, -⟩ |
    ⟨result, current', nonces, haccept, hadmits⟩
  · rw [haccept] at htrue
    cases htrue
  · obtain rfl := Option.some.inj (hget.symm.trans hadmits.found)
    exact ⟨result, nonces, haccept, hadmits⟩

lemma Live.acceptPendingDataNonce_unseen (hlive : Live cfg now state) (h : Invariant cfg 0 past state)
    {pending current : PendingSecureSession}
    (hget : state.pendingSessions.records.get? pending.address = some current)
    (hnumber : current.number = pending.number) (hunseen : Unseen now nonce current.seenDataNonces) :
    ∃ result nonces, state.acceptPendingDataNonce cfg pending nonce now = (result, .ok true) ∧
      AdmitsPending now nonce pending current nonces state result := by
  have htrue : (state.acceptPendingDataNonce cfg pending nonce now).2 = .ok true := by
    obtain ⟨admission, hadmission, haccepted⟩ := accept_unseen (h.pendingNonceSet hget) cfg.limits.2.2.1 hunseen
    rw [SecureState.acceptPendingDataNonce, hlive.pendingHandle_eq, livePending_self hget hnumber]
    dsimp only
    generalize current.seenDataNonces.accept nonce now = accepted at hadmission ⊢
    obtain ⟨nonces, result⟩ := accepted
    dsimp only at hadmission ⊢
    subst hadmission
    exact congrArg Except.ok ((accountAdmission_frame _ admission).2.2.2.trans haccepted)
  rcases hlive.acceptPendingDataNonce_cases h pending nonce with ⟨result, haccept, -⟩ |
    ⟨result, current', nonces, haccept, hadmits⟩
  · rw [haccept] at htrue
    cases htrue
  · obtain rfl := Option.some.inj (hget.symm.trans hadmits.found)
    exact ⟨result, nonces, haccept, hadmits⟩

lemma Invariant.acceptHandshakeReplay_unseen (h : Invariant cfg 0 now state) {key : Bytes}
    (hunseen : Unseen now key state.handshakeReplays) :
    ∃ result, state.acceptHandshakeReplay key now = (result, .ok true) ∧
      result.sessions = state.sessions ∧ result.pendingSessions = state.pendingSessions ∧
      result.nextNumber = state.nextNumber ∧ result.activity = state.activity := by
  have htrue : (state.acceptHandshakeReplay key now).2 = .ok true := by
    obtain ⟨admission, hadmission, haccepted⟩ := accept_unseen h.replays.set cfg.limits.2.1 hunseen
    rw [SecureState.acceptHandshakeReplay]
    generalize state.handshakeReplays.accept key now = accepted at hadmission ⊢
    obtain ⟨replays, result⟩ := accepted
    dsimp only at hadmission ⊢
    subst hadmission
    simp only [haccepted, Bool.not_true, Bool.false_eq_true, if_false]
  obtain ⟨result, accepted, haccept, hsessions, hpendings, hnext, hactivity, -⟩ :=
    h.acceptHandshakeReplay_cases key
  rw [haccept] at htrue
  obtain rfl := Except.ok.inj htrue
  exact ⟨result, haccept, hsessions, hpendings, hnext, hactivity⟩

/-! ### What stands at an address -/

/-- A pending session that has seen no nonce yet. -/
def PendingAt (state : SecureState) (addr : Address) (secrets : SessionSecrets) (createdAt : ℚ) : Prop :=
  ∃ pending, state.pendingSessions.records.get? addr = some pending ∧ pending.secrets = secrets ∧
    pending.createdAt = createdAt ∧ pending.seenDataNonces.expiryOrder = []

/-- An active session that has seen no other nonces than some, and no pending one. -/
structure ActiveAt (state : SecureState) (addr : Address) (secrets : SessionSecrets) (lastSeen : ℚ)
    (used : List Bytes) : Prop where
  session : ∃ session, state.sessions.records.get? addr = some session ∧ session.secrets = secrets ∧
    session.lastSeen = lastSeen ∧ ∀ r ∈ session.seenDataNonces.expiryOrder, r.key ∈ used
  alone : state.pendingSessions.records.get? addr = none

end SecureState

/-! ### Passes -/

section Passes

open SecureState

variable {Private Public : Type} {p : Primitives Private Public} {cfg : SecureSettings}
  {listener : Listener Private Public} {reception : Reception Private} {state : SecureState} {past : ℚ}

lemma cleaned_of_sound (h : Sound cfg past state) (hle : past ≤ reception.monotonicNow) :
    let cleaned := ((state.cleanupExpiredSessions cfg reception.monotonicNow).1.cleanupExpiredPendingSessions
      cfg reception.monotonicNow).1
    Cleaned cfg reception.monotonicNow cleaned ∧ state.Aged cfg reception.monotonicNow cleaned ∧
      SameReplays state cleaned := by
  have hinvariant : state.Invariant cfg 0 reception.monotonicNow := h.invariant.mono hle
  have haged := hinvariant.aged_cleanupSessions.trans
    (hinvariant.cleanupSessions reception.monotonicNow).aged_cleanupPendings
  refine ⟨⟨hinvariant.live_cleaned, ?_, h.keyed.aged haged⟩, haged, ?_⟩
  · exact (hinvariant.cleanupSessions reception.monotonicNow).cleanupPendings reception.monotonicNow
  · exact SameReplays.trans (sameReplays_cleanupSessionsLoop _ state) (sameReplays_cleanupPendingLoop _ _)

/-! #### ClientHello -/

lemma clientHelloPrefix_of_parse {data : Bytes} {hello : ClientHello}
    (h : parseClientHelloPacket data = .ok hello) : clientHelloPrefix.isPrefixOf data = true := by
  have hbuild := build_parse_clientHello h
  rw [buildClientHelloPacket_eq] at hbuild
  rw [← Except.ok.inj hbuild]
  rfl

lemma authenticateHello_eq {hello : ClientHello} {replayKey : Bytes} {clientEphemeral : Public}
    (h : FreshHello p listener reception hello replayKey)
    (hephemeral : parseEphemeralPublicKey p hello.clientEphemeralPublicKey = .ok clientEphemeral) :
    authenticateHello p listener reception = .ok ⟨hello, clientEphemeral, replayKey⟩ := by
  obtain ⟨identity, digest, hidentity, hdigest, hverified, hreplayKey⟩ := h.signed
  have hfresh : ¬30 < |reception.wallNow - hello.timestamp| := not_lt.mpr h.fresh
  simp only [authenticateHello, raising, h.parsed, hidentity, hdigest, hverified, hephemeral, hreplayKey, orRaise,
    Except.mapError, Bind.bind, Except.bind, hfresh, if_false, Bool.not_true, Bool.false_eq_true, Pure.pure,
    Except.pure]

/-- A fresh ClientHello leads to a pending session with the keys that the answer lets its sender derive. -/
lemma receive_hello (h : Sound cfg past state) (hle : past ≤ reception.monotonicNow)
    (hallows : listener.allows reception.addr.host = true) {hello : ClientHello} {replayKey : Bytes}
    {clientEphemeral : Public} {handshake : ServerHandshake}
    (hfresh : FreshHello p listener reception hello replayKey)
    (hephemeral : parseEphemeralPublicKey p hello.clientEphemeralPublicKey = .ok clientEphemeral)
    (hbuild : buildServerHandshake p listener hello clientEphemeral reception = .ok handshake)
    (hunseen : Unseen reception.monotonicNow replayKey state.handshakeReplays) :
    ∃ result pending, receive p cfg listener state reception =
        (result, .helloAdmitted hello :: .installed pending hello reception.serverEphemeral handshake ::
          sendto reception handshake.responsePacket) ∧
      Sound cfg reception.monotonicNow result ∧
      PendingAt result reception.addr
        ⟨hello.stationId, handshake.keys.clientToServerKey, handshake.keys.serverToClientKey⟩
        reception.monotonicNow := by
  have hsound := (@reaches_receive _ _ p cfg listener reception _ _ h hle).sound
  obtain ⟨hcleaned, -, hreplays⟩ := @cleaned_of_sound _ cfg reception _ _ h hle
  unfold receive at hsound ⊢
  simp only [hallows, Bool.not_true, Bool.false_eq_true, if_false, clientHelloPrefix_of_parse hfresh.parsed,
    if_true] at hsound ⊢
  generalize ((state.cleanupExpiredSessions cfg reception.monotonicNow).1.cleanupExpiredPendingSessions
    cfg reception.monotonicNow).1 = cleaned at hcleaned hreplays hsound ⊢
  have hunseen' : Unseen reception.monotonicNow replayKey cleaned.handshakeReplays := by
    rw [show cleaned.handshakeReplays = state.handshakeReplays from congrArg Prod.fst hreplays]
    exact hunseen
  obtain ⟨admitted, haccept, hsessions, hpendings, hnext, hactivity⟩ :=
    hcleaned.sound.invariant.acceptHandshakeReplay_unseen hunseen'
  have hlive := hcleaned.live.aged (.of_same hsessions hpendings hnext hactivity)
  have hinvariant := (hcleaned.sound.invariant.acceptHandshakeReplay replayKey reception.monotonicNow).1
  rw [haccept] at hinvariant
  simp only [handleClientHello, authenticateHello_eq hfresh hephemeral, haccept, hbuild] at hsound ⊢
  have hinstalls := hlive.installs hinvariant reception.addr hello.stationId handshake.keys.clientToServerKey
    handshake.keys.serverToClientKey
  refine ⟨_, _, rfl, hsound, _, ?_, rfl, rfl, hinstalls.nonces⟩
  obtain ⟨kept, -, hentries⟩ := hinstalls.pendings
  rw [Dict.get?_eq_some_iff, hentries]
  exact List.mem_append_right _ (List.mem_singleton_self _)

/-! #### Confirmation -/

lemma dataPrefix_of_parse {data nonce ciphertext : Bytes}
    (h : parseSecureDataPacket data = .ok (nonce, ciphertext)) :
    dataPrefix.isPrefixOf data = true ∧ clientHelloPrefix.isPrefixOf data = false := by
  unfold parseSecureDataPacket at h
  split at h
  · cases h
  next hhead =>
  have hdata : dataPrefix.isPrefixOf data = true := by simpa using hhead
  refine ⟨hdata, ?_⟩
  obtain ⟨rest, rfl⟩ := List.isPrefixOf_iff_prefix.mp hdata
  rfl

lemma unseen_of_aged_empty {set set' : BoundedExpiringSet Bytes} {now : ℚ} (h : set.expiryOrder = [])
    (haged : AgedSet now set set') : set'.expiryOrder = [] := by
  have hsub := haged.records.sublist_of_eq
  rw [h] at hsub
  exact List.sublist_nil.mp hsub

/-- The pending session is promoted, and the pong goes out under its key. -/
lemma confirmPending_promotes (hcleaned : Cleaned cfg reception.monotonicNow state)
    {pending current : PendingSecureSession} {nonce plaintext : Bytes} {message : Json}
    (haddress : pending.address = reception.addr)
    (hget : state.pendingSessions.records.get? reception.addr = some current)
    (hnumber : current.number = pending.number) (hsecrets : current.secrets = pending.secrets)
    (hempty : current.seenDataNonces.expiryOrder = []) (hload : loadMessage plaintext = .ok message)
    (hconfirms : isSessionConfirmationPing message pending.stationId = true) :
    ∃ result session, confirmPending p cfg state reception pending nonce plaintext =
        (result, .promoted pending session ::
          sendPong p reception pending.serverToClientAesgcm sessionConfirmationSequence pending.stationId) ∧
      session.secrets = pending.secrets ∧
      ActiveAt result reception.addr pending.secrets reception.monotonicNow [nonce] := by
  have hgetAddress : state.pendingSessions.records.get? pending.address = some current := haddress ▸ hget
  obtain ⟨admitted, nonces, haccept, hadmits⟩ := hcleaned.live.acceptPendingDataNonce_unseen
    hcleaned.sound.invariant hgetAddress hnumber (unseen_of_empty reception.monotonicNow nonce hempty)
  have hinvariant := (hcleaned.sound.invariant.acceptPendingDataNonce pending nonce reception.monotonicNow).1
  rw [haccept] at hinvariant
  have hlive' := hcleaned.live.admitsPending hadmits
  have hget' : admitted.pendingSessions.records.get? reception.addr =
      some { current with seenDataNonces := nonces } := by
    rw [hadmits.pendings, haddress, Dict.get?_set, if_pos rfl]
  obtain ⟨promoted, session, hpromote, hpromotes⟩ := hlive'.promotes hinvariant hget' hnumber
  have hlive'' := hlive'.afterPromotion hpromotes
  obtain ⟨touched, htouch, htouches⟩ := hlive''.touches hpromotes.get? (rfl : session.number = session.number)
  have hsession : session.secrets = current.secrets := by
    rw [hpromotes.promoted]
    rfl
  have hsame := hsession.trans hsecrets
  simp only [SecureSession.secrets, PendingSecureSession.secrets, SessionSecrets.mk.injEq] at hsame
  obtain ⟨hstation, -, hkey⟩ := hsame
  refine ⟨touched, session, ?_, hsession.trans hsecrets, ?_, ?_⟩
  · simp only [confirmPending, hload, hconfirms, Bool.not_true, Bool.false_eq_true, if_false, haccept, hpromote,
      htouch, hstation, hkey]
  · obtain ⟨before, after, -, hentries⟩ := htouches.sessions
    refine ⟨{ session with lastSeen := reception.monotonicNow }, ?_, hsession.trans hsecrets, rfl, ?_⟩
    · rw [Dict.get?_eq_some_iff, hentries]
      exact List.mem_append_right _ (List.mem_singleton_self _)
    · intro r hr
      have hnonces : session.seenDataNonces = nonces := by rw [hpromotes.promoted]
      have hr' : r ∈ nonces.expiryOrder := hnonces ▸ hr
      rcases hadmits.admitted.keys hr' with hold | hnew
      · rw [hempty] at hold
        cases hold
      · rw [hnew]
        exact List.mem_singleton_self _
  · rw [htouches.pendings, hpromotes.pendings, Dict.get?_erase, if_pos rfl]

/-- The confirmation of a pending session makes it the active one, and is answered. -/
lemma receive_confirmation (h : Sound cfg past state) (hle : past ≤ reception.monotonicNow)
    (hallows : listener.allows reception.addr.host = true) {secrets : SessionSecrets} {createdAt : ℚ}
    {nonce : Bytes} {message : Json} (hpending : PendingAt state reception.addr secrets createdAt)
    (hlive : reception.monotonicNow < createdAt + cfg.pendingSessionTtl)
    (hdecrypts : Decrypts p reception secrets.clientToServerKey nonce message)
    (hconfirms : isSessionConfirmationPing message secrets.stationId = true) :
    ∃ result pending session, receive p cfg listener state reception =
        (result, .promoted pending session ::
          sendPong p reception secrets.serverToClientKey sessionConfirmationSequence secrets.stationId) ∧
      session.secrets = secrets ∧ Sound cfg reception.monotonicNow result ∧
      ActiveAt result reception.addr secrets reception.monotonicNow [nonce] := by
  have hsound := (@reaches_receive _ _ p cfg listener reception _ _ h hle).sound
  obtain ⟨hcleaned, haged, -⟩ := @cleaned_of_sound _ cfg reception _ _ h hle
  obtain ⟨ciphertext, plaintext, hparse, hdecrypt, hload⟩ := hdecrypts
  obtain ⟨hdata, hhello⟩ := dataPrefix_of_parse hparse
  obtain ⟨stored, hstored, hsecrets, hcreated, hempty⟩ := hpending
  have hlivePending : LivePending cfg reception.monotonicNow stored := by
    rw [LivePending, hcreated]
    exact hlive
  obtain ⟨pending, hget, hsame⟩ := haged.pending_stays hstored hlivePending
  have hpendingSecrets : pending.secrets = secrets := (AgedEntry.pendingSecrets hsame).trans hsecrets
  have hpendingEmpty := unseen_of_aged_empty hempty hsame.nonces_aged
  unfold receive at hsound ⊢
  simp only [hallows, Bool.not_true, Bool.false_eq_true, if_false, hhello, hdata, if_true] at hsound ⊢
  generalize ((state.cleanupExpiredSessions cfg reception.monotonicNow).1.cleanupExpiredPendingSessions
    cfg reception.monotonicNow).1 = cleaned at hcleaned hget hsound ⊢
  have haddress := hcleaned.sound.keyed.pending hget
  have hopened : Opened cfg reception.monotonicNow cleaned cleaned := .refl hcleaned
  have hgetAddress : cleaned.pendingSessions.records.get? pending.address = some pending := haddress ▸ hget
  have hseen := hcleaned.live.pendingDataNonceSeen_unseen hcleaned.sound.invariant hgetAddress rfl
    (unseen_of_empty reception.monotonicNow nonce hpendingEmpty)
  have hopened' := hopened.andThen
    (hcleaned.sound.invariant.pendingDataNonceSeen pending nonce reception.monotonicNow)
    (hcleaned.live.aged_pendingDataNonceSeen hcleaned.sound.invariant pending nonce)
    (hcleaned.live.sameReplays_pendingDataNonceSeen pending nonce)
  have hlivePending' : LivePending cfg reception.monotonicNow pending :=
    hcleaned.live.pendings _ ((Dict.get?_eq_some_iff _ _ _).mp hget)
  simp only [handleData, getPendingSession, getActiveSession, hcleaned.live.cleanupPendings_eq,
    hcleaned.live.cleanupSessions_eq, hget, Option.isNone_some, Bool.false_and, Bool.false_eq_true, if_false,
    hparse, tryPending] at hsound ⊢
  generalize cleaned.pendingDataNonceSeen cfg pending nonce reception.monotonicNow = seen
    at hseen hopened' hsound ⊢
  obtain ⟨seenState, flag⟩ := seen
  obtain rfl : flag = false := hseen
  obtain ⟨current, hcurrent, hsame'⟩ := hopened'.aged.pending_stays hget hlivePending'
  have hcurrentSecrets := AgedEntry.pendingSecrets hsame'
  have hnumber : current.number = pending.number := congrArg (fun facts => facts.1) hsame'.facts_eq
  have hcurrentEmpty := unseen_of_aged_empty hpendingEmpty hsame'.nonces_aged
  subst hpendingSecrets
  have hdecrypt' : p.decrypt pending.clientToServerAesgcm nonce ciphertext dataAad = some plaintext := hdecrypt
  obtain ⟨result, session, hconfirm, hsession, hactive⟩ := @confirmPending_promotes _ _ p cfg reception seenState
    hopened'.cleaned pending current nonce plaintext message haddress hcurrent hnumber hcurrentSecrets
    hcurrentEmpty hload hconfirms
  simp only [hdecrypt', hconfirm] at hsound ⊢
  exact ⟨result, pending, session, rfl, hsession, hsound, hactive⟩

/-! #### Messages -/

/-- A new message of the active session is answered. -/
lemma receive_message (h : Sound cfg past state) (hle : past ≤ reception.monotonicNow)
    (hallows : listener.allows reception.addr.host = true) {secrets : SessionSecrets} {lastSeen : ℚ}
    {used : List Bytes} {nonce : Bytes} {message : Json} {content : SecureMessage}
    (hactive : ActiveAt state reception.addr secrets lastSeen used)
    (hlive : reception.monotonicNow - lastSeen < cfg.sessionTtl) (hnew : nonce ∉ used)
    (hdecrypts : Decrypts p reception secrets.clientToServerKey nonce message)
    (hcheck : checkMessage secrets.stationId message = .ok content) :
    ∃ result session, receive p cfg listener state reception =
        (result, .nonceAdmitted session nonce :: answerMessage p listener reception session content) ∧
      session.secrets = secrets ∧ Sound cfg reception.monotonicNow result ∧
      ActiveAt result reception.addr secrets reception.monotonicNow (nonce :: used) := by
  have hsound := (@reaches_receive _ _ p cfg listener reception _ _ h hle).sound
  obtain ⟨hcleaned, haged, -⟩ := @cleaned_of_sound _ cfg reception _ _ h hle
  obtain ⟨ciphertext, plaintext, hparse, hdecrypt, hload⟩ := hdecrypts
  obtain ⟨hdata, hhello⟩ := dataPrefix_of_parse hparse
  obtain ⟨⟨stored, hstored, hsecrets, hseenAt, hused⟩, halone⟩ := hactive
  have hliveSession : LiveSession cfg reception.monotonicNow stored := by
    rw [LiveSession, hseenAt]
    exact hlive
  obtain ⟨session, hget, hsame⟩ := haged.session_stays hstored hliveSession
  have hsessionSecrets : session.secrets = secrets := (AgedEntry.sessionSecrets hsame).trans hsecrets
  have hsessionUsed : ∀ r ∈ session.seenDataNonces.expiryOrder, r.key ∈ used :=
    fun r hr => hused r (hsame.nonces_aged.records.sublist_of_eq.subset hr)
  have hnone := haged.no_pending halone
  unfold receive at hsound ⊢
  simp only [hallows, Bool.not_true, Bool.false_eq_true, if_false, hhello, hdata, if_true] at hsound ⊢
  generalize ((state.cleanupExpiredSessions cfg reception.monotonicNow).1.cleanupExpiredPendingSessions
    cfg reception.monotonicNow).1 = cleaned at hcleaned hget hnone hsound ⊢
  have haddress := hcleaned.sound.keyed.session hget
  have hopened : Opened cfg reception.monotonicNow cleaned cleaned := .refl hcleaned
  have hgetAddress : cleaned.sessions.records.get? session.address = some session := haddress ▸ hget
  have hunseen : ∀ {set : BoundedExpiringSet Bytes}, (∀ r ∈ set.expiryOrder, r.key ∈ used) →
      Unseen reception.monotonicNow nonce set := by
    intro set hset r hr hkey
    exact hnew (hkey ▸ hset r ((List.dropWhile_suffix _).subset hr))
  have hseen := hcleaned.live.dataNonceSeen_unseen hcleaned.sound.invariant hgetAddress rfl (hunseen hsessionUsed)
  have hopened' := hopened.andThen
    (hcleaned.sound.invariant.dataNonceSeen session nonce reception.monotonicNow)
    (hcleaned.live.aged_dataNonceSeen hcleaned.sound.invariant session nonce)
    (hcleaned.live.sameReplays_dataNonceSeen session nonce)
  have hliveSession' : LiveSession cfg reception.monotonicNow session :=
    hcleaned.live.sessions _ ((Dict.get?_eq_some_iff _ _ _).mp hget)
  simp only [handleData, getPendingSession, getActiveSession, hcleaned.live.cleanupPendings_eq,
    hcleaned.live.cleanupSessions_eq, hget, hnone, Option.isNone_some, Option.isNone_none, Bool.and_false,
    Bool.false_eq_true, if_false, hparse, tryPending, handleActive] at hsound ⊢
  generalize cleaned.dataNonceSeen cfg session nonce reception.monotonicNow = seen at hseen hopened' hsound ⊢
  obtain ⟨seenState, flag⟩ := seen
  obtain rfl : flag = false := hseen
  subst hsessionSecrets
  have hopen : openMessage p session nonce ciphertext = .ok content := by
    have hdecrypt' : p.decrypt session.clientToServerAesgcm nonce ciphertext dataAad = some plaintext := hdecrypt
    have hcheck' : checkMessage session.stationId message = .ok content := hcheck
    simp only [openMessage, hdecrypt', orRaise, raising, hload, Except.mapError, Bind.bind, Except.bind, hcheck']
  simp only [hopen] at hsound ⊢
  obtain ⟨current, hcurrent, hsame'⟩ := hopened'.aged.session_stays hget hliveSession'
  have hcurrentSecrets := AgedEntry.sessionSecrets hsame'
  have hnumber : current.number = session.number := congrArg (fun facts => facts.1) hsame'.facts_eq
  have hcurrentUsed : ∀ r ∈ current.seenDataNonces.expiryOrder, r.key ∈ used :=
    fun r hr => hsessionUsed r (hsame'.nonces_aged.records.sublist_of_eq.subset hr)
  have hcurrentAddress : seenState.sessions.records.get? session.address = some current := haddress ▸ hcurrent
  obtain ⟨admitted, nonces, haccept, hadmits⟩ := hopened'.cleaned.live.acceptDataNonce_unseen
    hopened'.cleaned.sound.invariant hcurrentAddress hnumber (hunseen hcurrentUsed)
  have hlive' := hopened'.cleaned.live.admitsData hadmits
  have hget' : admitted.sessions.records.get? reception.addr =
      some { current with seenDataNonces := nonces } := by
    rw [hadmits.sessions, haddress, Dict.get?_set, if_pos rfl]
  obtain ⟨touched, htouch, htouches⟩ := hlive'.touches hget' hnumber
  simp only [haccept, htouch] at hsound ⊢
  refine ⟨touched, session, rfl, rfl, hsound, ?_, ?_⟩
  · obtain ⟨before, after, -, hentries⟩ := htouches.sessions
    refine ⟨{ current with seenDataNonces := nonces, lastSeen := reception.monotonicNow }, ?_, hcurrentSecrets,
      rfl, ?_⟩
    · rw [Dict.get?_eq_some_iff, hentries]
      exact List.mem_append_right _ (List.mem_singleton_self _)
    · intro r hr
      rcases hadmits.admitted.keys hr with hold | hkey
      · exact List.mem_cons_of_mem _ (hcurrentUsed r hold)
      · rw [hkey]
        exact List.mem_cons_self
  · have hstill := hopened'.aged.no_pending hnone
    rw [htouches.pendings, hadmits.pendings]
    exact hstill

end Passes

end AisMixer.Udpsec

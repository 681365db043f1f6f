import AisMixer.Sproxy.HandshakeAgreement
import AisMixer.Udpsec.SessionService
import AisMixer.Udpsec.TranscriptSignatures

/-!
# A network that delivers

When every datagram arrives as it was sent, and in time, a handshake ends with one pair of keys on both
sides, and each message of the session has its effect once: a sentence is queued, a ping is answered.
-/

namespace AisMixer.Sproxy

open AisMixer.Library AisMixer.Udpsec

/-- AES-GCM opens what it has sealed, with the keys and nonces that are in use here. -/
structure SealLaws {Private Public : Type} (p : Primitives Private Public) : Prop where
  opens : ∀ key nonce text aad, key.length = 32 → nonce.length = 12 →
    p.decrypt key nonce (p.encrypt key nonce text aad) aad = some text
  tag : ∀ key nonce text aad, key.length = 32 → 16 ≤ (p.encrypt key nonce text aad).length

/-! ### Exchanges -/

def Received.carrying (data : Bytes) : Received → Received
  | .datagram _ addr => .datagram data addr
  | received => received

section Exchange

variable {Private Public : Type}

/-- The action, with what it receives. -/
def NetworkAction.carrying (data : Bytes) : NetworkAction Private Public → NetworkAction Private Public
  | .listen listener reception => .listen listener { reception with data := data }
  | .turn index reads => .turn index { reads with received := reads.received.carrying data }
  | .start station reads => .start station reads
  | .forward index content wall iv => .forward index content wall iv

/-- Steps that each receive what the step before has sent. -/
def Network.exchange (p : Primitives Private Public) (cfg : SecureSettings) (network : Network Private Public)
    (data : Bytes) : List (NetworkAction Private Public) →
      Network Private Public × List (NetworkEvent Private Public)
  | [] => (network, [])
  | action :: actions =>
    let stepped := network.step p cfg (action.carrying data)
    let rest := stepped.1.exchange p cfg (packetSent stepped.2) actions
    (rest.1, stepped.2 ++ rest.2)

section Steps

variable {p : Primitives Private Public} {cfg : SecureSettings} {network next : Network Private Public}
  {data data' : Bytes} {action : NetworkAction Private Public} {actions : List (NetworkAction Private Public)}
  {events : List (NetworkEvent Private Public)}

lemma exchange_cons (hstep : network.step p cfg (action.carrying data) = (next, events))
    (hsent : packetSent events = data') :
    network.exchange p cfg data (action :: actions) =
      ((next.exchange p cfg data' actions).1, events ++ (next.exchange p cfg data' actions).2) := by
  rw [Network.exchange, hstep, hsent]

variable {server server' : SecureState} {parties : List (Party Private Public)} {station : Station Private Public}
  {state state' : HandshakeState Private} {handshakeEvents : List (HandshakeEvent Private)}

lemma exchange_start {start : HandshakeStart Private}
    (hbegin : beginHandshake p station start = (state, handshakeEvents))
    (hsent : packetSent (handshakeEvents.map (NetworkEvent.client station)) = data') :
    Network.exchange p cfg ⟨server, parties⟩ data (.start station start :: actions) =
      let rest := Network.exchange p cfg ⟨server, parties ++ [⟨station, state⟩]⟩ data' actions
      (rest.1, handshakeEvents.map (.client station) ++ rest.2) := by
  refine exchange_cons ?_ hsent
  rw [NetworkAction.carrying, Network.step, hbegin]

lemma exchange_listen {listener : Listener Private Public} {reception : Reception Private}
    {serverEvents : List (ListenerEvent Private)}
    (hreceive : receive p cfg listener server { reception with data := data } = (server', serverEvents))
    (hsent : packetSent (serverEvents.map (.server listener)) = data') :
    Network.exchange p cfg ⟨server, parties⟩ data (.listen listener reception :: actions) =
      let rest := Network.exchange p cfg ⟨server', parties⟩ data' actions
      (rest.1, serverEvents.map (.server listener) ++ rest.2) := by
  refine exchange_cons ?_ hsent
  rw [NetworkAction.carrying, Network.step, hreceive]

lemma exchange_turn {turn : HandshakeTurn} {lost : Bytes}
    (haddr : turn.received = .datagram lost station.remoteAddr)
    (hturn : handshakeTurn p station { turn with received := .datagram data station.remoteAddr } state =
      (state', handshakeEvents))
    (hsent : packetSent (handshakeEvents.map (NetworkEvent.client station)) = data') :
    Network.exchange p cfg ⟨server, parties ++ [⟨station, state⟩]⟩ data (.turn parties.length turn :: actions) =
      let rest := Network.exchange p cfg ⟨server, parties ++ [⟨station, state'⟩]⟩ data' actions
      (rest.1, handshakeEvents.map (.client station) ++ rest.2) := by
  refine exchange_cons ?_ hsent
  have hget : (parties ++ [⟨station, state⟩])[parties.length]? = some ⟨station, state⟩ := by simp
  simp only [NetworkAction.carrying, haddr, Received.carrying, Network.step, hget, hturn,
    List.set_append_right _ _ (le_refl _), Nat.sub_self, List.set_cons_zero]

end Steps

end Exchange

section Packets

variable {Private Public : Type} {p : Primitives Private Public}

/-! ### Signatures and points of one's own -/

/-- What one signs, the others accept. -/
lemma signed_verifies {accepts : Public → Bytes → Int → Int → Prop} (laws : EcdsaLaws p accepts) {key : Private}
    {digest draw signature : Bytes} (h : signTranscriptDigest p key digest draw = .ok signature) :
    verifyTranscriptSignature p (p.publicKey key) signature digest = .ok true := by
  obtain ⟨hlength, -, r, s, -, hr, hs, hencode, -, rfl⟩ := signTranscriptDigest_ok_iff.mp h
  have hvalid := laws.sign_valid key digest draw hlength
  rw [← hencode, laws.verify_iff _ _ _ _ hr hs] at hvalid
  have hlow := (laws.lowScalar_accepts hr hs).mpr hvalid
  exact (laws.accepted_iff hlength).mpr
    ⟨r, lowScalar s, rfl, hr, validP256Scalar_lowScalar hs, lowScalar_le s, hlow⟩

/-- A public key is parsed from its compressed point. -/
lemma parseEphemeralPublicKey_own (laws : KeyAgreement p) {ephemeral : Private} {encoded : Bytes}
    (hencoded : encoded = p.publicBytes (p.publicKey ephemeral)) (hpoint : IsCompressedPoint encoded) :
    parseEphemeralPublicKey p encoded = .ok (p.publicKey ephemeral) := by
  obtain ⟨hlength, hhead⟩ := hpoint
  have hne : encoded ≠ [] := by
    rintro rfl
    cases hlength
  have hcompressed : isCompressedPointPrefix encoded = true := by
    rw [isCompressedPointPrefix, Bool.or_eq_true, beq_iff_eq, beq_iff_eq]
    exact hhead
  have hdecode : p.fromEncodedPoint encoded = some (p.publicKey ephemeral) :=
    hencoded ▸ laws.decode_point ephemeral
  have hserialize : serializeEphemeralPublicKey p (p.publicKey ephemeral) = .ok encoded := by
    rw [serializeEphemeralPublicKey, ← hencoded]
    simp [hlength, hcompressed]
  simp only [parseEphemeralPublicKey, requiredBytes, if_neg hne, Bind.bind, Except.bind, hlength, hcompressed,
    hdecode, orRaise, hserialize, ne_eq, not_true_eq_false, if_false, Bool.not_true, Bool.false_eq_true,
    Pure.pure, Except.pure]

/-! ### Data packets -/

section Sealed

variable (seals : SealLaws p) {key iv plaintext : Bytes}
include seals

lemma parse_sealed (hkey : key.length = 32) (hiv : iv.length = 12) :
    parseSecureDataPacket (dataPrefix ++ iv ++ p.encrypt key iv plaintext dataAad) =
      .ok (iv, p.encrypt key iv plaintext dataAad) := by
  have hhead : dataPrefix.isPrefixOf (dataPrefix ++ iv ++ p.encrypt key iv plaintext dataAad) = true := by
    rw [List.isPrefixOf_iff_prefix, List.append_assoc]
    exact List.prefix_append _ _
  have htag := seals.tag key iv plaintext dataAad hkey
  have hsix : dataPrefix.length = 6 := rfl
  have hlong :
      ¬(dataPrefix ++ iv ++ p.encrypt key iv plaintext dataAad).length < dataPrefix.length + 12 + 16 := by
    rw [List.length_append, List.length_append]
    omega
  rw [parseSecureDataPacket, hhead, if_neg (by simp), if_neg hlong]
  have hdrop : (dataPrefix ++ iv ++ p.encrypt key iv plaintext dataAad).drop dataPrefix.length =
      iv ++ p.encrypt key iv plaintext dataAad := by
    rw [List.append_assoc, List.drop_left]
  rw [← List.drop_drop, hdrop, ← hiv, List.take_left, List.drop_left]

lemma decrypt_sealed (hkey : key.length = 32) (hiv : iv.length = 12) :
    decryptSecureJsonMessage p (dataPrefix ++ iv ++ p.encrypt key iv plaintext dataAad) key =
      loadMessage plaintext := by
  have hparse : parseSecureDataPacket (dataPrefix ++ iv ++ p.encrypt key iv plaintext dataAad) = _ :=
    parse_sealed seals hkey hiv
  unfold parseSecureDataPacket at hparse
  split at hparse
  · cases hparse
  next hhead =>
  split at hparse
  · cases hparse
  next hlong =>
  obtain ⟨hnonce, hciphertext⟩ := Prod.mk.inj (Except.ok.inj hparse)
  rw [decryptSecureJsonMessage, if_neg]
  · simp only [hnonce, hciphertext, seals.opens _ _ _ _ hkey hiv, orRaise, Bind.bind, Except.bind]
  · rw [Bool.or_eq_true, decide_eq_true_eq]
    exact not_or.mpr ⟨hhead, hlong⟩

end Sealed

/-! ### Messages -/

lemma isNoSessionHint_data (rest : Bytes) : isNoSessionHint (dataPrefix ++ rest) = false := rfl

lemma checkPong_pong (sequence : Int) (wall : ℚ) (stationId : PyStr) :
    checkPong (pongMessage sequence wall stationId) stationId (some sequence) = .authenticated := by
  have hseq : (pongMessage sequence wall stationId).get? (str "seq") = some (.int sequence) := rfl
  have htype : (pongMessage sequence wall stationId).get? (str "type") = some (.str (str "pong")) := rfl
  have hsource : (pongMessage sequence wall stationId).get? (str "source_id") = some (.str stationId) := rfl
  simp [checkPong, hseq, htype, hsource, isText]

lemma pingMessage_confirms (wall : ℚ) (stationId : PyStr) :
    isSessionConfirmationPing (pingMessage sessionConfirmationSequence wall stationId) stationId = true := by
  have hseq : (pingMessage sessionConfirmationSequence wall stationId).get? (str "seq") =
      some (.int sessionConfirmationSequence) := rfl
  have htype : (pingMessage sessionConfirmationSequence wall stationId).get? (str "type") =
      some (.str (str "ping")) := rfl
  have htime : (pingMessage sessionConfirmationSequence wall stationId).get? (str "timestamp") =
      some (.int (truncate wall)) := rfl
  have hsource : (pingMessage sessionConfirmationSequence wall stationId).get? (str "source_id") =
      some (.str stationId) := rfl
  simp [isSessionConfirmationPing, hseq, htype, htime, hsource, isText]

/-- What the server makes of a message of the proxy. -/
def ClientMessage.content : ClientMessage → SecureMessage
  | .nmea cleanLine => .nmea (.str cleanLine)
  | .ping sequence => .ping sequence

/-- Pings of a session are numbered from 1. -/
def ClientMessage.Numbered : ClientMessage → Prop
  | .nmea _ => True
  | .ping sequence => sessionConfirmationSequence < sequence

lemma checkMessage_json {content : ClientMessage} (h : content.Numbered) (wall : ℚ) (stationId : PyStr) :
    checkMessage stationId (content.json wall stationId) = .ok content.content := by
  cases content with
  | nmea cleanLine =>
    have htype : (nmeaMessage cleanLine wall stationId).get? (str "type") = some (.str (str "nmea")) := rfl
    have hpayload : (nmeaMessage cleanLine wall stationId).get? (str "payload") = some (.str cleanLine) := rfl
    have hsource : (nmeaMessage cleanLine wall stationId).get? (str "source_id") = some (.str stationId) := rfl
    have hping : isText (str "ping") (some (.str (str "nmea"))) = false := by decide
    have hnmea : isText (str "nmea") (some (.str (str "nmea"))) = true := by decide
    have hown : isText stationId (some (.str stationId)) = true := by simp [isText]
    rw [ClientMessage.json, nmeaMessage, checkMessage, ← nmeaMessage, htype, hpayload, hsource, hping,
      hnmea, hown]
    rfl
  | ping sequence =>
    have htype : (pingMessage sequence wall stationId).get? (str "type") = some (.str (str "ping")) := rfl
    have hseq : (pingMessage sequence wall stationId).get? (str "seq") = some (.int sequence) := rfl
    have hsource : (pingMessage sequence wall stationId).get? (str "source_id") = some (.str stationId) := rfl
    have hping : isText (str "ping") (some (.str (str "ping"))) = true := by decide
    have hown : isText stationId (some (.str stationId)) = true := by simp [isText]
    have hnumber : ¬sequence ≤ sessionConfirmationSequence := not_le.mpr h
    rw [ClientMessage.json, pingMessage, checkMessage, ← pingMessage, htype, hseq, hsource, hping, hown]
    simp only [Bool.not_true, Bool.false_eq_true, if_false, if_true, hnumber, ClientMessage.content]

lemma pong_authenticated (seals : SealLaws p) {key nonce plaintext : Bytes} {addr : Address} {sequence : Int}
    {wall : ℚ} {stationId : PyStr} (hkey : key.length = 32) (hnonce : nonce.length = 12)
    (hload : loadMessage plaintext = .ok (pongMessage sequence wall stationId)) :
    handleServerPacket p (dataPrefix ++ nonce ++ p.encrypt key nonce plaintext dataAad) addr addr key stationId
      (some sequence) = .authenticated := by
  have haddr : remoteAddressesMatch addr addr = true := by simp [remoteAddressesMatch]
  have hhint : isNoSessionHint (dataPrefix ++ nonce ++ p.encrypt key nonce plaintext dataAad) = false := by
    rw [List.append_assoc]
    exact isNoSessionHint_data _
  simp only [handleServerPacket, haddr, hhint, Bool.not_true, Bool.false_eq_true, if_false,
    decrypt_sealed seals hkey hnonce, hload, checkPong_pong]

end Packets

/-! ### The rounds of the proxy -/

section Rounds

variable {Private Public : Type} {p : Primitives Private Public} {station : Station Private Public}
  {start : HandshakeStart Private} {waiting : Waiting Private} {turn : HandshakeTurn} {deadline : ℚ}
  {hello : ClientHello} {keys : SessionKeyMaterial}

lemma beginHandshake_sends {packet : Bytes} (hbuild : buildHandshakeHello p station start = .ok (hello, packet))
    (hsends : start.sendFails = false) :
    let timeout := handshakeTimeout start.originalTimeout
    beginHandshake p station start =
      (.awaitingHello ⟨hello, start.clientEphemeral, start.originalTimeout, timeout⟩ (start.now + timeout),
        [.begun hello start.clientEphemeral, .sent packet station.remoteAddr]) := by
  simp only [beginHandshake, hbuild, hsends, Bool.false_eq_true, if_false]

/-- A ServerHello that verifies is confirmed. -/
lemma handshakeTurn_confirms {data plaintext : Bytes} {serverHello : ServerHello} {serverEphemeral : Public}
    (hnow : turn.now < deadline) (hreceived : turn.received = .datagram data station.remoteAddr)
    (hread : readServerHello p data = .ok (serverHello, serverEphemeral))
    (hverify : verifyServerHello p station waiting serverHello = .ok true)
    (hkeys : deriveHandshakeKeys p waiting serverHello serverEphemeral = .ok keys)
    (htext : messageText (pingMessage sessionConfirmationSequence turn.wall station.stationId) = .ok plaintext)
    (hsends : turn.sendFails = false) :
    handshakeTurn p station turn (.awaitingHello waiting deadline) =
      (.awaitingConfirmation waiting keys (turn.confirmationNow + waiting.handshakeTimeout),
        [.timeoutSet (some (deadline - turn.now)), .accepted waiting.hello waiting.ephemeral serverHello keys,
          .encrypted keys.clientToServerKey turn.iv plaintext,
          .sent (dataPrefix ++ turn.iv ++ p.encrypt keys.clientToServerKey turn.iv plaintext dataAad)
            station.remoteAddr]) := by
  have hleft : ¬deadline - turn.now ≤ 0 := by linarith
  have hmatch : remoteAddressesMatch station.remoteAddr station.remoteAddr = true := by
    simp [remoteAddressesMatch]
  simp only [handshakeTurn, untilDeadline, hleft, if_false, awaitHello, hreceived, hmatch, Bool.not_true,
    Bool.false_eq_true, handleServerHello, hread, hverify, hkeys, sendConfirmation, htext, hsends]

/-- The pong ends the handshake. -/
lemma handshakeTurn_returns {data : Bytes} (hnow : turn.now < deadline)
    (hreceived : turn.received = .datagram data station.remoteAddr)
    (hauthentic : handleServerPacket p data station.remoteAddr station.remoteAddr keys.serverToClientKey
      station.stationId (some sessionConfirmationSequence) = .authenticated) :
    handshakeTurn p station turn (.awaitingConfirmation waiting keys deadline) =
      (.returned (some keys), [.timeoutSet (some (deadline - turn.now)), .timeoutSet waiting.originalTimeout,
        .confirmed waiting.hello keys]) := by
  have hleft : ¬deadline - turn.now ≤ 0 := by linarith
  have hmatch : remoteAddressesMatch station.remoteAddr station.remoteAddr = true := by
    simp [remoteAddressesMatch]
  simp only [handshakeTurn, untilDeadline, hleft, if_false, awaitConfirmation, hreceived, hmatch, Bool.not_true,
    Bool.false_eq_true, hauthentic]

end Rounds

/-! ### The handshake -/

section Handshake

variable {Private Public : Type} {p : Primitives Private Public} {cfg : SecureSettings}

/-- What the two sides read while they exchange the four datagrams of a handshake. -/
structure HandshakeReadings (Private Public : Type) where
  station : Station Private Public
  start : HandshakeStart Private
  listener : Listener Private Public
  hello : Reception Private
  answer : HandshakeTurn
  confirmation : Reception Private
  pong : HandshakeTurn

def HandshakeReadings.actions (r : HandshakeReadings Private Public) (index : Nat) :
    List (NetworkAction Private Public) :=
  [.start r.station r.start, .listen r.listener r.hello, .turn index r.answer,
    .listen r.listener r.confirmation, .turn index r.pong]

/-- The two sides know each other, and nothing fails or is late. -/
structure HandshakeReadings.Prompt (p : Primitives Private Public) (cfg : SecureSettings) (past : ℚ)
    (r : HandshakeReadings Private Public) : Prop where
  trusted : p.publicKey r.listener.serverPriv = r.station.serverIdentityPublicKey
  authorized : r.listener.authorizedKeys.get? r.station.stationId =
    some (p.publicKey r.station.identityPrivateKey)
  allows : r.listener.allows r.hello.addr.host = true
  addr : r.confirmation.addr = r.hello.addr
  answer_addr : ∃ data, r.answer.received = .datagram data r.station.remoteAddr
  pong_addr : ∃ data, r.pong.received = .datagram data r.station.remoteAddr
  sends : r.start.sendFails = false ∧ r.hello.sendFails = false ∧ r.answer.sendFails = false ∧
    r.confirmation.sendFails = false
  nonces : r.answer.iv.length = 12 ∧ r.confirmation.nonce.length = 12
  walls : ReadableNumber (truncate r.answer.wall) ∧ ReadableNumber (truncate r.confirmation.wallNow)
  server_times : past ≤ r.hello.monotonicNow ∧ r.hello.monotonicNow ≤ r.confirmation.monotonicNow ∧
    r.confirmation.monotonicNow < r.hello.monotonicNow + cfg.pendingSessionTtl
  proxy_times : r.answer.now < r.start.now + handshakeTimeout r.start.originalTimeout ∧
    r.pong.now < r.answer.confirmationNow + handshakeTimeout r.start.originalTimeout

/-- The ClientHello is in time, and its replay key is not remembered. -/
structure NewHello (p : Primitives Private Public) (state : SecureState) (reception : Reception Private)
    (hello : ClientHello) : Prop where
  fresh : |reception.wallNow - hello.timestamp| ≤ 30
  unseen : ∀ digest key, (clientAuthCall hello).run p.sha256 = .ok digest →
    buildHandshakeReplayKey p.sha256 digest hello.clientSignature = .ok key →
    Unseen reception.monotonicNow key state.handshakeReplays

/-- What the server has signed and derived for its answer. -/
lemma buildServerHandshake_signs {listener : Listener Private Public} {hello : ClientHello}
    {clientEphemeral : Public} {reception : Reception Private} {handshake : ServerHandshake}
    (h : buildServerHandshake p listener hello clientEphemeral reception = .ok handshake) :
    handshake.responsePacket = buildServerHelloPacket handshake.serverHello ∧
      (∃ secret, deriveEphemeralSharedSecret p reception.serverEphemeral clientEphemeral = .ok secret) ∧
      ∃ digest, (serverAuthCall hello handshake.serverHello).run p.sha256 = .ok digest ∧
        signTranscriptDigest p listener.serverPriv digest reception.signatureDraw =
          .ok handshake.serverHello.serverSignature := by
  obtain ⟨bytes, hbytes, h⟩ := bind_eq_ok_iff.mp h
  obtain ⟨digest, hdigest, h⟩ := bind_eq_ok_iff.mp h
  obtain ⟨signature, hsignature, h⟩ := bind_eq_ok_iff.mp h
  obtain ⟨secret, hsecret, h⟩ := bind_eq_ok_iff.mp h
  obtain ⟨hash, hhash, h⟩ := bind_eq_ok_iff.mp h
  obtain ⟨keys, hkeys, h⟩ := bind_eq_ok_iff.mp h
  obtain ⟨serverHello, hserverHello, h⟩ := bind_eq_ok_iff.mp h
  obtain rfl := Except.ok.inj h
  obtain ⟨hrandom, hkey, hsigned⟩ := makeServerHello_ok hserverHello
  refine ⟨rfl, ⟨secret, hsecret⟩, digest, ?_, ?_⟩
  · rw [serverAuthCall, hrandom, hkey]
    exact hdigest
  · rw [hsigned]
    exact hsignature

/-- The proxy makes of an answer what the server has put into it. -/
lemma answer_read {accepts : Public → Bytes → Int → Int → Prop} (agreement : KeyAgreement p)
    (ecdsa : EcdsaLaws p accepts) {station : Station Private Public} {listener : Listener Private Public}
    {waiting : Waiting Private} {reception : Reception Private} {handshake : ServerHandshake}
    (htrusted : p.publicKey listener.serverPriv = station.serverIdentityPublicKey)
    (hanswer : buildServerHandshake p listener waiting.hello (p.publicKey waiting.ephemeral) reception =
      .ok handshake) :
    readServerHello p handshake.responsePacket =
        .ok (handshake.serverHello, p.publicKey reception.serverEphemeral) ∧
      verifyServerHello p station waiting handshake.serverHello = .ok true ∧
      deriveHandshakeKeys p waiting handshake.serverHello (p.publicKey reception.serverEphemeral) =
        .ok handshake.keys := by
  obtain ⟨hpoint, hash, hhash, hkeys⟩ := buildServerHandshake_ok hanswer
  obtain ⟨hpacket, ⟨secret, hsecret⟩, digest, hdigest, hsigned⟩ := buildServerHandshake_signs hanswer
  have hparse := parseEphemeralPublicKey_own agreement hpoint handshake.serverHello.publicKey
  have hverified := signed_verifies ecdsa hsigned
  have hshared : deriveEphemeralSharedSecret p waiting.ephemeral (p.publicKey reception.serverEphemeral) =
      .ok secret := by
    rw [deriveEphemeralSharedSecret, agreement.exchange_comm]
    exact hsecret
  rw [htrusted] at hverified
  refine ⟨?_, ?_, ?_⟩
  · rw [readServerHello, hpacket, parse_build_serverHello]
    simp only [Bind.bind, Except.bind, hparse, Pure.pure, Except.pure]
  · have hcall : (serverAuthCall waiting.hello handshake.serverHello).run p.sha256 = .ok digest := hdigest
    simp only [serverAuthCall, TranscriptCall.run] at hcall
    simp only [verifyServerHello, hcall, Bind.bind, Except.bind, hverified]
  · have hcall : (sessionCall waiting.hello handshake.serverHello).run p.sha256 = .ok hash := hhash
    simp only [sessionCall, TranscriptCall.run] at hcall
    simp only [deriveHandshakeKeys, hshared, hcall, Bind.bind, Except.bind]
    rw [deriveEphemeralSharedSecret_ok hsecret]
    exact hkeys

/-- A ClientHello of an authorised station is taken by the server. -/
lemma hello_fresh {accepts : Public → Bytes → Int → Int → Prop} (agreement : KeyAgreement p)
    (ecdsa : EcdsaLaws p accepts) {station : Station Private Public} {start : HandshakeStart Private}
    {listener : Listener Private Public} {state : SecureState} {reception : Reception Private}
    {hello : ClientHello} {packet : Bytes} {handshake : ServerHandshake}
    (hauthorized : listener.authorizedKeys.get? station.stationId = some (p.publicKey station.identityPrivateKey))
    (hbuild : buildHandshakeHello p station start = .ok (hello, packet))
    (hanswer : buildServerHandshake p listener hello (p.publicKey start.clientEphemeral) reception =
      .ok handshake)
    (hnew : NewHello p state reception hello) :
    parseEphemeralPublicKey p hello.clientEphemeralPublicKey = .ok (p.publicKey start.clientEphemeral) ∧
      ∃ key, FreshHello p listener { reception with data := packet } hello key ∧
        Unseen reception.monotonicNow key state.handshakeReplays := by
  obtain ⟨hbegins, hpacket⟩ := buildHandshakeHello_ok hbuild
  obtain ⟨-, -, serverDigest, hserverDigest, -⟩ := buildServerHandshake_signs hanswer
  obtain ⟨digest, draw, hdigest, hsigned⟩ := hbegins.signed
  have hlength := (signTranscriptDigest_ok_iff.mp hsigned).1
  have hfits : ValidField hello.clientSignature := (TranscriptCall.serverAuth_ok_iff.mp hserverDigest).1.2.2.2.2.1
  have hkey : buildHandshakeReplayKey p.sha256 digest hello.clientSignature = .ok _ :=
    TranscriptCall.handshakeReplay_ok_iff.mpr ⟨⟨hlength, hfits⟩, rfl⟩
  have hparsed : parseClientHelloPacket packet = .ok hello := by
    rw [buildClientHelloPacket_eq] at hpacket
    rw [← Except.ok.inj hpacket]
    exact parse_build_clientHello hello
  refine ⟨parseEphemeralPublicKey_own agreement hbegins.publicKey hello.publicKey, _, ?_,
    hnew.unseen digest _ hdigest hkey⟩
  refine ⟨hparsed, hnew.fresh, p.publicKey station.identityPrivateKey, digest, ?_, hdigest,
    signed_verifies ecdsa hsigned, hkey⟩
  rw [hbegins.stationId]
  exact hauthorized

/-- A handshake whose datagrams arrive ends with the same keys on both sides, whatever the server has
been through before. -/
lemma handshake_completes {accepts : Public → Bytes → Int → Int → Prop} (agreement : KeyAgreement p)
    (ecdsa : EcdsaLaws p accepts) (seals : SealLaws p) {network : Network Private Public} {past : ℚ}
    (hsound : SecureState.Sound cfg past network.server) {r : HandshakeReadings Private Public}
    (hprompt : r.Prompt p cfg past) {hello : ClientHello} {packet : Bytes} {handshake : ServerHandshake}
    (hbuild : buildHandshakeHello p r.station r.start = .ok (hello, packet))
    (hanswer : buildServerHandshake p r.listener hello (p.publicKey r.start.clientEphemeral) r.hello =
      .ok handshake)
    (hnew : NewHello p network.server r.hello hello) (data : Bytes) :
    let result := (network.exchange p cfg data (r.actions network.parties.length)).1
    result.parties = network.parties ++ [⟨r.station, .returned (some handshake.keys)⟩] ∧
      SecureState.Sound cfg r.confirmation.monotonicNow result.server ∧
      result.server.ActiveAt r.hello.addr
        ⟨r.station.stationId, handshake.keys.clientToServerKey, handshake.keys.serverToClientKey⟩
        r.confirmation.monotonicNow [r.answer.iv] := by
  obtain ⟨hstartSends, hhelloSends, hanswerSends, hconfirmationSends⟩ := hprompt.sends
  obtain ⟨hpast, hordered, hpending⟩ := hprompt.server_times
  obtain ⟨hanswerTime, hpongTime⟩ := hprompt.proxy_times
  obtain ⟨hbegins, -⟩ := buildHandshakeHello_ok hbuild
  obtain ⟨hephemeral, key, hfresh, hunseen⟩ := hello_fresh agreement ecdsa hprompt.authorized hbuild hanswer hnew
  obtain ⟨server, parties⟩ := network
  -- the ClientHello
  have hbegin := beginHandshake_sends hbuild hstartSends
  dsimp only at hbegin
  generalize handshakeTimeout r.start.originalTimeout = timeout at hbegin hanswerTime hpongTime
  have hpacket : packetSent (List.map (NetworkEvent.client r.station) [.begun hello r.start.clientEphemeral,
      .sent packet r.station.remoteAddr]) = packet := rfl
  -- the ServerHello
  let helloReception : Reception Private := { r.hello with data := packet }
  obtain ⟨first, pending, hreceive, hsoundFirst, hpendingAt⟩ := @receive_hello Private Public p cfg r.listener
    helloReception server past hsound hpast hprompt.allows hello key _ handshake hfresh hephemeral hanswer hunseen
  have hresponse : packetSent (List.map (NetworkEvent.server r.listener)
      (.helloAdmitted hello :: .installed pending hello helloReception.serverEphemeral handshake ::
        sendto helloReception handshake.responsePacket)) = handshake.responsePacket := by
    have hsends : helloReception.sendFails = false := hhelloSends
    rw [sendto, hsends]
    rfl
  -- the confirmation
  obtain ⟨answerLost, hanswerAddr⟩ := hprompt.answer_addr
  let waiting : Waiting Private := ⟨hello, r.start.clientEphemeral, r.start.originalTimeout, timeout⟩
  have hanswered : buildServerHandshake p r.listener waiting.hello (p.publicKey waiting.ephemeral) r.hello =
    .ok handshake := hanswer
  obtain ⟨hread, hverify, hkeys⟩ := answer_read agreement ecdsa hprompt.trusted hanswered
  have hzero : ReadableNumber sessionConfirmationSequence := by decide
  obtain ⟨plaintext, htext, hload⟩ := pingMessage_read hzero hprompt.walls.1 (begins_station hbegins)
  let answerTurn : HandshakeTurn :=
    { r.answer with received := .datagram handshake.responsePacket r.station.remoteAddr }
  have hconfirms : handshakeTurn p r.station answerTurn (.awaitingHello waiting (r.start.now + timeout)) = _ :=
    handshakeTurn_confirms hanswerTime rfl hread hverify hkeys htext hanswerSends
  -- the pong
  have hkeyLength := handshake.keys.lengths
  let sealed := dataPrefix ++ r.answer.iv ++
    p.encrypt handshake.keys.clientToServerKey r.answer.iv plaintext dataAad
  have hsealed : packetSent (List.map (NetworkEvent.client r.station)
      [.timeoutSet (some (r.start.now + timeout - answerTurn.now)),
        .accepted waiting.hello waiting.ephemeral handshake.serverHello handshake.keys,
        .encrypted handshake.keys.clientToServerKey answerTurn.iv plaintext, .sent sealed r.station.remoteAddr]) =
      sealed := rfl
  let confirmationReception : Reception Private := { r.confirmation with data := sealed }
  have hdecrypts : Decrypts p confirmationReception handshake.keys.clientToServerKey r.answer.iv
      (pingMessage sessionConfirmationSequence r.answer.wall r.station.stationId) :=
    ⟨_, plaintext, parse_sealed seals hkeyLength.1 hprompt.nonces.1,
      seals.opens _ _ _ _ hkeyLength.1 hprompt.nonces.1, hload⟩
  have hsamePending : first.PendingAt confirmationReception.addr
      ⟨hello.stationId, handshake.keys.clientToServerKey, handshake.keys.serverToClientKey⟩
      r.hello.monotonicNow := hprompt.addr ▸ hpendingAt
  have hallows : r.listener.allows confirmationReception.addr.host = true := by
    have haddr : confirmationReception.addr = r.hello.addr := hprompt.addr
    rw [haddr]
    exact hprompt.allows
  have hconfirmation : isSessionConfirmationPing
      (pingMessage sessionConfirmationSequence r.answer.wall r.station.stationId) hello.stationId = true := by
    rw [hbegins.stationId]
    exact pingMessage_confirms _ _
  obtain ⟨second, pending', session, hreceive', hsession, hsoundSecond, hactive⟩ := @receive_confirmation Private
    Public p cfg r.listener confirmationReception first _ hsoundFirst hordered hallows _ _ _ _ hsamePending
    hpending hdecrypts hconfirmation
  obtain ⟨pongText, hpongText, hpongLoad⟩ := pongMessage_read hzero hprompt.walls.2 (begins_station hbegins)
  let pong := dataPrefix ++ r.confirmation.nonce ++
    p.encrypt handshake.keys.serverToClientKey r.confirmation.nonce pongText dataAad
  have hpong : packetSent (List.map (NetworkEvent.server r.listener)
      (.promoted pending' session :: sendPong p confirmationReception handshake.keys.serverToClientKey
        sessionConfirmationSequence hello.stationId)) = pong := by
    have hsends : confirmationReception.sendFails = false := hconfirmationSends
    have htext' : messageText (pongMessage sessionConfirmationSequence confirmationReception.wallNow
        r.station.stationId) = .ok pongText := hpongText
    simp only [sendPong, hbegins.stationId, htext', sendto, hsends, Bool.false_eq_true, if_false]
    rfl
  obtain ⟨pongLost, hpongAddr⟩ := hprompt.pong_addr
  let pongTurn : HandshakeTurn := { r.pong with received := .datagram pong r.station.remoteAddr }
  have hreturns : handshakeTurn p r.station pongTurn
      (.awaitingConfirmation waiting handshake.keys (r.answer.confirmationNow + timeout)) = _ :=
    handshakeTurn_returns hpongTime rfl (pong_authenticated seals hkeyLength.2 hprompt.nonces.2 hpongLoad)
  rw [HandshakeReadings.actions, exchange_start hbegin hpacket, exchange_listen hreceive hresponse,
    exchange_turn hanswerAddr hconfirms hsealed, exchange_listen hreceive' hpong,
    exchange_turn hpongAddr hreturns rfl]
  refine ⟨rfl, hsoundSecond, ?_⟩
  rw [← hbegins.stationId, ← hprompt.addr]
  exact hactive

end Handshake

/-! ### The messages of the session -/

section Session

variable {Private Public : Type} {p : Primitives Private Public} {cfg : SecureSettings}

/-- What the two sides read while a message goes from the proxy to the server. -/
structure MessageReadings (Private Public : Type) where
  content : ClientMessage
  wall : ℚ
  iv : Bytes
  listener : Listener Private Public
  reception : Reception Private

def MessageReadings.actions (index : Nat) (m : MessageReadings Private Public) :
    List (NetworkAction Private Public) :=
  [.forward index m.content m.wall m.iv, .listen m.listener m.reception]

/-- The message can be read, comes from the peer of the session, and nothing fails. -/
structure MessageReadings.Sent (addr : Address) (m : MessageReadings Private Public) : Prop where
  readable : m.content.Readable
  numbered : m.content.Numbered
  walls : ReadableNumber (truncate m.wall) ∧ ReadableNumber (truncate m.reception.wallNow)
  nonces : m.iv.length = 12 ∧ m.reception.nonce.length = 12
  addr_eq : m.reception.addr = addr
  allows : m.listener.allows addr.host = true
  sends : m.reception.sendFails = false

/-- Messages in the order of time, with new nonces, each of them before the session expires. -/
def Timely (cfg : SecureSettings) (addr : Address) :
    ℚ → List Bytes → List (MessageReadings Private Public) → Prop
  | _, _, [] => True
  | lastSeen, used, m :: messages => m.Sent addr ∧ m.iv ∉ used ∧ lastSeen ≤ m.reception.monotonicNow ∧
      m.reception.monotonicNow - lastSeen < cfg.sessionTtl ∧
      Timely cfg addr m.reception.monotonicNow (m.iv :: used) messages

/-- The effect of a message at the server: the frame of a sentence is queued, and a ping is answered with a
pong that the proxy takes. -/
def Served (p : Primitives Private Public) (station : Station Private Public) (keys : SessionKeyMaterial)
    (m : MessageReadings Private Public) (events : List (ListenerEvent Private)) : Prop :=
  ∃ session, match m.content with
  | .nmea cleanLine => ∃ frame,
      messageFrame m.listener.secInputId station.stationId m.reception.addr (.str cleanLine) = .ok (some frame) ∧
        events = [.nonceAdmitted session m.iv, .queued frame]
  | .ping sequence => ∃ plaintext pong,
      handleServerPacket p pong station.remoteAddr station.remoteAddr keys.serverToClientKey station.stationId
        (some sequence) = .authenticated ∧
        events = [.nonceAdmitted session m.iv, .encrypted keys.serverToClientKey m.reception.nonce plaintext,
          .sent pong m.reception.addr]

/-- What the listeners did. -/
def serverEvents (events : List (NetworkEvent Private Public)) : List (ListenerEvent Private) :=
  events.filterMap (fun | .server _ event => some event | _ => none)

lemma serverEvents_append (events later : List (NetworkEvent Private Public)) :
    serverEvents (events ++ later) = serverEvents events ++ serverEvents later := List.filterMap_append

lemma serverEvents_server (listener : Listener Private Public) (events : List (ListenerEvent Private)) :
    serverEvents (events.map (.server listener)) = events := by
  induction events with
  | nil => rfl
  | cons event events ih => exact congrArg (event :: ·) ih

lemma messageFrame_text {secInputId : Option PyStr} {stationId : PyStr} {addr : Address}
    (hstation : stationId ≠ []) (cleanLine : PyStr) :
    ∃ frame, messageFrame secInputId stationId addr (.str cleanLine) = .ok (some frame) := by
  simp only [messageFrame, buildUdpsecSourceId, if_neg hstation, Bind.bind, Except.bind]
  exact ⟨_, rfl⟩

/-- What the server does about a message whose nonce it admits. -/
lemma served_answer (seals : SealLaws p) {station : Station Private Public} {keys : SessionKeyMaterial}
    {m : MessageReadings Private Public} {addr : Address} (hsent : m.Sent addr) (data : Bytes)
    (hstation : station.stationId ≠ []) (hsurrogate : hasSurrogate station.stationId = false)
    {session : SecureSession}
    (hsecrets : session.secrets = ⟨station.stationId, keys.clientToServerKey, keys.serverToClientKey⟩) :
    Served p station keys m (.nonceAdmitted session m.iv ::
      answerMessage p m.listener { m.reception with data := data } session m.content.content) := by
  have hid : session.stationId = station.stationId := congrArg SessionSecrets.stationId hsecrets
  have hkey : session.serverToClientAesgcm = keys.serverToClientKey :=
    congrArg SessionSecrets.serverToClientKey hsecrets
  have hreadable := hsent.readable
  refine ⟨session, ?_⟩
  cases hcontent : m.content with
  | nmea cleanLine =>
    obtain ⟨frame, hframe⟩ := @messageFrame_text m.listener.secInputId _ m.reception.addr hstation cleanLine
    refine ⟨frame, hframe, ?_⟩
    simp only [ClientMessage.content, answerMessage, hid, hframe]
  | ping sequence =>
    rw [hcontent] at hreadable
    obtain ⟨plaintext, htext, hload⟩ := pongMessage_read hreadable hsent.walls.2 hsurrogate
    refine ⟨plaintext, _, pong_authenticated seals keys.lengths.2 hsent.nonces.2 hload, ?_⟩
    simp only [ClientMessage.content, answerMessage, sendPong, hid, hkey, htext, sendto, hsent.sends,
      Bool.false_eq_true, if_false]

section Delivery

variable {server : SecureState}
  {parties : List (Party Private Public)} {index : Nat} {station : Station Private Public}
  {keys : SessionKeyMaterial} {addr : Address} {lastSeen : ℚ} {used : List Bytes}

/-- The session as both sides have it. -/
structure InSession (cfg : SecureSettings) (parties : List (Party Private Public)) (index : Nat)
    (station : Station Private Public) (keys : SessionKeyMaterial) (addr : Address) (lastSeen : ℚ)
    (used : List Bytes) (server : SecureState) : Prop where
  party : parties[index]? = some ⟨station, .returned (some keys)⟩
  named : station.stationId ≠ [] ∧ hasSurrogate station.stationId = false
  sound : SecureState.Sound cfg lastSeen server
  active : server.ActiveAt addr ⟨station.stationId, keys.clientToServerKey, keys.serverToClientKey⟩ lastSeen used

/-- A message of the session has its effect, and the session goes on. -/
lemma message_delivered (seals : SealLaws p)
    (h : InSession cfg parties index station keys addr lastSeen used server)
    {m : MessageReadings Private Public} (hsent : m.Sent addr) (hnew : m.iv ∉ used)
    (hordered : lastSeen ≤ m.reception.monotonicNow)
    (hlive : m.reception.monotonicNow - lastSeen < cfg.sessionTtl) (data : Bytes)
    (actions : List (NetworkAction Private Public)) :
    ∃ server' data' events served,
      Network.exchange p cfg ⟨server, parties⟩ data (m.actions index ++ actions) =
        ((Network.exchange p cfg ⟨server', parties⟩ data' actions).1,
          events ++ (Network.exchange p cfg ⟨server', parties⟩ data' actions).2) ∧
      serverEvents events = served ∧ Served p station keys m served ∧
      InSession cfg parties index station keys addr m.reception.monotonicNow (m.iv :: used) server' := by
  obtain ⟨plaintext, htext, hload⟩ := ClientMessage.read hsent.readable hsent.walls.1 h.named.2
  let sealed := dataPrefix ++ m.iv ++ p.encrypt keys.clientToServerKey m.iv plaintext dataAad
  let forwarded : List (NetworkEvent Private Public) := [.forwarded station keys m.content,
    .client station (.encrypted keys.clientToServerKey m.iv plaintext),
    .client station (.sent sealed station.remoteAddr)]
  have hforward : Network.step p cfg ⟨server, parties⟩
      ((NetworkAction.forward index m.content m.wall m.iv).carrying data) = (⟨server, parties⟩, forwarded) := by
    simp only [NetworkAction.carrying, Network.step, h.party, forwardMessage, htext]
    rfl
  let reception : Reception Private := { m.reception with data := sealed }
  have haddr : reception.addr = addr := hsent.addr_eq
  have hdecrypts : Decrypts p reception keys.clientToServerKey m.iv (m.content.json m.wall station.stationId) :=
    ⟨_, plaintext, parse_sealed seals keys.lengths.1 hsent.nonces.1,
      seals.opens _ _ _ _ keys.lengths.1 hsent.nonces.1, hload⟩
  have hactive := h.active
  rw [← haddr] at hactive
  have hallows : m.listener.allows reception.addr.host = true := by
    rw [haddr]
    exact hsent.allows
  have hordered' : lastSeen ≤ reception.monotonicNow := hordered
  obtain ⟨server', session, hreceive, hsecrets, hsound, hactive'⟩ := receive_message h.sound hordered' hallows
    hactive hlive hnew hdecrypts (checkMessage_json hsent.numbered m.wall station.stationId)
  have hserved := served_answer seals hsent sealed h.named.1 h.named.2 hsecrets
  rw [haddr] at hactive'
  let answer : List (ListenerEvent Private) := .nonceAdmitted session m.iv ::
    answerMessage p m.listener reception session m.content.content
  refine ⟨server', packetSent (answer.map (.server m.listener)), forwarded ++ answer.map (.server m.listener),
    answer, ?_, ?_, hserved, ⟨h.party, h.named, hsound, hactive'⟩⟩
  · have hsealed : packetSent forwarded = sealed := rfl
    rw [MessageReadings.actions, List.cons_append, exchange_cons hforward hsealed, List.cons_append,
      List.nil_append, exchange_listen hreceive rfl, List.append_assoc]
  · rw [serverEvents_append, serverEvents_server]
    rfl

/-- Messages in time have their effects one after another. -/
lemma messages_delivered (seals : SealLaws p) (messages : List (MessageReadings Private Public))
    (h : InSession cfg parties index station keys addr lastSeen used server)
    (htimely : Timely cfg addr lastSeen used messages) (data : Bytes) :
    let result := Network.exchange p cfg ⟨server, parties⟩ data (messages.flatMap (·.actions index))
    result.1.parties = parties ∧ ∃ served, List.Forall₂ (Served p station keys) messages served ∧
      serverEvents result.2 = served.flatten := by
  induction messages generalizing lastSeen used server data with
  | nil => exact ⟨rfl, [], .nil, rfl⟩
  | cons m messages ih =>
    obtain ⟨hsent, hnew, hordered, hlive, hrest⟩ := htimely
    obtain ⟨server', data', events, first, hexchange, hevents, hfirst, hnext⟩ :=
      message_delivered seals h hsent hnew hordered hlive data (messages.flatMap (·.actions index))
    obtain ⟨hparties, served, hserved, hlater⟩ := ih hnext hrest data'
    rw [List.flatMap_cons, hexchange]
    refine ⟨hparties, first :: served, .cons hfirst hserved, ?_⟩
    rw [serverEvents_append, hevents, hlater, List.flatten_cons]

end Delivery

def harbourReadings : HandshakeReadings Nat Nat where
  station := harbourStation
  start := harbourStart
  listener := harbourListener
  hello := harbourReception [] 0
  answer := harbourTurn [] 1
  confirmation := harbourReception [] 1
  pong := harbourTurn [] 2

/-- A sentence and a ping. -/
def harbourMessages : List (MessageReadings Nat Nat) :=
  [⟨.nmea (str "!AIVDM,1,1,,A,p,0*1A"), 1002, List.replicate 12 2, harbourListener, harbourReception [] 3⟩,
    ⟨.ping 1, 1003, List.replicate 12 3, harbourListener, harbourReception [] 4⟩]

lemma sealing_seals : SealLaws sealingPrimitives where
  opens key nonce text aad hkey _ := by
    have hlength : (text ++ key).length - 32 = text.length := by
      rw [List.length_append, hkey]
      omega
    simp only [sealingPrimitives, hlength, List.drop_left, List.take_left, if_true]
  tag key nonce text aad hkey := by
    simp only [sealingPrimitives, List.length_append, hkey]
    omega

lemma sealing_ecdsa : EcdsaLaws sealingPrimitives ExponentAccepts where
  decode_encode := by simpa only [sealingPrimitives, harbourPrimitives] using exponentLaws.decode_encode
  encode_ne_nil := by simpa only [sealingPrimitives, harbourPrimitives] using exponentLaws.encode_ne_nil
  verify_iff := by simpa only [sealingPrimitives, harbourPrimitives] using exponentLaws.verify_iff
  mirror := exponentLaws.mirror
  sign_valid := by simpa only [sealingPrimitives, harbourPrimitives] using exponentLaws.sign_valid

lemma harbour_prompt : harbourReadings.Prompt sealingPrimitives defaultSettings 0 where
  trusted := rfl
  authorized := by decide +kernel
  allows := rfl
  addr := rfl
  answer_addr := ⟨[], rfl⟩
  pong_addr := ⟨[], rfl⟩
  sends := ⟨rfl, rfl, rfl, rfl⟩
  nonces := ⟨rfl, rfl⟩
  walls := by decide +kernel
  server_times := by decide +kernel
  proxy_times := by decide +kernel

lemma harbour_sent : ∀ m ∈ harbourMessages, m.Sent harbourAddress := by
  have hline : hasSurrogate (str "!AIVDM,1,1,,A,p,0*1A") = false := by decide
  have hone : ReadableNumber 1 := by decide
  have hnumbered : sessionConfirmationSequence < 1 := by decide
  simp only [harbourMessages, List.forall_mem_cons]
  exact ⟨⟨hline, trivial, by decide +kernel, by decide, rfl, rfl, rfl⟩,
    ⟨hone, hnumbered, by decide +kernel, by decide, rfl, rfl, rfl⟩, by simp⟩

lemma harbour_timely : Timely defaultSettings harbourAddress 1 [List.replicate 12 1] harbourMessages := by
  have hsent := harbour_sent
  simp only [harbourMessages, List.forall_mem_cons] at hsent
  refine ⟨hsent.1, by decide, by decide +kernel, by decide +kernel, hsent.2.1, by decide, by decide +kernel,
    by decide +kernel, trivial⟩

end Session

end AisMixer.Sproxy

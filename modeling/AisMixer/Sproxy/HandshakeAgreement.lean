import AisMixer.Sproxy.HandshakeNetwork

/-!
# Agreement

What a proxy and the server know about each other, whatever the network does: a proxy that has keys for a
session has them from the server, which has promoted the session; the server promotes a session, and
queues what it receives in it, when the proxy has the same keys for the same pair of hellos.
-/

namespace AisMixer.Sproxy

open AisMixer.Library AisMixer.Udpsec

section Assumptions

variable {Private Public : Type} (p : Primitives Private Public)

/-- What P-256 computes: both sides share a secret, and a public key is decoded from its point. -/
structure KeyAgreement : Prop where
  exchange_comm : ∀ a b, p.exchange a (p.publicKey b) = p.exchange b (p.publicKey a)
  decode_point : ∀ a, p.fromEncodedPoint (p.publicBytes (p.publicKey a)) = some (p.publicKey a)

/-- The transcripts that an event hashes. -/
def Hashes (call : TranscriptCall) : NetworkEvent Private Public → Prop
  | .client _ (.begun hello _) => call = clientAuthCall hello
  | .client _ (.accepted hello _ serverHello _) =>
    call = serverAuthCall hello serverHello ∨ call = sessionCall hello serverHello
  | .server _ (.installed _ hello _ handshake) =>
    call = clientAuthCall hello ∨ call = serverAuthCall hello handshake.serverHello ∨
      call = sessionCall hello handshake.serverHello
  | _ => False

/-- The keys that an event derives for a pair of hellos. -/
def Derives (hello : ClientHello) (serverHello : ServerHello) (keys : SessionKeyMaterial) :
    NetworkEvent Private Public → Prop
  | .client _ (.accepted hello' _ serverHello' keys') =>
    hello' = hello ∧ serverHello' = serverHello ∧ keys' = keys
  | .server _ (.installed _ hello' _ handshake) =>
    hello' = hello ∧ handshake.serverHello = serverHello ∧ handshake.keys = keys
  | _ => False

/-- No two transcripts of the run have one digest, no two of its derivations one key, and no random octets
are drawn twice. -/
structure NoCollisions (events : List (NetworkEvent Private Public)) : Prop where
  digests : ∀ event ∈ events, ∀ event' ∈ events, ∀ call call' digest, Hashes call event →
    Hashes call' event' → call.run p.sha256 = .ok digest → call'.run p.sha256 = .ok digest → call = call'
  keys : ∀ event ∈ events, ∀ event' ∈ events, ∀ hello hello' serverHello serverHello' keys keys' hash hash',
    Derives hello serverHello keys event → Derives hello' serverHello' keys' event' →
    (sessionCall hello serverHello).run p.sha256 = .ok hash →
    (sessionCall hello' serverHello').run p.sha256 = .ok hash' →
    (keys.clientToServerKey = keys'.clientToServerKey → hash = hash') ∧
      (keys.serverToClientKey = keys'.serverToClientKey → hash = hash') ∧
      keys.clientToServerKey ≠ keys'.serverToClientKey
  clientRandoms : ∀ station hello ephemeral station' hello' ephemeral',
    NetworkEvent.client station (.begun hello ephemeral) ∈ events →
    NetworkEvent.client station' (.begun hello' ephemeral') ∈ events →
    hello.clientRandom = hello'.clientRandom → station = station' ∧ hello = hello' ∧ ephemeral = ephemeral'
  serverRandoms : ∀ listener pending hello ephemeral handshake listener' pending' hello' ephemeral' handshake',
    NetworkEvent.server listener (.installed pending hello ephemeral handshake) ∈ events →
    NetworkEvent.server listener' (.installed pending' hello' ephemeral' handshake') ∈ events →
    handshake.serverHello.serverRandom = handshake'.serverHello.serverRandom →
    listener = listener' ∧ hello = hello' ∧ ephemeral = ephemeral' ∧ handshake = handshake'

end Assumptions

section Agreement

variable {Private Public : Type} {p : Primitives Private Public} {cfg : SecureSettings}
  {secure : Public → Prop} {events : List (NetworkEvent Private Public)} {network : Network Private Public}

/-! ### What the two sides compute -/

lemma clientHello_eq {hello hello' : ClientHello} {serverHello serverHello' : ServerHello}
    (h : sessionCall hello serverHello = sessionCall hello' serverHello') :
    hello = hello' ∧ serverHello = serverHello' := by
  simp only [sessionCall, TranscriptCall.sessionTranscript.injEq] at h
  obtain ⟨hstation, htime, hrandom, hkey, hsignature, hserverRandom, hserverKey, hserverSignature⟩ := h
  cases hello
  cases hello'
  cases serverHello
  cases serverHello'
  simp_all

lemma parseEphemeralPublicKey_ok {encoded : Bytes} {publicKey : Public}
    (h : parseEphemeralPublicKey p encoded = .ok publicKey) : p.fromEncodedPoint encoded = some publicKey := by
  simp only [parseEphemeralPublicKey, bind_eq_ok_iff, requiredBytes_ok_iff, throw_if_eq_ok_iff,
    orRaise_eq_ok_iff] at h
  obtain ⟨_, ⟨-, rfl⟩, -, -, point, hpoint, canonical, -, -, hresult⟩ := h
  cases hresult
  exact hpoint

/-- The point of a key is parsed as its public key. -/
lemma parse_own_point (laws : KeyAgreement p) {encoded : Bytes} {publicKey : Public} {ephemeral : Private}
    (hencoded : encoded = p.publicBytes (p.publicKey ephemeral))
    (hparse : parseEphemeralPublicKey p encoded = .ok publicKey) : publicKey = p.publicKey ephemeral := by
  have hpoint := parseEphemeralPublicKey_ok hparse
  rw [hencoded, laws.decode_point] at hpoint
  exact (Option.some.inj hpoint).symm

lemma deriveEphemeralSharedSecret_ok {privateKey : Private} {publicKey : Public} {secret : Bytes}
    (h : deriveEphemeralSharedSecret p privateKey publicKey = .ok secret) :
    secret = p.exchange privateKey publicKey := by
  unfold deriveEphemeralSharedSecret at h
  dsimp only at h
  split at h
  · cases h
  · exact (Except.ok.inj h).symm

lemma deriveHandshakeKeys_ok {waiting : Waiting Private} {serverHello : ServerHello} {serverEphemeral : Public}
    {keys : SessionKeyMaterial} (h : deriveHandshakeKeys p waiting serverHello serverEphemeral = .ok keys) :
    ∃ hash, (sessionCall waiting.hello serverHello).run p.sha256 = .ok hash ∧
      deriveSessionKeyMaterial p (p.exchange waiting.ephemeral serverEphemeral) hash = .ok keys := by
  obtain ⟨secret, hsecret, h⟩ := bind_eq_ok_iff.mp h
  obtain ⟨hash, hhash, hkeys⟩ := bind_eq_ok_iff.mp h
  rw [deriveEphemeralSharedSecret_ok hsecret] at hkeys
  exact ⟨hash, hhash, hkeys⟩

/-- What the server puts into its answer. -/
lemma buildServerHandshake_ok {listener : Listener Private Public} {hello : ClientHello}
    {clientEphemeral : Public} {reception : Reception Private} {handshake : ServerHandshake}
    (h : buildServerHandshake p listener hello clientEphemeral reception = .ok handshake) :
    handshake.serverHello.serverEphemeralPublicKey = p.publicBytes (p.publicKey reception.serverEphemeral) ∧
      ∃ hash, (sessionCall hello handshake.serverHello).run p.sha256 = .ok hash ∧
        deriveSessionKeyMaterial p (p.exchange reception.serverEphemeral clientEphemeral) hash =
          .ok handshake.keys := by
  obtain ⟨bytes, hbytes, h⟩ := bind_eq_ok_iff.mp h
  obtain ⟨digest, hdigest, h⟩ := bind_eq_ok_iff.mp h
  obtain ⟨signature, hsignature, h⟩ := bind_eq_ok_iff.mp h
  obtain ⟨secret, hsecret, h⟩ := bind_eq_ok_iff.mp h
  obtain ⟨hash, hhash, h⟩ := bind_eq_ok_iff.mp h
  obtain ⟨keys, hkeys, h⟩ := bind_eq_ok_iff.mp h
  obtain ⟨serverHello, hserverHello, h⟩ := bind_eq_ok_iff.mp h
  obtain rfl := Except.ok.inj h
  obtain ⟨hrandom, hkey, hsigned⟩ := makeServerHello_ok hserverHello
  rw [deriveEphemeralSharedSecret_ok hsecret] at hkeys
  refine ⟨hkey.trans (serializeEphemeralPublicKey_ok hbytes), hash, ?_, hkeys⟩
  rw [sessionCall, hrandom, hkey, hsigned]
  exact hhash

/-! ### Two events about one session -/

/-- Accepted keys are those of the session transcript and of the two ephemeral keys. -/
lemma accepted_keys (laws : KeyAgreement p) (right : NetworkRight p secure events network)
    {station : Station Private Public} {hello : ClientHello} {ephemeral serverEphemeral : Private}
    {serverHello : ServerHello} {keys : SessionKeyMaterial}
    (haccepted : NetworkEvent.client station (.accepted hello ephemeral serverHello keys) ∈ events)
    (hpoint : serverHello.serverEphemeralPublicKey = p.publicBytes (p.publicKey serverEphemeral)) :
    ∃ hash, (sessionCall hello serverHello).run p.sha256 = .ok hash ∧
      deriveSessionKeyMaterial p (p.exchange ephemeral (p.publicKey serverEphemeral)) hash = .ok keys := by
  have hright : AcceptedRight p secure events station hello ephemeral serverHello keys :=
    right.explained _ haccepted
  obtain ⟨waiting, rfl, rfl, publicKey, hparse, hkeys⟩ := hright.derived
  obtain rfl := parse_own_point laws hpoint hparse
  exact deriveHandshakeKeys_ok hkeys

/-- A digest of an accepted session exists, whoever has answered. -/
lemma accepted_hash (right : NetworkRight p secure events network) {station : Station Private Public}
    {hello : ClientHello} {ephemeral : Private} {serverHello : ServerHello} {keys : SessionKeyMaterial}
    (haccepted : NetworkEvent.client station (.accepted hello ephemeral serverHello keys) ∈ events) :
    ∃ hash, (sessionCall hello serverHello).run p.sha256 = .ok hash := by
  have hright : AcceptedRight p secure events station hello ephemeral serverHello keys :=
    right.explained _ haccepted
  obtain ⟨waiting, rfl, rfl, publicKey, hparse, hkeys⟩ := hright.derived
  obtain ⟨hash, hhash, -⟩ := deriveHandshakeKeys_ok hkeys
  exact ⟨hash, hhash⟩

/-- Installed keys are those of the session transcript and of the two ephemeral keys. -/
lemma installed_keys (laws : KeyAgreement p) (right : NetworkRight p secure events network)
    {listener : Listener Private Public} {pending : PendingSecureSession} {hello : ClientHello}
    {ephemeral clientEphemeral : Private} {handshake : ServerHandshake}
    (hinstalled : NetworkEvent.server listener (.installed pending hello ephemeral handshake) ∈ events)
    (hpoint : hello.clientEphemeralPublicKey = p.publicBytes (p.publicKey clientEphemeral)) :
    handshake.serverHello.serverEphemeralPublicKey = p.publicBytes (p.publicKey ephemeral) ∧
      ∃ hash, (sessionCall hello handshake.serverHello).run p.sha256 = .ok hash ∧
        deriveSessionKeyMaterial p (p.exchange clientEphemeral (p.publicKey ephemeral)) hash =
          .ok handshake.keys := by
  have hright : InstalledRight p secure events listener pending hello ephemeral handshake :=
    right.explained _ hinstalled
  obtain ⟨reception, hanswers⟩ := hright.answers
  obtain ⟨publicKey, hparse, hbuilt⟩ := hanswers.built
  obtain rfl := hanswers.own
  obtain rfl := parse_own_point laws hpoint hparse
  rw [laws.exchange_comm]
  exact buildServerHandshake_ok hbuilt

lemma installed_hash (right : NetworkRight p secure events network) {listener : Listener Private Public}
    {pending : PendingSecureSession} {hello : ClientHello} {ephemeral : Private} {handshake : ServerHandshake}
    (hinstalled : NetworkEvent.server listener (.installed pending hello ephemeral handshake) ∈ events) :
    ∃ hash, (sessionCall hello handshake.serverHello).run p.sha256 = .ok hash := by
  have hright : InstalledRight p secure events listener pending hello ephemeral handshake :=
    right.explained _ hinstalled
  obtain ⟨reception, hanswers⟩ := hright.answers
  obtain ⟨publicKey, -, hbuilt⟩ := hanswers.built
  obtain ⟨-, hash, hhash, -⟩ := buildServerHandshake_ok hbuilt
  exact ⟨hash, hhash⟩

/-- A proxy and the server with one session transcript have the same keys. -/
lemma same_keys (laws : KeyAgreement p) (right : NetworkRight p secure events network)
    {station : Station Private Public} {hello : ClientHello} {ephemeral serverEphemeral : Private}
    {keys : SessionKeyMaterial} {listener : Listener Private Public} {pending : PendingSecureSession}
    {handshake : ServerHandshake}
    (haccepted : NetworkEvent.client station (.accepted hello ephemeral handshake.serverHello keys) ∈ events)
    (hinstalled : NetworkEvent.server listener (.installed pending hello serverEphemeral handshake) ∈ events) :
    keys = handshake.keys := by
  have hright : AcceptedRight p secure events station hello ephemeral handshake.serverHello keys :=
    right.explained _ haccepted
  have hbegins : Begins p station hello ephemeral := right.explained _ hright.begun
  obtain ⟨hpoint, hash, hhash, hkeys⟩ := installed_keys laws right hinstalled hbegins.publicKey
  obtain ⟨hash', hhash', hkeys'⟩ := accepted_keys laws right haccepted hpoint
  obtain rfl := Except.ok.inj (hhash.symm.trans hhash')
  exact Except.ok.inj (hkeys'.symm.trans hkeys)

/-- Events with one key have one session transcript. -/
lemma same_hellos (hcollisions : NoCollisions p events) {event event' : NetworkEvent Private Public}
    (hmem : event ∈ events) (hmem' : event' ∈ events) {hello hello' : ClientHello}
    {serverHello serverHello' : ServerHello} {keys keys' : SessionKeyMaterial} {hash hash' : Bytes}
    (hderives : Derives hello serverHello keys event) (hderives' : Derives hello' serverHello' keys' event')
    (hhashes : Hashes (sessionCall hello serverHello) event)
    (hhashes' : Hashes (sessionCall hello' serverHello') event')
    (hhash : (sessionCall hello serverHello).run p.sha256 = .ok hash)
    (hhash' : (sessionCall hello' serverHello').run p.sha256 = .ok hash')
    (hkey : keys.clientToServerKey = keys'.clientToServerKey ∨ keys.serverToClientKey = keys'.serverToClientKey) :
    hello = hello' ∧ serverHello = serverHello' := by
  obtain ⟨hclient, hserver, -⟩ := hcollisions.keys event hmem event' hmem' _ _ _ _ _ _ _ _ hderives hderives'
    hhash hhash'
  have heq : hash = hash' := hkey.elim hclient hserver
  apply clientHello_eq
  exact hcollisions.digests event hmem event' hmem' _ _ hash hhashes hhashes' hhash (heq ▸ hhash')

/-! ### Who answered, and who asked -/

/-- The holder of the server's identity has answered the ClientHello of an accepted session. -/
lemma accepted_was_answered (right : NetworkRight p secure events network) (hcollisions : NoCollisions p events)
    {station : Station Private Public} {hello : ClientHello} {ephemeral : Private} {serverHello : ServerHello}
    {keys : SessionKeyMaterial}
    (haccepted : NetworkEvent.client station (.accepted hello ephemeral serverHello keys) ∈ events)
    (hsecure : secure station.serverIdentityPublicKey) :
    ∃ listener pending serverEphemeral handshake,
      NetworkEvent.server listener (.installed pending hello serverEphemeral handshake) ∈ events ∧
        p.publicKey listener.serverPriv = station.serverIdentityPublicKey ∧
        handshake.serverHello.serverRandom = serverHello.serverRandom ∧
        handshake.serverHello.serverEphemeralPublicKey = serverHello.serverEphemeralPublicKey := by
  have hright : AcceptedRight p secure events station hello ephemeral serverHello keys :=
    right.explained _ haccepted
  obtain ⟨digest, hdigest, event, hmem, hsigns⟩ := hright.signed hsecure
  have hsame {call : TranscriptCall} (hhashes : Hashes call event) (hrun : call.run p.sha256 = .ok digest) :
      call = serverAuthCall hello serverHello :=
    hcollisions.digests event hmem _ haccepted _ _ digest hhashes (.inl rfl) hrun hdigest
  match event, hsigns with
  | .client _ (.begun _ _), hsigns => cases hsame rfl hsigns.2
  | .server listener (.installed pending hello' serverEphemeral handshake), hsigns =>
    have hcall := hsame (.inr (.inl rfl)) hsigns.2
    simp only [serverAuthCall, TranscriptCall.serverAuth.injEq] at hcall
    obtain ⟨hstation, htime, hrandom, hkey, hsignature, hserverRandom, hserverKey⟩ := hcall
    have hhello : hello' = hello := by
      cases hello
      cases hello'
      simp_all
    exact ⟨listener, pending, serverEphemeral, handshake, hhello ▸ hmem, hsigns.1, hserverRandom, hserverKey⟩

/-- The holder of the authorised identity of the station has begun the handshake of an installed session. -/
lemma installed_was_begun (right : NetworkRight p secure events network) (hcollisions : NoCollisions p events)
    {listener : Listener Private Public} {pending : PendingSecureSession} {hello : ClientHello}
    {ephemeral : Private} {handshake : ServerHandshake}
    (hinstalled : NetworkEvent.server listener (.installed pending hello ephemeral handshake) ∈ events)
    (hsecure : ∀ identity, listener.authorizedKeys.get? hello.stationId = some identity → secure identity) :
    ∃ station hello' clientEphemeral,
      NetworkEvent.client station (.begun hello' clientEphemeral) ∈ events ∧
        listener.authorizedKeys.get? hello.stationId = some (p.publicKey station.identityPrivateKey) ∧
        clientAuthCall hello' = clientAuthCall hello := by
  have hright : InstalledRight p secure events listener pending hello ephemeral handshake :=
    right.explained _ hinstalled
  obtain ⟨identity, digest, hidentity, hdigest, hsigned⟩ := hright.signed
  obtain ⟨event, hmem, hsigns⟩ := hsigned (hsecure identity hidentity)
  have hsame {call : TranscriptCall} (hhashes : Hashes call event) (hrun : call.run p.sha256 = .ok digest) :
      call = clientAuthCall hello :=
    hcollisions.digests event hmem _ hinstalled _ _ digest hhashes (.inl rfl) hrun hdigest
  match event, hsigns with
  | .client station (.begun hello' clientEphemeral), hsigns =>
    exact ⟨station, hello', clientEphemeral, hmem, hsigns.1 ▸ hidentity, hsame rfl hsigns.2⟩
  | .server _ (.installed _ _ _ _), hsigns => cases hsame (.inr (.inl rfl)) hsigns.2

/-! ### Who encrypted -/

lemma accepted_shared (laws : KeyAgreement p) (right : NetworkRight p secure events network)
    (hcollisions : NoCollisions p events) {station : Station Private Public} {hello : ClientHello}
    {ephemeral : Private} {serverHello : ServerHello} {keys : SessionKeyMaterial}
    (haccepted : NetworkEvent.client station (.accepted hello ephemeral serverHello keys) ∈ events)
    (hsecure : secure station.serverIdentityPublicKey) : SharedKey p events keys.serverToClientKey := by
  have hright : AcceptedRight p secure events station hello ephemeral serverHello keys :=
    right.explained _ haccepted
  have hbegins : Begins p station hello ephemeral := right.explained _ hright.begun
  obtain ⟨listener, pending, serverEphemeral, handshake, hinstalled, -, -, hpoint⟩ :=
    accepted_was_answered right hcollisions haccepted hsecure
  obtain ⟨hserverPoint, -⟩ := installed_keys laws right hinstalled hbegins.publicKey
  obtain ⟨hash, -, hkeys⟩ := accepted_keys laws right haccepted (hpoint.symm.trans hserverPoint)
  exact ⟨station, hello, ephemeral, listener, pending, hello, serverEphemeral, handshake, hash, _,
    hright.begun, hinstalled, (deriveSessionKeyMaterial_ok hkeys).2⟩

lemma installed_shared (laws : KeyAgreement p) (right : NetworkRight p secure events network)
    (hcollisions : NoCollisions p events) {listener : Listener Private Public} {pending : PendingSecureSession}
    {hello : ClientHello} {ephemeral : Private} {handshake : ServerHandshake}
    (hinstalled : NetworkEvent.server listener (.installed pending hello ephemeral handshake) ∈ events)
    (hsecure : ∀ identity, listener.authorizedKeys.get? hello.stationId = some identity → secure identity) :
    SharedKey p events handshake.keys.clientToServerKey := by
  obtain ⟨station, hello', clientEphemeral, hbegun, -, hcall⟩ :=
    installed_was_begun right hcollisions hinstalled hsecure
  have hbegins : Begins p station hello' clientEphemeral := right.explained _ hbegun
  simp only [clientAuthCall, TranscriptCall.clientAuth.injEq] at hcall
  obtain ⟨-, hash, -, hkeys⟩ :=
    installed_keys laws right hinstalled (hcall.2.2.2.symm.trans hbegins.publicKey)
  exact ⟨station, hello', clientEphemeral, listener, pending, hello, ephemeral, handshake, hash, _, hbegun,
    hinstalled, (deriveSessionKeyMaterial_ok hkeys).1⟩

/-- A text is encrypted by a proxy, or by the server in a session that it has promoted. -/
lemma seals_cases (right : NetworkRight p secure events network) {event : NetworkEvent Private Public}
    {key plaintext : Bytes} (hmem : event ∈ events) (hseals : Seals key plaintext event) :
    (∃ station nonce, event = .client station (.encrypted key nonce plaintext) ∧
      ClientText events station key plaintext) ∨
      ∃ secrets, WasPromoted events secrets ∧ secrets.serverToClientKey = key := by
  have hexplained := right.explained event hmem
  match event, hseals, hexplained with
  | .client station (.encrypted _ nonce _), hseals, hexplained =>
    obtain ⟨rfl, rfl⟩ := hseals
    exact .inl ⟨station, nonce, rfl, hexplained⟩
  | .server _ (.encrypted _ _ _), hseals, hexplained =>
    obtain ⟨rfl, rfl⟩ := hseals
    exact .inr hexplained

/-- A promoted session has the keys that the server had derived for its ClientHello. -/
lemma promoted_was_installed (right : NetworkRight p secure events network) {secrets : SessionSecrets}
    (h : WasPromoted events secrets) : ∃ listener pending hello ephemeral handshake,
    NetworkEvent.server listener (.installed pending hello ephemeral handshake) ∈ events ∧
      secrets = ⟨hello.stationId, handshake.keys.clientToServerKey, handshake.keys.serverToClientKey⟩ := by
  obtain ⟨listener, pending, session, hmem, rfl⟩ := h
  have hpromoted : session.secrets = pending.secrets ∧ WasInstalled events pending.secrets :=
    right.explained _ hmem
  obtain ⟨hsame, listener', pending', hello, ephemeral, handshake, hinstalled, hsecrets⟩ := hpromoted
  have hright : InstalledRight p secure events listener' pending' hello ephemeral handshake :=
    right.explained _ hinstalled
  obtain ⟨reception, hanswers⟩ := hright.answers
  exact ⟨listener', pending', hello, ephemeral, handshake, hinstalled,
    hsame.trans (hsecrets.symm.trans hanswers.secrets)⟩

/-- Only the proxy with the same keys encrypts with the client's key of an installed session. -/
lemma sealed_by_client (laws : KeyAgreement p) (right : NetworkRight p secure events network)
    (hcollisions : NoCollisions p events) {listener : Listener Private Public} {pending : PendingSecureSession}
    {hello : ClientHello} {ephemeral : Private} {handshake : ServerHandshake} {plaintext : Bytes}
    (hinstalled : NetworkEvent.server listener (.installed pending hello ephemeral handshake) ∈ events)
    {event : NetworkEvent Private Public} (hmem : event ∈ events)
    (hseals : Seals handshake.keys.clientToServerKey plaintext event) :
    ∃ station nonce clientEphemeral content wall,
      event = .client station (.encrypted handshake.keys.clientToServerKey nonce plaintext) ∧
        NetworkEvent.client station
          (.accepted hello clientEphemeral handshake.serverHello handshake.keys) ∈ events ∧
        loadMessage plaintext = .ok (ClientMessage.json wall station.stationId content) ∧
        ∀ cleanLine, content = .nmea cleanLine →
          NetworkEvent.forwarded station handshake.keys content ∈ events := by
  obtain ⟨hash, hhash⟩ := installed_hash right hinstalled
  rcases seals_cases right hmem hseals with ⟨station, nonce, hevent, hello', clientEphemeral, serverHello, keys,
    content, wall, haccepted, hkey, hload, hforwarded⟩ | ⟨secrets, hpromoted, hkey⟩
  · obtain ⟨hash', hhash'⟩ := accepted_hash right haccepted
    obtain ⟨rfl, rfl⟩ := same_hellos hcollisions haccepted hinstalled ⟨rfl, rfl, rfl⟩ ⟨rfl, rfl, rfl⟩ (.inr rfl)
      (.inr (.inr rfl)) hhash' hhash (.inl hkey)
    obtain rfl := same_keys laws right haccepted hinstalled
    exact ⟨station, nonce, clientEphemeral, content, wall, hevent, haccepted, hload, hforwarded⟩
  · obtain ⟨listener', pending', hello', ephemeral', handshake', hinstalled', rfl⟩ :=
      promoted_was_installed right hpromoted
    obtain ⟨hash', hhash'⟩ := installed_hash right hinstalled'
    have hdistinct := (hcollisions.keys _ hinstalled _ hinstalled' _ _ _ _ _ _ hash hash' ⟨rfl, rfl, rfl⟩
      ⟨rfl, rfl, rfl⟩ hhash hhash').2.2
    exact (hdistinct hkey.symm).elim

/-- What the server opens with the key of an installed session comes from the proxy with the same keys. -/
lemma opened_by_server (laws : KeyAgreement p) (right : NetworkRight p secure events network)
    (hcollisions : NoCollisions p events) {listener : Listener Private Public} {pending : PendingSecureSession}
    {hello : ClientHello} {ephemeral : Private} {handshake : ServerHandshake}
    {data nonce ciphertext plaintext : Bytes}
    (hunforged : Unforged p secure events data)
    (hinstalled : NetworkEvent.server listener (.installed pending hello ephemeral handshake) ∈ events)
    (hsecure : ∀ identity, listener.authorizedKeys.get? hello.stationId = some identity → secure identity)
    (hparse : parseSecureDataPacket data = .ok (nonce, ciphertext))
    (hdecrypt : p.decrypt handshake.keys.clientToServerKey nonce ciphertext dataAad = some plaintext) :
    ∃ station clientEphemeral content wall,
      NetworkEvent.client station
          (.accepted hello clientEphemeral handshake.serverHello handshake.keys) ∈ events ∧
        loadMessage plaintext = .ok (ClientMessage.json wall station.stationId content) ∧
        ∀ cleanLine, content = .nmea cleanLine →
          NetworkEvent.forwarded station handshake.keys content ∈ events := by
  obtain ⟨event, hmem, hseals⟩ := hunforged.ciphertext _ nonce ciphertext plaintext
    (installed_shared laws right hcollisions hinstalled hsecure) hparse hdecrypt
  obtain ⟨station, nonce', clientEphemeral, content, wall, -, haccepted, hload, hforwarded⟩ :=
    sealed_by_client laws right hcollisions hinstalled hmem hseals
  exact ⟨station, clientEphemeral, content, wall, haccepted, hload, hforwarded⟩

/-- What a proxy opens with the key of its session comes from the server, which has promoted the session. -/
lemma opened_by_client (laws : KeyAgreement p) (right : NetworkRight p secure events network)
    (hcollisions : NoCollisions p events) {station : Station Private Public} {hello : ClientHello}
    {ephemeral : Private} {serverHello : ServerHello} {keys : SessionKeyMaterial}
    {data nonce ciphertext plaintext : Bytes} (hunforged : Unforged p secure events data)
    (haccepted : NetworkEvent.client station (.accepted hello ephemeral serverHello keys) ∈ events)
    (hsecure : secure station.serverIdentityPublicKey)
    (hparse : parseSecureDataPacket data = .ok (nonce, ciphertext))
    (hdecrypt : p.decrypt keys.serverToClientKey nonce ciphertext dataAad = some plaintext) :
    ∃ listener pending serverEphemeral handshake,
      NetworkEvent.server listener (.installed pending hello serverEphemeral handshake) ∈ events ∧
        handshake.serverHello = serverHello ∧ handshake.keys = keys ∧
        WasPromoted events ⟨hello.stationId, keys.clientToServerKey, keys.serverToClientKey⟩ := by
  obtain ⟨event, hmem, hseals⟩ := hunforged.ciphertext _ nonce ciphertext plaintext
    (accepted_shared laws right hcollisions haccepted hsecure) hparse hdecrypt
  obtain ⟨hash, hhash⟩ := accepted_hash right haccepted
  rcases seals_cases right hmem hseals with
    ⟨station', -, -, hello', clientEphemeral, serverHello', keys', content, wall, haccepted', hkey, -, -⟩ |
    ⟨secrets, hpromoted, hkey⟩
  · obtain ⟨hash', hhash'⟩ := accepted_hash right haccepted'
    have hdistinct := (hcollisions.keys _ haccepted' _ haccepted _ _ _ _ _ _ hash' hash ⟨rfl, rfl, rfl⟩
      ⟨rfl, rfl, rfl⟩ hhash' hhash).2.2
    exact (hdistinct hkey).elim
  · obtain ⟨listener, pending, hello', serverEphemeral, handshake, hinstalled, rfl⟩ :=
      promoted_was_installed right hpromoted
    obtain ⟨hash', hhash'⟩ := installed_hash right hinstalled
    obtain ⟨rfl, rfl⟩ := same_hellos hcollisions hinstalled haccepted ⟨rfl, rfl, rfl⟩ ⟨rfl, rfl, rfl⟩
      (.inr (.inr rfl)) (.inr rfl) hhash' hhash (.inr hkey)
    obtain rfl := same_keys laws right haccepted hinstalled
    exact ⟨listener, pending, serverEphemeral, handshake, hinstalled, rfl, rfl, hpromoted⟩

/-! ### Steps -/

lemma mem_step_server {listener : Listener Private Public} {event : ListenerEvent Private}
    {action : NetworkAction Private Public}
    (h : NetworkEvent.server listener event ∈ (network.step p cfg action).2) :
    ∃ reception, action = .listen listener reception ∧
      event ∈ (receive p cfg listener network.server reception).2 := by
  cases action with
  | listen listener' reception =>
    obtain ⟨own, hown, heq⟩ := List.mem_map.mp h
    cases heq
    exact ⟨reception, rfl, hown⟩
  | start station start =>
    obtain ⟨own, -, heq⟩ := List.mem_map.mp h
    cases heq
  | turn index turn =>
    simp only [Network.step] at h
    split at h
    · cases h
    · obtain ⟨own, -, heq⟩ := List.mem_map.mp h
      cases heq
  | forward index content wall iv =>
    simp only [Network.step, forwardMessage] at h
    split at h
    · split at h
      · cases h
      · simp at h
    · cases h

/-- A proxy confirms a session when a pong of the session is authentic. -/
lemma mem_step_confirmed {station : Station Private Public} {hello : ClientHello} {keys : SessionKeyMaterial}
    {action : NetworkAction Private Public}
    (h : NetworkEvent.client station (.confirmed hello keys) ∈ (network.step p cfg action).2) :
    ∃ index turn waiting deadline data addr, action = .turn index turn ∧
      ⟨station, .awaitingConfirmation waiting keys deadline⟩ ∈ network.parties ∧ waiting.hello = hello ∧
      turn.received = .datagram data addr ∧
      handleServerPacket p data addr station.remoteAddr keys.serverToClientKey station.stationId
        (some sessionConfirmationSequence) = .authenticated := by
  cases action with
  | listen listener reception =>
    obtain ⟨own, -, heq⟩ := List.mem_map.mp h
    cases heq
  | start station' start =>
    obtain ⟨own, hown, heq⟩ := List.mem_map.mp h
    cases heq
    cases hstart : beginHandshake p station start with
    | mk state events =>
      have houtcome := beginHandshake_outcome p station start
      rw [hstart] at houtcome hown
      cases houtcome <;> simp at hown
  | turn index turn =>
    simp only [Network.step] at h
    split at h
    · cases h
    · next party hparty =>
      obtain ⟨own, hown, heq⟩ := List.mem_map.mp h
      cases heq
      obtain ⟨station, state⟩ := party
      have houtcome := handshakeTurn_outcome p station turn state
      dsimp only at hown
      generalize handshakeTurn p station turn state = result at houtcome hown
      cases houtcome with
      | stays quiet => exact (quiet _ hown).elim
      | leaves ends => exact (ends.2 _ hown).elim
      | accepts state_eq received accepted text next_eq quiet_before quiet =>
        rcases List.mem_append.mp hown with hown | hown
        · exact (quiet_before _ hown).elim
        · simp only [List.mem_cons, reduceCtorEq, false_or] at hown
          exact (quiet _ hown).elim
      | @confirms waiting keys' deadline data addr before state_eq received authentic quiet_before =>
        subst state_eq
        rcases List.mem_append.mp hown with hown | hown
        · exact (quiet_before _ hown).elim
        · cases List.mem_singleton.mp hown
          exact ⟨index, turn, waiting, deadline, data, addr, rfl, List.mem_of_getElem? hparty, rfl, received,
            authentic⟩
  | forward index content wall iv =>
    simp only [Network.step, forwardMessage] at h
    split at h
    · split at h
      · cases h
      · simp at h
    · cases h

/-- An authentic packet of the server is a DATA packet that decrypts. -/
lemma authenticated_decrypts {data key : Bytes} {addr remoteAddr : Address} {stationId : PyStr}
    {expected : Option Int}
    (h : handleServerPacket p data addr remoteAddr key stationId expected = .authenticated) :
    ∃ nonce ciphertext plaintext, parseSecureDataPacket data = .ok (nonce, ciphertext) ∧
      p.decrypt key nonce ciphertext dataAad = some plaintext := by
  unfold handleServerPacket at h
  split at h
  · cases h
  split at h
  · cases h
  cases hopen : decryptSecureJsonMessage p data key with
  | error e =>
    rw [hopen] at h
    cases h
  | ok message =>
    unfold decryptSecureJsonMessage at hopen
    split at hopen
    · cases hopen
    · next hformat =>
      rw [Bool.or_eq_true, not_or, decide_eq_true_eq] at hformat
      obtain ⟨plaintext, hplaintext, -⟩ := bind_eq_ok_iff.mp hopen
      refine ⟨_, _, plaintext, ?_, orRaise_eq_ok_iff.mp hplaintext⟩
      rw [parseSecureDataPacket, if_neg hformat.1, if_neg hformat.2]

/-- The identities that are authorised for a station are secure, in all handshakes of the run. -/
def SecureStation (secure : Public → Prop) (events : List (NetworkEvent Private Public)) (stationId : PyStr) :
    Prop :=
  ∀ listener pending hello ephemeral handshake identity,
    NetworkEvent.server listener (.installed pending hello ephemeral handshake) ∈ events →
    hello.stationId = stationId → listener.authorizedKeys.get? stationId = some identity → secure identity

/-- A pong that is taken for the confirmation of a session comes from the holder of the server's identity. -/
lemma confirmed_by_server (laws : KeyAgreement p) (right : NetworkRight p secure events network)
    (hcollisions : NoCollisions p events) {action : NetworkAction Private Public}
    (hallowed : Allowed p secure events action) {station : Station Private Public} {hello : ClientHello}
    {keys : SessionKeyMaterial} (hsecure : secure station.serverIdentityPublicKey)
    (hconfirmed : NetworkEvent.client station (.confirmed hello keys) ∈ (network.step p cfg action).2) :
    (∃ ephemeral serverHello,
      NetworkEvent.client station (.accepted hello ephemeral serverHello keys) ∈ events) ∧
      (∃ listener pending ephemeral handshake,
        NetworkEvent.server listener (.installed pending hello ephemeral handshake) ∈ events ∧
          p.publicKey listener.serverPriv = station.serverIdentityPublicKey ∧ handshake.keys = keys) ∧
      WasPromoted events ⟨station.stationId, keys.clientToServerKey, keys.serverToClientKey⟩ := by
  obtain ⟨index, turn, waiting, deadline, data, addr, rfl, hparty, rfl, hreceived, hauthentic⟩ :=
    mem_step_confirmed hconfirmed
  obtain ⟨serverHello, haccepted⟩ := right.parties _ hparty
  have hbegins : Begins p station waiting.hello waiting.ephemeral :=
    right.explained _ (right.explained _ haccepted).begun
  obtain ⟨nonce, ciphertext, plaintext, hparse, hdecrypt⟩ := authenticated_decrypts hauthentic
  obtain ⟨listener, pending, ephemeral, handshake, hinstalled, hserverHello, hkeys, hpromoted⟩ :=
    opened_by_client laws right hcollisions (hallowed.2 data addr hreceived) haccepted hsecure hparse hdecrypt
  obtain ⟨listener', pending', ephemeral', handshake', hinstalled', hidentity, hrandom, -⟩ :=
    accepted_was_answered right hcollisions haccepted hsecure
  obtain ⟨rfl, -, -, -⟩ := hcollisions.serverRandoms _ _ _ _ _ _ _ _ _ _ hinstalled hinstalled'
    ((congrArg ServerHello.serverRandom hserverHello).trans hrandom.symm)
  refine ⟨⟨_, _, haccepted⟩, ⟨listener, pending, ephemeral, handshake, hinstalled, hidentity, hkeys⟩, ?_⟩
  rw [← hbegins.stationId]
  exact hpromoted

/-! ### A run in the harbour -/

section Harbour

/-- Primitives of which nothing is secret: a key stands behind what it encrypts. -/
def sealingPrimitives : Primitives Nat Nat :=
  { harbourPrimitives with
    exchange := fun key peer => bigEndian 32 (key % 2 ^ 255 * peer)
    encrypt := fun key _ text _ => text ++ key
    decrypt := fun key _ ciphertext _ =>
      if ciphertext.drop (ciphertext.length - 32) = key then some (ciphertext.take (ciphertext.length - 32))
      else none }

def harbourServer : Address := ⟨str "192.0.2.1", 19999, []⟩

def harbourStation : Station Nat Nat where
  stationId := str "boat1"
  identityPrivateKey := 7
  serverIdentityPublicKey := sealingPrimitives.publicKey 5
  remoteAddr := harbourServer

def harbourStart : HandshakeStart Nat where
  wall := 1000
  clientRandom := List.replicate 32 1
  clientEphemeral := 3
  signatureDraw := []
  sendFails := false
  originalTimeout := some 5
  now := 0

def harbourTurn (data : Bytes) (now : ℚ) : HandshakeTurn where
  now := now
  received := .datagram data harbourServer
  wall := 1000
  iv := List.replicate 12 1
  sendFails := false
  confirmationNow := now

/-- Every step but the first and the one that forwards a sentence receives what was sent last. -/
def harbourAction (data : Bytes) : Nat → NetworkAction Nat Nat
  | 0 => .start harbourStation harbourStart
  | 1 => .listen harbourListener (harbourReception data 0)
  | 2 => .turn 0 (harbourTurn data 1)
  | 3 => .listen harbourListener (harbourReception data 1)
  | 4 => .turn 0 (harbourTurn data 2)
  | 5 => .forward 0 (.nmea (str "!AIVDM,1,1,,A,p,0*1A")) 1002 (List.replicate 12 2)
  | _ => .listen harbourListener (harbourReception data 3)

def harbourRun : Nat → Network Nat Nat × List (NetworkEvent Nat Nat)
  | 0 => (⟨.init defaultSettings, []⟩, [])
  | n + 1 =>
    let run := harbourRun n
    let result := run.1.step sealingPrimitives defaultSettings (harbourAction (packetSent run.2) n)
    (result.1, run.2 ++ result.2)

/-- The identities of the station and of the server. -/
def harbourIdentities : List Nat := [5, 7]

def HarbourSecure (identity : Nat) : Prop := identity ∈ harbourIdentities

/-! #### Checks -/

def signsCheck (identity : Nat) (digest : Bytes) : NetworkEvent Nat Nat → Bool
  | .client station (.begun hello _) =>
    sealingPrimitives.publicKey station.identityPrivateKey = identity ∧
      (clientAuthCall hello).run sealingPrimitives.sha256 = .ok digest
  | .server listener (.installed _ hello _ handshake) =>
    sealingPrimitives.publicKey listener.serverPriv = identity ∧
      (serverAuthCall hello handshake.serverHello).run sealingPrimitives.sha256 = .ok digest
  | _ => false

lemma signs_of_check {identity : Nat} {digest : Bytes} {past : List (NetworkEvent Nat Nat)}
    (h : past.any (signsCheck identity digest) = true) :
    ∃ event ∈ past, Signs sealingPrimitives identity digest event := by
  obtain ⟨event, hmem, hcheck⟩ := List.any_eq_true.mp h
  refine ⟨event, hmem, ?_⟩
  match event, hcheck with
  | .client _ (.begun _ _), hcheck => simpa [signsCheck, Signs] using hcheck
  | .server _ (.installed _ _ _ _), hcheck => simpa [signsCheck, Signs] using hcheck

def sealsCheck (key plaintext : Bytes) : NetworkEvent Nat Nat → Bool
  | .client _ (.encrypted key' _ plaintext') => key' = key ∧ plaintext' = plaintext
  | .server _ (.encrypted key' _ plaintext') => key' = key ∧ plaintext' = plaintext
  | _ => false

lemma seals_of_check {key plaintext : Bytes} {past : List (NetworkEvent Nat Nat)}
    (h : past.any (sealsCheck key plaintext) = true) : ∃ event ∈ past, Seals key plaintext event := by
  obtain ⟨event, hmem, hcheck⟩ := List.any_eq_true.mp h
  refine ⟨event, hmem, ?_⟩
  match event, hcheck with
  | .client _ (.encrypted _ _ _), hcheck => simpa [sealsCheck, Seals] using hcheck
  | .server _ (.encrypted _ _ _), hcheck => simpa [sealsCheck, Seals] using hcheck

/-- A signature over the digest of a transcript is none of a secure identity, or was made before. -/
def signatureCheck (past : List (NetworkEvent Nat Nat)) (call : TranscriptCall) (signature : Bytes) : Bool :=
  harbourIdentities.all (fun identity =>
    match call.run sealingPrimitives.sha256 with
    | .error _ => true
    | .ok digest => !(verifyTranscriptSignature sealingPrimitives identity signature digest = .ok true) ||
        past.any (signsCheck identity digest))

lemma signed_of_check {past : List (NetworkEvent Nat Nat)} {call : TranscriptCall}
    {signature digest : Bytes} {identity : Nat} (h : signatureCheck past call signature = true)
    (hsecure : HarbourSecure identity) (hdigest : call.run sealingPrimitives.sha256 = .ok digest)
    (hverified : verifyTranscriptSignature sealingPrimitives identity signature digest = .ok true) :
    ∃ event ∈ past, Signs sealingPrimitives identity digest event := by
  have hcheck := List.all_eq_true.mp h identity hsecure
  simp only [hdigest, hverified, decide_true, Bool.not_true, Bool.false_or] at hcheck
  exact signs_of_check hcheck

def queuesFrame : NetworkEvent Nat Nat → Bool
  | .server _ (.queued _) => true
  | _ => false

lemma queued_of_check {events : List (NetworkEvent Nat Nat)} (h : events.any queuesFrame = true) :
    ∃ listener frame, NetworkEvent.server listener (.queued frame) ∈ events := by
  obtain ⟨event, hmem, hevent⟩ := List.any_eq_true.mp h
  unfold queuesFrame at hevent
  split at hevent
  · exact ⟨_, _, hmem⟩
  · cases hevent

def begunHellos (past : List (NetworkEvent Nat Nat)) : List (Station Nat Nat × ClientHello × Nat) :=
  past.filterMap (fun
    | .client station (.begun hello ephemeral) => some (station, hello, ephemeral)
    | _ => none)

lemma mem_begunHellos {past : List (NetworkEvent Nat Nat)} {station : Station Nat Nat} {hello : ClientHello}
    {ephemeral : Nat} (h : NetworkEvent.client station (.begun hello ephemeral) ∈ past) :
    (station, hello, ephemeral) ∈ begunHellos past := List.mem_filterMap.mpr ⟨_, h, rfl⟩

def unforgedCheck (past : List (NetworkEvent Nat Nat)) (data : Bytes) : Bool :=
  (match parseClientHelloPacket data with
    | .error _ => true
    | .ok hello => signatureCheck past (clientAuthCall hello) hello.clientSignature) &&
  (match parseServerHelloPacket data with
    | .error _ => true
    | .ok serverHello => (begunHellos past).all (fun begun =>
        signatureCheck past (serverAuthCall begun.2.1 serverHello) serverHello.serverSignature)) &&
  (match parseSecureDataPacket data with
    | .error _ => true
    | .ok (_, ciphertext) => past.any (sealsCheck (ciphertext.drop (ciphertext.length - 32))
        (ciphertext.take (ciphertext.length - 32))))

lemma unforged_of_check {past : List (NetworkEvent Nat Nat)} {data : Bytes}
    (h : unforgedCheck past data = true) : Unforged sealingPrimitives HarbourSecure past data := by
  rw [unforgedCheck, Bool.and_eq_true, Bool.and_eq_true] at h
  obtain ⟨⟨hclient, hserver⟩, hsealed⟩ := h
  constructor
  · intro hello identity digest hparse hsecure hdigest hverified
    rw [hparse] at hclient
    exact signed_of_check hclient hsecure hdigest hverified
  · intro station hello ephemeral serverHello identity digest hbegun hparse hsecure hdigest hverified
    rw [hparse] at hserver
    have hcheck := List.all_eq_true.mp hserver _ (mem_begunHellos hbegun)
    exact signed_of_check hcheck hsecure hdigest hverified
  · intro key nonce ciphertext plaintext _ hparse hdecrypt
    rw [hparse] at hsealed
    simp only [sealingPrimitives] at hdecrypt
    split at hdecrypt
    · next hkey =>
      obtain rfl := Option.some.inj hdecrypt
      rw [← hkey]
      exact seals_of_check hsealed
    · cases hdecrypt

def installedHandshakes (past : List (NetworkEvent Nat Nat)) : List (ClientHello × Nat × ServerHandshake) :=
  past.filterMap (fun
    | .server _ (.installed _ hello ephemeral handshake) => some (hello, ephemeral, handshake)
    | _ => none)

lemma mem_installedHandshakes {past : List (NetworkEvent Nat Nat)} {listener : Listener Nat Nat}
    {pending : PendingSecureSession} {hello : ClientHello} {ephemeral : Nat} {handshake : ServerHandshake}
    (h : NetworkEvent.server listener (.installed pending hello ephemeral handshake) ∈ past) :
    (hello, ephemeral, handshake) ∈ installedHandshakes past := List.mem_filterMap.mpr ⟨_, h, rfl⟩

def hashedCalls : NetworkEvent Nat Nat → List TranscriptCall
  | .client _ (.begun hello _) => [clientAuthCall hello]
  | .client _ (.accepted hello _ serverHello _) =>
    [serverAuthCall hello serverHello, sessionCall hello serverHello]
  | .server _ (.installed _ hello _ handshake) =>
    [clientAuthCall hello, serverAuthCall hello handshake.serverHello, sessionCall hello handshake.serverHello]
  | _ => []

lemma mem_hashedCalls {past : List (NetworkEvent Nat Nat)} {event : NetworkEvent Nat Nat} {call : TranscriptCall}
    (hmem : event ∈ past) (h : Hashes call event) : call ∈ past.flatMap hashedCalls := by
  refine List.mem_flatMap.mpr ⟨event, hmem, ?_⟩
  match event, h with
  | .client _ (.begun _ _), h => simpa [hashedCalls, Hashes] using h
  | .client _ (.accepted _ _ _ _), h => simpa [hashedCalls, Hashes] using h
  | .server _ (.installed _ _ _ _), h => simpa [hashedCalls, Hashes] using h

def derivations : NetworkEvent Nat Nat → List (ClientHello × ServerHello × SessionKeyMaterial)
  | .client _ (.accepted hello _ serverHello keys) => [(hello, serverHello, keys)]
  | .server _ (.installed _ hello _ handshake) => [(hello, handshake.serverHello, handshake.keys)]
  | _ => []

lemma mem_derivations {past : List (NetworkEvent Nat Nat)} {event : NetworkEvent Nat Nat} {hello : ClientHello}
    {serverHello : ServerHello} {keys : SessionKeyMaterial} (hmem : event ∈ past)
    (h : Derives hello serverHello keys event) : (hello, serverHello, keys) ∈ past.flatMap derivations := by
  refine List.mem_flatMap.mpr ⟨event, hmem, ?_⟩
  match event, h with
  | .client _ (.accepted _ _ _ _), h =>
    obtain ⟨rfl, rfl, rfl⟩ := h
    exact List.mem_singleton_self _
  | .server _ (.installed _ _ _ _), h =>
    obtain ⟨rfl, rfl, rfl⟩ := h
    exact List.mem_singleton_self _

/-- One handshake, without collisions. -/
structure CollisionCheck (events : List (NetworkEvent Nat Nat)) : Prop where
  digests : ∀ call ∈ events.flatMap hashedCalls, ∀ call' ∈ events.flatMap hashedCalls,
    (call.run sealingPrimitives.sha256).toOption = (call'.run sealingPrimitives.sha256).toOption → call = call'
  derivations : ∀ d ∈ events.flatMap derivations, ∀ d' ∈ events.flatMap derivations,
    d.1 = d'.1 ∧ d.2.1 = d'.2.1 ∧ d.2.2.clientToServerKey ≠ d'.2.2.serverToClientKey
  begun : (begunHellos events).length ≤ 1
  installed : (installedHandshakes events).length ≤ 1

lemma eq_of_length_le_one {α : Type} {xs : List α} (h : xs.length ≤ 1) {x y : α} (hx : x ∈ xs) (hy : y ∈ xs) :
    x = y := by
  match xs, h with
  | [z], _ =>
    rw [List.mem_singleton] at hx hy
    rw [hx, hy]

lemma harbourAction_listener {data : Bytes} {n : Nat} {listener : Listener Nat Nat} {reception : Reception Nat}
    (h : harbourAction data n = .listen listener reception) : listener = harbourListener := by
  unfold harbourAction at h
  split at h <;> cases h <;> rfl

/-- The events of the run are of one listener. -/
lemma harbour_listener (n : Nat) {listener : Listener Nat Nat} {event : ListenerEvent Nat}
    (h : NetworkEvent.server listener event ∈ (harbourRun n).2) : listener = harbourListener := by
  induction n with
  | zero => cases h
  | succ n ih =>
    rcases List.mem_append.mp h with hold | hnew
    · exact ih hold
    obtain ⟨reception, haction, -⟩ := mem_step_server hnew
    exact harbourAction_listener haction

lemma harbour_noCollisions {n : Nat} (h : CollisionCheck (harbourRun n).2) :
    NoCollisions sealingPrimitives (harbourRun n).2 where
  digests := by
    intro event hmem event' hmem' call call' digest hhashes hhashes' hrun hrun'
    apply h.digests call (mem_hashedCalls hmem hhashes) call' (mem_hashedCalls hmem' hhashes')
    rw [hrun, hrun']
  keys := by
    intro event hmem event' hmem' hello hello' serverHello serverHello' keys keys' hash hash' hderives hderives'
      hrun hrun'
    obtain ⟨hhello, hserverHello, hdistinct⟩ := h.derivations _ (mem_derivations hmem hderives) _
      (mem_derivations hmem' hderives')
    obtain rfl : hello = hello' := hhello
    obtain rfl : serverHello = serverHello' := hserverHello
    obtain rfl := Except.ok.inj (hrun.symm.trans hrun')
    exact ⟨fun _ => rfl, fun _ => rfl, hdistinct⟩
  clientRandoms := by
    intro station hello ephemeral station' hello' ephemeral' hmem hmem' _
    have heq := eq_of_length_le_one h.begun (mem_begunHellos hmem) (mem_begunHellos hmem')
    simpa using heq
  serverRandoms := by
    intro listener pending hello ephemeral handshake listener' pending' hello' ephemeral' handshake' hmem hmem' _
    have heq := eq_of_length_le_one h.installed (mem_installedHandshakes hmem) (mem_installedHandshakes hmem')
    refine ⟨(harbour_listener n hmem).trans (harbour_listener n hmem').symm, ?_⟩
    simpa using heq

lemma sealing_keyAgreement : KeyAgreement sealingPrimitives where
  exchange_comm a b := by
    simp only [sealingPrimitives, harbourPrimitives, exponentPrimitives, Nat.mul_comm]
  decode_point a := by
    have hlt : a % 2 ^ 255 < 256 ^ 32 := by
      have hmod := Nat.mod_lt a (show 0 < 2 ^ 255 by norm_num)
      have hpow : (2 : Nat) ^ 255 ≤ 256 ^ 32 := by norm_num
      omega
    simp only [sealingPrimitives, harbourPrimitives, exponentPrimitives, List.tail_cons,
      fromBigEndian_bigEndian hlt]

lemma harbour_unforged : ∀ n < 7, unforgedCheck (harbourRun n).2 (packetSent (harbourRun n).2) = true := by
  decide +kernel

lemma harbour_allowed {n : Nat} (h : n < 7) : Allowed sealingPrimitives HarbourSecure (harbourRun n).2
    (harbourAction (packetSent (harbourRun n).2) n) := by
  have hunforged := unforged_of_check (harbour_unforged n h)
  have hturn (now : ℚ) : Allowed sealingPrimitives HarbourSecure (harbourRun n).2
      (.turn 0 (harbourTurn (packetSent (harbourRun n).2) now)) := by
    refine ⟨(by decide +kernel : ReadableNumber (truncate 1000)), ?_⟩
    intro data addr heq
    obtain ⟨rfl, -⟩ := Received.datagram.inj heq
    exact hunforged
  generalize hdata : packetSent (harbourRun n).2 = data at hunforged hturn
  unfold harbourAction
  split
  · trivial
  · exact hunforged
  · exact hturn 1
  · exact hunforged
  · exact hturn 2
  · exact ⟨(by decide : hasSurrogate (str "!AIVDM,1,1,,A,p,0*1A") = false), by decide +kernel⟩
  · exact hunforged

lemma harbour_reached {n : Nat} (h : n ≤ 7) :
    Reached sealingPrimitives defaultSettings HarbourSecure (harbourRun n).1 (harbourRun n).2 := by
  induction n with
  | zero => exact .init
  | succ n ih => exact .step (ih (by omega)) (harbour_allowed (by omega))

lemma harbour_collisions : ∀ n < 7, CollisionCheck (harbourRun n).2 := by
  intro n h
  have hdigests : ∀ n < 7, ∀ call ∈ (harbourRun n).2.flatMap hashedCalls,
      ∀ call' ∈ (harbourRun n).2.flatMap hashedCalls, (call.run sealingPrimitives.sha256).toOption =
        (call'.run sealingPrimitives.sha256).toOption → call = call' := by
    decide +kernel
  have hderivations : ∀ n < 7, ∀ d ∈ (harbourRun n).2.flatMap derivations,
      ∀ d' ∈ (harbourRun n).2.flatMap derivations,
        d.1 = d'.1 ∧ d.2.1 = d'.2.1 ∧ d.2.2.clientToServerKey ≠ d'.2.2.serverToClientKey := by
    decide +kernel
  have hbegun : ∀ n < 7, (begunHellos (harbourRun n).2).length ≤ 1 := by decide +kernel
  have hinstalled : ∀ n < 7, (installedHandshakes (harbourRun n).2).length ≤ 1 := by decide +kernel
  exact ⟨hdigests n h, hderivations n h, hbegun n h, hinstalled n h⟩

lemma harbour_secureStation (n : Nat) (stationId : PyStr) :
    SecureStation HarbourSecure (harbourRun n).2 stationId := by
  intro listener pending hello ephemeral handshake identity hmem _ hidentity
  rw [harbour_listener n hmem, harbourListener, Dict.get?_set] at hidentity
  split at hidentity
  · obtain rfl := Option.some.inj hidentity
    exact (by decide +kernel : harbourPrimitives.publicKey 7 ∈ harbourIdentities)
  · cases hidentity

lemma harbour_secureServer : HarbourSecure harbourStation.serverIdentityPublicKey :=
  (by decide +kernel : harbourStation.serverIdentityPublicKey ∈ harbourIdentities)

lemma harbour_confirms : ∃ hello keys, NetworkEvent.client harbourStation (.confirmed hello keys) ∈
    ((harbourRun 4).1.step sealingPrimitives defaultSettings
      (harbourAction (packetSent (harbourRun 4).2) 4)).2 := by
  have hconfirms : ((harbourRun 4).1.step sealingPrimitives defaultSettings
      (harbourAction (packetSent (harbourRun 4).2) 4)).2.any (fun
        | .client station (.confirmed _ _) => station = harbourStation
        | _ => false) = true := by decide +kernel
  obtain ⟨event, hmem, hevent⟩ := List.any_eq_true.mp hconfirms
  match event, hevent with
  | .client station (.confirmed hello keys), hevent =>
    obtain rfl := of_decide_eq_true hevent
    exact ⟨hello, keys, hmem⟩

lemma harbour_promotes : ∃ listener pending session, NetworkEvent.server listener (.promoted pending session) ∈
    ((harbourRun 3).1.step sealingPrimitives defaultSettings
      (harbourAction (packetSent (harbourRun 3).2) 3)).2 ∧ session.stationId = str "boat1" := by
  have hpromotes : ((harbourRun 3).1.step sealingPrimitives defaultSettings
      (harbourAction (packetSent (harbourRun 3).2) 3)).2.any (fun
        | .server _ (.promoted _ session) => session.stationId = str "boat1"
        | _ => false) = true := by decide +kernel
  obtain ⟨event, hmem, hevent⟩ := List.any_eq_true.mp hpromotes
  match event, hevent with
  | .server listener (.promoted pending session), hevent =>
    exact ⟨listener, pending, session, hmem, of_decide_eq_true hevent⟩

end Harbour

/-! ### The results -/

/-- A proxy that returns with the keys of a session has them from the holder of the server's identity, which
has derived them for this ClientHello and has promoted the session. -/
theorem confirmed_was_promoted (laws : KeyAgreement p) (hreached : Reached p cfg secure network events)
    (hcollisions : NoCollisions p events) {action : NetworkAction Private Public}
    (hallowed : Allowed p secure events action) {station : Station Private Public} {hello : ClientHello}
    {keys : SessionKeyMaterial} (hsecure : secure station.serverIdentityPublicKey)
    (hconfirmed : NetworkEvent.client station (.confirmed hello keys) ∈ (network.step p cfg action).2) :
    (∃ listener pending ephemeral handshake,
      NetworkEvent.server listener (.installed pending hello ephemeral handshake) ∈ events ∧
        p.publicKey listener.serverPriv = station.serverIdentityPublicKey ∧ handshake.keys = keys) ∧
      WasPromoted events ⟨station.stationId, keys.clientToServerKey, keys.serverToClientKey⟩ :=
  (confirmed_by_server laws (reached_right hreached) hcollisions hallowed hsecure hconfirmed).2

/-- The proxy in the harbour has the keys that the server has promoted a session with. -/
theorem confirmed_was_promoted_harbour : ∃ keys : SessionKeyMaterial,
    WasPromoted (harbourRun 4).2 ⟨str "boat1", keys.clientToServerKey, keys.serverToClientKey⟩ := by
  obtain ⟨hello, keys, hmem⟩ := harbour_confirms
  exact ⟨keys, (confirmed_was_promoted sealing_keyAgreement (harbour_reached (by decide))
    (harbour_noCollisions (harbour_collisions 4 (by decide))) (harbour_allowed (by decide)) harbour_secureServer
    hmem).2⟩

/-- A proxy that has accepted the answer to an installed handshake holds the identity of the station. -/
lemma accepted_identity (right : NetworkRight p secure events network) (hcollisions : NoCollisions p events)
    {listener : Listener Private Public} {pending : PendingSecureSession} {hello : ClientHello}
    {ephemeral clientEphemeral : Private} {handshake : ServerHandshake} {station : Station Private Public}
    {serverHello : ServerHello} {keys : SessionKeyMaterial}
    (hinstalled : NetworkEvent.server listener (.installed pending hello ephemeral handshake) ∈ events)
    (hsecure : ∀ identity, listener.authorizedKeys.get? hello.stationId = some identity → secure identity)
    (haccepted : NetworkEvent.client station (.accepted hello clientEphemeral serverHello keys) ∈ events) :
    station.stationId = hello.stationId ∧
      listener.authorizedKeys.get? station.stationId = some (p.publicKey station.identityPrivateKey) := by
  obtain ⟨station', hello', clientEphemeral', hbegun', hidentity, hcall⟩ :=
    installed_was_begun right hcollisions hinstalled hsecure
  have hbegun : NetworkEvent.client station (.begun hello clientEphemeral) ∈ events :=
    (right.explained _ haccepted).begun
  have hbegins : Begins p station hello clientEphemeral := right.explained _ hbegun
  simp only [clientAuthCall, TranscriptCall.clientAuth.injEq] at hcall
  obtain ⟨rfl, -, -⟩ := hcollisions.clientRandoms _ _ _ _ _ _ hbegun' hbegun hcall.2.2.1
  refine ⟨hbegins.stationId.symm, ?_⟩
  rw [← hbegins.stationId]
  exact hidentity

/-- What the server opens in a session of a station was sent by the proxy that holds the identity of the
station and has the same keys for the same ClientHello. -/
lemma opened_in_session (laws : KeyAgreement p) (right : NetworkRight p secure events network)
    (hcollisions : NoCollisions p events) {secrets : SessionSecrets} {data nonce : Bytes} {message : Json}
    (hunforged : Unforged p secure events data) (hsecure : SecureStation secure events secrets.stationId)
    {listener : Listener Private Public} {pending : PendingSecureSession} {hello : ClientHello}
    {ephemeral : Private} {handshake : ServerHandshake}
    (hinstalled : NetworkEvent.server listener (.installed pending hello ephemeral handshake) ∈ events)
    (hsecrets : secrets =
      ⟨hello.stationId, handshake.keys.clientToServerKey, handshake.keys.serverToClientKey⟩)
    (hopens : ∃ ciphertext plaintext, parseSecureDataPacket data = .ok (nonce, ciphertext) ∧
      p.decrypt secrets.clientToServerKey nonce ciphertext dataAad = some plaintext ∧
      loadMessage plaintext = .ok message) :
    ∃ station clientEphemeral content wall,
      NetworkEvent.client station
          (.accepted hello clientEphemeral handshake.serverHello handshake.keys) ∈ events ∧
        station.stationId = secrets.stationId ∧
        listener.authorizedKeys.get? station.stationId = some (p.publicKey station.identityPrivateKey) ∧
        message = ClientMessage.json wall station.stationId content ∧
        ∀ cleanLine, content = .nmea cleanLine →
          NetworkEvent.forwarded station handshake.keys content ∈ events := by
  subst hsecrets
  obtain ⟨ciphertext, plaintext, hparse, hdecrypt, hload⟩ := hopens
  have hidentities := fun identity => hsecure listener pending hello ephemeral handshake identity hinstalled rfl
  obtain ⟨station, clientEphemeral, content, wall, haccepted, hload', hforwarded⟩ :=
    opened_by_server laws right hcollisions hunforged hinstalled hidentities hparse hdecrypt
  obtain ⟨hid, hidentity⟩ := accepted_identity right hcollisions hinstalled hidentities haccepted
  exact ⟨station, clientEphemeral, content, wall, haccepted, hid, hidentity,
    Except.ok.inj (hload.symm.trans hload'), hforwarded⟩

/-- The server promotes a session of a station only when the proxy that holds the identity of the station
has the same keys, for the ClientHello that the server has answered. -/
theorem promoted_was_accepted (laws : KeyAgreement p) (hreached : Reached p cfg secure network events)
    (hcollisions : NoCollisions p events) {action : NetworkAction Private Public}
    (hallowed : Allowed p secure events action) {listener : Listener Private Public}
    {pending : PendingSecureSession} {session : SecureSession}
    (hsecure : SecureStation secure events session.stationId)
    (hpromoted : NetworkEvent.server listener (.promoted pending session) ∈ (network.step p cfg action).2) :
    ∃ station clientEphemeral listener' pending' hello ephemeral handshake,
      NetworkEvent.client station
          (.accepted hello clientEphemeral handshake.serverHello handshake.keys) ∈ events ∧
        NetworkEvent.server listener' (.installed pending' hello ephemeral handshake) ∈ events ∧
        listener'.authorizedKeys.get? station.stationId = some (p.publicKey station.identityPrivateKey) ∧
        session.secrets = ⟨station.stationId, handshake.keys.clientToServerKey,
          handshake.keys.serverToClientKey⟩ := by
  have right := reached_right hreached
  obtain ⟨reception, rfl, hevent⟩ := mem_step_server hpromoted
  obtain ⟨hsame, hmem, nonce, message, hopens, -⟩ :=
    (receive_secrets p cfg listener reception network.server).promoted pending session hevent
  obtain ⟨listener', pending', hello, ephemeral, handshake, hinstalled, hsecrets⟩ := right.pendings _ hmem
  have hright : InstalledRight p secure events listener' pending' hello ephemeral handshake :=
    right.explained _ hinstalled
  obtain ⟨reception', hanswers⟩ := hright.answers
  have hpendingSecrets : pending.secrets = _ := hsecrets.symm.trans hanswers.secrets
  have hstation : SecureStation secure events pending.secrets.stationId := by
    rw [← hsame]
    exact hsecure
  obtain ⟨station, clientEphemeral, content, wall, haccepted, hid, hidentity, -⟩ :=
    opened_in_session laws right hcollisions hallowed hstation hinstalled hpendingSecrets hopens
  refine ⟨station, clientEphemeral, listener', pending', hello, ephemeral, handshake, haccepted, hinstalled,
    hidentity, ?_⟩
  have hpendingStation : pending.secrets.stationId = hello.stationId :=
    congrArg SessionSecrets.stationId hpendingSecrets
  rw [hsame, hid, hpendingStation]
  exact hpendingSecrets

/-- The server in the harbour promotes the session of the station. -/
theorem promoted_was_accepted_harbour : ∃ station hello clientEphemeral serverHello keys,
    NetworkEvent.client station (.accepted hello clientEphemeral serverHello keys) ∈ (harbourRun 3).2 ∧
      station.stationId = str "boat1" := by
  obtain ⟨listener, pending, session, hmem, hboat⟩ := harbour_promotes
  obtain ⟨station, clientEphemeral, -, -, hello, -, handshake, haccepted, -, -, hsecrets⟩ :=
    promoted_was_accepted sealing_keyAgreement (harbour_reached (by decide))
      (harbour_noCollisions (harbour_collisions 3 (by decide))) (harbour_allowed (by decide))
      (harbour_secureStation 3 session.stationId) hmem
  have hstation : session.stationId = station.stationId := congrArg SessionSecrets.stationId hsecrets
  exact ⟨station, hello, clientEphemeral, handshake.serverHello, handshake.keys, haccepted,
    hstation.symm.trans hboat⟩

/-- Every frame that the server queues is a sentence that the proxy which holds the identity of the station
has forwarded in the session, which the server has promoted. -/
theorem queued_was_forwarded (laws : KeyAgreement p) (hreached : Reached p cfg secure network events)
    (hcollisions : NoCollisions p events) {action : NetworkAction Private Public}
    (hallowed : Allowed p secure events action) (hsecure : ∀ stationId, SecureStation secure events stationId)
    {listener : Listener Private Public} {frame : IngressFrame}
    (hqueued : NetworkEvent.server listener (.queued frame) ∈ (network.step p cfg action).2) :
    ∃ (station : Station Private Public) (cleanLine : PyStr) (addr : Address)
      (listener' : Listener Private Public) (pending : PendingSecureSession) (hello : ClientHello)
      (ephemeral : Private) (handshake : ServerHandshake),
      NetworkEvent.forwarded station handshake.keys (.nmea cleanLine) ∈ events ∧
        NetworkEvent.server listener' (.installed pending hello ephemeral handshake) ∈ events ∧
        listener'.authorizedKeys.get? station.stationId = some (p.publicKey station.identityPrivateKey) ∧
        WasPromoted events
          ⟨station.stationId, handshake.keys.clientToServerKey, handshake.keys.serverToClientKey⟩ ∧
        messageFrame listener.secInputId station.stationId addr (.str cleanLine) = .ok (some frame) := by
  have right := reached_right hreached
  obtain ⟨reception, rfl, hevent⟩ := mem_step_server hqueued
  obtain ⟨secrets, hmem, nonce, message, payload, hopens, hvalid, hframe⟩ :=
    (receive_secrets p cfg listener reception network.server).queued frame hevent
  have hpromoted := right.sessions _ hmem
  obtain ⟨listener', pending, hello, ephemeral, handshake, hinstalled, rfl⟩ :=
    promoted_was_installed right hpromoted
  obtain ⟨station, clientEphemeral, content, wall, -, hid, hidentity, rfl, hforwarded⟩ :=
    opened_in_session laws right hcollisions hallowed (hsecure _) hinstalled rfl hopens
  cases hvalid with
  | nmea source type payload_eq =>
    cases content with
    | ping sequence =>
      have hping : isText (str "nmea") (some (.str (str "ping"))) = false := by decide
      cases hping.symm.trans type
    | nmea cleanLine =>
      obtain rfl : Json.str cleanLine = payload := Option.some.inj payload_eq
      refine ⟨station, cleanLine, reception.addr, listener', pending, hello, ephemeral, handshake,
        hforwarded cleanLine rfl, hinstalled, hidentity, ?_, ?_⟩
      · rw [hid]
        exact hpromoted
      · rw [hid]
        exact hframe

/-- The frame that the server in the harbour queues is of a forwarded sentence. -/
theorem queued_was_forwarded_harbour : ∃ station keys cleanLine,
    NetworkEvent.forwarded station keys (.nmea cleanLine) ∈ (harbourRun 6).2 ∧
      WasPromoted (harbourRun 6).2 ⟨station.stationId, keys.clientToServerKey, keys.serverToClientKey⟩ := by
  have hqueues : ((harbourRun 6).1.step sealingPrimitives defaultSettings
      (harbourAction (packetSent (harbourRun 6).2) 6)).2.any queuesFrame = true := by decide +kernel
  obtain ⟨listener, frame, hmem⟩ := queued_of_check hqueues
  obtain ⟨station, cleanLine, -, -, -, -, -, handshake, hforwarded, -, -, hpromoted, -⟩ :=
    queued_was_forwarded sealing_keyAgreement (harbour_reached (by decide))
      (harbour_noCollisions (harbour_collisions 6 (by decide))) (harbour_allowed (by decide))
      (harbour_secureStation 6) hmem
  exact ⟨station, handshake.keys, cleanLine, hforwarded, hpromoted⟩

end Agreement

end AisMixer.Sproxy

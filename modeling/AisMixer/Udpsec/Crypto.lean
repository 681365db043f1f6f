import AisMixer.Udpsec.Transcript

/-!
# Keys and signatures

The helpers of `core/udpsec_crypto.py` over the primitives of the `cryptography` package, which
are a parameter: SHA-256, HKDF, P-256 with ECDSA and ECDH, and AES-GCM.
-/

namespace AisMixer.Udpsec

open AisMixer.Library

/-- The primitives. A draw of randomness that a primitive makes is an argument. -/
structure Primitives (Private Public : Type) where
  sha256 : Bytes → Bytes
  /-- HKDF-SHA256 of 32 octets, by salt, info and input key. -/
  hkdf : Bytes → Bytes → Bytes → Bytes
  publicKey : Private → Public
  /-- The compressed X9.62 form of a point. -/
  publicBytes : Public → Bytes
  fromEncodedPoint : Bytes → Option Public
  exchange : Private → Public → Bytes
  /-- ECDSA over a digest, with the draw. -/
  ecdsaSign : Private → Bytes → Bytes → Bytes
  /-- Whether a signature over a digest is valid. -/
  ecdsaVerify : Public → Bytes → Bytes → Bool
  decodeDssSignature : Bytes → Option (Int × Int)
  encodeDssSignature : Int → Int → Bytes
  /-- AES-GCM by key, nonce, text and associated data: ciphertext and tag. -/
  encrypt : Bytes → Bytes → Bytes → Bytes → Bytes
  /-- `none` is the exception `InvalidTag`. -/
  decrypt : Bytes → Bytes → Bytes → Bytes → Option Bytes

def sessionKeyScheduleLabel : Bytes := ascii "SESSION-KEY-SCHEDULE"
def clientToServerLabel : Bytes := ascii "CLIENT-TO-SERVER"
def serverToClientLabel : Bytes := ascii "SERVER-TO-CLIENT"
def aes256GcmKeyLabel : Bytes := ascii "AES-256-GCM-KEY"

def p256Order : Int := 0xFFFFFFFF00000000FFFFFFFFFFFFFFFFBCE6FAADA7179E84F3B9CAC2FC632551
def p256HalfOrder : Int := p256Order / 2

def invalidEphemeralPublicKey : PyException :=
  .valueError (str "encoded ephemeral public key is not a valid canonical compressed P-256 point")

/-- The directional keys of a session. -/
structure SessionKeyMaterial where
  clientToServerKey : Bytes
  serverToClientKey : Bytes
  lengths : clientToServerKey.length = 32 ∧ serverToClientKey.length = 32
  deriving DecidableEq

/-- The constructor `SessionKeyMaterial(…)`. -/
def makeSessionKeyMaterial (clientToServerKey serverToClientKey : Bytes) :
    Except PyException SessionKeyMaterial :=
  if hclient : clientToServerKey.length = 32 then
    if hserver : serverToClientKey.length = 32 then
      .ok ⟨clientToServerKey, serverToClientKey, hclient, hserver⟩
    else .error (.valueError (str "server_to_client_key must be exactly 32 bytes"))
  else .error (.valueError (str "client_to_server_key must be exactly 32 bytes"))

section Helpers

variable {Private Public : Type} (p : Primitives Private Public)

/-! ### Points -/

def isCompressedPointPrefix (encoded : Bytes) : Bool :=
  encoded.head? == some 0x02 || encoded.head? == some 0x03

def serializeEphemeralPublicKey (publicKey : Public) : Except PyException Bytes :=
  let encoded := p.publicBytes publicKey
  if encoded.length ≠ 33 || !isCompressedPointPrefix encoded then
    .error (.runtimeError (str "public_key did not produce a canonical compressed P-256 point"))
  else .ok encoded

def parseEphemeralPublicKey (encoded : Bytes) : Except PyException Public := do
  let normalized ← requiredBytes (str "encoded ephemeral public key") encoded
  if normalized.length ≠ 33 then
    throw (.valueError (str "encoded ephemeral public key must be exactly 33 bytes"))
  if !isCompressedPointPrefix normalized then
    throw (.valueError (str "encoded ephemeral public key must start with 0x02 or 0x03"))
  let publicKey ← orRaise invalidEphemeralPublicKey (p.fromEncodedPoint normalized)
  let canonical ← serializeEphemeralPublicKey p publicKey
  if canonical ≠ normalized then throw invalidEphemeralPublicKey
  return publicKey

def deriveEphemeralSharedSecret (privateKey : Private) (peerPublicKey : Public) :
    Except PyException Bytes :=
  let sharedSecret := p.exchange privateKey peerPublicKey
  if sharedSecret.length ≠ 32 then
    .error (.runtimeError (str "P-256 ECDHE exchange did not produce a 32-byte secret"))
  else .ok sharedSecret

/-! ### Signatures -/

def transcriptDigestBytes (digest : Bytes) : Except PyException Bytes :=
  if digest.length ≠ 32 then .error (.valueError (str "digest must be exactly 32 bytes")) else .ok digest

def validP256Scalar (value : Int) : Bool := 1 ≤ value && value < p256Order

/-- The signature over a transcript digest, in its low-S form. -/
def signTranscriptDigest (privateKey : Private) (digest draw : Bytes) : Except PyException Bytes := do
  let normalizedDigest ← transcriptDigestBytes digest
  let signature := p.ecdsaSign privateKey normalizedDigest draw
  if signature = [] then
    throw (.runtimeError (str "ECDSA backend did not produce a DER signature"))
  let (r, s) ← orRaise (.runtimeError (str "ECDSA backend produced an invalid DER signature"))
    (p.decodeDssSignature signature)
  if !validP256Scalar r || !validP256Scalar s then
    throw (.runtimeError (str "ECDSA backend produced signature scalars outside P-256"))
  if p.encodeDssSignature r s ≠ signature then
    throw (.runtimeError (str "ECDSA backend produced a non-canonical DER signature"))
  let lowS := if p256HalfOrder < s then p256Order - s else s
  let canonical := p.encodeDssSignature r lowS
  if canonical = [] then
    throw (.runtimeError (str "ECDSA signature canonicalization did not produce DER bytes"))
  return canonical

/-- Whether a signature is canonical, low-S and valid over the digest. -/
def verifyTranscriptSignature (publicKey : Public) (signature digest : Bytes) : Except PyException Bool := do
  let normalizedDigest ← transcriptDigestBytes digest
  if signature = [] then return false
  match p.decodeDssSignature signature with
  | none => return false
  | some (r, s) =>
    return validP256Scalar r && validP256Scalar s && !(p256HalfOrder < s) &&
      p.encodeDssSignature r s == signature && p.ecdsaVerify publicKey signature normalizedDigest

/-! ### Session keys -/

/-- `_session_key_info`; its fields are constants that fit their length prefixes. -/
def sessionKeyInfo (directionLabel : Bytes) : Bytes :=
  [domainContext, sessionKeyScheduleLabel, directionLabel, aes256GcmKeyLabel].flatMap (frame 4)

def sessionKeyInputBytes (name : PyStr) (value : Bytes) : Except PyException Bytes :=
  if value.length ≠ 32 then .error (.valueError (name ++ str " must be exactly 32 bytes")) else .ok value

def deriveDirectionalSessionKey (sharedSecret sessionTranscriptHash directionLabel : Bytes) :
    Except PyException Bytes :=
  let key := p.hkdf sessionTranscriptHash (sessionKeyInfo directionLabel) sharedSecret
  if key.length ≠ 32 then
    .error (.runtimeError (str "HKDF-SHA256 did not produce a 32-byte session key"))
  else .ok key

def deriveSessionKeyMaterial (sharedSecret sessionTranscriptHash : Bytes) :
    Except PyException SessionKeyMaterial := do
  let secret ← sessionKeyInputBytes (str "shared_secret") sharedSecret
  let transcriptHash ← sessionKeyInputBytes (str "session_transcript_hash") sessionTranscriptHash
  let clientToServerKey ← deriveDirectionalSessionKey p secret transcriptHash clientToServerLabel
  let serverToClientKey ← deriveDirectionalSessionKey p secret transcriptHash serverToClientLabel
  if clientToServerKey = serverToClientKey then
    throw (.runtimeError (str "directional HKDF session keys must differ"))
  makeSessionKeyMaterial clientToServerKey serverToClientKey

end Helpers

/-! ### What the helpers return -/

section Results

variable {Private Public : Type} {p : Primitives Private Public}

lemma sessionKeyInputBytes_ok_iff {name : PyStr} {value bytes : Bytes} :
    sessionKeyInputBytes name value = .ok bytes ↔ value.length = 32 ∧ bytes = value := by
  unfold sessionKeyInputBytes
  split
  · next h => simp [h]
  · next h => simp [not_not.mp h, eq_comm]

lemma deriveDirectionalSessionKey_ok {secret transcriptHash label key : Bytes}
    (h : deriveDirectionalSessionKey p secret transcriptHash label = .ok key) :
    key = p.hkdf transcriptHash (sessionKeyInfo label) secret := by
  unfold deriveDirectionalSessionKey at h
  dsimp only at h
  split at h
  · cases h
  · exact (Except.ok.inj h).symm

lemma makeSessionKeyMaterial_ok {clientToServer serverToClient : Bytes} {keys : SessionKeyMaterial}
    (h : makeSessionKeyMaterial clientToServer serverToClient = .ok keys) :
    keys.clientToServerKey = clientToServer ∧ keys.serverToClientKey = serverToClient := by
  unfold makeSessionKeyMaterial at h
  split at h
  · split at h
    · obtain rfl := Except.ok.inj h
      exact ⟨rfl, rfl⟩
    · cases h
  · cases h

/-- The keys of a session are two outputs of the key derivation. -/
lemma deriveSessionKeyMaterial_ok {secret transcriptHash : Bytes} {keys : SessionKeyMaterial}
    (h : deriveSessionKeyMaterial p secret transcriptHash = .ok keys) :
    keys.clientToServerKey = p.hkdf transcriptHash (sessionKeyInfo clientToServerLabel) secret ∧
      keys.serverToClientKey = p.hkdf transcriptHash (sessionKeyInfo serverToClientLabel) secret := by
  unfold deriveSessionKeyMaterial at h
  simp only [bind_eq_ok_iff, sessionKeyInputBytes_ok_iff] at h
  obtain ⟨_, ⟨-, rfl⟩, _, ⟨-, rfl⟩, clientKey, hclient, serverKey, hserver, h⟩ := h
  have hclientKey := deriveDirectionalSessionKey_ok hclient
  have hserverKey := deriveDirectionalSessionKey_ok hserver
  split at h
  · cases h
  · obtain ⟨hkeys, hkeys'⟩ := makeSessionKeyMaterial_ok h
    exact ⟨hkeys.trans hclientKey, hkeys'.trans hserverKey⟩

end Results

end AisMixer.Udpsec

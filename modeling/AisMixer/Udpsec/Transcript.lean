import AisMixer.Library.Fallible
import AisMixer.Library.Framing
import AisMixer.Library.Utf8

/-!
# Handshake transcripts

The digests of `core/udpsec_crypto.py` and the replay key of `aismixer_secure.py`: each feeds
its framed fields, after a common context and a label of its own, to SHA-256, which is a
parameter. What is fed tells which builder was called, and with what.
-/

namespace AisMixer.Udpsec

open AisMixer.Library

def domainContext : Bytes := ascii "AISMIXER-UDPSEC-ECDHE"
def clientAuthLabel : Bytes := ascii "CLIENT-AUTH"
def serverAuthLabel : Bytes := ascii "SERVER-AUTH"
def sessionTranscriptLabel : Bytes := ascii "SESSION-TRANSCRIPT"
def handshakeReplayLabel : Bytes := ascii "HANDSHAKE-REPLAY"

def maxFramedFieldLength : Nat := 2 ^ 32 - 1
def maxTimestamp : Int := 2 ^ 64 - 1

/-! ### Fields -/

def stationIdBytes (stationId : PyStr) : Except PyException Bytes :=
  if stationId = [] then .error (.valueError (str "station_id must not be empty"))
  else orRaise (.valueError (str "station_id must be UTF-8 encodable")) (encodeUtf8 stationId)

def timestampBytes (timestamp : Int) : Except PyException Bytes :=
  if 0 ≤ timestamp ∧ timestamp ≤ maxTimestamp then .ok (bigEndian 8 timestamp.toNat)
  else .error (.valueError (str "timestamp must fit in an unsigned 64-bit integer"))

def requiredBytes (name : PyStr) (value : Bytes) : Except PyException Bytes :=
  if value = [] then .error (.valueError (name ++ str " must not be empty")) else .ok value

def clientHelloFields (stationId : PyStr) (timestamp : Int)
    (clientRandom clientEphemeralPublicKey : Bytes) : Except PyException (List Bytes) := do
  let station ← stationIdBytes stationId
  let time ← timestampBytes timestamp
  let random ← requiredBytes (str "client_random") clientRandom
  let publicKey ← requiredBytes (str "client_ephemeral_public_key") clientEphemeralPublicKey
  return [station, time, random, publicKey]

def serverHelloFields (serverRandom serverEphemeralPublicKey : Bytes) :
    Except PyException (List Bytes) := do
  let random ← requiredBytes (str "server_random") serverRandom
  let publicKey ← requiredBytes (str "server_ephemeral_public_key") serverEphemeralPublicKey
  return [random, publicKey]

/-- One framed field after what the digest has been fed before. -/
def feedFramed (tooLong : PyStr) (fed field : Bytes) : Except PyException Bytes :=
  if maxFramedFieldLength < field.length then .error (.valueError tooLong)
  else .ok (fed ++ bigEndian 4 field.length ++ field)

def updateFramed : Bytes → Bytes → Except PyException Bytes :=
  feedFramed (str "transcript field exceeds unsigned 32-bit framing")

def updateReplayDigest : Bytes → Bytes → Except PyException Bytes :=
  feedFramed (str "handshake replay field exceeds unsigned 32-bit framing")

/-- What `_digest_fields` feeds to the hash. -/
def digestInput (label : Bytes) (fields : List Bytes) : Except PyException Bytes :=
  (domainContext :: label :: fields).foldlM updateFramed []

def digestFields (sha256 : Bytes → Bytes) (label : Bytes) (fields : List Bytes) :
    Except PyException Bytes :=
  (digestInput label fields).map sha256

/-! ### The four builders -/

def buildClientAuthDigest (sha256 : Bytes → Bytes) (stationId : PyStr) (timestamp : Int)
    (clientRandom clientEphemeralPublicKey : Bytes) : Except PyException Bytes := do
  let clientHello ← clientHelloFields stationId timestamp clientRandom clientEphemeralPublicKey
  digestFields sha256 clientAuthLabel clientHello

def buildServerAuthDigest (sha256 : Bytes → Bytes) (stationId : PyStr) (timestamp : Int)
    (clientRandom clientEphemeralPublicKey clientSignature serverRandom
      serverEphemeralPublicKey : Bytes) : Except PyException Bytes := do
  let clientHello ← clientHelloFields stationId timestamp clientRandom clientEphemeralPublicKey
  let normalizedClientSignature ← requiredBytes (str "client_signature") clientSignature
  let serverHello ← serverHelloFields serverRandom serverEphemeralPublicKey
  digestFields sha256 serverAuthLabel (clientHello ++ normalizedClientSignature :: serverHello)

def buildSessionTranscriptHash (sha256 : Bytes → Bytes) (stationId : PyStr) (timestamp : Int)
    (clientRandom clientEphemeralPublicKey clientSignature serverRandom serverEphemeralPublicKey
      serverSignature : Bytes) : Except PyException Bytes := do
  let clientHello ← clientHelloFields stationId timestamp clientRandom clientEphemeralPublicKey
  let normalizedClientSignature ← requiredBytes (str "client_signature") clientSignature
  let serverHello ← serverHelloFields serverRandom serverEphemeralPublicKey
  let normalizedServerSignature ← requiredBytes (str "server_signature") serverSignature
  digestFields sha256 sessionTranscriptLabel
    (clientHello ++ normalizedClientSignature :: (serverHello ++ [normalizedServerSignature]))

def buildHandshakeReplayKey (sha256 : Bytes → Bytes) (clientAuthDigest clientSignature : Bytes) :
    Except PyException Bytes :=
  if clientAuthDigest.length ≠ 32 then
    .error (.valueError (str "client_auth_digest must be exactly 32 bytes"))
  else if clientSignature = [] then
    .error (.valueError (str "client_signature must not be empty"))
  else ([domainContext, handshakeReplayLabel, clientAuthDigest, clientSignature].foldlM
    updateReplayDigest []).map sha256

/-- A call of one of the builders, with its logical fields. -/
inductive TranscriptCall where
  | clientAuth (stationId : PyStr) (timestamp : Int) (clientRandom clientEphemeralPublicKey : Bytes)
  | serverAuth (stationId : PyStr) (timestamp : Int) (clientRandom clientEphemeralPublicKey
      clientSignature serverRandom serverEphemeralPublicKey : Bytes)
  | sessionTranscript (stationId : PyStr) (timestamp : Int) (clientRandom clientEphemeralPublicKey
      clientSignature serverRandom serverEphemeralPublicKey serverSignature : Bytes)
  | handshakeReplay (clientAuthDigest clientSignature : Bytes)
  deriving DecidableEq

namespace TranscriptCall

def run (sha256 : Bytes → Bytes) : TranscriptCall → Except PyException Bytes
  | clientAuth station time random publicKey =>
    buildClientAuthDigest sha256 station time random publicKey
  | serverAuth station time random publicKey signature serverRandom serverKey =>
    buildServerAuthDigest sha256 station time random publicKey signature serverRandom serverKey
  | sessionTranscript station time random publicKey signature serverRandom serverKey serverSignature =>
    buildSessionTranscriptHash sha256 station time random publicKey signature serverRandom serverKey
      serverSignature
  | handshakeReplay digest signature => buildHandshakeReplayKey sha256 digest signature

/-- What a call feeds to the hash: its result when the hash returns its input. -/
def hashInput (call : TranscriptCall) : Except PyException Bytes := call.run id

def label : TranscriptCall → Bytes
  | clientAuth .. => clientAuthLabel
  | serverAuth .. => serverAuthLabel
  | sessionTranscript .. => sessionTranscriptLabel
  | handshakeReplay .. => handshakeReplayLabel

end TranscriptCall

/-! ### Well-formed inputs -/

def ValidStation (stationId : PyStr) : Prop :=
  stationId ≠ [] ∧ hasSurrogate stationId = false ∧
    (encodeSurrogatepass stationId).length ≤ maxFramedFieldLength

def ValidTimestamp (timestamp : Int) : Prop := 0 ≤ timestamp ∧ timestamp ≤ maxTimestamp

def ValidField (value : Bytes) : Prop := value ≠ [] ∧ value.length ≤ maxFramedFieldLength

/-- The inputs that the builders are meant for. -/
def TranscriptCall.WellFormed : TranscriptCall → Prop
  | clientAuth station time random publicKey =>
    ValidStation station ∧ ValidTimestamp time ∧ ValidField random ∧ ValidField publicKey
  | serverAuth station time random publicKey signature serverRandom serverKey =>
    ValidStation station ∧ ValidTimestamp time ∧ ValidField random ∧ ValidField publicKey ∧
      ValidField signature ∧ ValidField serverRandom ∧ ValidField serverKey
  | sessionTranscript station time random publicKey signature serverRandom serverKey serverSignature =>
    ValidStation station ∧ ValidTimestamp time ∧ ValidField random ∧ ValidField publicKey ∧
      ValidField signature ∧ ValidField serverRandom ∧ ValidField serverKey ∧
      ValidField serverSignature
  | handshakeReplay digest signature => digest.length = 32 ∧ ValidField signature

/-! ### What is fed to the hash -/

/-- The bytes of the logical fields of a call. -/
def TranscriptCall.fieldBytes : TranscriptCall → List Bytes
  | clientAuth station time random publicKey =>
    [encodeSurrogatepass station, bigEndian 8 time.toNat, random, publicKey]
  | serverAuth station time random publicKey signature serverRandom serverKey =>
    [encodeSurrogatepass station, bigEndian 8 time.toNat, random, publicKey, signature, serverRandom,
      serverKey]
  | sessionTranscript station time random publicKey signature serverRandom serverKey serverSignature =>
    [encodeSurrogatepass station, bigEndian 8 time.toNat, random, publicKey, signature, serverRandom,
      serverKey, serverSignature]
  | handshakeReplay digest signature => [digest, signature]

lemma feedFramed_ok_iff {tooLong : PyStr} {fed field out : Bytes} :
    feedFramed tooLong fed field = .ok out ↔
      field.length ≤ maxFramedFieldLength ∧ out = fed ++ frame 4 field := by
  unfold feedFramed
  split
  · next h => simp [not_le.mpr h]
  · next h => simp [not_lt.mp h, frame, eq_comm]

/-- Feeding field after field: each fits its length prefix, and all are concatenated. -/
lemma feedAll_ok_iff {tooLong : PyStr} {fields : List Bytes} {fed out : Bytes} :
    fields.foldlM (feedFramed tooLong) fed = .ok out ↔
      (∀ field ∈ fields, field.length ≤ maxFramedFieldLength) ∧ out = fed ++ fields.flatMap (frame 4) := by
  induction fields generalizing fed with
  | nil => simp [Pure.pure, Except.pure, eq_comm]
  | cons field fields ih =>
    rw [List.foldlM_cons, bind_eq_ok_iff]
    simp only [feedFramed_ok_iff, ih, List.forall_mem_cons, List.flatMap_cons]
    constructor
    · rintro ⟨fed', ⟨hfield, rfl⟩, hfields, rfl⟩
      exact ⟨⟨hfield, hfields⟩, List.append_assoc _ _ _⟩
    · rintro ⟨⟨hfield, hfields⟩, rfl⟩
      exact ⟨_, ⟨hfield, rfl⟩, hfields, (List.append_assoc _ _ _).symm⟩

lemma stationIdBytes_ok_iff {stationId : PyStr} {bytes : Bytes} :
    stationIdBytes stationId = .ok bytes ↔
      (stationId ≠ [] ∧ hasSurrogate stationId = false) ∧ bytes = encodeSurrogatepass stationId := by
  unfold stationIdBytes
  by_cases hempty : stationId = []
  · simp [hempty]
  · rw [if_neg hempty, and_assoc, ← encodeUtf8_eq_some]
    cases encodeUtf8 stationId with
    | none => simp [orRaise]
    | some encoded => simp [orRaise, hempty]

lemma timestampBytes_ok_iff {timestamp : Int} {bytes : Bytes} :
    timestampBytes timestamp = .ok bytes ↔
      ValidTimestamp timestamp ∧ bytes = bigEndian 8 timestamp.toNat := by
  unfold timestampBytes ValidTimestamp
  split
  · next h => simp [h, eq_comm]
  · next h => simp [h]

lemma requiredBytes_ok_iff {name : PyStr} {value bytes : Bytes} :
    requiredBytes name value = .ok bytes ↔ value ≠ [] ∧ bytes = value := by
  unfold requiredBytes
  split
  · next h => simp [h]
  · next h => simp [h, eq_comm]

lemma clientHelloFields_ok_iff {stationId : PyStr} {timestamp : Int} {clientRandom publicKey : Bytes}
    {fields : List Bytes} :
    clientHelloFields stationId timestamp clientRandom publicKey = .ok fields ↔
      ((stationId ≠ [] ∧ hasSurrogate stationId = false) ∧ ValidTimestamp timestamp ∧
        clientRandom ≠ [] ∧ publicKey ≠ []) ∧
      fields = [encodeSurrogatepass stationId, bigEndian 8 timestamp.toNat, clientRandom, publicKey] := by
  simp only [clientHelloFields, bind_eq_ok_iff, stationIdBytes_ok_iff, timestampBytes_ok_iff,
    requiredBytes_ok_iff, Pure.pure, Except.pure, Except.ok.injEq]
  constructor
  · rintro ⟨_, ⟨hstation, rfl⟩, _, ⟨htime, rfl⟩, _, ⟨hrandom, rfl⟩, _, ⟨hkey, rfl⟩, rfl⟩
    exact ⟨⟨hstation, htime, hrandom, hkey⟩, rfl⟩
  · rintro ⟨⟨hstation, htime, hrandom, hkey⟩, rfl⟩
    exact ⟨_, ⟨hstation, rfl⟩, _, ⟨htime, rfl⟩, _, ⟨hrandom, rfl⟩, _, ⟨hkey, rfl⟩, rfl⟩

lemma serverHelloFields_ok_iff {serverRandom publicKey : Bytes} {fields : List Bytes} :
    serverHelloFields serverRandom publicKey = .ok fields ↔
      (serverRandom ≠ [] ∧ publicKey ≠ []) ∧ fields = [serverRandom, publicKey] := by
  simp only [serverHelloFields, bind_eq_ok_iff, requiredBytes_ok_iff, Pure.pure, Except.pure,
    Except.ok.injEq]
  constructor
  · rintro ⟨_, ⟨hrandom, rfl⟩, _, ⟨hkey, rfl⟩, rfl⟩
    exact ⟨⟨hrandom, hkey⟩, rfl⟩
  · rintro ⟨⟨hrandom, hkey⟩, rfl⟩
    exact ⟨_, ⟨hrandom, rfl⟩, _, ⟨hkey, rfl⟩, rfl⟩

lemma digestFields_ok_iff {sha256 : Bytes → Bytes} {label : Bytes} {fields : List Bytes} {digest : Bytes} :
    digestFields sha256 label fields = .ok digest ↔
      (∀ field ∈ domainContext :: label :: fields, field.length ≤ maxFramedFieldLength) ∧
        digest = sha256 ((domainContext :: label :: fields).flatMap (frame 4)) := by
  rw [digestFields, map_eq_ok_iff]
  simp only [digestInput, updateFramed, feedAll_ok_iff, List.nil_append]
  constructor
  · rintro ⟨input, ⟨hfields, rfl⟩, rfl⟩
    exact ⟨hfields, rfl⟩
  · rintro ⟨hfields, rfl⟩
    exact ⟨_, ⟨hfields, rfl⟩, rfl⟩

namespace TranscriptCall

/-- The framed fields of a call after the context and the label. -/
def transcript (call : TranscriptCall) : Bytes :=
  (domainContext :: call.label :: call.fieldBytes).flatMap (frame 4)

lemma length_domainContext : domainContext.length ≤ maxFramedFieldLength := by decide

lemma length_label (call : TranscriptCall) : call.label.length ≤ maxFramedFieldLength := by
  cases call <;> simp only [label] <;> decide

lemma length_time : 8 ≤ maxFramedFieldLength := by decide

lemma fields_fit {call : TranscriptCall} (h : call.WellFormed) :
    ∀ field ∈ domainContext :: call.label :: call.fieldBytes, field.length ≤ maxFramedFieldLength := by
  have hnone : ∀ field ∈ ([] : List Bytes), field.length ≤ maxFramedFieldLength := by simp
  rw [List.forall_mem_cons, List.forall_mem_cons]
  refine ⟨length_domainContext, length_label call, ?_⟩
  cases call with
  | clientAuth =>
    obtain ⟨⟨-, -, hs⟩, -, ⟨-, hr⟩, -, hk⟩ := h
    simp only [fieldBytes, List.forall_mem_cons, length_bigEndian]
    exact ⟨hs, length_time, hr, hk, hnone⟩
  | serverAuth =>
    obtain ⟨⟨-, -, hs⟩, -, ⟨-, hr⟩, ⟨-, hk⟩, ⟨-, hsig⟩, ⟨-, hsr⟩, -, hsk⟩ := h
    simp only [fieldBytes, List.forall_mem_cons, length_bigEndian]
    exact ⟨hs, length_time, hr, hk, hsig, hsr, hsk, hnone⟩
  | sessionTranscript =>
    obtain ⟨⟨-, -, hs⟩, -, ⟨-, hr⟩, ⟨-, hk⟩, ⟨-, hsig⟩, ⟨-, hsr⟩, ⟨-, hsk⟩, -, hss⟩ := h
    simp only [fieldBytes, List.forall_mem_cons, length_bigEndian]
    exact ⟨hs, length_time, hr, hk, hsig, hsr, hsk, hss, hnone⟩
  | handshakeReplay =>
    obtain ⟨hdigest, -, hsig⟩ := h
    simp only [fieldBytes, List.forall_mem_cons]
    exact ⟨hdigest ▸ by decide, hsig, hnone⟩

lemma clientAuth_ok_iff {sha256 : Bytes → Bytes} {station : PyStr} {time : Int}
    {random publicKey digest : Bytes} :
    (clientAuth station time random publicKey).run sha256 = .ok digest ↔
      (clientAuth station time random publicKey).WellFormed ∧
        digest = sha256 (clientAuth station time random publicKey).transcript := by
  simp only [run, buildClientAuthDigest, bind_eq_ok_iff, clientHelloFields_ok_iff, digestFields_ok_iff]
  constructor
  · rintro ⟨_, ⟨⟨hstation, htime, hrandom, hkey⟩, rfl⟩, hfit, rfl⟩
    simp only [List.forall_mem_cons] at hfit
    obtain ⟨-, -, hs, -, hr, hk, -⟩ := hfit
    exact ⟨⟨⟨hstation.1, hstation.2, hs⟩, htime, ⟨hrandom, hr⟩, ⟨hkey, hk⟩⟩, rfl⟩
  · rintro ⟨h, rfl⟩
    have hfit := fields_fit h
    obtain ⟨⟨hne, hsurrogate, -⟩, htime, ⟨hrandom, -⟩, ⟨hkey, -⟩⟩ := h
    exact ⟨_, ⟨⟨⟨hne, hsurrogate⟩, htime, hrandom, hkey⟩, rfl⟩, hfit, rfl⟩

lemma serverAuth_ok_iff {sha256 : Bytes → Bytes} {station : PyStr} {time : Int}
    {random publicKey signature serverRandom serverKey digest : Bytes} :
    (serverAuth station time random publicKey signature serverRandom serverKey).run sha256 = .ok digest ↔
      (serverAuth station time random publicKey signature serverRandom serverKey).WellFormed ∧
        digest = sha256
          (serverAuth station time random publicKey signature serverRandom serverKey).transcript := by
  simp only [run, buildServerAuthDigest, bind_eq_ok_iff, clientHelloFields_ok_iff, requiredBytes_ok_iff,
    serverHelloFields_ok_iff, digestFields_ok_iff]
  constructor
  · rintro ⟨_, ⟨⟨hstation, htime, hrandom, hkey⟩, rfl⟩, _, ⟨hsignature, rfl⟩, _,
      ⟨⟨hserverRandom, hserverKey⟩, rfl⟩, hfit, rfl⟩
    simp only [List.cons_append, List.nil_append, List.forall_mem_cons] at hfit
    obtain ⟨-, -, hs, -, hr, hk, hsig, hsr, hsk, -⟩ := hfit
    exact ⟨⟨⟨hstation.1, hstation.2, hs⟩, htime, ⟨hrandom, hr⟩, ⟨hkey, hk⟩, ⟨hsignature, hsig⟩,
      ⟨hserverRandom, hsr⟩, ⟨hserverKey, hsk⟩⟩, rfl⟩
  · rintro ⟨h, rfl⟩
    have hfit := fields_fit h
    obtain ⟨⟨hne, hsurrogate, -⟩, htime, ⟨hrandom, -⟩, ⟨hkey, -⟩, ⟨hsignature, -⟩, ⟨hserverRandom, -⟩,
      ⟨hserverKey, -⟩⟩ := h
    exact ⟨_, ⟨⟨⟨hne, hsurrogate⟩, htime, hrandom, hkey⟩, rfl⟩, _, ⟨hsignature, rfl⟩, _,
      ⟨⟨hserverRandom, hserverKey⟩, rfl⟩, hfit, rfl⟩

lemma sessionTranscript_ok_iff {sha256 : Bytes → Bytes} {station : PyStr} {time : Int}
    {random publicKey signature serverRandom serverKey serverSignature digest : Bytes} :
    let call := sessionTranscript station time random publicKey signature serverRandom serverKey
      serverSignature
    call.run sha256 = .ok digest ↔ call.WellFormed ∧ digest = sha256 call.transcript := by
  intro call
  simp only [call, run, buildSessionTranscriptHash, bind_eq_ok_iff, clientHelloFields_ok_iff,
    requiredBytes_ok_iff, serverHelloFields_ok_iff, digestFields_ok_iff]
  constructor
  · rintro ⟨_, ⟨⟨hstation, htime, hrandom, hkey⟩, rfl⟩, _, ⟨hsignature, rfl⟩, _,
      ⟨⟨hserverRandom, hserverKey⟩, rfl⟩, _, ⟨hserverSignature, rfl⟩, hfit, rfl⟩
    simp only [List.cons_append, List.nil_append, List.forall_mem_cons] at hfit
    obtain ⟨-, -, hs, -, hr, hk, hsig, hsr, hsk, hss, -⟩ := hfit
    exact ⟨⟨⟨hstation.1, hstation.2, hs⟩, htime, ⟨hrandom, hr⟩, ⟨hkey, hk⟩, ⟨hsignature, hsig⟩,
      ⟨hserverRandom, hsr⟩, ⟨hserverKey, hsk⟩, ⟨hserverSignature, hss⟩⟩, rfl⟩
  · rintro ⟨h, rfl⟩
    have hfit := fields_fit h
    obtain ⟨⟨hne, hsurrogate, -⟩, htime, ⟨hrandom, -⟩, ⟨hkey, -⟩, ⟨hsignature, -⟩, ⟨hserverRandom, -⟩,
      ⟨hserverKey, -⟩, ⟨hserverSignature, -⟩⟩ := h
    exact ⟨_, ⟨⟨⟨hne, hsurrogate⟩, htime, hrandom, hkey⟩, rfl⟩, _, ⟨hsignature, rfl⟩, _,
      ⟨⟨hserverRandom, hserverKey⟩, rfl⟩, _, ⟨hserverSignature, rfl⟩, hfit, rfl⟩

lemma handshakeReplay_ok_iff {sha256 : Bytes → Bytes} {authDigest signature digest : Bytes} :
    (handshakeReplay authDigest signature).run sha256 = .ok digest ↔
      (handshakeReplay authDigest signature).WellFormed ∧
        digest = sha256 (handshakeReplay authDigest signature).transcript := by
  rw [run, buildHandshakeReplayKey]
  by_cases hlength : authDigest.length = 32
  · by_cases hempty : signature = []
    · simp [hlength, hempty, WellFormed, ValidField]
    · rw [if_neg (not_not.mpr hlength), if_neg hempty, map_eq_ok_iff]
      simp only [updateReplayDigest, feedAll_ok_iff, List.nil_append]
      constructor
      · rintro ⟨_, ⟨hfit, rfl⟩, rfl⟩
        simp only [List.forall_mem_cons] at hfit
        obtain ⟨-, -, -, hsignature, -⟩ := hfit
        exact ⟨⟨hlength, hempty, hsignature⟩, rfl⟩
      · rintro ⟨h, rfl⟩
        exact ⟨_, ⟨fields_fit h, rfl⟩, rfl⟩
  · rw [if_pos hlength]
    simp [WellFormed, hlength]

/-- A builder accepts exactly the well-formed inputs, and hashes their transcript. -/
theorem run_ok_iff {sha256 : Bytes → Bytes} {call : TranscriptCall} {digest : Bytes} :
    call.run sha256 = .ok digest ↔ call.WellFormed ∧ digest = sha256 call.transcript := by
  cases call with
  | clientAuth => exact clientAuth_ok_iff
  | serverAuth => exact serverAuth_ok_iff
  | sessionTranscript => exact sessionTranscript_ok_iff
  | handshakeReplay => exact handshakeReplay_ok_iff

/-! ### Transcripts determine their calls -/

lemma encodeSurrogatepass_inj {s t : PyStr} (h : encodeSurrogatepass s = encodeSurrogatepass t) :
    s = t := by
  have hdecode := decodeSurrogatepass_encode s
  rw [h, decodeSurrogatepass_encode t] at hdecode
  exact (Option.some_inj.mp hdecode).symm

lemma time_inj {time time' : Int} (h : ValidTimestamp time) (h' : ValidTimestamp time')
    (heq : bigEndian 8 time.toNat = bigEndian 8 time'.toNat) : time = time' := by
  obtain ⟨hnonneg, hle⟩ := h
  obtain ⟨hnonneg', hle'⟩ := h'
  rw [maxTimestamp] at hle hle'
  have hnat : time.toNat = time'.toNat := bigEndian_inj (by omega) (by omega) heq
  omega

/-- Calls of the same builder with the same field bytes are the same. -/
lemma eq_of_fieldBytes {call call' : TranscriptCall} (h : call.WellFormed) (h' : call'.WellFormed)
    (hlabel : call.label = call'.label) (hfields : call.fieldBytes = call'.fieldBytes) :
    call = call' := by
  have hdistinct : [clientAuthLabel, serverAuthLabel, sessionTranscriptLabel, handshakeReplayLabel].Nodup := by
    decide
  cases call with
  | clientAuth =>
    cases call' with
    | clientAuth =>
      simp only [fieldBytes, List.cons.injEq] at hfields
      obtain ⟨hstation, htime, rfl, rfl, -⟩ := hfields
      rw [encodeSurrogatepass_inj hstation, time_inj h.2.1 h'.2.1 htime]
    | serverAuth | sessionTranscript | handshakeReplay => simp_all [label]
  | serverAuth =>
    cases call' with
    | serverAuth =>
      simp only [fieldBytes, List.cons.injEq] at hfields
      obtain ⟨hstation, htime, rfl, rfl, rfl, rfl, rfl, -⟩ := hfields
      rw [encodeSurrogatepass_inj hstation, time_inj h.2.1 h'.2.1 htime]
    | clientAuth | sessionTranscript | handshakeReplay => simp_all [label]
  | sessionTranscript =>
    cases call' with
    | sessionTranscript =>
      simp only [fieldBytes, List.cons.injEq] at hfields
      obtain ⟨hstation, htime, rfl, rfl, rfl, rfl, rfl, rfl, -⟩ := hfields
      rw [encodeSurrogatepass_inj hstation, time_inj h.2.1 h'.2.1 htime]
    | clientAuth | serverAuth | handshakeReplay => simp_all [label]
  | handshakeReplay =>
    cases call' with
    | handshakeReplay =>
      simp only [fieldBytes, List.cons.injEq] at hfields
      obtain ⟨rfl, rfl, -⟩ := hfields
      rfl
    | clientAuth | serverAuth | sessionTranscript => simp_all [label]

lemma transcript_inj {call call' : TranscriptCall} (h : call.WellFormed) (h' : call'.WellFormed)
    (heq : call.transcript = call'.transcript) : call = call' := by
  have hbound : maxFramedFieldLength < 256 ^ 4 := by decide
  have hframes := frames_inj (by decide)
    (fun field hfield => lt_of_le_of_lt (fields_fit h field hfield) hbound)
    (fun field hfield => lt_of_le_of_lt (fields_fit h' field hfield) hbound) heq
  rw [List.cons.injEq, List.cons.injEq] at hframes
  exact eq_of_fieldBytes h h' hframes.2.1 hframes.2.2

end TranscriptCall

/-- Every well-formed call is hashed, and what is hashed tells the builder and all of its
fields. -/
theorem transcripts_domain_separated (call call' : TranscriptCall) (h : call.WellFormed)
    (h' : call'.WellFormed) :
    ∃ input input', call.hashInput = .ok input ∧ call'.hashInput = .ok input' ∧
      (∀ sha256, call.run sha256 = .ok (sha256 input)) ∧ (input = input' ↔ call = call') := by
  refine ⟨call.transcript, call'.transcript, TranscriptCall.run_ok_iff.mpr ⟨h, rfl⟩,
    TranscriptCall.run_ok_iff.mpr ⟨h', rfl⟩, fun sha256 => TranscriptCall.run_ok_iff.mpr ⟨h, rfl⟩, ?_⟩
  constructor
  · exact TranscriptCall.transcript_inj h h'
  · rintro rfl
    rfl

/-- A client authentication and a replay key of the same bytes. -/
theorem transcripts_domain_separated_station :
    ∃ input input', (TranscriptCall.clientAuth (str "A") 7 [1] [2]).hashInput = .ok input ∧
      (TranscriptCall.handshakeReplay (List.replicate 32 0) [1]).hashInput = .ok input' ∧
      input ≠ input' := by
  have h : (TranscriptCall.clientAuth (str "A") 7 [1] [2]).WellFormed :=
    ⟨⟨by decide, by decide, by decide⟩, ⟨by decide, by decide⟩, ⟨by decide, by decide⟩, by decide, by decide⟩
  have h' : (TranscriptCall.handshakeReplay (List.replicate 32 0) [1]).WellFormed :=
    ⟨by decide, by decide, by decide⟩
  obtain ⟨input, input', hinput, hinput', -, hiff⟩ := transcripts_domain_separated _ _ h h'
  refine ⟨input, input', hinput, hinput', ?_⟩
  intro heq
  cases hiff.mp heq

end AisMixer.Udpsec

import AisMixer.Library.AsciiDigits
import AisMixer.Library.Base64
import AisMixer.Udpsec.Transcript

/-!
# Hello packets

`core/udpsec_protocol.py`: the values of a ClientHello and of a ServerHello, and their wire
format of fields between pipes. A value carries the checks of its constructor.
-/

namespace AisMixer.Udpsec

open AisMixer.Library

def pipe : UInt8 := 0x7C

def clientHelloPrefix : Bytes := ascii "NMEA-H"
def serverHelloPrefix : Bytes := ascii "OK"

/-! ### Values -/

/-- `_station_id_bytes` of the packets, which rejects the delimiter too. -/
def wireStationIdBytes (stationId : PyStr) : Except PyException Bytes :=
  if stationId = [] then .error (.valueError (str "station_id must not be empty"))
  else if 0x7C ∈ stationId then .error (.valueError (str "station_id must not contain '|'"))
  else orRaise (.valueError (str "station_id must be UTF-8 encodable")) (encodeUtf8 stationId)

def validateTimestamp (timestamp : Int) : Except PyException Unit :=
  if 0 ≤ timestamp ∧ timestamp ≤ maxTimestamp then .ok ()
  else .error (.valueError (str "timestamp must fit in an unsigned 64-bit integer"))

def validateRandom (name : PyStr) (value : Bytes) : Except PyException Unit :=
  if value.length ≠ 32 then .error (.valueError (name ++ str " must be exactly 32 bytes")) else .ok ()

def validateEphemeralPublicKey (name : PyStr) (value : Bytes) : Except PyException Unit :=
  if value.length ≠ 33 then .error (.valueError (name ++ str " must be exactly 33 bytes"))
  else if value.head? ≠ some 0x02 ∧ value.head? ≠ some 0x03 then
    .error (.valueError (name ++ str " must start with 0x02 or 0x03"))
  else .ok ()

def validateSignature (name : PyStr) (value : Bytes) : Except PyException Unit :=
  if value = [] then .error (.valueError (name ++ str " must not be empty")) else .ok ()

def IsRandom (value : Bytes) : Prop := value.length = 32

def IsCompressedPoint (value : Bytes) : Prop :=
  value.length = 33 ∧ (value.head? = some 0x02 ∨ value.head? = some 0x03)

/-- The fields of one ClientHello, which have passed its checks. -/
structure ClientHello where
  stationId : PyStr
  timestamp : Int
  clientRandom : Bytes
  clientEphemeralPublicKey : Bytes
  clientSignature : Bytes
  station : stationId ≠ [] ∧ 0x7C ∉ stationId ∧ hasSurrogate stationId = false
  time : 0 ≤ timestamp ∧ timestamp ≤ maxTimestamp
  random : IsRandom clientRandom
  publicKey : IsCompressedPoint clientEphemeralPublicKey
  signature : clientSignature ≠ []
  deriving DecidableEq

/-- The fields of one ServerHello, which have passed its checks. -/
structure ServerHello where
  serverRandom : Bytes
  serverEphemeralPublicKey : Bytes
  serverSignature : Bytes
  random : IsRandom serverRandom
  publicKey : IsCompressedPoint serverEphemeralPublicKey
  signature : serverSignature ≠ []
  deriving DecidableEq

/-- `ClientHello.__post_init__`. -/
def checkClientHello (stationId : PyStr) (timestamp : Int)
    (clientRandom clientEphemeralPublicKey clientSignature : Bytes) : Except PyException Unit := do
  let _ ← wireStationIdBytes stationId
  validateTimestamp timestamp
  validateRandom (str "client_random") clientRandom
  validateEphemeralPublicKey (str "client_ephemeral_public_key") clientEphemeralPublicKey
  validateSignature (str "client_signature") clientSignature

/-- `ServerHello.__post_init__`. -/
def checkServerHello (serverRandom serverEphemeralPublicKey serverSignature : Bytes) :
    Except PyException Unit := do
  validateRandom (str "server_random") serverRandom
  validateEphemeralPublicKey (str "server_ephemeral_public_key") serverEphemeralPublicKey
  validateSignature (str "server_signature") serverSignature

lemma wireStationIdBytes_ok_iff {stationId : PyStr} {bytes : Bytes} :
    wireStationIdBytes stationId = .ok bytes ↔
      (stationId ≠ [] ∧ 0x7C ∉ stationId ∧ hasSurrogate stationId = false) ∧
        bytes = encodeSurrogatepass stationId := by
  unfold wireStationIdBytes
  by_cases hempty : stationId = []
  · simp [hempty]
  · by_cases hpipe : 0x7C ∈ stationId
    · simp [hempty, hpipe]
    · rw [if_neg hempty, if_neg hpipe, and_assoc, and_assoc, ← encodeUtf8_eq_some]
      cases encodeUtf8 stationId with
      | none => simp [orRaise]
      | some encoded => simp [orRaise, hempty, hpipe]

lemma validateTimestamp_ok_iff {timestamp : Int} :
    validateTimestamp timestamp = .ok () ↔ 0 ≤ timestamp ∧ timestamp ≤ maxTimestamp := by
  unfold validateTimestamp
  split
  · next h => simp [h]
  · next h => simp [h]

lemma validateRandom_ok_iff {name : PyStr} {value : Bytes} :
    validateRandom name value = .ok () ↔ IsRandom value := by
  unfold validateRandom IsRandom
  split
  · next h => simp [h]
  · next h => simp [not_not.mp h]

lemma validateEphemeralPublicKey_ok_iff {name : PyStr} {value : Bytes} :
    validateEphemeralPublicKey name value = .ok () ↔ IsCompressedPoint value := by
  unfold validateEphemeralPublicKey IsCompressedPoint
  by_cases hlength : value.length = 33
  · by_cases hhead : value.head? = some 0x02 ∨ value.head? = some 0x03
    · rw [if_neg (not_not.mpr hlength), if_neg (by tauto)]
      simp [hlength, hhead]
    · rw [if_neg (not_not.mpr hlength), if_pos (by tauto)]
      simp [hhead]
  · rw [if_pos hlength]
    simp [hlength]

lemma validateSignature_ok_iff {name : PyStr} {value : Bytes} :
    validateSignature name value = .ok () ↔ value ≠ [] := by
  unfold validateSignature
  split
  · next h => simp [h]
  · next h => simp [h]

lemma checkClientHello_ok_iff {stationId : PyStr} {timestamp : Int}
    {clientRandom publicKey clientSignature : Bytes} :
    checkClientHello stationId timestamp clientRandom publicKey clientSignature = .ok () ↔
      (stationId ≠ [] ∧ 0x7C ∉ stationId ∧ hasSurrogate stationId = false) ∧
        (0 ≤ timestamp ∧ timestamp ≤ maxTimestamp) ∧ IsRandom clientRandom ∧
        IsCompressedPoint publicKey ∧ clientSignature ≠ [] := by
  rw [checkClientHello, bind_eq_ok_iff]
  simp only [wireStationIdBytes_ok_iff, check_bind_eq_ok_iff, validateTimestamp_ok_iff,
    validateRandom_ok_iff, validateEphemeralPublicKey_ok_iff, validateSignature_ok_iff]
  constructor
  · rintro ⟨_, ⟨hstation, -⟩, hrest⟩
    exact ⟨hstation, hrest⟩
  · rintro ⟨hstation, hrest⟩
    exact ⟨_, ⟨hstation, rfl⟩, hrest⟩

lemma checkServerHello_ok_iff {serverRandom publicKey serverSignature : Bytes} :
    checkServerHello serverRandom publicKey serverSignature = .ok () ↔
      IsRandom serverRandom ∧ IsCompressedPoint publicKey ∧ serverSignature ≠ [] := by
  simp only [checkServerHello, check_bind_eq_ok_iff, validateRandom_ok_iff,
    validateEphemeralPublicKey_ok_iff, validateSignature_ok_iff]

/-- The constructor `ClientHello(…)`. -/
def makeClientHello (stationId : PyStr) (timestamp : Int)
    (clientRandom clientEphemeralPublicKey clientSignature : Bytes) : Except PyException ClientHello :=
  match h : checkClientHello stationId timestamp clientRandom clientEphemeralPublicKey clientSignature with
  | .error e => .error e
  | .ok () =>
    have hchecks := checkClientHello_ok_iff.mp h
    .ok ⟨stationId, timestamp, clientRandom, clientEphemeralPublicKey, clientSignature, hchecks.1,
      hchecks.2.1, hchecks.2.2.1, hchecks.2.2.2.1, hchecks.2.2.2.2⟩

/-- The constructor `ServerHello(…)`. -/
def makeServerHello (serverRandom serverEphemeralPublicKey serverSignature : Bytes) :
    Except PyException ServerHello :=
  match h : checkServerHello serverRandom serverEphemeralPublicKey serverSignature with
  | .error e => .error e
  | .ok () =>
    have hchecks := checkServerHello_ok_iff.mp h
    .ok ⟨serverRandom, serverEphemeralPublicKey, serverSignature, hchecks.1, hchecks.2.1, hchecks.2.2⟩

/-! ### Fields on the wire -/

def encodeBase64 (value : Bytes) : Bytes := b64encode value

def noncanonicalBase64 (name : PyStr) : PyException :=
  .valueError (name ++ str " must use canonical standard base64")

def decodeBase64 (name : PyStr) (encoded : Bytes) : Except PyException Bytes :=
  if encoded = [] then .error (.valueError (name ++ str " base64 field must not be empty"))
  else match b64decode encoded with
  | none => .error (noncanonicalBase64 name)
  | some decoded =>
    if b64encode decoded ≠ encoded then .error (noncanonicalBase64 name) else .ok decoded

def maxTimestampAscii : Bytes := asciiBytes (intStr maxTimestamp)

def noncanonicalTimestamp : PyException :=
  .valueError (str "timestamp must use canonical unsigned ASCII decimal")

def isAsciiDigit (b : UInt8) : Bool := 0x30 ≤ b.toNat && b.toNat ≤ 0x39

def parseTimestamp : Bytes → Except PyException Int
  | [] => .error noncanonicalTimestamp
  | first :: rest =>
    let encoded := first :: rest
    if encoded = ascii "0" then .ok 0
    else if !(0x31 ≤ first.toNat && first.toNat ≤ 0x39) || rest.any (fun value => !isAsciiDigit value) then
      .error noncanonicalTimestamp
    else if maxTimestampAscii.length < encoded.length ∨
        (encoded.length = maxTimestampAscii.length ∧ maxTimestampAscii < encoded) then
      .error (.valueError (str "timestamp must fit in an unsigned 64-bit integer"))
    else match pyInt (asciiText encoded) with
      | none => .error (.valueError (str "invalid literal for int() with base 10"))
      | some timestamp =>
        if asciiBytes (intStr timestamp) ≠ encoded then .error noncanonicalTimestamp else .ok timestamp

/-- `sep.join(fields)` for the delimiter. -/
def joinFields (fields : List Bytes) : Bytes := [pipe].intercalate fields

def splitPacket (packet headPrefix : Bytes) (fieldCount : Nat) (packetName : PyStr) :
    Except PyException (List Bytes) :=
  let fields := packet.splitOn pipe
  if fields.length ≠ fieldCount ∨ fields.head? ≠ some headPrefix then
    .error (.valueError (str "invalid " ++ packetName ++ str " packet format"))
  else .ok fields

/-- `fields[index]` of a list that is long enough. -/
def fieldAt (fields : List Bytes) (index : Nat) : Bytes := fields.getD index []

/-! ### Packets -/

def buildClientHelloPacket (hello : ClientHello) : Except PyException Bytes := do
  let station ← wireStationIdBytes hello.stationId
  return joinFields [clientHelloPrefix, station, asciiBytes (intStr hello.timestamp),
    encodeBase64 hello.clientRandom, encodeBase64 hello.clientEphemeralPublicKey,
    encodeBase64 hello.clientSignature]

def parseClientHelloPacket (packet : Bytes) : Except PyException ClientHello := do
  let fields ← splitPacket packet clientHelloPrefix 6 (str "ClientHello")
  let stationId ← orRaise (.valueError (str "station_id must use valid UTF-8"))
    (decodeUtf8 (fieldAt fields 1))
  let timestamp ← parseTimestamp (fieldAt fields 2)
  let clientRandom ← decodeBase64 (str "client_random") (fieldAt fields 3)
  let publicKey ← decodeBase64 (str "client_ephemeral_public_key") (fieldAt fields 4)
  let clientSignature ← decodeBase64 (str "client_signature") (fieldAt fields 5)
  makeClientHello stationId timestamp clientRandom publicKey clientSignature

def buildServerHelloPacket (hello : ServerHello) : Bytes :=
  joinFields [serverHelloPrefix, encodeBase64 hello.serverRandom,
    encodeBase64 hello.serverEphemeralPublicKey, encodeBase64 hello.serverSignature]

def parseServerHelloPacket (packet : Bytes) : Except PyException ServerHello := do
  let fields ← splitPacket packet serverHelloPrefix 4 (str "ServerHello")
  let serverRandom ← decodeBase64 (str "server_random") (fieldAt fields 1)
  let publicKey ← decodeBase64 (str "server_ephemeral_public_key") (fieldAt fields 2)
  let serverSignature ← decodeBase64 (str "server_signature") (fieldAt fields 3)
  makeServerHello serverRandom publicKey serverSignature

/-! ### One field at a time -/

lemma decodeBase64_encode {name : PyStr} {value : Bytes} (h : value ≠ []) :
    decodeBase64 name (encodeBase64 value) = .ok value := by
  rw [decodeBase64, encodeBase64, if_neg (b64encode_ne_nil h), b64decode_b64encode]
  simp

lemma decodeBase64_ok {name : PyStr} {encoded decoded : Bytes} (h : decodeBase64 name encoded = .ok decoded) :
    encodeBase64 decoded = encoded := by
  unfold decodeBase64 at h
  split at h
  · cases h
  · split at h
    · cases h
    · split at h
      · cases h
      · next heq =>
        obtain rfl := Except.ok.inj h
        exact not_not.mp heq

lemma first_digit_canonical {d : Nat} {rest : List Nat} (hlt : ∀ e ∈ d :: rest, e < 10) (hd : 0 < d) :
    (!(0x31 ≤ (digitByte d).toNat && (digitByte d).toNat ≤ 0x39) ||
      (rest.map digitByte).any (fun value => !isAsciiDigit value)) = false := by
  have hd10 := hlt d (by simp)
  rw [Bool.or_eq_false_iff, Bool.not_eq_false', Bool.and_eq_true, decide_eq_true_eq, decide_eq_true_eq,
    (digitByte_spec d hd10).2, List.any_eq_false]
  refine ⟨⟨by omega, by omega⟩, ?_⟩
  intro value hvalue
  obtain ⟨e, he, rfl⟩ := List.mem_map.mp hvalue
  have he10 := hlt e (List.mem_cons_of_mem _ he)
  simp [isAsciiDigit, (digitByte_spec e he10).2]
  omega

/-- The check by length and by lexicographic order accepts what fits. -/
lemma fits_natStr {n : Nat} (h : n < 2 ^ 64) :
    ¬(maxTimestampAscii.length < (asciiBytes (natStr n)).length ∨
      ((asciiBytes (natStr n)).length = maxTimestampAscii.length ∧
        maxTimestampAscii < asciiBytes (natStr n))) := by
  have hmax : maxTimestampAscii = (natDigits (2 ^ 64 - 1)).map digitByte := asciiBytes_natStr (2 ^ 64 - 1)
  have hmaxLength : maxTimestampAscii.length = 20 := by decide +kernel
  rw [asciiBytes_natStr]
  rintro (hlong | ⟨hequal, hless⟩)
  · have hlength := natDigits_length (n := n) (by decide : 0 < 20) (by omega)
    rw [hmaxLength, List.length_map] at hlong
    omega
  · rw [hmax] at hless hequal
    rw [List.length_map, List.length_map] at hequal
    have hvalue := foldDigits_lt (natDigits_lt _) (natDigits_lt n) hequal.symm hless (le_refl 0)
    rw [natDigits_value, natDigits_value] at hvalue
    omega

lemma parseTimestamp_natStr {n : Nat} (h : (n : Int) ≤ maxTimestamp) :
    parseTimestamp (asciiBytes (natStr n)) = .ok n := by
  by_cases hzero : n = 0
  · rw [hzero]
    decide
  have hn : n < 2 ^ 64 := by
    rw [maxTimestamp] at h
    omega
  obtain ⟨d, rest, hdigits, hd⟩ := natDigits_head hzero
  have hlt := natDigits_lt n
  rw [hdigits] at hlt
  have hbytes : asciiBytes (natStr n) = digitByte d :: rest.map digitByte := by
    rw [asciiBytes_natStr, hdigits, List.map_cons]
  have hnotzero : digitByte d :: rest.map digitByte ≠ ascii "0" := by
    intro heq
    have hzeroBytes : ascii "0" = [0x30] := by decide
    rw [hzeroBytes] at heq
    have hhead := congrArg UInt8.toNat (List.cons.inj heq).1
    rw [(digitByte_spec d (hlt d (by simp))).2] at hhead
    have hzeroDigit : (0x30 : UInt8).toNat = 0x30 := by decide
    omega
  have hfits := fits_natStr hn
  have hint : pyInt (asciiText (asciiBytes (natStr n))) = some (n : Int) := by
    rw [asciiText_natStr]
    apply pyInt_natStr
    calc n < 10 ^ 20 := by omega
      _ ≤ 10 ^ intMaxStrDigits := Nat.pow_le_pow_right (by decide) (by decide)
  have hagain : asciiBytes (intStr (n : Int)) = digitByte d :: rest.map digitByte := hbytes
  rw [hbytes] at hfits hint
  rw [hbytes, parseTimestamp, if_neg hnotzero, first_digit_canonical hlt hd]
  rw [if_neg Bool.false_ne_true, if_neg hfits, hint]
  simp only
  rw [if_neg (not_not.mpr hagain)]

lemma parseTimestamp_ok {encoded : Bytes} {timestamp : Int} (h : parseTimestamp encoded = .ok timestamp) :
    asciiBytes (intStr timestamp) = encoded := by
  cases encoded with
  | nil => cases h
  | cons first rest =>
    rw [parseTimestamp] at h
    split at h
    · next hzero =>
      rw [← Except.ok.inj h, hzero]
      decide
    · split at h
      · cases h
      · split at h
        · cases h
        · split at h
          · cases h
          · split at h
            · cases h
            · next heq =>
              rw [← Except.ok.inj h]
              exact not_not.mp heq

lemma pipe_not_mem_station {stationId : PyStr} (h : 0x7C ∉ stationId) :
    pipe ∉ encodeSurrogatepass stationId := by
  intro hmem
  obtain ⟨c, hc, hpipe⟩ := List.mem_flatMap.mp hmem
  have hchar := (encodeChar_ascii hpipe (by decide)).2
  have hcode : codePoint pipe.toNat = 0x7C := by decide
  rw [hcode] at hchar
  exact h (hchar ▸ hc)

lemma pipe_not_mem_natStr (n : Nat) : pipe ∉ asciiBytes (natStr n) := by
  rw [asciiBytes_natStr]
  intro hmem
  obtain ⟨d, hd, hpipe⟩ := List.mem_map.mp hmem
  have hall : ∀ e < 10, digitByte e ≠ pipe := by decide
  exact hall d (natDigits_lt n d hd) hpipe

lemma splitPacket_join {headPrefix : Bytes} {fields : List Bytes} {packetName : PyStr}
    (h : ∀ field ∈ headPrefix :: fields, pipe ∉ field) :
    splitPacket (joinFields (headPrefix :: fields)) headPrefix (fields.length + 1) packetName =
      .ok (headPrefix :: fields) := by
  rw [splitPacket, joinFields, List.splitOn_intercalate pipe h (by simp)]
  simp

lemma splitPacket_ok {packet headPrefix : Bytes} {fieldCount : Nat} {packetName : PyStr}
    {fields : List Bytes} (h : splitPacket packet headPrefix fieldCount packetName = .ok fields) :
    fields.length = fieldCount ∧ fields.head? = some headPrefix ∧ joinFields fields = packet := by
  rw [splitPacket] at h
  split at h
  · cases h
  · next hformat =>
    rw [not_or, not_not, not_not] at hformat
    obtain rfl := Except.ok.inj h
    exact ⟨hformat.1, hformat.2, List.intercalate_splitOn pipe⟩

/-! ### Packets and values correspond -/

lemma makeClientHello_eq (hello : ClientHello) :
    makeClientHello hello.stationId hello.timestamp hello.clientRandom hello.clientEphemeralPublicKey
      hello.clientSignature = .ok hello := by
  have hchecks : checkClientHello hello.stationId hello.timestamp hello.clientRandom
      hello.clientEphemeralPublicKey hello.clientSignature = .ok () :=
    checkClientHello_ok_iff.mpr ⟨hello.station, hello.time, hello.random, hello.publicKey, hello.signature⟩
  unfold makeClientHello
  split
  · next h => rw [hchecks] at h; cases h
  · rfl

lemma makeClientHello_ok {stationId : PyStr} {timestamp : Int} {clientRandom publicKey signature : Bytes}
    {hello : ClientHello} (h : makeClientHello stationId timestamp clientRandom publicKey signature = .ok hello) :
    hello.stationId = stationId ∧ hello.timestamp = timestamp ∧ hello.clientRandom = clientRandom ∧
      hello.clientEphemeralPublicKey = publicKey ∧ hello.clientSignature = signature := by
  unfold makeClientHello at h
  split at h
  · cases h
  · obtain rfl := Except.ok.inj h
    exact ⟨rfl, rfl, rfl, rfl, rfl⟩

lemma makeServerHello_eq (hello : ServerHello) :
    makeServerHello hello.serverRandom hello.serverEphemeralPublicKey hello.serverSignature = .ok hello := by
  have hchecks : checkServerHello hello.serverRandom hello.serverEphemeralPublicKey
      hello.serverSignature = .ok () :=
    checkServerHello_ok_iff.mpr ⟨hello.random, hello.publicKey, hello.signature⟩
  unfold makeServerHello
  split
  · next h => rw [hchecks] at h; cases h
  · rfl

lemma makeServerHello_ok {serverRandom publicKey signature : Bytes} {hello : ServerHello}
    (h : makeServerHello serverRandom publicKey signature = .ok hello) :
    hello.serverRandom = serverRandom ∧ hello.serverEphemeralPublicKey = publicKey ∧
      hello.serverSignature = signature := by
  unfold makeServerHello at h
  split at h
  · cases h
  · obtain rfl := Except.ok.inj h
    exact ⟨rfl, rfl, rfl⟩

lemma IsRandom.ne_nil {value : Bytes} (h : IsRandom value) : value ≠ [] := by
  rintro rfl
  cases h

lemma IsCompressedPoint.ne_nil {value : Bytes} (h : IsCompressedPoint value) : value ≠ [] := by
  rintro rfl
  cases h.1

/-- The fields that a ClientHello puts on the wire. -/
def ClientHello.fields (hello : ClientHello) : List Bytes :=
  [encodeSurrogatepass hello.stationId, asciiBytes (intStr hello.timestamp),
    encodeBase64 hello.clientRandom, encodeBase64 hello.clientEphemeralPublicKey,
    encodeBase64 hello.clientSignature]

lemma buildClientHelloPacket_eq (hello : ClientHello) :
    buildClientHelloPacket hello = .ok (joinFields (clientHelloPrefix :: hello.fields)) := by
  rw [buildClientHelloPacket, wireStationIdBytes_ok_iff.mpr ⟨hello.station, rfl⟩]
  rfl

theorem parse_build_clientHello (hello : ClientHello) :
    parseClientHelloPacket (joinFields (clientHelloPrefix :: hello.fields)) = .ok hello := by
  obtain ⟨n, hn⟩ := Int.eq_ofNat_of_zero_le hello.time.1
  have htime : parseTimestamp (asciiBytes (intStr hello.timestamp)) = .ok hello.timestamp := by
    rw [hn]
    exact parseTimestamp_natStr (hn ▸ hello.time.2)
  have hpipe : ∀ field ∈ clientHelloPrefix :: hello.fields, pipe ∉ field := by
    simp only [ClientHello.fields, List.forall_mem_cons]
    refine ⟨by decide, pipe_not_mem_station hello.station.2.1, ?_, pipe_not_mem_b64encode _,
      pipe_not_mem_b64encode _, pipe_not_mem_b64encode _, by simp⟩
    rw [hn]
    exact pipe_not_mem_natStr n
  have hstation : decodeUtf8 (encodeSurrogatepass hello.stationId) = some hello.stationId :=
    decodeUtf8_encode (encodeUtf8_eq_some.mpr ⟨hello.station.2.2, rfl⟩)
  rw [parseClientHelloPacket, show (6 : Nat) = hello.fields.length + 1 from rfl, splitPacket_join hpipe]
  simp only [Bind.bind, Except.bind, fieldAt, ClientHello.fields, List.getD_cons_succ, List.getD_cons_zero,
    hstation, orRaise, htime, decodeBase64_encode hello.random.ne_nil,
    decodeBase64_encode hello.publicKey.ne_nil, decodeBase64_encode hello.signature]
  exact makeClientHello_eq hello

theorem build_parse_clientHello {packet : Bytes} {hello : ClientHello}
    (h : parseClientHelloPacket packet = .ok hello) : buildClientHelloPacket hello = .ok packet := by
  obtain ⟨fields, hsplit, h⟩ := bind_eq_ok_iff.mp h
  obtain ⟨stationId, hstation, h⟩ := bind_eq_ok_iff.mp h
  obtain ⟨timestamp, htime, h⟩ := bind_eq_ok_iff.mp h
  obtain ⟨clientRandom, hrandom, h⟩ := bind_eq_ok_iff.mp h
  obtain ⟨publicKey, hkey, h⟩ := bind_eq_ok_iff.mp h
  obtain ⟨signature, hsignature, h⟩ := bind_eq_ok_iff.mp h
  obtain ⟨rfl, rfl, rfl, rfl, rfl⟩ := makeClientHello_ok h
  obtain ⟨hlength, hhead, hjoin⟩ := splitPacket_ok hsplit
  have hbytes : encodeSurrogatepass hello.stationId = fieldAt fields 1 := by
    unfold orRaise at hstation
    split at hstation
    · next hdecode =>
      obtain rfl := Except.ok.inj hstation
      exact (encodeUtf8_eq_some.mp (encodeUtf8_of_decodeUtf8 hdecode)).2.symm
    · cases hstation
  have hfields : clientHelloPrefix :: hello.fields = fields := by
    rw [ClientHello.fields, hbytes, parseTimestamp_ok htime, decodeBase64_ok hrandom, decodeBase64_ok hkey,
      decodeBase64_ok hsignature]
    match fields, hlength, hhead with
    | [first, station, time, random, publicKey, signature], _, hhead =>
      rw [Option.some_inj.mp hhead]
      rfl
  rw [buildClientHelloPacket_eq, hfields, hjoin]

/-- The fields that a ServerHello puts on the wire. -/
def ServerHello.fields (hello : ServerHello) : List Bytes :=
  [encodeBase64 hello.serverRandom, encodeBase64 hello.serverEphemeralPublicKey,
    encodeBase64 hello.serverSignature]

theorem parse_build_serverHello (hello : ServerHello) :
    parseServerHelloPacket (buildServerHelloPacket hello) = .ok hello := by
  have hpipe : ∀ field ∈ serverHelloPrefix :: hello.fields, pipe ∉ field := by
    simp only [ServerHello.fields, List.forall_mem_cons]
    exact ⟨by decide, pipe_not_mem_b64encode _, pipe_not_mem_b64encode _, pipe_not_mem_b64encode _, by simp⟩
  have hbuild : buildServerHelloPacket hello = joinFields (serverHelloPrefix :: hello.fields) := rfl
  rw [parseServerHelloPacket, hbuild, show (4 : Nat) = hello.fields.length + 1 from rfl,
    splitPacket_join hpipe]
  simp only [Bind.bind, Except.bind, fieldAt, ServerHello.fields, List.getD_cons_succ, List.getD_cons_zero,
    decodeBase64_encode hello.random.ne_nil, decodeBase64_encode hello.publicKey.ne_nil,
    decodeBase64_encode hello.signature]
  exact makeServerHello_eq hello

theorem build_parse_serverHello {packet : Bytes} {hello : ServerHello}
    (h : parseServerHelloPacket packet = .ok hello) : buildServerHelloPacket hello = packet := by
  obtain ⟨fields, hsplit, h⟩ := bind_eq_ok_iff.mp h
  obtain ⟨serverRandom, hrandom, h⟩ := bind_eq_ok_iff.mp h
  obtain ⟨publicKey, hkey, h⟩ := bind_eq_ok_iff.mp h
  obtain ⟨signature, hsignature, h⟩ := bind_eq_ok_iff.mp h
  obtain ⟨rfl, rfl, rfl⟩ := makeServerHello_ok h
  obtain ⟨hlength, hhead, hjoin⟩ := splitPacket_ok hsplit
  have hfields : serverHelloPrefix :: hello.fields = fields := by
    rw [ServerHello.fields, decodeBase64_ok hrandom, decodeBase64_ok hkey, decodeBase64_ok hsignature]
    match fields, hlength, hhead with
    | [first, random, publicKey, signature], _, hhead =>
      rw [Option.some_inj.mp hhead]
      rfl
  rw [← hjoin, ← hfields]
  rfl

/-! ### Every rejection is a `ValueError` -/

/-- A computation that raises nothing but `ValueError`. -/
def RaisesValueError {α : Type} (x : Except PyException α) : Prop :=
  ∀ e, x = .error e → ∃ message, e = .valueError message

lemma raisesValueError_ok {α : Type} (a : α) : RaisesValueError (.ok a : Except PyException α) := by
  intro e h
  cases h

lemma raisesValueError_error {α : Type} (message : PyStr) :
    RaisesValueError (.error (.valueError message) : Except PyException α) := by
  intro e h
  exact ⟨message, (Except.error.inj h).symm⟩

lemma RaisesValueError.bind {α β : Type} {x : Except PyException α} {f : α → Except PyException β}
    (hx : RaisesValueError x) (hf : ∀ a, RaisesValueError (f a)) : RaisesValueError (x >>= f) := by
  cases x with
  | error e =>
    intro e' h
    have he : e = e' := by simpa [Bind.bind, Except.bind] using h
    exact hx e' (congrArg Except.error he)
  | ok a => exact hf a

lemma RaisesValueError.orRaise {α : Type} (message : PyStr) (x : Option α) :
    RaisesValueError (Library.orRaise (.valueError message) x) := by
  cases x with
  | none => exact raisesValueError_error message
  | some a => exact raisesValueError_ok a

lemma decodeBase64_raises (name : PyStr) (encoded : Bytes) : RaisesValueError (decodeBase64 name encoded) := by
  unfold decodeBase64
  split
  · exact raisesValueError_error _
  · split
    · exact raisesValueError_error _
    · split
      · exact raisesValueError_error _
      · exact raisesValueError_ok _

lemma parseTimestamp_raises (encoded : Bytes) : RaisesValueError (parseTimestamp encoded) := by
  cases encoded with
  | nil => exact raisesValueError_error _
  | cons first rest =>
    rw [parseTimestamp]
    split
    · exact raisesValueError_ok _
    · split
      · exact raisesValueError_error _
      · split
        · exact raisesValueError_error _
        · split
          · exact raisesValueError_error _
          · split
            · exact raisesValueError_error _
            · exact raisesValueError_ok _

lemma splitPacket_raises (packet headPrefix : Bytes) (fieldCount : Nat) (packetName : PyStr) :
    RaisesValueError (splitPacket packet headPrefix fieldCount packetName) := by
  rw [splitPacket]
  split
  · exact raisesValueError_error _
  · exact raisesValueError_ok _

lemma validateRandom_raises (name : PyStr) (value : Bytes) : RaisesValueError (validateRandom name value) := by
  unfold validateRandom
  split
  · exact raisesValueError_error _
  · exact raisesValueError_ok _

lemma validateEphemeralPublicKey_raises (name : PyStr) (value : Bytes) :
    RaisesValueError (validateEphemeralPublicKey name value) := by
  unfold validateEphemeralPublicKey
  split
  · exact raisesValueError_error _
  · split
    · exact raisesValueError_error _
    · exact raisesValueError_ok _

lemma validateSignature_raises (name : PyStr) (value : Bytes) :
    RaisesValueError (validateSignature name value) := by
  unfold validateSignature
  split
  · exact raisesValueError_error _
  · exact raisesValueError_ok _

lemma wireStationIdBytes_raises (stationId : PyStr) : RaisesValueError (wireStationIdBytes stationId) := by
  unfold wireStationIdBytes
  split
  · exact raisesValueError_error _
  · split
    · exact raisesValueError_error _
    · exact RaisesValueError.orRaise _ _

lemma validateTimestamp_raises (timestamp : Int) : RaisesValueError (validateTimestamp timestamp) := by
  unfold validateTimestamp
  split
  · exact raisesValueError_ok _
  · exact raisesValueError_error _

lemma makeClientHello_raises (stationId : PyStr) (timestamp : Int)
    (clientRandom publicKey signature : Bytes) :
    RaisesValueError (makeClientHello stationId timestamp clientRandom publicKey signature) := by
  have hchecks : RaisesValueError (checkClientHello stationId timestamp clientRandom publicKey signature) := by
    refine (wireStationIdBytes_raises _).bind (fun _ => ?_)
    refine (validateTimestamp_raises _).bind (fun _ => ?_)
    refine (validateRandom_raises _ _).bind (fun _ => ?_)
    exact (validateEphemeralPublicKey_raises _ _).bind (fun _ => validateSignature_raises _ _)
  unfold makeClientHello
  split
  · next e h =>
    obtain ⟨message, rfl⟩ := hchecks e h
    exact raisesValueError_error message
  · exact raisesValueError_ok _

lemma makeServerHello_raises (serverRandom publicKey signature : Bytes) :
    RaisesValueError (makeServerHello serverRandom publicKey signature) := by
  have hchecks : RaisesValueError (checkServerHello serverRandom publicKey signature) := by
    refine (validateRandom_raises _ _).bind (fun _ => ?_)
    exact (validateEphemeralPublicKey_raises _ _).bind (fun _ => validateSignature_raises _ _)
  unfold makeServerHello
  split
  · next e h =>
    obtain ⟨message, rfl⟩ := hchecks e h
    exact raisesValueError_error message
  · exact raisesValueError_ok _

lemma parseClientHelloPacket_raises (packet : Bytes) : RaisesValueError (parseClientHelloPacket packet) := by
  refine (splitPacket_raises _ _ _ _).bind (fun fields => ?_)
  refine (RaisesValueError.orRaise _ _).bind (fun stationId => ?_)
  refine (parseTimestamp_raises _).bind (fun timestamp => ?_)
  refine (decodeBase64_raises _ _).bind (fun clientRandom => ?_)
  refine (decodeBase64_raises _ _).bind (fun publicKey => ?_)
  exact (decodeBase64_raises _ _).bind (fun signature => makeClientHello_raises _ _ _ _ _)

lemma parseServerHelloPacket_raises (packet : Bytes) : RaisesValueError (parseServerHelloPacket packet) := by
  refine (splitPacket_raises _ _ _ _).bind (fun fields => ?_)
  refine (decodeBase64_raises _ _).bind (fun serverRandom => ?_)
  refine (decodeBase64_raises _ _).bind (fun publicKey => ?_)
  exact (decodeBase64_raises _ _).bind (fun signature => makeServerHello_raises _ _ _)

/-- Hello packets and hello values correspond one to one, and every other byte string is
rejected with a `ValueError`. -/
theorem hello_packets_bijective :
    (∀ hello : ClientHello, ∃ packet, buildClientHelloPacket hello = .ok packet ∧
        parseClientHelloPacket packet = .ok hello) ∧
      (∀ packet, (∃ hello, parseClientHelloPacket packet = .ok hello ∧
          buildClientHelloPacket hello = .ok packet) ∨
        ∃ message, parseClientHelloPacket packet = .error (.valueError message)) ∧
      (∀ hello : ServerHello, parseServerHelloPacket (buildServerHelloPacket hello) = .ok hello) ∧
      ∀ packet, (∃ hello, parseServerHelloPacket packet = .ok hello ∧
          buildServerHelloPacket hello = packet) ∨
        ∃ message, parseServerHelloPacket packet = .error (.valueError message) := by
  refine ⟨fun hello => ⟨_, buildClientHelloPacket_eq hello, parse_build_clientHello hello⟩, ?_,
    parse_build_serverHello, ?_⟩
  · intro packet
    cases hparse : parseClientHelloPacket packet with
    | ok hello => exact .inl ⟨hello, rfl, build_parse_clientHello hparse⟩
    | error e =>
      obtain ⟨message, rfl⟩ := parseClientHelloPacket_raises packet e hparse
      exact .inr ⟨message, rfl⟩
  · intro packet
    cases hparse : parseServerHelloPacket packet with
    | ok hello => exact .inl ⟨hello, rfl, build_parse_serverHello hparse⟩
    | error e =>
      obtain ⟨message, rfl⟩ := parseServerHelloPacket_raises packet e hparse
      exact .inr ⟨message, rfl⟩

end AisMixer.Udpsec

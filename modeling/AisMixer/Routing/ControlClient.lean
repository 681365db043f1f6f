import AisMixer.Routing.ControlConnection
import AisMixer.Routing.ControlEnvelopes

/-!
# The client of the control socket

`core/routing_control_unix_client.py`: one request on a connection of its own, one response
frame, the check of its envelope, and the correlation of its id with that of the request. The
envelope check accepts every response that the protocol builds, so that the correlation decides.
-/

namespace AisMixer.Routing

open AisMixer.Library

/-- The exceptions of the client, and the `ValueError` of an integer literal that `int()` does not
convert. -/
inductive ClientError where
  | clientError (message : PyStr)
  | connectionError (message : PyStr)
  | responseError (message : PyStr)
  | responseTooLargeError (message : PyStr)
  | valueError
  deriving DecidableEq

def responseTooLarge : ClientError :=
  .responseTooLargeError (str "Routing control response exceeds maximum frame size.")

def requestIdMismatch : ClientError :=
  .responseError (str "Routing control response request_id does not match request.")

/-- A request mapping whose values are values of JSON; a mapping has no key twice. -/
structure RequestMapping where
  members : Members
  wellFormed : Json.Writable none (.obj members)

/-- A `RoutingControlUnixClient`; its constructor has checked the limit. -/
structure RoutingControlUnixClient where
  maxResponseBytes : ℕ+

/-- `_encode_json_request`; the errors are a `ValueError` and a `UnicodeEncodeError`. -/
def encodeJsonRequest (request : RequestMapping) : Option Bytes :=
  if Json.anyLongInt intMaxStrDigits (.obj request.members) then none
  else encodeUtf8 (Json.dumps ⟨false, true⟩ (.obj request.members))

lemma drop_received_lt {amount requested : Nat} {unread : Bytes}
    (h : received amount requested unread ≠ []) :
    (unread.drop (received amount requested unread).length).length < unread.length := by
  have hpos := List.length_pos_of_ne_nil h
  have hle : (received amount requested unread).length ≤ unread.length := by
    rw [received, List.length_take]
    exact min_le_right _ _
  rw [List.length_drop]
  omega

/-- `_read_response_frame`, when the peer sends `unread` and no read fails; the read with the
number `i` finds `amounts i` bytes. -/
def readResponseFrame (maxResponseBytes : Nat) (amounts : Nat → Nat) (i : Nat) (unread buffer : Bytes) :
    Except ClientError Bytes :=
  match buffer.idxOf? lineFeed with
  | some newlineAt =>
    let frame := buffer.take newlineAt
    if frame = [] then .error (.responseError (str "Empty routing control response frame."))
    else if maxResponseBytes < frame.length then .error responseTooLarge
    else .ok frame
  | none =>
    if maxResponseBytes < buffer.length then .error responseTooLarge
    else
      let readSize := min readChunkSize (maxResponseBytes + 1 - buffer.length)
      let readSize := if readSize ≤ 0 then 1 else readSize
      let chunk := received (amounts i) readSize unread
      if chunk = [] then
        if buffer = [] then .error (.responseError (str "Empty routing control response."))
        else .ok buffer
      else readResponseFrame maxResponseBytes amounts (i + 1) (unread.drop chunk.length) (buffer ++ chunk)
termination_by unread.length
decreasing_by
  exact drop_received_lt ‹_›

def malformedResponse : ClientError := .responseError (str "Malformed routing control response.")

/-- `_decode_response`. -/
def decodeResponseFrame (frame : Bytes) : Except ClientError Members :=
  match decodeUtf8 frame with
  | none => .error malformedResponse
  | some text =>
    match Json.loads text with
    | .error .jsonDecodeError => .error malformedResponse
    | .error .valueError => .error .valueError
    | .ok (.obj response) => .ok response
    | .ok _ => .error (.responseError (str "Routing control response must be an object."))

/-- The error member of a failed response. -/
def validateResponseError : Option Json → Except ClientError Unit
  | some (.obj error) =>
    match member error "code" with
    | some (.str code) =>
      if code = [] then
        .error (.responseError (str "Failed routing control response error code is invalid."))
      else
        match member error "message" with
        | some (.str _) => .ok ()
        | _ => .error (.responseError (str "Failed routing control response error message is invalid."))
    | _ => .error (.responseError (str "Failed routing control response error code is invalid."))
  | _ => .error (.responseError (str "Failed routing control response error must be an object."))

def responseFields (ok : Bool) : List PyStr :=
  [str "version", str "request_id", str "ok", if ok then str "result" else str "error"]

/-- `_validate_response_envelope`. -/
def validateResponseEnvelope (response : Members) : Except ClientError Unit :=
  match member response "version" with
  | some (.int version) =>
    if version ≠ protocolVersion then
      .error (.responseError (str "Unsupported routing control response version."))
    else
      match (member response "request_id").getD .null with
      | .null | .str _ =>
        match member response "ok" with
        | some (.bool ok) =>
          if response.any (fun m => m.1 ∉ responseFields ok) then
            .error (.responseError (str "Routing control response has unknown top-level field(s)."))
          else if (responseFields ok).any (fun field => field ∉ response.map Prod.fst) then
            .error (.responseError (str "Routing control response is missing required field(s)."))
          else if ok then
            match member response "result" with
            | some (.obj _) => .ok ()
            | _ =>
              .error (.responseError (str "Successful routing control response result must be an object."))
          else validateResponseError (member response "error")
        | _ => .error (.responseError (str "Routing control response ok field is invalid."))
      | _ => .error (.responseError (str "Routing control response request_id is invalid."))
  | _ => .error (.responseError (str "Routing control response version is invalid."))

/-- `_trusted_request_id_or_none`. -/
def trustedRequestIdOrNone (request : Members) : Json :=
  match member request "request_id" with
  | some (.str requestId) => if requestId = [] then .null else .str requestId
  | _ => .null

/-- `_validate_response_correlation` of a response that has a valid envelope. -/
def validateResponseCorrelation (request response : Members) : Except ClientError Unit :=
  match member response "request_id", trustedRequestIdOrNone request with
  | some .null, .null => .ok ()
  | some (.str actual), .str expected => if actual = expected then .ok () else .error requestIdMismatch
  | _, _ => .error requestIdMismatch

namespace RoutingControlUnixClient

variable (client : RoutingControlUnixClient)

/-- What `request` makes of the bytes that the peer sends. -/
def receive (amounts : Nat → Nat) (request : Members) (incoming : Bytes) : Except ClientError Members := do
  let frame ← readResponseFrame client.maxResponseBytes amounts 0 incoming []
  let response ← decodeResponseFrame frame
  validateResponseEnvelope response
  validateResponseCorrelation request response
  return response

/-- `request`, on a connection where the peer answers `sent` with `peer sent`. -/
def request (amounts : Nat → Nat) (peer : Bytes → Bytes) (request : RequestMapping) :
    Except ClientError Members :=
  match encodeJsonRequest request with
  | none => .error (.clientError (str "Routing control request could not be JSON encoded."))
  | some payload => client.receive amounts request.members (peer (payload ++ [lineFeed]))

end RoutingControlUnixClient

/-! ### Reading a frame -/

/-- However the reads cut it, a terminated frame within the limit is read whole. -/
theorem readResponseFrame_line {maxResponseBytes : Nat} (amounts : Nat → Nat) (i : Nat)
    {unread buffer frame rest : Bytes} (hstream : buffer ++ unread = frame ++ lineFeed :: rest)
    (hframe : lineFeed ∉ frame) (hne : frame ≠ []) (hfits : frame.length ≤ maxResponseBytes) :
    readResponseFrame maxResponseBytes amounts i unread buffer = .ok frame := by
  induction hn : unread.length using Nat.strong_induction_on generalizing i unread buffer with
  | _ n ih =>
    rw [readResponseFrame]
    split
    · next newlineAt hcut =>
      obtain ⟨hbuffer, hbefore⟩ := eq_cut_of_idxOf? hcut
      rw [hbuffer, List.append_assoc, List.cons_append] at hstream
      obtain ⟨hsame, -⟩ := cut_unique hbefore hframe hstream
      rw [hsame, if_neg hne, if_neg (not_lt.mpr hfits)]
    · next hcut =>
      obtain ⟨more, hmore, hunread⟩ := front_of_line (List.idxOf?_eq_none_iff.mp hcut) hstream
      have hlength : buffer.length ≤ maxResponseBytes := by
        rw [hmore, List.length_append] at hfits
        omega
      have hsize : 0 < min readChunkSize (maxResponseBytes + 1 - buffer.length) := by
        rw [readChunkSize]
        omega
      rw [if_neg (not_lt.mpr hlength)]
      simp only [if_neg (not_le.mpr hsize)]
      have hchunk :
          received (amounts i) (min readChunkSize (maxResponseBytes + 1 - buffer.length)) unread ≠ [] := by
        rw [Ne, RoutingControlUnixServer.received_eq_nil_iff, hunread]
        simp
      rw [if_neg hchunk]
      have hless := drop_received_lt hchunk
      rw [hn] at hless
      refine ih _ hless (i + 1) ?_ rfl
      rw [List.append_assoc, RoutingControlUnixServer.received_append_drop]
      exact hstream

/-! ### The envelope check -/

/-- An id as responses bear it. -/
def IsRequestId (v : Json) : Prop := v = .null ∨ ∃ s, v = .str s

lemma normal_requestId {v : Json} (h : IsRequestId v) : Json.normal ⟨false, true⟩ v = v := by
  rcases h with rfl | ⟨s, rfl⟩ <;> rfl

lemma keys_of_normal {members response : Members}
    (h : Json.normal ⟨false, true⟩ (.obj members) = .obj response) :
    (response.map Prod.fst).Perm (members.map Prod.fst) := by
  rw [Json.normal, Json.obj.injEq, if_pos rfl, Json.normalMembers_eq] at h
  rw [← h]
  refine ((List.perm_insertionSort Json.keyLe _).map Prod.fst).trans ?_
  rw [List.map_map]
  exact List.Perm.refl _

lemma fields_checked {response : Members} {fields : List PyStr}
    (hkeys : (response.map Prod.fst).Perm fields) :
    response.any (fun m => m.1 ∉ fields) = false ∧
      fields.any (fun field => field ∉ response.map Prod.fst) = false := by
  constructor
  · rw [List.any_eq_false]
    intro m hm
    have hmem := hkeys.mem_iff.mp (List.mem_map_of_mem hm)
    simpa using hmem
  · rw [List.any_eq_false]
    intro field hfield
    have hmem := hkeys.mem_iff.mpr hfield
    simpa using hmem

lemma member_of_normal {v : Json} {response : Members} (h : Json.normal ⟨false, true⟩ v = .obj response)
    (name : String) : member response name = (Json.normal ⟨false, true⟩ v).get? (str name) := by
  rw [h]
  rfl

/-- The error member that a client reads back passes its check. -/
lemma validateResponseError_ok {code : PyStr} (message : PyStr) {details : Members} (hcode : code ≠ [])
    (hkeys : ([str "code", str "message"] ++ details.map Prod.fst).Nodup) :
    validateResponseError (some (Json.normal ⟨false, true⟩
      (.obj ([(str "code", .str code), (str "message", .str message)] ++ details)))) = .ok () := by
  obtain ⟨error, herror⟩ : ∃ error, Json.normal ⟨false, true⟩
      (.obj ([(str "code", .str code), (str "message", .str message)] ++ details)) = .obj error := ⟨_, rfl⟩
  have hget : ∀ name, member error name = (Dict.lookupEntries (str name)
      ([(str "code", .str code), (str "message", .str message)] ++ details)).map
        (Json.normal ⟨false, true⟩) := by
    intro name
    rw [member_of_normal herror, Json.get?_normal]
    rw [List.map_append]
    exact hkeys
  have hcodeMember : member error "code" = some (.str code) := by
    rw [hget]
    rfl
  have hmessageMember : member error "message" = some (.str message) := by
    rw [hget]
    rfl
  rw [herror, validateResponseError, hcodeMember]
  simp only [if_neg hcode, hmessageMember]

/-- A response of the protocol passes the check of its envelope, and bears its id. -/
theorem validateResponseEnvelope_ok {requestId response : Json} (henvelope : Envelope requestId response)
    (hid : IsRequestId requestId) {members : Members}
    (hnormal : Json.normal ⟨false, true⟩ response = .obj members) :
    validateResponseEnvelope members = .ok () ∧ member members "request_id" = some requestId := by
  have hsame := normal_requestId hid
  cases henvelope with
  | @success requestId result hplain =>
    have hget : ∀ name, member members name =
        ((successResponse requestId (.obj result)).get? (str name)).map (Json.normal ⟨false, true⟩) := by
      intro name
      rw [member_of_normal hnormal, get?_successResponse]
    have hversion : member members "version" = some (.int protocolVersion) := by rw [hget]; rfl
    have hrequestId : member members "request_id" = some (.str requestId) := by rw [hget]; rfl
    have hok : member members "ok" = some (.bool true) := by rw [hget]; rfl
    obtain ⟨entries, hresult⟩ : ∃ entries, member members "result" = some (.obj entries) := by
      rw [hget]
      exact ⟨_, rfl⟩
    have hfields : (members.map Prod.fst).Perm (responseFields true) := keys_of_normal hnormal
    obtain ⟨hknown, hpresent⟩ := fields_checked hfields
    refine ⟨?_, hrequestId⟩
    simp only [validateResponseEnvelope, hversion, hrequestId, hok, hresult, hknown, hpresent, ne_eq,
      not_true, if_false, Option.getD_some, Bool.false_eq_true, if_true]
  | @failure _ code message details hcode hplain =>
    have hget : ∀ name, member members name =
        ((errorResponse requestId code message details).get? (str name)).map
          (Json.normal ⟨false, true⟩) := by
      intro name
      rw [member_of_normal hnormal, get?_errorResponse]
    have hversion : member members "version" = some (.int protocolVersion) := by rw [hget]; rfl
    have hrequestId : member members "request_id" = some requestId := by
      rw [hget]
      exact congrArg some hsame
    have hok : member members "ok" = some (.bool false) := by rw [hget]; rfl
    have herror : validateResponseError (member members "error") = .ok () := by
      rw [hget]
      refine validateResponseError_ok message hcode ?_
      have hkeys := hplain.2.2.2.2.1.1
      rwa [List.map_append] at hkeys
    have hfields : (members.map Prod.fst).Perm (responseFields false) := keys_of_normal hnormal
    obtain ⟨hknown, hpresent⟩ := fields_checked hfields
    refine ⟨?_, hrequestId⟩
    rcases hid with rfl | ⟨s, rfl⟩ <;>
      simp only [validateResponseEnvelope, hversion, hrequestId, hok, herror, hknown, hpresent, ne_eq,
        not_true, if_false, Option.getD_some, Bool.false_eq_true]

/-! ### Frames -/

/-- An encoded document has no line feed. -/
lemma lineFeed_not_mem {v : Json} (h : Json.Writable none v) {bytes : Bytes}
    (hbytes : encodeUtf8 (Json.dumps ⟨false, true⟩ v) = some bytes) : lineFeed ∉ bytes := by
  intro hmem
  obtain ⟨-, rfl⟩ := encodeUtf8_eq_some.mp hbytes
  obtain ⟨c, hc, hbyte⟩ := List.mem_flatMap.mp hmem
  have hcontrol := Json.noControl_dumps none true v h c hc
  obtain ⟨-, hsame⟩ := encodeChar_ascii hbyte (by decide)
  rw [hsame] at hcontrol
  exact absurd hcontrol (by decide)

lemma encoded_ne_nil {members : Members} {bytes : Bytes}
    (h : encodeUtf8 (Json.dumps ⟨false, true⟩ (.obj members)) = some bytes) : bytes ≠ [] := by
  intro hnil
  obtain ⟨-, hbytes⟩ := encodeUtf8_eq_some.mp h
  have hhead : ∃ text, Json.dumps ⟨false, true⟩ (.obj members) = (0x7B : CodePoint) :: text := ⟨_, rfl⟩
  obtain ⟨text, htext⟩ := hhead
  have hpos := encodeChar_length_pos 0x7B
  rw [hnil, htext, encodeSurrogatepass, List.flatMap_cons] at hbytes
  have hlength := congrArg List.length hbytes
  rw [List.length_append, List.length_nil] at hlength
  omega

lemma Envelope.exists_members {requestId response : Json} (h : Envelope requestId response) :
    ∃ members, response = .obj members := by
  cases h with
  | success hplain => exact ⟨_, rfl⟩
  | failure message hcode hplain => exact ⟨_, rfl⟩

/-- A response is decoded to its normal form when its integers are within the conversion limit. -/
lemma decodeResponseFrame_encode {response : Json} (hplain : Json.Plain response)
    (hshort : Json.anyLongInt intMaxStrDigits response = false) {frame : Bytes}
    (hframe : encodeJsonResponse response = .ok frame) {members : Members}
    (hnormal : Json.normal ⟨false, true⟩ response = .obj members) :
    decodeResponseFrame frame = .ok members := by
  have hwritable := Json.Writable.within response (Json.Plain.writable response hplain) hshort
  rw [decodeResponseFrame, decodeUtf8_encode (encode_ok_iff.mp hframe)]
  simp only [Json.loads, Json.parse_written true hwritable, hnormal]

namespace RoutingControlUnixClient

/-- The response mapping that a client reads from a response of the protocol. -/
lemma exists_received {requestId response : Json} (h : Envelope requestId response) :
    ∃ members, Json.normal ⟨false, true⟩ response = .obj members := by
  obtain ⟨members, rfl⟩ := h.exists_members
  exact ⟨_, rfl⟩

/-- However it arrives, a response within the limit reaches the correlation check. -/
theorem receive_envelope (client : RoutingControlUnixClient) (amounts : Nat → Nat) (request : Members)
    {requestId response : Json} (henvelope : Envelope requestId response) (hid : IsRequestId requestId)
    (hshort : Json.anyLongInt intMaxStrDigits response = false) {frame : Bytes}
    (hframe : encodeJsonResponse response = .ok frame) (hfits : frame.length ≤ client.maxResponseBytes)
    {members : Members} (hnormal : Json.normal ⟨false, true⟩ response = .obj members)
    (rest : Bytes) :
    member members "request_id" = some requestId ∧
      client.receive amounts request (frame ++ lineFeed :: rest) =
        (validateResponseCorrelation request members).map (fun _ => members) := by
  obtain ⟨hvalid, hmember⟩ := validateResponseEnvelope_ok henvelope hid hnormal
  obtain ⟨fields, rfl⟩ := henvelope.exists_members
  have hencoded := encode_ok_iff.mp hframe
  have hline := lineFeed_not_mem (Json.Plain.writable _ henvelope.plain) hencoded
  have hread : readResponseFrame client.maxResponseBytes amounts 0 (frame ++ lineFeed :: rest) [] =
      .ok frame :=
    readResponseFrame_line amounts 0 (List.nil_append _) hline (encoded_ne_nil hencoded) hfits
  have hdecode := decodeResponseFrame_encode henvelope.plain hshort hframe hnormal
  refine ⟨hmember, ?_⟩
  simp only [receive, hread, hdecode, hvalid, bind, Except.bind]
  cases validateResponseCorrelation request members <;> rfl

end RoutingControlUnixClient

end AisMixer.Routing

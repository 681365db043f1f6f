import AisMixer.Routing.ControlClient

/-!
# A request and its answer

One client sends one request to a server and reads what the server writes on that connection.
The server writes at most one answer. The protocol's answer bears the id of the request, and the
client returns it; the answers of the transport, which are made without the request, bear a null
id, and the client does not trust them.
-/

namespace AisMixer.Routing

open AisMixer.Library

namespace RoutingControlUnixServer

variable {server : RoutingControlUnixServer} {start : RoutingState} {payload : Bytes}

/-- What a server may answer to a frame. -/
inductive Answer (server : RoutingControlUnixServer) (start : RoutingState) (payload : Bytes) :
    Bytes → Prop where
  | protocol {frame : Bytes} (hfits : payload.length ≤ server.maxRequestBytes)
      (hresult : (server.protocol.handleJson start payload).2 = .ok frame) :
      Answer server start payload frame
  | tooLarge {frame : Bytes} (hlong : (server.maxRequestBytes : Nat) < payload.length)
      (hframe : encodeJsonResponse (errorResponse .null errorFrameTooLarge frameTooLargeMessage []) =
        .ok frame) : Answer server start payload frame
  | internal {frame : Bytes} {e : HandlerError} (hfits : payload.length ≤ server.maxRequestBytes)
      (hresult : (server.protocol.handleJson start payload).2 = .error e)
      (hframe : encodeJsonResponse (errorResponse .null errorInternalError internalErrorMessage []) =
        .ok frame) : Answer server start payload frame

/-- Nothing has been written, or one answer. -/
def AtMostAnswered (server : RoutingControlUnixServer) (start : RoutingState) (payload : Bytes)
    (written : List Bytes) : Prop :=
  written = [] ∨ ∃ frame, Answer server start payload frame ∧ written = [frame ++ [lineFeed]]

/-- A connection over which one frame is sent: still to be read, answered, or closed. -/
inductive OneFrame (server : RoutingControlUnixServer) (start : RoutingState) (payload : Bytes)
    (c : Connection) : Prop where
  | reading (hopen : c.closed = false) (hstate : c.state = start) (hwritten : c.written = [])
      (hstream : c.buffer ++ c.unread = payload ++ [lineFeed])
  | answered (hopen : c.closed = false) (hbuffer : c.buffer = []) (hunread : c.unread = [])
      (hwritten : AtMostAnswered server start payload c.written)
  | closed (hclosed : c.closed = true) (hwritten : AtMostAnswered server start payload c.written)

lemma OneFrame.atMostAnswered {c : Connection} (h : OneFrame server start payload c) :
    AtMostAnswered server start payload c.written := by
  cases h with
  | reading hopen hstate hwritten hstream => exact .inl hwritten
  | answered hopen hbuffer hunread hwritten => exact hwritten
  | closed hclosed hwritten => exact hwritten

lemma written_writeResponse {writable : Bool} {frame : Bytes} {c : Connection} (hnone : c.written = [])
    (hanswer : Answer server start payload frame) :
    AtMostAnswered server start payload (c.writeResponse writable frame).1.written := by
  unfold Connection.writeResponse
  split
  · right
    exact ⟨frame, hanswer, by rw [hnone, List.nil_append]⟩
  · exact .inl hnone

lemma written_writeFrameTooLarge {writable : Bool} {c : Connection} (hnone : c.written = [])
    (hlong : (server.maxRequestBytes : Nat) < payload.length) :
    AtMostAnswered server start payload (writeFrameTooLarge writable c).written := by
  obtain ⟨frame, hframe⟩ := exists_refusal
  simp only [writeFrameTooLarge, Connection.close, Connection.writeTransportError, hframe]
  exact written_writeResponse hnone (.tooLarge hlong hframe)

lemma exists_internalError : ∃ frame,
    encodeJsonResponse (errorResponse .null errorInternalError internalErrorMessage []) = .ok frame := by
  rw [encodes_iff]
  decide

lemma written_processFrame {writable : Bool} {c : Connection} (hnone : c.written = [])
    (hstate : c.state = start) (hfits : payload.length ≤ server.maxRequestBytes) :
    AtMostAnswered server start payload
      (c.processFrame server.protocol writable payload).1.written := by
  subst hstate
  unfold Connection.processFrame
  dsimp only
  split
  · next frame hresult => exact written_writeResponse hnone (.protocol hfits hresult)
  · next e hresult =>
    obtain ⟨frame, hframe⟩ := exists_internalError
    simp only [Connection.writeTransportError, hframe]
    exact written_writeResponse hnone (.internal hfits hresult hframe)

lemma processFrame_unread (protocol : RoutingControlProtocol) (writable : Bool) (frame : Bytes)
    (c : Connection) : (c.processFrame protocol writable frame).1.unread = c.unread ∧
      (c.processFrame protocol writable frame).1.closed = c.closed := by
  unfold Connection.processFrame Connection.writeTransportError Connection.writeResponse
  dsimp only
  split
  · split <;> exact ⟨rfl, rfl⟩
  · split
    · split <;> exact ⟨rfl, rfl⟩
    · exact ⟨rfl, rfl⟩

/-- One pass keeps it so. -/
lemma OneFrame.pass {writable : Bool} {c c' : Connection} (h : OneFrame server start payload c)
    (hopen : c.closed = false) (hpayload : lineFeed ∉ payload) (hpass : server.Pass writable c c') :
    OneFrame server start payload c' := by
  cases h with
  | closed hclosed hwritten =>
    rw [hopen] at hclosed
    cases hclosed
  | answered hopen hbuffer hunread hwritten =>
    -- nothing is left to read, so the only pass is the last one
    cases hpass with
    | line hcut hframe hfits => simp [hbuffer] at hcut
    | overlong hline hlong => simp [hbuffer] at hlong
    | finished hempty hnone => exact .closed rfl hwritten
    | tail hempty hline hne hfits => exact absurd hbuffer hne
    | read hcut hchunk hbound =>
      rw [hunread] at hcut
      exact absurd (List.append_eq_nil_iff.mp hcut.symm).1 hchunk
  | reading hopen hstate hwritten hstream =>
    cases hpass with
    | @line frame rest hcut hframe hfits =>
      rw [hcut, List.append_assoc, List.cons_append] at hstream
      obtain ⟨rfl, hrest⟩ := cut_unique hframe hpayload hstream
      obtain ⟨rfl, hunread⟩ := List.append_eq_nil_iff.mp hrest
      have hanswered := @written_processFrame server c.state frame writable { c with buffer := [] }
        hwritten rfl hfits
      obtain ⟨hsame, hclosed⟩ := processFrame_unread server.protocol writable frame { c with buffer := [] }
      subst hstate
      unfold afterFrame
      split
      · refine .answered (hclosed.trans hopen) ?_ (hsame.trans hunread) hanswered
        exact processFrame_buffer writable server.protocol frame _
      · exact .closed rfl hanswered
    | overlong hline hlong =>
      obtain ⟨more, hmore, -⟩ := front_of_line hline hstream
      refine .closed rfl (written_writeFrameTooLarge hwritten ?_)
      rw [hmore, List.length_append]
      omega
    | finished hunread hbuffer => simp [hunread, hbuffer] at hstream
    | tail hunread hline hne hfits =>
      rw [hunread, List.append_nil] at hstream
      rw [hstream] at hline
      simp at hline
    | @read chunk rest hcut hchunk hbound =>
      refine .reading hopen hstate hwritten ?_
      rw [List.append_assoc, ← hcut]
      exact hstream

/-- A server that is sent one frame writes at most one answer to it. -/
theorem serve_oneFrame (amounts : Nat → Nat) (writable : Nat → Bool) (hpayload : lineFeed ∉ payload)
    (n : Nat) : AtMostAnswered server start payload
      (server.serve amounts writable (.opened start (payload ++ [lineFeed])) n).written := by
  suffices h : OneFrame server start payload
      (server.serve amounts writable (.opened start (payload ++ [lineFeed])) n) from h.atMostAnswered
  induction n with
  | zero => exact .reading rfl rfl rfl rfl
  | succ n ih =>
    have hbound := @serve_buffer_le server amounts writable start (payload ++ [lineFeed]) n
    rw [serve]
    cases hclosed : (server.serve amounts writable (.opened start (payload ++ [lineFeed])) n).closed with
    | true =>
      rw [advance, if_pos hclosed]
      exact ih
    | false => exact ih.pass hclosed hpayload (advance_pass (amounts n) (writable n) hclosed hbound)

/-- What the server has written after `n` passes over the bytes that the client sent. -/
def answers (server : RoutingControlUnixServer) (start : RoutingState) (amounts : Nat → Nat)
    (writable : Nat → Bool) (n : Nat) (sent : Bytes) : Bytes :=
  (server.serve amounts writable (.opened start sent) n).written.flatten

end RoutingControlUnixServer

/-! ### The request -/

namespace RequestMapping

/-- The request has an id that the protocol accepts. -/
def HasId (request : RequestMapping) (requestId : PyStr) : Prop :=
  member request.members "request_id" = some (.str requestId) ∧ requestId ≠ []

lemma encode_some {request : RequestMapping} {payload : Bytes}
    (h : encodeJsonRequest request = some payload) :
    Json.anyLongInt intMaxStrDigits (.obj request.members) = false ∧
      encodeUtf8 (Json.dumps ⟨false, true⟩ (.obj request.members)) = some payload := by
  unfold encodeJsonRequest at h
  split at h
  · cases h
  · next hshort => exact ⟨Bool.eq_false_iff.mpr hshort, h⟩

lemma lineFeed_not_mem_payload {request : RequestMapping} {payload : Bytes}
    (h : encodeJsonRequest request = some payload) : lineFeed ∉ payload :=
  lineFeed_not_mem request.wellFormed (encode_some h).2

/-- The protocol decodes what the client has encoded, with the members in sorted order. -/
lemma decodeJsonRequest_encode {request : RequestMapping} {payload : Bytes}
    (h : encodeJsonRequest request = some payload) :
    ∃ received, Json.normal ⟨false, true⟩ (.obj request.members) = .obj received ∧
      decodeJsonRequest payload = .ok (some received) := by
  obtain ⟨hshort, hencode⟩ := encode_some h
  have hwritable := Json.Writable.within _ request.wellFormed hshort
  obtain ⟨received, hreceived⟩ : ∃ received,
      Json.normal ⟨false, true⟩ (.obj request.members) = .obj received := ⟨_, rfl⟩
  refine ⟨received, hreceived, ?_⟩
  rw [decodeJsonRequest, decodeUtf8_encode hencode]
  simp only [Json.loads, Json.parse_written true hwritable, hreceived]

lemma HasId.received {request : RequestMapping} {requestId : PyStr} (h : request.HasId requestId)
    {received : Members} (hreceived : Json.normal ⟨false, true⟩ (.obj request.members) = .obj received) :
    member received "request_id" = some (.str requestId) := by
  have hlookup : Dict.lookupEntries (str "request_id") request.members = some (.str requestId) := h.1
  rw [member_of_normal hreceived, Json.get?_normal _ request.wellFormed.1, hlookup]
  rfl

lemma HasId.trusted {request : RequestMapping} {requestId : PyStr} (h : request.HasId requestId) :
    trustedRequestIdOrNone request.members = .str requestId := by
  obtain ⟨hid, hne⟩ := h
  simp only [trustedRequestIdOrNone, hid, if_neg hne]

end RequestMapping

/-! ### What the client makes of an answer -/

namespace RoutingControlUnixClient

section Request

variable (client : RoutingControlUnixClient) (reads : Nat → Nat) {peer : Bytes → Bytes}
  {request : RequestMapping} {requestId : PyStr} {payload frame : Bytes}

/-- A response with the id of the request is returned. -/
lemma request_answered (hid : request.HasId requestId) (hpayload : encodeJsonRequest request = some payload)
    {response : Json} (henvelope : Envelope (.str requestId) response)
    (hshort : Json.anyLongInt intMaxStrDigits response = false)
    (hframe : encodeJsonResponse response = .ok frame) (hfits : frame.length ≤ client.maxResponseBytes)
    (hpeer : peer (payload ++ [lineFeed]) = frame ++ [lineFeed]) :
    ∃ returned, Json.normal ⟨false, true⟩ response = .obj returned ∧
      member returned "request_id" = some (.str requestId) ∧
      client.request reads peer request = .ok returned := by
  obtain ⟨returned, hreturned⟩ := exists_received henvelope
  obtain ⟨hmember, hreceive⟩ := client.receive_envelope reads request.members henvelope
    (.inr ⟨requestId, rfl⟩) hshort hframe hfits hreturned []
  refine ⟨returned, hreturned, hmember, ?_⟩
  have hcorrelation : validateResponseCorrelation request.members returned = .ok () := by
    simp only [validateResponseCorrelation, hmember, hid.trusted, if_true]
  simp only [RoutingControlUnixClient.request, hpayload]
  rw [hpeer, hreceive, hcorrelation]
  rfl

/-- An error without an id is not trusted. -/
lemma request_untrusted (hid : request.HasId requestId)
    (hpayload : encodeJsonRequest request = some payload) {code message : PyStr} (hcode : code ≠ [])
    (hframe : encodeJsonResponse (errorResponse .null code message []) = .ok frame)
    (hfits : frame.length ≤ client.maxResponseBytes)
    (hpeer : peer (payload ++ [lineFeed]) = frame ++ [lineFeed]) :
    client.request reads peer request = .error requestIdMismatch := by
  have hplain : Json.Plain .null := trivial
  have henvelope := envelope_error hplain message hcode
  have hversion : Json.anyLongInt intMaxStrDigits (.int protocolVersion) = false := by decide
  have hshort : Json.anyLongInt intMaxStrDigits (errorResponse .null code message []) = false := by
    simp [errorResponse, Json.anyLongInt, Json.anyLongIntMembers] at hversion ⊢
    exact hversion
  obtain ⟨returned, hreturned⟩ := exists_received henvelope
  obtain ⟨hmember, hreceive⟩ := client.receive_envelope reads request.members henvelope
    (.inl rfl) hshort hframe hfits hreturned []
  have hcorrelation : validateResponseCorrelation request.members returned = .error requestIdMismatch := by
    simp only [validateResponseCorrelation, hmember, hid.trusted]
  simp only [RoutingControlUnixClient.request, hpayload]
  rw [hpeer, hreceive, hcorrelation]
  rfl

end Request

/-! ### The exchange -/

/-- The answer of a server to a request: nothing yet; the response of the protocol, which the
client returns with its members in sorted order when `json.dumps` can write its integers; or an
error of the transport for a frame that is too large or that the protocol raises on, which the
client does not trust. -/
theorem request_response (client : RoutingControlUnixClient) (server : RoutingControlUnixServer)
    (start : RoutingState) {request : RequestMapping} {requestId : PyStr} (hid : request.HasId requestId)
    {payload : Bytes} (hpayload : encodeJsonRequest request = some payload)
    (amounts : Nat → Nat) (writable : Nat → Bool) (n : Nat) (reads : Nat → Nat) :
    let peer := server.answers start amounts writable n
    peer (payload ++ [lineFeed]) = [] ∨
    (∃ received response frame, Json.normal ⟨false, true⟩ (.obj request.members) = .obj received ∧
      (server.protocol.handleRequest start received).2 = .ok response ∧
      encodeJsonResponse response = .ok frame ∧ payload.length ≤ server.maxRequestBytes ∧
      peer (payload ++ [lineFeed]) = frame ++ [lineFeed] ∧
      (frame.length ≤ client.maxResponseBytes → Json.anyLongInt intMaxStrDigits response = false →
        ∃ returned, Json.normal ⟨false, true⟩ response = .obj returned ∧
          member returned "request_id" = some (.str requestId) ∧
          client.request reads peer request = .ok returned)) ∨
    ∃ code message frame, encodeJsonResponse (errorResponse .null code message []) = .ok frame ∧
      ((code = errorFrameTooLarge ∧ message = frameTooLargeMessage ∧
          (server.maxRequestBytes : Nat) < payload.length) ∨
        (code = errorInternalError ∧ message = internalErrorMessage ∧
          payload.length ≤ server.maxRequestBytes ∧
          ∃ e, (server.protocol.handleJson start payload).2 = .error e)) ∧
      peer (payload ++ [lineFeed]) = frame ++ [lineFeed] ∧
      (frame.length ≤ client.maxResponseBytes →
        client.request reads peer request = .error requestIdMismatch) := by
  intro peer
  rcases @RoutingControlUnixServer.serve_oneFrame server start payload amounts writable
      (RequestMapping.lineFeed_not_mem_payload hpayload) n with hnone | ⟨frame, hanswer, hwritten⟩
  · left
    simp only [peer, RoutingControlUnixServer.answers, hnone, List.flatten_nil]
  · right
    have hpeer : peer (payload ++ [lineFeed]) = frame ++ [lineFeed] := by
      simp only [peer, RoutingControlUnixServer.answers, hwritten, List.flatten_singleton]
    cases hanswer with
    | protocol hfits hresult =>
      left
      obtain ⟨received, hreceived, hdecode⟩ := RequestMapping.decodeJsonRequest_encode hpayload
      have hhandle : (server.protocol.handleJson start payload).2 =
          (server.protocol.handleRequest start received).2.bind encodeJsonResponse := by
        rw [RoutingControlProtocol.handleJson, hdecode]
      rw [hhandle] at hresult
      obtain ⟨response, hresponse, hframe⟩ := bind_eq_ok_iff.mp hresult
      refine ⟨received, response, frame, hreceived, hresponse, hframe, hfits, hpeer, ?_⟩
      intro hsize hshort
      have henvelope := envelope_handleRequest (hid.received hreceived) hid.2 hresponse
      exact client.request_answered reads hid hpayload henvelope hshort hframe hsize hpeer
    | tooLarge hlong hframe =>
      right
      refine ⟨_, _, frame, hframe, .inl ⟨rfl, rfl, hlong⟩, hpeer, ?_⟩
      intro hsize
      exact client.request_untrusted reads hid hpayload (by decide) hframe hsize hpeer
    | internal hfits hresult hframe =>
      right
      refine ⟨_, _, frame, hframe, .inr ⟨rfl, rfl, hfits, _, hresult⟩, hpeer, ?_⟩
      intro hsize
      exact client.request_untrusted reads hid hpayload (by decide) hframe hsize hpeer

/-! ### A request that is too large for its server -/

def statusMapping : RequestMapping where
  members := [(str "version", .int 1), (str "request_id", .str (str "r")),
    (str "method", .str (str "routing.status"))]
  wellFormed := by
    refine ⟨?_, ?_, trivial, trivial, trivial⟩
    · simp only [List.map_cons, List.map_nil]
      decide
    · intro limit h
      cases h

def statusPayload : Bytes :=
  ascii "\x7b\"method\":\"routing.status\",\"request_id\":\"r\",\"version\":1\x7d"

lemma encode_statusMapping : encodeJsonRequest statusMapping = some statusPayload := by
  decide +kernel

lemma hasId_statusMapping : statusMapping.HasId (str "r") := ⟨rfl, by decide⟩

theorem request_response_status :
    let peer := RoutingControlUnixServer.answers ⟨idleProtocol, 100⟩ freshState (fun _ => 20)
      (fun _ => true) 6
    peer (statusPayload ++ [lineFeed]) = [] ∨
    (∃ received response frame, Json.normal ⟨false, true⟩ (.obj statusMapping.members) = .obj received ∧
      (idleProtocol.handleRequest freshState received).2 = .ok response ∧
      encodeJsonResponse response = .ok frame ∧ statusPayload.length ≤ 100 ∧
      peer (statusPayload ++ [lineFeed]) = frame ++ [lineFeed] ∧
      (frame.length ≤ 1000 → Json.anyLongInt intMaxStrDigits response = false →
        ∃ returned, Json.normal ⟨false, true⟩ response = .obj returned ∧
          member returned "request_id" = some (.str (str "r")) ∧
          request ⟨1000⟩ (fun _ => 7) peer statusMapping = .ok returned)) ∨
    ∃ code message frame, encodeJsonResponse (errorResponse .null code message []) = .ok frame ∧
      ((code = errorFrameTooLarge ∧ message = frameTooLargeMessage ∧ 100 < statusPayload.length) ∨
        (code = errorInternalError ∧ message = internalErrorMessage ∧ statusPayload.length ≤ 100 ∧
          ∃ e, (idleProtocol.handleJson freshState statusPayload).2 = .error e)) ∧
      peer (statusPayload ++ [lineFeed]) = frame ++ [lineFeed] ∧
      (frame.length ≤ 1000 →
        request ⟨1000⟩ (fun _ => 7) peer statusMapping = .error requestIdMismatch) :=
  request_response ⟨1000⟩ ⟨idleProtocol, 100⟩ freshState hasId_statusMapping encode_statusMapping
    (fun _ => 20) (fun _ => true) 6 (fun _ => 7)

/-- The client returns every response within its limit that the server has written. -/
def AcceptsEveryResponse : Prop :=
  ∀ (client : RoutingControlUnixClient) (server : RoutingControlUnixServer) (start : RoutingState)
    (request : RequestMapping) (requestId : PyStr) (payload frame : Bytes) (amounts : Nat → Nat)
    (writable : Nat → Bool) (n : Nat) (reads : Nat → Nat),
    request.HasId requestId → encodeJsonRequest request = some payload →
    server.answers start amounts writable n (payload ++ [lineFeed]) = frame ++ [lineFeed] →
    frame.length ≤ client.maxResponseBytes →
    ∃ returned, decodeResponseFrame frame = .ok returned ∧
      client.request reads (server.answers start amounts writable n) request = .ok returned

def tooLargeFrame : Bytes :=
  ascii "\x7b\"error\":\x7b\"code\":\"frame_too_large\",\"message\":" ++
    ascii "\"Routing control request exceeds maximum frame size.\"\x7d," ++
    ascii "\"ok\":false,\"request_id\":null,\"version\":1\x7d"

/-- A server with a small limit refuses a status request, and the client does not trust the refusal. -/
theorem not_acceptsEveryResponse : ¬AcceptsEveryResponse := by
  intro hall
  have hframe : encodeJsonResponse (errorResponse .null errorFrameTooLarge frameTooLargeMessage []) =
      .ok tooLargeFrame := by decide +kernel
  have hpeer : RoutingControlUnixServer.answers ⟨idleProtocol, 4⟩ freshState (fun _ => 100)
      (fun _ => true) 2 (statusPayload ++ [lineFeed]) = tooLargeFrame ++ [lineFeed] := by
    decide +kernel
  have hfits : tooLargeFrame.length ≤ 1000 := by decide +kernel
  obtain ⟨returned, -, hreturned⟩ := hall ⟨1000⟩ ⟨idleProtocol, 4⟩ freshState statusMapping (str "r")
    statusPayload tooLargeFrame (fun _ => 100) (fun _ => true) 2 (fun _ => 7) hasId_statusMapping
    encode_statusMapping hpeer hfits
  have huntrusted := request_untrusted ⟨1000⟩ (fun _ => 7) hasId_statusMapping encode_statusMapping
    (by decide) hframe hfits hpeer
  rw [huntrusted] at hreturned
  cases hreturned

end RoutingControlUnixClient

end AisMixer.Routing

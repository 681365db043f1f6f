import AisMixer.Library.Utf8
import AisMixer.Routing.RoutingControl
import AisMixer.Runtime.Metrics

/-!
# The control protocol

`core/routing_control_protocol.py`: decoding a request, checking its envelope and its
parameters, the dispatch to the routing service and to the statistics source, and the
encoding of the response. `handleJson` returns the routing state beside its result, so that
an exception after an installation is seen with the state that it leaves.
-/

namespace AisMixer.Routing

open AisMixer.Library AisMixer.Runtime

/-! ### Names of the protocol -/

def protocolVersion : Int := 1

def errorMalformedJson : PyStr := str "malformed_json"
def errorInvalidRequest : PyStr := str "invalid_request"
def errorUnsupportedVersion : PyStr := str "unsupported_version"
def errorUnknownMethod : PyStr := str "unknown_method"
def errorInvalidRoutingConfig : PyStr := str "invalid_routing_config"
def errorStaleGeneration : PyStr := str "stale_generation"

inductive Method where
  | status
  | replace
  | disable
  | runtimeStatistics
  | runtimeStatisticsInputs
  | runtimeStatisticsOutputs
  deriving DecidableEq

namespace Method

def name : Method → PyStr
  | status => str "routing.status"
  | replace => str "routing.replace"
  | disable => str "routing.disable"
  | runtimeStatistics => str "runtime.statistics"
  | runtimeStatisticsInputs => str "runtime.statistics.inputs"
  | runtimeStatisticsOutputs => str "runtime.statistics.outputs"

def all : List Method :=
  [status, replace, disable, runtimeStatistics, runtimeStatisticsInputs, runtimeStatisticsOutputs]

def ofName (s : PyStr) : Option Method := all.find? (fun m => m.name = s)

end Method

/-- The members of a JSON object. -/
abbrev Members := List (PyStr × Json)

/-- The exceptions that leave `handle_json`. -/
inductive HandlerError where
  /-- An integer literal longer than `int()` converts. -/
  | valueError
  | unicodeEncodeError
  | assertionError
  | routing (e : RoutingError)
  deriving DecidableEq

/-! ### Requests -/

/-- `decode_json_request(data)`; the inner `none` is a `MalformedJsonError`. -/
def decodeJsonRequest (data : Bytes) : Except HandlerError (Option Members) :=
  match decodeUtf8 data with
  | none => .ok none
  | some text =>
    match Json.loads text with
    | .error .jsonDecodeError => .ok none
    | .error .valueError => .error .valueError
    | .ok (.obj members) => .ok (some members)
    | .ok _ => .ok none

structure RequestError where
  code : PyStr
  message : Message

def invalidRequest (message : Message) : RequestError := ⟨errorInvalidRequest, message⟩

def member (members : Members) (name : String) : Option Json := Dict.lookupEntries (str name) members

def isNonEmptyString : Json → Bool
  | .str s => !s.isEmpty
  | _ => false

def isNonNegativeInteger : Json → Bool
  | .int i => 0 ≤ i
  | _ => false

def validateExpectedGeneration (value : Json) : Option RequestError :=
  if isNonNegativeInteger value then none
  else some (invalidRequest [lit "Param 'expected_generation' must be a non-negative integer."])

def validateParamsFields (params : Members) (allowedFields : List PyStr) (method : Method) :
    Option RequestError :=
  let unknown := unknownFields allowedFields params
  if unknown ≠ [] then
    some (invalidRequest [lit "Method ", .repr method.name, lit " params has unknown field(s): ",
      .text (join (str ", ") unknown), lit "."])
  else
    match member params "expected_generation" with
    | some value => validateExpectedGeneration value
    | none => none

def paramsNotObject (method : Method) : RequestError :=
  invalidRequest [lit "Method ", .repr method.name, lit " params must be an object."]

def validateReplaceParams : Json → Option RequestError
  | .obj params =>
    (validateParamsFields params [str "routing", str "expected_generation"] .replace).or
      (if (member params "routing").isNone then
        some (invalidRequest
          [lit "Method 'routing.replace' params missing required field 'routing'."])
      else none)
  | _ => some (paramsNotObject .replace)

def validateRuntimeStatisticsInputsParams (request : Members) : Option RequestError :=
  match member request "params" with
  | none => none
  | some (.obj params) =>
    (validateParamsFields params [str "input"] .runtimeStatisticsInputs).or
      (match member params "input" with
      | some value =>
        if isNonEmptyString value then none
        else some (invalidRequest [lit "Param 'input' must be a non-empty string."])
      | none => none)
  | some _ => some (paramsNotObject .runtimeStatisticsInputs)

def validateRuntimeStatisticsOutputsParams (request : Members) : Option RequestError :=
  match member request "params" with
  | none => none
  | some (.obj params) =>
    (validateParamsFields params [str "target_id", str "name"] .runtimeStatisticsOutputs).or
      (match member params "target_id", member params "name" with
      | some _, some _ =>
        some (invalidRequest [lit "Method ", .repr Method.runtimeStatisticsOutputs.name,
          lit " params must not ", lit "contain both 'target_id' and 'name'."])
      | some value, none =>
        if isNonNegativeInteger value then none
        else some (invalidRequest [lit "Param 'target_id' must be a non-negative integer."])
      | none, some value =>
        if isNonEmptyString value then none
        else some (invalidRequest [lit "Param 'name' must be a non-empty string."])
      | none, none => none)
  | some _ => some (paramsNotObject .runtimeStatisticsOutputs)

/-- The checks of the parameters, method by method. -/
def validateMethodParams (request : Members) : Method → Option RequestError
  | .runtimeStatisticsInputs => validateRuntimeStatisticsInputsParams request
  | .runtimeStatisticsOutputs => validateRuntimeStatisticsOutputsParams request
  | .replace =>
    match member request "params" with
    | none => some (invalidRequest [lit "Method 'routing.replace' requires params."])
    | some params => validateReplaceParams params
  | .disable =>
    match member request "params" with
    | none => none
    | some (.obj params) => validateParamsFields params [str "expected_generation"] .disable
    | some _ => some (paramsNotObject .disable)
  | method =>
    if (member request "params").isSome then
      some (invalidRequest [lit "Method ", .repr method.name, lit " does not accept params."])
    else none

def requestFields : List PyStr := [str "version", str "request_id", str "method", str "params"]

def validateMethod (request : Members) : Option RequestError :=
  match member request "method" with
  | some (.str method) =>
    if method = [] then
      some (invalidRequest [lit "Request field 'method' must be a non-empty string."])
    else
      match Method.ofName method with
      | none => some ⟨errorUnknownMethod, [lit "Unknown routing control method: ", .text method, lit "."]⟩
      | some m => validateMethodParams request m
  | _ => some (invalidRequest [lit "Request field 'method' must be a non-empty string."])

def validateRequestSchema (request : Members) : Option RequestError :=
  let unknown := unknownFields requestFields request
  if unknown ≠ [] then
    some (invalidRequest [lit "Request has unknown field(s): ", .text (join (str ", ") unknown), lit "."])
  else
    match [str "version", str "request_id", str "method"].find?
        (fun field => (Dict.lookupEntries field request).isNone) with
    | some field =>
      some (invalidRequest [lit "Request is missing required field ", .repr field, lit "."])
    | none =>
      match member request "version" with
      | some (.int version) =>
        if version ≠ protocolVersion then
          some ⟨errorUnsupportedVersion,
            [lit "Unsupported routing control protocol version: ", .text (intStr version), lit "."]⟩
        else if (member request "request_id").all (fun r => !isNonEmptyString r) then
          some (invalidRequest [lit "Request field 'request_id' must be a non-empty string."])
        else validateMethod request
      | _ => some (invalidRequest [lit "Request field 'version' must be an integer."])

structure ValidatedRequest where
  requestId : PyStr
  method : Method
  params : Members

/-- A request that has passed the validation, with no parameters for missing ones; `none` is
a failed assertion. -/
def coerceValidatedRequest (request : Members) : Option ValidatedRequest :=
  match member request "request_id", member request "method", member request "params" with
  | some (.str requestId), some (.str method), none =>
    (Method.ofName method).map (fun m => ⟨requestId, m, []⟩)
  | some (.str requestId), some (.str method), some (.obj params) =>
    (Method.ofName method).map (fun m => ⟨requestId, m, params⟩)
  | _, _, _ => none

def validRequestIdOrNone (request : Members) : Json :=
  match member request "request_id" with
  | some (.str s) => if s = [] then .null else .str s
  | _ => .null

/-! ### Responses -/

def successResponse (requestId : PyStr) (result : Json) : Json :=
  .obj [(str "version", .int protocolVersion), (str "request_id", .str requestId),
    (str "ok", .bool true), (str "result", result)]

def errorResponse (requestId : Json) (code message : PyStr) (details : Members) : Json :=
  .obj [(str "version", .int protocolVersion), (str "request_id", requestId), (str "ok", .bool false),
    (str "error", .obj ([(str "code", .str code), (str "message", .str message)] ++ details))]

def staleGenerationMessage (expected : Int) (actual : Nat) : PyStr :=
  str "Stale routing generation: " ++ (str "expected " ++ intStr expected ++ str ", actual " ++
    natStr actual ++ str ".")

def natValue (n : Nat) : Json := .int n

def names (values : List PyStr) : Json := .arr (values.map .str)

def statusResult (status : RoutingControlStatus) : Json :=
  .obj [(str "generation", natValue status.generation), (str "enabled", .bool status.enabled),
    (str "zone_names", names status.zoneNames), (str "route_names", names status.routeNames),
    (str "target_ids", names status.targetIds)]

def queueMetricsResult (q : QueueMetricsSnapshot) : Json :=
  .obj [(str "name", .str q.name), (str "capacity", natValue q.capacity), (str "depth", natValue q.depth),
    (str "peak_depth", natValue q.peakDepth), (str "enqueued", natValue q.enqueued),
    (str "dequeued", natValue q.dequeued), (str "put_waits", natValue q.putWaits),
    (str "current_put_waiters", natValue q.currentPutWaiters)]

def processorMetricsResult (p : ProcessorMetricsSnapshot) : Json :=
  .obj [(str "process_calls", natValue p.processCalls),
    (str "process_completed", natValue p.processCompleted),
    (str "process_failed", natValue p.processFailed),
    (str "process_in_flight", natValue p.processInFlight),
    (str "outputless_calls", natValue p.outputlessCalls),
    (str "output_batches", natValue p.outputBatches),
    (str "output_messages", natValue p.outputMessages),
    (str "reset_calls", natValue p.resetCalls), (str "reset_completed", natValue p.resetCompleted),
    (str "reset_failed", natValue p.resetFailed), (str "reset_in_flight", natValue p.resetInFlight)]

def egressMetricsResult (e : EgressMetricsSnapshot) : Json :=
  .obj [(str "batches_started", natValue e.batchesStarted),
    (str "batches_completed", natValue e.batchesCompleted),
    (str "batches_failed", natValue e.batchesFailed),
    (str "batches_cancelled", natValue e.batchesCancelled),
    (str "active_batches", natValue e.activeBatches),
    (str "outputs_started", natValue e.outputsStarted),
    (str "outputs_completed", natValue e.outputsCompleted),
    (str "outputs_failed", natValue e.outputsFailed),
    (str "outputs_cancelled", natValue e.outputsCancelled),
    (str "active_outputs", natValue e.activeOutputs)]

def runtimeStatisticsResult (s : RuntimeStatisticsSnapshot) : Json :=
  .obj [(str "ingress_queues", .arr (s.ingressQueues.map queueMetricsResult)),
    (str "processing_queue", queueMetricsResult s.processingQueue),
    (str "processor", processorMetricsResult s.processor),
    (str "egress_queue", queueMetricsResult s.egressQueue),
    (str "egress_operations", egressMetricsResult s.egressOperations)]

def inputKindName : InputKind → PyStr
  | .udp => str "udp"
  | .udpsec => str "udpsec"

def inputTrafficMetricsResult (s : InputTrafficMetricsSnapshot) : Json :=
  .obj [(str "name", .str s.name), (str "kind", .str (inputKindName s.kind)),
    (str "transport_packets", natValue s.transportPackets),
    (str "transport_bytes", natValue s.transportBytes),
    (str "accepted_frames", natValue s.acceptedFrames), (str "payload_bytes", natValue s.payloadBytes)]

def runtimeStatisticsInputsResult (snapshots : List InputTrafficMetricsSnapshot)
    (inputName : Option PyStr) : Json :=
  .obj [(str "inputs", .arr ((snapshots.filter
    (fun s => inputName.all (fun name => s.name = name))).map inputTrafficMetricsResult))]

def outputTrafficMetricsResult (s : OutputTrafficMetricsSnapshot) : Json :=
  .obj [(str "target_id", natValue s.targetId), (str "name", (s.name.map Json.str).getD .null),
    (str "dispatch_attempts", natValue s.dispatchAttempts),
    (str "dispatch_completed", natValue s.dispatchCompleted),
    (str "dispatch_failed", natValue s.dispatchFailed), (str "messages", natValue s.messages),
    (str "bytes", natValue s.bytes)]

def runtimeStatisticsOutputsResult (snapshots : List OutputTrafficMetricsSnapshot)
    (targetId : Option Int) (name : Option PyStr) : Json :=
  let rows :=
    match targetId, name with
    | some targetId, _ => snapshots.filter (fun s => (OutputTrafficMetricsSnapshot.targetId s : Int) = targetId)
    | none, some name => snapshots.filter (fun s => OutputTrafficMetricsSnapshot.name s = some name)
    | none, none => snapshots
  .obj [(str "outputs", .arr (rows.map outputTrafficMetricsResult))]

/-- `encode_json_response(response)`. -/
def encodeJsonResponse (response : Json) : Except HandlerError Bytes :=
  orRaise .unicodeEncodeError (encodeUtf8 (Json.dumps ⟨false, true⟩ response))

/-! ### Handling -/

def intParam (params : Members) (name : String) : Option Int :=
  match member params name with
  | some (.int i) => some i
  | _ => none

def strParam (params : Members) (name : String) : Option PyStr :=
  match member params name with
  | some (.str s) => some s
  | _ => none

/-- The answer to a routing update. -/
def updateResponse (isPrintable : CodePoint → Bool) (requestId : PyStr) :
    Except ControlError RoutingControlStatus → Except HandlerError Json
  | .ok status => .ok (successResponse requestId (statusResult status))
  | .error (.staleGeneration expected actual) =>
    .ok (errorResponse (.str requestId) errorStaleGeneration (staleGenerationMessage expected actual)
      [(str "expected_generation", .int expected), (str "actual_generation", natValue actual)])
  | .error (.candidateConfig message) =>
    .ok (errorResponse (.str requestId) errorInvalidRoutingConfig (message.render isPrintable) [])
  | .error (.raised e) => .error (.routing e)

/-- A `RoutingControlProtocol` with its service and what its statistics source answers. -/
structure RoutingControlProtocol where
  isPrintable : CodePoint → Bool
  service : RoutingControlService
  statistics : RuntimeStatistics

namespace RoutingControlProtocol

variable (protocol : RoutingControlProtocol)

/-- The dispatch of a validated request. -/
def dispatch (state : RoutingState) (validated : ValidatedRequest) :
    RoutingState × Except HandlerError Json :=
  let params := validated.params
  match validated.method with
  | .runtimeStatistics =>
    (state, .ok (successResponse validated.requestId
      (runtimeStatisticsResult protocol.statistics.runtime)))
  | .runtimeStatisticsInputs =>
    (state, .ok (successResponse validated.requestId
      (runtimeStatisticsInputsResult protocol.statistics.inputs (strParam params "input"))))
  | .runtimeStatisticsOutputs =>
    (state, .ok (successResponse validated.requestId
      (runtimeStatisticsOutputsResult protocol.statistics.outputs (intParam params "target_id")
        (strParam params "name"))))
  | .status =>
    (state, .ok (successResponse validated.requestId
      (statusResult (RoutingControlService.status state))))
  | .replace =>
    match member params "routing" with
    | some routing =>
      let (next, result) := protocol.service.replaceFromConfig state routing
        (intParam params "expected_generation")
      (next, updateResponse protocol.isPrintable validated.requestId result)
    | none => (state, .error .assertionError)
  | .disable =>
    let (next, result) :=
      RoutingControlService.disable state (intParam params "expected_generation")
    (next, updateResponse protocol.isPrintable validated.requestId result)

def handleRequest (state : RoutingState) (request : Members) : RoutingState × Except HandlerError Json :=
  match validateRequestSchema request with
  | some e =>
    (state, .ok (errorResponse (validRequestIdOrNone request) e.code
      (e.message.render protocol.isPrintable) []))
  | none =>
    match coerceValidatedRequest request with
    | none => (state, .error .assertionError)
    | some validated => protocol.dispatch state validated

def handleJson (state : RoutingState) (data : Bytes) : RoutingState × Except HandlerError Bytes :=
  match decodeJsonRequest data with
  | .error e => (state, .error e)
  | .ok none =>
    (state, encodeJsonResponse (errorResponse .null errorMalformedJson
      (str "Malformed JSON request.") []))
  | .ok (some request) =>
    let (next, response) := protocol.handleRequest state request
    (next, response.bind encodeJsonResponse)

end RoutingControlProtocol

end AisMixer.Routing

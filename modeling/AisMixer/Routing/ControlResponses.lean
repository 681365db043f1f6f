import AisMixer.Library.JsonRoundTrip
import AisMixer.Routing.ControlProtocol

/-!
# What the control protocol answers

`handleJson_cases` says once what a request can do: it installs a snapshot and answers with
its status, or it leaves the state as it was. A response is encoded exactly when none of its
strings has an unpaired surrogate, and an encoded response decodes to the value it was
written from.
-/

namespace AisMixer.Routing

open AisMixer.Library

/-! ### Encoded responses -/

/-- A response as a client reads it. -/
def decodeResponse (bytes : Bytes) : Option Json :=
  match decodeUtf8 bytes with
  | none => none
  | some text => (Json.parse none text).toOption

lemma encode_ok_iff {response : Json} {bytes : Bytes} :
    encodeJsonResponse response = .ok bytes ↔
      encodeUtf8 (Json.dumps ⟨false, true⟩ response) = some bytes := by
  unfold encodeJsonResponse
  cases encodeUtf8 (Json.dumps ⟨false, true⟩ response) with
  | none => simp [orRaise]
  | some b => simp [orRaise]

/-- A response is encoded exactly when its strings have no unpaired surrogate. -/
theorem encodes_iff (response : Json) :
    (∃ bytes, encodeJsonResponse response = .ok bytes) ↔ Json.anySurrogate response = false := by
  simp only [encode_ok_iff, encodeUtf8_eq_some, Json.hasSurrogate_dumps]
  constructor
  · rintro ⟨bytes, h, -⟩
    exact h
  · intro h
    exact ⟨_, h, rfl⟩

/-- A client reads back the normal form of the response. -/
theorem decodeResponse_encode {response : Json} (hplain : Json.Plain response) {bytes : Bytes}
    (h : encodeJsonResponse response = .ok bytes) :
    decodeResponse bytes = some (Json.normal ⟨false, true⟩ response) := by
  rw [decodeResponse, decodeUtf8_encode (encode_ok_iff.mp h)]
  simp only [Json.parse_dumps true hplain, Except.toOption]

def isOkResponse (bytes : Bytes) : Bool :=
  match (decodeResponse bytes).bind (fun v => v.get? (str "ok")) with
  | some (.bool b) => b
  | _ => false

/-- A call that returned a response with `ok: true`. -/
def acknowledges : Except HandlerError Bytes → Bool
  | .ok bytes => isOkResponse bytes
  | .error _ => false

lemma plain_names (values : List PyStr) : Json.Plain (names values) := by
  rw [names, Json.Plain]
  induction values with
  | nil => trivial
  | cons value values ih => exact ⟨trivial, ih⟩

lemma nodup_statusKeys : [str "generation", str "enabled", str "zone_names", str "route_names",
    str "target_ids"].Nodup := by
  decide

lemma nodup_successKeys : [str "version", str "request_id", str "ok", str "result"].Nodup := by
  decide

lemma nodup_errorKeys : [str "version", str "request_id", str "ok", str "error"].Nodup := by
  decide

lemma plain_statusResult (status : RoutingControlStatus) : Json.Plain (statusResult status) :=
  ⟨nodup_statusKeys, trivial, trivial, plain_names _, plain_names _, plain_names _, trivial⟩

lemma plain_successResponse (requestId : PyStr) {result : Json} (h : Json.Plain result) :
    Json.Plain (successResponse requestId result) :=
  ⟨nodup_successKeys, trivial, trivial, trivial, h, trivial⟩

lemma plain_errorResponse {requestId : Json} (hid : Json.Plain requestId) (code message : PyStr)
    {details : Members} (hdetails : Json.PlainMembers details)
    (hkeys : ([str "code", str "message"] ++ details.map Prod.fst).Nodup) :
    Json.Plain (errorResponse requestId code message details) :=
  ⟨nodup_errorKeys, trivial, hid, trivial, ⟨hkeys, trivial, trivial, hdetails⟩, trivial⟩

/-- A member of a success response as a client reads it. -/
lemma get?_successResponse (requestId : PyStr) (result : Json) (key : PyStr) :
    (Json.normal ⟨false, true⟩ (successResponse requestId result)).get? key =
      ((successResponse requestId result).get? key).map (Json.normal ⟨false, true⟩) :=
  @Json.get?_normal _ [(str "version", .int protocolVersion), (str "request_id", .str requestId),
    (str "ok", .bool true), (str "result", result)] nodup_successKeys key

lemma get?_errorResponse (requestId : Json) (code message : PyStr) (details : Members) (key : PyStr) :
    (Json.normal ⟨false, true⟩ (errorResponse requestId code message details)).get? key =
      ((errorResponse requestId code message details).get? key).map (Json.normal ⟨false, true⟩) :=
  @Json.get?_normal _ [(str "version", .int protocolVersion), (str "request_id", requestId),
    (str "ok", .bool false),
    (str "error", .obj ([(str "code", .str code), (str "message", .str message)] ++ details))]
    nodup_errorKeys key

lemma get?_statusResult (status : RoutingControlStatus) (key : PyStr) :
    (Json.normal ⟨false, true⟩ (statusResult status)).get? key =
      ((statusResult status).get? key).map (Json.normal ⟨false, true⟩) :=
  @Json.get?_normal _ [(str "generation", natValue status.generation),
    (str "enabled", .bool status.enabled), (str "zone_names", names status.zoneNames),
    (str "route_names", names status.routeNames), (str "target_ids", names status.targetIds)]
    nodup_statusKeys key

lemma acknowledges_success {requestId : PyStr} {result : Json} (hplain : Json.Plain result)
    {bytes : Bytes} (h : encodeJsonResponse (successResponse requestId result) = .ok bytes) :
    isOkResponse bytes = true := by
  rw [isOkResponse, decodeResponse_encode (plain_successResponse requestId hplain) h, Option.bind_some,
    get?_successResponse]
  rfl

lemma not_acknowledges_error {requestId : Json} {code message : PyStr} {details : Members}
    (hplain : Json.Plain (errorResponse requestId code message details)) :
    acknowledges (encodeJsonResponse (errorResponse requestId code message details)) = false := by
  cases h : encodeJsonResponse (errorResponse requestId code message details) with
  | error e => rfl
  | ok bytes =>
    rw [acknowledges, isOkResponse, decodeResponse_encode hplain h, Option.bind_some,
      get?_errorResponse]
    rfl

/-! ### Surrogates of a status response -/

lemma anySurrogate_names (values : List PyStr) :
    Json.anySurrogate (names values) = values.any hasSurrogate := by
  rw [names, Json.anySurrogate]
  induction values with
  | nil => rfl
  | cons value values ih =>
    rw [List.map_cons, Json.anySurrogateItems, ih]
    rfl

/-- No name of the table has an unpaired surrogate. -/
def RoutingTable.CleanNames (table : RoutingTable) : Prop :=
  (∀ zone ∈ table.resolvedZones.keys, hasSurrogate zone = false) ∧
    ∀ route ∈ table.routeDefinitions, hasSurrogate route.name = false ∧
      ∀ target ∈ route.targets, hasSurrogate target = false

/-- No name of the installed table, if there is one, has an unpaired surrogate. -/
def RoutingSnapshot.CleanNames (snapshot : RoutingSnapshot) : Prop :=
  ∀ table, snapshot.table = some table → table.CleanNames

lemma targetIdsFromRoutes_eq (table : RoutingTable) : targetIdsFromRoutes table =
    firstOccurrences (table.routeDefinitions.flatMap RouteDefinition.targets) := by
  have hfold : ∀ (routes : List RouteDefinition) (xs : List TargetId) (acc : List TargetId × Finset TargetId),
      Collected xs acc → Collected (xs ++ routes.flatMap RouteDefinition.targets)
        (routes.foldl (fun acc route => appendUnseen route.targets acc) acc) := by
    intro routes
    induction routes with
    | nil => intro xs acc h; simpa using h
    | cons route routes ih =>
      intro xs acc h
      have hnext := ih _ _ (h.append route.targets)
      simpa using hnext
  exact (hfold table.routeDefinitions [] _ collected_nil).1

lemma cleanNames_iff (snapshot : RoutingSnapshot) (requestId : PyStr) :
    Json.anySurrogate (successResponse requestId (statusResult (statusFromSnapshot snapshot))) = false ↔
      hasSurrogate requestId = false ∧ snapshot.CleanNames := by
  have hstatus : ∀ status : RoutingControlStatus,
      Json.anySurrogate (successResponse requestId (statusResult status)) = false ↔
        hasSurrogate requestId = false ∧ (∀ n ∈ status.zoneNames, hasSurrogate n = false) ∧
          (∀ n ∈ status.routeNames, hasSurrogate n = false) ∧
          ∀ n ∈ status.targetIds, hasSurrogate n = false := by
    intro status
    have hkeys : ∀ key ∈ [str "version", str "request_id", str "ok", str "result", str "generation",
        str "enabled", str "zone_names", str "route_names", str "target_ids"],
        hasSurrogate key = false := by decide
    simp only [List.forall_mem_cons] at hkeys
    obtain ⟨h1, h2, h3, h4, h5, h6, h7, h8, h9, -⟩ := hkeys
    simp only [successResponse, statusResult, Json.anySurrogate, Json.anySurrogateMembers,
      anySurrogate_names, natValue, h1, h2, h3, h4, h5, h6, h7, h8, h9, Bool.false_or, Bool.or_false,
      Bool.or_eq_false_iff, List.any_eq_false, Bool.not_eq_true]
  rw [hstatus, RoutingSnapshot.CleanNames]
  cases htable : snapshot.table with
  | none => simp [statusFromSnapshot, htable]
  | some table =>
    simp only [statusFromSnapshot, htable, Option.some_inj, forall_eq', RoutingTable.CleanNames,
      targetIdsFromRoutes_eq, mem_firstOccurrences, List.mem_flatMap, List.forall_mem_map]
    constructor
    · rintro ⟨hid, hzones, hroutes, htargets⟩
      exact ⟨hid, hzones, fun route hroute => ⟨hroutes route hroute,
        fun target htarget => htargets target ⟨route, hroute, htarget⟩⟩⟩
    · rintro ⟨hid, hzones, hroutes⟩
      refine ⟨hid, hzones, fun route hroute => (hroutes route hroute).1, ?_⟩
      rintro target ⟨route, hroute, htarget⟩
      exact (hroutes route hroute).2 target htarget

end AisMixer.Routing

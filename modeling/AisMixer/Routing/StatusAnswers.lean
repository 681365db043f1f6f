import AisMixer.Routing.ControlAtomicity

/-!
# When a status request is answered

The status of a table is encoded exactly when its names have no unpaired surrogate. The
compiler accepts any JSON string as a name, so the names that requests install decide
whether later status requests are answered.
-/

namespace AisMixer.Routing

open AisMixer.Library AisMixer.Runtime

/-- The id of a well-formed `routing.status` request whose id is ASCII. -/
def statusRequestId (data : Bytes) : Option PyStr :=
  match decodeJsonRequest data with
  | .ok (some request) =>
    match member request "version", member request "request_id", member request "method",
        member request "params" with
    | some (.int version), some (.str requestId), some (.str method), none =>
      if unknownFields requestFields request = [] ∧ version = protocolVersion ∧ requestId ≠ [] ∧
          requestId.all (fun c => c.val < 0x80) = true ∧ method = Method.status.name then some requestId
      else none
    | _, _, _, _ => none
  | _ => none

/-- A response with `ok: true`, the request's id and the content of the snapshot. -/
def IsStatusAnswer (snapshot : RoutingSnapshot) (requestId : PyStr) (v : Json) : Prop :=
  let status := statusFromSnapshot snapshot
  v.get? (str "ok") = some (.bool true) ∧ v.get? (str "request_id") = some (.str requestId) ∧
    ∃ result, v.get? (str "result") = some result ∧
      result.get? (str "generation") = some (.int snapshot.generation) ∧
      result.get? (str "zone_names") = some (names status.zoneNames) ∧
      result.get? (str "route_names") = some (names status.routeNames) ∧
      result.get? (str "target_ids") = some (names status.targetIds)

/-- The request returns bytes that decode to such a response. -/
def Answers (protocol : RoutingControlProtocol) (state : RoutingState) (data : Bytes)
    (requestId : PyStr) : Prop :=
  ∃ bytes v, protocol.handleJson state data = (state, .ok bytes) ∧ decodeResponse bytes = some v ∧
    IsStatusAnswer state.snapshot requestId v

/-- What the request installs, if anything, has names without unpaired surrogates. -/
def CleanInstall (protocol : RoutingControlProtocol) (state : RoutingState) (data : Bytes) : Prop :=
  ∀ validated next, Installs protocol state data validated next → next.snapshot.CleanNames

lemma statusRequest_parts {data : Bytes} {requestId : PyStr} (h : statusRequestId data = some requestId) :
    ∃ request, decodeJsonRequest data = .ok (some request) ∧ unknownFields requestFields request = [] ∧
      member request "version" = some (.int protocolVersion) ∧
      member request "request_id" = some (.str requestId) ∧ requestId ≠ [] ∧
      (∀ c ∈ requestId, c.val < 0x80) ∧ member request "method" = some (.str Method.status.name) ∧
      member request "params" = none := by
  unfold statusRequestId at h
  split at h
  · next request hdecode =>
    split at h
    · next hversion hid hmethod hparams =>
      split at h
      · next hcond =>
        obtain ⟨hunknown, rfl, hne, hascii, rfl⟩ := hcond
        obtain rfl := Option.some_inj.mp h
        exact ⟨request, hdecode, hunknown, hversion, hid, hne, by simpa using hascii, hmethod, hparams⟩
      · cases h
    · cases h
  · cases h

lemma handleJson_status {protocol : RoutingControlProtocol} {state : RoutingState} {data : Bytes}
    {requestId : PyStr} (h : statusRequestId data = some requestId) :
    protocol.handleJson state data = (state, encodeJsonResponse
      (successResponse requestId (statusResult (statusFromSnapshot state.snapshot)))) := by
  obtain ⟨request, hdecode, hunknown, hversion, hid, hne, -, hmethod, hparams⟩ := statusRequest_parts h
  have hpresent : [str "version", str "request_id", str "method"].find?
      (fun field => (Dict.lookupEntries field request).isNone) = none := by
    unfold member at hversion hid hmethod
    simp [hversion, hid, hmethod]
  have hname : Method.status.name ≠ [] := by decide
  have hof : Method.ofName Method.status.name = some .status := by decide
  have hvalidate : validateRequestSchema request = none := by
    simp [validateRequestSchema, hunknown, hpresent, hversion, hid, isNonEmptyString, hne, validateMethod,
      hmethod, hname, hof, validateMethodParams, hparams]
  have hcoerce : coerceValidatedRequest request = some ⟨requestId, .status, []⟩ := by
    simp [coerceValidatedRequest, hid, hmethod, hparams, hof]
  simp only [RoutingControlProtocol.handleJson, hdecode, RoutingControlProtocol.handleRequest, hvalidate,
    hcoerce, RoutingControlProtocol.dispatch]
  rfl

lemma normal_names (values : List PyStr) : Json.normal ⟨false, true⟩ (names values) = names values := by
  rw [names, Json.normal]
  congr 1
  induction values with
  | nil => rfl
  | cons value values ih =>
    rw [List.map_cons, Json.normalItems, ih]
    rfl

/-- The status response as a client reads it. -/
lemma isStatusAnswer (snapshot : RoutingSnapshot) (requestId : PyStr) :
    IsStatusAnswer snapshot requestId (Json.normal ⟨false, true⟩
      (successResponse requestId (statusResult (statusFromSnapshot snapshot)))) := by
  have hgeneration : (statusFromSnapshot snapshot).generation = snapshot.generation := by
    unfold statusFromSnapshot
    split <;> rfl
  refine ⟨by rw [get?_successResponse]; rfl, by rw [get?_successResponse]; rfl,
    Json.normal ⟨false, true⟩ (statusResult (statusFromSnapshot snapshot)),
    by rw [get?_successResponse]; rfl, ?_, ?_, ?_, ?_⟩
  · rw [get?_statusResult, ← hgeneration]
    rfl
  all_goals
    rw [get?_statusResult, ← normal_names]
    rfl

lemma hasSurrogate_of_ascii {s : PyStr} (h : ∀ c ∈ s, c.val < 0x80) : hasSurrogate s = false := by
  rw [hasSurrogate, List.any_eq_false]
  intro c hc
  have hlt := h c hc
  simp only [isSurrogate, Bool.and_eq_true, decide_eq_true_eq]
  omega

/-- A status request is answered exactly when the names in force have no unpaired surrogate. -/
lemma answers_iff {protocol : RoutingControlProtocol} {state : RoutingState} {data : Bytes}
    {requestId : PyStr} (h : statusRequestId data = some requestId) :
    Answers protocol state data requestId ↔ state.snapshot.CleanNames := by
  have hascii : hasSurrogate requestId = false := by
    obtain ⟨-, -, -, -, -, -, hascii, -⟩ := statusRequest_parts h
    exact hasSurrogate_of_ascii hascii
  have hclean := cleanNames_iff state.snapshot requestId
  rw [← encodes_iff] at hclean
  have hhandle := @handleJson_status protocol state data requestId h
  constructor
  · rintro ⟨bytes, v, hresult, -⟩
    rw [hhandle] at hresult
    exact (hclean.mp ⟨bytes, (Prod.mk.inj hresult).2⟩).2
  · intro hnames
    obtain ⟨bytes, hbytes⟩ := hclean.mpr ⟨hascii, hnames⟩
    refine ⟨bytes, _, by rw [hhandle, hbytes], decodeResponse_encode
      (plain_successResponse requestId (plain_statusResult _)) hbytes, isStatusAnswer state.snapshot requestId⟩

/-- One call keeps the names clean. -/
lemma cleanNames_step {protocol : RoutingControlProtocol} {state : RoutingState} {data : Bytes}
    (hstate : state.snapshot.CleanNames) (hclean : CleanInstall protocol state data) :
    (protocol.handleJson state data).1.snapshot.CleanNames := by
  rcases handleJson_cases protocol state data with ⟨validated, next, hinstalls, -, hresult⟩ | ⟨-, hsame, -⟩
  · rw [hresult]
    exact hclean validated next hinstalls
  · rw [hsame]
    exact hstate

lemma cleanNames_run {protocol : RoutingControlProtocol} {state : RoutingState} {calls : List Call}
    (hstate : state.snapshot.CleanNames)
    (hclean : ∀ x ∈ (protocol.run state calls).1,
      CleanInstall (protocol.at x.call) x.before x.call.data) :
    (protocol.run state calls).2.snapshot.CleanNames := by
  induction calls generalizing state with
  | nil => exact hstate
  | cons call calls ih =>
    rw [RoutingControlProtocol.run] at hclean ⊢
    refine ih (cleanNames_step hstate (hclean _ (List.mem_cons_self ..))) ?_
    intro x hx
    exact hclean x (List.mem_cons_of_mem _ hx)

/-- A status request is answered with the content of the snapshot exactly when the names in
force have no unpaired surrogate, and so after every run whose calls install such names only. -/
theorem status_answerable (protocol : RoutingControlProtocol) :
    (∀ state data requestId, statusRequestId data = some requestId →
      (Answers protocol state data requestId ↔ state.snapshot.CleanNames)) ∧
    ∀ (state : RoutingState) (calls : List Call), state.snapshot.CleanNames →
      (∀ x ∈ (protocol.run state calls).1, CleanInstall (protocol.at x.call) x.before x.call.data) →
      ∀ call requestId, statusRequestId call.data = some requestId →
        Answers (protocol.at call) (protocol.run state calls).2 call.data requestId := by
  constructor
  · intro state data requestId h
    exact answers_iff h
  · intro state calls hstate hclean call requestId h
    exact (answers_iff h).mpr (cleanNames_run hstate hclean)

/-! ### A section that silences the status -/

def surrogateZoneRequest : Bytes :=
  ascii "\x7b\"version\":1,\"request_id\":\"r\",\"method\":\"routing.replace\",\"params\":" ++
    ascii "\x7b\"routing\":\x7b\"zones\":\x7b\"\\ud800\":\x7b\"include\":[]\x7d\x7d,\"routes\":[]\x7d\x7d\x7d"

def statusRequest : Bytes :=
  ascii "\x7b\"version\":1,\"request_id\":\"r\",\"method\":\"routing.status\"\x7d"

example : statusRequestId statusRequest = some (str "r") := by decide +kernel

/-- After the section is installed, status requests raise a `UnicodeEncodeError`. -/
theorem not_answers_surrogateZone :
    ¬Answers idleProtocol (idleProtocol.run freshState [⟨idleStatistics, surrogateZoneRequest⟩]).2
      statusRequest (str "r") := by
  rintro ⟨bytes, v, hresult, -⟩
  have herror : (idleProtocol.handleJson (idleProtocol.run freshState
      [⟨idleStatistics, surrogateZoneRequest⟩]).2 statusRequest).2 = .error .unicodeEncodeError := by
    decide +kernel
  rw [hresult] at herror
  cases herror

end AisMixer.Routing

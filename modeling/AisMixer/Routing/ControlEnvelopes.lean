import AisMixer.Routing.ControlAtomicity

/-!
# The envelopes of the control protocol

Every response has one of two shapes, with the id of its request or with a null id. The
protocol answers a request that has a valid id with that id, whatever it answers, and the
integers of a response are the only thing that can keep a client from reading it back.
-/

namespace AisMixer.Routing

open AisMixer.Library AisMixer.Runtime

/-- A response to `requestId`: a result that is an object, or an error with a code. -/
inductive Envelope : Json → Json → Prop where
  | success {requestId : PyStr} {members : Members} (hplain : Json.Plain (.obj members)) :
      Envelope (.str requestId) (successResponse requestId (.obj members))
  | failure {requestId : Json} {code : PyStr} (message : PyStr) {details : Members}
      (hcode : code ≠ [])
      (hplain : Json.Plain (errorResponse requestId code message details)) :
      Envelope requestId (errorResponse requestId code message details)

lemma Envelope.plain {requestId response : Json} (h : Envelope requestId response) :
    Json.Plain response := by
  cases h with
  | success hplain => exact plain_successResponse _ hplain
  | failure message hcode hplain => exact hplain

lemma envelope_error {requestId : Json} (hid : Json.Plain requestId) {code : PyStr} (message : PyStr)
    (hcode : code ≠ []) : Envelope requestId (errorResponse requestId code message []) := by
  have hkeys : ([str "code", str "message"] ++ List.map Prod.fst ([] : Members)).Nodup := by decide
  exact .failure message hcode (plain_errorResponse hid code message trivial hkeys)

/-! ### Results -/

lemma plainItems_map {α : Type} {f : α → Json} (h : ∀ x, Json.Plain (f x)) (xs : List α) :
    Json.PlainItems (xs.map f) := by
  induction xs with
  | nil => trivial
  | cons x xs ih => exact ⟨h x, ih⟩

lemma plain_queueMetricsResult (q : QueueMetricsSnapshot) : Json.Plain (queueMetricsResult q) := by
  refine ⟨?_, trivial, trivial, trivial, trivial, trivial, trivial, trivial, trivial, trivial⟩
  simp only [List.map_cons, List.map_nil]
  decide

lemma plain_processorMetricsResult (p : ProcessorMetricsSnapshot) :
    Json.Plain (processorMetricsResult p) := by
  refine ⟨?_, trivial, trivial, trivial, trivial, trivial, trivial, trivial, trivial, trivial, trivial,
    trivial, trivial⟩
  simp only [List.map_cons, List.map_nil]
  decide

lemma plain_egressMetricsResult (e : EgressMetricsSnapshot) : Json.Plain (egressMetricsResult e) := by
  refine ⟨?_, trivial, trivial, trivial, trivial, trivial, trivial, trivial, trivial, trivial, trivial,
    trivial⟩
  simp only [List.map_cons, List.map_nil]
  decide

lemma plain_runtimeStatisticsResult (s : RuntimeStatisticsSnapshot) :
    Json.Plain (runtimeStatisticsResult s) := by
  refine ⟨?_, plainItems_map plain_queueMetricsResult _, plain_queueMetricsResult _,
    plain_processorMetricsResult _, plain_queueMetricsResult _, plain_egressMetricsResult _, trivial⟩
  simp only [List.map_cons, List.map_nil]
  decide

lemma plain_inputTrafficMetricsResult (s : InputTrafficMetricsSnapshot) :
    Json.Plain (inputTrafficMetricsResult s) := by
  refine ⟨?_, trivial, trivial, trivial, trivial, trivial, trivial, trivial⟩
  simp only [List.map_cons, List.map_nil]
  decide

lemma plain_outputTrafficMetricsResult (s : OutputTrafficMetricsSnapshot) :
    Json.Plain (outputTrafficMetricsResult s) := by
  have hname : Json.Plain ((s.name.map Json.str).getD .null) := by
    cases s.name <;> trivial
  refine ⟨?_, trivial, hname, trivial, trivial, trivial, trivial, trivial, trivial⟩
  simp only [List.map_cons, List.map_nil]
  decide

lemma plain_runtimeStatisticsInputsResult (snapshots : List InputTrafficMetricsSnapshot)
    (inputName : Option PyStr) : Json.Plain (runtimeStatisticsInputsResult snapshots inputName) :=
  ⟨List.nodup_singleton _, plainItems_map plain_inputTrafficMetricsResult _, trivial⟩

lemma plain_runtimeStatisticsOutputsResult (snapshots : List OutputTrafficMetricsSnapshot)
    (targetId : Option Int) (name : Option PyStr) :
    Json.Plain (runtimeStatisticsOutputsResult snapshots targetId name) :=
  ⟨List.nodup_singleton _, plainItems_map plain_outputTrafficMetricsResult _, trivial⟩

/-! ### What the protocol answers -/

/-- An error, if there is one, has a code. -/
def HasCode (result : Option RequestError) : Prop := ∀ e, result = some e → e.code ≠ []

lemma hasCode_none : HasCode none := fun _ h => by cases h

lemma hasCode_invalidRequest (message : Message) : HasCode (some (invalidRequest message)) := by
  intro e h
  obtain rfl := Option.some_inj.mp h
  show errorInvalidRequest ≠ []
  decide

lemma HasCode.or {a b : Option RequestError} (ha : HasCode a) (hb : HasCode b) : HasCode (a.or b) := by
  cases a with
  | none => exact hb
  | some e => exact ha

lemma HasCode.ite {c : Prop} [Decidable c] {a b : Option RequestError} (ha : HasCode a)
    (hb : HasCode b) : HasCode (if c then a else b) := by
  split
  · exact ha
  · exact hb

lemma hasCode_validateExpectedGeneration (value : Json) : HasCode (validateExpectedGeneration value) :=
  hasCode_none.ite (hasCode_invalidRequest _)

lemma hasCode_validateParamsFields (params : Members) (allowedFields : List PyStr) (method : Method) :
    HasCode (validateParamsFields params allowedFields method) := by
  refine (hasCode_invalidRequest _).ite ?_
  split
  · exact hasCode_validateExpectedGeneration _
  · exact hasCode_none

lemma hasCode_validateReplaceParams (params : Json) : HasCode (validateReplaceParams params) := by
  unfold validateReplaceParams
  split
  · exact (hasCode_validateParamsFields _ _ _).or ((hasCode_invalidRequest _).ite hasCode_none)
  · exact hasCode_invalidRequest _

lemma hasCode_validateRuntimeStatisticsInputsParams (request : Members) :
    HasCode (validateRuntimeStatisticsInputsParams request) := by
  unfold validateRuntimeStatisticsInputsParams
  split
  · exact hasCode_none
  · refine (hasCode_validateParamsFields _ _ _).or ?_
    split
    · exact hasCode_none.ite (hasCode_invalidRequest _)
    · exact hasCode_none
  · exact hasCode_invalidRequest _

lemma hasCode_validateRuntimeStatisticsOutputsParams (request : Members) :
    HasCode (validateRuntimeStatisticsOutputsParams request) := by
  unfold validateRuntimeStatisticsOutputsParams
  split
  · exact hasCode_none
  · refine (hasCode_validateParamsFields _ _ _).or ?_
    split
    · exact hasCode_invalidRequest _
    · exact hasCode_none.ite (hasCode_invalidRequest _)
    · exact hasCode_none.ite (hasCode_invalidRequest _)
    · exact hasCode_none
  · exact hasCode_invalidRequest _

lemma hasCode_validateMethodParams (request : Members) (method : Method) :
    HasCode (validateMethodParams request method) := by
  unfold validateMethodParams
  split
  · exact hasCode_validateRuntimeStatisticsInputsParams request
  · exact hasCode_validateRuntimeStatisticsOutputsParams request
  · split
    · exact hasCode_invalidRequest _
    · exact hasCode_validateReplaceParams _
  · split
    · exact hasCode_none
    · exact hasCode_validateParamsFields _ _ _
    · exact hasCode_invalidRequest _
  · exact (hasCode_invalidRequest _).ite hasCode_none

lemma hasCode_validateMethod (request : Members) : HasCode (validateMethod request) := by
  have hunknown : ∀ message, HasCode (some ⟨errorUnknownMethod, message⟩) := by
    intro message e h
    obtain rfl := Option.some_inj.mp h
    show errorUnknownMethod ≠ []
    decide
  unfold validateMethod
  split
  · refine (hasCode_invalidRequest _).ite ?_
    split
    · exact hunknown _
    · exact hasCode_validateMethodParams request _
  · exact hasCode_invalidRequest _

/-- Every error of the validation has a code. -/
lemma hasCode_validateRequestSchema (request : Members) : HasCode (validateRequestSchema request) := by
  have hversion : ∀ message, HasCode (some ⟨errorUnsupportedVersion, message⟩) := by
    intro message e h
    obtain rfl := Option.some_inj.mp h
    show errorUnsupportedVersion ≠ []
    decide
  refine (hasCode_invalidRequest _).ite ?_
  split
  · exact hasCode_invalidRequest _
  · split
    · exact (hversion _).ite ((hasCode_invalidRequest _).ite (hasCode_validateMethod request))
    · exact hasCode_invalidRequest _

lemma envelope_update {isPrintable : CodePoint → Bool} {requestId : PyStr}
    {result : Except ControlError RoutingControlStatus} {response : Json}
    (h : updateResponse isPrintable requestId result = .ok response) :
    Envelope (.str requestId) response := by
  have hid : Json.Plain (.str requestId) := trivial
  unfold updateResponse at h
  split at h
  · obtain rfl := Except.ok.inj h
    exact .success (plain_statusResult _)
  · obtain rfl := Except.ok.inj h
    have hkeys : [str "code", str "message", str "expected_generation", str "actual_generation"].Nodup := by
      decide
    exact .failure _ (by decide) (plain_errorResponse hid _ _ ⟨trivial, trivial, trivial⟩ hkeys)
  · obtain rfl := Except.ok.inj h
    exact envelope_error hid _ (by decide)
  · cases h

lemma envelope_dispatch {protocol : RoutingControlProtocol} {state : RoutingState}
    {validated : ValidatedRequest} {response : Json}
    (h : (protocol.dispatch state validated).2 = .ok response) :
    Envelope (.str validated.requestId) response := by
  unfold RoutingControlProtocol.dispatch at h
  dsimp only at h
  split at h
  · obtain rfl := Except.ok.inj h
    exact .success (plain_runtimeStatisticsResult _)
  · obtain rfl := Except.ok.inj h
    exact .success (plain_runtimeStatisticsInputsResult _ _)
  · obtain rfl := Except.ok.inj h
    exact .success (plain_runtimeStatisticsOutputsResult _ _ _)
  · obtain rfl := Except.ok.inj h
    exact .success (plain_statusResult _)
  · split at h
    · exact envelope_update h
    · cases h
  · exact envelope_update h

lemma coerce_requestId {request : Members} {validated : ValidatedRequest}
    (h : coerceValidatedRequest request = some validated) :
    member request "request_id" = some (.str validated.requestId) := by
  unfold coerceValidatedRequest at h
  split at h
  · next hid _ _ =>
    obtain ⟨m, -, rfl⟩ := Option.map_eq_some_iff.mp h
    exact hid
  · next hid _ _ =>
    obtain ⟨m, -, rfl⟩ := Option.map_eq_some_iff.mp h
    exact hid
  · cases h

/-- A request with a valid id is answered with that id. -/
theorem envelope_handleRequest {protocol : RoutingControlProtocol} {state : RoutingState}
    {request : Members} {requestId : PyStr} (hid : member request "request_id" = some (.str requestId))
    (hne : requestId ≠ []) {response : Json}
    (h : (protocol.handleRequest state request).2 = .ok response) :
    Envelope (.str requestId) response := by
  have hvalid : validRequestIdOrNone request = .str requestId := by
    simp [validRequestIdOrNone, hid, hne]
  have hplain : Json.Plain (.str requestId) := trivial
  unfold RoutingControlProtocol.handleRequest at h
  split at h
  · next e hschema =>
    obtain rfl := Except.ok.inj h
    rw [hvalid]
    exact envelope_error hplain _ (hasCode_validateRequestSchema request e hschema)
  · split at h
    · cases h
    · next validated hcoerce =>
      have hsame := coerce_requestId hcoerce
      rw [hid, Option.some_inj, Json.str.injEq] at hsame
      rw [hsame]
      exact envelope_dispatch h

end AisMixer.Routing

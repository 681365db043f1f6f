import AisMixer.Routing.ControlResponses

/-!
# Atomicity of control requests

A call installs a snapshot before it encodes its response, so an installation whose status
cannot be encoded is reported as an exception. Apart from such calls the snapshot changes
exactly with the acknowledged updates, one generation each.
-/

namespace AisMixer.Routing

open AisMixer.Library AisMixer.Runtime

/-! ### What a call can do -/

/-- The request passes the validation, as `validated`. -/
def Validates (data : Bytes) (validated : ValidatedRequest) : Prop :=
  ∃ request, decodeJsonRequest data = .ok (some request) ∧ validateRequestSchema request = none ∧
    coerceValidatedRequest request = some validated

/-- The table that an update asks for: a compiled section, or none. -/
def requestedTable (service : RoutingControlService) (validated : ValidatedRequest) :
    Option (Option RoutingTable) :=
  match validated.method with
  | .replace => (member validated.params "routing").bind (fun routing =>
      (compileRoutingSection service.recursionBudget routing service.targetIdByName.mapping).toOption.map some)
  | .disable => some none
  | _ => none

def ValidatedRequest.expectedGeneration (validated : ValidatedRequest) : Option Int :=
  intParam validated.params "expected_generation"

/-- The request installs a snapshot: its section compiles and its generation is the current one. -/
def Installs (protocol : RoutingControlProtocol) (state : RoutingState) (data : Bytes)
    (validated : ValidatedRequest) (next : RoutingState) : Prop :=
  Validates data validated ∧ ∃ table, requestedTable protocol.service validated = some table ∧
    state.replace table validated.expectedGeneration = .ok next

/-- A request for one of the two methods that update the snapshot. -/
def isUpdate (data : Bytes) : Bool :=
  match decodeJsonRequest data with
  | .ok (some request) =>
    match member request "method" with
    | some (.str method) => method = Method.replace.name || method = Method.disable.name
    | _ => false
  | _ => false

lemma ofName_eq_some {s : PyStr} {m : Method} (h : Method.ofName s = some m) : s = m.name := by
  have hname := List.find?_some h
  simpa [eq_comm] using hname

lemma coerce_method {request : Members} {validated : ValidatedRequest}
    (h : coerceValidatedRequest request = some validated) :
    member request "method" = some (.str validated.method.name) := by
  unfold coerceValidatedRequest at h
  split at h
  · next hmethod _ =>
    obtain ⟨m, hm, rfl⟩ := Option.map_eq_some_iff.mp h
    rw [hmethod, ofName_eq_some hm]
  · next hmethod _ =>
    obtain ⟨m, hm, rfl⟩ := Option.map_eq_some_iff.mp h
    rw [hmethod, ofName_eq_some hm]
  · cases h

lemma name_injective : Function.Injective Method.name := by
  intro a b h
  cases a <;> cases b <;> first | rfl | exact absurd h (by decide)

lemma isUpdate_eq {data : Bytes} {request : Members} {validated : ValidatedRequest}
    (hdecode : decodeJsonRequest data = .ok (some request))
    (hcoerce : coerceValidatedRequest request = some validated) :
    isUpdate data = (validated.method = .replace ∨ validated.method = .disable) := by
  simp [isUpdate, hdecode, coerce_method hcoerce, name_injective.eq_iff]

lemma plain_validRequestIdOrNone (request : Members) : Json.Plain (validRequestIdOrNone request) := by
  unfold validRequestIdOrNone
  split
  · split <;> trivial
  · trivial

/-- An update that fails is not acknowledged. -/
lemma not_acknowledges_failure (isPrintable : CodePoint → Bool) (requestId : PyStr) (e : ControlError) :
    acknowledges ((updateResponse isPrintable requestId (.error e)).bind encodeJsonResponse) = false := by
  cases e with
  | staleGeneration expected actual =>
    exact not_acknowledges_error (plain_errorResponse (show Json.Plain (.str requestId) from trivial) _ _
      ⟨trivial, trivial, trivial⟩
      (show [str "code", str "message", str "expected_generation", str "actual_generation"].Nodup by decide))
  | candidateConfig message =>
    exact not_acknowledges_error (plain_errorResponse (show Json.Plain (.str requestId) from trivial) _ _ trivial
      (show [str "code", str "message"].Nodup by decide))
  | raised e => rfl

/-- The response to an installed snapshot. -/
def installedResponse (validated : ValidatedRequest) (next : RoutingState) : Json :=
  successResponse validated.requestId (statusResult (statusFromSnapshot next.snapshot))

/-- The result of an update: the new state with its status, or the old one and no
acknowledgement. -/
lemma dispatch_update (protocol : RoutingControlProtocol) (state : RoutingState)
    (validated : ValidatedRequest)
    (hmethod : validated.method = .replace ∨ validated.method = .disable) :
    (∃ table next, requestedTable protocol.service validated = some table ∧
      state.replace table validated.expectedGeneration = .ok next ∧
      protocol.dispatch state validated = (next, .ok (installedResponse validated next))) ∨
    ((∀ table next, requestedTable protocol.service validated = some table →
        state.replace table validated.expectedGeneration ≠ .ok next) ∧
      (protocol.dispatch state validated).1 = state ∧
      acknowledges ((protocol.dispatch state validated).2.bind encodeJsonResponse) = false) := by
  obtain ⟨requestId, method, params⟩ := validated
  rcases hmethod with rfl | rfl
  · cases hrouting : member params "routing" with
    | none => exact .inr ⟨by simp [requestedTable, hrouting],
        by simp [RoutingControlProtocol.dispatch, hrouting],
        by simp [RoutingControlProtocol.dispatch, hrouting, acknowledges, Except.bind]⟩
    | some routing =>
      cases hcompile : compileRoutingSection protocol.service.recursionBudget routing
          protocol.service.targetIdByName.mapping with
      | error e =>
        refine .inr ⟨by simp [requestedTable, hrouting, hcompile, Except.toOption], ?_, ?_⟩
        · simp [RoutingControlProtocol.dispatch, hrouting, RoutingControlService.replaceFromConfig,
            hcompile]
        · simp only [RoutingControlProtocol.dispatch, hrouting,
            RoutingControlService.replaceFromConfig, hcompile]
          exact not_acknowledges_failure _ _ _
      | ok table =>
        have hrequested : requestedTable protocol.service ⟨requestId, .replace, params⟩ =
            some (some table) := by
          simp [requestedTable, hrouting, hcompile, Except.toOption]
        cases hreplace : state.replace (some table) (intParam params "expected_generation") with
        | error e =>
          refine .inr ⟨?_, ?_, ?_⟩
          · intro table' next ht
            rw [hrequested] at ht
            rw [← Option.some_inj.mp ht, ValidatedRequest.expectedGeneration, hreplace]
            simp
          · simp [RoutingControlProtocol.dispatch, hrouting, RoutingControlService.replaceFromConfig,
              hcompile, hreplace]
          · simp only [RoutingControlProtocol.dispatch, hrouting,
              RoutingControlService.replaceFromConfig, hcompile, hreplace]
            exact not_acknowledges_failure _ _ _
        | ok next =>
          refine .inl ⟨some table, next, hrequested, hreplace, ?_⟩
          simp [RoutingControlProtocol.dispatch, hrouting, RoutingControlService.replaceFromConfig,
            hcompile, hreplace, updateResponse, installedResponse]
  · cases hreplace : state.replace none (intParam params "expected_generation") with
    | error e =>
      refine .inr ⟨?_, ?_, ?_⟩
      · intro table next ht
        rw [← Option.some_inj.mp ht, ValidatedRequest.expectedGeneration, hreplace]
        simp
      · simp [RoutingControlProtocol.dispatch, RoutingControlService.disable, hreplace]
      · simp only [RoutingControlProtocol.dispatch, RoutingControlService.disable, hreplace]
        exact not_acknowledges_failure _ _ _
    | ok next =>
      refine .inl ⟨none, next, rfl, hreplace, ?_⟩
      simp [RoutingControlProtocol.dispatch, RoutingControlService.disable, hreplace, updateResponse,
        installedResponse]

lemma dispatch_other (protocol : RoutingControlProtocol) (state : RoutingState)
    {validated : ValidatedRequest}
    (hmethod : ¬(validated.method = .replace ∨ validated.method = .disable)) :
    requestedTable protocol.service validated = none ∧ (protocol.dispatch state validated).1 = state := by
  obtain ⟨requestId, method, params⟩ := validated
  cases method with
  | replace => exact (hmethod (.inl rfl)).elim
  | disable => exact (hmethod (.inr rfl)).elim
  | status | runtimeStatistics | runtimeStatisticsInputs | runtimeStatisticsOutputs => exact ⟨rfl, rfl⟩

/-- A call installs a snapshot and then encodes its status, or it leaves the state as it is
and acknowledges no update. -/
theorem handleJson_cases (protocol : RoutingControlProtocol) (state : RoutingState) (data : Bytes) :
    (∃ validated next, Installs protocol state data validated next ∧ isUpdate data = true ∧
      protocol.handleJson state data = (next, encodeJsonResponse (installedResponse validated next))) ∨
    ((∀ validated next, ¬Installs protocol state data validated next) ∧
      (protocol.handleJson state data).1 = state ∧
      (isUpdate data = true → acknowledges (protocol.handleJson state data).2 = false)) := by
  cases hdecode : decodeJsonRequest data with
  | error e =>
    refine .inr ⟨?_, ?_, ?_⟩
    · rintro validated next ⟨⟨request, hrequest, -⟩, -⟩
      simp [hdecode] at hrequest
    · simp [RoutingControlProtocol.handleJson, hdecode]
    · simp [isUpdate, hdecode]
  | ok decoded =>
    cases decoded with
    | none =>
      refine .inr ⟨?_, ?_, ?_⟩
      · rintro validated next ⟨⟨request, hrequest, -⟩, -⟩
        simp [hdecode] at hrequest
      · simp [RoutingControlProtocol.handleJson, hdecode]
      · simp [isUpdate, hdecode]
    | some request =>
      cases hvalidate : validateRequestSchema request with
      | some e =>
        refine .inr ⟨?_, ?_, ?_⟩
        · rintro validated next ⟨⟨request', hrequest', hvalid, -⟩, -⟩
          obtain rfl : request = request' := by simpa [hdecode] using hrequest'
          rw [hvalidate] at hvalid
          cases hvalid
        · simp [RoutingControlProtocol.handleJson, hdecode, RoutingControlProtocol.handleRequest, hvalidate]
        · intro _
          simp only [RoutingControlProtocol.handleJson, hdecode, RoutingControlProtocol.handleRequest,
            hvalidate]
          exact not_acknowledges_error (plain_errorResponse (plain_validRequestIdOrNone request) _ _ trivial
            (show [str "code", str "message"].Nodup by decide))
      | none =>
        cases hcoerce : coerceValidatedRequest request with
        | none =>
          refine .inr ⟨?_, ?_, ?_⟩
          · rintro validated next ⟨⟨request', hrequest', -, hcoerced⟩, -⟩
            obtain rfl : request = request' := by simpa [hdecode] using hrequest'
            rw [hcoerce] at hcoerced
            cases hcoerced
          · simp [RoutingControlProtocol.handleJson, hdecode, RoutingControlProtocol.handleRequest,
              hvalidate, hcoerce]
          · intro _
            simp [RoutingControlProtocol.handleJson, hdecode, RoutingControlProtocol.handleRequest,
              hvalidate, hcoerce, Except.bind, acknowledges]
        | some validated =>
          have hvalid : Validates data validated := ⟨request, hdecode, hvalidate, hcoerce⟩
          have hunique : ∀ validated', Validates data validated' → validated' = validated := by
            rintro validated' ⟨request', hrequest', -, hcoerced⟩
            obtain rfl : request = request' := by simpa [hdecode] using hrequest'
            exact Option.some_inj.mp (hcoerced.symm.trans hcoerce)
          have hhandle : protocol.handleJson state data = ((protocol.dispatch state validated).1,
              (protocol.dispatch state validated).2.bind encodeJsonResponse) := by
            simp only [RoutingControlProtocol.handleJson, hdecode, RoutingControlProtocol.handleRequest,
              hvalidate, hcoerce]
          have hupdate := isUpdate_eq hdecode hcoerce
          by_cases hmethod : validated.method = .replace ∨ validated.method = .disable
          · rcases dispatch_update protocol state validated hmethod with
              ⟨table, next, hrequested, hreplace, hdispatch⟩ | ⟨hnone, hstate, hack⟩
            · refine .inl ⟨validated, next, ⟨hvalid, table, hrequested, hreplace⟩, ?_, ?_⟩
              · rw [hupdate]
                exact hmethod
              · rw [hhandle, hdispatch]
                rfl
            · refine .inr ⟨?_, by rw [hhandle]; exact hstate, fun _ => by rw [hhandle]; exact hack⟩
              rintro validated' next ⟨hvalid', table, hrequested, hreplace⟩
              rw [hunique validated' hvalid'] at hrequested hreplace
              exact hnone table next hrequested hreplace
          · obtain ⟨hrequested, hstate⟩ := dispatch_other protocol state hmethod
            refine .inr ⟨?_, by rw [hhandle]; exact hstate, ?_⟩
            · rintro validated' next ⟨hvalid', table, hrequested', -⟩
              rw [hunique validated' hvalid', hrequested] at hrequested'
              cases hrequested'
            · intro h
              exact absurd (hupdate ▸ h) hmethod

lemma Installs.unique {protocol : RoutingControlProtocol} {state next next' : RoutingState} {data : Bytes}
    {validated validated' : ValidatedRequest} (h : Installs protocol state data validated next)
    (h' : Installs protocol state data validated' next') : validated' = validated ∧ next' = next := by
  obtain ⟨⟨request, hdecode, -, hcoerce⟩, table, htable, hreplace⟩ := h
  obtain ⟨⟨request', hdecode', -, hcoerce'⟩, table', htable', hreplace'⟩ := h'
  obtain rfl : request = request' := by simpa [hdecode] using hdecode'
  obtain rfl : validated' = validated := Option.some_inj.mp (hcoerce'.symm.trans hcoerce)
  obtain rfl : table' = table := Option.some_inj.mp (htable'.symm.trans htable)
  exact ⟨rfl, Except.ok.inj (hreplace'.symm.trans hreplace)⟩

lemma Installs.snapshot {protocol : RoutingControlProtocol} {state next : RoutingState} {data : Bytes}
    {validated : ValidatedRequest} (h : Installs protocol state data validated next) :
    next.snapshot.generation = state.snapshot.generation + 1 ∧
      ∀ g, validated.expectedGeneration = some g → g = state.snapshot.generation := by
  obtain ⟨-, table, -, hreplace⟩ := h
  obtain ⟨hsnapshot, hexpected⟩ := RoutingState.replace_ok hreplace
  exact ⟨by rw [hsnapshot], hexpected⟩

lemma acknowledges_installed_iff (validated : ValidatedRequest) (next : RoutingState) :
    acknowledges (encodeJsonResponse (installedResponse validated next)) = true ↔
      hasSurrogate validated.requestId = false ∧ next.snapshot.CleanNames := by
  rw [← cleanNames_iff]
  constructor
  · intro h
    rw [← installedResponse, ← encodes_iff]
    cases hencode : encodeJsonResponse (installedResponse validated next) with
    | error e => simp [hencode, acknowledges] at h
    | ok bytes => exact ⟨bytes, rfl⟩
  · intro h
    obtain ⟨bytes, hbytes⟩ := (encodes_iff _).mpr h
    rw [installedResponse, hbytes]
    exact acknowledges_success (plain_statusResult _) hbytes

/-! ### Atomicity -/

/-- A call without an acknowledgement leaves the snapshot as it was. -/
def CallAtomic (protocol : RoutingControlProtocol) (state : RoutingState) (data : Bytes) : Prop :=
  acknowledges (protocol.handleJson state data).2 = false →
    (protocol.handleJson state data).1.snapshot = state.snapshot

/-- If the request installs a snapshot, its id and the names of the new table have no unpaired
surrogate. -/
def CleanCall (protocol : RoutingControlProtocol) (state : RoutingState) (data : Bytes) : Prop :=
  ∀ validated next, Installs protocol state data validated next →
    hasSurrogate validated.requestId = false ∧ next.snapshot.CleanNames

lemma callAtomic_iff (protocol : RoutingControlProtocol) (state : RoutingState) (data : Bytes) :
    CallAtomic protocol state data ↔ CleanCall protocol state data := by
  rcases handleJson_cases protocol state data with ⟨validated, next, hinstalls, -, hresult⟩ | ⟨hnone, hstate, -⟩
  · rw [CallAtomic, CleanCall, hresult]
    have hchanged : next.snapshot ≠ state.snapshot := by
      intro heq
      have hgen := hinstalls.snapshot.1
      rw [heq] at hgen
      omega
    constructor
    · intro hatomic validated' next' hinstalls'
      obtain ⟨rfl, rfl⟩ := hinstalls.unique hinstalls'
      rw [← acknowledges_installed_iff]
      by_contra hack
      exact hchanged (hatomic (Bool.eq_false_iff.mpr hack))
    · intro hclean hack
      rw [(acknowledges_installed_iff validated next).mpr (hclean validated next hinstalls)] at hack
      cases hack
  · constructor
    · intro _ validated next hinstalls
      exact (hnone validated next hinstalls).elim
    · intro _ _
      rw [hstate]

/-- The generation that a request carries. -/
def carriedGeneration (data : Bytes) : Option Int :=
  match decodeJsonRequest data with
  | .ok (some request) =>
    match member request "params" with
    | some (.obj params) => intParam params "expected_generation"
    | _ => none
  | _ => none

lemma carriedGeneration_eq {data : Bytes} {validated : ValidatedRequest} (h : Validates data validated) :
    carriedGeneration data = validated.expectedGeneration := by
  obtain ⟨request, hdecode, -, hcoerce⟩ := h
  unfold coerceValidatedRequest at hcoerce
  rw [carriedGeneration, hdecode]
  split at hcoerce
  · next hparams =>
    obtain ⟨m, -, rfl⟩ := Option.map_eq_some_iff.mp hcoerce
    simp only [hparams]
    rfl
  · next hparams =>
    obtain ⟨m, -, rfl⟩ := Option.map_eq_some_iff.mp hcoerce
    simp only [hparams]
    rfl
  · cases hcoerce

/-- An acknowledged update has moved the snapshot by one generation, from the one it expected. -/
lemma acknowledged_update {protocol : RoutingControlProtocol} {state : RoutingState} {data : Bytes}
    (hupdate : isUpdate data = true) (hack : acknowledges (protocol.handleJson state data).2 = true) :
    (protocol.handleJson state data).1.snapshot.generation = state.snapshot.generation + 1 ∧
      ∀ g, carriedGeneration data = some g → g = state.snapshot.generation := by
  rcases handleJson_cases protocol state data with ⟨validated, next, hinstalls, -, hresult⟩ | ⟨-, -, hnone⟩
  · rw [hresult, carriedGeneration_eq hinstalls.1]
    exact hinstalls.snapshot
  · rw [hnone hupdate] at hack
    cases hack

/-- A call that is no update leaves the state as it is. -/
lemma state_of_not_update {protocol : RoutingControlProtocol} {state : RoutingState} {data : Bytes}
    (hupdate : isUpdate data = false) : (protocol.handleJson state data).1 = state := by
  rcases handleJson_cases protocol state data with ⟨validated, next, -, htrue, -⟩ | ⟨-, hstate, -⟩
  · rw [hupdate] at htrue
    cases htrue
  · exact hstate

/-! ### Runs -/

/-- One request of a client, with what the statistics source answers at that time. -/
structure Call where
  statistics : RuntimeStatistics
  data : Bytes

def RoutingControlProtocol.at (protocol : RoutingControlProtocol) (call : Call) :
    RoutingControlProtocol :=
  { protocol with statistics := call.statistics }

/-- A handled call with the states around it. -/
structure Exchange where
  before : RoutingState
  call : Call
  after : RoutingState
  result : Except HandlerError Bytes

/-- The requests of any number of clients, in the order in which they are handled. -/
def RoutingControlProtocol.run (protocol : RoutingControlProtocol) :
    RoutingState → List Call → List Exchange × RoutingState
  | state, [] => ([], state)
  | state, call :: calls =>
    let (next, result) := (protocol.at call).handleJson state call.data
    let (exchanges, final) := protocol.run next calls
    (⟨state, call, next, result⟩ :: exchanges, final)

/-- The exchanges that acknowledge an update. -/
def Exchange.acknowledgesUpdate (x : Exchange) : Bool := isUpdate x.call.data && acknowledges x.result

lemma run_exchange {protocol : RoutingControlProtocol} {state : RoutingState} {calls : List Call}
    {x : Exchange} (hx : x ∈ (protocol.run state calls).1) :
    (protocol.at x.call).handleJson x.before x.call.data = (x.after, x.result) := by
  induction calls generalizing state with
  | nil => simp [RoutingControlProtocol.run] at hx
  | cons call calls ih =>
    rw [RoutingControlProtocol.run, List.mem_cons] at hx
    rcases hx with rfl | hx
    · rfl
    · exact ih hx

/-- One exchange moves the generation by its acknowledgement. -/
lemma generation_step {protocol : RoutingControlProtocol} {state : RoutingState} {call : Call}
    (hclean : CleanCall (protocol.at call) state call.data) :
    ((protocol.at call).handleJson state call.data).1.snapshot.generation =
      state.snapshot.generation + if isUpdate call.data &&
        acknowledges ((protocol.at call).handleJson state call.data).2 then 1 else 0 := by
  by_cases hupdate : isUpdate call.data = true
  · by_cases hack : acknowledges ((protocol.at call).handleJson state call.data).2 = true
    · rw [(acknowledged_update hupdate hack).1, hupdate, hack]
      rfl
    · rw [Bool.not_eq_true] at hack
      rw [(callAtomic_iff _ _ _).mpr hclean hack, hack, Bool.and_false]
      rfl
  · rw [Bool.not_eq_true] at hupdate
    rw [state_of_not_update hupdate, hupdate, Bool.false_and]
    rfl

lemma run_generation {protocol : RoutingControlProtocol} {state : RoutingState} {calls : List Call}
    (hclean : ∀ x ∈ (protocol.run state calls).1, CleanCall (protocol.at x.call) x.before x.call.data) :
    (protocol.run state calls).2.snapshot.generation = state.snapshot.generation +
      (protocol.run state calls).1.countP Exchange.acknowledgesUpdate := by
  induction calls generalizing state with
  | nil => rfl
  | cons call calls ih =>
    rw [RoutingControlProtocol.run] at hclean ⊢
    have hstep := generation_step (hclean _ (List.mem_cons_self ..))
    have hrest := ih (fun x hx => hclean x (List.mem_cons_of_mem _ hx))
    simp only at hstep hrest ⊢
    rw [hrest, hstep, List.countP_cons, Nat.add_assoc, Nat.add_comm (List.countP _ _)]
    rfl

/-- A call is atomic exactly when what it installs has an encodable status; every acknowledged
update moves the generation by one from the generation it expected; and over every run of
clean calls the generation counts the acknowledged updates. -/
theorem control_requests_atomic (protocol : RoutingControlProtocol) (state : RoutingState) :
    (∀ data, CallAtomic protocol state data ↔ CleanCall protocol state data) ∧
    ∀ calls, let exchanges := (protocol.run state calls).1
      (∀ x ∈ exchanges, x.acknowledgesUpdate = true →
        x.after.snapshot.generation = x.before.snapshot.generation + 1 ∧
        ∀ g, carriedGeneration x.call.data = some g → g = x.before.snapshot.generation) ∧
      ((∀ x ∈ exchanges, CleanCall (protocol.at x.call) x.before x.call.data) →
        (∀ x ∈ exchanges, acknowledges x.result = false → x.after.snapshot = x.before.snapshot) ∧
        (protocol.run state calls).2.snapshot.generation = state.snapshot.generation +
          exchanges.countP Exchange.acknowledgesUpdate) := by
  refine ⟨callAtomic_iff protocol state, ?_⟩
  intro calls exchanges
  constructor
  · intro x hx hack
    rw [Exchange.acknowledgesUpdate, Bool.and_eq_true] at hack
    have hresult := run_exchange hx
    have hupdate := @acknowledged_update (protocol.at x.call) x.before x.call.data hack.1
      (by rw [hresult]; exact hack.2)
    rwa [hresult] at hupdate
  · intro hclean
    refine ⟨?_, run_generation hclean⟩
    intro x hx hack
    have hresult := run_exchange hx
    have hatomic := (callAtomic_iff _ _ _).mpr (hclean x hx)
    rw [CallAtomic, hresult] at hatomic
    exact hatomic hack

/-! ### A request whose installation is not acknowledged -/

def idleQueue : QueueMetricsSnapshot where
  name := str "processing"
  capacity := 1
  depth := 0
  peakDepth := 0
  enqueued := 0
  dequeued := 0
  putWaits := 0
  currentPutWaiters := 0
  name_nonempty := by decide
  capacity_pos := le_refl 1
  depth_le_peak := le_refl 0
  peak_le_capacity := Nat.zero_le 1
  balance := rfl
  waiters_le := le_refl 0

def idleStatistics : RuntimeStatistics where
  runtime :=
    { ingressQueues := []
      processingQueue := idleQueue
      processor := ⟨0, 0, 0, 0, 0, 0, 0, 0, 0, 0, 0, rfl, rfl, le_refl 0, rfl⟩
      egressQueue := idleQueue
      egressOperations := ⟨0, 0, 0, 0, 0, 0, 0, 0, 0, 0, rfl, rfl⟩ }
  inputs := []
  outputs := []

/-- A protocol without targets. -/
def idleProtocol : RoutingControlProtocol where
  isPrintable _ := true
  service := ⟨⟨.empty, by simp, by simp⟩, 1000⟩
  statistics := idleStatistics

/-- `RoutingState()`. -/
def freshState : RoutingState := ⟨⟨0, none⟩, rfl⟩

def surrogateIdRequest : Bytes :=
  ascii "\x7b\"version\":1,\"request_id\":\"\\ud800\",\"method\":\"routing.disable\"\x7d"

/-- The snapshot is replaced and the response raises a `UnicodeEncodeError`. -/
theorem not_callAtomic : ¬CallAtomic idleProtocol freshState surrogateIdRequest := by
  unfold CallAtomic
  decide +kernel

end AisMixer.Routing

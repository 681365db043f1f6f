import AisMixer.DataPlane.ProcessorSteps
import AisMixer.Egress.Forwarder
import AisMixer.Runtime.WorkItems

/-!
# Targets from the forwarder to the egress stage

Four modules check numeric target ids on their own. The ids that the forwarder gave out are
below its number of destinations; a compiled plan has such ids only, after any sequence of
routing updates; a bound snapshot has the ids of the plan or all of them, and the processor
keeps a sublist of these. The egress check leaves such ids as they are.
-/

namespace AisMixer.Egress

open AisMixer.Library AisMixer.Routing AisMixer.Runtime

/-! ### The processor keeps a sublist -/

section Outputs

variable {cfg : ProcessorConfig} {env : Environment}

lemma decideTargets_scopes {message : LogicalKey} {targets : List Nat} {p p' : Processor}
    {decisions : List Decision} (h : Processor.decideTargets cfg env message targets p = (p', .ok decisions)) :
    decisions.map Decision.scope = targets.map some := by
  induction targets generalizing p p' decisions with
  | nil =>
    obtain ⟨-, hdecisions⟩ := Prod.mk.inj h
    rw [← Except.ok.inj hdecisions]
    rfl
  | cons target rest ih =>
    rw [Processor.decideTargets] at h
    split at h
    · simp at h
    · next q decision hcall =>
      split at h
      · simp at h
      · next q' decisions' hrest =>
        obtain ⟨-, hdecisions⟩ := Prod.mk.inj h
        have hscope : decision.scope = some target := by
          obtain ⟨unique, -, hunique⟩ := map_eq_ok_iff.mp (Prod.mk.inj hcall).2
          rw [← hunique]
        rw [← Except.ok.inj hdecisions, List.map_cons, List.map_cons, hscope, ih hrest]

lemma deduplicate_sublist {snapshot : ProcessingSnapshot} {message : LogicalKey} {p p' : Processor}
    {decisions : List Decision} {eligible : List Nat} {emitted : Bool}
    (h : Processor.deduplicate cfg env p snapshot message = (p', .ok (decisions, eligible, emitted))) :
    eligible.Sublist snapshot.targetIds := by
  rw [Processor.deduplicate] at h
  cases hmode : snapshot.deduplicationMode with
  | global =>
    simp only [hmode] at h
    split at h
    · simp at h
    · obtain ⟨-, hresult⟩ := Prod.mk.inj h
      obtain ⟨-, heligible, -⟩ := by simpa using hresult
      rw [← heligible]
  | perTarget =>
    simp only [hmode] at h
    split at h
    · simp at h
    · next q decisions' hdecide =>
      obtain ⟨-, hresult⟩ := Prod.mk.inj h
      obtain ⟨-, heligible, -⟩ := by simpa using hresult
      have hall : decisions'.filterMap Decision.scope = snapshot.targetIds := by
        have hscopes := congrArg (List.filterMap id) (decideTargets_scopes hdecide)
        simpa [List.filterMap_map] using hscopes
      rw [← heligible, ← hall]
      exact List.filter_sublist.filterMap Decision.scope

lemma emitLines_targets {fmt : Processor.LineFormat} {index : Nat} {lines : List PyStr} {p p' : Processor}
    {outputs : List ProcessorOutput}
    (h : Processor.emitLines cfg env fmt index lines p = (p', .ok outputs)) :
    ∀ output ∈ outputs, output.targetIds = fmt.targetIds := by
  have houtputs := Processor.emitLines_ok h
  intro output houtput
  obtain ⟨i, hi⟩ := List.mem_iff_getElem?.mp houtput
  have hlt : i < lines.length := by
    rw [← houtputs.length]
    exact (List.getElem?_eq_some_iff.mp hi).1
  obtain ⟨message, hmessage, -⟩ := houtputs.output i lines[i] (List.getElem?_eq_getElem hlt)
  rw [hi] at hmessage
  rw [Option.some_inj.mp hmessage]

lemma processSentence_targets {frame : IngressFrame} {snapshot : ProcessingSnapshot}
    {leadingS : Option PyStr} {p p' : Processor} {parsed : ParsedSentence} {report : SentenceReport}
    (h : Processor.processSentence cfg env frame snapshot leadingS p parsed = (p', .ok report)) :
    ∀ output ∈ report.outputs, output.targetIds.Sublist snapshot.targetIds := by
  obtain ⟨-, -, assembler, -, hcase⟩ := Processor.processSentence_ok h
  intro output houtput
  rcases hcase with ⟨-, emission, hemission, hemit⟩ | ⟨-, hemission, -⟩
  · obtain ⟨-, -, -, q, hdedup, q', hlines, -⟩ := Processor.emit_ok hemit
    rw [SentenceReport.outputs, hemission] at houtput
    rw [emitLines_targets hlines output houtput]
    exact deduplicate_sublist hdedup
  · rw [SentenceReport.outputs, hemission] at houtput
    cases houtput

lemma processSentences_targets {frame : IngressFrame} {snapshot : ProcessingSnapshot}
    {leadingS : Option PyStr} {sentences : List ParsedSentence} {p p' : Processor}
    {reports : List SentenceReport}
    (h : Processor.processSentences cfg env frame snapshot leadingS sentences p = (p', .ok reports)) :
    ∀ output ∈ Processor.batch reports, output.targetIds.Sublist snapshot.targetIds := by
  induction sentences generalizing p p' reports with
  | nil =>
    obtain ⟨-, hreports⟩ := Prod.mk.inj h
    rw [← Except.ok.inj hreports]
    simp [Processor.batch]
  | cons parsed rest ih =>
    rw [Processor.processSentences] at h
    split at h
    · simp at h
    · next q report hsentence =>
      split at h
      · simp at h
      · next q' reports' hrest =>
        obtain ⟨-, hreports⟩ := Prod.mk.inj h
        rw [← Except.ok.inj hreports]
        intro output houtput
        rw [Processor.batch, List.flatMap_cons, List.mem_append] at houtput
        rcases houtput with houtput | houtput
        · exact processSentence_targets hsentence output houtput
        · exact ih hrest output houtput

/-- Every output of a call is for targets of its snapshot, in their order. -/
theorem process_targets {frame : IngressFrame} {snapshot : ProcessingSnapshot} {p p' : Processor}
    {reports : List SentenceReport}
    (h : Processor.process cfg env p frame snapshot = (p', .ok reports)) :
    ∀ output ∈ Processor.batch reports, output.targetIds.Sublist snapshot.targetIds := by
  rw [Processor.process] at h
  split at h
  · simp at h
  · next q reports' himpl =>
    obtain ⟨-, hreports⟩ := Prod.mk.inj h
    obtain rfl := Except.ok.inj hreports
    rw [Processor.processImpl] at himpl
    split at himpl
    · simp at himpl
    · simp at himpl
    · exact processSentences_targets himpl

end Outputs

/-! ### Routing updates keep the bound -/

/-- The mapping that the forwarder gives to the routing modules. -/
def Forwarder.mapping (forwarder : Forwarder) : Dict PyStr Int :=
  forwarder.targetIdByName.mapValues Int.ofNat

/-- A call of the routing control service that can change the state. -/
inductive RoutingOperation where
  | replace (routingConfig : Json) (expectedGeneration : Option Int)
  | disable (expectedGeneration : Option Int)

def applyOperation (service : RoutingControlService) (state : RoutingState) :
    RoutingOperation → RoutingState
  | .replace routingConfig expectedGeneration =>
    (service.replaceFromConfig state routingConfig expectedGeneration).1
  | .disable expectedGeneration => (RoutingControlService.disable state expectedGeneration).1

def applyOperations (service : RoutingControlService) (state : RoutingState)
    (operations : List RoutingOperation) : RoutingState :=
  operations.foldl (applyOperation service) state

lemma compile_below {budget : Nat} {routingConfig : Json} {targetIdByName : Dict PyStr Int}
    {table : RoutingTable} {bound : Nat} (hids : ∀ name id, targetIdByName.get? name = some id → id < bound)
    (h : compileRoutingSection budget routingConfig targetIdByName = .ok table) : PlanBelow bound table := by
  obtain ⟨definitions, base, frozen, hparts, rfl⟩ := compileRoutingSection_ok h
  intro routes hroutes route hroute id hid
  obtain rfl := Option.some_inj.mp hroutes
  obtain ⟨definition, -, rfl⟩ := List.mem_map.mp hroute
  obtain ⟨name, -, hname⟩ := List.mem_filterMap.mp hid
  have hget : targetIdByName.get? name = some (id : Int) := by
    rw [← hparts.mapping, FrozenTargetIds.mapping, Dict.get?_mapValues, hname]
    rfl
  exact Int.ofNat_lt.mp (hids name id hget)

lemma applyOperation_below {service : RoutingControlService} {state : RoutingState} {bound : Nat}
    (hids : ∀ name id, service.targetIdByName.mapping.get? name = some id → id < bound)
    (hstate : TargetsBelow bound state) (operation : RoutingOperation) :
    TargetsBelow bound (applyOperation service state operation) := by
  cases operation with
  | replace routingConfig expectedGeneration =>
    rw [applyOperation, RoutingControlService.replaceFromConfig]
    split
    · exact hstate
    · next candidate hcompile =>
      split
      · exact hstate
      · next state' hreplace =>
        intro table htable
        rw [(RoutingState.replace_ok hreplace).1] at htable
        rw [← Option.some_inj.mp htable]
        exact compile_below hids hcompile
  | disable expectedGeneration =>
    rw [applyOperation, RoutingControlService.disable]
    split
    · exact hstate
    · next state' hreplace =>
      intro table htable
      rw [(RoutingState.replace_ok hreplace).1] at htable
      cases htable

lemma applyOperations_below {service : RoutingControlService} {state : RoutingState} {bound : Nat}
    (hids : ∀ name id, service.targetIdByName.mapping.get? name = some id → id < bound)
    (hstate : TargetsBelow bound state) (operations : List RoutingOperation) :
    TargetsBelow bound (applyOperations service state operations) := by
  induction operations generalizing state with
  | nil => exact hstate
  | cons operation operations ih => exact ih (applyOperation_below hids hstate operation)

/-! ### From the configuration to the egress check -/

lemma Forwarder.mapping_below (forwarder : Forwarder) :
    ∀ name id, forwarder.mapping.get? name = some id → id < forwarder.destinations.length := by
  intro name id hget
  rw [Forwarder.mapping, Dict.get?_mapValues] at hget
  obtain ⟨id', hid', rfl⟩ := Option.map_eq_some_iff.mp hget
  exact Int.ofNat_lt.mpr (forwarder.registered.below name id' hid')

/-- The names of a forwarder as a frozen mapping. -/
def Forwarder.frozen (forwarder : Forwarder) : FrozenTargetIds where
  idByName := forwarder.targetIdByName
  nonempty := forwarder.registered.nonempty
  injective := forwarder.registered.injective

lemma Forwarder.service_init (forwarder : Forwarder) (budget : Nat) :
    RoutingControlService.init budget forwarder.mapping = .ok ⟨forwarder.frozen, budget⟩ := by
  have hfreeze : freezeTargetIdByName forwarder.mapping = .ok forwarder.frozen :=
    freeze_ok_iff.mpr rfl
  rw [RoutingControlService.init, hfreeze]
  rfl

lemma loadOptional_compiled {budget : Nat} {config : Json} {targetIdByName : Dict PyStr Int}
    {table : Option RoutingTable} (h : loadOptionalRoutingTable budget config targetIdByName = .ok table) :
    table = none ∨ ∃ routingConfig compiled, table = some compiled ∧
      compileRoutingSection budget routingConfig targetIdByName = .ok compiled := by
  obtain ⟨frozen, hfreeze, h⟩ := bind_eq_ok_iff.mp h
  rw [freeze_ok_iff.mp hfreeze] at h
  split at h
  · exact .inl (Except.ok.inj h).symm
  · exact .inl (Except.ok.inj h).symm
  · next routingConfig _ _ =>
    obtain ⟨compiled, hcompile, rfl⟩ := map_eq_ok_iff.mp h
    exact .inr ⟨routingConfig, compiled, rfl, hcompile⟩

lemma loadOptional_state {budget : Nat} {config : Json} {targetIdByName : Dict PyStr Int} {bound : Nat}
    (hids : ∀ name id, targetIdByName.get? name = some id → id < bound) {table : Option RoutingTable}
    (h : loadOptionalRoutingTable budget config targetIdByName = .ok table) :
    ∃ state, RoutingState.init table = .ok state ∧ TargetsBelow bound state := by
  have hvalid : validTable table = true := by
    rcases loadOptional_compiled h with rfl | ⟨routingConfig, compiled, rfl, hcompile⟩
    · rfl
    · obtain ⟨definitions, base, frozen, -, rfl⟩ := compileRoutingSection_ok hcompile
      rfl
  refine ⟨⟨⟨0, table⟩, hvalid⟩, by rw [RoutingState.init, dif_pos hvalid], ?_⟩
  intro compiled hcompiled
  rcases loadOptional_compiled h with rfl | ⟨routingConfig, compiled', rfl, hcompile⟩
  · cases hcompiled
  · rw [← Option.some_inj.mp hcompiled]
    exact compile_below hids hcompile

/-- For every forwarder that the constructor can make, no sequence of routing updates makes a
frame fail to be bound, or an output of a bound frame fail or change in the egress check, however deep the
zones of the initial table and of the updates may nest. -/
theorem routing_updates_safe (forwarder : Forwarder) (config : Json) (initialBudget budget : Nat)
    (initialTable : Option RoutingTable)
    (htable : loadOptionalRoutingTable initialBudget config forwarder.mapping = .ok initialTable) :
    ∃ service state, RoutingControlService.init budget forwarder.mapping = .ok service ∧
      RoutingState.init initialTable = .ok state ∧
      ∀ (operations : List RoutingOperation) (frame : IngressFrame), ∃ item,
        bindProcessingWorkItem frame (some (applyOperations service state operations))
          forwarder.allTargetIds = .ok item ∧ item.frame = frame ∧
        ∀ (cfg : ProcessorConfig) (env : Environment) (p p' : Processor) (reports : List SentenceReport),
          Processor.process cfg env p item.frame item.snapshot = (p', .ok reports) →
          ∀ output ∈ Processor.batch reports,
            validateNumericTargetIds (output.targetIds.map Int.ofNat) forwarder.destinations.length =
              .ok (output.targetIds.map Int.ofNat) := by
  obtain ⟨state, hstate, hbelow⟩ := loadOptional_state forwarder.mapping_below htable
  refine ⟨⟨forwarder.frozen, budget⟩, state, forwarder.service_init budget, hstate, ?_⟩
  intro operations frame
  have hreached := @applyOperations_below ⟨forwarder.frozen, budget⟩ _ _ forwarder.mapping_below hbelow operations
  obtain ⟨item, hitem, hframe, -, hids⟩ := bind_below hreached frame
  refine ⟨item, hitem, hframe, ?_⟩
  intro cfg env p p' reports hprocess output houtput
  have hsublist := process_targets hprocess output houtput
  apply validate_unchanged
  · exact (hsublist.nodup item.snapshot.nodup).map Int.ofNat_injective
  · intro id hid
    obtain ⟨id', hid', rfl⟩ := List.mem_map.mp hid
    exact ⟨Int.natCast_nonneg id', Int.ofNat_lt.mpr (hids id' (hsublist.subset hid'))⟩

def harbourEntry (id : PyStr) (port : Int) : TargetEntry := ⟨str "localhost", port, some id, none⟩

def harbourEntries : List TargetEntry :=
  [harbourEntry (str "x") 5001, harbourEntry (str "y") 5002, harbourEntry (str "z") 5003]

def harbourFrame : IngressFrame where
  kind := str "udp"
  sourceId := str "a"
  aliasForS := none
  remoteIp := none
  assemblerKey := str "a"
  payload := ascii "!AIVDM,1,1,,A,0,0*27"

def harbourOperations : List RoutingOperation := [.disable none, .replace harbourSection (some 1)]

theorem routing_updates_safe_harbour :
    ∃ forwarder service state item, Forwarder.init (fun _ => none) harbourEntries = .ok forwarder ∧
      RoutingControlService.init 1000 forwarder.mapping = .ok service ∧ RoutingState.init none = .ok state ∧
      bindProcessingWorkItem harbourFrame (some (applyOperations service state harbourOperations))
        forwarder.allTargetIds = .ok item ∧
      ∀ (cfg : ProcessorConfig) (env : Environment) (p p' : Processor) (reports : List SentenceReport),
        Processor.process cfg env p harbourFrame item.snapshot = (p', .ok reports) →
        ∀ output ∈ Processor.batch reports,
          validateNumericTargetIds (output.targetIds.map Int.ofNat) 3 =
            .ok (output.targetIds.map Int.ofNat) := by
  have hcount : (Forwarder.init (fun _ => none) harbourEntries).toOption.map
      (fun forwarder => forwarder.destinations.length) = some 3 := by decide +kernel
  cases hforwarder : Forwarder.init (fun _ => none) harbourEntries with
  | error e => simp [hforwarder, Except.toOption] at hcount
  | ok forwarder =>
    have hload : loadOptionalRoutingTable 1000 (.obj []) forwarder.mapping = .ok none := by
      have hfreeze : freezeTargetIdByName forwarder.mapping = .ok forwarder.frozen :=
        freeze_ok_iff.mpr rfl
      simp only [loadOptionalRoutingTable, hfreeze, Bind.bind, Except.bind]
      rfl
    obtain ⟨service, state, hservice, hstate, hall⟩ :=
      routing_updates_safe forwarder (.obj []) 1000 1000 none hload
    obtain ⟨item, hitem, hframe, hsafe⟩ := hall harbourOperations harbourFrame
    have hlength : forwarder.destinations.length = 3 := by
      simpa [hforwarder, Except.toOption] using hcount
    rw [hframe, hlength] at hsafe
    exact ⟨forwarder, service, state, item, rfl, hservice, hstate, hitem, hsafe⟩

end AisMixer.Egress

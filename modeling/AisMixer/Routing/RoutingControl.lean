import AisMixer.Routing.RoutingTable

/-!
# Routing state and its control service

`core/routing_state.py` and `core/routing_control.py`: the snapshot of a running process,
replaced as a whole under a generation check, and the service that compiles candidate
sections before it installs them. A state holds compiled tables only.
-/

namespace AisMixer.Routing

open Library

structure RoutingSnapshot where
  generation : Nat
  table : Option RoutingTable
  deriving DecidableEq

/-- `has_compiled_target_plan`. -/
def RoutingTable.hasCompiledTargetPlan (table : RoutingTable) : Bool :=
  table.compiledTargetRoutes.isSome

/-- The check `_validate_table` of a table or `None`. -/
def validTable (table : Option RoutingTable) : Bool := table.all RoutingTable.hasCompiledTargetPlan

/-- The holder of the snapshot; what it holds has passed `_validate_table`. -/
structure RoutingState where
  snapshot : RoutingSnapshot
  valid : validTable snapshot.table = true

def uncompiledTable : RoutingError :=
  ⟨.valueError, [lit "RoutingState requires a compiled numeric target plan; ",
    lit "call RoutingTable.compile_target_ids() before installation."]⟩

/-- The exceptions that leave the control service. -/
inductive ControlError where
  | staleGeneration (expected : Int) (actual : Nat)
  | candidateConfig (message : Message)
  | raised (e : RoutingError)

namespace RoutingState

def init (initialTable : Option RoutingTable) : Except RoutingError RoutingState :=
  if h : validTable initialTable = true then .ok ⟨⟨0, initialTable⟩, h⟩ else .error uncompiledTable

def replace (state : RoutingState) (table : Option RoutingTable) (expectedGeneration : Option Int) :
    Except ControlError RoutingState :=
  if h : validTable table = true then
    match expectedGeneration with
    | some expected =>
      if expected ≠ state.snapshot.generation then
        .error (.staleGeneration expected state.snapshot.generation)
      else .ok ⟨⟨state.snapshot.generation + 1, table⟩, h⟩
    | none => .ok ⟨⟨state.snapshot.generation + 1, table⟩, h⟩
  else .error (.raised uncompiledTable)

/-- A replacement that succeeds installs the table under the next generation. -/
lemma replace_ok {state next : RoutingState} {table : Option RoutingTable} {expected : Option Int}
    (h : state.replace table expected = .ok next) :
    next.snapshot = ⟨state.snapshot.generation + 1, table⟩ ∧
      ∀ g, expected = some g → g = state.snapshot.generation := by
  unfold replace at h
  split at h
  · cases expected with
    | none =>
      obtain rfl := Except.ok.inj h
      exact ⟨rfl, by simp⟩
    | some g =>
      simp only at h
      split at h
      · cases h
      · next hg =>
        obtain rfl := Except.ok.inj h
        refine ⟨rfl, ?_⟩
        intro g' hg'
        rw [← Option.some_inj.mp hg']
        exact not_not.mp hg
  · cases h

end RoutingState

/-- A stable view of a snapshot. -/
structure RoutingControlStatus where
  generation : Nat
  enabled : Bool
  zoneNames : List PyStr
  routeNames : List PyStr
  targetIds : List PyStr
  deriving DecidableEq

def targetIdsFromRoutes (table : RoutingTable) : List PyStr :=
  (table.routeDefinitions.foldl (fun acc route => appendUnseen route.targets acc) ([], ∅)).1

def statusFromSnapshot (snapshot : RoutingSnapshot) : RoutingControlStatus :=
  match snapshot.table with
  | none => ⟨snapshot.generation, false, [], [], []⟩
  | some table =>
    ⟨snapshot.generation, true, table.resolvedZones.keys,
      table.routeDefinitions.map RouteDefinition.name, targetIdsFromRoutes table⟩

/-- The classes that `replace_from_config` turns into a candidate error. -/
def ErrorKind.isCandidate : ErrorKind → Bool
  | .runtimeRoutingConfigError | .zoneResolutionError | .unknownZoneError
  | .circularZoneReferenceError | .typeError | .valueError => true
  | .runtimeError | .assertionError | .recursionError => false

/-- A `RoutingControlService` without the state that it shares. -/
structure RoutingControlService where
  targetIdByName : FrozenTargetIds
  /-- How many zones the recursion limit has room to evaluate inside one another when a section is compiled. -/
  recursionBudget : Nat

namespace RoutingControlService

def init (recursionBudget : Nat) (targetIdByName : Dict PyStr Int) :
    Except RoutingError RoutingControlService :=
  (freezeTargetIdByName targetIdByName).map (fun frozen => ⟨frozen, recursionBudget⟩)

def status (state : RoutingState) : RoutingControlStatus := statusFromSnapshot state.snapshot

def replaceFromConfig (service : RoutingControlService) (state : RoutingState) (routingConfig : Json)
    (expectedGeneration : Option Int) : RoutingState × Except ControlError RoutingControlStatus :=
  match compileRoutingSection service.recursionBudget routingConfig service.targetIdByName.mapping with
  | .error e =>
    (state, .error (if e.kind.isCandidate then .candidateConfig e.message else .raised e))
  | .ok candidateTable =>
    match state.replace (some candidateTable) expectedGeneration with
    | .error e => (state, .error e)
    | .ok next => (next, .ok (statusFromSnapshot next.snapshot))

def disable (state : RoutingState) (expectedGeneration : Option Int) :
    RoutingState × Except ControlError RoutingControlStatus :=
  match state.replace none expectedGeneration with
  | .error e => (state, .error e)
  | .ok next => (next, .ok (statusFromSnapshot next.snapshot))

end RoutingControlService

end AisMixer.Routing

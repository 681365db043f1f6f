import AisMixer.Library.FirstOccurrence
import AisMixer.Routing.TargetIdentity

/-!
# Routing tables

`core/routing.py` and `core/runtime_routing.py`: route definitions, the compiled
`RoutingTable` with its descriptive and its numeric matcher, and the compilation of a
routing section. A table carries the fact that every route starts at a zone it resolves.
-/

namespace AisMixer.Routing

open Library

/-! ### Definitions from plain values -/

/-- A route from a zone to targets; `targets` is the field `to`. -/
structure RouteDefinition where
  name : PyStr
  fromZone : ZoneName
  targets : List TargetId
  deriving DecidableEq

inductive RouteConfig where
  | definition (r : RouteDefinition)
  | value (v : Json)

def missingRouteField (fieldName : PyStr) : RoutingError :=
  ⟨.valueError, [lit "Route is missing required field ", .repr fieldName, lit "."]⟩

/-- The constructor `RouteDefinition(name=…, from_zone=…, to=…)` with the checks before it. -/
def makeRouteDefinition (name fromZone targets : Json) : Except RoutingError RouteDefinition :=
  match name, fromZone with
  | .str name, .str fromZone =>
    match targets with
    | .arr items => (asStringTuple (.arr items) (str "to")).map (fun targets => ⟨name, fromZone, targets⟩)
    | _ => .error ⟨.typeError, [lit "Route 'to' must be a sequence of strings."]⟩
  | _, _ => .error ⟨.typeError, [lit "Route 'name' and 'from_zone' values must be strings."]⟩

def coerceRouteDefinition : RouteConfig → Except RoutingError RouteDefinition
  | .definition route => .ok route
  | .value (.obj members) =>
    let unknown := unknownFields [str "name", str "from_zone", str "to"] members
    if unknown ≠ [] then
      .error ⟨.valueError, [lit "Route has unknown field(s): ", .text (join (str ", ") unknown), lit "."]⟩
    else do
      let name ← orRaise (missingRouteField (str "name")) (Dict.lookupEntries (str "name") members)
      let fromZone ← orRaise (missingRouteField (str "from_zone"))
        (Dict.lookupEntries (str "from_zone") members)
      let targets ← orRaise (missingRouteField (str "to")) (Dict.lookupEntries (str "to") members)
      makeRouteDefinition name fromZone targets
  | .value _ => .error ⟨.typeError, [lit "Routes must be mappings or RouteDefinition instances."]⟩

/-- The loop of `load_zone_definitions`. -/
def loadZones : List (PyStr × Json) → Dict ZoneName ZoneDefinition →
    Except RoutingError (Dict ZoneName ZoneDefinition)
  | [], definitions => .ok definitions
  | (name, value) :: members, definitions => do
    let definition ← coerceZoneDefinition name (.value value)
    let _ ← zoneExpression name definition
    loadZones members (definitions.set name definition)

def loadZoneDefinitions : Json → Except RoutingError (Dict ZoneName ZoneDefinition)
  | .obj members => loadZones members .empty
  | _ => .error ⟨.typeError, [lit "Zones config must be a mapping."]⟩

def loadRouteDefinitions : Json → Except RoutingError (List RouteDefinition)
  | .arr routes => routes.mapM (fun route => coerceRouteDefinition (.value route))
  | _ => .error ⟨.typeError, [lit "Routes config must be a sequence."]⟩

/-! ### Tables -/

structure CompiledTargetRoute where
  sourceIds : Finset SourceId
  targetIds : List EgressTargetId
  deriving DecidableEq

/-- A compiled snapshot of zones and ordered routes. -/
structure RoutingTable where
  resolvedZones : ResolvedZones
  routeDefinitions : List RouteDefinition
  compiledTargetRoutes : Option (List CompiledTargetRoute)
  zonesKnown : ∀ route ∈ routeDefinitions, route.fromZone ∈ resolvedZones.keys
  deriving DecidableEq

def unknownRouteZone (route : RouteDefinition) : RoutingError :=
  ⟨.unknownZoneError,
    [lit "Route ", .repr route.name, lit " references unknown zone ", .repr route.fromZone, lit "."]⟩

def validateRouteZoneReferences (resolvedZones : ResolvedZones) :
    List RouteDefinition → Except RoutingError Unit
  | [] => .ok ()
  | route :: routes =>
    if resolvedZones.contains route.fromZone then validateRouteZoneReferences resolvedZones routes
    else .error (unknownRouteZone route)

lemma validate_ok_iff {resolvedZones : ResolvedZones} {routes : List RouteDefinition} :
    validateRouteZoneReferences resolvedZones routes = .ok () ↔
      ∀ route ∈ routes, route.fromZone ∈ resolvedZones.keys := by
  induction routes with
  | nil => simp [validateRouteZoneReferences]
  | cons route routes ih =>
    rw [validateRouteZoneReferences, List.forall_mem_cons, ← Dict.contains_iff, ← ih]
    by_cases h : resolvedZones.contains route.fromZone = true
    · simp [h]
    · simp [h]

namespace RoutingTable

/-- The constructor, whose `__post_init__` checks the zones of the routes. -/
def create (resolvedZones : ResolvedZones) (routeDefinitions : List RouteDefinition) :
    Except RoutingError RoutingTable :=
  match h : validateRouteZoneReferences resolvedZones routeDefinitions with
  | .ok () => .ok ⟨resolvedZones, routeDefinitions, none, validate_ok_iff.mp h⟩
  | .error e => .error e

def fromConfig (recursionBudget : Nat) (zonesConfig routesConfig : Json) : Except RoutingError RoutingTable := do
  let zoneDefinitions ← loadZoneDefinitions zonesConfig
  let routeDefinitions ← loadRouteDefinitions routesConfig
  let resolvedZones ← resolveZones recursionBudget (zoneDefinitions.mapValues .definition)
  create resolvedZones routeDefinitions

end RoutingTable

/-! ### Matching -/

/-- Ordered route names and unique target ids. -/
structure RoutingResult where
  routeNames : List PyStr
  targetIds : List TargetId
  deriving DecidableEq

/-- The loop of `match_routes`. -/
def matchRoutesLoop (sourceId : SourceId) (resolvedZones : ResolvedZones) :
    List RouteConfig → List PyStr → List TargetId × Finset TargetId →
    Except RoutingError RoutingResult
  | [], routeNames, acc => .ok ⟨routeNames, acc.1⟩
  | rawRoute :: routes, routeNames, acc => do
    let route ← coerceRouteDefinition rawRoute
    match resolvedZones.get? route.fromZone with
    | none => .error (unknownRouteZone route)
    | some sourceIds =>
      if sourceId ∈ sourceIds then
        matchRoutesLoop sourceId resolvedZones routes (routeNames ++ [route.name])
          (appendUnseen route.targets acc)
      else matchRoutesLoop sourceId resolvedZones routes routeNames acc

def matchRoutes (sourceId : SourceId) (resolvedZones : ResolvedZones) (routes : List RouteConfig) :
    Except RoutingError RoutingResult :=
  matchRoutesLoop sourceId resolvedZones routes [] ([], ∅)

/-- The loop of `match_target_ids`. -/
def matchTargetsLoop (sourceId : SourceId) :
    List CompiledTargetRoute → List EgressTargetId × Finset EgressTargetId → List EgressTargetId
  | [], acc => acc.1
  | route :: routes, acc =>
    if sourceId ∈ route.sourceIds then
      matchTargetsLoop sourceId routes (appendUnseen route.targetIds acc)
    else matchTargetsLoop sourceId routes acc

namespace RoutingTable

/-- `RoutingTable.match`. -/
def matchSource (table : RoutingTable) (sourceId : SourceId) : Except RoutingError RoutingResult :=
  matchRoutes sourceId table.resolvedZones (table.routeDefinitions.map .definition)

def matchTargetIds (table : RoutingTable) (sourceId : SourceId) :
    Except RoutingError (List EgressTargetId) :=
  match table.compiledTargetRoutes with
  | none =>
    .error ⟨.runtimeError, [lit "RoutingTable has no compiled numeric target plan; ",
      lit "call compile_target_ids() first."]⟩
  | some compiledTargetRoutes => .ok (matchTargetsLoop sourceId compiledTargetRoutes ([], ∅))

/-- The target names of the routes that have no numeric id, sorted. -/
def unknownTargets (table : RoutingTable) (frozen : FrozenTargetIds) : List TargetId :=
  sortedNames ((table.routeDefinitions.flatMap RouteDefinition.targets).filter
    (fun name => !frozen.idByName.contains name)).dedup

/-- One route of the numeric plan; its zone is resolved by `zonesKnown`. -/
def compileRoute (table : RoutingTable) (frozen : FrozenTargetIds) (route : RouteDefinition) :
    CompiledTargetRoute where
  sourceIds := (table.resolvedZones.get? route.fromZone).getD ∅
  targetIds := route.targets.filterMap frozen.idByName.get?

def compileTargetIds (table : RoutingTable) (targetIdByName : Dict PyStr Int) :
    Except RoutingError RoutingTable := do
  let frozen ← freezeTargetIdByName targetIdByName
  let unknown := table.unknownTargets frozen
  if unknown ≠ [] then
    .error ⟨.valueError, [lit "Routing target name(s) are unavailable or unsupported: ",
      .text (join (str ", ") unknown), lit "."]⟩
  else do
    let compiledTable ← create table.resolvedZones table.routeDefinitions
    return { compiledTable with
      compiledTargetRoutes := some (table.routeDefinitions.map (table.compileRoute frozen)) }

end RoutingTable

/-! ### The routing section -/

def validateAvailableTargets (table : RoutingTable) (frozen : FrozenTargetIds) :
    Except RoutingError Unit :=
  let unknown := table.unknownTargets frozen
  if unknown ≠ [] then
    .error ⟨.runtimeRoutingConfigError, [lit "Routing target ID(s) are unavailable or unsupported: ",
      .text (join (str ", ") unknown), lit "."]⟩
  else .ok ()

def sectionFields : List PyStr := [str "zones", str "routes"]

/-- `compile_routing_section`, with room to evaluate so many zones inside one another. -/
def compileRoutingSection (recursionBudget : Nat) (routingConfig : Json) (targetIdByName : Dict PyStr Int) :
    Except RoutingError RoutingTable :=
  match routingConfig with
  | .obj members => do
    let frozen ← freezeTargetIdByName targetIdByName
    let unknown := unknownFields sectionFields members
    let missing := sortedNames (sectionFields.filter (fun field => field ∉ members.map Prod.fst))
    if unknown ≠ [] then
      .error ⟨.runtimeRoutingConfigError, [lit "'routing' config has unknown field(s): ",
        .text (join (str ", ") unknown), lit "."]⟩
    else
      match Dict.lookupEntries (str "zones") members, Dict.lookupEntries (str "routes") members with
      | some zones, some routes => do
        let table ← RoutingTable.fromConfig recursionBudget zones routes
        validateAvailableTargets table frozen
        table.compileTargetIds frozen.mapping
      | _, _ =>
        .error ⟨.runtimeRoutingConfigError, [lit "'routing' config is missing required field(s): ",
          .text (join (str ", ") missing), lit "."]⟩
  | _ => .error ⟨.runtimeRoutingConfigError, [lit "'routing' config must be a mapping."]⟩

/-- `load_optional_routing_table`. -/
def loadOptionalRoutingTable (recursionBudget : Nat) (config : Json) (targetIdByName : Dict PyStr Int) :
    Except RoutingError (Option RoutingTable) := do
  let frozen ← freezeTargetIdByName targetIdByName
  match config.get? (str "routing") with
  | none => return none
  | some .null => return none
  | some routingConfig => (compileRoutingSection recursionBudget routingConfig frozen.mapping).map some

end AisMixer.Routing

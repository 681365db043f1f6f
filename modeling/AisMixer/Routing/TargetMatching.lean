import AisMixer.Routing.RoutingTable
import AisMixer.Routing.ZoneResolution

/-!
# The numeric matcher and the descriptive one

Both matchers collect the targets of the routes whose zone holds the source, each target
at its first occurrence. The names and the numbers agree because a frozen mapping gives no
number to two names.
-/

namespace AisMixer.Routing

open Library

/-! ### The two matchers on a table -/

namespace RoutingTable

/-- The routes that match a source. -/
def matching (table : RoutingTable) (sourceId : SourceId) : List RouteDefinition :=
  table.routeDefinitions.filter
    (fun route => sourceId ∈ (table.resolvedZones.get? route.fromZone).getD ∅)

/-- The table with its numeric plan. -/
def withPlan (table : RoutingTable) (frozen : FrozenTargetIds) : RoutingTable :=
  { table with
    compiledTargetRoutes := some (table.routeDefinitions.map (table.compileRoute frozen)) }

end RoutingTable

lemma matchRoutesLoop_eq {sourceId : SourceId} {resolvedZones : ResolvedZones}
    {routes : List RouteDefinition} (hknown : ∀ route ∈ routes, route.fromZone ∈ resolvedZones.keys)
    {targets : List TargetId} {acc : List TargetId × Finset TargetId} (hacc : Collected targets acc)
    (routeNames : List PyStr) :
    let matched := routes.filter (fun r => sourceId ∈ (resolvedZones.get? r.fromZone).getD ∅)
    matchRoutesLoop sourceId resolvedZones (routes.map .definition) routeNames acc =
      .ok ⟨routeNames ++ matched.map RouteDefinition.name,
        firstOccurrences (targets ++ matched.flatMap RouteDefinition.targets)⟩ := by
  induction routes generalizing targets acc routeNames with
  | nil =>
    obtain ⟨hout, -⟩ := hacc
    simp [matchRoutesLoop, hout]
  | cons route routes ih =>
    have hrest : ∀ r ∈ routes, r.fromZone ∈ resolvedZones.keys :=
      fun r hr => hknown r (List.mem_cons_of_mem _ hr)
    obtain ⟨sourceIds, hget⟩ := (Dict.mem_keys_iff _ _).mp (hknown route (by simp))
    rw [List.map_cons, matchRoutesLoop]
    simp only [coerceRouteDefinition, Bind.bind, Except.bind, hget]
    by_cases hmem : sourceId ∈ sourceIds
    · rw [if_pos hmem, ih hrest (hacc.append route.targets)]
      simp [hget, hmem]
    · rw [if_neg hmem, ih hrest hacc]
      simp [hget, hmem]

/-- The descriptive matcher: names of the matching routes, first occurrences of their targets. -/
lemma matchSource_eq (table : RoutingTable) (sourceId : SourceId) :
    table.matchSource sourceId = .ok ⟨(table.matching sourceId).map RouteDefinition.name,
      firstOccurrences ((table.matching sourceId).flatMap RouteDefinition.targets)⟩ := by
  have h := @matchRoutesLoop_eq sourceId _ _ table.zonesKnown _ _ collected_nil []
  rw [RoutingTable.matchSource, matchRoutes, h]
  rfl

lemma matchTargetsLoop_eq (sourceId : SourceId) (routes : List CompiledTargetRoute)
    {ids : List EgressTargetId} {acc : List EgressTargetId × Finset EgressTargetId}
    (hacc : Collected ids acc) :
    matchTargetsLoop sourceId routes acc = firstOccurrences
      (ids ++ (routes.filter (fun r => sourceId ∈ r.sourceIds)).flatMap CompiledTargetRoute.targetIds) := by
  induction routes generalizing ids acc with
  | nil =>
    obtain ⟨hout, -⟩ := hacc
    simp [matchTargetsLoop, hout]
  | cons route routes ih =>
    rw [matchTargetsLoop]
    by_cases hmem : sourceId ∈ route.sourceIds
    · rw [if_pos hmem, ih (hacc.append route.targetIds)]
      simp [hmem]
    · rw [if_neg hmem, ih hacc]
      simp [hmem]

/-- The numeric matcher: the ids of the same targets. -/
lemma matchTargetIds_withPlan (table : RoutingTable) (frozen : FrozenTargetIds) (sourceId : SourceId) :
    (table.withPlan frozen).matchTargetIds sourceId = .ok (firstOccurrences
      (((table.matching sourceId).flatMap RouteDefinition.targets).filterMap frozen.idByName.get?)) := by
  have hroutes : (((table.routeDefinitions.map (table.compileRoute frozen)).filter
      (fun r => sourceId ∈ r.sourceIds)).flatMap CompiledTargetRoute.targetIds) =
      ((table.matching sourceId).flatMap RouteDefinition.targets).filterMap frozen.idByName.get? := by
    rw [List.filter_map, List.flatMap_map, List.filterMap_flatMap]
    rfl
  rw [RoutingTable.matchTargetIds, RoutingTable.withPlan]
  simp only [matchTargetsLoop_eq sourceId _ collected_nil, List.nil_append, hroutes]

/-- Every target of a route has a number. -/
def RoutingTable.Covered (table : RoutingTable) (frozen : FrozenTargetIds) : Prop :=
  ∀ route ∈ table.routeDefinitions, ∀ name ∈ route.targets, name ∈ frozen.idByName.keys

lemma filterMap_map_some {α β : Type} {g : α → Option β} {xs : List α} (h : ∀ x ∈ xs, (g x).isSome) :
    (xs.filterMap g).map some = xs.map g := by
  induction xs with
  | nil => rfl
  | cons x xs ih =>
    obtain ⟨b, hb⟩ := Option.isSome_iff_exists.mp (h x (by simp))
    simp [hb, ih (fun y hy => h y (List.mem_cons_of_mem _ hy))]

/-- The two matchers agree on a covered table. -/
theorem matchers_agree {table : RoutingTable} {frozen : FrozenTargetIds}
    (hcovered : table.Covered frozen) (sourceId : SourceId) :
    let names := firstOccurrences ((table.matching sourceId).flatMap RouteDefinition.targets)
    ∃ ids, (table.withPlan frozen).matchTargetIds sourceId = .ok ids ∧ ids.Nodup ∧
      ids.map some = names.map frozen.idByName.get? := by
  intro names
  have hdef : ∀ name ∈ (table.matching sourceId).flatMap RouteDefinition.targets,
      (frozen.idByName.get? name).isSome := by
    intro name hname
    obtain ⟨route, hroute, hmem⟩ := List.mem_flatMap.mp hname
    obtain ⟨id, hid⟩ :=
      (Dict.mem_keys_iff _ _).mp (hcovered route (List.mem_of_mem_filter hroute) name hmem)
    rw [hid]
    rfl
  have hinj : ∀ a ∈ (table.matching sourceId).flatMap RouteDefinition.targets,
      ∀ b ∈ (table.matching sourceId).flatMap RouteDefinition.targets,
      frozen.idByName.get? a = frozen.idByName.get? b → a = b := by
    intro a ha b hb heq
    obtain ⟨id, hid⟩ := Option.isSome_iff_exists.mp (hdef a ha)
    exact frozen.injective a b id hid (heq ▸ hid)
  refine ⟨_, matchTargetIds_withPlan table frozen sourceId, nodup_firstOccurrences _, ?_⟩
  rw [firstOccurrences_filterMap hdef hinj]
  exact filterMap_map_some (fun name hname => hdef name (mem_firstOccurrences.mp hname))

/-! ### Accepted sections -/

lemma create_eq (table : RoutingTable) :
    RoutingTable.create table.resolvedZones table.routeDefinitions =
      .ok { table with compiledTargetRoutes := none } := by
  unfold RoutingTable.create
  split
  · rfl
  · next e h =>
    rw [validate_ok_iff.mpr table.zonesKnown] at h
    cases h

lemma create_ok {resolvedZones : ResolvedZones} {routes : List RouteDefinition} {table : RoutingTable}
    (h : RoutingTable.create resolvedZones routes = .ok table) :
    table.resolvedZones = resolvedZones ∧ table.routeDefinitions = routes := by
  unfold RoutingTable.create at h
  split at h
  · obtain rfl := Except.ok.inj h
    exact ⟨rfl, rfl⟩
  · cases h

lemma unknownTargets_eq_nil_iff {table : RoutingTable} {frozen : FrozenTargetIds} :
    table.unknownTargets frozen = [] ↔ table.Covered frozen := by
  have hmem : ∀ name, name ∈ table.unknownTargets frozen ↔
      (∃ route ∈ table.routeDefinitions, name ∈ route.targets) ∧ name ∉ frozen.idByName.keys := by
    intro name
    simp [RoutingTable.unknownTargets, mem_sortedNames, ← Dict.contains_iff]
  rw [List.eq_nil_iff_forall_not_mem]
  simp only [hmem]
  constructor
  · intro h route hroute name hname
    by_contra hnot
    exact h name ⟨⟨route, hroute, hname⟩, hnot⟩
  · rintro h name ⟨⟨route, hroute, hname⟩, hnot⟩
    exact hnot (h route hroute name hname)

/-- The zones of a section, as loaded. -/
def DeclaresZones (routingConfig : Json) (definitions : Dict ZoneName ZoneDefinition) : Prop :=
  ∃ zones, routingConfig.get? (str "zones") = some zones ∧ loadZoneDefinitions zones = .ok definitions

/-- The routes of a section, as loaded. -/
def DeclaresRoutes (routingConfig : Json) (routes : List RouteDefinition) : Prop :=
  ∃ value, routingConfig.get? (str "routes") = some value ∧ loadRouteDefinitions value = .ok routes

variable {budget : Nat}

/-- A section that compiles, by its parts. -/
structure Compiles (budget : Nat) (routingConfig : Json) (targetIdByName : Dict PyStr Int)
    (definitions : Dict ZoneName ZoneDefinition) (base : RoutingTable) (frozen : FrozenTargetIds) :
    Prop where
  fields : ∃ members, routingConfig = .obj members ∧ unknownFields sectionFields members = []
  zones : DeclaresZones routingConfig definitions
  routes : DeclaresRoutes routingConfig base.routeDefinitions
  resolved : resolveZones budget (definitions.mapValues .definition) = .ok base.resolvedZones
  mapping : frozen.mapping = targetIdByName
  covered : base.Covered frozen

lemma fromConfig_ok {zones routes : Json} {base : RoutingTable}
    (h : RoutingTable.fromConfig budget zones routes = .ok base) :
    ∃ definitions, loadZoneDefinitions zones = .ok definitions ∧
      loadRouteDefinitions routes = .ok base.routeDefinitions ∧
      resolveZones budget (definitions.mapValues .definition) = .ok base.resolvedZones := by
  obtain ⟨definitions, hzones, h⟩ := bind_eq_ok_iff.mp h
  obtain ⟨routeDefinitions, hroutes, h⟩ := bind_eq_ok_iff.mp h
  obtain ⟨resolvedZones, hresolved, h⟩ := bind_eq_ok_iff.mp h
  obtain ⟨rfl, rfl⟩ := create_ok h
  exact ⟨definitions, hzones, hroutes, hresolved⟩

lemma compileTargetIds_ok {table compiled : RoutingTable} {frozen : FrozenTargetIds}
    (h : table.compileTargetIds frozen.mapping = .ok compiled) :
    table.Covered frozen ∧ compiled = table.withPlan frozen := by
  rw [RoutingTable.compileTargetIds, freeze_mapping] at h
  by_cases hunknown : table.unknownTargets frozen = []
  · refine ⟨unknownTargets_eq_nil_iff.mp hunknown, ?_⟩
    simp only [Bind.bind, Except.bind, hunknown, ne_eq, not_true_eq_false, if_false, create_eq,
      Pure.pure, Except.pure, Except.ok.injEq] at h
    exact h.symm
  · simp [Bind.bind, Except.bind, hunknown] at h

theorem compileRoutingSection_ok {routingConfig : Json} {targetIdByName : Dict PyStr Int}
    {table : RoutingTable} (h : compileRoutingSection budget routingConfig targetIdByName = .ok table) :
    ∃ definitions base frozen, Compiles budget routingConfig targetIdByName definitions base frozen ∧
      table = base.withPlan frozen := by
  cases routingConfig with
  | null | bool | int | float | str | arr => cases h
  | obj members =>
    rw [compileRoutingSection] at h
    obtain ⟨frozen, hfreeze, h⟩ := bind_eq_ok_iff.mp h
    by_cases hunknown : unknownFields sectionFields members = []
    · rw [if_neg (by simpa using hunknown)] at h
      cases hzones : Dict.lookupEntries (str "zones") members with
      | none => simp [hzones] at h
      | some zones =>
        cases hroutes : Dict.lookupEntries (str "routes") members with
        | none => simp [hzones, hroutes] at h
        | some routes =>
          simp only [hzones, hroutes] at h
          obtain ⟨base, hbase, h⟩ := bind_eq_ok_iff.mp h
          obtain ⟨-, -, h⟩ := bind_eq_ok_iff.mp h
          obtain ⟨hcovered, rfl⟩ := compileTargetIds_ok h
          obtain ⟨definitions, hloadZones, hloadRoutes, hresolved⟩ := fromConfig_ok hbase
          exact ⟨definitions, base, frozen, ⟨⟨members, rfl, hunknown⟩, ⟨zones, hzones, hloadZones⟩,
            ⟨routes, hroutes, hloadRoutes⟩, hresolved, freeze_ok_iff.mp hfreeze, hcovered⟩, rfl⟩
    · rw [if_pos hunknown] at h
      cases h

/-! ### Loaded zones -/

lemma expressions_length_of_zoneExpression {zone : ZoneName} {definition : ZoneDefinition}
    {expression : ExpressionName × List PyStr} (h : zoneExpression zone definition = .ok expression) :
    definition.expressions.length = 1 := by
  rw [zoneExpression] at h
  split at h
  · next hexpr => rw [hexpr]; rfl
  · cases h

lemma loadZones_single {members : List (PyStr × Json)} {definitions definitions' : Dict ZoneName ZoneDefinition}
    (hsingle : SingleExpressions definitions) (h : loadZones members definitions = .ok definitions') :
    SingleExpressions definitions' := by
  induction members generalizing definitions with
  | nil =>
    obtain rfl : definitions = definitions' := by simpa [loadZones] using h
    exact hsingle
  | cons member members ih =>
    obtain ⟨definition, -, h⟩ := bind_eq_ok_iff.mp h
    obtain ⟨expression, hexpr, h⟩ := bind_eq_ok_iff.mp h
    refine ih ?_ h
    intro zone definition' hget
    rw [Dict.get?_set] at hget
    by_cases hzone : member.1 = zone
    · rw [if_pos hzone] at hget
      rw [← Option.some_inj.mp hget]
      exact expressions_length_of_zoneExpression hexpr
    · rw [if_neg hzone] at hget
      exact hsingle zone definition' hget

lemma DeclaresZones.single {routingConfig : Json} {definitions : Dict ZoneName ZoneDefinition}
    (h : DeclaresZones routingConfig definitions) : SingleExpressions definitions := by
  obtain ⟨zones, -, hload⟩ := h
  cases zones with
  | null | bool | int | float | str | arr => cases hload
  | obj members =>
    refine loadZones_single ?_ hload
    intro zone definition hget
    simp at hget

/-- The resolved sets of a compiled section are the only ones that satisfy its zones. -/
lemma Compiles.satisfies_iff {routingConfig : Json} {targetIdByName : Dict PyStr Int}
    {definitions : Dict ZoneName ZoneDefinition} {base : RoutingTable} {frozen : FrozenTargetIds}
    (h : Compiles budget routingConfig targetIdByName definitions base frozen) (f : ZoneName → Set SourceId) :
    Satisfies definitions f ↔ ∀ zone ∈ base.resolvedZones.keys,
      ∃ ids, base.resolvedZones.get? zone = some ids ∧ (ids : Set SourceId) = f zone := by
  have hzones := coerceDefinitions_mapValues definitions
  rw [Routing.satisfies_iff hzones h.zones.single h.resolved]
  simp only [(resolveZones_ok hzones h.zones.single h.resolved).1]

/-- The family that the resolved sets form. -/
def RoutingTable.family (table : RoutingTable) (zone : ZoneName) : Set SourceId :=
  ((table.resolvedZones.get? zone).getD ∅ : Finset SourceId)

lemma Compiles.satisfies_family {routingConfig : Json} {targetIdByName : Dict PyStr Int}
    {definitions : Dict ZoneName ZoneDefinition} {base : RoutingTable} {frozen : FrozenTargetIds}
    (h : Compiles budget routingConfig targetIdByName definitions base frozen) :
    Satisfies definitions base.family := by
  rw [h.satisfies_iff]
  intro zone hzone
  obtain ⟨ids, hids⟩ := (Dict.mem_keys_iff _ _).mp hzone
  exact ⟨ids, hids, by rw [RoutingTable.family, hids]; rfl⟩

open scoped Classical in
/-- The declared routes whose zone denotes a set that contains the source. -/
noncomputable def matchingRoutes (f : ZoneName → Set SourceId) (routes : List RouteDefinition)
    (sourceId : SourceId) : List RouteDefinition :=
  routes.filter (fun route => sourceId ∈ f route.fromZone)

lemma Compiles.matching_eq {routingConfig : Json} {targetIdByName : Dict PyStr Int}
    {definitions : Dict ZoneName ZoneDefinition} {base : RoutingTable} {frozen : FrozenTargetIds}
    (h : Compiles budget routingConfig targetIdByName definitions base frozen) {f : ZoneName → Set SourceId}
    (hf : Satisfies definitions f) (sourceId : SourceId) :
    matchingRoutes f base.routeDefinitions sourceId = base.matching sourceId := by
  rw [matchingRoutes, RoutingTable.matching]
  apply List.filter_congr
  intro route hroute
  obtain ⟨ids, hids, hcoe⟩ := (h.satisfies_iff f).mp hf route.fromZone (base.zonesKnown route hroute)
  simp [← hcoe, hids]

/-- On every table that a section compiles to, the numeric matcher returns the ids of the
names that the descriptive one returns, in their order and without repeats; the names are the
first occurrences of the targets of the declared routes whose zone denotes a set with the
source. -/
theorem match_target_ids_exact (budget : Nat) (routingConfig : Json) (targetIdByName : Dict PyStr Int)
    (table : RoutingTable) (hcompile : compileRoutingSection budget routingConfig targetIdByName = .ok table)
    (sourceId : SourceId) :
    ∃ definitions routes, DeclaresZones routingConfig definitions ∧ DeclaresRoutes routingConfig routes ∧
      (∃ f, Satisfies definitions f) ∧ ∀ f, Satisfies definitions f →
        let matched := matchingRoutes f routes sourceId
        ∃ names ids, table.matchSource sourceId = .ok ⟨matched.map RouteDefinition.name, names⟩ ∧
          table.matchTargetIds sourceId = .ok ids ∧
          names.map targetIdByName.get? = ids.map (fun (id : EgressTargetId) => some (id : Int)) ∧
          names.Nodup ∧ ids.Nodup ∧
          names = firstOccurrences (matched.flatMap RouteDefinition.targets) := by
  obtain ⟨definitions, base, frozen, hparts, rfl⟩ := compileRoutingSection_ok hcompile
  refine ⟨definitions, base.routeDefinitions, hparts.zones, hparts.routes,
    ⟨base.family, hparts.satisfies_family⟩, ?_⟩
  intro f hf matched
  have hmatched : matched = base.matching sourceId := hparts.matching_eq hf sourceId
  obtain ⟨ids, hids, hnodup, hmap⟩ := matchers_agree hparts.covered sourceId
  have hdescriptive := matchSource_eq (base.withPlan frozen) sourceId
  refine ⟨firstOccurrences (matched.flatMap RouteDefinition.targets), ids, ?_, hids, ?_,
    nodup_firstOccurrences _, hnodup, rfl⟩
  · rw [hdescriptive, hmatched]
    rfl
  · rw [hmatched, ← hparts.mapping]
    have hcast : ids.map (fun (id : EgressTargetId) => some (id : Int)) =
        (ids.map some).map (Option.map Int.ofNat) := by
      rw [List.map_map]
      rfl
    rw [hcast, hmap, List.map_map]
    exact List.map_congr_left (fun name _ => Dict.get?_mapValues Int.ofNat frozen.idByName name)

/-- Two overlapping zones whose routes share a target. -/
def harbourSection : Json :=
  .obj [
    (str "zones", .obj [
      (str "port", .obj [(str "include", .arr [.str (str "a"), .str (str "b")])]),
      (str "coast", .obj [(str "union", .arr [.str (str "port")])])]),
    (str "routes", .arr [
      .obj [(str "name", .str (str "first")), (str "from_zone", .str (str "port")),
        (str "to", .arr [.str (str "udp:x"), .str (str "udp:y")])],
      .obj [(str "name", .str (str "second")), (str "from_zone", .str (str "coast")),
        (str "to", .arr [.str (str "udp:z"), .str (str "udp:y")])]])]

def harbourTargets : Dict PyStr Int :=
  .ofEntries [(str "udp:x", 0), (str "udp:y", 1), (str "udp:z", 2)]

theorem match_target_ids_exact_harbour :
    ∃ table, compileRoutingSection 1000 harbourSection harbourTargets = .ok table ∧
      table.matchTargetIds (str "a") = .ok [0, 1, 2] ∧
      ∃ definitions routes, DeclaresZones harbourSection definitions ∧
        DeclaresRoutes harbourSection routes ∧ ∃ f, Satisfies definitions f ∧
        [str "udp:x", str "udp:y", str "udp:z"] = firstOccurrences
          ((matchingRoutes f routes (str "a")).flatMap RouteDefinition.targets) := by
  have hids : (compileRoutingSection 1000 harbourSection harbourTargets).toOption.bind
      (fun table => (table.matchTargetIds (str "a")).toOption) = some [0, 1, 2] := by decide +kernel
  have hnames : (compileRoutingSection 1000 harbourSection harbourTargets).toOption.bind
      (fun table => (table.matchSource (str "a")).toOption) =
      some ⟨[str "first", str "second"], [str "udp:x", str "udp:y", str "udp:z"]⟩ := by decide +kernel
  cases hcompile : compileRoutingSection 1000 harbourSection harbourTargets with
  | error e => simp [hcompile, Except.toOption] at hids
  | ok table =>
    obtain ⟨definitions, routes, hzones, hroutes, ⟨f, hf⟩, hall⟩ :=
      match_target_ids_exact 1000 harbourSection harbourTargets table hcompile (str "a")
    obtain ⟨names, ids, hsource, htargets, -, -, -, hfirst⟩ := hall f hf
    simp only [hcompile, Except.toOption, Option.bind_some, htargets, Option.some_inj] at hids
    simp only [hcompile, Except.toOption, Option.bind_some, hsource, Option.some_inj,
      RoutingResult.mk.injEq] at hnames
    refine ⟨table, rfl, by rw [htargets, hids], definitions, routes, hzones, hroutes, f, hf, ?_⟩
    rw [← hfirst, hnames.2]

end AisMixer.Routing

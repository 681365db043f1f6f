import AisMixer.DataPlane.Processor
import AisMixer.Routing.RoutingControl
import AisMixer.Routing.TargetMatching

/-!
# Work items

`_bind_processing_work_item` of `aismixer.py`: an accepted frame is paired with the routing
of the moment, as a mode of deduplication and numeric target ids.
-/

namespace AisMixer.Runtime

open AisMixer.Library AisMixer.Routing

structure ProcessingWorkItem where
  frame : IngressFrame
  snapshot : ProcessingSnapshot
  deriving DecidableEq

def repeatedTargets : RoutingError :=
  ⟨.valueError, [.text (str "ProcessingSnapshot target_ids must be unique.")]⟩

/-- The constructor `ProcessingSnapshot(…)` with its `__post_init__`. -/
def makeProcessingSnapshot (routingGeneration : Nat) (mode : DeduplicationMode)
    (targetIds : List Nat) : Except RoutingError ProcessingSnapshot :=
  if h : targetIds.Nodup then .ok ⟨routingGeneration, mode, targetIds, h⟩ else .error repeatedTargets

def bindProcessingWorkItem (frame : IngressFrame) (routingState : Option RoutingState)
    (legacyTargetIds : List Nat) : Except RoutingError ProcessingWorkItem := do
  let routingSnapshot : RoutingSnapshot := match routingState with
    | none => ⟨0, none⟩
    | some state => state.snapshot
  let snapshot ← match routingSnapshot.table with
    | none => makeProcessingSnapshot routingSnapshot.generation .global legacyTargetIds
    | some routingTable => do
      let targetIds ← routingTable.matchTargetIds frame.sourceId
      makeProcessingSnapshot routingSnapshot.generation .perTarget targetIds
  return ⟨frame, snapshot⟩

/-- Every numeric id of a compiled plan is below a bound. -/
def PlanBelow (bound : Nat) (table : RoutingTable) : Prop :=
  ∀ routes, table.compiledTargetRoutes = some routes →
    ∀ route ∈ routes, ∀ id ∈ route.targetIds, id < bound

/-- The table of a state, if it has one, has a plan with ids below a bound. -/
def TargetsBelow (bound : Nat) (state : RoutingState) : Prop :=
  ∀ table, state.snapshot.table = some table → PlanBelow bound table

lemma makeProcessingSnapshot_ok {targetIds : List Nat} (hnodup : targetIds.Nodup)
    (routingGeneration : Nat) (mode : DeduplicationMode) :
    makeProcessingSnapshot routingGeneration mode targetIds =
      .ok ⟨routingGeneration, mode, targetIds, hnodup⟩ := by
  rw [makeProcessingSnapshot, dif_pos hnodup]

lemma matchTargetIds_ok {table : RoutingTable} (hcompiled : table.hasCompiledTargetPlan = true)
    {bound : Nat} (hplan : PlanBelow bound table) (sourceId : SourceId) :
    ∃ ids, table.matchTargetIds sourceId = .ok ids ∧ ids.Nodup ∧ ∀ id ∈ ids, id < bound := by
  obtain ⟨routes, hroutes⟩ := Option.isSome_iff_exists.mp hcompiled
  have hloop := matchTargetsLoop_eq sourceId routes collected_nil
  refine ⟨_, by rw [RoutingTable.matchTargetIds, hroutes], ?_, ?_⟩
  · rw [hloop]
    exact nodup_firstOccurrences _
  · intro id hid
    rw [hloop, mem_firstOccurrences, List.nil_append, List.mem_flatMap] at hid
    obtain ⟨route, hroute, hid⟩ := hid
    exact hplan routes hroutes route (List.mem_of_mem_filter hroute) id hid

/-- A frame is bound without an exception, and to ids below the bound only. -/
theorem bind_below {bound : Nat} {state : RoutingState} (hstate : TargetsBelow bound state)
    (frame : IngressFrame) :
    ∃ item, bindProcessingWorkItem frame (some state) (List.range bound) = .ok item ∧
      item.frame = frame ∧ item.snapshot.routingGeneration = state.snapshot.generation ∧
      ∀ id ∈ item.snapshot.targetIds, id < bound := by
  cases htable : state.snapshot.table with
  | none =>
    refine ⟨⟨frame, state.snapshot.generation, .global, List.range bound, List.nodup_range⟩, ?_, rfl, rfl, ?_⟩
    · simp only [bindProcessingWorkItem, htable, makeProcessingSnapshot_ok List.nodup_range]
      rfl
    · intro id hid
      exact List.mem_range.mp hid
  | some table =>
    have hcompiled : table.hasCompiledTargetPlan = true := by
      have hvalid := state.valid
      rw [htable] at hvalid
      exact hvalid
    obtain ⟨ids, hids, hnodup, hbelow⟩ :=
      matchTargetIds_ok hcompiled (hstate table htable) frame.sourceId
    refine ⟨⟨frame, state.snapshot.generation, .perTarget, ids, hnodup⟩, ?_, rfl, rfl, hbelow⟩
    simp only [bindProcessingWorkItem, htable, hids, Bind.bind, Except.bind,
      makeProcessingSnapshot_ok hnodup]
    rfl

end AisMixer.Runtime

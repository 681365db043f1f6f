import AisMixer.Routing.Zones

/-!
# What `resolve_zones` computes

The inner recursion is the memoised resolution of the system of definitions
(`resolve_eq`). Its results are the sets that satisfy every definition, and its errors name
a dangling reference, a cycle, or a chain of references for which the recursion has no room.
-/

namespace AisMixer.Routing

open Library

/-! ### The meaning of a set of definitions -/

/-- One expression, given the meaning of the zones it names. -/
def meaning (f : ZoneName → Set SourceId) : ExpressionName × List PyStr → Set SourceId
  | (.includes, ids) => {source | source ∈ ids}
  | (.union, zones) => {source | ∃ zone ∈ zones, source ∈ f zone}
  | (.intersection, zones) => {source | zones ≠ [] ∧ ∀ zone ∈ zones, source ∈ f zone}
  | (.difference, zones) =>
    {source | ∃ first rest, zones = first :: rest ∧ source ∈ f first ∧ ∀ zone ∈ rest, source ∉ f zone}

/-- A family of sets that every definition holds of. -/
def Satisfies (definitions : Dict ZoneName ZoneDefinition) (f : ZoneName → Set SourceId) : Prop :=
  ∀ zone definition expression, definitions.get? zone = some definition →
    definition.expressions = [expression] → f zone = meaning f expression

/-- A zone's own expression names another zone. -/
def References (definitions : Dict ZoneName ZoneDefinition) (a b : ZoneName) : Prop :=
  ∃ definition operation zones, definitions.get? a = some definition ∧
    definition.expressions = [(operation, zones)] ∧ operation ≠ .includes ∧ b ∈ zones

def DanglingReference (definitions : Dict ZoneName ZoneDefinition) (a b : ZoneName) : Prop :=
  References definitions a b ∧ b ∉ definitions.keys

/-- A path along references that ends where it starts. -/
def IsReferenceCycle (definitions : Dict ZoneName ZoneDefinition) (path : List ZoneName) : Prop :=
  2 ≤ path.length ∧ List.IsChain (References definitions) path ∧ path.head? = path.getLast?

def SingleExpressions (definitions : Dict ZoneName ZoneDefinition) : Prop :=
  ∀ zone definition, definitions.get? zone = some definition → definition.expressions.length = 1

/-! ### The recursion as a memoised resolution -/

def expressionOperands : List (ExpressionName × List PyStr) → List ZoneName
  | [(.includes, _)] => []
  | [(_, zones)] => zones
  | _ => []

def expressionValue (operands : List (Finset SourceId)) :
    List (ExpressionName × List PyStr) → Finset SourceId
  | [(.includes, ids)] => ids.toFinset
  | [(operation, _)] =>
    match applyOperation operation operands with
    | .ok result => result
    | .error _ => ∅
  | _ => ∅

/-- The zone definitions as a system of named definitions. -/
def zoneSystem (definitions : Dict ZoneName ZoneDefinition) : System ZoneName (Finset SourceId) where
  operands zone := (definitions.get? zone).map (fun d => expressionOperands d.expressions)
  combine zone operands :=
    match definitions.get? zone with
    | some d => expressionValue operands d.expressions
    | none => ∅

def asRoutingError : ResolutionFailure ZoneName → RoutingError
  | .missing referencedBy zone => unknownZone referencedBy zone
  | .cycle path => circularZoneReference path
  | .outOfFuel => recursionDepthExceeded

lemma zoneExpression_of_expressions {definition : ZoneDefinition}
    {expression : ExpressionName × List PyStr} (h : definition.expressions = [expression])
    (zone : ZoneName) : zoneExpression zone definition = .ok expression := by
  rw [zoneExpression, h]

lemma applyOperation_ok {operation : ExpressionName} (h : operation ≠ .includes)
    (operands : List (Finset SourceId)) (zones : List PyStr) :
    applyOperation operation operands = .ok (expressionValue operands [(operation, zones)]) := by
  cases operation with
  | includes => exact (h rfl).elim
  | union | intersection | difference => cases operands <;> rfl

lemma expressionOperands_of_ne {operation : ExpressionName} (h : operation ≠ .includes)
    (zones : List PyStr) : expressionOperands [(operation, zones)] = zones := by
  cases operation with
  | includes => exact (h rfl).elim
  | union | intersection | difference => rfl

theorem resolve_eq {definitions : Dict ZoneName ZoneDefinition}
    (hsingle : SingleExpressions definitions) (fuel : Nat) (path : List ZoneName) (zone : ZoneName)
    (resolved : ResolvedZones) :
    resolve definitions fuel path zone resolved =
      ((zoneSystem definitions).resolve fuel path zone resolved).mapError asRoutingError := by
  induction fuel using Nat.strong_induction_on generalizing path zone resolved with
  | _ fuel ih =>
    rw [resolve, System.resolve]
    cases hget : resolved.get? zone with
    | some result => rfl
    | none =>
      cases hdef : definitions.get? zone with
      | none => simp [zoneSystem, hdef, Except.mapError, asRoutingError]
      | some definition =>
        obtain ⟨⟨operation, values⟩, hexpr⟩ := List.length_eq_one_iff.mp (hsingle zone definition hdef)
        have hoperands : (zoneSystem definitions).operands zone =
            some (expressionOperands [(operation, values)]) := by
          simp [zoneSystem, hdef, hexpr]
        have hcombine : ∀ operands, (zoneSystem definitions).combine zone operands =
            expressionValue operands [(operation, values)] := by
          intro operands
          simp [zoneSystem, hdef, hexpr]
        simp only [hoperands]
        by_cases hpath : zone ∈ path
        · simp [hpath, Except.mapError, asRoutingError]
        cases fuel with
        | zero => simp [hpath, Except.mapError, asRoutingError]
        | succ room =>
          simp only [hpath, if_false, zoneExpression_of_expressions hexpr]
          by_cases hincludes : operation = .includes
          · subst hincludes
            simp [hcombine, expressionOperands, expressionValue, System.resolveList, Bind.bind,
              Except.bind, Pure.pure, Except.pure, Except.mapError]
          · have hlist := System.resolveList_mapError asRoutingError
              (fun b m => ih room (Nat.lt_succ_self room) (path ++ [zone]) b m) values resolved
            simp only [expressionOperands_of_ne hincludes, hincludes, if_false, Bind.bind, Except.bind,
              hlist]
            cases System.resolveList ((zoneSystem definitions).resolve room (path ++ [zone])) values
                resolved with
            | error e => rfl
            | ok p =>
              simp [Except.mapError, applyOperation_ok hincludes p.1 values, hcombine, Pure.pure,
                Except.pure]

/-! ### Graph and values of the system -/

variable {definitions : Dict ZoneName ZoneDefinition} {budget : Nat}

lemma references_zoneSystem (hsingle : SingleExpressions definitions) :
    (zoneSystem definitions).References = References definitions := by
  funext a b
  apply propext
  constructor
  · rintro ⟨zones, hzones, hb⟩
    obtain ⟨definition, hdef, rfl⟩ := Option.map_eq_some_iff.mp hzones
    obtain ⟨⟨operation, values⟩, hexpr⟩ := List.length_eq_one_iff.mp (hsingle a definition hdef)
    rw [hexpr] at hb
    have hne : operation ≠ .includes := by
      rintro rfl
      simp [expressionOperands] at hb
    rw [expressionOperands_of_ne hne] at hb
    exact ⟨definition, operation, values, hdef, hexpr, hne, hb⟩
  · rintro ⟨definition, operation, zones, hdef, hexpr, hne, hb⟩
    refine ⟨zones, ?_, hb⟩
    simp [zoneSystem, hdef, hexpr, expressionOperands_of_ne hne]

lemma operands_isSome_iff (zone : ZoneName) :
    ((zoneSystem definitions).operands zone).isSome ↔ zone ∈ definitions.keys := by
  rw [Dict.mem_keys_iff]
  simp [zoneSystem, Option.isSome_iff_exists]

lemma dangling_iff (hsingle : SingleExpressions definitions) (a b : ZoneName) :
    (zoneSystem definitions).Dangling a b ↔ DanglingReference definitions a b := by
  rw [System.Dangling, DanglingReference, references_zoneSystem hsingle, ← operands_isSome_iff,
    Option.not_isSome_iff_eq_none]

lemma mem_foldl_union {α : Type} [DecidableEq α] (sets : List (Finset α)) (start : Finset α) (x : α) :
    x ∈ sets.foldl (· ∪ ·) start ↔ x ∈ start ∨ ∃ s ∈ sets, x ∈ s := by
  induction sets generalizing start with
  | nil => simp
  | cons s sets ih => simp [ih, or_assoc]

lemma mem_foldl_inter {α : Type} [DecidableEq α] (sets : List (Finset α)) (start : Finset α) (x : α) :
    x ∈ sets.foldl (· ∩ ·) start ↔ x ∈ start ∧ ∀ s ∈ sets, x ∈ s := by
  induction sets generalizing start with
  | nil => simp
  | cons s sets ih => simp [ih, and_assoc]

lemma mem_foldl_sdiff {α : Type} [DecidableEq α] (sets : List (Finset α)) (start : Finset α) (x : α) :
    x ∈ sets.foldl (· \ ·) start ↔ x ∈ start ∧ ∀ s ∈ sets, x ∉ s := by
  induction sets generalizing start with
  | nil => simp
  | cons s sets ih => simp [ih, and_assoc]

/-- The computed operations are the set operations. -/
lemma coe_expressionValue (value : ZoneName → Finset SourceId)
    (expression : ExpressionName × List PyStr) :
    (expressionValue ((expressionOperands [expression]).map value) [expression] : Set SourceId) =
      meaning (fun zone => value zone) expression := by
  obtain ⟨operation, zones⟩ := expression
  ext source
  cases operation with
  | includes => simp [expressionValue, meaning]
  | union =>
    cases zones with
    | nil => simp [expressionValue, expressionOperands, applyOperation, meaning]
    | cons zone zones =>
      simp [expressionValue, expressionOperands, applyOperation, meaning, mem_foldl_union]
  | intersection =>
    cases zones with
    | nil => simp [expressionValue, expressionOperands, applyOperation, meaning]
    | cons zone zones =>
      simp [expressionValue, expressionOperands, applyOperation, meaning, mem_foldl_inter]
  | difference =>
    cases zones with
    | nil => simp [expressionValue, expressionOperands, applyOperation, meaning]
    | cons zone zones =>
      simp [expressionValue, expressionOperands, applyOperation, meaning, mem_foldl_sdiff]

lemma meaning_congr {f g : ZoneName → Set SourceId} {expression : ExpressionName × List PyStr}
    (h : ∀ zone ∈ expressionOperands [expression], f zone = g zone) :
    meaning f expression = meaning g expression := by
  obtain ⟨operation, zones⟩ := expression
  ext source
  cases operation with
  | includes => rfl
  | union =>
    simp only [meaning, Set.mem_ofPred_eq]
    exact exists_congr (fun zone => and_congr_right (fun hz => by rw [h zone hz]))
  | intersection =>
    simp only [meaning, Set.mem_ofPred_eq]
    exact and_congr_right (fun _ => forall₂_congr (fun zone hz => by rw [h zone hz]))
  | difference =>
    simp only [meaning, Set.mem_ofPred_eq]
    refine exists_congr (fun first => exists_congr (fun rest => and_congr_right ?_))
    rintro rfl
    rw [h first (by simp [expressionOperands])]
    refine and_congr_right (fun _ => forall₂_congr (fun zone hz => ?_))
    rw [h zone (by simp [expressionOperands, hz])]

/-- What a denotation is, read off the zone's own definition. -/
lemma denotes_definition (hsingle : SingleExpressions definitions) {zone : ZoneName}
    {ids : Finset SourceId} (h : (zoneSystem definitions).Denotes zone ids) :
    ∃ definition expression, ∃ value : ZoneName → Finset SourceId,
      definitions.get? zone = some definition ∧ definition.expressions = [expression] ∧
      (∀ b ∈ expressionOperands [expression], (zoneSystem definitions).Denotes b (value b)) ∧
      (ids : Set SourceId) = meaning (fun b => value b) expression := by
  cases h with
  | @intro _ zones value hdef hsub =>
    obtain ⟨definition, hget, rfl⟩ := Option.map_eq_some_iff.mp hdef
    obtain ⟨expression, hexpr⟩ := List.length_eq_one_iff.mp (hsingle zone definition hget)
    rw [hexpr] at hsub
    refine ⟨definition, expression, value, hget, hexpr, hsub, ?_⟩
    rw [← coe_expressionValue]
    simp [zoneSystem, hget, hexpr]

/-- A family that satisfies the definitions contains every denotation. -/
lemma Satisfies.eq_denotation (hsingle : SingleExpressions definitions)
    {f : ZoneName → Set SourceId} (hf : Satisfies definitions f) {zone : ZoneName}
    {ids : Finset SourceId} (h : (zoneSystem definitions).Denotes zone ids) :
    (ids : Set SourceId) = f zone := by
  induction h with
  | @intro a zones value hdef hsub ih =>
    obtain ⟨definition, hget, rfl⟩ := Option.map_eq_some_iff.mp hdef
    obtain ⟨expression, hexpr⟩ := List.length_eq_one_iff.mp (hsingle a definition hget)
    rw [hexpr] at ih ⊢
    rw [hf a definition expression hget hexpr, ← meaning_congr ih, ← coe_expressionValue]
    simp [zoneSystem, hget, hexpr]

/-! ### The whole function -/

lemma sortedNames_perm (names : List PyStr) : (sortedNames names).Perm names :=
  List.perm_insertionSort _ names

lemma mem_sortedNames {names : List PyStr} {name : PyStr} : name ∈ sortedNames names ↔ name ∈ names :=
  (sortedNames_perm names).mem_iff

/-- Sorting forgets the order of the names. -/
lemma sortedNames_eq_of_perm {names names' : List PyStr} (h : names.Perm names') :
    sortedNames names = sortedNames names' := by
  have hantisymm : ∀ a b, a ∈ sortedNames names → b ∈ sortedNames names' → a ≤ b → b ≤ a → a = b :=
    fun a b _ _ hab hba => le_antisymm hab hba
  have hperm : (sortedNames names).Perm (sortedNames names') :=
    (sortedNames_perm names).trans (h.trans (sortedNames_perm names').symm)
  exact hperm.eq_of_pairwise hantisymm (List.pairwise_insertionSort _ _)
    (List.pairwise_insertionSort _ _)

/-- The final dictionary comprehension, which puts the zones in sorted order. -/
def sortZones (resolved : ResolvedZones) : ResolvedZones :=
  Dict.ofEntries ((sortedNames resolved.keys).filterMap (fun name =>
    (resolved.get? name).map (fun ids => (name, ids))))

lemma sortZones_keys_list (resolved : ResolvedZones) {names : List PyStr}
    (hnames : ∀ name ∈ names, name ∈ resolved.keys) :
    ((names.filterMap (fun name => (resolved.get? name).map (fun ids => (name, ids)))).map Prod.fst) =
      names := by
  induction names with
  | nil => rfl
  | cons name names ih =>
    obtain ⟨ids, hids⟩ := (Dict.mem_keys_iff resolved name).mp (hnames name (by simp))
    simp only [List.filterMap_cons, hids, Option.map_some, List.map_cons]
    rw [ih (fun n hn => hnames n (List.mem_cons_of_mem _ hn))]

lemma entries_sortZones (resolved : ResolvedZones) :
    (sortZones resolved).entries = (sortedNames resolved.keys).filterMap (fun name =>
      (resolved.get? name).map (fun ids => (name, ids))) := by
  apply Dict.entries_ofEntries
  rw [sortZones_keys_list resolved (fun name => mem_sortedNames.mp)]
  exact (sortedNames_perm _).nodup_iff.mpr resolved.keys_nodup

lemma get?_sortZones (resolved : ResolvedZones) (name : ZoneName) :
    (sortZones resolved).get? name = resolved.get? name := by
  apply Option.ext
  intro ids
  rw [Dict.get?_eq_some_iff, entries_sortZones, List.mem_filterMap]
  constructor
  · rintro ⟨name', hname', hget⟩
    obtain ⟨ids', hids', heq⟩ := Option.map_eq_some_iff.mp hget
    obtain ⟨rfl, rfl⟩ := Prod.mk.inj heq
    exact hids'
  · intro hget
    refine ⟨name, ?_, by rw [hget]; rfl⟩
    rw [mem_sortedNames, Dict.mem_keys_iff]
    exact ⟨ids, hget⟩

/-- `resolve_zones` in terms of the system of its definitions. -/
lemma resolveZones_eq {zones : Dict ZoneName ZoneConfig} (hzones : coerceDefinitions zones = .ok definitions)
    (hsingle : SingleExpressions definitions) :
    resolveZones budget zones =
      (((zoneSystem definitions).resolveAll budget (sortedNames definitions.keys)).mapError asRoutingError).map
        sortZones := by
  have hlist := System.resolveList_mapError asRoutingError
    (fun zone m => resolve_eq hsingle budget [] zone m) (sortedNames definitions.keys) .empty
  rw [resolveZones, System.resolveAll]
  simp only [hzones, Bind.bind, Except.bind, hlist]
  cases System.resolveList ((zoneSystem definitions).resolve budget [])
      (sortedNames definitions.keys) .empty with
  | error e => rfl
  | ok p => rfl

/-- The coercion of one entry keeps its name. -/
def coerceEntry (e : ZoneName × ZoneConfig) : Except RoutingError (ZoneName × ZoneDefinition) :=
  (coerceZoneDefinition e.1 e.2).map (fun definition => (e.1, definition))

lemma map_fst_of_coerceEntry {es : List (ZoneName × ZoneConfig)} {ds : List (ZoneName × ZoneDefinition)}
    (h : es.mapM coerceEntry = .ok ds) : ds.map Prod.fst = es.map Prod.fst := by
  have hforall := mapM_ok_iff_forall₂.mp h
  clear h
  induction hforall with
  | nil => rfl
  | cons hhead _ ih =>
    obtain ⟨definition, -, rfl⟩ := map_eq_ok_iff.mp hhead
    rw [List.map_cons, List.map_cons, ih]

lemma coerceDefinitions_ok_iff {zones : Dict ZoneName ZoneConfig} :
    coerceDefinitions zones = .ok definitions ↔ zones.entries.mapM coerceEntry = .ok definitions.entries := by
  have hfold : coerceDefinitions zones = (zones.entries.mapM coerceEntry).map Dict.ofEntries := by
    rw [coerceDefinitions]
    change (zones.entries.mapM coerceEntry).bind _ = _
    cases zones.entries.mapM coerceEntry <;> rfl
  rw [hfold, map_eq_ok_iff]
  constructor
  · rintro ⟨ds, hds, rfl⟩
    rw [hds, Dict.entries_ofEntries]
    rw [map_fst_of_coerceEntry hds]
    exact zones.nodupKeys
  · intro h
    exact ⟨_, h, Dict.ext (Dict.entries_ofEntries definitions.nodupKeys)⟩

lemma keys_of_coerceDefinitions {zones : Dict ZoneName ZoneConfig}
    (h : coerceDefinitions zones = .ok definitions) : definitions.keys = zones.keys :=
  map_fst_of_coerceEntry (coerceDefinitions_ok_iff.mp h)

lemma zoneSystem_congr {definitions' : Dict ZoneName ZoneDefinition}
    (h : definitions'.entries.Perm definitions.entries) :
    zoneSystem definitions' = zoneSystem definitions := by
  have hget : definitions'.get? = definitions.get? := funext (Dict.get?_of_perm h)
  simp only [zoneSystem, hget]

/-- The iteration order of the mapping does not matter. -/
lemma resolveZones_of_perm {zones zones' : Dict ZoneName ZoneConfig}
    (hzones : coerceDefinitions zones = .ok definitions) (hsingle : SingleExpressions definitions)
    (hperm : zones'.entries.Perm zones.entries) : resolveZones budget zones' = resolveZones budget zones := by
  obtain ⟨ds, hds, hdsperm⟩ := mapM_ok_of_perm hperm (coerceDefinitions_ok_iff.mp hzones)
  have hnodup : (ds.map Prod.fst).Nodup := by
    rw [map_fst_of_coerceEntry hds]
    exact zones'.nodupKeys
  let definitions' : Dict ZoneName ZoneDefinition := ⟨ds, hnodup⟩
  have hzones' : coerceDefinitions zones' = .ok definitions' := coerceDefinitions_ok_iff.mpr hds
  have hsingle' : SingleExpressions definitions' := by
    intro zone definition hget
    rw [Dict.get?_of_perm (e := definitions) hdsperm] at hget
    exact hsingle zone definition hget
  have hkeys : sortedNames definitions'.keys = sortedNames definitions.keys :=
    sortedNames_eq_of_perm (hdsperm.map Prod.fst)
  rw [resolveZones_eq hzones hsingle, resolveZones_eq hzones' hsingle', hkeys, zoneSystem_congr hdsperm]

lemma resolveAll_of_resolveZones {zones : Dict ZoneName ZoneConfig}
    (hzones : coerceDefinitions zones = .ok definitions) (hsingle : SingleExpressions definitions)
    {resolved : ResolvedZones} (h : resolveZones budget zones = .ok resolved) :
    ∃ memo, (zoneSystem definitions).resolveAll budget (sortedNames definitions.keys) = .ok memo ∧
      sortZones memo = resolved := by
  rw [resolveZones_eq hzones hsingle] at h
  obtain ⟨memo, hmemo, rfl⟩ := map_eq_ok_iff.mp h
  refine ⟨memo, ?_, rfl⟩
  cases hall : (zoneSystem definitions).resolveAll budget (sortedNames definitions.keys) with
  | error e => simp [hall, Except.mapError] at hmemo
  | ok memo' => simpa [hall, Except.mapError] using hmemo

/-- The result maps each defined zone to its denotation and has no other keys. -/
lemma resolveZones_ok {zones : Dict ZoneName ZoneConfig}
    (hzones : coerceDefinitions zones = .ok definitions) (hsingle : SingleExpressions definitions)
    {resolved : ResolvedZones} (h : resolveZones budget zones = .ok resolved) :
    (∀ zone, zone ∈ resolved.keys ↔ zone ∈ zones.keys) ∧
      ∀ zone ids, resolved.get? zone = some ids → (zoneSystem definitions).Denotes zone ids := by
  obtain ⟨memo, hall, rfl⟩ := resolveAll_of_resolveZones hzones hsingle h
  obtain ⟨hsound, hnames⟩ := System.resolveAll_ok hall
  have hdenotes : ∀ zone ids, (sortZones memo).get? zone = some ids →
      (zoneSystem definitions).Denotes zone ids := by
    intro zone ids hget
    rw [get?_sortZones] at hget
    exact hsound zone ids hget
  refine ⟨fun zone => ?_, hdenotes⟩
  rw [← keys_of_coerceDefinitions hzones]
  constructor
  · intro hzone
    obtain ⟨ids, hids⟩ := (Dict.mem_keys_iff _ zone).mp hzone
    exact (operands_isSome_iff zone).mp (hdenotes zone ids hids).defined
  · intro hzone
    obtain ⟨ids, hids⟩ := Option.isSome_iff_exists.mp (hnames zone (mem_sortedNames.mpr hzone))
    rw [Dict.mem_keys_iff]
    exact ⟨ids, by rw [get?_sortZones, hids]⟩

/-- The computed family is the only one that satisfies the definitions. -/
lemma satisfies_iff {zones : Dict ZoneName ZoneConfig}
    (hzones : coerceDefinitions zones = .ok definitions) (hsingle : SingleExpressions definitions)
    {resolved : ResolvedZones} (h : resolveZones budget zones = .ok resolved) (f : ZoneName → Set SourceId) :
    Satisfies definitions f ↔
      ∀ zone ∈ zones.keys, ∃ ids, resolved.get? zone = some ids ∧ (ids : Set SourceId) = f zone := by
  obtain ⟨hkeys, hdenotes⟩ := resolveZones_ok hzones hsingle h
  constructor
  · intro hf zone hzone
    obtain ⟨ids, hids⟩ := (Dict.mem_keys_iff _ zone).mp ((hkeys zone).mpr hzone)
    exact ⟨ids, hids, hf.eq_denotation hsingle (hdenotes zone ids hids)⟩
  · intro hf zone definition expression hget hexpr
    have hdefined : zone ∈ zones.keys := by
      rw [← keys_of_coerceDefinitions hzones, Dict.mem_keys_iff]
      exact ⟨definition, hget⟩
    obtain ⟨ids, hids, hcoe⟩ := hf zone hdefined
    obtain ⟨definition', expression', value, hget', hexpr', hsub, hmeaning⟩ :=
      denotes_definition hsingle (hdenotes zone ids hids)
    obtain rfl : definition = definition' := Option.some_inj.mp (hget ▸ hget')
    obtain rfl : expression = expression' := by simpa [hexpr] using hexpr'
    rw [← hcoe, hmeaning]
    apply meaning_congr
    intro b hb
    -- an operand is a defined zone, and the family has its denotation there
    have hb' : b ∈ zones.keys := by
      rw [← keys_of_coerceDefinitions hzones, ← operands_isSome_iff]
      exact (hsub b hb).defined
    obtain ⟨bids, hbids, hbcoe⟩ := hf b hb'
    rw [← hbcoe, (hsub b hb).unique (hdenotes b bids hbids)]

/-- A chain of so many different zones, each of which references the next. -/
def HasReferenceChain (definitions : Dict ZoneName ZoneDefinition) (length : Nat) : Prop :=
  ∃ path : List ZoneName, path.length = length ∧ path.Nodup ∧ (∀ zone ∈ path, zone ∈ definitions.keys) ∧
    List.IsChain (References definitions) path

lemma hasPath_iff (hsingle : SingleExpressions definitions) (length : Nat) :
    (zoneSystem definitions).HasPath length ↔ HasReferenceChain definitions length := by
  simp only [System.HasPath, HasReferenceChain, operands_isSome_iff, references_zoneSystem hsingle]

/-- The error of a resolution that fails. -/
lemma resolveZones_error {zones : Dict ZoneName ZoneConfig} (hzones : coerceDefinitions zones = .ok definitions)
    (hsingle : SingleExpressions definitions) {e : RoutingError} (h : resolveZones budget zones = .error e) :
    (∃ a b, e = unknownZone (some a) b ∧ DanglingReference definitions a b) ∨
      (∃ path, e = circularZoneReference path ∧ IsReferenceCycle definitions path) ∨
      e = recursionDepthExceeded ∧ HasReferenceChain definitions (budget + 1) := by
  rw [resolveZones_eq hzones hsingle] at h
  cases hall : (zoneSystem definitions).resolveAll budget (sortedNames definitions.keys) with
  | ok memo => simp [hall, Except.mapError, Except.map] at h
  | error failure =>
    obtain rfl : asRoutingError failure = e := by simpa [hall, Except.mapError, Except.map] using h
    have hnames : ∀ zone ∈ sortedNames definitions.keys, ((zoneSystem definitions).operands zone).isSome := by
      intro zone hzone
      rw [operands_isSome_iff, ← mem_sortedNames]
      exact hzone
    have hexplains := System.resolveAll_error hnames hall
    cases failure with
    | missing referrer zone =>
      cases referrer with
      | none => exact hexplains.elim
      | some referrer => exact .inl ⟨referrer, zone, rfl, (dangling_iff hsingle _ _).mp hexplains⟩
    | cycle path =>
      refine .inr (.inl ⟨path, rfl, ?_⟩)
      rw [IsReferenceCycle, ← references_zoneSystem hsingle]
      exact hexplains
    | outOfFuel => exact .inr (.inr ⟨rfl, (hasPath_iff hsingle (budget + 1)).mp hexplains⟩)

/-- Unless the recursion runs out of room, `resolve_zones` returns exactly when no reference dangles and none
is circular. It then returns the only family of sets that satisfies the definitions. In whatever order the
mapping lists them, otherwise its error names a dangling reference or a cycle, or is a `RecursionError`, for
which a chain of zones must be longer than the room for nested evaluations; it takes so many zones. -/
theorem resolve_zones_exact (budget : Nat) (zones : Dict ZoneName ZoneConfig)
    (definitions : Dict ZoneName ZoneDefinition) (hzones : coerceDefinitions zones = .ok definitions)
    (hsingle : SingleExpressions definitions) :
    (resolveZones budget zones ≠ .error recursionDepthExceeded →
      ((∃ resolved, resolveZones budget zones = .ok resolved) ↔
        (∀ a b, ¬DanglingReference definitions a b) ∧
          ∀ a, ¬Relation.TransGen (References definitions) a a)) ∧
    (∀ resolved, resolveZones budget zones = .ok resolved →
      (∀ a b, ¬DanglingReference definitions a b) ∧ (∀ a, ¬Relation.TransGen (References definitions) a a) ∧
      (∀ zone, zone ∈ resolved.keys ↔ zone ∈ zones.keys) ∧
      ∀ f : ZoneName → Set SourceId, Satisfies definitions f ↔
        ∀ zone ∈ zones.keys, ∃ ids, resolved.get? zone = some ids ∧ (ids : Set SourceId) = f zone) ∧
    (∀ zones' : Dict ZoneName ZoneConfig, zones'.entries.Perm zones.entries →
      resolveZones budget zones' = resolveZones budget zones) ∧
    (∀ e, resolveZones budget zones = .error e →
      (∃ a b, e = unknownZone (some a) b ∧ DanglingReference definitions a b) ∨
      (∃ path, e = circularZoneReference path ∧ IsReferenceCycle definitions path) ∨
      e = recursionDepthExceeded ∧ HasReferenceChain definitions (budget + 1)) ∧
    (HasReferenceChain definitions (budget + 1) → budget < zones.size) := by
  have hnames : ∀ zone, ((zoneSystem definitions).operands zone).isSome ↔
      zone ∈ sortedNames definitions.keys := by
    intro zone
    rw [mem_sortedNames, operands_isSome_iff]
  have hreturns : resolveZones budget zones ≠ .error recursionDepthExceeded →
      ((∃ resolved, resolveZones budget zones = .ok resolved) ↔
        (∀ a b, ¬DanglingReference definitions a b) ∧
          ∀ a, ¬Relation.TransGen (References definitions) a a) := by
    intro hroom
    have hbudget : (zoneSystem definitions).resolveAll budget (sortedNames definitions.keys) ≠
        .error .outOfFuel := by
      intro hfuel
      apply hroom
      rw [resolveZones_eq hzones hsingle, hfuel]
      rfl
    have hall := System.resolveAll_isOk_iff hnames hbudget
    simp only [System.Acyclic, references_zoneSystem hsingle, dangling_iff hsingle] at hall
    rw [← hall]
    constructor
    · rintro ⟨resolved, h⟩
      obtain ⟨memo, hmemo, -⟩ := resolveAll_of_resolveZones hzones hsingle h
      exact ⟨memo, hmemo⟩
    · rintro ⟨memo, hmemo⟩
      refine ⟨sortZones memo, ?_⟩
      rw [resolveZones_eq hzones hsingle, hmemo]
      rfl
  refine ⟨hreturns, ?_, fun zones' hperm => resolveZones_of_perm hzones hsingle hperm,
    fun e h => resolveZones_error hzones hsingle h, ?_⟩
  · intro resolved h
    have hroom : resolveZones budget zones ≠ .error recursionDepthExceeded := by
      rw [h]
      intro hraises
      cases hraises
    obtain ⟨hdangling, hacyclic⟩ := (hreturns hroom).mp ⟨resolved, h⟩
    exact ⟨hdangling, hacyclic, (resolveZones_ok hzones hsingle h).1, satisfies_iff hzones hsingle h⟩
  · intro hchain
    have hle := ((hasPath_iff hsingle (budget + 1)).mpr hchain).le_length (fun zone => (hnames zone).mp)
    rw [(sortedNames_perm _).length_eq, keys_of_coerceDefinitions hzones, Dict.length_keys] at hle
    exact hle

lemma singleExpressions_iff :
    SingleExpressions definitions ↔ ∀ e ∈ definitions.entries, e.2.expressions.length = 1 := by
  constructor
  · intro h e he
    exact h e.1 e.2 ((Dict.get?_eq_some_iff _ _ _).mpr he)
  · intro h zone definition hget
    exact h (zone, definition) ((Dict.get?_eq_some_iff _ _ _).mp hget)

/-- A port, an anchorage inside it, and the port without the anchorage. -/
def harbourZones : Dict ZoneName ZoneConfig :=
  .ofEntries [
    (str "rest", .value (.obj [(str "difference", .arr [.str (str "port"), .str (str "anchorage")])])),
    (str "port", .value (.obj [(str "include", .arr [.str (str "a"), .str (str "b")])])),
    (str "anchorage", .definition { includes := some [str "b"] })]

def harbourDefinitions : Dict ZoneName ZoneDefinition :=
  .ofEntries [(str "rest", { difference := some [str "port", str "anchorage"] }),
    (str "port", { includes := some [str "a", str "b"] }),
    (str "anchorage", { includes := some [str "b"] })]

theorem resolve_zones_exact_harbour :
    (∀ a, ¬Relation.TransGen (References harbourDefinitions) a a) ∧
    ∃ resolved, resolveZones 1000 harbourZones = .ok resolved ∧
      resolved.get? (str "rest") = some {str "a"} ∧
      ∀ f, Satisfies harbourDefinitions f → f (str "rest") = {str "a"} := by
  have hzones : coerceDefinitions harbourZones = .ok harbourDefinitions := by
    rw [coerceDefinitions_ok_iff]
    rfl
  have hsingle : SingleExpressions harbourDefinitions := by
    rw [singleExpressions_iff]
    decide
  obtain ⟨-, hresult, -⟩ := resolve_zones_exact 1000 harbourZones harbourDefinitions hzones hsingle
  have hrest : (resolveZones 1000 harbourZones).toOption.bind (fun r => r.get? (str "rest")) =
      some {str "a"} := by decide +kernel
  cases h : resolveZones 1000 harbourZones with
  | error e => simp [h, Except.toOption] at hrest
  | ok resolved =>
    have hget : resolved.get? (str "rest") = some {str "a"} := by
      simpa [h, Except.toOption] using hrest
    obtain ⟨-, hacyclic, -, hfamily⟩ := hresult resolved h
    refine ⟨hacyclic, resolved, rfl, hget, ?_⟩
    intro f hf
    obtain ⟨ids, hids, hcoe⟩ := (hfamily f).mp hf (str "rest") (by decide)
    rw [hget] at hids
    rw [← hcoe, ← Option.some_inj.mp hids]
    simp

/-! ### A chain that is too long -/

def chainZone (k : Nat) : ZoneName := List.replicate (k + 1) 0x61

/-- Each zone of the chain is the one after it; the last is empty. -/
def chainDefinition (last k : Nat) : ZoneDefinition :=
  if k < last then { union := some [chainZone (k + 1)] } else { includes := some [] }

lemma chainZone_injective : Function.Injective chainZone := by
  intro j k h
  have hlength := congrArg List.length h
  simpa [chainZone] using hlength

lemma chainZones_nodup (n : Nat) : ((List.range n).map chainZone).Nodup :=
  List.nodup_range.map chainZone_injective

def chainDefinitions (last : Nat) : Dict ZoneName ZoneDefinition :=
  ⟨(List.range (last + 1)).map (fun k => (chainZone k, chainDefinition last k)), by
    rw [List.map_map]
    exact chainZones_nodup (last + 1)⟩

section Chain

variable {last : Nat}

lemma chainDefinitions_keys : (chainDefinitions last).keys = (List.range (last + 1)).map chainZone :=
  List.map_map

lemma get?_chainDefinitions {zone : ZoneName} {definition : ZoneDefinition} :
    (chainDefinitions last).get? zone = some definition ↔
      ∃ k ≤ last, zone = chainZone k ∧ definition = chainDefinition last k := by
  rw [Dict.get?_eq_some_iff]
  simp only [chainDefinitions, List.mem_map, List.mem_range, Nat.lt_succ_iff, Prod.mk.injEq]
  constructor
  · rintro ⟨k, hk, rfl, rfl⟩
    exact ⟨k, hk, rfl, rfl⟩
  · rintro ⟨k, hk, rfl, rfl⟩
    exact ⟨k, hk, rfl, rfl⟩

lemma chainDefinition_expressions (k : Nat) : (chainDefinition last k).expressions =
    if k < last then [(.union, [chainZone (k + 1)])] else [(.includes, [])] := by
  unfold chainDefinition
  split <;> rfl

lemma chain_single : SingleExpressions (chainDefinitions last) := by
  intro zone definition hget
  obtain ⟨k, -, -, rfl⟩ := get?_chainDefinitions.mp hget
  rw [chainDefinition_expressions]
  split <;> rfl

lemma chain_references {a b : ZoneName} (h : References (chainDefinitions last) a b) :
    ∃ k < last, a = chainZone k ∧ b = chainZone (k + 1) := by
  obtain ⟨definition, operation, zones, hget, hexpr, hne, hb⟩ := h
  obtain ⟨k, -, rfl, rfl⟩ := get?_chainDefinitions.mp hget
  rw [chainDefinition_expressions] at hexpr
  split at hexpr
  · next hk =>
    simp only [List.cons.injEq, Prod.mk.injEq, and_true] at hexpr
    obtain ⟨-, rfl⟩ := hexpr
    exact ⟨k, hk, rfl, List.mem_singleton.mp hb⟩
  · simp only [List.cons.injEq, Prod.mk.injEq, and_true] at hexpr
    exact (hne hexpr.1.symm).elim

lemma chain_acyclic (a : ZoneName) : ¬Relation.TransGen (References (chainDefinitions last)) a a := by
  have hlonger : ∀ b, Relation.TransGen (References (chainDefinitions last)) a b → a.length < b.length := by
    intro b h
    induction h with
    | single hstep =>
      obtain ⟨k, -, rfl, rfl⟩ := chain_references hstep
      simp [chainZone]
    | tail _ hstep ih =>
      obtain ⟨k, -, rfl, rfl⟩ := chain_references hstep
      simp only [chainZone, List.length_replicate] at ih ⊢
      omega
  intro h
  exact lt_irrefl _ (hlonger a h)

lemma chain_not_dangling (a b : ZoneName) : ¬DanglingReference (chainDefinitions last) a b := by
  rintro ⟨href, hundefined⟩
  obtain ⟨k, hk, -, rfl⟩ := chain_references href
  apply hundefined
  rw [chainDefinitions_keys]
  exact List.mem_map_of_mem (List.mem_range.mpr (by omega))

/-- From the first zones on, the recursion goes down the chain until it has no room. -/
lemma resolve_chain {room k : Nat} (h : k + room ≤ last) :
    resolve (chainDefinitions last) room ((List.range k).map chainZone) (chainZone k) .empty =
      .error recursionDepthExceeded := by
  have hpath : ∀ j, chainZone j ∉ (List.range j).map chainZone := by
    intro j hmem
    obtain ⟨i, hi, heq⟩ := List.mem_map.mp hmem
    obtain rfl := chainZone_injective heq
    exact lt_irrefl _ (List.mem_range.mp hi)
  have hget : ∀ j ≤ last, (chainDefinitions last).get? (chainZone j) = some (chainDefinition last j) :=
    fun j hj => get?_chainDefinitions.mpr ⟨j, hj, rfl, rfl⟩
  induction room generalizing k with
  | zero => simp only [resolve, Dict.get?_empty, hget k (by omega), hpath k, if_false]
  | succ room ih =>
    have hexpr : (chainDefinition last k).expressions = [(.union, [chainZone (k + 1)])] := by
      rw [chainDefinition_expressions, if_pos (by omega)]
    have hnext : (List.range k).map chainZone ++ [chainZone k] = (List.range (k + 1)).map chainZone := by
      rw [List.range_succ, List.map_append, List.map_singleton]
    have hdeeper := ih (k := k + 1) (by omega)
    have hne : ExpressionName.union ≠ .includes := by decide
    rw [resolve]
    simp only [Dict.get?_empty, hget k (by omega), hpath k, if_false, zoneExpression_of_expressions hexpr,
      Bind.bind, Except.bind, hne, hnext, System.resolveList, hdeeper]

lemma chain_sorted : sortedNames (chainDefinitions last).keys = (List.range (last + 1)).map chainZone := by
  rw [chainDefinitions_keys]
  apply List.Pairwise.insertionSort_eq
  rw [List.pairwise_map]
  refine List.pairwise_lt_range.imp (fun {j k} hjk => ?_)
  have hinitial : chainZone j <+: chainZone k :=
    ⟨List.replicate (k - j) 0x61, by rw [chainZone, chainZone, List.replicate_append_replicate]; congr 1; omega⟩
  exact not_lt.mp hinitial.le

end Chain

lemma coerceDefinitions_mapValues (definitions : Dict ZoneName ZoneDefinition) :
    coerceDefinitions (definitions.mapValues .definition) = .ok definitions := by
  rw [coerceDefinitions_ok_iff, mapM_ok_iff_forall₂]
  simp only [Dict.mapValues, List.forall₂_map_left_iff]
  apply List.forall₂_same.mpr
  intro e _
  rfl

/-- A chain of one zone more than there is room for cannot be resolved from its start. -/
lemma resolveZones_chain (last : Nat) :
    resolveZones last ((chainDefinitions last).mapValues .definition) = .error recursionDepthExceeded := by
  have hfirst : resolve (chainDefinitions last) last ((List.range 0).map chainZone) (chainZone 0) .empty = _ :=
    resolve_chain (by omega)
  have hsorted : sortedNames (chainDefinitions last).keys =
      chainZone 0 :: (List.range last).map (chainZone ∘ Nat.succ) := by
    rw [chain_sorted, List.range_succ_eq_map, List.map_cons, List.map_map]
  simp only [resolveZones, coerceDefinitions_mapValues, Bind.bind, Except.bind, hsorted, System.resolveList]
  rw [← List.map_nil (f := chainZone), ← List.range_zero, hfirst]

/-- With the default limit of 1000, a chain of 1001 zones without dangling references and cycles raises a
`RecursionError`. -/
theorem resolve_zones_raises :
    coerceDefinitions ((chainDefinitions 1000).mapValues .definition) = .ok (chainDefinitions 1000) ∧
      SingleExpressions (chainDefinitions 1000) ∧
      ¬((∃ resolved, resolveZones 1000 ((chainDefinitions 1000).mapValues .definition) = .ok resolved) ↔
        (∀ a b, ¬DanglingReference (chainDefinitions 1000) a b) ∧
          ∀ a, ¬Relation.TransGen (References (chainDefinitions 1000)) a a) := by
  refine ⟨coerceDefinitions_mapValues _, chain_single, ?_⟩
  intro h
  obtain ⟨resolved, hresolved⟩ := h.mpr ⟨chain_not_dangling, chain_acyclic⟩
  rw [resolveZones_chain] at hresolved
  cases hresolved

end AisMixer.Routing

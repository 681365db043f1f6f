import AisMixer.Library.Repr
import AisMixer.Library.Resolution

/-!
# Zone definitions and their resolution

`core/routing.py`: the expressions that define named zones of source ids, the coercion of
plain configuration values, and `resolve_zones`. A configuration value is JSON-shaped; a
list stands for any iterable in its iteration order.
-/

namespace AisMixer.Routing

open Library

abbrev SourceId := PyStr

abbrev TargetId := PyStr

abbrev ZoneName := PyStr

/-- The exception classes of the routing modules. -/
inductive ErrorKind where
  | typeError
  | valueError
  | runtimeError
  | assertionError
  | recursionError
  | runtimeRoutingConfigError
  | zoneResolutionError
  | unknownZoneError
  | circularZoneReferenceError
  deriving DecidableEq

structure RoutingError where
  kind : ErrorKind
  message : Message
  deriving DecidableEq

/-- A part of a message as the source writes it. -/
abbrev lit (s : String) : MessagePart := .text (str s)

def sortedNames (names : List PyStr) : List PyStr := names.insertionSort (· ≤ ·)

/-- A named-zone expression. `includes` holds source ids, the others hold zone names. -/
structure ZoneDefinition where
  includes : Option (List SourceId) := none
  union : Option (List ZoneName) := none
  intersection : Option (List ZoneName) := none
  difference : Option (List ZoneName) := none
  deriving DecidableEq

inductive ZoneConfig where
  | definition (d : ZoneDefinition)
  | value (v : Json)

abbrev ResolvedZones := Dict ZoneName (Finset SourceId)

/-! ### Plain values -/

def notIterable (typeName : String) : RoutingError :=
  ⟨.typeError, [lit "'", lit typeName, lit "' object is not iterable"]⟩

/-- `tuple(value)`. -/
def iterate : Json → Except RoutingError (List Json)
  | .null => .error (notIterable "NoneType")
  | .bool _ => .error (notIterable "bool")
  | .int _ => .error (notIterable "int")
  | .float _ => .error (notIterable "float")
  | .str s => .ok (s.map (fun c => .str [c]))
  | .arr items => .ok items
  | .obj members => .ok (members.map (fun m => .str m.1))

def stringItem : Json → Option PyStr
  | .str s => some s
  | _ => none

def asStringTuple (value : Json) (fieldName : PyStr) : Except RoutingError (List PyStr) :=
  match value with
  | .str _ =>
    .error ⟨.typeError, [.repr fieldName, lit " must be a sequence of strings, not a string."]⟩
  | value => do
    let result ← iterate value
    orRaise ⟨.typeError, [.repr fieldName, lit " must contain only strings."]⟩ (result.mapM stringItem)

/-- The members of a mapping that are not among the valid fields, sorted. -/
def unknownFields (validFields : List PyStr) (members : List (PyStr × Json)) : List PyStr :=
  sortedNames ((members.map Prod.fst).filter (fun field => field ∉ validFields))

/-- A keyword argument of `ZoneDefinition(**value)`, `None` when it is not given. -/
def zoneField (members : List (PyStr × Json)) (fieldName : PyStr) :
    Except RoutingError (Option (List PyStr)) :=
  match Dict.lookupEntries fieldName members with
  | none => .ok none
  | some .null => .ok none
  | some value => (asStringTuple value fieldName).map some

def zoneFields : List PyStr := [str "include", str "union", str "intersection", str "difference"]

def coerceZoneDefinition (zoneName : ZoneName) (value : ZoneConfig) :
    Except RoutingError ZoneDefinition :=
  match value with
  | .definition d => .ok d
  | .value (.obj members) =>
    if unknownFields zoneFields members ≠ [] then
      .error ⟨.zoneResolutionError, [lit "Zone ", .repr zoneName, lit " has unknown field(s): ",
        .text (join (str ", ") (unknownFields zoneFields members)), lit "."]⟩
    else do
      let includes ← zoneField members (str "include")
      let union ← zoneField members (str "union")
      let intersection ← zoneField members (str "intersection")
      let difference ← zoneField members (str "difference")
      return ⟨includes, union, intersection, difference⟩
  | .value _ =>
    .error ⟨.typeError, [lit "Zone ", .repr zoneName, lit " must be a mapping or ZoneDefinition."]⟩

/-! ### Expressions -/

inductive ExpressionName where
  | includes
  | union
  | intersection
  | difference
  deriving DecidableEq

/-- The expressions that a definition gives. -/
def ZoneDefinition.expressions (d : ZoneDefinition) : List (ExpressionName × List PyStr) :=
  [(ExpressionName.includes, d.includes), (.union, d.union), (.intersection, d.intersection),
    (.difference, d.difference)].filterMap (fun e => e.2.map (fun values => (e.1, values)))

def zoneExpression (zoneName : ZoneName) (definition : ZoneDefinition) :
    Except RoutingError (ExpressionName × List PyStr) :=
  match definition.expressions with
  | [expression] => .ok expression
  | _ =>
    .error ⟨.zoneResolutionError, [lit "Zone ", .repr zoneName,
      lit " must define exactly one of include, union, ", lit "intersection, or difference."]⟩

def applyOperation (operation : ExpressionName) (operands : List (Finset SourceId)) :
    Except RoutingError (Finset SourceId) :=
  match operands with
  | [] => .ok ∅
  | first :: rest =>
    match operation with
    | .union => .ok ((first :: rest).foldl (· ∪ ·) ∅)
    | .intersection => .ok (rest.foldl (· ∩ ·) first)
    | .difference => .ok (rest.foldl (· \ ·) first)
    | .includes => .error ⟨.assertionError, [lit "Unsupported zone operation: include"]⟩

/-! ### Resolution -/

def unknownZone (referencedBy : Option ZoneName) (zoneName : ZoneName) : RoutingError :=
  match referencedBy with
  | none => ⟨.unknownZoneError, [lit "Unknown zone ", .repr zoneName, lit "."]⟩
  | some zone =>
    ⟨.unknownZoneError,
      [lit "Zone ", .repr zone, lit " references unknown zone ", .repr zoneName, lit "."]⟩

def circularZoneReference (cycle : List ZoneName) : RoutingError :=
  ⟨.circularZoneReferenceError, [lit "Circular zone reference detected: ",
    .text (join (str " -> ") cycle), lit "."]⟩

def recursionDepthExceeded : RoutingError :=
  ⟨.recursionError, [lit "maximum recursion depth exceeded"]⟩

/-- The inner function of `resolve_zones`. The number is how many more definitions may be evaluated inside one
another before the recursion limit of the interpreter: `_zone_expression` needs more frames than the tests
before it, so these do not fail for lack of room. -/
def resolve (definitions : Dict ZoneName ZoneDefinition) (room : Nat) (path : List ZoneName) (zoneName : ZoneName)
    (resolved : ResolvedZones) : Except RoutingError (Finset SourceId × ResolvedZones) :=
  match resolved.get? zoneName with
  | some result => .ok (result, resolved)
  | none =>
    match definitions.get? zoneName with
    | none => .error (unknownZone path.getLast? zoneName)
    | some definition =>
      if zoneName ∈ path then
        .error (circularZoneReference (System.cycleFrom path zoneName))
      else
        match room with
        | 0 => .error recursionDepthExceeded
        | room + 1 => do
          let (expressionName, values) ← zoneExpression zoneName definition
          let (result, resolved) ←
            if expressionName = .includes then .ok (values.toFinset, resolved)
            else do
              let (operands, resolved) ←
                System.resolveList (resolve definitions room (path ++ [zoneName])) values resolved
              let result ← applyOperation expressionName operands
              pure (result, resolved)
          return (result, resolved.set zoneName result)

/-- Every value of a mapping coerced, in the order of the mapping. -/
def coerceDefinitions (zones : Dict ZoneName ZoneConfig) :
    Except RoutingError (Dict ZoneName ZoneDefinition) := do
  let definitions ← zones.entries.mapM (fun e =>
    (coerceZoneDefinition e.1 e.2).map (fun definition => (e.1, definition)))
  return Dict.ofEntries definitions

/-- `resolve_zones`, with room to evaluate so many definitions inside one another. -/
def resolveZones (recursionBudget : Nat) (zones : Dict ZoneName ZoneConfig) :
    Except RoutingError ResolvedZones := do
  let definitions ← coerceDefinitions zones
  let (_, resolved) ← System.resolveList (resolve definitions recursionBudget [])
    (sortedNames definitions.keys) .empty
  return Dict.ofEntries ((sortedNames resolved.keys).filterMap (fun name =>
    (resolved.get? name).map (fun ids => (name, ids))))

end AisMixer.Routing

import AisMixer.DataPlane.ParsedSentence
import AisMixer.Library.Dict

/-!
# The multipart assembler

`AIVDMAssembler` collects the fragments of a message under a key until every ordinal is there.
`now` is the reading that a call takes from the clock of the assembler, if it takes one. A group
carries a number that stands for its identity as an object, so that two generations of one key
can be told apart.
-/

namespace AisMixer
open Library

structure AssemblyKey where
  sourceIdentity : PyStr
  sequentialId : PyStr
  channel : PyStr
  declaredTotal : Nat
  deriving DecidableEq

/-- The order of the tuples that keys are. -/
def AssemblyKey.le (k l : AssemblyKey) : Prop :=
  toLex (k.sourceIdentity, toLex (k.sequentialId, toLex (k.channel, k.declaredTotal))) ≤
    toLex (l.sourceIdentity, toLex (l.sequentialId, toLex (l.channel, l.declaredTotal)))

instance : DecidableRel AssemblyKey.le := fun _ _ => inferInstanceAs (Decidable (_ ≤ _))

/-- `sorted(keys)`. -/
def sortKeys (ks : List AssemblyKey) : List AssemblyKey := ks.insertionSort AssemblyKey.le

inductive AssemblyStatus where
  | invalid
  | single
  | limitExceeded
  | pending
  | duplicate
  | conflict
  | complete
  deriving DecidableEq

/-- An outcome; `generation` is the identity of the group that the arrival met. -/
structure AssemblyOutcome where
  status : AssemblyStatus
  groupKey : Option AssemblyKey := none
  sentences : List PyStr := []
  discardedKeys : List AssemblyKey := []
  generation : Option Nat := none
  deriving DecidableEq

/-- One live generation: its fragments and the time of its last unique progress. -/
structure AssemblyGroup where
  generation : Nat
  fragmentsByOrdinal : Dict Nat PyStr
  lastProgressAt : ℚ
  deriving DecidableEq

def AssemblyGroup.receivedCount (g : AssemblyGroup) : Nat := g.fragmentsByOrdinal.size

/-- The arguments of the constructor; a limit is `None` or at least one. -/
structure AssemblerConfig where
  timeout : ℚ
  maxFragmentsPerGroup : Option ℕ+
  maxPendingGroups : Option ℕ+

structure Assembler where
  groups : Dict AssemblyKey AssemblyGroup
  outcomeCounts : AssemblyStatus → Nat
  expired : Nat
  capacityEvicted : Nat
  resetDiscarded : Nat
  resets : Nat
  peakGroups : Nat
  peakFragments : Nat
  nextGeneration : Nat

namespace Assembler

def init : Assembler := ⟨.empty, fun _ => 0, 0, 0, 0, 0, 0, 0, 0⟩

/-- The bookkeeping of `_outcome`. -/
def count (s : Assembler) (status : AssemblyStatus) : Assembler :=
  { s with outcomeCounts := fun t => if t = status then s.outcomeCounts t + 1 else s.outcomeCounts t }

def isExpired (cfg : AssemblerConfig) (now : ℚ) (g : AssemblyGroup) : Bool :=
  cfg.timeout ≤ now - g.lastProgressAt

def expireGroup (s : Assembler) (key : AssemblyKey) : Assembler :=
  { s with groups := s.groups.erase key, expired := s.expired + 1 }

def cleanupExpired (cfg : AssemblerConfig) (s : Assembler) (now : ℚ) :
    Assembler × List AssemblyKey :=
  let expiredKeys := sortKeys
    ((s.groups.entries.filter (fun e => isExpired cfg now e.2)).map Prod.fst)
  (expiredKeys.foldl expireGroup s, expiredKeys)

def reset (s : Assembler) : Assembler × List AssemblyKey :=
  let discardedKeys := sortKeys s.groups.keys
  ({ s with
    groups := .empty
    resets := s.resets + 1
    resetDiscarded := s.resetDiscarded + discardedKeys.length }, discardedKeys)

/-- The order of `_evict_capacity_victim`: last progress first, then the key. -/
def victimBefore (e f : AssemblyKey × AssemblyGroup) : Bool :=
  e.2.lastProgressAt < f.2.lastProgressAt ∨
    e.2.lastProgressAt = f.2.lastProgressAt ∧ AssemblyKey.le e.1 f.1 ∧ e.1 ≠ f.1

/-- `min(entries)` in that order. -/
def victimOf (first : AssemblyKey × AssemblyGroup) (rest : List (AssemblyKey × AssemblyGroup)) :
    AssemblyKey × AssemblyGroup :=
  rest.foldl (fun best e => if victimBefore e best then e else best) first

def evictCapacityVictim (s : Assembler) : Assembler × Except PyException AssemblyKey :=
  match s.groups.entries with
  | [] => (s, .error (.valueError (str "min() iterable argument is empty")))
  | first :: rest =>
    let victim := (victimOf first rest).1
    ({ s with groups := s.groups.erase victim, capacityEvicted := s.capacityEvicted + 1 }, .ok victim)

def currentFragments (s : Assembler) : Nat :=
  (s.groups.values.map AssemblyGroup.receivedCount).sum

def updatePeaks (s : Assembler) : Assembler :=
  { s with
    peakGroups := max s.peakGroups s.groups.size
    peakFragments := max s.peakFragments s.currentFragments }

/-- The group of the key, after its expiry, and the keys discarded so far. -/
def findGroup (cfg : AssemblerConfig) (s : Assembler) (now : ℚ) (key : AssemblyKey) :
    Assembler × Option AssemblyGroup × List AssemblyKey :=
  match s.groups.get? key with
  | some g => if isExpired cfg now g then (s.expireGroup key, none, [key]) else (s, some g, [])
  | none => (s, none, [])

/-- Room for one more group: the keys discarded for it and whether a cleanup was made. -/
def makeRoom (cfg : AssemblerConfig) (s : Assembler) (now : ℚ) :
    Assembler × Except PyException (List AssemblyKey × Bool) :=
  match cfg.maxPendingGroups with
  | none => (s, .ok ([], false))
  | some limit =>
    if s.groups.size < limit then (s, .ok ([], false))
    else
      let (s, expiredKeys) := cleanupExpired cfg s now
      if s.groups.size < limit then (s, .ok (expiredKeys, true))
      else
        let (s, victim) := s.evictCapacityVictim
        (s, victim.map (fun victim => (expiredKeys ++ [victim], true)))

def openGroup (s : Assembler) (key : AssemblyKey) (now : ℚ) : Assembler × AssemblyGroup :=
  let group : AssemblyGroup := ⟨s.nextGeneration, .empty, now⟩
  ({ s with groups := s.groups.set key group, nextGeneration := s.nextGeneration + 1 }, group)

/-- The group that takes the arrival, the keys discarded so far and whether a cleanup was made. -/
def obtainGroup (cfg : AssemblerConfig) (s : Assembler) (now : ℚ) (key : AssemblyKey) :
    Assembler × Except PyException (AssemblyGroup × List AssemblyKey × Bool) :=
  let (s, group, discarded) := findGroup cfg s now key
  match group with
  | some group => (s, .ok (group, discarded, false))
  | none =>
    match makeRoom cfg s now with
    | (s, .error e) => (s, .error e)
    | (s, .ok (more, cleaned)) =>
      let (s, group) := s.openGroup key now
      (s, .ok (group, discarded ++ more, cleaned))

/-- `fragments[index] for index in range(1, total + 1)`; a missing ordinal is a `KeyError`. -/
def fullLines (fragments : Dict Nat PyStr) (total : Nat) : Except PyException (List PyStr) :=
  (List.range total).mapM (fun i => orRaise .keyError (fragments.get? (i + 1)))

/-- An arrival for a group that it has found or opened. -/
def placeFragment (cfg : AssemblerConfig) (s : Assembler) (now : ℚ) (key : AssemblyKey)
    (group : AssemblyGroup) (ordinal : Nat) (sentenceText : PyStr) (discarded : List AssemblyKey)
    (cleaned : Bool) : Assembler × Except PyException AssemblyOutcome :=
  match group.fragmentsByOrdinal.get? ordinal with
  | some stored =>
    if stored = sentenceText then
      let (s, more) := cleanupExpired cfg s now
      (s.count .duplicate, .ok ⟨.duplicate, some key, [], sortKeys (discarded ++ more),
        some group.generation⟩)
    else
      let s := { s with groups := s.groups.erase key }
      let (s, more) := cleanupExpired cfg s now
      (s.count .conflict, .ok ⟨.conflict, some key, [], sortKeys (discarded ++ [key] ++ more),
        some group.generation⟩)
  | none =>
    let group : AssemblyGroup := { group with
      fragmentsByOrdinal := group.fragmentsByOrdinal.set ordinal sentenceText
      lastProgressAt := now }
    let s := { s with groups := s.groups.set key group }
    if group.receivedCount = key.declaredTotal then
      match fullLines group.fragmentsByOrdinal key.declaredTotal with
      | .error e => (s, .error e)
      | .ok lines =>
        let s := { s with groups := s.groups.erase key }
        (s.count .complete, .ok ⟨.complete, some key, lines, sortKeys discarded,
          some group.generation⟩)
    else
      let (s, more) := if cleaned then (s, []) else cleanupExpired cfg s now
      (s.updatePeaks.count .pending, .ok ⟨.pending, some key, [], sortKeys (discarded ++ more),
        some group.generation⟩)

def feedValidatedFragment (cfg : AssemblerConfig) (s : Assembler) (now : ℚ)
    (sourceIdentity sentenceText : PyStr) (fragment : ParsedFragment) :
    Assembler × Except PyException AssemblyOutcome :=
  if fragment.declaredTotal = 1 then
    (s.count .single, .ok { status := .single, sentences := [sentenceText] })
  else if cfg.maxFragmentsPerGroup.any (fun limit => decide ((limit : Nat) < fragment.declaredTotal)) then
    (s.count .limitExceeded, .ok { status := .limitExceeded })
  else
    let key : AssemblyKey :=
      ⟨sourceIdentity, fragment.sequentialId, fragment.channel, fragment.declaredTotal⟩
    match obtainGroup cfg s now key with
    | (s, .error e) => (s, .error e)
    | (s, .ok (group, discarded, cleaned)) =>
      placeFragment cfg s now key group fragment.ordinal sentenceText discarded cleaned

def feedOutcome (cfg : AssemblerConfig) (s : Assembler) (now : ℚ) (sourceIdentity line : PyStr) :
    Assembler × Except PyException AssemblyOutcome :=
  match leadingFields line with
  | none => (s.count .invalid, .ok { status := .invalid })
  | some (total, current, sequentialId, channel) =>
    match pyInt total, pyInt current with
    | some total, some current =>
      match ParsedFragment.check total current sequentialId channel with
      | none => (s.count .invalid, .ok { status := .invalid })
      | some fragment => feedValidatedFragment cfg s now sourceIdentity line fragment
    | _, _ => (s.count .invalid, .ok { status := .invalid })

def feedParsedOutcome (cfg : AssemblerConfig) (s : Assembler) (now : ℚ) (parsed : ParsedSentence) :
    Assembler × Except PyException AssemblyOutcome :=
  match parsed.fragment with
  | none => (s.count .invalid, .ok { status := .invalid })
  | some fragment =>
    match parsed.text with
    | .error e => (s, .error e)
    | .ok sentenceText =>
      feedValidatedFragment cfg s now parsed.frame.assemblerKey sentenceText fragment

end Assembler

end AisMixer

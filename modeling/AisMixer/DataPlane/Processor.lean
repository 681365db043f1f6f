import AisMixer.DataPlane.Assembler
import AisMixer.DataPlane.Deduplicator
import AisMixer.DataPlane.SourceState
import AisMixer.DataPlane.OutputBuilder

/-!
# The data-plane processor

`PythonDataPlaneProcessor` as a state and a function of a frame and a snapshot. The clocks and
the group-id generator are streams of readings, and `Readings` counts how many of each were used.
The assembler clock has one reading for each sentence, whether the assembler takes it or not,
and the wall clock and the clock of the source state have one for each output.
-/

namespace AisMixer
open Library

inductive DeduplicationMode where
  | global
  | perTarget
  deriving DecidableEq

abbrev EgressTargetId := Nat

structure ProcessingSnapshot where
  routingGeneration : Nat
  deduplicationMode : DeduplicationMode
  targetIds : List EgressTargetId
  nodup : targetIds.Nodup
  deriving DecidableEq

structure ProcessorOutput where
  message : Bytes
  targetIds : List EgressTargetId
  deriving DecidableEq

structure ProcessingConfig where
  stationId : Option PyStr
  preserveIngressC : Bool
  preserveIngressGid : Bool
  alwaysTagSingle : Bool
  gidDigits : Nat

/-- The configuration of the processor and of the components that it owns. -/
structure ProcessorConfig where
  processing : ProcessingConfig
  assembler : AssemblerConfig
  dedup : DedupConfig
  source : TTLMapConfig

structure Environment where
  assemblerClock : Nat → ℚ
  dedupClock : Nat → ℚ
  sourceClock : Nat → Int
  wallClock : Nat → ℚ
  gidGenerator : Nat → Nat → PyStr

structure Readings where
  assembler : Nat
  dedup : Nat
  output : Nat
  gid : Nat

/-- The three dictionaries of metadata of pending groups. -/
structure MultipartContexts where
  s : Dict AssemblyKey PyStr
  c : Dict AssemblyKey Int
  gid : Dict AssemblyKey (Dict PyStr Unit)

/-- The deduplication key of a message: its text, or the tuple of its texts. -/
inductive LogicalKey where
  | single (text : PyStr)
  | tuple (texts : List PyStr)
  deriving DecidableEq

structure ProcessorCounters where
  processCalls : Nat
  processCompleted : Nat
  processFailed : Nat
  outputlessCalls : Nat
  outputBatches : Nat
  outputMessages : Nat
  resetCalls : Nat
  resetCompleted : Nat

structure Processor where
  assembler : Assembler
  deduplicator : Deduplicator EgressTargetId LogicalKey
  sourceState : SourceState
  contexts : MultipartContexts
  counters : ProcessorCounters
  readings : Readings

/-- One call of the deduplicator. -/
structure Decision where
  scope : Option EgressTargetId
  message : LogicalKey
  time : ℚ
  admitted : Bool
  deriving DecidableEq

/-- What the loop body does with a message that is complete. -/
structure Emission where
  lines : List PyStr
  timestamp : HeaderTimestamp
  gid : PyStr
  decisions : List Decision
  targetIds : List EgressTargetId
  emitted : Bool
  outputs : List ProcessorOutput
  deriving DecidableEq

/-- One pass of the loop over the sentences of a frame. -/
structure SentenceReport where
  parsed : ParsedSentence
  snapshot : ProcessingSnapshot
  outcome : AssemblyOutcome
  emission : Option Emission
  deriving DecidableEq

def SentenceReport.outputs (r : SentenceReport) : List ProcessorOutput :=
  match r.emission with
  | some e => e.outputs
  | none => []

namespace MultipartContexts

def empty : MultipartContexts := ⟨.empty, .empty, .empty⟩

def discard (ctx : MultipartContexts) (keys : List AssemblyKey) : MultipartContexts :=
  ⟨ctx.s.eraseAll keys, ctx.c.eraseAll keys, ctx.gid.eraseAll keys⟩

/-- The minimum with the value seen before. -/
def observeC (ctx : MultipartContexts) (key : AssemblyKey) (validC : Option Int) : MultipartContexts :=
  match validC with
  | none => ctx
  | some c =>
    { ctx with c := ctx.c.set key (match ctx.c.get? key with
        | none => c
        | some previous => min previous c) }

/-- One more member of the set of group ids. -/
def observeGid (ctx : MultipartContexts) (key : AssemblyKey) (gid : Option PyStr) : MultipartContexts :=
  match gid with
  | none => ctx
  | some gid => { ctx with gid := ctx.gid.set key (((ctx.gid.get? key).getD .empty).set gid ()) }

def observeS (ctx : MultipartContexts) (key : AssemblyKey) (tag : ParsedTagMetadata) : MultipartContexts :=
  match tag.sValue, tag.gValue with
  | some s, some _ => { ctx with s := ctx.s.set key s }
  | _, _ => ctx

end MultipartContexts

namespace Processor

/-- The constructor; the TTL map reads its clock once. -/
def init (startNs : Int) : Processor where
  assembler := .init
  deduplicator := .init
  sourceState := .init startNs
  contexts := .empty
  counters := ⟨0, 0, 0, 0, 0, 0, 0, 0⟩
  readings := ⟨0, 0, 0, 0⟩

def validC (cfg : ProcessingConfig) (parsed : ParsedSentence) : Option Int :=
  if cfg.preserveIngressC then parsed.tag.cValue else none

def currentIngressGid (parsed : ParsedSentence) : Option PyStr :=
  parsed.tag.gValue.bind ParsedGroupTag.preservableGroupId

/-- The metadata of an arrival, after the discarded generations have lost theirs. -/
def observe (cfg : ProcessingConfig) (ctx : MultipartContexts) (parsed : ParsedSentence)
    (outcome : AssemblyOutcome) : MultipartContexts :=
  let ctx := ctx.discard outcome.discardedKeys
  match outcome.groupKey with
  | none => ctx
  | some key =>
    if outcome.status = .pending ∨ outcome.status = .duplicate ∨ outcome.status = .complete then
      let ctx := ctx.observeC key (validC cfg parsed)
      let ctx := ctx.observeGid key (if cfg.preserveIngressGid then currentIngressGid parsed else none)
      if outcome.status = .complete then ctx else ctx.observeS key parsed.tag
    else ctx

/-- `"0" if selected_c == 0 else selected_c` for a group, the own value for a single sentence. -/
def selectTimestamp (cfg : ProcessingConfig) (ctx : MultipartContexts) (parsed : ParsedSentence)
    (outcome : AssemblyOutcome) : HeaderTimestamp :=
  match outcome.status, outcome.groupKey with
  | .complete, some key =>
    match if cfg.preserveIngressC then ctx.c.get? key else none with
    | none => .none
    | some c => if c = 0 then .text (str "0") else .int c
  | _, _ =>
    match validC cfg parsed with
    | none => .none
    | some c => .int c

/-- The preserved group id; `none` calls the generator. -/
def selectGid (cfg : ProcessingConfig) (ctx : MultipartContexts) (parsed : ParsedSentence)
    (outcome : AssemblyOutcome) : Option PyStr :=
  match outcome.status, outcome.groupKey with
  | .complete, some key =>
    match ((ctx.gid.get? key).getD .empty).keys with
    | [gid] => if cfg.preserveIngressGid then some gid else none
    | _ => none
  | _, _ => if cfg.preserveIngressGid then currentIngressGid parsed else none

def incomingS (ctx : MultipartContexts) (parsed : ParsedSentence) (outcome : AssemblyOutcome) :
    Option PyStr :=
  match outcome.status, outcome.groupKey with
  | .complete, some key => (nonEmpty parsed.tag.sValue).or (ctx.s.get? key)
  | _, _ => parsed.tag.sValue

def logicalKey (lines : List PyStr) : LogicalKey :=
  match lines with
  | [line] => .single line
  | lines => .tuple lines

/-- One call of `is_unique`, at the next reading of its clock. -/
def dedupCall (cfg : ProcessorConfig) (env : Environment) (p : Processor) (message : LogicalKey)
    (scope : Option EgressTargetId) : Processor × Except PyException Decision :=
  let now := env.dedupClock p.readings.dedup
  let (d, unique) := p.deduplicator.isUnique cfg.dedup now message scope
  let p := { p with
    deduplicator := d
    readings := { p.readings with dedup := p.readings.dedup + 1 } }
  (p, unique.map (fun admitted => ⟨scope, message, now, admitted⟩))

/-- The calls for the targets of a snapshot, in their order. -/
def decideTargets (cfg : ProcessorConfig) (env : Environment) (message : LogicalKey) :
    List EgressTargetId → Processor → Processor × Except PyException (List Decision)
  | [], p => (p, .ok [])
  | target :: rest, p =>
    match dedupCall cfg env p message (some target) with
    | (p, .error e) => (p, .error e)
    | (p, .ok decision) =>
      match decideTargets cfg env message rest p with
      | (p, .error e) => (p, .error e)
      | (p, .ok decisions) => (p, .ok (decision :: decisions))

/-- The decisions on a message, the eligible targets and whether the message goes out. -/
def deduplicate (cfg : ProcessorConfig) (env : Environment) (p : Processor)
    (snapshot : ProcessingSnapshot) (message : LogicalKey) :
    Processor × Except PyException (List Decision × List EgressTargetId × Bool) :=
  match snapshot.deduplicationMode with
  | .global =>
    match dedupCall cfg env p message none with
    | (p, .error e) => (p, .error e)
    | (p, .ok decision) => (p, .ok ([decision], snapshot.targetIds, decision.admitted))
  | .perTarget =>
    match decideTargets cfg env message snapshot.targetIds p with
    | (p, .error e) => (p, .error e)
    | (p, .ok decisions) =>
      let eligible := (decisions.filter Decision.admitted).filterMap Decision.scope
      (p, .ok (decisions, eligible, !eligible.isEmpty))

/-- What every line of a message is written with. -/
structure LineFormat where
  sValue : PyStr
  timestamp : HeaderTimestamp
  gid : PyStr
  total : Nat
  tagged : Bool
  targetIds : List EgressTargetId

/-- `f"{index + 1}-{total_parts}-{output_gid}"`, if the message is tagged. -/
def gTriplet (fmt : LineFormat) (index : Nat) : Option PyStr :=
  if fmt.tagged then
    some (natStr (index + 1) ++ str "-" ++ natStr fmt.total ++ str "-" ++ fmt.gid)
  else none

/-- The loop over the lines of a message that goes out. -/
def emitLines (cfg : ProcessorConfig) (env : Environment) (fmt : LineFormat) (index : Nat) :
    List PyStr → Processor → Processor × Except PyException (List ProcessorOutput)
  | [], p => (p, .ok [])
  | line :: rest, p =>
    let sourceState := p.sourceState.touchS cfg.source fmt.sValue (env.sourceClock p.readings.output)
    let wall := env.wallClock p.readings.output
    let p := { p with
      sourceState := sourceState
      readings := { p.readings with output := p.readings.output + 1 } }
    match buildOutputBytes line fmt.sValue fmt.timestamp (index == 0) (gTriplet fmt index) wall with
    | .error e => (p, .error e)
    | .ok message =>
      match emitLines cfg env fmt (index + 1) rest p with
      | (p, .error e) => (p, .error e)
      | (p, .ok outputs) => (p, .ok (⟨message, fmt.targetIds⟩ :: outputs))

/-- The rest of the loop body for a single sentence or a complete group. -/
def emit (cfg : ProcessorConfig) (env : Environment) (frame : IngressFrame)
    (snapshot : ProcessingSnapshot) (leadingS : Option PyStr) (p : Processor) (parsed : ParsedSentence)
    (outcome : AssemblyOutcome) : Processor × Except PyException Emission :=
  let lines := outcome.sentences
  let timestamp := selectTimestamp cfg.processing p.contexts parsed outcome
  let selected := selectGid cfg.processing p.contexts parsed outcome
  let gid := selected.getD (env.gidGenerator cfg.processing.gidDigits p.readings.gid)
  let p := if selected.isSome then p
    else { p with readings := { p.readings with gid := p.readings.gid + 1 } }
  match deduplicate cfg env p snapshot (logicalKey lines) with
  | (p, .error e) => (p, .error e)
  | (p, .ok (decisions, eligible, emitted)) =>
    let sValue := chooseSValueFromCandidates cfg.processing.stationId
      ((nonEmpty frame.aliasForS).or (incomingS p.contexts parsed outcome)) leadingS frame.remoteIp
    let tagged := decide (1 < lines.length) || (lines.length == 1 && cfg.processing.alwaysTagSingle)
    match emitLines cfg env ⟨sValue, timestamp, gid, lines.length, tagged, eligible⟩ 0
        (if emitted then lines else []) p with
    | (p, .error e) => (p, .error e)
    | (p, .ok outputs) =>
      let contexts := if outcome.status = .complete then p.contexts.discard outcome.groupKey.toList
        else p.contexts
      ({ p with contexts := contexts },
        .ok ⟨lines, timestamp, gid, decisions, eligible, emitted, outputs⟩)

/-- The loop body for one sentence. -/
def processSentence (cfg : ProcessorConfig) (env : Environment) (frame : IngressFrame)
    (snapshot : ProcessingSnapshot) (leadingS : Option PyStr) (p : Processor) (parsed : ParsedSentence) :
    Processor × Except PyException SentenceReport :=
  let now := env.assemblerClock p.readings.assembler
  let (assembler, fed) := p.assembler.feedParsedOutcome cfg.assembler now parsed
  let p := { p with
    assembler := assembler
    readings := { p.readings with assembler := p.readings.assembler + 1 } }
  match fed with
  | .error e => (p, .error e)
  | .ok outcome =>
    let p := { p with contexts := observe cfg.processing p.contexts parsed outcome }
    if outcome.status = .single ∨ outcome.status = .complete then
      match emit cfg env frame snapshot leadingS p parsed outcome with
      | (p, .error e) => (p, .error e)
      | (p, .ok emission) => (p, .ok ⟨parsed, snapshot, outcome, some emission⟩)
    else (p, .ok ⟨parsed, snapshot, outcome, none⟩)

def processSentences (cfg : ProcessorConfig) (env : Environment) (frame : IngressFrame)
    (snapshot : ProcessingSnapshot) (leadingS : Option PyStr) :
    List ParsedSentence → Processor → Processor × Except PyException (List SentenceReport)
  | [], p => (p, .ok [])
  | parsed :: rest, p =>
    match processSentence cfg env frame snapshot leadingS p parsed with
    | (p, .error e) => (p, .error e)
    | (p, .ok report) =>
      match processSentences cfg env frame snapshot leadingS rest p with
      | (p, .error e) => (p, .error e)
      | (p, .ok reports) => (p, .ok (report :: reports))

/-- `_process_impl`, with the report of every sentence in place of the outputs alone. -/
def processImpl (cfg : ProcessorConfig) (env : Environment) (p : Processor) (frame : IngressFrame)
    (snapshot : ProcessingSnapshot) : Processor × Except PyException (List SentenceReport) :=
  match parseLeadingSValue frame, parseFrameSentences frame true with
  | .error e, _ => (p, .error e)
  | .ok _, .error e => (p, .error e)
  | .ok leadingS, .ok sentences => processSentences cfg env frame snapshot leadingS sentences p

/-- The outputs of a call: those of its sentences, one after another. -/
def batch (reports : List SentenceReport) : List ProcessorOutput :=
  reports.flatMap SentenceReport.outputs

def countCompleted (counters : ProcessorCounters) (outputs : Nat) : ProcessorCounters :=
  let counters := { counters with processCompleted := counters.processCompleted + 1 }
  if outputs = 0 then { counters with outputlessCalls := counters.outputlessCalls + 1 }
  else { counters with
    outputBatches := counters.outputBatches + 1
    outputMessages := counters.outputMessages + outputs }

/-- The processor as a call hands it to the sentences of its frame. -/
def called (p : Processor) : Processor :=
  { p with counters := { p.counters with processCalls := p.counters.processCalls + 1 } }

/-- `process`; the reports stand for the batch, which is `batch` of them. -/
def process (cfg : ProcessorConfig) (env : Environment) (p : Processor) (frame : IngressFrame)
    (snapshot : ProcessingSnapshot) : Processor × Except PyException (List SentenceReport) :=
  match processImpl cfg env (called p) frame snapshot with
  | (p, .error e) =>
    ({ p with counters := { p.counters with processFailed := p.counters.processFailed + 1 } }, .error e)
  | (p, .ok reports) =>
    ({ p with counters := countCompleted p.counters (batch reports).length }, .ok reports)

structure ProcessorResetReport where
  assemblerGroupsDiscarded : Nat
  dedupEntriesDiscarded : Nat
  sourceEntriesDiscarded : Nat
  multipartSContextsDiscarded : Nat
  multipartCContextsDiscarded : Nat
  multipartGidContextsDiscarded : Nat

def reset (env : Environment) (p : Processor) : Processor × ProcessorResetReport :=
  let (assembler, groups) := p.assembler.reset
  let (deduplicator, entries) := p.deduplicator.reset
  let (sourceState, sources) := p.sourceState.reset (env.sourceClock p.readings.output)
  ({ p with
    assembler := assembler
    deduplicator := deduplicator
    sourceState := sourceState
    contexts := .empty
    counters := { p.counters with
      resetCalls := p.counters.resetCalls + 1
      resetCompleted := p.counters.resetCompleted + 1 }
    readings := { p.readings with output := p.readings.output + 1 } },
    ⟨groups.length, entries, sources, p.contexts.s.size, p.contexts.c.size, p.contexts.gid.size⟩)

end Processor

end AisMixer

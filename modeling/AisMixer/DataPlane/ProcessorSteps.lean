import AisMixer.DataPlane.Processor
import AisMixer.DataPlane.AssemblerRuns

/-!
# What one sentence does to the processor

Inversion of the loop body, and runs of `process` as runs of the loop body: between the sentences
only the counters change.
-/

namespace AisMixer
open Library

namespace Processor

/-- The processor after the assembler and the metadata have seen an arrival. -/
def observed (cfg : ProcessorConfig) (p : Processor) (assembler : Assembler) (parsed : ParsedSentence)
    (outcome : AssemblyOutcome) : Processor :=
  { p with
    assembler := assembler
    readings := { p.readings with assembler := p.readings.assembler + 1 }
    contexts := observe cfg.processing p.contexts parsed outcome }

/-- A sentence that is processed without an exception. -/
lemma processSentence_ok {cfg : ProcessorConfig} {env : Environment} {frame : IngressFrame}
    {snapshot : ProcessingSnapshot} {leadingS : Option PyStr} {p p' : Processor}
    {parsed : ParsedSentence} {r : SentenceReport}
    (h : processSentence cfg env frame snapshot leadingS p parsed = (p', .ok r)) :
    r.parsed = parsed ∧ r.snapshot = snapshot ∧
      ∃ assembler, p.assembler.feedParsedOutcome cfg.assembler (env.assemblerClock p.readings.assembler)
          parsed = (assembler, .ok r.outcome) ∧
        (((r.outcome.status = .single ∨ r.outcome.status = .complete) ∧ ∃ e, r.emission = some e ∧
            emit cfg env frame snapshot leadingS (observed cfg p assembler parsed r.outcome) parsed
              r.outcome = (p', .ok e)) ∨
          (¬(r.outcome.status = .single ∨ r.outcome.status = .complete) ∧ r.emission = none ∧
            p' = observed cfg p assembler parsed r.outcome)) := by
  obtain ⟨assembler, fed, hfed⟩ : ∃ assembler fed, p.assembler.feedParsedOutcome cfg.assembler
      (env.assemblerClock p.readings.assembler) parsed = (assembler, fed) := ⟨_, _, rfl⟩
  simp only [processSentence, hfed] at h
  cases fed with
  | error e => simp at h
  | ok outcome =>
    simp only at h
    by_cases hstatus : outcome.status = .single ∨ outcome.status = .complete
    · rw [if_pos hstatus] at h
      obtain ⟨q, result, hemit⟩ : ∃ q result, emit cfg env frame snapshot leadingS
          (observed cfg p assembler parsed outcome) parsed outcome = (q, result) := ⟨_, _, rfl⟩
      have hemit' := hemit
      simp only [observed] at hemit'
      rw [hemit'] at h
      cases result with
      | error e => simp at h
      | ok e =>
        obtain ⟨rfl, hr⟩ := Prod.mk.inj h
        obtain rfl := Except.ok.inj hr
        exact ⟨rfl, rfl, assembler, hfed, .inl ⟨hstatus, e, rfl, hemit⟩⟩
    · rw [if_neg hstatus] at h
      obtain ⟨rfl, hr⟩ := Prod.mk.inj h
      obtain rfl := Except.ok.inj hr
      exact ⟨rfl, rfl, assembler, hfed, .inr ⟨hstatus, rfl, rfl⟩⟩

/-! ### What the deduplicator and the output loop leave alone -/

/-- The processor with another deduplicator and another count of its clock readings. -/
def withDedup (p : Processor) (d : Deduplicator EgressTargetId LogicalKey) (n : Nat) : Processor :=
  { p with deduplicator := d, readings := { p.readings with dedup := n } }

/-- The processor with another source state and another count of outputs. -/
def withOutput (p : Processor) (sourceState : SourceState) (n : Nat) : Processor :=
  { p with sourceState := sourceState, readings := { p.readings with output := n } }

@[simp] lemma withDedup_contexts (p : Processor) (d : Deduplicator EgressTargetId LogicalKey) (n : Nat) :
    (p.withDedup d n).contexts = p.contexts := rfl

@[simp] lemma withOutput_contexts (p : Processor) (sourceState : SourceState) (n : Nat) :
    (p.withOutput sourceState n).contexts = p.contexts := rfl

lemma decideTargets_frame (cfg : ProcessorConfig) (env : Environment) (message : LogicalKey)
    (targets : List EgressTargetId) (p : Processor) :
    ∃ d n, (decideTargets cfg env message targets p).1 = p.withDedup d n := by
  induction targets generalizing p with
  | nil => exact ⟨p.deduplicator, p.readings.dedup, rfl⟩
  | cons target rest ih =>
    obtain ⟨q, result, hcall⟩ : ∃ q result, dedupCall cfg env p message (some target) = (q, result) :=
      ⟨_, _, rfl⟩
    have hq : q = p.withDedup (p.deduplicator.isUnique cfg.dedup (env.dedupClock p.readings.dedup) message
        (some target)).1 (p.readings.dedup + 1) := (congrArg Prod.fst hcall).symm
    cases result with
    | error e => exact ⟨_, _, by simpa only [decideTargets, hcall] using hq⟩
    | ok decision =>
      obtain ⟨d, n, hrest⟩ := ih q
      refine ⟨d, n, ?_⟩
      have hfst : (decideTargets cfg env message (target :: rest) p).1 =
          (decideTargets cfg env message rest q).1 := by
        simp only [decideTargets, hcall]
        cases decideTargets cfg env message rest q with
        | mk q' result => cases result <;> rfl
      rw [hfst, hrest, hq]
      rfl

/-- The deduplicator is all that deciding on a message changes. -/
lemma deduplicate_frame (cfg : ProcessorConfig) (env : Environment) (p : Processor)
    (snapshot : ProcessingSnapshot) (message : LogicalKey) :
    ∃ d n, (deduplicate cfg env p snapshot message).1 = p.withDedup d n := by
  unfold deduplicate
  cases snapshot.deduplicationMode with
  | global =>
    refine ⟨(dedupCall cfg env p message none).1.deduplicator, p.readings.dedup + 1, ?_⟩
    have hcall : (dedupCall cfg env p message none).1 =
      p.withDedup (dedupCall cfg env p message none).1.deduplicator (p.readings.dedup + 1) := rfl
    rw [← hcall]
    cases dedupCall cfg env p message none with
    | mk q result => cases result <;> rfl
  | perTarget =>
    obtain ⟨d, n, hdecide⟩ := decideTargets_frame cfg env message snapshot.targetIds p
    refine ⟨d, n, ?_⟩
    rw [← hdecide]
    cases decideTargets cfg env message snapshot.targetIds p with
    | mk q result => cases result <;> rfl

lemma emitLines_frame (cfg : ProcessorConfig) (env : Environment) (fmt : LineFormat) (index : Nat)
    (lines : List PyStr) (p : Processor) :
    ∃ sourceState n, (emitLines cfg env fmt index lines p).1 = p.withOutput sourceState n := by
  induction lines generalizing index p with
  | nil => exact ⟨p.sourceState, p.readings.output, rfl⟩
  | cons line rest ih =>
    obtain ⟨q, hq⟩ : ∃ q, q = p.withOutput (p.sourceState.touchS cfg.source fmt.sValue
        (env.sourceClock p.readings.output)) (p.readings.output + 1) := ⟨_, rfl⟩
    have hstep := hq
    simp only [withOutput] at hstep
    simp only [emitLines, ← hstep]
    cases buildOutputBytes line fmt.sValue fmt.timestamp (index == 0) (gTriplet fmt index)
        (env.wallClock p.readings.output) with
    | error e => exact ⟨_, _, hq⟩
    | ok message =>
      obtain ⟨sourceState, n, hrest⟩ := ih (index + 1) q
      refine ⟨sourceState, n, ?_⟩
      have hwith : q.withOutput sourceState n = p.withOutput sourceState n := by
        rw [hq]
        rfl
      rw [← hwith, ← hrest]
      cases emitLines cfg env fmt (index + 1) rest q with
      | mk q' result => cases result <;> rfl

/-- The outputs of a message: one for each line, in the order of the lines, all for the same
targets. -/
structure OutputsOf (env : Environment) (fmt : LineFormat) (index n : Nat) (lines : List PyStr)
    (outputs : List ProcessorOutput) : Prop where
  length : outputs.length = lines.length
  output : ∀ (i : Nat) (line : PyStr), lines[i]? = some line → ∃ message,
    outputs[i]? = some ⟨message, fmt.targetIds⟩ ∧
      buildOutputBytes line fmt.sValue fmt.timestamp (index + i == 0) (gTriplet fmt (index + i))
        (env.wallClock (n + i)) = .ok message

lemma emitLines_ok {cfg : ProcessorConfig} {env : Environment} {fmt : LineFormat} {lines : List PyStr} :
    ∀ {index : Nat} {p p' : Processor} {outputs : List ProcessorOutput},
      emitLines cfg env fmt index lines p = (p', .ok outputs) →
      OutputsOf env fmt index p.readings.output lines outputs := by
  induction lines with
  | nil =>
    intro index p p' outputs h
    obtain ⟨-, houtputs⟩ := Prod.mk.inj h
    obtain rfl := Except.ok.inj houtputs
    exact ⟨rfl, by simp⟩
  | cons line rest ih =>
    intro index p p' outputs h
    simp only [emitLines] at h
    cases hbuild : buildOutputBytes line fmt.sValue fmt.timestamp (index == 0) (gTriplet fmt index)
        (env.wallClock p.readings.output) with
    | error e => simp [hbuild] at h
    | ok message =>
      simp only [hbuild] at h
      obtain ⟨q, hq⟩ : ∃ q, q = { p with
          sourceState := p.sourceState.touchS cfg.source fmt.sValue (env.sourceClock p.readings.output)
          readings := { p.readings with output := p.readings.output + 1 } } := ⟨_, rfl⟩
      rw [← hq] at h
      obtain ⟨q', result, hrest⟩ : ∃ q' result, emitLines cfg env fmt (index + 1) rest q = (q', result) :=
        ⟨_, _, rfl⟩
      rw [hrest] at h
      cases result with
      | error e => simp at h
      | ok tail =>
        obtain ⟨-, houtputs⟩ := Prod.mk.inj h
        obtain rfl := Except.ok.inj houtputs
        have htail := ih hrest
        have hn : q.readings.output = p.readings.output + 1 := by rw [hq]
        refine ⟨by simp [htail.length], fun i other hi => ?_⟩
        cases i with
        | zero =>
          obtain rfl : line = other := by simpa using hi
          exact ⟨message, rfl, hbuild⟩
        | succ i =>
          obtain ⟨message', hget, hbuild'⟩ := htail.output i other (by simpa using hi)
          refine ⟨message', by simpa using hget, ?_⟩
          rw [hn] at hbuild'
          rw [← hbuild', Nat.add_right_comm index 1 i, Nat.add_right_comm p.readings.output 1 i]
          rfl

/-- The processor after the group-id generator was called, if it was. -/
def withGid (p : Processor) (selected : Option PyStr) : Processor :=
  if selected.isSome then p
  else { p with readings := { p.readings with gid := p.readings.gid + 1 } }

@[simp] lemma withGid_contexts (p : Processor) (selected : Option PyStr) :
    (p.withGid selected).contexts = p.contexts := by
  unfold withGid
  split <;> rfl

/-- The format of the lines of a message. -/
def formatOf (cfg : ProcessorConfig) (frame : IngressFrame) (leadingS : Option PyStr)
    (ctx : MultipartContexts) (parsed : ParsedSentence) (outcome : AssemblyOutcome) (gid : PyStr)
    (targetIds : List EgressTargetId) : LineFormat where
  sValue := chooseSValueFromCandidates cfg.processing.stationId
    ((nonEmpty frame.aliasForS).or (incomingS ctx parsed outcome)) leadingS frame.remoteIp
  timestamp := selectTimestamp cfg.processing ctx parsed outcome
  gid := gid
  total := outcome.sentences.length
  tagged := decide (1 < outcome.sentences.length) ||
    (outcome.sentences.length == 1 && cfg.processing.alwaysTagSingle)
  targetIds := targetIds

/-- An emission without an exception. -/
lemma emit_ok {cfg : ProcessorConfig} {env : Environment} {frame : IngressFrame}
    {snapshot : ProcessingSnapshot} {leadingS : Option PyStr} {p p' : Processor}
    {parsed : ParsedSentence} {outcome : AssemblyOutcome} {e : Emission}
    (h : emit cfg env frame snapshot leadingS p parsed outcome = (p', .ok e)) :
    e.lines = outcome.sentences ∧
      e.timestamp = selectTimestamp cfg.processing p.contexts parsed outcome ∧
      e.gid = (selectGid cfg.processing p.contexts parsed outcome).getD
        (env.gidGenerator cfg.processing.gidDigits p.readings.gid) ∧
      ∃ q, deduplicate cfg env (withGid p (selectGid cfg.processing p.contexts parsed outcome)) snapshot
          (logicalKey outcome.sentences) = (q, .ok (e.decisions, e.targetIds, e.emitted)) ∧
        ∃ q', emitLines cfg env (formatOf cfg frame leadingS q.contexts parsed outcome e.gid e.targetIds)
            0 (if e.emitted then outcome.sentences else []) q = (q', .ok e.outputs) ∧
          p' = { q' with contexts := if outcome.status = .complete then
            q'.contexts.discard outcome.groupKey.toList else q'.contexts } := by
  obtain ⟨selected, hselected⟩ : ∃ selected,
      selectGid cfg.processing p.contexts parsed outcome = selected := ⟨_, rfl⟩
  obtain ⟨q, result, hdedup⟩ : ∃ q result, deduplicate cfg env (withGid p selected) snapshot
      (logicalKey outcome.sentences) = (q, result) := ⟨_, _, rfl⟩
  have hdedup' := hdedup
  simp only [withGid] at hdedup'
  simp only [emit, hselected, hdedup'] at h
  cases result with
  | error e => simp at h
  | ok decided =>
    obtain ⟨decisions, eligible, emitted⟩ := decided
    simp only at h
    obtain ⟨q', outputs, hlines⟩ : ∃ q' outputs, emitLines cfg env
        (formatOf cfg frame leadingS q.contexts parsed outcome
          (selected.getD (env.gidGenerator cfg.processing.gidDigits p.readings.gid)) eligible) 0
        (if emitted then outcome.sentences else []) q = (q', outputs) := ⟨_, _, rfl⟩
    have hlines' := hlines
    have htime : selectTimestamp cfg.processing q.contexts parsed outcome =
        selectTimestamp cfg.processing p.contexts parsed outcome := by
      obtain ⟨d, n, hframe⟩ := deduplicate_frame cfg env (withGid p selected) snapshot
        (logicalKey outcome.sentences)
      rw [hdedup] at hframe
      rw [show q = _ from hframe, withDedup_contexts, withGid_contexts]
    simp only [formatOf, htime] at hlines'
    rw [hlines'] at h
    cases outputs with
    | error e => simp at h
    | ok outputs =>
      obtain ⟨rfl, hr⟩ := Prod.mk.inj h
      obtain rfl := Except.ok.inj hr
      refine ⟨rfl, rfl, by rw [hselected], q, ?_, q', ?_, ?_⟩
      · rw [hselected]; exact hdedup
      · exact hlines
      · rfl

/-! ### What a sentence does to the assembler and the metadata -/

/-- The metadata of the pending groups after a sentence. -/
def contextsAfter (cfg : ProcessingConfig) (ctx : MultipartContexts) (parsed : ParsedSentence)
    (outcome : AssemblyOutcome) : MultipartContexts :=
  if outcome.status = .complete then (observe cfg ctx parsed outcome).discard outcome.groupKey.toList
  else observe cfg ctx parsed outcome

lemma emit_frame {cfg : ProcessorConfig} {env : Environment} {frame : IngressFrame}
    {snapshot : ProcessingSnapshot} {leadingS : Option PyStr} {p p' : Processor}
    {parsed : ParsedSentence} {outcome : AssemblyOutcome} {e : Emission}
    (h : emit cfg env frame snapshot leadingS p parsed outcome = (p', .ok e)) :
    ∃ d n sourceState m, p' = { (((withGid p (selectGid cfg.processing p.contexts parsed
      outcome)).withDedup d n).withOutput sourceState m) with
        contexts := if outcome.status = .complete then p.contexts.discard outcome.groupKey.toList
          else p.contexts } := by
  obtain ⟨-, -, -, q, hdedup, q', hlines, rfl⟩ := emit_ok h
  obtain ⟨d, n, hd⟩ := deduplicate_frame cfg env (withGid p (selectGid cfg.processing p.contexts parsed
    outcome)) snapshot (logicalKey outcome.sentences)
  obtain ⟨sourceState, m, hs⟩ := emitLines_frame cfg env
    (formatOf cfg frame leadingS q.contexts parsed outcome e.gid e.targetIds) 0
    (if e.emitted then outcome.sentences else []) q
  rw [hdedup] at hd
  rw [hlines] at hs
  have hq : q = _ := hd
  have hq' : q' = _ := hs
  have hctx : q'.contexts = p.contexts := by rw [hq', hq]; simp
  refine ⟨d, n, sourceState, m, ?_⟩
  rw [hctx, hq', hq]

/-- What a sentence does to the assembler and to the metadata. -/
structure SentenceSpec (cfg : ProcessorConfig) (env : Environment) (p p' : Processor)
    (r : SentenceReport) : Prop where
  fed : p.assembler.feedParsedOutcome cfg.assembler (env.assemblerClock p.readings.assembler) r.parsed =
    (p'.assembler, .ok r.outcome)
  contexts : p'.contexts = contextsAfter cfg.processing p.contexts r.parsed r.outcome
  reading : p'.readings.assembler = p.readings.assembler + 1

lemma processSentence_spec {cfg : ProcessorConfig} {env : Environment} {frame : IngressFrame}
    {snapshot : ProcessingSnapshot} {leadingS : Option PyStr} {p p' : Processor}
    {parsed : ParsedSentence} {r : SentenceReport}
    (h : processSentence cfg env frame snapshot leadingS p parsed = (p', .ok r)) :
    SentenceSpec cfg env p p' r := by
  obtain ⟨rfl, -, assembler, hfed, ⟨-, e, -, hemit⟩ | ⟨hstatus, -, rfl⟩⟩ := processSentence_ok h
  · obtain ⟨d, n, sourceState, m, rfl⟩ := emit_frame hemit
    have hgid : ∀ (q : Processor) (selected : Option PyStr), (q.withGid selected).assembler = q.assembler ∧
        (q.withGid selected).readings.assembler = q.readings.assembler := by
      intro q selected
      unfold withGid
      split <;> exact ⟨rfl, rfl⟩
    exact ⟨hfed.trans (by simp only [withOutput, withDedup, (hgid _ _).1]; rfl), rfl,
      by simp only [withOutput, withDedup, (hgid _ _).2]; rfl⟩
  · have hcomplete : ¬r.outcome.status = .complete := fun h => hstatus (.inr h)
    exact ⟨hfed, by rw [contextsAfter, if_neg hcomplete]; rfl, rfl⟩

/-- What a feed does whose arrival belongs to no group. -/
structure UngroupedSpec (s : Assembler) (text : PyStr) (fragment : Option ParsedFragment)
    (s' : Assembler) (out : AssemblyOutcome) : Prop where
  state : s' = s.count out.status
  outcome : out = { status := out.status, sentences := out.sentences }
  status : out.status = .single ∧ out.sentences = [text] ∧ fragment.isSome ∨
    (out.status = .invalid ∨ out.status = .limitExceeded) ∧ out.sentences = []

open Assembler in
/-- The feed of a sentence whose text decodes. -/
lemma feedParsedOutcome_spec {cfg : AssemblerConfig} (htimeout : 0 < cfg.timeout) {s : Assembler}
    (hs : s.WellFormed) (now : ℚ) {parsed : ParsedSentence} {text : PyStr}
    (htext : parsed.text = .ok text) :
    ∃ s' out, s.feedParsedOutcome cfg now parsed = (s', .ok out) ∧
      ((∃ fragment, parsed.fragment = some fragment ∧ isGrouped cfg fragment = true ∧
          FeedSpec cfg s now (keyOf parsed.frame.assemblerKey fragment) fragment.ordinal text s' out) ∨
        UngroupedSpec s text parsed.fragment s' out) := by
  cases hfrag : parsed.fragment with
  | none =>
    refine ⟨s.count .invalid, { status := .invalid }, ?_, .inr ⟨rfl, rfl, .inr ⟨.inl rfl, rfl⟩⟩⟩
    simp [feedParsedOutcome, hfrag]
  | some fragment =>
    cases hgrouped : isGrouped cfg fragment with
    | true =>
      obtain ⟨s', out, hfeed, hspec⟩ :=
        feed_grouped htimeout hs now parsed.frame.assemblerKey text hgrouped
      refine ⟨s', out, ?_, .inl ⟨fragment, rfl, hgrouped, hspec⟩⟩
      simp [feedParsedOutcome, hfrag, htext, hfeed]
    | false =>
      obtain ⟨status, sentences, hstatus, hfeed⟩ :=
        feed_ungrouped parsed.frame.assemblerKey text hgrouped
      refine ⟨s.count status, { status := status, sentences := sentences }, ?_,
        .inr ⟨rfl, rfl, ?_⟩⟩
      · simp [feedParsedOutcome, hfrag, htext, hfeed]
      · rcases hstatus with ⟨hsingle, hlines⟩ | ⟨hlimit, hlines⟩
        · exact .inl ⟨hsingle, hlines, rfl⟩
        · exact .inr ⟨.inr hlimit, hlines⟩

/-! ### Runs -/

/-- The calls one after another, each with what it returns or raises. -/
def processAll (cfg : ProcessorConfig) (env : Environment) :
    List (IngressFrame × ProcessingSnapshot) → Processor →
      Processor × List (Except PyException (List SentenceReport))
  | [], p => (p, [])
  | (frame, snapshot) :: rest, p =>
    let (p, result) := process cfg env p frame snapshot
    let (p, results) := processAll cfg env rest p
    (p, result :: results)

/-- A call that returns: the frame is parsed, and its sentences are processed one after another. -/
lemma process_ok {cfg : ProcessorConfig} {env : Environment} {p p' : Processor} {frame : IngressFrame}
    {snapshot : ProcessingSnapshot} {reports : List SentenceReport}
    (h : process cfg env p frame snapshot = (p', .ok reports)) :
    ∃ leadingS sentences q, parseLeadingSValue frame = .ok leadingS ∧
      parseFrameSentences frame true = .ok sentences ∧
      processSentences cfg env frame snapshot leadingS sentences (called p) = (q, .ok reports) ∧
      p' = { q with counters := countCompleted q.counters (batch reports).length } := by
  obtain ⟨q, result, himpl⟩ : ∃ q result, processImpl cfg env (called p) frame snapshot = (q, result) :=
    ⟨_, _, rfl⟩
  simp only [process, himpl] at h
  cases result with
  | error e => simp at h
  | ok rs =>
    obtain ⟨rfl, hr⟩ := Prod.mk.inj h
    obtain rfl := Except.ok.inj hr
    unfold processImpl at himpl
    cases hlead : parseLeadingSValue frame with
    | error e => simp [hlead] at himpl
    | ok leadingS =>
      cases hparse : parseFrameSentences frame true with
      | error e => simp [hlead, hparse] at himpl
      | ok sentences =>
        simp only [hlead, hparse] at himpl
        exact ⟨leadingS, sentences, q, rfl, rfl, himpl, rfl⟩

/-- The reports are those of the sentences, one for each and in their order. -/
lemma processSentences_ok {cfg : ProcessorConfig} {env : Environment} {frame : IngressFrame}
    {snapshot : ProcessingSnapshot} {leadingS : Option PyStr} (sentences : List ParsedSentence) :
    ∀ {p p' : Processor} {reports : List SentenceReport},
      processSentences cfg env frame snapshot leadingS sentences p = (p', .ok reports) →
      reports.map SentenceReport.parsed = sentences ∧ ∀ r ∈ reports, r.snapshot = snapshot := by
  induction sentences with
  | nil =>
    intro p p' reports h
    obtain ⟨-, hreports⟩ := Prod.mk.inj h
    obtain rfl := Except.ok.inj hreports
    exact ⟨rfl, by simp⟩
  | cons parsed rest ih =>
    intro p p' reports h
    obtain ⟨q, result, hstep⟩ : ∃ q result,
      processSentence cfg env frame snapshot leadingS p parsed = (q, result) := ⟨_, _, rfl⟩
    simp only [processSentences, hstep] at h
    cases result with
    | error e => simp at h
    | ok r =>
      obtain ⟨q', results, hrest⟩ : ∃ q' results,
        processSentences cfg env frame snapshot leadingS rest q = (q', results) := ⟨_, _, rfl⟩
      simp only [hrest] at h
      cases results with
      | error e => simp at h
      | ok tail =>
        obtain ⟨-, hreports⟩ := Prod.mk.inj h
        obtain rfl := Except.ok.inj hreports
        obtain ⟨hparsed, hsnapshot, -⟩ := processSentence_ok hstep
        obtain ⟨htail, hsnapshots⟩ := ih hrest
        refine ⟨by rw [List.map_cons, hparsed, htail], fun other hother => ?_⟩
        rcases List.mem_cons.mp hother with rfl | hother
        · exact hsnapshot
        · exact hsnapshots other hother

/-- The processor and the reports of the sentences so far, as long as nothing raises. -/
inductive Run (cfg : ProcessorConfig) (env : Environment) (startNs : Int) :
    Processor → List SentenceReport → Prop
  | start : Run cfg env startNs (.init startNs) []
  | counters {p : Processor} {reports : List SentenceReport} (counters : ProcessorCounters)
      (h : Run cfg env startNs p reports) : Run cfg env startNs { p with counters := counters } reports
  | sentence {p p' : Processor} {reports : List SentenceReport} {frame : IngressFrame}
      {snapshot : ProcessingSnapshot} {leadingS : Option PyStr} {sentences : List ParsedSentence}
      {parsed : ParsedSentence} {r : SentenceReport} (h : Run cfg env startNs p reports)
      (hparse : parseFrameSentences frame true = .ok sentences) (hmem : parsed ∈ sentences)
      (hstep : processSentence cfg env frame snapshot leadingS p parsed = (p', .ok r)) :
      Run cfg env startNs p' (reports ++ [r])

section Run

variable {cfg : ProcessorConfig} {env : Environment} {startNs : Int}

lemma Run.sentences {frame : IngressFrame} {snapshot : ProcessingSnapshot} {leadingS : Option PyStr}
    {all : List ParsedSentence} (hparse : parseFrameSentences frame true = .ok all)
    (sentences : List ParsedSentence) :
    ∀ {p p' : Processor} {reports more : List SentenceReport}, Run cfg env startNs p reports →
      sentences ⊆ all → processSentences cfg env frame snapshot leadingS sentences p = (p', .ok more) →
      Run cfg env startNs p' (reports ++ more) := by
  induction sentences with
  | nil =>
    intro p p' reports more h _ hrun
    obtain ⟨rfl, hmore⟩ := Prod.mk.inj hrun
    obtain rfl := Except.ok.inj hmore
    simpa using h
  | cons parsed rest ih =>
    intro p p' reports more h hsub hrun
    obtain ⟨q, result, hstep⟩ : ∃ q result,
      processSentence cfg env frame snapshot leadingS p parsed = (q, result) := ⟨_, _, rfl⟩
    simp only [processSentences, hstep] at hrun
    cases result with
    | error e => simp at hrun
    | ok r =>
      obtain ⟨q', results, hrest⟩ : ∃ q' results,
        processSentences cfg env frame snapshot leadingS rest q = (q', results) := ⟨_, _, rfl⟩
      simp only [hrest] at hrun
      cases results with
      | error e => simp at hrun
      | ok tail =>
        obtain ⟨rfl, hmore⟩ := Prod.mk.inj hrun
        obtain rfl := Except.ok.inj hmore
        have hq := h.sentence hparse (hsub (by simp)) hstep
        have hq' := ih hq (fun x hx => hsub (List.mem_cons_of_mem _ hx)) hrest
        simpa using hq'

/-- A call that returns extends the run by the reports of its sentences. -/
lemma Run.process {p p' : Processor} {reports more : List SentenceReport} {frame : IngressFrame}
    {snapshot : ProcessingSnapshot} (h : Run cfg env startNs p reports)
    (hcall : process cfg env p frame snapshot = (p', .ok more)) :
    Run cfg env startNs p' (reports ++ more) := by
  obtain ⟨leadingS, sentences, q, -, hparse, hrun, rfl⟩ := process_ok hcall
  have hcalled : Run cfg env startNs (called p) reports := h.counters _
  exact (hcalled.sentences hparse sentences (List.Subset.refl _) hrun).counters _

lemma Run.processAll {calls : List (IngressFrame × ProcessingSnapshot)} :
    ∀ {p p' : Processor} {reports : List SentenceReport} {batches : List (List SentenceReport)},
      Run cfg env startNs p reports → processAll cfg env calls p = (p', batches.map .ok) →
      Run cfg env startNs p' (reports ++ batches.flatten) := by
  induction calls with
  | nil =>
    intro p p' reports batches h hall
    obtain ⟨rfl, hbatches⟩ := Prod.mk.inj hall
    obtain rfl := List.map_eq_nil_iff.mp hbatches.symm
    simpa using h
  | cons call rest ih =>
    intro p p' reports batches h hall
    obtain ⟨frame, snapshot⟩ := call
    obtain ⟨q, result, hcall⟩ : ∃ q result, Processor.process cfg env p frame snapshot = (q, result) :=
      ⟨_, _, rfl⟩
    obtain ⟨q', results, hrest⟩ : ∃ q' results, Processor.processAll cfg env rest q = (q', results) :=
      ⟨_, _, rfl⟩
    simp only [Processor.processAll, hcall, hrest] at hall
    obtain ⟨rfl, hresults⟩ := Prod.mk.inj hall
    cases batches with
    | nil => simp at hresults
    | cons batch batches =>
      simp only [List.map_cons, List.cons.injEq] at hresults
      obtain ⟨rfl, rfl⟩ := hresults
      have hq := ih (h.process hcall) hrest
      simpa using hq

/-- The state before and after the sentence of a report. -/
lemma Run.split {p : Processor} {reports : List SentenceReport} (h : Run cfg env startNs p reports) :
    ∀ {before after : List SentenceReport} {r : SentenceReport}, reports = before ++ r :: after →
      ∃ q q' frame snapshot leadingS sentences parsed, Run cfg env startNs q before ∧
        parseFrameSentences frame true = .ok sentences ∧ parsed ∈ sentences ∧
        processSentence cfg env frame snapshot leadingS q parsed = (q', .ok r) := by
  induction h with
  | start => simp
  | counters c h ih => exact ih
  | @sentence p p' reports frame snapshot leadingS sentences parsed r h hparse hmem hstep ih =>
    intro before after r' heq
    rcases List.eq_nil_or_concat after with rfl | ⟨init, last, rfl⟩
    · obtain ⟨rfl, hr⟩ := List.append_inj' heq rfl
      obtain rfl : r = r' := by simpa using hr
      exact ⟨p, p', frame, snapshot, leadingS, sentences, parsed, h, hparse, hmem, hstep⟩
    · have heq' : reports ++ [r] = (before ++ r' :: init) ++ [last] := by simpa using heq
      exact ih (List.append_inj' heq' rfl).1

/-- The text of a sentence that was parsed decodes, and the fragment is read from it. -/
lemma Run.text {p : Processor} {reports : List SentenceReport} (h : Run cfg env startNs p reports) :
    ∀ r ∈ reports, ∃ text, r.parsed.text = .ok text ∧ r.parsed.fragment = parseFragment text := by
  induction h with
  | start => simp
  | counters c h ih => exact ih
  | sentence h hparse hmem hstep ih =>
    intro r hr
    rcases List.mem_append.mp hr with hr | hr
    · exact ih r hr
    · rw [List.mem_singleton.mp hr, (processSentence_ok hstep).1]
      exact parsed_text hparse hmem

end Run

end Processor

end AisMixer

import AisMixer.DataPlane.MultipartMetadata

/-!
# Deduplicated emission

The calls of the deduplicator over a whole run form one list of decisions. With an unbounded
deduplicator a decision admits a message exactly when no earlier decision with the same scope did
within the time to live, and a message goes out as a whole or not at all.
-/

namespace AisMixer
open Library

namespace Processor

/-- The decisions of a report. -/
def decisionsOf (r : SentenceReport) : List Decision :=
  match r.emission with
  | some e => e.decisions
  | none => []

/-- The accepted messages of a list of decisions. -/
def admittedOf (decisions : List Decision) : List ((Option EgressTargetId × LogicalKey) × ℚ) :=
  (decisions.filter Decision.admitted).map (fun d => ((d.scope, d.message), d.time))

/-- No decision admitted the message in the scope less than `ttl` before the time. -/
def NotAdmitted (ttl : ℚ) (earlier : List Decision) (scope : Option EgressTargetId)
    (message : LogicalKey) (time : ℚ) : Prop :=
  ∀ e ∈ earlier, e.admitted = true → e.scope = scope → e.message = message → ¬time - e.time < ttl

lemma fresh_iff_notAdmitted (ttl : ℚ) (earlier : List Decision) (scope : Option EgressTargetId)
    (message : LogicalKey) (time : ℚ) :
    Deduplicator.Fresh ttl (admittedOf earlier) (scope, message) time ↔
      NotAdmitted ttl earlier scope message time := by
  constructor
  · intro h e he hadmitted hscope hmessage
    refine h ((e.scope, e.message), e.time) ?_ (by rw [hscope, hmessage])
    exact List.mem_map.mpr ⟨e, List.mem_filter.mpr ⟨he, hadmitted⟩, rfl⟩
  · intro h record hrecord hkey
    obtain ⟨e, he, rfl⟩ := List.mem_map.mp hrecord
    obtain ⟨hmem, hadmitted⟩ := List.mem_filter.mp he
    obtain ⟨hscope, hmessage⟩ := Prod.mk.inj hkey
    exact h e hmem hadmitted hscope hmessage

lemma admittedOf_concat (decisions : List Decision) (d : Decision) :
    admittedOf (decisions ++ [d]) = if d.admitted then
      admittedOf decisions ++ [((d.scope, d.message), d.time)] else admittedOf decisions := by
  cases h : d.admitted <;> simp [admittedOf, h]

/-- The decisions so far: each one is as the earlier ones say, and the deduplicator remembers them. -/
structure Deduped (cfg : ProcessorConfig) (env : Environment) (p : Processor)
    (decisions : List Decision) : Prop where
  count : p.readings.dedup = decisions.length
  times : ∀ i d, decisions[i]? = some d → d.time = env.dedupClock i
  decided : ∀ before d after, decisions = before ++ d :: after →
    (d.admitted = true ↔ NotAdmitted cfg.dedup.ttl before d.scope d.message d.time)
  remembers : Deduplicator.Remembers cfg.dedup (env.dedupClock p.readings.dedup)
    (admittedOf decisions) p.deduplicator

section Deduped

variable {cfg : ProcessorConfig} {env : Environment} {p : Processor} {decisions : List Decision}

lemma deduped_start (cfg : ProcessorConfig) (env : Environment) (startNs : Int) :
    Deduped cfg env (.init startNs) [] where
  count := rfl
  times := by simp
  decided := by simp
  remembers := Deduplicator.init_remembers _ _

lemma Deduped.of_eq {p' : Processor} (h : Deduped cfg env p decisions)
    (hdedup : p'.deduplicator = p.deduplicator) (hcount : p'.readings.dedup = p.readings.dedup) :
    Deduped cfg env p' decisions where
  count := hcount.trans h.count
  times := h.times
  decided := h.decided
  remembers := by
    rw [hdedup, hcount]
    exact h.remembers

lemma Deduped.observed (h : Deduped cfg env p decisions) (assembler : Assembler)
    (parsed : ParsedSentence) (outcome : AssemblyOutcome) :
    Deduped cfg env (observed cfg p assembler parsed outcome) decisions :=
  h.of_eq rfl rfl

/-- One call of an unbounded deduplicator. -/
lemma Deduped.call (hclock : Monotone env.dedupClock) (hunbounded : cfg.dedup.maxEntries = none)
    (h : Deduped cfg env p decisions) (message : LogicalKey) (scope : Option EgressTargetId) :
    ∃ p' d, dedupCall cfg env p message scope = (p', .ok d) ∧ d.scope = scope ∧ d.message = message ∧
      Deduped cfg env p' (decisions ++ [d]) := by
  obtain ⟨d', unique, hrun, hunique, hremembers⟩ :=
    h.remembers.isUnique hunbounded le_rfl message scope
  refine ⟨p.withDedup d' (p.readings.dedup + 1),
    ⟨scope, message, env.dedupClock p.readings.dedup, unique⟩, ?_, rfl, rfl, ?_, ?_, ?_, ?_⟩
  · simp only [dedupCall, hrun]
    rfl
  · simp [withDedup, h.count]
  · intro i d hi
    by_cases hlt : i < decisions.length
    · rw [List.getElem?_append_left hlt] at hi
      exact h.times i d hi
    · rw [List.getElem?_append_right (by omega)] at hi
      obtain ⟨hlen, hd⟩ := List.getElem?_eq_some_iff.mp hi
      have hzero : i - decisions.length = 0 := by simpa using hlen
      rw [← hd, List.getElem_singleton, h.count, show i = decisions.length by omega]
  · intro before d after hsplit
    rcases List.eq_nil_or_concat after with rfl | ⟨init, last, rfl⟩
    · obtain ⟨hbefore, hd⟩ := List.append_inj' hsplit rfl
      rw [List.cons.injEq] at hd
      rw [← hd.1, ← hbefore]
      simp only
      rw [hunique, fresh_iff_notAdmitted]
    · rw [List.concat_eq_append, ← List.cons_append, ← List.append_assoc] at hsplit
      exact h.decided before d init (List.append_inj' hsplit rfl).1
  · rw [admittedOf_concat]
    exact hremembers.later (hclock (Nat.le_succ _))

/-- The calls for the targets, in their order. -/
lemma Deduped.targets (hclock : Monotone env.dedupClock) (hunbounded : cfg.dedup.maxEntries = none)
    (message : LogicalKey) (targets : List EgressTargetId) :
    ∀ {p : Processor} {decisions : List Decision}, Deduped cfg env p decisions →
      ∃ p' ds, decideTargets cfg env message targets p = (p', .ok ds) ∧
        ds.map Decision.scope = targets.map some ∧ (∀ d ∈ ds, d.message = message) ∧
        Deduped cfg env p' (decisions ++ ds) := by
  induction targets with
  | nil => exact fun {p decisions} h => ⟨p, [], rfl, rfl, by simp, by simpa using h⟩
  | cons target rest ih =>
    intro p decisions h
    obtain ⟨q, d, hcall, hscope, hmessage, hq⟩ := h.call hclock hunbounded message (some target)
    obtain ⟨p', ds, hrest, hscopes, hmessages, hp'⟩ := ih hq
    refine ⟨p', d :: ds, by simp only [decideTargets, hcall, hrest], by simp [hscope, hscopes], ?_,
      by simpa using hp'⟩
    intro e he
    rcases List.mem_cons.mp he with rfl | he
    · exact hmessage
    · exact hmessages e he

/-- How the decisions on a message decide where it goes. -/
structure Routed (snapshot : ProcessingSnapshot) (message : LogicalKey) (ds : List Decision)
    (eligible : List EgressTargetId) (emitted : Bool) : Prop where
  messages : ∀ d ∈ ds, d.message = message
  global : snapshot.deduplicationMode = .global → ∃ d, ds = [d] ∧ d.scope = none ∧
    eligible = snapshot.targetIds ∧ emitted = d.admitted
  perTarget : snapshot.deduplicationMode = .perTarget →
    ds.map Decision.scope = snapshot.targetIds.map some ∧
      eligible = (ds.filter Decision.admitted).filterMap Decision.scope ∧ emitted = !eligible.isEmpty

lemma Deduped.deduplicate (hclock : Monotone env.dedupClock)
    (hunbounded : cfg.dedup.maxEntries = none) (h : Deduped cfg env p decisions)
    (snapshot : ProcessingSnapshot) (message : LogicalKey) :
    ∃ p' ds eligible emitted,
      deduplicate cfg env p snapshot message = (p', .ok (ds, eligible, emitted)) ∧
        Routed snapshot message ds eligible emitted ∧ Deduped cfg env p' (decisions ++ ds) := by
  cases hmode : snapshot.deduplicationMode with
  | global =>
    obtain ⟨p', d, hcall, hscope, hmessage, hp'⟩ := h.call hclock hunbounded message none
    refine ⟨p', [d], snapshot.targetIds, d.admitted, by simp only [Processor.deduplicate, hmode, hcall],
      ⟨by simpa using hmessage, fun _ => ⟨d, rfl, hscope, rfl, rfl⟩, by simp [hmode]⟩, hp'⟩
  | perTarget =>
    obtain ⟨p', ds, hdecide, hscopes, hmessages, hp'⟩ :=
      Deduped.targets hclock hunbounded message snapshot.targetIds h
    exact ⟨p', ds, _, _, by simp only [Processor.deduplicate, hmode, hdecide],
      ⟨hmessages, by simp [hmode], fun _ => ⟨hscopes, rfl, rfl⟩⟩, hp'⟩

end Deduped

/-! ### Over a run -/

lemma withGid_dedup (p : Processor) (selected : Option PyStr) :
    (p.withGid selected).deduplicator = p.deduplicator ∧
      (p.withGid selected).readings.dedup = p.readings.dedup := by
  unfold withGid
  split <;> exact ⟨rfl, rfl⟩

/-- The decisions that an emission adds. -/
lemma Deduped.emit {cfg : ProcessorConfig} {env : Environment} {p p' : Processor}
    {decisions : List Decision} (hclock : Monotone env.dedupClock)
    (hunbounded : cfg.dedup.maxEntries = none) (h : Deduped cfg env p decisions) {frame : IngressFrame}
    {snapshot : ProcessingSnapshot} {leadingS : Option PyStr} {parsed : ParsedSentence}
    {outcome : AssemblyOutcome} {e : Emission}
    (hemit : emit cfg env frame snapshot leadingS p parsed outcome = (p', .ok e)) :
    Routed snapshot (logicalKey outcome.sentences) e.decisions e.targetIds e.emitted ∧
      Deduped cfg env p' (decisions ++ e.decisions) := by
  obtain ⟨-, -, -, q, hdedup, q', hlines, rfl⟩ := emit_ok hemit
  obtain ⟨hsame, hcount⟩ := withGid_dedup p (selectGid cfg.processing p.contexts parsed outcome)
  obtain ⟨q₁, ds, eligible, emitted, hrun, hrouted, hq₁⟩ :=
    (h.of_eq hsame hcount).deduplicate hclock hunbounded snapshot (logicalKey outcome.sentences)
  rw [hdedup] at hrun
  obtain ⟨rfl, hresult⟩ := Prod.mk.inj hrun
  simp only [Except.ok.injEq, Prod.mk.injEq] at hresult
  obtain ⟨rfl, rfl, rfl⟩ := hresult
  refine ⟨hrouted, hq₁.of_eq ?_ ?_⟩
  all_goals
    obtain ⟨sourceState, m, hframe⟩ := emitLines_frame cfg env
      (formatOf cfg frame leadingS q.contexts parsed outcome e.gid e.targetIds) 0
      (if e.emitted then outcome.sentences else []) q
    rw [hlines] at hframe
    rw [show q' = _ from hframe]
    rfl

/-- Over a run the decisions of the reports are all the decisions. -/
theorem deduped_of_run {cfg : ProcessorConfig} {env : Environment} {startNs : Int} {p : Processor}
    {reports : List SentenceReport} (hclock : Monotone env.dedupClock)
    (hunbounded : cfg.dedup.maxEntries = none) (h : Run cfg env startNs p reports) :
    Deduped cfg env p (reports.flatMap decisionsOf) := by
  induction h with
  | start => exact deduped_start cfg env startNs
  | counters c h ih => exact ih.of_eq rfl rfl
  | sentence h hparse hmem hstep ih =>
    rw [List.flatMap_append, List.flatMap_singleton]
    obtain ⟨-, -, assembler, -, ⟨-, e, he, hemit⟩ | ⟨-, hnone, rfl⟩⟩ := processSentence_ok hstep
    · have hnext := ((ih.observed assembler _ _).emit hclock hunbounded hemit).2
      rw [decisionsOf, he]
      exact hnext
    · rw [decisionsOf, hnone, List.append_nil]
      exact ih.of_eq rfl rfl

/-- What the decisions of a message and the earlier ones say about where it goes. -/
structure Delivered (ttl : ℚ) (earlier : List Decision) (snapshot : ProcessingSnapshot) (e : Emission) :
    Prop where
  messages : ∀ d ∈ e.decisions, d.message = logicalKey e.lines
  global : snapshot.deduplicationMode = .global → ∃ d, e.decisions = [d] ∧ d.scope = none ∧
    e.targetIds = snapshot.targetIds ∧ (d.admitted = true ↔ e.emitted = true) ∧
    (e.emitted = true ↔ NotAdmitted ttl earlier none (logicalKey e.lines) d.time)
  perTarget : snapshot.deduplicationMode = .perTarget →
    e.decisions.map Decision.scope = snapshot.targetIds.map some ∧
      e.targetIds.Sublist snapshot.targetIds ∧ (e.emitted = true ↔ e.targetIds ≠ []) ∧
      ∀ d ∈ e.decisions, ∀ x, d.scope = some x → (d.admitted = true ↔ x ∈ e.targetIds) ∧
        (x ∈ e.targetIds ↔ NotAdmitted ttl earlier (some x) (logicalKey e.lines) d.time)

lemma NotAdmitted.append_iff {ttl : ℚ} {earlier more : List Decision} {scope : Option EgressTargetId}
    {message : LogicalKey} {time : ℚ} (hmore : ∀ d ∈ more, d.scope ≠ scope) :
    NotAdmitted ttl (earlier ++ more) scope message time ↔ NotAdmitted ttl earlier scope message time := by
  constructor
  · exact fun h e he => h e (List.mem_append_left _ he)
  · intro h e he hadmitted hscope
    rcases List.mem_append.mp he with he | he
    · exact h e he hadmitted hscope
    · exact absurd hscope (hmore e he)

/-- The decision for a target depends on the decisions of earlier messages only, because no target
comes twice. -/
lemma delivered_of_routed {cfg : ProcessorConfig} {env : Environment} {p : Processor}
    {earlier : List Decision} {snapshot : ProcessingSnapshot} {e : Emission}
    (hrouted : Routed snapshot (logicalKey e.lines) e.decisions e.targetIds e.emitted)
    (h : Deduped cfg env p (earlier ++ e.decisions)) :
    Delivered cfg.dedup.ttl earlier snapshot e := by
  refine ⟨hrouted.messages, fun hmode => ?_, fun hmode => ?_⟩
  · obtain ⟨d, hds, hscope, htargets, hemitted⟩ := hrouted.global hmode
    have hdecided := h.decided earlier d [] (by rw [hds])
    rw [hscope, hrouted.messages d (by simp [hds])] at hdecided
    exact ⟨d, hds, hscope, htargets, by rw [hemitted], by rw [hemitted, hdecided]⟩
  · obtain ⟨hscopes, htargets, hemitted⟩ := hrouted.perTarget hmode
    have hmem : ∀ x, x ∈ e.targetIds ↔ ∃ d ∈ e.decisions, d.admitted = true ∧ d.scope = some x := by
      intro x
      rw [htargets, List.mem_filterMap]
      simp only [List.mem_filter, and_assoc]
    have hinj : ∀ d ∈ e.decisions, ∀ d' ∈ e.decisions, d.scope = d'.scope → d = d' := by
      have hnodup : (e.decisions.map Decision.scope).Nodup := by
        rw [hscopes]
        exact snapshot.nodup.map (Option.some_injective _)
      exact fun d hd d' hd' heq => List.inj_on_of_nodup_map hnodup hd hd' heq
    refine ⟨hscopes, ?_, by rw [hemitted]; simp, ?_⟩
    · have hall : e.decisions.filterMap Decision.scope = snapshot.targetIds := by
        have := congrArg (List.filterMap id) hscopes
        simpa [List.filterMap_map] using this
      rw [htargets, ← hall]
      exact List.Sublist.filterMap _ List.filter_sublist
    · intro d hd x hx
      have hiff : d.admitted = true ↔ x ∈ e.targetIds := by
        rw [hmem]
        constructor
        · exact fun hadmitted => ⟨d, hd, hadmitted, hx⟩
        · rintro ⟨d', hd', hadmitted, hx'⟩
          rwa [hinj d hd d' hd' (hx.trans hx'.symm)]
      obtain ⟨before, after, hsplit⟩ := List.append_of_mem hd
      have hdecided := h.decided (earlier ++ before) d after (by rw [hsplit, List.append_assoc])
      rw [NotAdmitted.append_iff, hx, hrouted.messages d hd] at hdecided
      · exact ⟨hiff, hiff.symm.trans hdecided⟩
      · intro d' hd' heq
        have hne : (e.decisions.map Decision.scope).Nodup := by
          rw [hscopes]
          exact snapshot.nodup.map (Option.some_injective _)
        rw [hsplit, List.map_append, List.map_cons, List.nodup_append] at hne
        exact hne.2.2 d'.scope (List.mem_map_of_mem hd') d.scope (by simp) heq

/-! ### Whole messages -/

lemma wrapWithMeta_eq (nmeaLine stationId : PyStr) (timestamp : HeaderTimestamp) (isFirst : Bool)
    (g : Option PyStr) (wall : ℚ) :
    ∃ header, wrapWithMeta nmeaLine stationId timestamp isFirst g wall = header ++ nmeaLine := by
  unfold wrapWithMeta
  simp only
  split
  · exact ⟨[], rfl⟩
  · exact ⟨_, rfl⟩

/-- The outputs of a message: all its lines in their order, for the same targets, or nothing. -/
structure Whole (r : SentenceReport) (e : Emission) : Prop where
  outputs : r.outputs = e.outputs
  lines : e.lines = r.outcome.sentences
  emitted : e.emitted = true → e.outputs.length = e.lines.length ∧
    ∀ (i : Nat) (line : PyStr), e.lines[i]? = some line → ∃ (message : Bytes) (header : PyStr),
      e.outputs[i]? = some ⟨message, e.targetIds⟩ ∧
        encodeUtf8 (header ++ line ++ [0x0D, 0x0A]) = some message
  suppressed : e.emitted = false → e.outputs = []

lemma whole_of_emit {cfg : ProcessorConfig} {env : Environment} {frame : IngressFrame}
    {snapshot : ProcessingSnapshot} {leadingS : Option PyStr} {p p' : Processor} {r : SentenceReport}
    {e : Emission} (he : r.emission = some e)
    (hemit : emit cfg env frame snapshot leadingS p r.parsed r.outcome = (p', .ok e)) : Whole r e := by
  obtain ⟨hlines, -, -, q, -, q', hout, -⟩ := emit_ok hemit
  refine ⟨by rw [SentenceReport.outputs, he], hlines, fun hemitted => ?_, fun hno => ?_⟩
  · rw [hemitted, if_pos rfl, ← hlines] at hout
    obtain ⟨hlength, houtput⟩ := emitLines_ok hout
    refine ⟨hlength, fun i line hi => ?_⟩
    obtain ⟨message, hget, hbuild⟩ := houtput i line hi
    obtain ⟨header, hheader⟩ := wrapWithMeta_eq line (formatOf cfg frame leadingS q.contexts r.parsed
      r.outcome e.gid e.targetIds).sValue (formatOf cfg frame leadingS q.contexts r.parsed r.outcome
      e.gid e.targetIds).timestamp (0 + i == 0) (gTriplet (formatOf cfg frame leadingS q.contexts
      r.parsed r.outcome e.gid e.targetIds) (0 + i)) (env.wallClock (q.readings.output + i))
    rw [buildOutputBytes_ok_iff, hheader] at hbuild
    exact ⟨message, header, hget, hbuild⟩
  · rw [hno] at hout
    obtain ⟨hlength, -⟩ := emitLines_ok hout
    simpa using hlength

/-! ### The routing generation -/

/-- Deliveries of the same frame that differ in the routing generation only. -/
def SameRouting (call call' : IngressFrame × ProcessingSnapshot) : Prop :=
  call.1 = call'.1 ∧ call.2.deduplicationMode = call'.2.deduplicationMode ∧
    call.2.targetIds = call'.2.targetIds

/-- A report without its snapshot. -/
def contentOf (r : SentenceReport) : ParsedSentence × AssemblyOutcome × Option Emission :=
  (r.parsed, r.outcome, r.emission)

section SameRouting

variable {cfg : ProcessorConfig} {env : Environment} {frame : IngressFrame}
  {snapshot snapshot' : ProcessingSnapshot} {leadingS : Option PyStr}

lemma emit_congr (hmode : snapshot.deduplicationMode = snapshot'.deduplicationMode)
    (htargets : snapshot.targetIds = snapshot'.targetIds) (p : Processor) (parsed : ParsedSentence)
    (outcome : AssemblyOutcome) :
    emit cfg env frame snapshot' leadingS p parsed outcome =
      emit cfg env frame snapshot leadingS p parsed outcome := by
  have hdedup : ∀ q message, deduplicate cfg env q snapshot' message =
      deduplicate cfg env q snapshot message := by
    intro q message
    simp only [deduplicate, hmode, htargets]
  simp only [emit, hdedup]

lemma processSentence_congr (hmode : snapshot.deduplicationMode = snapshot'.deduplicationMode)
    (htargets : snapshot.targetIds = snapshot'.targetIds) (p : Processor) (parsed : ParsedSentence) :
    processSentence cfg env frame snapshot' leadingS p parsed =
      ((processSentence cfg env frame snapshot leadingS p parsed).1,
        (processSentence cfg env frame snapshot leadingS p parsed).2.map
          (fun r => { r with snapshot := snapshot' })) := by
  obtain ⟨assembler, fed, hfed⟩ : ∃ assembler fed, p.assembler.feedParsedOutcome cfg.assembler
      (env.assemblerClock p.readings.assembler) parsed = (assembler, fed) := ⟨_, _, rfl⟩
  simp only [processSentence, hfed, emit_congr hmode htargets]
  cases fed with
  | error e => rfl
  | ok outcome =>
    simp only
    split
    · split <;> rfl
    · rfl

lemma processSentences_congr (hmode : snapshot.deduplicationMode = snapshot'.deduplicationMode)
    (htargets : snapshot.targetIds = snapshot'.targetIds) (sentences : List ParsedSentence)
    (p : Processor) :
    processSentences cfg env frame snapshot' leadingS sentences p =
      ((processSentences cfg env frame snapshot leadingS sentences p).1,
        (processSentences cfg env frame snapshot leadingS sentences p).2.map
          (List.map (fun r => { r with snapshot := snapshot' }))) := by
  induction sentences generalizing p with
  | nil => rfl
  | cons parsed rest ih =>
    obtain ⟨q, result, hstep⟩ : ∃ q result,
      processSentence cfg env frame snapshot leadingS p parsed = (q, result) := ⟨_, _, rfl⟩
    simp only [processSentences, processSentence_congr hmode htargets, hstep]
    cases result with
    | error e => rfl
    | ok r =>
      simp only [Except.map, ih]
      obtain ⟨q', results, hrest⟩ : ∃ q' results,
        processSentences cfg env frame snapshot leadingS rest q = (q', results) := ⟨_, _, rfl⟩
      rw [hrest]
      cases results <;> rfl

lemma outputs_of_content {rs rs' : List SentenceReport}
    (h : rs'.map contentOf = rs.map contentOf) : batch rs' = batch rs := by
  have hbatch : ∀ rs : List SentenceReport, batch rs = (rs.map contentOf).flatMap
      (fun c => match c.2.2 with | some e => e.outputs | none => []) := by
    intro rs
    rw [batch, List.flatMap_map]
    rfl
  rw [hbatch, hbatch, h]

variable (cfg env frame) in
lemma process_congr (hmode : snapshot.deduplicationMode = snapshot'.deduplicationMode)
    (htargets : snapshot.targetIds = snapshot'.targetIds) (p : Processor) :
    (process cfg env p frame snapshot').1 = (process cfg env p frame snapshot).1 ∧
      (process cfg env p frame snapshot').2.map (List.map contentOf) =
        (process cfg env p frame snapshot).2.map (List.map contentOf) := by
  simp only [process, processImpl]
  cases parseLeadingSValue frame with
  | error e => exact ⟨rfl, rfl⟩
  | ok leadingS =>
    cases parseFrameSentences frame true with
    | error e => exact ⟨rfl, rfl⟩
    | ok sentences =>
      simp only [processSentences_congr hmode htargets]
      obtain ⟨q, result, hrun⟩ : ∃ q result, processSentences cfg env frame snapshot leadingS sentences
        (called p) = (q, result) := ⟨_, _, rfl⟩
      rw [hrun]
      cases result with
      | error e => exact ⟨rfl, rfl⟩
      | ok rs =>
        have hcontent : (rs.map (fun r => { r with snapshot := snapshot' })).map contentOf =
            rs.map contentOf := by simp [contentOf]
        simp only [Except.map, outputs_of_content hcontent, hcontent, and_self]

variable (cfg env) in
/-- A run gives the same outputs whatever the routing generations are. -/
lemma processAll_congr {calls calls' : List (IngressFrame × ProcessingSnapshot)}
    (h : List.Forall₂ SameRouting calls calls') (p : Processor) :
    (processAll cfg env calls' p).1 = (processAll cfg env calls p).1 ∧
      (processAll cfg env calls' p).2.map (Except.map (List.map contentOf)) =
        (processAll cfg env calls p).2.map (Except.map (List.map contentOf)) := by
  induction h generalizing p with
  | nil => exact ⟨rfl, rfl⟩
  | @cons call call' calls calls' hsame hrest ih =>
    obtain ⟨frame, snapshot⟩ := call
    obtain ⟨frame', snapshot'⟩ := call'
    obtain ⟨rfl, hmode, htargets⟩ := hsame
    obtain ⟨hstate, hresult⟩ := process_congr cfg env frame hmode htargets p
    obtain ⟨hstates, hresults⟩ := ih (process cfg env p frame snapshot).1
    simp only [processAll, hstate, List.map_cons, hresult, hresults, hstates, and_self]

end SameRouting

/-! ### The calls and their batches -/

/-- What a call returns: a report for each sentence of its frame, in their order and under the
snapshot of the call, and the batch of the outputs of the messages that these complete. -/
structure Answers (call : IngressFrame × ProcessingSnapshot) (reports : List SentenceReport) :
    Prop where
  sentences : parseFrameSentences call.1 true = .ok (reports.map SentenceReport.parsed)
  snapshot : ∀ r ∈ reports, r.snapshot = call.2
  outputs : batch reports = (reports.filterMap SentenceReport.emission).flatMap Emission.outputs

lemma batch_eq_emissions (reports : List SentenceReport) :
    batch reports = (reports.filterMap SentenceReport.emission).flatMap Emission.outputs := by
  induction reports with
  | nil => rfl
  | cons r rest ih =>
    have hcons : batch (r :: rest) = r.outputs ++ batch rest := rfl
    rw [hcons, ih, SentenceReport.outputs]
    cases hr : r.emission with
    | none => rw [List.filterMap_cons_none hr, List.nil_append]
    | some e => rw [List.filterMap_cons_some hr, List.flatMap_cons]

lemma answers_of_process {cfg : ProcessorConfig} {env : Environment} {p p' : Processor}
    {call : IngressFrame × ProcessingSnapshot} {reports : List SentenceReport}
    (h : process cfg env p call.1 call.2 = (p', .ok reports)) : Answers call reports := by
  obtain ⟨leadingS, sentences, q, -, hparse, hrun, -⟩ := process_ok h
  obtain ⟨hparsed, hsnapshot⟩ := processSentences_ok sentences hrun
  exact ⟨by rw [hparse, hparsed], hsnapshot, batch_eq_emissions reports⟩

lemma answers_of_processAll {cfg : ProcessorConfig} {env : Environment}
    {calls : List (IngressFrame × ProcessingSnapshot)} :
    ∀ {p p' : Processor} {batches : List (List SentenceReport)},
      processAll cfg env calls p = (p', batches.map .ok) → List.Forall₂ Answers calls batches := by
  induction calls with
  | nil =>
    intro p p' batches h
    obtain ⟨-, hbatches⟩ := Prod.mk.inj h
    obtain rfl := List.map_eq_nil_iff.mp hbatches.symm
    exact .nil
  | cons call rest ih =>
    intro p p' batches h
    obtain ⟨q, result, hcall⟩ : ∃ q result, process cfg env p call.1 call.2 = (q, result) :=
      ⟨_, _, rfl⟩
    obtain ⟨q', results, hrest⟩ : ∃ q' results, processAll cfg env rest q = (q', results) :=
      ⟨_, _, rfl⟩
    simp only [processAll, hcall, hrest] at h
    obtain ⟨-, hresults⟩ := Prod.mk.inj h
    cases batches with
    | nil => simp at hresults
    | cons reports batches =>
      simp only [List.map_cons, List.cons.injEq] at hresults
      obtain ⟨rfl, rfl⟩ := hresults
      exact .cons (answers_of_process hcall) (ih hrest)

/-- The assembler and its count of clock readings after the sentences. -/
def feedAll (cfg : AssemblerConfig) (clock : Nat → ℚ) (sentences : List ParsedSentence) :
    Assembler × Nat :=
  sentences.foldl (fun s parsed => ((s.1.feedParsedOutcome cfg (clock s.2) parsed).1, s.2 + 1))
    (.init, 0)

/-- In a run the assembler is fed with the sentences of the reports and with nothing else. -/
lemma Run.feedAll {cfg : ProcessorConfig} {env : Environment} {startNs : Int} {p : Processor}
    {reports : List SentenceReport} (h : Run cfg env startNs p reports) :
    feedAll cfg.assembler env.assemblerClock (reports.map SentenceReport.parsed) =
      (p.assembler, reports.length) ∧ p.readings.assembler = reports.length := by
  induction h with
  | start => exact ⟨rfl, rfl⟩
  | counters c h ih => exact ih
  | sentence h hparse hmem hstep ih =>
    have hspec := processSentence_spec hstep
    have hfed := hspec.fed
    obtain ⟨hstate, hreading⟩ := ih
    rw [hreading] at hfed
    unfold Processor.feedAll at hstate ⊢
    refine ⟨?_, by rw [hspec.reading, hreading, List.length_append, List.length_singleton]⟩
    rw [List.map_append, List.foldl_append, hstate, List.map_singleton, List.foldl_cons,
      List.foldl_nil, hfed, List.length_append, List.length_singleton]

/-- The text of a single sentence, and the texts of a group in the order of the ordinals. -/
def IsMessageOf (reports : List SentenceReport) (r : SentenceReport) (lines : List PyStr) : Prop :=
  (r.outcome.status = .single ∧ ∃ text, r.parsed.text = .ok text ∧ lines = [text]) ∨
    (r.outcome.status = .complete ∧ ∃ key generation, r.outcome.groupKey = some key ∧
      r.outcome.generation = some generation ∧ lines.length = key.declaredTotal ∧
      ∀ ordinal text, 1 ≤ ordinal → ordinal ≤ key.declaredTotal →
        (lines[ordinal - 1]? = some text ↔
          ∃ a ∈ arrivalsOf generation reports, a.Supplies ordinal text))

lemma isMessageOf_sentences {cfg : ProcessorConfig} {env : Environment} {startNs : Int} {p : Processor}
    {reports before after : List SentenceReport} {r : SentenceReport}
    (htimeout : 0 < cfg.assembler.timeout) (h : Run cfg env startNs p reports)
    (hsplit : reports = before ++ r :: after)
    (hstatus : r.outcome.status = .single ∨ r.outcome.status = .complete) :
    IsMessageOf reports r r.outcome.sentences := by
  obtain ⟨q, q', frame, snapshot, leadingS, sentences, parsed, hbefore, hparse, hmem, hstep⟩ :=
    h.split hsplit
  have htracked := tracked_of_run htimeout hbefore
  have hspec := processSentence_spec hstep
  obtain ⟨text, htext, -⟩ := parsed_text hparse hmem
  rw [← (processSentence_ok hstep).1] at htext
  rcases hstatus with hsingle | hcomplete
  · left
    obtain ⟨s', out, hfeed, hcases⟩ := feedParsedOutcome_spec htimeout htracked.wellFormed
      (env.assemblerClock q.readings.assembler) htext
    rw [hspec.fed] at hfeed
    obtain ⟨rfl, hout⟩ := Prod.mk.inj hfeed
    obtain rfl := Except.ok.inj hout
    rcases hcases with ⟨fragment, -, -, hfed⟩ | hquiet
    · rcases feedSpec_cases hfed with ⟨hs, -⟩ | ⟨hs, -⟩ | ⟨hs, -⟩ | ⟨hs, -⟩ <;> simp [hs] at hsingle
    · rcases hquiet.status with ⟨-, hlines, -⟩ | ⟨hs | hs, -⟩
      · exact ⟨hsingle, text, htext, hlines⟩
      · simp [hs] at hsingle
      · simp [hs] at hsingle
  · right
    obtain ⟨key, generation, fragments, hkey, hgen, -, hlines, hsize, hrange, hdesc⟩ :=
      completion_described htimeout htracked hspec htext hcomplete
    rw [← arrivalsOf_completed htimeout h hsplit hcomplete hgen] at hdesc
    refine ⟨hcomplete, key, generation, hkey, hgen, ?_, fun ordinal t ho hle => ?_⟩
    · rw [hlines, (Assembler.linesOf_spec hrange hsize).1]
    · rw [hlines]
      exact hdesc.lines hsize hrange ho hle t

/-- What a run makes of the sentence of a report that comes after others: the assembler says whether it
completes a message, and if it does, the message goes out as a whole to where it has to. -/
structure Reported (cfg : ProcessorConfig) (env : Environment) (reports before : List SentenceReport)
    (r : SentenceReport) : Prop where
  fed : ((feedAll cfg.assembler env.assemblerClock
    (before.map SentenceReport.parsed)).1.feedParsedOutcome cfg.assembler
      (env.assemblerClock before.length) r.parsed).2 = .ok r.outcome
  completes : r.emission.isSome ↔ r.outcome.status = .single ∨ r.outcome.status = .complete
  quiet : r.emission = none → r.outputs = []
  whole : ∀ e, r.emission = some e → Whole r e
  delivered : ∀ e, r.emission = some e →
    Delivered cfg.dedup.ttl (before.flatMap decisionsOf) r.snapshot e
  message : 0 < cfg.assembler.timeout → ∀ e, r.emission = some e → IsMessageOf reports r e.lines

lemma reported_of_run {cfg : ProcessorConfig} {env : Environment} {startNs : Int} {p : Processor}
    {reports before after : List SentenceReport} {r : SentenceReport}
    (hclock : Monotone env.dedupClock) (hunbounded : cfg.dedup.maxEntries = none)
    (h : Run cfg env startNs p reports) (hsplit : reports = before ++ r :: after) :
    Reported cfg env reports before r := by
  obtain ⟨q, q', frame, snapshot, leadingS, sentences, parsed, hbefore, hparse, hmem, hstep⟩ :=
    h.split hsplit
  have hfed : ((feedAll cfg.assembler env.assemblerClock
      (before.map SentenceReport.parsed)).1.feedParsedOutcome cfg.assembler
        (env.assemblerClock before.length) r.parsed).2 = .ok r.outcome := by
    obtain ⟨hfeed, hreading⟩ := hbefore.feedAll
    have hown := (processSentence_spec hstep).fed
    rw [hreading] at hown
    rw [hfeed, hown]
  obtain ⟨rfl, rfl, assembler, -, ⟨hstatus, e, he, hemit⟩ | ⟨hstatus, hnone, -⟩⟩ :=
    processSentence_ok hstep
  · have hwhole := whole_of_emit he hemit
    have hdeduped := deduped_of_run hclock hunbounded hbefore
    obtain ⟨hrouted, hnext⟩ :=
      (hdeduped.observed assembler r.parsed r.outcome).emit hclock hunbounded hemit
    rw [← hwhole.lines] at hrouted
    have honly : ∀ e', r.emission = some e' → e' = e := by
      intro e' he'
      rw [he] at he'
      exact (Option.some.inj he').symm
    refine ⟨hfed, by simp [he, hstatus], by simp [he], ?_, ?_, ?_⟩
    · intro e' he'
      rwa [honly e' he']
    · intro e' he'
      rw [honly e' he']
      exact delivered_of_routed hrouted hnext
    · intro htimeout e' he'
      rw [honly e' he', hwhole.lines]
      exact isMessageOf_sentences htimeout h hsplit hstatus
  · refine ⟨hfed, by simp [hnone, hstatus], fun _ => by rw [SentenceReport.outputs, hnone], ?_, ?_, ?_⟩
    all_goals simp [hnone]

/-- Deduplicated emission over every run without exceptions and with an unbounded deduplicator. Every
call goes through all sentences of its frame and returns the outputs of the messages they complete. A
message goes to a target unless it was admitted for the target within the time to live, all its
lines go out together or none does, and the routing generation makes no difference. -/
theorem emission_exact {cfg : ProcessorConfig} {env : Environment} {startNs : Int}
    (hclock : Monotone env.dedupClock) (hunbounded : cfg.dedup.maxEntries = none)
    {calls : List (IngressFrame × ProcessingSnapshot)} {p : Processor}
    {batches : List (List SentenceReport)}
    (hrun : processAll cfg env calls (.init startNs) = (p, batches.map .ok)) :
    List.Forall₂ Answers calls batches ∧
      (∀ before r after, batches.flatten = before ++ r :: after →
        Reported cfg env batches.flatten before r) ∧
      (∀ i d, (batches.flatten.flatMap decisionsOf)[i]? = some d → d.time = env.dedupClock i) ∧
      ∀ calls', List.Forall₂ SameRouting calls calls' →
        (processAll cfg env calls' (.init startNs)).1 = p ∧
          (processAll cfg env calls' (.init startNs)).2.map (Except.map (List.map contentOf)) =
            batches.map (fun rs => .ok (rs.map contentOf)) := by
  have hall : Run cfg env startNs p batches.flatten := by
    simpa using (@Run.start cfg env startNs).processAll hrun
  refine ⟨answers_of_processAll hrun, fun before r after hsplit => ?_,
    (deduped_of_run hclock hunbounded hall).times, fun calls' hsame => ?_⟩
  · exact reported_of_run hclock hunbounded hall hsplit
  · obtain ⟨hstate, hresults⟩ := processAll_congr cfg env hsame (.init startNs)
    rw [hrun] at hstate hresults
    refine ⟨hstate, hresults.trans ?_⟩
    rw [List.map_map]
    rfl

/-- Two sentences in one frame for two targets, and the same frame again for one of them and another
one. -/
def repeatedCalls : List (IngressFrame × ProcessingSnapshot) :=
  let frame : IngressFrame := ⟨str "udp", str "a", none, some (str "10.0.0.1"), str "a",
    ascii "!AIVDM,1,1,,A,p,0*00\n!AIVDM,1,1,,A,q,0*00", .utf8Ignore⟩
  [(frame, ⟨0, .perTarget, [1, 2], by decide⟩), (frame, ⟨1, .perTarget, [2, 3], by decide⟩)]

def repeatedBatches : List (List SentenceReport) :=
  (processAll taggedConfig stillEnvironment repeatedCalls (.init 0)).2.filterMap Except.toOption

lemma repeatedCalls_return : processAll taggedConfig stillEnvironment repeatedCalls (.init 0) =
    ((processAll taggedConfig stillEnvironment repeatedCalls (.init 0)).1, repeatedBatches.map .ok) := by
  have hresults : (processAll taggedConfig stillEnvironment repeatedCalls (.init 0)).2 =
    repeatedBatches.map .ok := by decide +kernel
  rw [← hresults]

lemma repeatedBatches_ne_nil : repeatedBatches.flatten ≠ [] := by decide +kernel

theorem emission_exact_repeated :
    List.Forall₂ Answers repeatedCalls repeatedBatches ∧
      repeatedBatches.map (fun rs => (batch rs).map ProcessorOutput.targetIds) =
        [[[1, 2], [1, 2]], [[3], [3]]] ∧
      ∃ e, (repeatedBatches.flatten.getLast repeatedBatches_ne_nil).emission = some e ∧
        e.targetIds = [3] ∧ Delivered 30 (repeatedBatches.flatten.dropLast.flatMap decisionsOf)
          (repeatedBatches.flatten.getLast repeatedBatches_ne_nil).snapshot e := by
  obtain ⟨hanswers, hreports, -⟩ := @emission_exact taggedConfig stillEnvironment 0 monotone_const rfl
    repeatedCalls _ repeatedBatches repeatedCalls_return
  have hlast := hreports repeatedBatches.flatten.dropLast
    (repeatedBatches.flatten.getLast repeatedBatches_ne_nil) []
    (List.dropLast_append_getLast repeatedBatches_ne_nil).symm
  have htargets : (repeatedBatches.flatten.getLast repeatedBatches_ne_nil).emission.map
      Emission.targetIds = some [3] := by decide +kernel
  obtain ⟨e, he, hte⟩ := Option.map_eq_some_iff.mp htargets
  exact ⟨hanswers, by decide +kernel, e, he, hte, hlast.delivered e he⟩

end Processor

end AisMixer

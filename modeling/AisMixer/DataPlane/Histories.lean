import AisMixer.DataPlane.Totality

/-!
# Histories of a processor

A history is any sequence of calls of `process`, whether they return or raise, and of `reset`. What
the processor keeps from one call to the next are texts of sentences, `c` values and group ids, so a
property of those of every ingress sentence is a property of those of every output.
-/

namespace AisMixer
open Library

namespace Processor

/-- A processor after a history of frames that satisfy `A`. -/
inductive Reachable (cfg : ProcessorConfig) (env : Environment) (startNs : Int)
    (A : IngressFrame → Prop) : Processor → Prop
  | start : Reachable cfg env startNs A (.init startNs)
  | process {p : Processor} (h : Reachable cfg env startNs A p) {frame : IngressFrame}
      (hframe : A frame) (snapshot : ProcessingSnapshot) :
      Reachable cfg env startNs A (process cfg env p frame snapshot).1
  | reset {p : Processor} (h : Reachable cfg env startNs A p) :
      Reachable cfg env startNs A (reset env p).1

/-- Properties of the texts, the times and the group ids that a processor keeps. -/
structure Kept (T : PyStr → Prop) (C : Int → Prop) (G : PyStr → Prop) (p : Processor) : Prop where
  texts : Assembler.Sound T p.assembler
  times : ∀ key c, p.contexts.c.get? key = some c → C c
  gids : ∀ key, ∀ gid ∈ (gidsOf p.contexts key).keys, G gid

/-- The same properties of what a sentence can leave in a processor. -/
structure Keepable (cfg : ProcessingConfig) (T : PyStr → Prop) (C : Int → Prop) (G : PyStr → Prop)
    (parsed : ParsedSentence) : Prop where
  text : ∃ text, parsed.text = .ok text ∧ parsed.fragment = parseFragment text ∧
    (parsed.fragment.isSome → T text)
  time : ∀ c, validC cfg parsed = some c → C c
  gid : ∀ gid, ingressGid cfg parsed = some gid → G gid

/-- The format of the lines of an emission. -/
structure IsFormat (cfg : ProcessorConfig) (e : Emission) (fmt : LineFormat) : Prop where
  sValue : ∃ stationId source incoming remoteIp,
    fmt.sValue = chooseSValueFromCandidates stationId source incoming remoteIp
  timestamp : fmt.timestamp = e.timestamp
  gid : fmt.gid = e.gid
  total : fmt.total = e.lines.length
  tagged : fmt.tagged = (decide (1 < e.lines.length) ||
    (e.lines.length == 1 && cfg.processing.alwaysTagSingle))

/-- How the message of a report is written. -/
structure WrittenMessage (cfg : ProcessorConfig) (env : Environment) (T : PyStr → Prop) (C : Int → Prop)
    (G : PyStr → Prop) (r : SentenceReport) (e : Emission) : Prop where
  lines : ∀ line ∈ e.lines, T line
  count : ∃ text fragment, parseFragment text = some fragment ∧ e.lines.length = fragment.declaredTotal
  timestamp : e.timestamp = .none ∨ (∃ c, e.timestamp = .int c ∧ C c) ∨ e.timestamp = .text (str "0")
  gid : G e.gid ∨ ∃ n, e.gid = env.gidGenerator cfg.processing.gidDigits n
  outputs : ∃ fmt n, IsFormat cfg e fmt ∧ OutputsOf env fmt 0 n (if e.emitted then e.lines else [])
    e.outputs

section Kept

variable {T : PyStr → Prop} {C : Int → Prop} {G : PyStr → Prop}

lemma init_kept (startNs : Int) : Kept T C G (.init startNs) where
  texts := Assembler.init_sound _
  times := by simp [Processor.init, MultipartContexts.empty]
  gids := by simp [Processor.init, MultipartContexts.empty, gidsOf]

lemma Kept.of_eq {p p' : Processor} (h : Kept T C G p) (hassembler : p'.assembler = p.assembler)
    (hcontexts : p'.contexts = p.contexts) : Kept T C G p' where
  texts := hassembler ▸ h.texts
  times := hcontexts ▸ h.times
  gids := hcontexts ▸ h.gids

lemma reset_kept (env : Environment) (p : Processor) : Kept T C G (reset env p).1 where
  texts := by
    intro key g hg
    simp [reset, Assembler.reset] at hg
  times := by simp [reset, MultipartContexts.empty]
  gids := by simp [reset, MultipartContexts.empty, gidsOf]

/-- Discarded metadata keeps every property. -/
lemma Kept.discard {p p' : Processor} (h : Kept T C G p) (hassembler : p'.assembler = p.assembler)
    {keys : List AssemblyKey} (hcontexts : p'.contexts = p.contexts.discard keys) : Kept T C G p' where
  texts := hassembler ▸ h.texts
  times := by
    intro key c hc
    rw [hcontexts, discard_c] at hc
    split at hc
    · cases hc
    · exact h.times key c hc
  gids := by
    intro key gid hgid
    rw [hcontexts, gidsOf, discard_gid] at hgid
    split at hgid
    · simp at hgid
    · exact h.gids key gid hgid

lemma withGid_kept (p : Processor) (selected : Option PyStr) :
    (p.withGid selected).assembler = p.assembler ∧ (p.withGid selected).contexts = p.contexts := by
  unfold withGid
  split <;> exact ⟨rfl, rfl⟩

/-- The metadata of an arrival. -/
lemma Kept.observed {cfg : ProcessorConfig} {p : Processor} (h : Kept T C G p) {parsed : ParsedSentence}
    (hparsed : Keepable cfg.processing T C G parsed) {assembler : Assembler}
    (hassembler : Assembler.Sound T assembler) (outcome : AssemblyOutcome) :
    Kept T C G (observed cfg p assembler parsed outcome) := by
  have hdiscard : Kept T C G { p with
      assembler := assembler
      contexts := p.contexts.discard outcome.discardedKeys } :=
    (Kept.mk hassembler h.times h.gids : Kept T C G { p with assembler := assembler }).discard rfl rfl
  refine ⟨hassembler, ?_, ?_⟩
  · intro key c hc
    by_cases hkey : outcome.groupKey = some key
    · by_cases hstatus : outcome.status = .pending ∨ outcome.status = .duplicate ∨
          outcome.status = .complete
      · rw [Processor.observed, observe_c cfg.processing p.contexts parsed hkey hstatus] at hc
        cases hvalid : validC cfg.processing parsed with
        | none =>
          rw [hvalid] at hc
          exact hdiscard.times key c hc
        | some value =>
          have hvalue := hparsed.time value hvalid
          rw [hvalid] at hc
          cases hprevious : (p.contexts.discard outcome.discardedKeys).c.get? key with
          | none =>
            rw [hprevious] at hc
            exact Option.some.inj hc ▸ hvalue
          | some previous =>
            rw [hprevious] at hc
            have hmin : min previous value = c := Option.some.inj hc
            rcases min_choice previous value with hleft | hright
            · rw [← hmin, hleft]
              exact hdiscard.times key previous hprevious
            · rw [← hmin, hright]
              exact hvalue
      · have hsame : observe cfg.processing p.contexts parsed outcome =
            p.contexts.discard outcome.discardedKeys := by
          simp only [observe, hkey, if_neg hstatus]
        rw [Processor.observed, hsame] at hc
        exact hdiscard.times key c hc
    · rw [Processor.observed, (observe_other cfg.processing p.contexts parsed hkey).1] at hc
      exact hdiscard.times key c hc
  · intro key gid hgid
    by_cases hkey : outcome.groupKey = some key
    · by_cases hstatus : outcome.status = .pending ∨ outcome.status = .duplicate ∨
          outcome.status = .complete
      · rcases (observe_gid cfg.processing p.contexts parsed hkey hstatus gid).mp hgid with hold | hnew
        · exact hdiscard.gids key gid hold
        · exact hparsed.gid gid hnew
      · have hsame : observe cfg.processing p.contexts parsed outcome =
            p.contexts.discard outcome.discardedKeys := by
          simp only [observe, hkey, if_neg hstatus]
        rw [Processor.observed, hsame] at hgid
        exact hdiscard.gids key gid hgid
    · rw [Processor.observed, gidsOf, (observe_other cfg.processing p.contexts parsed hkey).2] at hgid
      exact hdiscard.gids key gid hgid

/-- An emission leaves the assembler alone and only discards metadata, whether it raises or not. -/
lemma Kept.emit {p : Processor} (h : Kept T C G p) (cfg : ProcessorConfig) (env : Environment)
    (frame : IngressFrame) (snapshot : ProcessingSnapshot) (leadingS : Option PyStr)
    (parsed : ParsedSentence) (outcome : AssemblyOutcome) :
    Kept T C G (emit cfg env frame snapshot leadingS p parsed outcome).1 := by
  obtain ⟨selected, hselected⟩ : ∃ selected,
      selectGid cfg.processing p.contexts parsed outcome = selected := ⟨_, rfl⟩
  obtain ⟨q, result, hdedup⟩ : ∃ q result, deduplicate cfg env (withGid p selected) snapshot
      (logicalKey outcome.sentences) = (q, result) := ⟨_, _, rfl⟩
  obtain ⟨d, n, hframe⟩ := deduplicate_frame cfg env (withGid p selected) snapshot
    (logicalKey outcome.sentences)
  rw [hdedup] at hframe
  obtain ⟨hassembler, hcontexts⟩ := withGid_kept p selected
  have heq : q = (withGid p selected).withDedup d n := hframe
  have hq : Kept T C G q := by
    rw [heq]
    exact h.of_eq hassembler hcontexts
  have htime : selectTimestamp cfg.processing q.contexts parsed outcome =
      selectTimestamp cfg.processing p.contexts parsed outcome := by
    rw [heq, withDedup_contexts, hcontexts]
  have hdedup' := hdedup
  simp only [withGid] at hdedup'
  simp only [Processor.emit, hselected, hdedup']
  cases result with
  | error e => exact hq
  | ok decided =>
    obtain ⟨decisions, eligible, emitted⟩ := decided
    obtain ⟨q', outputs, hlines⟩ : ∃ q' outputs, emitLines cfg env
        (formatOf cfg frame leadingS q.contexts parsed outcome
          (selected.getD (env.gidGenerator cfg.processing.gidDigits p.readings.gid)) eligible) 0
        (if emitted then outcome.sentences else []) q = (q', outputs) := ⟨_, _, rfl⟩
    obtain ⟨sourceState, m, hout⟩ := emitLines_frame cfg env
      (formatOf cfg frame leadingS q.contexts parsed outcome
        (selected.getD (env.gidGenerator cfg.processing.gidDigits p.readings.gid)) eligible) 0
      (if emitted then outcome.sentences else []) q
    rw [hlines] at hout
    have hq' : Kept T C G q' := by
      have heq : q' = _ := hout
      rw [heq]
      exact hq.of_eq rfl rfl
    simp only [formatOf, htime] at hlines
    simp only [hlines]
    cases outputs with
    | error e => exact hq'
    | ok outputs =>
      by_cases hcomplete : outcome.status = .complete
      · simp only [if_pos hcomplete]
        exact hq'.discard rfl rfl
      · simp only [if_neg hcomplete]
        exact hq'.of_eq rfl rfl

variable {cfg : ProcessorConfig} {env : Environment} {p p' : Processor}

lemma selectTimestamp_cases (h : Kept T C G p) {parsed : ParsedSentence}
    (hparsed : Keepable cfg.processing T C G parsed) (outcome : AssemblyOutcome) :
    selectTimestamp cfg.processing p.contexts parsed outcome = .none ∨
      (∃ c, selectTimestamp cfg.processing p.contexts parsed outcome = .int c ∧ C c) ∨
        selectTimestamp cfg.processing p.contexts parsed outcome = .text (str "0") := by
  unfold selectTimestamp
  split
  · next key _ _ =>
    split
    · exact .inl rfl
    · next c hc =>
      have htime : C c := by
        split at hc
        · exact h.times key c hc
        · cases hc
      split
      · exact .inr (.inr rfl)
      · exact .inr (.inl ⟨c, rfl, htime⟩)
  · split
    · exact .inl rfl
    · next c hc => exact .inr (.inl ⟨c, rfl, hparsed.time c hc⟩)

lemma selectGid_kept (h : Kept T C G p) {parsed : ParsedSentence}
    (hparsed : Keepable cfg.processing T C G parsed) (outcome : AssemblyOutcome) :
    ∀ gid, selectGid cfg.processing p.contexts parsed outcome = some gid → G gid := by
  intro gid hgid
  unfold selectGid at hgid
  split at hgid
  · next key _ _ =>
    split at hgid
    · next id hkeys =>
      split at hgid
      · obtain rfl := Option.some.inj hgid
        exact h.gids key _ (by rw [gidsOf, hkeys]; simp)
      · cases hgid
    · cases hgid
  · exact hparsed.gid gid hgid

/-- A message that is complete has as many lines as its last fragment declares. -/
lemma sentences_length {cfg : AssemblerConfig} {s s' : Assembler} {now : ℚ} {parsed : ParsedSentence}
    {out : AssemblyOutcome} (h : s.feedParsedOutcome cfg now parsed = (s', .ok out))
    (hstatus : out.status = .single ∨ out.status = .complete) :
    ∃ fragment, parsed.fragment = some fragment ∧ out.sentences.length = fragment.declaredTotal := by
  unfold Assembler.feedParsedOutcome at h
  cases hfrag : parsed.fragment with
  | none =>
    simp only [hfrag, Prod.mk.injEq, Except.ok.injEq] at h
    rw [← h.2] at hstatus
    simp at hstatus
  | some fragment =>
    refine ⟨fragment, rfl, ?_⟩
    cases htext : parsed.text with
    | error e => simp [hfrag, htext] at h
    | ok text =>
      simp only [hfrag, htext, Assembler.feedValidatedFragment] at h
      split at h
      · next hone =>
        simp only [Prod.mk.injEq, Except.ok.injEq] at h
        rw [← h.2, hone]
        rfl
      · split at h
        · simp only [Prod.mk.injEq, Except.ok.injEq] at h
          rw [← h.2] at hstatus
          simp at hstatus
        · split at h
          · simp at h
          · next s₁ g ks cleaned _ =>
            unfold Assembler.placeFragment at h
            split at h
            · split at h
              · simp only [Prod.mk.injEq, Except.ok.injEq] at h
                rw [← h.2] at hstatus
                simp at hstatus
              · simp only [Prod.mk.injEq, Except.ok.injEq] at h
                rw [← h.2] at hstatus
                simp at hstatus
            · simp only at h
              split at h
              · split at h
                · simp at h
                · next lines hlines =>
                  simp only [Prod.mk.injEq, Except.ok.injEq] at h
                  rw [← h.2]
                  simpa using length_of_mapM_ok hlines
              · simp only [Prod.mk.injEq, Except.ok.injEq] at h
                rw [← h.2] at hstatus
                simp at hstatus

/-- What one sentence leaves in the processor, and how its message is written. -/
theorem Kept.sentence (h : Kept T C G p) {frame : IngressFrame} {snapshot : ProcessingSnapshot}
    {leadingS : Option PyStr} {parsed : ParsedSentence}
    (hparsed : Keepable cfg.processing T C G parsed) {result : Except PyException SentenceReport}
    (hstep : processSentence cfg env frame snapshot leadingS p parsed = (p', result)) :
    Kept T C G p' ∧ ∀ r, result = .ok r → ∀ e, r.emission = some e → WrittenMessage cfg env T C G r e := by
  obtain ⟨text, htext, hfragment, hT⟩ := hparsed.text
  obtain ⟨assembler, outcome, hfeed, hsound, hlines⟩ := Assembler.feedParsedOutcome_total
    cfg.assembler (env.assemblerClock p.readings.assembler) h.texts htext hT
  have hobserved := h.observed hparsed hsound outcome
  have hkept : Kept T C G p' := by
    have hfst := congrArg Prod.fst hstep
    have hemit := hobserved.emit cfg env frame snapshot leadingS parsed outcome
    simp only [processSentence, hfeed] at hfst
    by_cases hstatus : outcome.status = .single ∨ outcome.status = .complete
    · rw [if_pos hstatus] at hfst
      rw [← hfst]
      simp only [Processor.observed] at hemit
      split
      · next q e heq =>
        rw [heq] at hemit
        exact hemit
      · next q e heq =>
        rw [heq] at hemit
        exact hemit
    · rw [if_neg hstatus] at hfst
      rw [← hfst]
      exact hobserved
  refine ⟨hkept, ?_⟩
  rintro r rfl e he
  obtain ⟨rfl, -, assembler', hfed, ⟨hstatus, e', he', hemit⟩ | ⟨-, hnone, -⟩⟩ := processSentence_ok hstep
  · rw [he] at he'
    obtain rfl := Option.some.inj he'
    rw [hfeed] at hfed
    obtain ⟨rfl, hout⟩ := Prod.mk.inj hfed
    obtain rfl := Except.ok.inj hout
    obtain ⟨hsentences, htime, hgid, q, hdedup, q', hout, -⟩ := emit_ok hemit
    have hq : q.contexts = (Processor.observed cfg p assembler r.parsed r.outcome).contexts := by
      obtain ⟨d, n, hframe⟩ := deduplicate_frame cfg env (withGid (Processor.observed cfg p assembler r.parsed
        r.outcome) (selectGid cfg.processing (Processor.observed cfg p assembler r.parsed r.outcome).contexts
          r.parsed r.outcome)) snapshot (logicalKey r.outcome.sentences)
      rw [hdedup] at hframe
      rw [show q = _ from hframe, withDedup_contexts, withGid_contexts]
    refine ⟨hsentences ▸ hlines, ?_, ?_, ?_, ?_⟩
    · obtain ⟨fragment, hfrag, hlength⟩ := sentences_length hfeed hstatus
      exact ⟨text, fragment, hfragment.symm.trans hfrag, hsentences ▸ hlength⟩
    · rw [htime]
      exact selectTimestamp_cases hobserved hparsed r.outcome
    · rw [hgid]
      cases hselected : selectGid cfg.processing (Processor.observed cfg p assembler r.parsed r.outcome).contexts
          r.parsed r.outcome with
      | none => exact .inr ⟨(Processor.observed cfg p assembler r.parsed r.outcome).readings.gid, rfl⟩
      | some gid => exact .inl (selectGid_kept hobserved hparsed r.outcome gid hselected)
    · have hformat := emitLines_ok hout
      rw [← hsentences] at hformat
      refine ⟨_, _, ⟨⟨_, _, _, _, rfl⟩, ?_, rfl, ?_, ?_⟩, hformat⟩
      · rw [htime, ← hq]
        rfl
      · rw [hsentences]
        rfl
      · rw [hsentences]
        rfl
  · rw [he] at hnone
    cases hnone

lemma Kept.sentences {frame : IngressFrame} {snapshot : ProcessingSnapshot} {leadingS : Option PyStr}
    (sentences : List ParsedSentence) :
    ∀ {p p' : Processor} {result : Except PyException (List SentenceReport)}, Kept T C G p →
      (∀ parsed ∈ sentences, Keepable cfg.processing T C G parsed) →
      processSentences cfg env frame snapshot leadingS sentences p = (p', result) →
      Kept T C G p' ∧ ∀ rs, result = .ok rs → ∀ r ∈ rs, ∀ e, r.emission = some e →
        WrittenMessage cfg env T C G r e := by
  induction sentences with
  | nil =>
    intro p p' result h _ hrun
    obtain ⟨rfl, rfl⟩ := Prod.mk.inj hrun
    refine ⟨h, ?_⟩
    rintro rs hrs r hr
    obtain rfl := Except.ok.inj hrs
    cases hr
  | cons parsed rest ih =>
    intro p p' result h hkeepable hrun
    obtain ⟨q, first, hstep⟩ : ∃ q first,
      processSentence cfg env frame snapshot leadingS p parsed = (q, first) := ⟨_, _, rfl⟩
    obtain ⟨hq, hfirst⟩ := h.sentence (hkeepable parsed (by simp)) hstep
    simp only [processSentences, hstep] at hrun
    cases first with
    | error e =>
      obtain ⟨rfl, rfl⟩ := Prod.mk.inj hrun
      exact ⟨hq, by simp⟩
    | ok r =>
      obtain ⟨q', tail, hrest⟩ : ∃ q' tail,
        processSentences cfg env frame snapshot leadingS rest q = (q', tail) := ⟨_, _, rfl⟩
      obtain ⟨hq', htail⟩ := ih hq (fun x hx => hkeepable x (List.mem_cons_of_mem _ hx)) hrest
      simp only [hrest] at hrun
      cases tail with
      | error e =>
        obtain ⟨rfl, rfl⟩ := Prod.mk.inj hrun
        exact ⟨hq', by simp⟩
      | ok reports =>
        obtain ⟨rfl, rfl⟩ := Prod.mk.inj hrun
        refine ⟨hq', ?_⟩
        intro rs hrs r' hr'
        obtain rfl := Except.ok.inj hrs
        rcases List.mem_cons.mp hr' with rfl | hr'
        · exact hfirst r' rfl
        · exact htail reports rfl r' hr'

/-- Every sentence of the frame leaves only what has the properties. -/
def KeepableFrame (cfg : ProcessingConfig) (T : PyStr → Prop) (C : Int → Prop) (G : PyStr → Prop)
    (frame : IngressFrame) : Prop :=
  ∀ sentences, parseFrameSentences frame true = .ok sentences → ∀ parsed ∈ sentences,
    Keepable cfg T C G parsed

lemma Kept.process (h : Kept T C G p) {frame : IngressFrame}
    (hframe : KeepableFrame cfg.processing T C G frame) {snapshot : ProcessingSnapshot}
    {result : Except PyException (List SentenceReport)}
    (hcall : process cfg env p frame snapshot = (p', result)) :
    Kept T C G p' ∧ ∀ rs, result = .ok rs → ∀ r ∈ rs, ∀ e, r.emission = some e →
      WrittenMessage cfg env T C G r e := by
  have hkept : Kept T C G (called p) := h.of_eq rfl rfl
  obtain ⟨q', result', himpl⟩ : ∃ q' result',
    processImpl cfg env (called p) frame snapshot = (q', result') := ⟨_, _, rfl⟩
  have hrun : Kept T C G q' ∧ ∀ rs, result' = .ok rs → ∀ r ∈ rs, ∀ e, r.emission = some e →
      WrittenMessage cfg env T C G r e := by
    unfold processImpl at himpl
    cases hlead : parseLeadingSValue frame with
    | error e =>
      simp only [hlead] at himpl
      obtain ⟨rfl, rfl⟩ := Prod.mk.inj himpl
      exact ⟨hkept, by simp⟩
    | ok leadingS =>
      cases hparse : parseFrameSentences frame true with
      | error e =>
        simp only [hlead, hparse] at himpl
        obtain ⟨rfl, rfl⟩ := Prod.mk.inj himpl
        exact ⟨hkept, by simp⟩
      | ok sentences =>
        simp only [hlead, hparse] at himpl
        exact Kept.sentences sentences hkept (hframe sentences hparse) himpl
  simp only [Processor.process, himpl] at hcall
  cases result' with
  | error e =>
    obtain ⟨rfl, rfl⟩ := Prod.mk.inj hcall
    exact ⟨hrun.1.of_eq rfl rfl, by simp⟩
  | ok reports =>
    obtain ⟨rfl, rfl⟩ := Prod.mk.inj hcall
    exact ⟨hrun.1.of_eq rfl rfl, hrun.2⟩

/-- What holds of every ingress sentence of a history holds of all that the processor keeps. -/
theorem Reachable.kept {startNs : Int} {A : IngressFrame → Prop}
    (hA : ∀ frame, A frame → KeepableFrame cfg.processing T C G frame)
    (h : Reachable cfg env startNs A p) : Kept T C G p := by
  induction h with
  | start => exact init_kept startNs
  | process h hframe snapshot ih => exact (ih.process (hA _ hframe) (Prod.mk.eta.symm)).1
  | reset h ih => exact reset_kept env _

/-- An output of a call: one line of the message of one of its reports. -/
structure IsOutputLine (cfg : ProcessorConfig) (env : Environment) (reports : List SentenceReport)
    (r : SentenceReport) (e : Emission) (fmt : LineFormat) (index n : Nat) (line : PyStr)
    (out : ProcessorOutput) : Prop where
  mem : r ∈ reports
  emission : r.emission = some e
  format : IsFormat cfg e fmt
  get : e.lines[index]? = some line
  message : buildOutputBytes line fmt.sValue fmt.timestamp (index == 0) (gTriplet fmt index)
    (env.wallClock n) = .ok out.message

/-- Every output of a call is a line of a message that is written so. -/
lemma output_written {reports : List SentenceReport}
    (h : ∀ r ∈ reports, ∀ e, r.emission = some e → WrittenMessage cfg env T C G r e)
    {out : ProcessorOutput} (hout : out ∈ batch reports) :
    ∃ r e fmt index n line, IsOutputLine cfg env reports r e fmt index n line out ∧
      WrittenMessage cfg env T C G r e := by
  obtain ⟨r, hr, hmem⟩ := List.mem_flatMap.mp hout
  unfold SentenceReport.outputs at hmem
  cases he : r.emission with
  | none => simp [he] at hmem
  | some e =>
    simp only [he] at hmem
    have hwritten := h r hr e he
    obtain ⟨fmt, n, hformat, hlength, houtput⟩ := hwritten.outputs
    obtain ⟨i, hi⟩ := List.mem_iff_getElem?.mp hmem
    obtain ⟨line, hline⟩ : ∃ line, (if e.emitted then e.lines else [])[i]? = some line := by
      have hlt := (List.getElem?_eq_some_iff.mp hi).1
      exact ⟨_, List.getElem?_eq_getElem (hlength ▸ hlt)⟩
    obtain ⟨message, hget, hbuild⟩ := houtput i line hline
    rw [hi] at hget
    obtain rfl := Option.some.inj hget
    simp only [Nat.zero_add] at hbuild
    refine ⟨r, e, fmt, i, n + i, line, ⟨hr, he, hformat, ?_, hbuild⟩, hwritten⟩
    split at hline
    · exact hline
    · cases hline

end Kept

end Processor

end AisMixer

import AisMixer.DataPlane.MultipartMetadata

/-!
# The source of multipart groups

The cached `s` value of a pending group is the last one that an arrival of its generation offered,
empty or not. A completion takes its own value or the cached one if they are not empty, so an empty
offer hides the values before it.
-/

namespace AisMixer
open Library Assembler

/-- The `s` value of a TAG block that has a `g` value, too. -/
def ParsedSentence.offeredS (parsed : ParsedSentence) : Option PyStr :=
  parsed.tag.gValue.bind (fun _ => parsed.tag.sValue)

namespace Processor

/-- The last `s` value that the arrivals offered. -/
def lastS (arrivals : List SentenceReport) : Option PyStr :=
  (arrivals.filterMap (fun a => a.parsed.offeredS)).getLast?

/-- The last `s` value that the arrivals offered and that is not empty. -/
def lastNonEmptyS (arrivals : List SentenceReport) : Option PyStr :=
  (arrivals.filterMap (fun a => nonEmpty a.parsed.offeredS)).getLast?

lemma lastS_concat (arrivals : List SentenceReport) (r : SentenceReport) :
    lastS (arrivals ++ [r]) = r.parsed.offeredS.or (lastS arrivals) := by
  unfold lastS
  rw [List.filterMap_append]
  cases hs : r.parsed.offeredS with
  | none => simp [hs]
  | some s => simp [hs]

lemma nonEmpty_some {s : PyStr} (hs : s ≠ []) : nonEmpty (some s) = some s := by
  simp [nonEmpty, Option.filter, hs]

/-- The last offer is the last one that is not empty, unless it is empty and hides another. -/
lemma nonEmpty_lastS_eq_iff (arrivals : List SentenceReport) :
    nonEmpty (lastS arrivals) = lastNonEmptyS arrivals ↔
      lastS arrivals ≠ some [] ∨ lastNonEmptyS arrivals = none := by
  have hfilter : arrivals.filterMap (fun a => nonEmpty a.parsed.offeredS) =
      (arrivals.filterMap (fun a => a.parsed.offeredS)).filterMap (fun s => nonEmpty (some s)) := by
    rw [List.filterMap_filterMap]
    congr 1
    funext a
    cases a.parsed.offeredS <;> rfl
  cases hlast : lastS arrivals with
  | none =>
    have hnone : arrivals.filterMap (fun a => a.parsed.offeredS) = [] :=
      List.getLast?_eq_none_iff.mp hlast
    have hempty : lastNonEmptyS arrivals = none := by
      rw [lastNonEmptyS, hfilter, hnone]
      rfl
    simp [hempty, nonEmpty]
  | some s =>
    by_cases hs : s = []
    · subst hs
      simp [nonEmpty, Option.filter, eq_comm]
    · obtain ⟨front, hfront⟩ := List.getLast?_eq_some_iff.mp hlast
      have hsame : lastNonEmptyS arrivals = some s := by
        rw [lastNonEmptyS, hfilter, hfront, List.filterMap_append]
        simp [nonEmpty_some hs]
      simp [hsame, nonEmpty_some hs, hs]

/-- The `s` candidate of a completion: its own value, else the last value that an earlier arrival
offered; empty values do not count. -/
def mostRecentS (own : Option PyStr) (earlier : List SentenceReport) : Option PyStr :=
  (nonEmpty own).or (lastNonEmptyS earlier)

/-- No empty value hides an earlier one: the completing arrival has a value of its own, the last offer
of the earlier arrivals is not empty, or they offered nothing but empty values. -/
def NothingHidden (own : Option PyStr) (earlier : List SentenceReport) : Prop :=
  nonEmpty own ≠ none ∨ lastS earlier ≠ some [] ∨ lastNonEmptyS earlier = none

lemma selected_eq_mostRecentS_iff (own : Option PyStr) (earlier : List SentenceReport) :
    nonEmpty ((nonEmpty own).or (lastS earlier)) = mostRecentS own earlier ↔
      NothingHidden own earlier := by
  unfold mostRecentS NothingHidden
  cases hown : nonEmpty own with
  | none => simpa using nonEmpty_lastS_eq_iff earlier
  | some s =>
    have hs : nonEmpty (some s) = some s := by
      obtain ⟨-, hne⟩ := Option.filter_eq_some_iff.mp hown
      exact nonEmpty_some (by simpa using hne)
    simp [hs]

/-! ### What an arrival does to the cached values -/

section Contexts

variable (cfg : ProcessingConfig) (ctx : MultipartContexts) (parsed : ParsedSentence)
  {outcome : AssemblyOutcome} {key : AssemblyKey}

@[simp] lemma discard_s (keys : List AssemblyKey) (key : AssemblyKey) :
    (ctx.discard keys).s.get? key = if key ∈ keys then none else ctx.s.get? key :=
  Dict.get?_eraseAll _ _ _

@[simp] lemma observeC_s (key : AssemblyKey) (c : Option Int) : (ctx.observeC key c).s = ctx.s := by
  cases c <;> rfl

@[simp] lemma observeGid_s (key : AssemblyKey) (gid : Option PyStr) :
    (ctx.observeGid key gid).s = ctx.s := by
  cases gid <;> rfl

lemma observeS_get? (key other : AssemblyKey) :
    (ctx.observeS key parsed.tag).s.get? other =
      if key = other then parsed.offeredS.or (ctx.s.get? other) else ctx.s.get? other := by
  unfold MultipartContexts.observeS ParsedSentence.offeredS
  cases parsed.tag.gValue with
  | none => cases parsed.tag.sValue <;> simp
  | some g =>
    cases parsed.tag.sValue with
    | none => simp
    | some s => by_cases h : key = other <;> simp [h]

/-- A pending arrival or a duplicate leaves what it offers. -/
lemma observe_s (hkey : outcome.groupKey = some key)
    (hstatus : outcome.status = .pending ∨ outcome.status = .duplicate) :
    (observe cfg ctx parsed outcome).s.get? key =
      parsed.offeredS.or ((ctx.discard outcome.discardedKeys).s.get? key) := by
  have hcomplete : outcome.status ≠ .complete := by
    rcases hstatus with h | h <;> simp [h]
  have hany : outcome.status = .pending ∨ outcome.status = .duplicate ∨ outcome.status = .complete := by
    rcases hstatus with h | h <;> simp [h]
  simp only [observe, hkey, if_pos hany, if_neg hcomplete, observeS_get?, observeC_s, observeGid_s,
    if_true]

/-- A completing arrival leaves nothing. -/
lemma observe_s_complete (hstatus : outcome.status = .complete) :
    (observe cfg ctx parsed outcome).s = (ctx.discard outcome.discardedKeys).s := by
  unfold observe
  cases outcome.groupKey with
  | none => rfl
  | some key => simp [hstatus]

lemma observe_s_other {other : AssemblyKey} (hkey : outcome.groupKey ≠ some other) :
    (observe cfg ctx parsed outcome).s.get? other = (ctx.discard outcome.discardedKeys).s.get? other := by
  unfold observe
  cases hgroup : outcome.groupKey with
  | none => rfl
  | some key =>
    have hne : key ≠ other := fun h => hkey (h ▸ hgroup)
    simp only
    split
    · split
      · simp only [observeC_s, observeGid_s]
      · simp only [observeS_get?, observeC_s, observeGid_s, if_neg hne]
    · rfl

end Contexts

/-! ### The cached values belong to the pending generations -/

/-- Every cached value is the last one that the arrivals of the pending generation offered. -/
def CachesLastS (p : Processor) (reports : List SentenceReport) : Prop :=
  ∀ key, p.contexts.s.get? key =
    (p.assembler.groups.get? key).bind (fun g => lastS (arrivalsOf g.generation reports))

section CachesLastS

variable {cfg : ProcessorConfig} {env : Environment} {p p' : Processor} {reports : List SentenceReport}
  {now : ℚ} {key : AssemblyKey} {ordinal : Nat} {text : PyStr} {s' : Assembler} {out : AssemblyOutcome}

/-- The value that an arrival finds, once the discarded generations have lost theirs. -/
lemma CachesLastS.met (h : CachesLastS p reports) (htracked : Tracked cfg p reports)
    (hspec : FeedSpec cfg.assembler p.assembler now key ordinal text s' out)
    (hstatus : out.status ≠ .conflict) :
    (p.contexts.discard out.discardedKeys).s.get? key =
      lastS (arrivalsOf (metGroup cfg.assembler p.assembler now key).generation reports) := by
  have hold := h key
  unfold metGroup
  cases hlive : liveGroup cfg.assembler now (p.assembler.groups.get? key) with
  | some g =>
    have hkept := live_kept hspec hstatus hlive
    rw [discard_s, if_neg hkept, hold, (liveGroup_eq_some.mp hlive).1]
    rfl
  | none =>
    have hgone : (p.contexts.discard out.discardedKeys).s.get? key = none := by
      rcases expired_discarded hspec hlive with hnone | hmem
      · rw [hnone] at hold
        simp [hold]
      · simp [hmem]
    simp only [hgone, Option.getD_none, htracked.fresh]
    rfl

/-- The cached value of the key of an arrival. -/
lemma CachesLastS.own {r : SentenceReport} (h : CachesLastS p reports) (htracked : Tracked cfg p reports)
    (hspec : FeedSpec cfg.assembler p.assembler now key ordinal text s' r.outcome) :
    (contextsAfter cfg.processing p.contexts r.parsed r.outcome).s.get? key =
      (s'.groups.get? key).bind (fun g => lastS (arrivalsOf g.generation (reports ++ [r]))) := by
  have hgen := feedSpec_generation hspec
  have hcases := feedSpec_cases hspec
  have hmet := h.met htracked hspec
  obtain ⟨g, hg⟩ : ∃ g, metGroup cfg.assembler p.assembler now key = g := ⟨_, rfl⟩
  rw [hg] at hgen hcases hmet
  have hwait : (r.outcome.status = .pending ∨ r.outcome.status = .duplicate) →
      (contextsAfter cfg.processing p.contexts r.parsed r.outcome).s.get? key =
        lastS (arrivalsOf g.generation (reports ++ [r])) := by
    intro hstatus
    have hcomplete : r.outcome.status ≠ .complete := by
      rcases hstatus with hs | hs <;> simp [hs]
    have hconflict : r.outcome.status ≠ .conflict := by
      rcases hstatus with hs | hs <;> simp [hs]
    rw [contextsAfter, if_neg hcomplete, observe_s _ _ _ hspec.groupKey hstatus, hmet hconflict,
      arrivalsOf_concat_of_eq hgen, lastS_concat]
  rcases hcases with ⟨hstatus, hgroup, -⟩ | ⟨hstatus, hgroup⟩ | ⟨hstatus, hgroup, -⟩ |
    ⟨hstatus, hgroup, -⟩
  · rw [hgroup]
    exact hwait (.inr hstatus)
  · have hmem := hspec.own.mpr (.inr hstatus)
    rw [hgroup, contextsAfter, if_neg (by simp [hstatus]), observe_conflict _ _ _ hstatus]
    simp [hmem]
  · rw [hgroup, contextsAfter, if_pos hstatus, hspec.groupKey]
    simp
  · rw [hgroup]
    exact hwait (.inl hstatus)

/-- The cached value of a key that an arrival is not for. -/
lemma CachesLastS.other {r : SentenceReport} (h : CachesLastS p reports)
    (htracked : Tracked cfg p reports)
    (hspec : FeedSpec cfg.assembler p.assembler now key ordinal text s' r.outcome)
    {other : AssemblyKey} (hne : other ≠ key) :
    (contextsAfter cfg.processing p.contexts r.parsed r.outcome).s.get? other =
      (s'.groups.get? other).bind (fun g => lastS (arrivalsOf g.generation (reports ++ [r]))) := by
  have hdiscard : (contextsAfter cfg.processing p.contexts r.parsed r.outcome).s.get? other =
      (p.contexts.discard r.outcome.discardedKeys).s.get? other := by
    have hother := observe_s_other cfg.processing p.contexts r.parsed
      (show r.outcome.groupKey ≠ some other by simp [hspec.groupKey, Ne.symm hne])
    unfold contextsAfter
    split
    · rw [discard_s, hspec.groupKey, if_neg (by simpa using hne), hother]
    · exact hother
  rw [hdiscard]
  rcases hspec.others other hne with ⟨hsame, hkept⟩ | ⟨-, -, hnone, hmem, -⟩
  · rw [discard_s, if_neg hkept, h other, hsame]
    cases hg : p.assembler.groups.get? other with
    | none => rfl
    | some g =>
      have hgen : r.outcome.generation ≠ some g.generation := by
        rw [feedSpec_generation hspec]
        exact fun heq => metGroup_generation_ne htracked.wellFormed hne hg (Option.some.inj heq)
      simp only [Option.bind_some, arrivalsOf_concat_of_ne hgen]
  · rw [hnone]
    simp [hmem]

/-- One sentence keeps the cached values. -/
lemma CachesLastS.sentence (htimeout : 0 < cfg.assembler.timeout) (h : CachesLastS p reports)
    (htracked : Tracked cfg p reports) {r : SentenceReport} (hspec : SentenceSpec cfg env p p' r)
    (htext : r.parsed.text = .ok text) : CachesLastS p' (reports ++ [r]) := by
  obtain ⟨s', out, hfeed, hcases⟩ := feedParsedOutcome_spec htimeout htracked.wellFormed
    (env.assemblerClock p.readings.assembler) htext
  rw [hspec.fed] at hfeed
  obtain ⟨rfl, hout⟩ := Prod.mk.inj hfeed
  obtain rfl := Except.ok.inj hout
  intro key
  rw [hspec.contexts]
  rcases hcases with ⟨fragment, -, -, hfed⟩ | ⟨hstate, hout, hstatus⟩
  · by_cases hne : key = keyOf r.parsed.frame.assemblerKey fragment
    · rw [hne]
      exact h.own htracked hfed
    · exact h.other htracked hfed hne
  · -- no group: the cached values stay, and so do the generations
    have hcomplete : r.outcome.status ≠ .complete := by
      rcases hstatus with ⟨hs, -⟩ | ⟨hs | hs, -⟩ <;> simp [hs]
    have hsame : (contextsAfter cfg.processing p.contexts r.parsed r.outcome).s.get? key =
        p.contexts.s.get? key := by
      rw [contextsAfter, if_neg hcomplete, observe_quiet _ _ _ (by rw [hout]), hout]
      rfl
    have hgen : ∀ n, r.outcome.generation ≠ some n := by
      intro n
      rw [hout]
      simp
    have hgroups : p'.assembler.groups = p.assembler.groups := by
      rw [hstate]
      rfl
    rw [hsame, h key, hgroups]
    congr 1
    funext g
    rw [arrivalsOf_concat_of_ne (hgen _)]

/-- In every run the cached values are the last offers of the pending generations. -/
theorem cachesLastS_of_run {startNs : Int} (htimeout : 0 < cfg.assembler.timeout)
    (h : Run cfg env startNs p reports) : CachesLastS p reports := by
  induction h with
  | start => exact fun key => rfl
  | counters c h ih => exact ih
  | sentence h hparse hmem hstep ih =>
    obtain ⟨text, htext, -⟩ := parsed_text hparse hmem
    rw [← (processSentence_ok hstep).1] at htext
    exact ih.sentence htimeout (tracked_of_run htimeout h) (processSentence_spec hstep) htext

/-- The candidate that a completing sentence takes. -/
lemma completion_source {startNs : Int} (htimeout : 0 < cfg.assembler.timeout)
    (h : Run cfg env startNs p reports) {r : SentenceReport} (hspec : SentenceSpec cfg env p p' r)
    (htext : r.parsed.text = .ok text) (hcomplete : r.outcome.status = .complete) {generation : Nat}
    (hgeneration : r.outcome.generation = some generation) :
    incomingS (observe cfg.processing p.contexts r.parsed r.outcome) r.parsed r.outcome =
      (nonEmpty r.parsed.tag.sValue).or (lastS (arrivalsOf generation reports)) := by
  have htracked := tracked_of_run htimeout h
  obtain ⟨s', out, hfeed, hcases⟩ := feedParsedOutcome_spec htimeout htracked.wellFormed
    (env.assemblerClock p.readings.assembler) htext
  rw [hspec.fed] at hfeed
  obtain ⟨rfl, hout⟩ := Prod.mk.inj hfeed
  obtain rfl := Except.ok.inj hout
  rcases hcases with ⟨fragment, -, -, hfed⟩ | hquiet
  · have hmet := (cachesLastS_of_run htimeout h).met htracked hfed (by simp [hcomplete])
    rw [feedSpec_generation hfed] at hgeneration
    obtain rfl := Option.some.inj hgeneration
    simp only [incomingS, hcomplete, hfed.groupKey]
    rw [observe_s_complete _ _ _ hcomplete, hmet]
  · rcases hquiet.status with ⟨hs, -⟩ | ⟨hs | hs, -⟩ <;> simp [hs] at hcomplete

/-! ### The arrivals before a completion -/

/-- Whatever has met a group that is still pending was a fragment of it or a duplicate. -/
def OnlyWaiting (p : Processor) (reports : List SentenceReport) : Prop :=
  ∀ key g, p.assembler.groups.get? key = some g → ∀ a ∈ arrivalsOf g.generation reports,
    a.outcome.status = .pending ∨ a.outcome.status = .duplicate

lemma OnlyWaiting.met (h : OnlyWaiting p reports) (htracked : Tracked cfg p reports) (now : ℚ)
    (key : AssemblyKey) :
    ∀ a ∈ arrivalsOf (metGroup cfg.assembler p.assembler now key).generation reports,
      a.outcome.status = .pending ∨ a.outcome.status = .duplicate := by
  intro a ha
  unfold metGroup at ha
  cases hlive : liveGroup cfg.assembler now (p.assembler.groups.get? key) with
  | some g =>
    rw [hlive] at ha
    exact h key g (liveGroup_eq_some.mp hlive).1 a ha
  | none =>
    rw [hlive, Option.getD_none, htracked.fresh] at ha
    cases ha

lemma OnlyWaiting.sentence (htimeout : 0 < cfg.assembler.timeout) (h : OnlyWaiting p reports)
    (htracked : Tracked cfg p reports) {r : SentenceReport} (hspec : SentenceSpec cfg env p p' r)
    (htext : r.parsed.text = .ok text) : OnlyWaiting p' (reports ++ [r]) := by
  obtain ⟨s', out, hfeed, hcases⟩ := feedParsedOutcome_spec htimeout htracked.wellFormed
    (env.assemblerClock p.readings.assembler) htext
  rw [hspec.fed] at hfeed
  obtain ⟨rfl, hout⟩ := Prod.mk.inj hfeed
  obtain rfl := Except.ok.inj hout
  intro other g hg a ha
  rcases hcases with ⟨fragment, -, -, hfed⟩ | ⟨hstate, hout, -⟩
  · have hgen := feedSpec_generation hfed
    rcases feedSpec_groups hfed hg with ⟨heq, hmet, -⟩ | ⟨hne, hold⟩
    · rw [hmet, arrivalsOf_concat_of_eq hgen] at ha
      rcases List.mem_append.mp ha with ha | ha
      · exact h.met htracked _ _ a ha
      · rw [List.mem_singleton.mp ha]
        rw [heq] at hg
        rcases feedSpec_cases hfed with ⟨hs, -⟩ | ⟨-, hnone⟩ | ⟨-, hnone, -⟩ | ⟨hs, -⟩
        · exact .inr hs
        · rw [hnone] at hg
          cases hg
        · rw [hnone] at hg
          cases hg
        · exact .inl hs
    · have hdiffers : r.outcome.generation ≠ some g.generation := by
        rw [hgen]
        exact fun heq => metGroup_generation_ne htracked.wellFormed hne hold (Option.some.inj heq)
      rw [arrivalsOf_concat_of_ne hdiffers] at ha
      exact h other g hold a ha
  · have hdiffers : r.outcome.generation ≠ some g.generation := by
      rw [hout]
      simp
    rw [arrivalsOf_concat_of_ne hdiffers] at ha
    rw [hstate] at hg
    exact h other g hg a ha

lemma onlyWaiting_of_run {startNs : Int} (htimeout : 0 < cfg.assembler.timeout)
    (h : Run cfg env startNs p reports) : OnlyWaiting p reports := by
  induction h with
  | start =>
    intro key g hg
    cases hg
  | counters c h ih => exact ih
  | sentence h hparse hmem hstep ih =>
    obtain ⟨text, htext, -⟩ := parsed_text hparse hmem
    rw [← (processSentence_ok hstep).1] at htext
    exact ih.sentence htimeout (tracked_of_run htimeout h) (processSentence_spec hstep) htext

/-- The arrivals before a completion, in the generation that it completes. -/
lemma completion_waiting {startNs : Int} (htimeout : 0 < cfg.assembler.timeout)
    (h : Run cfg env startNs p reports) {r : SentenceReport} (hspec : SentenceSpec cfg env p p' r)
    (htext : r.parsed.text = .ok text) {generation : Nat}
    (hgeneration : r.outcome.generation = some generation) :
    ∀ a ∈ arrivalsOf generation reports,
      a.outcome.status = .pending ∨ a.outcome.status = .duplicate := by
  have htracked := tracked_of_run htimeout h
  obtain ⟨s', out, hfeed, hcases⟩ := feedParsedOutcome_spec htimeout htracked.wellFormed
    (env.assemblerClock p.readings.assembler) htext
  rw [hspec.fed] at hfeed
  obtain ⟨rfl, hout⟩ := Prod.mk.inj hfeed
  obtain rfl := Except.ok.inj hout
  rcases hcases with ⟨fragment, -, -, hfed⟩ | ⟨-, hout, -⟩
  · rw [feedSpec_generation hfed] at hgeneration
    obtain rfl := Option.some.inj hgeneration
    exact (onlyWaiting_of_run htimeout h).met htracked _ _
  · rw [hout] at hgeneration
    cases hgeneration

end CachesLastS

/-! ### The source that a group goes out with -/

/-- The ingress `s` candidate of a message, in the state before its sentence. -/
def ingressS (cfg : ProcessingConfig) (q : Processor) (r : SentenceReport) : Option PyStr :=
  incomingS (observe cfg q.contexts r.parsed r.outcome) r.parsed r.outcome

/-- The format of the lines of a message, in the state before its sentence. -/
def lineFormat (cfg : ProcessorConfig) (frame : IngressFrame) (leadingS : Option PyStr) (q : Processor)
    (r : SentenceReport) (e : Emission) : LineFormat :=
  formatOf cfg frame leadingS (observe cfg.processing q.contexts r.parsed r.outcome) r.parsed r.outcome
    e.gid e.targetIds

lemma lineFormat_sValue (cfg : ProcessorConfig) (frame : IngressFrame) (leadingS : Option PyStr)
    (q : Processor) (r : SentenceReport) (e : Emission) :
    (lineFormat cfg frame leadingS q r e).sValue = chooseSValueFromCandidates cfg.processing.stationId
      ((nonEmpty frame.aliasForS).or (ingressS cfg.processing q r)) leadingS frame.remoteIp := rfl

/-- The lines of a message are written in that format. -/
lemma outputs_format {cfg : ProcessorConfig} {env : Environment} {frame : IngressFrame}
    {snapshot : ProcessingSnapshot} {leadingS : Option PyStr} {q q' : Processor}
    {parsed : ParsedSentence} {r : SentenceReport}
    (hstep : processSentence cfg env frame snapshot leadingS q parsed = (q', .ok r)) {e : Emission}
    (he : r.emission = some e) :
    e.lines = r.outcome.sentences ∧ e.timestamp = (lineFormat cfg frame leadingS q r e).timestamp ∧
      ∃ n, OutputsOf env (lineFormat cfg frame leadingS q r e) 0 n (if e.emitted then e.lines else [])
        e.outputs := by
  obtain ⟨rfl, -, assembler, -, ⟨-, e', he', hemit⟩ | ⟨-, hnone, -⟩⟩ := processSentence_ok hstep
  · rw [he] at he'
    obtain rfl := Option.some.inj he'
    obtain ⟨hlines, htime, -, q₁, hdedup, q₂, hout, -⟩ := emit_ok hemit
    obtain ⟨d, n, hframe⟩ := deduplicate_frame cfg env (withGid (observed cfg q assembler r.parsed
      r.outcome) (selectGid cfg.processing (observed cfg q assembler r.parsed r.outcome).contexts
        r.parsed r.outcome)) snapshot (logicalKey r.outcome.sentences)
    rw [hdedup] at hframe
    have hcontexts : q₁.contexts = observe cfg.processing q.contexts r.parsed r.outcome := by
      rw [show q₁ = _ from hframe, withDedup_contexts, withGid_contexts]
      rfl
    rw [hcontexts, ← hlines] at hout
    exact ⟨hlines, htime, _, emitLines_ok hout⟩
  · rw [he] at hnone
    cases hnone

/-- In every run of calls that return, the outputs of a group that completes are labelled with the
candidate that its generation left: the own value of the completing arrival, else the last value
that an earlier fragment or duplicate of the generation offered, exactly when no empty value hides
an earlier one. -/
theorem multipart_source {cfg : ProcessorConfig} {env : Environment} {startNs : Int}
    (htimeout : 0 < cfg.assembler.timeout) {calls : List (IngressFrame × ProcessingSnapshot)}
    {p : Processor} {batches : List (List SentenceReport)}
    (hrun : processAll cfg env calls (.init startNs) = (p, batches.map .ok))
    {before after : List SentenceReport} {r : SentenceReport}
    (hsplit : batches.flatten = before ++ r :: after) (hcomplete : r.outcome.status = .complete) :
    ∃ q q' snapshot leadingS generation e n, Run cfg env startNs q before ∧
      processSentence cfg env r.parsed.frame snapshot leadingS q r.parsed = (q', .ok r) ∧
      r.outcome.generation = some generation ∧
      (∀ a ∈ arrivalsOf generation before, a.outcome.groupKey = r.outcome.groupKey ∧
        (a.outcome.status = .pending ∨ a.outcome.status = .duplicate)) ∧
      r.emission = some e ∧
      OutputsOf env (lineFormat cfg r.parsed.frame leadingS q r e) 0 n
        (if e.emitted then e.lines else []) e.outputs ∧
      (lineFormat cfg r.parsed.frame leadingS q r e).sValue =
        chooseSValueFromCandidates cfg.processing.stationId
          ((nonEmpty r.parsed.frame.aliasForS).or (ingressS cfg.processing q r)) leadingS
          r.parsed.frame.remoteIp ∧
      (nonEmpty (ingressS cfg.processing q r) =
          mostRecentS r.parsed.tag.sValue (arrivalsOf generation before) ↔
        NothingHidden r.parsed.tag.sValue (arrivalsOf generation before)) := by
  have hall : Run cfg env startNs p batches.flatten := by
    simpa using (@Run.start cfg env startNs).processAll hrun
  obtain ⟨q, q', frame, snapshot, leadingS, sentences, parsed, hbefore, hparse, hmem, hstep⟩ :=
    hall.split hsplit
  have htracked := tracked_of_run htimeout hbefore
  have hspec := processSentence_spec hstep
  obtain ⟨text, htext, -⟩ := parsed_text hparse hmem
  have hframe := parsed_frame hparse hmem
  obtain ⟨rfl, -, assembler, -, hcases⟩ := processSentence_ok hstep
  obtain ⟨key, generation, fragments, hkey, hgen, -, -, -, -, hdesc⟩ :=
    completion_described htimeout htracked hspec htext hcomplete
  obtain ⟨e, he⟩ : ∃ e, r.emission = some e := by
    rcases hcases with ⟨-, e, he, -⟩ | ⟨hstatus, -⟩
    · exact ⟨e, he⟩
    · exact absurd (.inr hcomplete) hstatus
  obtain ⟨-, -, n, houtputs⟩ := outputs_format hstep he
  have hwaiting := completion_waiting htimeout hbefore hspec htext hgen
  have hsource := completion_source htimeout hbefore hspec htext hcomplete hgen
  rw [← hframe] at hstep houtputs
  refine ⟨q, q', snapshot, leadingS, generation, e, n, hbefore, hstep, hgen, ?_, he, houtputs, rfl, ?_⟩
  · intro a ha
    refine ⟨?_, hwaiting a ha⟩
    rw [hkey]
    exact hdesc.member a (List.mem_append_left _ ha)
  · rw [ingressS, hsource]
    exact selected_eq_mostRecentS_iff _ _

/-- Whenever a group completes, its candidate is the most recent value that is not empty. -/
def MostRecentSources : Prop :=
  ∀ (cfg : ProcessorConfig) (env : Environment) (startNs : Int), 0 < cfg.assembler.timeout →
    ∀ calls p (batches : List (List SentenceReport)),
      processAll cfg env calls (.init startNs) = (p, batches.map .ok) →
      ∀ before after r, batches.flatten = before ++ r :: after → r.outcome.status = .complete →
        ∀ generation, r.outcome.generation = some generation →
          ∀ q q' snapshot leadingS, Run cfg env startNs q before →
            processSentence cfg env r.parsed.frame snapshot leadingS q r.parsed = (q', .ok r) →
              nonEmpty (ingressS cfg.processing q r) =
                mostRecentS r.parsed.tag.sValue (arrivalsOf generation before)

/-- Datagrams of one sender. -/
def senderCalls (payloads : List Bytes) : List (IngressFrame × ProcessingSnapshot) :=
  payloads.map (fun payload => (⟨str "udp", str "a", none, some (str "10.0.0.1"), str "a", payload,
    .utf8Ignore⟩, oneTarget))

def senderBatches (payloads : List Bytes) : List (List SentenceReport) :=
  (processAll taggedConfig stillEnvironment (senderCalls payloads) (.init 0)).2.filterMap
    Except.toOption

lemma senderCalls_return {payloads : List Bytes}
    (h : (processAll taggedConfig stillEnvironment (senderCalls payloads) (.init 0)).2 =
      (senderBatches payloads).map .ok) :
    processAll taggedConfig stillEnvironment (senderCalls payloads) (.init 0) =
      ((processAll taggedConfig stillEnvironment (senderCalls payloads) (.init 0)).1,
        (senderBatches payloads).map .ok) := by
  rw [← h]

/-- A fragment with a source, an exact duplicate of it with the given source, and the other fragment
without a TAG block. -/
def duplicatedSource (source : Bytes) : List Bytes :=
  [ascii "\\g:1-2-77,s:x*00\\!AIVDM,2,1,3,A,p,0*00",
    ascii "\\g:1-2-77,s:" ++ source ++ ascii "*00\\!AIVDM,2,1,3,A,p,0*00",
    ascii "!AIVDM,2,2,3,A,q,0*00"]

/-- What decides on the source of a group in the reports of its arrivals. -/
structure SourceFacts where
  status : AssemblyStatus
  generation : Option Nat
  aliasForS : Option PyStr
  own : Option PyStr
  offered : Option PyStr
  deriving DecidableEq

def sourceFacts (r : SentenceReport) : SourceFacts :=
  ⟨r.outcome.status, r.outcome.generation, r.parsed.frame.aliasForS, r.parsed.tag.sValue,
    r.parsed.offeredS⟩

/-- The group of the three datagrams completes with the third one. -/
lemma duplicated_reports {source : Bytes} {value : PyStr}
    (h : (senderBatches (duplicatedSource source)).flatten.map sourceFacts =
      [⟨.pending, some 0, none, some (str "x"), some (str "x")⟩,
        ⟨.duplicate, some 0, none, some value, some value⟩, ⟨.complete, some 0, none, none, none⟩]) :
    ∃ before r, (senderBatches (duplicatedSource source)).flatten = before ++ r :: [] ∧
      sourceFacts r = ⟨.complete, some 0, none, none, none⟩ ∧
      lastS (arrivalsOf 0 before) = some value ∧
      lastNonEmptyS (arrivalsOf 0 before) = (nonEmpty (some value)).or (some (str "x")) := by
  obtain ⟨a, rest, hflatten, ha, hrest⟩ := List.map_eq_cons_iff.mp h
  obtain ⟨b, rest', rfl, hb, hrest'⟩ := List.map_eq_cons_iff.mp hrest
  obtain ⟨r, rest'', rfl, hr, hnil⟩ := List.map_eq_cons_iff.mp hrest'
  obtain rfl := List.map_eq_nil_iff.mp hnil
  simp only [sourceFacts, SourceFacts.mk.injEq] at ha hb
  have harrivals : arrivalsOf 0 [a, b] = [a, b] := by
    simp [arrivalsOf, ha.2.1, hb.2.1]
  refine ⟨[a, b], r, hflatten, hr, ?_, ?_⟩
  · rw [harrivals, lastS]
    simp [ha.2.2.2.2, hb.2.2.2.2]
  · have hx : nonEmpty (some (str "x")) = some (str "x") := by decide
    rw [harrivals, lastNonEmptyS]
    cases hvalue : nonEmpty (some value) with
    | none => simp [ha.2.2.2.2, hb.2.2.2.2, hvalue, hx]
    | some v => simp [ha.2.2.2.2, hb.2.2.2.2, hvalue, hx]

theorem multipart_source_duplicate : ∃ e fmt n, fmt.sValue = str "y" ∧
    (senderBatches (duplicatedSource (ascii "y"))).flatten.getLast?.bind SentenceReport.emission =
      some e ∧
    OutputsOf stillEnvironment fmt 0 n (if e.emitted then e.lines else []) e.outputs := by
  have hreturn := @senderCalls_return (duplicatedSource (ascii "y")) (by decide +kernel)
  obtain ⟨before, r, hsplit, hfacts, hlast, hnonEmpty⟩ :=
    @duplicated_reports (ascii "y") (str "y") (by decide +kernel)
  simp only [sourceFacts, SourceFacts.mk.injEq] at hfacts
  obtain ⟨hcomplete, hgen, halias, hown, -⟩ := hfacts
  obtain ⟨q, q', snapshot, leadingS, generation, e, n, -, -, hgeneration, -, he, houtputs, hlabel, hiff⟩ :=
    @multipart_source taggedConfig stillEnvironment 0 (by decide +kernel) _ _ _ hreturn before [] r hsplit
      hcomplete
  obtain rfl := Option.some.inj (hgen.symm.trans hgeneration)
  have hcandidate : nonEmpty (ingressS taggedConfig.processing q r) = some (str "y") := by
    rw [hiff.mpr (.inr (.inl (by rw [hlast]; decide))), mostRecentS, hown, hnonEmpty]
    rfl
  have hingress : ingressS taggedConfig.processing q r = some (str "y") :=
    (Option.filter_eq_some_iff.mp hcandidate).1
  refine ⟨e, _, n, ?_, ?_, houtputs⟩
  · rw [hlabel, halias, hingress]
    rfl
  · rw [hsplit]
    simpa using he

/-- An exact duplicate with an empty source erases the source of the first fragment. -/
theorem not_mostRecentSources : ¬MostRecentSources := by
  intro h
  have hreturn := @senderCalls_return (duplicatedSource []) (by decide +kernel)
  obtain ⟨before, r, hsplit, hfacts, hlast, hnonEmpty⟩ :=
    @duplicated_reports [] [] (by decide +kernel)
  simp only [sourceFacts, SourceFacts.mk.injEq] at hfacts
  obtain ⟨hcomplete, hgen, -, hown, -⟩ := hfacts
  have htimeout : 0 < taggedConfig.assembler.timeout := by decide +kernel
  have hall := (@Run.start taggedConfig stillEnvironment 0).processAll hreturn
  rw [List.nil_append] at hall
  obtain ⟨q, q', frame, snapshot, leadingS, sentences, parsed, hbefore, hparse, hmem, hstep⟩ :=
    hall.split hsplit
  obtain ⟨text, htext, -⟩ := parsed_text hparse hmem
  have hframe := parsed_frame hparse hmem
  obtain ⟨rfl, -⟩ := processSentence_ok hstep
  rw [← hframe] at hstep
  have hclaimed := h taggedConfig stillEnvironment 0 htimeout _ _ _ hreturn before [] r hsplit hcomplete 0
    hgen q q' snapshot leadingS hbefore hstep
  have hsource := completion_source htimeout hbefore (processSentence_spec hstep) htext hcomplete hgen
  rw [ingressS, hsource, selected_eq_mostRecentS_iff, NothingHidden, hown, hlast, hnonEmpty] at hclaimed
  revert hclaimed
  decide

end Processor

end AisMixer

import AisMixer.DataPlane.AssemblerSteps

/-!
# Runs of the assembler

A run is a list of timed calls and gives one record for each. Without a limit on the number of
groups, what happens to a key does not depend on the calls for other keys.
-/

namespace AisMixer
open Library

/-- What a group holds, without its identity. -/
def AssemblyGroup.contents (g : AssemblyGroup) : Dict Nat PyStr × ℚ :=
  (g.fragmentsByOrdinal, g.lastProgressAt)

namespace Assembler

inductive AssemblerCall where
  | feedOutcome (sourceIdentity line : PyStr)
  | feedParsedOutcome (parsed : ParsedSentence)
  | cleanupExpired
  | reset
  deriving DecidableEq

inductive CallResult where
  | outcome (out : AssemblyOutcome)
  | discarded (keys : List AssemblyKey)
  | raised (e : PyException)
  deriving DecidableEq

def CallResult.of : Except PyException AssemblyOutcome → CallResult
  | .ok out => .outcome out
  | .error e => .raised e

def CallResult.discardedKeys : CallResult → List AssemblyKey
  | .outcome out => out.discardedKeys
  | .discarded keys => keys
  | .raised _ => []

/-- The status and the sentences of a feed. -/
def CallResult.summary : CallResult → Option (AssemblyStatus × List PyStr)
  | .outcome out => some (out.status, out.sentences)
  | _ => none

def AssemblerCall.apply (cfg : AssemblerConfig) (s : Assembler) (now : ℚ) :
    AssemblerCall → Assembler × CallResult
  | .feedOutcome sourceIdentity line =>
    let (s, out) := Assembler.feedOutcome cfg s now sourceIdentity line
    (s, .of out)
  | .feedParsedOutcome parsed =>
    let (s, out) := Assembler.feedParsedOutcome cfg s now parsed
    (s, .of out)
  | .cleanupExpired =>
    let (s, keys) := Assembler.cleanupExpired cfg s now
    (s, .discarded keys)
  | .reset =>
    let (s, keys) := Assembler.reset s
    (s, .discarded keys)

/-- The source, the text and the fragment that a call feeds. -/
def AssemblerCall.fed : AssemblerCall → Option (PyStr × PyStr × ParsedFragment)
  | .feedOutcome sourceIdentity line =>
    (parseFragment line).map (fun fragment => (sourceIdentity, line, fragment))
  | .feedParsedOutcome parsed =>
    parsed.fragment.bind (fun fragment =>
      parsed.text.toOption.map (fun text => (parsed.frame.assemblerKey, text, fragment)))
  | _ => none

/-- A call that feeds a sentence of the key. -/
def AssemblerCall.feeds (key : AssemblyKey) (call : AssemblerCall) : Bool :=
  call.fed.any (fun fed => decide (keyOf fed.1 fed.2.2 = key))

structure CallRecord where
  now : ℚ
  call : AssemblerCall
  result : CallResult
  deriving DecidableEq

def run (cfg : AssemblerConfig) : Assembler → List (ℚ × AssemblerCall) → List CallRecord
  | _, [] => []
  | s, (now, call) :: rest =>
    let (s', result) := call.apply cfg s now
    ⟨now, call, result⟩ :: run cfg s' rest

/-- The state after a run. -/
def finalState (cfg : AssemblerConfig) : Assembler → List (ℚ × AssemblerCall) → Assembler
  | s, [] => s
  | s, (now, call) :: rest => finalState cfg (call.apply cfg s now).1 rest

/-- The record of one call. -/
def recordOf (cfg : AssemblerConfig) (s : Assembler) (now : ℚ) (call : AssemblerCall) : CallRecord :=
  ⟨now, call, (call.apply cfg s now).2⟩

/-- A record of a run is the record of one of its calls, in the state after the calls before. -/
lemma run_split {cfg : AssemblerConfig} {before after : List CallRecord} {r : CallRecord} :
    ∀ {s : Assembler} {calls : List (ℚ × AssemblerCall)}, run cfg s calls = before ++ r :: after →
      ∃ earlier call later, calls = earlier ++ (r.now, call) :: later ∧ before = run cfg s earlier ∧
        r = recordOf cfg (finalState cfg s earlier) r.now call ∧
        after = run cfg (call.apply cfg (finalState cfg s earlier) r.now).1 later := by
  induction before with
  | nil =>
    intro s calls h
    cases calls with
    | nil => cases h
    | cons c calls =>
      obtain ⟨now, call⟩ := c
      obtain ⟨rfl, rfl⟩ := List.cons.inj h
      exact ⟨[], call, calls, rfl, rfl, rfl, rfl⟩
  | cons b before ih =>
    intro s calls h
    cases calls with
    | nil => cases h
    | cons c calls =>
      obtain ⟨now, call⟩ := c
      obtain ⟨rfl, hrest⟩ := List.cons.inj h
      obtain ⟨earlier, call', later, rfl, rfl, hr, hafter⟩ := ih hrest
      exact ⟨(now, call) :: earlier, call', later, rfl, rfl, hr, hafter⟩

lemma run_concat (cfg : AssemblerConfig) (s : Assembler) (calls : List (ℚ × AssemblerCall)) (now : ℚ)
    (call : AssemblerCall) :
    run cfg s (calls ++ [(now, call)]) =
      run cfg s calls ++ [recordOf cfg (finalState cfg s calls) now call] := by
  induction calls generalizing s with
  | nil => rfl
  | cons c calls ih => exact congrArg _ (ih _)

lemma finalState_concat (cfg : AssemblerConfig) (s : Assembler) (calls : List (ℚ × AssemblerCall))
    (now : ℚ) (call : AssemblerCall) :
    finalState cfg s (calls ++ [(now, call)]) = (call.apply cfg (finalState cfg s calls) now).1 := by
  induction calls generalizing s with
  | nil => rfl
  | cons c calls ih => exact ih _

lemma run_times (cfg : AssemblerConfig) (s : Assembler) (calls : List (ℚ × AssemblerCall)) :
    (run cfg s calls).map CallRecord.now = calls.map Prod.fst := by
  induction calls generalizing s with
  | nil => rfl
  | cons c calls ih => exact congrArg _ (ih _)

/-! ### One call -/

lemma feedOutcome_eq (cfg : AssemblerConfig) (s : Assembler) (now : ℚ) (sourceIdentity line : PyStr) :
    Assembler.feedOutcome cfg s now sourceIdentity line =
      match parseFragment line with
      | some fragment => feedValidatedFragment cfg s now sourceIdentity line fragment
      | none => (s.count .invalid, .ok { status := .invalid }) := by
  unfold Assembler.feedOutcome parseFragment
  cases leadingFields line with
  | none => rfl
  | some fields =>
    obtain ⟨totalText, currentText, sequentialId, channel⟩ := fields
    cases htotal : pyInt totalText with
    | none => simp [htotal]
    | some total =>
      cases hcurrent : pyInt currentText with
      | none => simp [htotal, hcurrent]
      | some current =>
        cases hcheck : ParsedFragment.check total current sequentialId channel <;>
          simp [htotal, hcurrent, hcheck]

/-- A feed that no group takes: it only counts. -/
lemma feed_ungrouped {cfg : AssemblerConfig} (sourceIdentity text : PyStr) {fragment : ParsedFragment}
    (hgrouped : isGrouped cfg fragment = false) :
    ∃ status sentences, (status = .single ∧ sentences = [text] ∨
        status = .limitExceeded ∧ sentences = []) ∧
      (∀ s now, feedValidatedFragment cfg s now sourceIdentity text fragment =
        (s.count status, .ok { status := status, sentences := sentences })) := by
  by_cases hone : fragment.declaredTotal = 1
  · exact ⟨.single, [text], .inl ⟨rfl, rfl⟩, fun s now => by simp [feedValidatedFragment, hone]⟩
  · have hlimit : cfg.maxFragmentsPerGroup.any
        (fun limit => decide ((limit : Nat) < fragment.declaredTotal)) = true := by
      simpa [isGrouped, hone] using hgrouped
    exact ⟨.limitExceeded, [], .inr ⟨rfl, rfl⟩,
      fun s now => by simp only [feedValidatedFragment, hone, hlimit, if_false, if_true]⟩

/-- What a call does that feeds no group. -/
structure QuietSpec (cfg : AssemblerConfig) (s : Assembler) (now : ℚ) (call : AssemblerCall)
    (s' : Assembler) (result : CallResult) : Prop where
  wellFormed : s'.WellFormed
  nextGeneration : s'.nextGeneration = s.nextGeneration
  noKey : ∀ out, result = .outcome out → out.groupKey = none ∧ out.generation = none
  kept : ∀ key, KeptOrDropped cfg now s s' result.discardedKeys key ∨
    call = .reset ∧ s'.groups.get? key = none ∧
      (key ∈ result.discardedKeys ↔ ∃ g, s.groups.get? key = some g)

/-- The group feed that a call makes. -/
def AssemblerCall.groupFeed (cfg : AssemblerConfig) (call : AssemblerCall) :
    Option (AssemblyKey × Nat × PyStr) :=
  match call.fed with
  | some (sourceIdentity, text, fragment) =>
    if isGrouped cfg fragment then some (keyOf sourceIdentity fragment, fragment.ordinal, text)
    else none
  | none => none

lemma KeptOrDropped.of_groups_eq {cfg : AssemblerConfig} {now : ℚ} {s s' : Assembler}
    (h : s'.groups = s.groups) (key : AssemblyKey) : KeptOrDropped cfg now s s' [] key :=
  .refl (by rw [h])

lemma count_wellFormed {s : Assembler} (hs : s.WellFormed) (status : AssemblyStatus) :
    (s.count status).WellFormed :=
  hs.mono (fun _ _ h => h) le_rfl

lemma quiet_count {cfg : AssemblerConfig} {s : Assembler} (hs : s.WellFormed) (now : ℚ)
    (call : AssemblerCall) (status : AssemblyStatus) (sentences : List PyStr) :
    QuietSpec cfg s now call (s.count status)
      (.outcome { status := status, sentences := sentences }) where
  wellFormed := count_wellFormed hs status
  nextGeneration := rfl
  noKey := by rintro out ⟨⟩; exact ⟨rfl, rfl⟩
  kept key := .inl (.of_groups_eq rfl key)

/-- A call that feeds a fragment is `feedValidatedFragment`. -/
lemma apply_of_fed {cfg : AssemblerConfig} {s : Assembler} {now : ℚ} {call : AssemblerCall}
    {sourceIdentity text : PyStr} {fragment : ParsedFragment}
    (hfed : call.fed = some (sourceIdentity, text, fragment)) :
    call.apply cfg s now = ((feedValidatedFragment cfg s now sourceIdentity text fragment).1,
      .of (feedValidatedFragment cfg s now sourceIdentity text fragment).2) := by
  cases call with
  | feedOutcome sourceIdentity' line =>
    obtain ⟨fragment', hparse, heq⟩ := Option.map_eq_some_iff.mp hfed
    cases heq
    simp [AssemblerCall.apply, feedOutcome_eq, hparse]
  | feedParsedOutcome parsed =>
    obtain ⟨fragment', hfrag, heq⟩ := Option.bind_eq_some_iff.mp hfed
    obtain ⟨text', htext, heq⟩ := Option.map_eq_some_iff.mp heq
    cases heq
    cases hp : parsed.text with
    | error e => simp [hp, Except.toOption] at htext
    | ok text'' =>
      obtain rfl : text'' = text := by simpa [hp, Except.toOption] using htext
      simp [AssemblerCall.apply, Assembler.feedParsedOutcome, hfrag, hp]
  | cleanupExpired => cases hfed
  | reset => cases hfed

/-- A call that feeds no fragment leaves every group, but for expiry and reset. -/
lemma quiet_of_not_fed {cfg : AssemblerConfig} {s : Assembler} (hs : s.WellFormed) (now : ℚ)
    {call : AssemblerCall} (hfed : call.fed = none) :
    QuietSpec cfg s now call (call.apply cfg s now).1 (call.apply cfg s now).2 := by
  cases call with
  | feedOutcome sourceIdentity line =>
    have hparse : parseFragment line = none := by simpa [AssemblerCall.fed] using hfed
    simp only [AssemblerCall.apply, feedOutcome_eq, hparse]
    exact quiet_count hs now _ .invalid []
  | feedParsedOutcome parsed =>
    cases hfrag : parsed.fragment with
    | none =>
      simp only [AssemblerCall.apply, Assembler.feedParsedOutcome, hfrag]
      exact quiet_count hs now _ .invalid []
    | some fragment =>
      cases htext : parsed.text with
      | ok text => simp [AssemblerCall.fed, hfrag, htext, Except.toOption] at hfed
      | error e =>
        simp only [AssemblerCall.apply, Assembler.feedParsedOutcome, hfrag, htext]
        exact ⟨hs, rfl, by simp [CallResult.of], fun key => .inl (.refl rfl)⟩
  | cleanupExpired =>
    refine ⟨hs.mono (fun key g hg => ?_) (cleanupExpired_nextGeneration cfg s now).ge,
      cleanupExpired_nextGeneration cfg s now, by simp [AssemblerCall.apply],
      fun key => .inl (cleanupExpired_keptOrDropped cfg s now key)⟩
    exact (cleanupExpired_keptOrDropped cfg s now key).sub hg
  | reset =>
    refine ⟨?_, rfl, by simp [AssemblerCall.apply], fun key => .inr ⟨rfl, ?_, ?_⟩⟩
    · exact hs.mono (by simp [AssemblerCall.apply, Assembler.reset]) le_rfl
    · simp [AssemblerCall.apply, Assembler.reset]
    · simp [AssemblerCall.apply, Assembler.reset, CallResult.discardedKeys, mem_sortKeys,
        Dict.mem_keys_iff]

/-- Every call either takes one group through `groupStep` or feeds no group. -/
theorem apply_cases {cfg : AssemblerConfig} (htimeout : 0 < cfg.timeout) {s : Assembler}
    (hs : s.WellFormed) (now : ℚ) (call : AssemblerCall) :
    (∃ key ordinal text s' out, call.groupFeed cfg = some (key, ordinal, text) ∧
        call.apply cfg s now = (s', .outcome out) ∧ FeedSpec cfg s now key ordinal text s' out) ∨
      call.groupFeed cfg = none ∧
        QuietSpec cfg s now call (call.apply cfg s now).1 (call.apply cfg s now).2 := by
  cases hfed : call.fed with
  | none => exact .inr ⟨by simp [AssemblerCall.groupFeed, hfed], quiet_of_not_fed hs now hfed⟩
  | some fed =>
    obtain ⟨sourceIdentity, text, fragment⟩ := fed
    cases hgrouped : isGrouped cfg fragment with
    | true =>
      obtain ⟨s', out, hrun, hspec⟩ := feed_grouped htimeout hs now sourceIdentity text hgrouped
      refine .inl ⟨_, _, text, s', out, ?_, ?_, hspec⟩
      · simp [AssemblerCall.groupFeed, hfed, hgrouped]
      · rw [apply_of_fed hfed, hrun]
        rfl
    | false =>
      obtain ⟨status, sentences, -, hrun⟩ := feed_ungrouped sourceIdentity text hgrouped
      refine .inr ⟨by simp [AssemblerCall.groupFeed, hfed, hgrouped], ?_⟩
      rw [apply_of_fed hfed, hrun]
      exact quiet_count hs now call status sentences

lemma apply_wellFormed {cfg : AssemblerConfig} (htimeout : 0 < cfg.timeout) {s : Assembler}
    (hs : s.WellFormed) (now : ℚ) (call : AssemblerCall) : (call.apply cfg s now).1.WellFormed := by
  rcases apply_cases htimeout hs now call with ⟨key, ordinal, text, s', out, -, happly, hspec⟩ | ⟨-, h⟩
  · rw [happly]
    exact hspec.wellFormed
  · exact h.wellFormed

/-! ### A key does not see the traffic of other keys -/

/-- No feed at `now` or later can tell the two groups apart: an expired group is like none. -/
def Alike (cfg : AssemblerConfig) (now : ℚ) (g g' : Option AssemblyGroup) : Prop :=
  ∀ later, now ≤ later →
    (liveGroup cfg later g).map AssemblyGroup.contents = (liveGroup cfg later g').map AssemblyGroup.contents

lemma Alike.mono {cfg : AssemblerConfig} {now later : ℚ} {g g' : Option AssemblyGroup}
    (h : Alike cfg now g g') (hle : now ≤ later) : Alike cfg later g g' :=
  fun t ht => h t (hle.trans ht)

lemma alike_of_contents {cfg : AssemblerConfig} {now : ℚ} {g g' : Option AssemblyGroup}
    (h : g.map AssemblyGroup.contents = g'.map AssemblyGroup.contents) : Alike cfg now g g' := by
  intro later _
  cases g with
  | none =>
    cases g' with
    | none => rfl
    | some g' => simp at h
  | some g =>
    cases g' with
    | none => simp at h
    | some g' =>
      simp only [Option.map_some, Option.some.injEq, AssemblyGroup.contents, Prod.mk.injEq] at h
      simp only [liveGroup, Option.filter, isExpired, h.2]
      by_cases hexp : cfg.timeout ≤ later - g'.lastProgressAt <;>
        simp [AssemblyGroup.contents, h.1, h.2, hexp]

lemma placeStep_congr (total : Nat) (now : ℚ) (ordinal : Nat) (text : PyStr) {g g' : AssemblyGroup}
    (h : g.contents = g'.contents) :
    (placeStep total now ordinal text g).status = (placeStep total now ordinal text g').status ∧
      (placeStep total now ordinal text g).sentences =
        (placeStep total now ordinal text g').sentences ∧
      (placeStep total now ordinal text g).group.map AssemblyGroup.contents =
        (placeStep total now ordinal text g').group.map AssemblyGroup.contents := by
  simp only [AssemblyGroup.contents, Prod.mk.injEq] at h
  simp only [placeStep, AssemblyGroup.add, AssemblyGroup.receivedCount, h.1]
  cases g'.fragmentsByOrdinal.get? ordinal with
  | some stored =>
    by_cases heq : stored = text <;> simp [heq, AssemblyGroup.contents, h.1, h.2]
  | none =>
    by_cases hfull : (g'.fragmentsByOrdinal.set ordinal text).size = total <;>
      simp [hfull, AssemblyGroup.contents]

/-- Groups that are alike answer an arrival alike. -/
lemma groupStep_congr (cfg : AssemblerConfig) (total number number' : Nat) (now : ℚ) (ordinal : Nat)
    (text : PyStr) {g g' : Option AssemblyGroup} (h : Alike cfg now g g') :
    (groupStep cfg total number now ordinal text g).status =
        (groupStep cfg total number' now ordinal text g').status ∧
      (groupStep cfg total number now ordinal text g).sentences =
        (groupStep cfg total number' now ordinal text g').sentences ∧
      (groupStep cfg total number now ordinal text g).group.map AssemblyGroup.contents =
        (groupStep cfg total number' now ordinal text g').group.map AssemblyGroup.contents := by
  refine placeStep_congr total now ordinal text ?_
  have hnow := h now le_rfl
  cases hg : liveGroup cfg now g with
  | none =>
    rw [hg] at hnow
    rw [Option.map_eq_none_iff.mp hnow.symm]
    rfl
  | some g₀ =>
    rw [hg] at hnow
    obtain ⟨g₁, hg₁, heq⟩ := Option.map_eq_some_iff.mp hnow.symm
    rw [hg₁]
    exact heq.symm

/-- Dropping an expired group cannot be seen later on. -/
lemma alike_of_keptOrDropped {cfg : AssemblerConfig} (hmax : cfg.maxPendingGroups = none) {now : ℚ}
    {s s' : Assembler} {ks : List AssemblyKey} {key : AssemblyKey}
    (h : KeptOrDropped cfg now s s' ks key) :
    Alike cfg now (s'.groups.get? key) (s.groups.get? key) := by
  rcases h with ⟨heq, -⟩ | ⟨g, hg, hnone, -, hexp | hcap⟩
  · rw [heq]
    exact fun _ _ => rfl
  · intro later hle
    have hlater : isExpired cfg later g = true := by
      simp only [isExpired, decide_eq_true_eq] at hexp ⊢
      linarith
    simp [hg, hnone, liveGroup, Option.filter, hlater]
  · simp [hmax] at hcap

/-- The bounds of a fragment that a group takes. -/
lemma groupFeed_bounds {cfg : AssemblerConfig} {call : AssemblerCall} {key : AssemblyKey}
    {ordinal : Nat} {text : PyStr} (h : call.groupFeed cfg = some (key, ordinal, text)) :
    1 ≤ ordinal ∧ ordinal ≤ key.declaredTotal ∧ 2 ≤ key.declaredTotal := by
  unfold AssemblerCall.groupFeed at h
  split at h
  · next sourceIdentity text' fragment hfed =>
    split at h
    · next hgrouped =>
      cases h
      have ho := fragment.ordinal_pos
      have hle := fragment.ordinal_le
      have hne : fragment.declaredTotal ≠ 1 := by
        simp only [isGrouped, Bool.and_eq_true, bne_iff_ne, ne_eq] at hgrouped
        exact hgrouped.1
      refine ⟨ho, hle, ?_⟩
      simp only [keyOf]
      omega
    · cases h
  · cases h

lemma ne_of_not_feeds {cfg : AssemblerConfig} {key : AssemblyKey} {call : AssemblerCall}
    (h : call.feeds key = false) {k : AssemblyKey} {ordinal : Nat} {text : PyStr}
    (hg : call.groupFeed cfg = some (k, ordinal, text)) : key ≠ k := by
  rintro rfl
  unfold AssemblerCall.groupFeed at hg
  split at hg
  · next sourceIdentity text' fragment hfed =>
    split at hg
    · cases hg
      simp [AssemblerCall.feeds, hfed] at h
    · cases hg
  · cases hg

/-- One call for the key: two assemblers that are alike at it answer alike and stay alike. -/
lemma apply_feeds {cfg : AssemblerConfig} (htimeout : 0 < cfg.timeout) {s s₀ : Assembler}
    (hs : s.WellFormed) (hs₀ : s₀.WellFormed) {now : ℚ} {key : AssemblyKey} {call : AssemblerCall}
    (hfeeds : call.feeds key = true) (h : Alike cfg now (s.groups.get? key) (s₀.groups.get? key)) :
    (call.apply cfg s now).2.summary = (call.apply cfg s₀ now).2.summary ∧
      Alike cfg now ((call.apply cfg s now).1.groups.get? key)
        ((call.apply cfg s₀ now).1.groups.get? key) := by
  obtain ⟨⟨sourceIdentity, text, fragment⟩, hfed, hkey⟩ := (Option.any_eq_true _ _).mp hfeeds
  have hkey : keyOf sourceIdentity fragment = key := by simpa using hkey
  rw [apply_of_fed hfed, apply_of_fed hfed]
  cases hgrouped : isGrouped cfg fragment with
  | true =>
    obtain ⟨s', out, hrun, hspec⟩ := feed_grouped htimeout hs now sourceIdentity text hgrouped
    obtain ⟨s₀', out₀, hrun₀, hspec₀⟩ := feed_grouped htimeout hs₀ now sourceIdentity text hgrouped
    rw [hkey] at hspec hspec₀
    obtain ⟨hstatus, hsentences, hgroup⟩ := groupStep_congr cfg key.declaredTotal s.nextGeneration
      s₀.nextGeneration now fragment.ordinal text h
    rw [hspec.status, hspec₀.status] at hstatus
    rw [hspec.sentences, hspec₀.sentences] at hsentences
    rw [hspec.group, hspec₀.group] at hgroup
    rw [hrun, hrun₀]
    exact ⟨by simpa [CallResult.of, CallResult.summary] using ⟨hstatus, hsentences⟩,
      alike_of_contents hgroup⟩
  | false =>
    obtain ⟨status, sentences, -, hrun⟩ := feed_ungrouped sourceIdentity text hgrouped
    rw [hrun, hrun]
    exact ⟨rfl, h⟩

/-- A call that is not for the key cannot be seen at it. -/
lemma apply_other {cfg : AssemblerConfig} (htimeout : 0 < cfg.timeout)
    (hmax : cfg.maxPendingGroups = none) {s : Assembler} (hs : s.WellFormed) (now : ℚ)
    {key : AssemblyKey} {call : AssemblerCall} (hfeeds : call.feeds key = false)
    (hreset : call ≠ .reset) :
    Alike cfg now ((call.apply cfg s now).1.groups.get? key) (s.groups.get? key) := by
  rcases apply_cases htimeout hs now call with
    ⟨k, ordinal, text, s', out, hgf, happly, hspec⟩ | ⟨-, hquiet⟩
  · rw [happly]
    exact alike_of_keptOrDropped hmax (hspec.others key (ne_of_not_feeds hfeeds hgf))
  · rcases hquiet.kept key with h | ⟨h, -⟩
    · exact alike_of_keptOrDropped hmax h
    · exact absurd h hreset

/-- The outcomes of the calls for a key in a run. -/
def outcomesFor (key : AssemblyKey) (records : List CallRecord) :
    List (Option (AssemblyStatus × List PyStr)) :=
  (records.filter (fun r => r.call.feeds key)).map (fun r => r.result.summary)

lemma outcomesFor_run {cfg : AssemblerConfig} (htimeout : 0 < cfg.timeout)
    (hmax : cfg.maxPendingGroups = none) (key : AssemblyKey) (calls : List (ℚ × AssemblerCall)) :
    ∀ (s s₀ : Assembler) (start : ℚ), s.WellFormed → s₀.WellFormed →
      Alike cfg start (s.groups.get? key) (s₀.groups.get? key) →
      (start :: calls.map Prod.fst).Pairwise (· ≤ ·) → (∀ c ∈ calls, c.2 ≠ .reset) →
      outcomesFor key (run cfg s calls) =
        (run cfg s₀ (calls.filter (fun c => c.2.feeds key))).map (fun r => r.result.summary) := by
  induction calls with
  | nil => exact fun _ _ _ _ _ _ _ _ => rfl
  | cons c calls ih =>
    obtain ⟨now, call⟩ := c
    intro s s₀ start hs hs₀ h htimes hreset
    have hnow : start ≤ now := (List.pairwise_cons.mp htimes).1 now (by simp)
    have htail : (now :: calls.map Prod.fst).Pairwise (· ≤ ·) := (List.pairwise_cons.mp htimes).2
    have hresets : ∀ c ∈ calls, c.2 ≠ .reset := fun c hc => hreset c (List.mem_cons_of_mem _ hc)
    have hwf := apply_wellFormed htimeout hs now call
    cases hfeeds : call.feeds key with
    | true =>
      obtain ⟨hsummary, halike⟩ := apply_feeds htimeout hs hs₀ hfeeds (h.mono hnow)
      have hrest := ih _ _ now hwf (apply_wellFormed htimeout hs₀ now call) halike htail hresets
      simp only [outcomesFor] at hrest
      simp [outcomesFor, run, hfeeds, hsummary, hrest]
    | false =>
      have hother := apply_other htimeout hmax hs now hfeeds (hreset (now, call) (by simp))
      have halike : Alike cfg now ((call.apply cfg s now).1.groups.get? key)
          (s₀.groups.get? key) := fun later hle =>
        (hother later hle).trans (h later (hnow.trans hle))
      have hrest := ih _ _ now hwf hs₀ halike htail hresets
      simp only [outcomesFor] at hrest
      simp [outcomesFor, run, hfeeds, hrest]

/-- Key isolation: the outcomes of the feeds for a key are those of a fresh assembler that gets
only the feeds for that key, at the same times. -/
theorem key_isolation {cfg : AssemblerConfig} (htimeout : 0 < cfg.timeout)
    (hmax : cfg.maxPendingGroups = none) (calls : List (ℚ × AssemblerCall))
    (htimes : (calls.map Prod.fst).Pairwise (· ≤ ·)) (hreset : ∀ c ∈ calls, c.2 ≠ .reset)
    (key : AssemblyKey) :
    outcomesFor key (run cfg init calls) =
      (run cfg init (calls.filter (fun c => c.2.feeds key))).map (fun r => r.result.summary) := by
  cases calls with
  | nil => rfl
  | cons c calls =>
    refine outcomesFor_run htimeout hmax key (c :: calls) init init c.1 init_wellFormed init_wellFormed
      (fun _ _ => rfl) ?_ hreset
    have hhead : ∀ t ∈ (c :: calls).map Prod.fst, c.1 ≤ t := by
      intro t ht
      rcases List.mem_cons.mp ht with rfl | ht
      · exact le_rfl
      · exact (List.pairwise_cons.mp htimes).1 t ht
    exact List.pairwise_cons.mpr ⟨hhead, htimes⟩

/-- Two sources that use the same message identifier; the second one sweeps the group of the
first before its next fragment arrives. -/
def twoSources : List (ℚ × AssemblerCall) :=
  [(0, .feedOutcome (str "a") (str "!AIVDM,2,1,3,A,p,0")),
    (2, .feedOutcome (str "b") (str "!AIVDM,2,1,3,A,q,0")),
    (2, .feedOutcome (str "a") (str "!AIVDM,2,2,3,A,r,0"))]

theorem key_isolation_twoSources :
    outcomesFor ⟨str "a", str "3", str "A", 2⟩ (run ⟨1, none, none⟩ init twoSources) =
        [some (.pending, []), some (.pending, [])] ∧
      outcomesFor ⟨str "a", str "3", str "A", 2⟩ (run ⟨1, none, none⟩ init twoSources) =
        (run ⟨1, none, none⟩ init
          (twoSources.filter (fun c => c.2.feeds ⟨str "a", str "3", str "A", 2⟩))).map
          (fun r => r.result.summary) :=
  ⟨by decide +kernel, key_isolation (by decide +kernel) rfl twoSources (by decide +kernel)
    (by decide +kernel) _⟩

end Assembler

end AisMixer

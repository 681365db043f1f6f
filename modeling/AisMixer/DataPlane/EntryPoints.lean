import AisMixer.DataPlane.AssemblerRuns

/-!
# The two entry points of the assembler

`feed_outcome` splits and checks the text of a sentence by itself, `feed_parsed_outcome` takes the
fragment that the parser found. Both are run here with the clock that they read, so that the
readings can be counted.
-/

namespace AisMixer
open Library

/-- The counters that `stats` returns. -/
structure AssemblerStats where
  invalid : Nat
  single : Nat
  limitExceeded : Nat
  pending : Nat
  duplicates : Nat
  conflicts : Nat
  completed : Nat
  expired : Nat
  capacityEvicted : Nat
  resetDiscarded : Nat
  resets : Nat
  currentGroups : Nat
  peakGroups : Nat
  currentFragments : Nat
  peakFragments : Nat
  deriving DecidableEq

def Assembler.stats (s : Assembler) : AssemblerStats where
  invalid := s.outcomeCounts .invalid
  single := s.outcomeCounts .single
  limitExceeded := s.outcomeCounts .limitExceeded
  pending := s.outcomeCounts .pending
  duplicates := s.outcomeCounts .duplicate
  conflicts := s.outcomeCounts .conflict
  completed := s.outcomeCounts .complete
  expired := s.expired
  capacityEvicted := s.capacityEvicted
  resetDiscarded := s.resetDiscarded
  resets := s.resets
  currentGroups := s.groups.size
  peakGroups := s.peakGroups
  currentFragments := s.currentFragments
  peakFragments := s.peakFragments

/-- An assembler with the number of times that it has read its clock. -/
structure TimedAssembler where
  assembler : Assembler
  calls : Nat

namespace TimedAssembler

def init : TimedAssembler := ⟨.init, 0⟩

def count (s : TimedAssembler) (status : AssemblyStatus) : TimedAssembler :=
  { s with assembler := s.assembler.count status }

/-- An invalid sentence is counted. -/
def invalid (s : TimedAssembler) : TimedAssembler × Except PyException AssemblyOutcome :=
  (s.count .invalid, .ok { status := .invalid })

/-- `_feed_validated_fragment`; the clock is read for a fragment of a group only. -/
def feedValidatedFragment (cfg : AssemblerConfig) (s : TimedAssembler) (now : ℚ)
    (sourceIdentity sentenceText : PyStr) (fragment : ParsedFragment) :
    TimedAssembler × Except PyException AssemblyOutcome :=
  let (assembler, out) :=
    Assembler.feedValidatedFragment cfg s.assembler now sourceIdentity sentenceText fragment
  (⟨assembler, if Assembler.isGrouped cfg fragment then s.calls + 1 else s.calls⟩, out)

lemma ordinal_pos_of_valid {total current : Int} (h : ¬ (total < 1 ∨ current < 1 ∨ total < current)) :
    1 ≤ current.toNat := by omega

lemma ordinal_le_of_valid {total current : Int} (h : ¬ (total < 1 ∨ current < 1 ∨ total < current)) :
    current.toNat ≤ total.toNat := by omega

/-- `feed_outcome`, with its own checks of the text. -/
def feedOutcome (cfg : AssemblerConfig) (s : TimedAssembler) (now : ℚ) (sourceIdentity line : PyStr) :
    TimedAssembler × Except PyException AssemblyOutcome :=
  let parts := split 0x2C line
  if parts.length < 7 then s.invalid
  else
    match pyInt (parts.getD 1 []), pyInt (parts.getD 2 []) with
    | some total, some current =>
      if h : total < 1 ∨ current < 1 ∨ total < current then s.invalid
      else
        feedValidatedFragment cfg s now sourceIdentity line
          { declaredTotal := total.toNat
            ordinal := current.toNat
            sequentialId := parts.getD 3 []
            channel := parts.getD 4 []
            ordinal_pos := ordinal_pos_of_valid h
            ordinal_le := ordinal_le_of_valid h }
    | _, _ => s.invalid

def feedParsedOutcome (cfg : AssemblerConfig) (s : TimedAssembler) (now : ℚ) (parsed : ParsedSentence) :
    TimedAssembler × Except PyException AssemblyOutcome :=
  match parsed.fragment with
  | none => s.invalid
  | some fragment =>
    match parsed.text with
    | .error e => (s, .error e)
    | .ok sentenceText =>
      feedValidatedFragment cfg s now parsed.frame.assemblerKey sentenceText fragment

def reset (s : TimedAssembler) : TimedAssembler × List AssemblyKey :=
  let (assembler, discardedKeys) := s.assembler.reset
  ({ s with assembler := assembler }, discardedKeys)

/-! ### One sentence -/

/-- The checks of `feed_outcome` are those of the parser. -/
lemma feedOutcome_eq (cfg : AssemblerConfig) (s : TimedAssembler) (now : ℚ)
    (sourceIdentity line : PyStr) :
    feedOutcome cfg s now sourceIdentity line =
      match parseFragment line with
      | some fragment => feedValidatedFragment cfg s now sourceIdentity line fragment
      | none => s.invalid := by
  unfold feedOutcome parseFragment leadingFields
  rcases hsplit : split 0x2C line with
    _ | ⟨p₀, _ | ⟨p₁, _ | ⟨p₂, _ | ⟨p₃, _ | ⟨p₄, _ | ⟨p₅, _ | ⟨p₆, rest⟩⟩⟩⟩⟩⟩⟩ <;> try rfl
  have hlength : ¬ (p₀ :: p₁ :: p₂ :: p₃ :: p₄ :: p₅ :: p₆ :: rest).length < 7 := by simp
  rw [if_neg hlength]
  simp only [List.getD_cons_succ, List.getD_cons_zero]
  cases pyInt p₁ with
  | none => rfl
  | some total =>
    cases pyInt p₂ with
    | none => rfl
    | some current =>
      simp only [ParsedFragment.check]
      split <;> rfl

end TimedAssembler

/-! ### A feed raises nothing -/

namespace Assembler

/-- The ordinals of every group are in range, whatever the timeout. -/
def InRange (s : Assembler) : Prop :=
  ∀ key g, s.groups.get? key = some g → ∀ o ∈ g.fragmentsByOrdinal.keys, 1 ≤ o ∧ o ≤ key.declaredTotal

lemma InRange.mono {s s' : Assembler} (hs : s.InRange)
    (hgroups : ∀ key g, s'.groups.get? key = some g → s.groups.get? key = some g) : s'.InRange :=
  fun key g hg => hs key g (hgroups key g hg)

lemma InRange.erase {s : Assembler} (hs : s.InRange) (key : AssemblyKey) :
    InRange { s with groups := s.groups.erase key } := by
  apply hs.mono
  intro other g hg
  rw [Dict.get?_erase] at hg
  split at hg
  · cases hg
  · exact hg

lemma InRange.set {s : Assembler} (hs : s.InRange) {key : AssemblyKey} {g : AssemblyGroup}
    (hrange : ∀ o ∈ g.fragmentsByOrdinal.keys, 1 ≤ o ∧ o ≤ key.declaredTotal) :
    InRange { s with groups := s.groups.set key g } := by
  intro other found hfound
  rw [Dict.get?_set] at hfound
  split at hfound
  · next heq =>
    obtain rfl := Option.some.inj hfound
    rw [← heq]
    exact hrange
  · exact hs other found hfound

lemma InRange.cleanup {s : Assembler} (hs : s.InRange) (cfg : AssemblerConfig) (now : ℚ) :
    (cleanupExpired cfg s now).1.InRange :=
  hs.mono (fun key _ hg => (cleanupExpired_keptOrDropped cfg s now key).sub hg)

lemma placeFragment_inRange (cfg : AssemblerConfig) {s : Assembler} (hs : s.InRange) (now : ℚ)
    {key : AssemblyKey} {g : AssemblyGroup} {ordinal : Nat} (text : PyStr) (discarded : List AssemblyKey)
    (cleaned : Bool) (hrange : ∀ o ∈ g.fragmentsByOrdinal.keys, 1 ≤ o ∧ o ≤ key.declaredTotal)
    (ho : 1 ≤ ordinal) (hle : ordinal ≤ key.declaredTotal) :
    ∃ s' out, placeFragment cfg s now key g ordinal text discarded cleaned = (s', .ok out) ∧
      s'.InRange := by
  have hadded := AssemblyGroup_add_range text now hrange ho hle
  unfold placeFragment
  split
  · split
    · exact ⟨_, _, rfl, hs.cleanup cfg now⟩
    · exact ⟨_, _, rfl, (hs.erase key).cleanup cfg now⟩
  · simp only [AssemblyGroup.add] at hadded
    dsimp only
    split
    · next hfull =>
      rw [fullLines_ok hadded hfull]
      exact ⟨_, _, rfl, (hs.set hadded).erase key⟩
    · cases cleaned with
      | true => exact ⟨_, _, rfl, hs.set hadded⟩
      | false => exact ⟨_, _, rfl, (hs.set hadded).cleanup cfg now⟩

/-- A feed returns an outcome. -/
lemma feedValidatedFragment_inRange (cfg : AssemblerConfig) {s : Assembler} (hs : s.InRange) (now : ℚ)
    (sourceIdentity text : PyStr) (fragment : ParsedFragment) :
    ∃ s' out, feedValidatedFragment cfg s now sourceIdentity text fragment = (s', .ok out) ∧
      s'.InRange := by
  unfold feedValidatedFragment
  split
  · exact ⟨_, _, rfl, hs⟩
  · split
    · exact ⟨_, _, rfl, hs⟩
    · obtain ⟨s₁, g, ks, cleaned, hobtain, hg, hgroup, -, -, hothers⟩ :=
        obtainGroup_ok cfg s now (keyOf sourceIdentity fragment)
      have hrange : ∀ o ∈ g.fragmentsByOrdinal.keys,
          1 ≤ o ∧ o ≤ (keyOf sourceIdentity fragment).declaredTotal := by
        cases hlive : liveGroup cfg now (s.groups.get? (keyOf sourceIdentity fragment)) with
        | none =>
          rw [hgroup, hlive]
          intro o ho
          cases ho
        | some live =>
          rw [hgroup, hlive]
          exact hs _ _ (liveGroup_eq_some.mp hlive).1
      have hs₁ : s₁.InRange := by
        intro key found hfound
        by_cases hkey : key = keyOf sourceIdentity fragment
        · subst hkey
          obtain rfl : g = found := Option.some.inj (hg.symm.trans hfound)
          exact hrange
        · exact hs key found ((hothers key hkey).sub hfound)
      have hobtain' : obtainGroup cfg s now
          ⟨sourceIdentity, fragment.sequentialId, fragment.channel, fragment.declaredTotal⟩ =
            (s₁, .ok (g, ks, cleaned)) := hobtain
      simp only [hobtain']
      exact placeFragment_inRange cfg hs₁ now text ks cleaned hrange fragment.ordinal_pos
        fragment.ordinal_le

end Assembler

/-! ### Runs -/

/-- A sentence that arrives with the reading that its feed would take from the clock, or a reset. -/
inductive Arrival where
  | sentence (now : ℚ) (parsed : ParsedSentence) (text : PyStr)
  | reset

/-- The sentence is one of a frame of a built-in producer, and its text is the one whose octets stand in
the frame. -/
def Arrival.FromFrame : Arrival → Prop
  | .reset => True
  | .sentence _ parsed text =>
    ∃ frame includeVdo sentences, Produced frame ∧
      parseFrameSentences frame includeVdo = .ok sentences ∧ parsed ∈ sentences ∧
      encodeSurrogatepass text =
        slice frame.payload parsed.scanMatch.sentenceSpan.start parsed.scanMatch.sentenceSpan.stop

/-- What can be seen of an assembler after a step. -/
structure StepReport where
  result : Assembler.CallResult
  calls : Nat
  stats : AssemblerStats
  deriving DecidableEq

namespace TimedAssembler

def report (s : TimedAssembler) (result : Assembler.CallResult) : StepReport :=
  ⟨result, s.calls, s.assembler.stats⟩

/-- A step of the assembler that is fed texts. -/
def stepText (cfg : AssemblerConfig) (s : TimedAssembler) : Arrival → TimedAssembler × StepReport
  | .sentence now parsed text =>
    let (s, out) := feedOutcome cfg s now parsed.frame.assemblerKey text
    (s, s.report (.of out))
  | .reset =>
    let (s, keys) := s.reset
    (s, s.report (.discarded keys))

/-- A step of the assembler that is fed parsed sentences. -/
def stepParsed (cfg : AssemblerConfig) (s : TimedAssembler) : Arrival → TimedAssembler × StepReport
  | .sentence now parsed _ =>
    let (s, out) := feedParsedOutcome cfg s now parsed
    (s, s.report (.of out))
  | .reset =>
    let (s, keys) := s.reset
    (s, s.report (.discarded keys))

def runText (cfg : AssemblerConfig) : TimedAssembler → List Arrival → List StepReport
  | _, [] => []
  | s, arrival :: arrivals =>
    let (s, report) := stepText cfg s arrival
    report :: runText cfg s arrivals

def runParsed (cfg : AssemblerConfig) : TimedAssembler → List Arrival → List StepReport
  | _, [] => []
  | s, arrival :: arrivals =>
    let (s, report) := stepParsed cfg s arrival
    report :: runParsed cfg s arrivals

/-- The text that stands in the frame is the text that the assembler decodes. -/
lemma text_of_fromFrame {now : ℚ} {parsed : ParsedSentence} {text : PyStr}
    (h : (Arrival.sentence now parsed text).FromFrame) :
    parsed.text = .ok text ∧ parsed.fragment = parseFragment text := by
  obtain ⟨frame, includeVdo, sentences, hproduced, hparse, hmem, hoctets⟩ := h
  obtain ⟨decoded, htext, hfragment⟩ := parsed_text hparse hmem
  have hsame : decoded = text := by
    have hencode := (parsed_octets hproduced hparse hmem htext).trans hoctets.symm
    have hdecode := congrArg decodeSurrogatepass hencode
    rw [decodeSurrogatepass_encode, decodeSurrogatepass_encode] at hdecode
    exact Option.some.inj hdecode
  rw [← hsame]
  exact ⟨htext, hfragment⟩

lemma stepText_eq_stepParsed (cfg : AssemblerConfig) (s : TimedAssembler) {arrival : Arrival}
    (h : arrival.FromFrame) : stepText cfg s arrival = stepParsed cfg s arrival := by
  cases arrival with
  | reset => rfl
  | sentence now parsed text =>
    obtain ⟨htext, hfragment⟩ := text_of_fromFrame h
    have hfeed : feedOutcome cfg s now parsed.frame.assemblerKey text =
        feedParsedOutcome cfg s now parsed := by
      rw [feedOutcome_eq, feedParsedOutcome, hfragment, htext]
      cases parseFragment text <;> rfl
    rw [stepText, stepParsed, hfeed]

/-- A step reports an outcome or the keys of a reset. -/
lemma stepText_returns (cfg : AssemblerConfig) {s : TimedAssembler} (hs : s.assembler.InRange)
    (arrival : Arrival) :
    (stepText cfg s arrival).1.assembler.InRange ∧
      ∀ e, (stepText cfg s arrival).2.result ≠ .raised e := by
  cases arrival with
  | reset =>
    refine ⟨fun key g hg => ?_, fun e h => by cases h⟩
    cases hg
  | sentence now parsed text =>
    rw [stepText, feedOutcome_eq]
    cases parseFragment text with
    | none => exact ⟨hs, fun e h => by cases h⟩
    | some fragment =>
      obtain ⟨assembler, out, hfeed, hinRange⟩ := Assembler.feedValidatedFragment_inRange cfg hs now
        parsed.frame.assemblerKey text fragment
      simp only [feedValidatedFragment, hfeed]
      refine ⟨hinRange, ?_⟩
      intro e h
      cases h

/-- Fed with the sentences of frames, as texts or parsed, at the same readings and with the same resets,
two assemblers report the same: the outcomes, the number of readings and the statistics. Every step
returns. -/
theorem entry_points_agree (cfg : AssemblerConfig) (arrivals : List Arrival)
    (h : ∀ arrival ∈ arrivals, arrival.FromFrame) :
    runText cfg init arrivals = runParsed cfg init arrivals ∧
      ∀ report ∈ runText cfg init arrivals, ∀ e, report.result ≠ .raised e := by
  have hrun : ∀ s : TimedAssembler, s.assembler.InRange →
      runText cfg s arrivals = runParsed cfg s arrivals ∧
        ∀ report ∈ runText cfg s arrivals, ∀ e, report.result ≠ .raised e := by
    induction arrivals with
    | nil => exact fun s _ => ⟨rfl, by simp [runText]⟩
    | cons arrival arrivals ih =>
      intro s hs
      obtain ⟨hinRange, hreturns⟩ := stepText_returns cfg hs arrival
      obtain ⟨hrest, hreturnsRest⟩ := ih (fun a ha => h a (List.mem_cons_of_mem _ ha)) _ hinRange
      constructor
      · rw [runText, runParsed, ← stepText_eq_stepParsed cfg s (h arrival List.mem_cons_self)]
        exact congrArg _ hrest
      · intro report hreport
        rcases List.mem_cons.mp hreport with rfl | hreport
        · exact hreturns
        · exact hreturnsRest report hreport
  apply hrun
  intro key g hg
  cases hg

/-- The sentences of the frame of a text that is one sentence. -/
def arrivalsOf (now : ℚ) (origin : IngressOrigin) (text : PyStr) : List Arrival :=
  ((parseFrameSentences (frameFromTextPayload origin text) true).toOption.getD []).map
    (fun parsed => .sentence now parsed text)

lemma arrivalsOf_fromFrame {now : ℚ} {origin : IngressOrigin} {text : PyStr}
    (hoctets : ∀ parsed ∈ (parseFrameSentences (frameFromTextPayload origin text) true).toOption.getD [],
      encodeSurrogatepass text = slice (encodeSurrogatepass text) parsed.scanMatch.sentenceSpan.start
        parsed.scanMatch.sentenceSpan.stop) :
    ∀ arrival ∈ arrivalsOf now origin text, arrival.FromFrame := by
  intro arrival harrival
  obtain ⟨parsed, hmem, rfl⟩ := List.mem_map.mp harrival
  have hparsed := hoctets parsed hmem
  obtain ⟨sentences, hparse, -⟩ := parseFrameSentences_ok (.textPayload origin text) true
  rw [hparse] at hmem
  exact ⟨_, true, sentences, .textPayload origin text, hparse, hmem, hparsed⟩

theorem entry_points_agree_reset :
    let arrivals := arrivalsOf 0 ⟨str "udpsec", str "in", none, none, str "a"⟩ (str "!AIVDM,2,1,3,A,p,0*00") ++
      [.reset] ++
      arrivalsOf 1 ⟨str "udpsec", str "in", none, none, str "a"⟩ (str "!AIVDM,2,2,3,A,q,0*00")
    arrivals.length = 3 ∧
      runText ⟨1, none, some 1⟩ init arrivals = runParsed ⟨1, none, some 1⟩ init arrivals := by
  refine ⟨by decide +kernel, (entry_points_agree ⟨1, none, some 1⟩ _ ?_).1⟩
  intro arrival harrival
  rw [List.mem_append, List.mem_append, List.mem_singleton] at harrival
  rcases harrival with (hfirst | rfl) | hsecond
  · exact arrivalsOf_fromFrame (by decide +kernel) arrival hfirst
  · trivial
  · exact arrivalsOf_fromFrame (by decide +kernel) arrival hsecond

end TimedAssembler

end AisMixer

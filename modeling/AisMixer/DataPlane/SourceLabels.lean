import AisMixer.DataPlane.TagBlocks
import AisMixer.DataPlane.MultipartSource

/-!
# Source labels

The `s` field of an output is a sanitised candidate. The candidates are tested before they are
stripped, so the label is empty exactly when the candidate that passes the tests is white space.
-/

namespace AisMixer
open Library

/-! ### Sanitised values -/

/-- A candidate that is white space and nothing else. -/
def isBlank (candidate : PyStr) : Bool := candidate.all isSpaceChar

/-- The candidate that passes the tests. -/
def takenCandidate (globalStationId sourceNameOrId incomingS remoteIp : Option PyStr) : Option PyStr :=
  (nonEmpty globalStationId).or (((nonEmpty sourceNameOrId).filter (fun v => v ≠ str "ANONYMOUS")).or
    ((nonEmpty incomingS).or (nonEmpty remoteIp)))

lemma strip_eq_nil_iff (s : PyStr) : strip s = [] ↔ isBlank s = true := by
  rw [isBlank, List.all_eq_true, strip, List.reverse_eq_nil_iff, List.dropWhile_eq_nil_iff]
  constructor
  · intro h c hc
    have hsplit : c ∈ s.takeWhile isSpaceChar ++ s.dropWhile isSpaceChar := by
      rw [List.takeWhile_append_dropWhile]
      exact hc
    rcases List.mem_append.mp hsplit with hleft | hright
    · exact List.mem_takeWhile_imp hleft
    · exact h c (List.mem_reverse.mpr hright)
  · intro h c hc
    exact h c ((List.dropWhile_sublist _).subset (List.mem_reverse.mp hc))

lemma sanitizeS_eq_nil_iff (s : PyStr) : sanitizeS (some s) = [] ↔ isBlank s = true := by
  rw [← strip_eq_nil_iff, sanitizeS, List.take_eq_nil_iff]
  simp

lemma length_sanitizeS_le (val : Option PyStr) : (sanitizeS val).length ≤ 15 :=
  List.length_take_le _ _

/-- Dots and colons of an address are not white space, and neither is what replaces them. -/
lemma isBlank_replaceChar {old : CodePoint} (hold : isSpaceChar old = false) (s : PyStr) :
    isBlank (replaceChar old 0x5F s) = isBlank s := by
  have hnew : isSpaceChar 0x5F = false := by decide
  unfold isBlank replaceChar
  rw [List.all_map]
  congr 1
  funext c
  by_cases h : c = old
  · simp [h, hold, hnew]
  · simp [h]

lemma chooseSValue_eq_nil_iff (stationId source incoming remoteIp : Option PyStr) :
    chooseSValueFromCandidates stationId source incoming remoteIp = [] ↔
      (takenCandidate stationId source incoming remoteIp).any isBlank = true := by
  unfold chooseSValueFromCandidates takenCandidate
  cases nonEmpty stationId with
  | some s => simp [sanitizeS_eq_nil_iff]
  | none =>
    cases (nonEmpty source).filter (fun v => v ≠ str "ANONYMOUS") with
    | some s => simp [sanitizeS_eq_nil_iff]
    | none =>
      cases nonEmpty incoming with
      | some s => simp [sanitizeS_eq_nil_iff]
      | none =>
        simp only [ipToS, Option.none_or]
        cases nonEmpty remoteIp with
        | none => simp [str]
        | some ip =>
          have hcolon : isSpaceChar 0x3A = false := by decide
          have hdot : isSpaceChar 0x2E = false := by decide
          simp [sanitizeS_eq_nil_iff, isBlank_replaceChar hcolon, isBlank_replaceChar hdot]

lemma length_chooseSValue_le (stationId source incoming remoteIp : Option PyStr) :
    (chooseSValueFromCandidates stationId source incoming remoteIp).length ≤ 15 := by
  have hip : (ipToS remoteIp).length ≤ 15 := by
    unfold ipToS
    split
    · simp [str]
    · exact length_sanitizeS_le _
  unfold chooseSValueFromCandidates
  split
  · exact length_sanitizeS_le _
  · split
    · exact length_sanitizeS_le _
    · split
      · exact length_sanitizeS_le _
      · exact hip

/-! ### The `s` field of a message -/

/-- The value of an `s` field. -/
def labelOf : Bytes → Option Bytes
  | 0x73 :: 0x3A :: value => some value
  | _ => none

/-- The first `s` field of the TAG block that a message begins with. -/
def sField : Bytes → Option Bytes
  | 0x5C :: rest => ((rest.takeWhile (· != 0x2A)).splitOn 0x2C).findSome? labelOf
  | _ => none

/-- One to fifteen letters, digits and underscores. -/
structure UsableLabel (label : Bytes) : Prop where
  length_pos : 1 ≤ label.length
  length_le : label.length ≤ 15
  safe : ∀ b ∈ label, isSafeChar (codePoint b.toNat) = true

/-- A block that begins with a time and a label holds that label. -/
lemma sField_main {time label : Bytes} (htime : 0x2C ∉ time ∧ 0x2A ∉ time)
    (hlabel : 0x2C ∉ label ∧ 0x2A ∉ label) {b : UInt8} (hb : b = 0x2C ∨ b = 0x2A) (rest : Bytes) :
    sField (ascii "\\c:" ++ time ++ ascii ",s:" ++ label ++ b :: rest) = some label := by
  obtain ⟨first, hfirst⟩ : ∃ first, first = 0x63 :: 0x3A :: time := ⟨_, rfl⟩
  obtain ⟨second, hsecond⟩ : ∃ second, second = 0x73 :: 0x3A :: label := ⟨_, rfl⟩
  have hmessage : ascii "\\c:" ++ time ++ ascii ",s:" ++ label ++ b :: rest =
      0x5C :: (first ++ 0x2C :: second ++ b :: rest) := by
    rw [hfirst, hsecond]
    simp [ascii]
  have hstar : ∀ x ∈ first ++ 0x2C :: second, (x != 0x2A) = true := by
    intro x hx
    rw [bne_iff_ne]
    rintro rfl
    rw [hfirst, hsecond] at hx
    simp [htime.2, hlabel.2] at hx
  have hfirst' : (0x2C : UInt8) ∉ first := by
    rw [hfirst]
    simp [htime.1]
  have hsecond' : (0x2C : UInt8) ∉ second := by
    rw [hsecond]
    simp [hlabel.1]
  have hnone : labelOf first = none := by
    rw [hfirst]
    rfl
  have hsome : labelOf second = some label := by
    rw [hsecond]
    rfl
  rw [hmessage, sField, List.takeWhile_append_of_pos hstar]
  rcases hb with rfl | rfl
  · rw [List.takeWhile_cons_of_pos (by decide), List.append_assoc, List.cons_append,
      List.splitOn_append_cons_self_of_not_mem hfirst', List.splitOn_append_cons_self_of_not_mem hsecond']
    simp [hnone, hsome]
  · rw [List.takeWhile_cons_of_neg (by decide), List.append_nil,
      List.splitOn_append_cons_self_of_not_mem hfirst', List.splitOn_eq_singleton hsecond']
    simp [hnone, hsome]

/-- The octets of a label are those of its text. -/
lemma usableLabel_encode_iff {label : PyStr} (hsafe : ∀ c ∈ label, isSafeChar c = true)
    (hlength : label.length ≤ 15) : UsableLabel (encodeSurrogatepass label) ↔ label ≠ [] := by
  have hencode : encodeSurrogatepass label = label.map (fun c => UInt8.ofNat c.val) :=
    encode_of_ascii (fun c hc => lt_of_isSafeChar (hsafe c hc))
  constructor
  · intro h hnil
    have hpos := h.length_pos
    rw [hencode, hnil] at hpos
    simp at hpos
  · intro hne
    refine ⟨?_, ?_, ?_⟩
    · rw [hencode, List.length_map]
      exact List.length_pos_of_ne_nil hne
    · rw [hencode, List.length_map]
      exact hlength
    · intro b hb
      rw [hencode] at hb
      obtain ⟨c, hc, rfl⟩ := List.mem_map.mp hb
      have hlt := lt_of_isSafeChar (hsafe c hc)
      have hval : (UInt8.ofNat c.val).toNat = c.val := by
        rw [UInt8.toNat_ofNat']
        omega
      rw [hval, codePoint_val c rfl]
      exact hsafe c hc

namespace Assembler

/-- A group that an arrival finds is not discarded for it, and one that it opens is empty. -/
lemma obtainGroup_found {cfg : AssemblerConfig} {s s' : Assembler} {now : ℚ} {key : AssemblyKey}
    {g : AssemblyGroup} {discarded : List AssemblyKey} {cleaned : Bool}
    (h : obtainGroup cfg s now key = (s', .ok (g, discarded, cleaned))) :
    g.fragmentsByOrdinal = .empty ∨ key ∉ discarded := by
  obtain ⟨s₁, g₁, ks, c, hobtain, -, hg, -, hks, -⟩ := obtainGroup_ok cfg s now key
  rw [h] at hobtain
  obtain ⟨-, hok⟩ := Prod.mk.inj hobtain
  simp only [Except.ok.injEq, Prod.mk.injEq] at hok
  obtain ⟨rfl, rfl, -⟩ := hok
  cases hlive : liveGroup cfg now (s.groups.get? key) with
  | none =>
    left
    rw [hg, hlive]
    rfl
  | some g₀ =>
    right
    obtain ⟨hget, hexp⟩ := liveGroup_eq_some.mp hlive
    rw [hks]
    rintro ⟨g₁, hget₁, hexp₁⟩
    rw [hget] at hget₁
    obtain rfl := Option.some.inj hget₁
    rw [hexp] at hexp₁
    cases hexp₁

/-- A single sentence declares one fragment; a group that completes is its own, and is not among the
discarded ones. -/
lemma feedParsedOutcome_source {cfg : AssemblerConfig} {s s' : Assembler} {now : ℚ}
    {parsed : ParsedSentence} {out : AssemblyOutcome}
    (h : s.feedParsedOutcome cfg now parsed = (s', .ok out)) {fragment : ParsedFragment}
    (hfrag : parsed.fragment = some fragment) :
    (out.status = .single → fragment.declaredTotal = 1 ∧ out.groupKey = none) ∧
      (out.status = .complete → fragment.declaredTotal ≠ 1 ∧
        out.groupKey = some (keyOf parsed.frame.assemblerKey fragment) ∧
        keyOf parsed.frame.assemblerKey fragment ∉ out.discardedKeys) := by
  unfold feedParsedOutcome at h
  cases htext : parsed.text with
  | error e => simp [hfrag, htext] at h
  | ok text =>
    simp only [hfrag, htext, feedValidatedFragment] at h
    split at h
    · next hone =>
      simp only [Prod.mk.injEq, Except.ok.injEq] at h
      rw [← h.2]
      simp [hone]
    · next hmany =>
      split at h
      · simp only [Prod.mk.injEq, Except.ok.injEq] at h
        rw [← h.2]
        simp
      · obtain ⟨key, hkey⟩ : ∃ key, keyOf parsed.frame.assemblerKey fragment = key := ⟨_, rfl⟩
        have htotal : key.declaredTotal ≠ 1 := by
          rw [← hkey]
          exact hmany
        have hsame : (⟨parsed.frame.assemblerKey, fragment.sequentialId, fragment.channel,
            fragment.declaredTotal⟩ : AssemblyKey) = key := hkey
        rw [hsame] at h
        rw [hkey]
        split at h
        · simp at h
        · next s₁ g discarded cleaned hobtain =>
          -- a group that was opened for the arrival has one fragment, so it does not complete
          have hfound := obtainGroup_found hobtain
          unfold placeFragment at h
          split at h
          · split at h
            · simp only [Prod.mk.injEq, Except.ok.injEq] at h
              rw [← h.2]
              simp
            · simp only [Prod.mk.injEq, Except.ok.injEq] at h
              rw [← h.2]
              simp
          · next hnone =>
            simp only at h
            split at h
            · next hfull =>
              split at h
              · simp at h
              · simp only [Prod.mk.injEq, Except.ok.injEq] at h
                have hkept : key ∉ discarded := by
                  rcases hfound with hempty | hkept
                  · simp only [AssemblyGroup.receivedCount, hempty] at hfull
                    exact absurd hfull.symm htotal
                  · exact hkept
                rw [← h.2]
                simp [hmany, mem_sortKeys, hkept]
            · simp only [Prod.mk.injEq, Except.ok.injEq] at h
              rw [← h.2]
              simp

end Assembler

namespace Processor

/-- The ingress candidate of a sentence, in the state before it. -/
def incomingCandidate (ctx : MultipartContexts) (parsed : ParsedSentence) : Option PyStr :=
  match parsed.fragment with
  | none => parsed.tag.sValue
  | some fragment =>
    if fragment.declaredTotal = 1 then parsed.tag.sValue
    else (nonEmpty parsed.tag.sValue).or (ctx.s.get? (Assembler.keyOf parsed.frame.assemblerKey fragment))

/-- The candidate that labels a sentence, in the state before it. -/
def labelCandidate (cfg : ProcessingConfig) (frame : IngressFrame) (leadingS : Option PyStr)
    (ctx : MultipartContexts) (parsed : ParsedSentence) : Option PyStr :=
  takenCandidate cfg.stationId ((nonEmpty frame.aliasForS).or (incomingCandidate ctx parsed)) leadingS
    frame.remoteIp

lemma ingressS_eq_incomingCandidate {cfg : ProcessorConfig} {q : Processor} {r : SentenceReport}
    {now : ℚ} {assembler : Assembler}
    (hfed : q.assembler.feedParsedOutcome cfg.assembler now r.parsed = (assembler, .ok r.outcome))
    (hstatus : r.outcome.status = .single ∨ r.outcome.status = .complete) :
    ingressS cfg.processing q r = incomingCandidate q.contexts r.parsed := by
  cases hfrag : r.parsed.fragment with
  | none =>
    simp only [Assembler.feedParsedOutcome, hfrag, Prod.mk.injEq, Except.ok.injEq] at hfed
    rw [← hfed.2] at hstatus
    simp at hstatus
  | some fragment =>
    obtain ⟨hsingle, hcomplete⟩ := Assembler.feedParsedOutcome_source hfed hfrag
    unfold ingressS incomingS incomingCandidate
    simp only [hfrag]
    rcases hstatus with hstatus | hstatus
    · rw [if_pos (hsingle hstatus).1, (hsingle hstatus).2]
      simp [hstatus]
    · obtain ⟨hmany, hkey, hkept⟩ := hcomplete hstatus
      rw [if_neg hmany]
      simp only [hstatus, hkey]
      rw [observe_s_complete _ _ _ hstatus, discard_s, if_neg hkept]

/-- The processor before the sentence that follows the given ones in a frame. -/
def stateBefore (cfg : ProcessorConfig) (env : Environment) (frame : IngressFrame)
    (snapshot : ProcessingSnapshot) (leadingS : Option PyStr) (before : List SentenceReport)
    (p : Processor) : Processor :=
  (processSentences cfg env frame snapshot leadingS (before.map SentenceReport.parsed) p).1

lemma processSentences_split {cfg : ProcessorConfig} {env : Environment} {frame : IngressFrame}
    {snapshot : ProcessingSnapshot} {leadingS : Option PyStr} (sentences : List ParsedSentence) :
    ∀ {p p' : Processor} {reports before after : List SentenceReport} {r : SentenceReport},
      processSentences cfg env frame snapshot leadingS sentences p = (p', .ok reports) →
      reports = before ++ r :: after →
      ∃ q, processSentences cfg env frame snapshot leadingS (before.map SentenceReport.parsed) p =
          (stateBefore cfg env frame snapshot leadingS before p, .ok before) ∧
        processSentence cfg env frame snapshot leadingS
          (stateBefore cfg env frame snapshot leadingS before p) r.parsed = (q, .ok r) := by
  induction sentences with
  | nil =>
    intro p p' reports before after r hrun hsplit
    obtain ⟨-, hreports⟩ := Prod.mk.inj hrun
    obtain rfl := Except.ok.inj hreports
    simp at hsplit
  | cons parsed rest ih =>
    intro p p' reports before after r hrun hsplit
    obtain ⟨q, first, hstep⟩ : ∃ q first,
      processSentence cfg env frame snapshot leadingS p parsed = (q, first) := ⟨_, _, rfl⟩
    obtain ⟨q', tail, hrest⟩ : ∃ q' tail,
      processSentences cfg env frame snapshot leadingS rest q = (q', tail) := ⟨_, _, rfl⟩
    simp only [processSentences, hstep] at hrun
    cases first with
    | error e => simp at hrun
    | ok r₀ =>
      simp only [hrest] at hrun
      cases tail with
      | error e => simp at hrun
      | ok reports' =>
        obtain ⟨-, hreports⟩ := Prod.mk.inj hrun
        obtain rfl := Except.ok.inj hreports
        have hparsed := (processSentence_ok hstep).1
        cases before with
        | nil =>
          obtain ⟨rfl, -⟩ := List.cons.inj hsplit
          rw [← hparsed] at hstep
          exact ⟨q, rfl, hstep⟩
        | cons b before =>
          obtain ⟨rfl, hsplit'⟩ := List.cons.inj hsplit
          obtain ⟨q₁, hfrontPart, hnext⟩ := ih hrest hsplit'
          rw [← hparsed] at hstep
          have hstate : stateBefore cfg env frame snapshot leadingS (r₀ :: before) p =
              stateBefore cfg env frame snapshot leadingS before q := by
            simp only [stateBefore, List.map_cons, processSentences, hstep]
            rw [hfrontPart]
          refine ⟨q₁, ?_, ?_⟩
          · rw [hstate, List.map_cons, processSentences, hstep]
            simp only [hfrontPart]
          · rw [hstate]
            exact hnext

/-- The text of a selected time is that of an integer. -/
lemma headerTime_selectTimestamp (cfg : ProcessingConfig) (ctx : MultipartContexts)
    (parsed : ParsedSentence) (outcome : AssemblyOutcome) (wall : ℚ) :
    ∃ i, headerTime (selectTimestamp cfg ctx parsed outcome) wall = intStr i := by
  have hint : ∀ c, ∃ i, headerTime (.int c) wall = intStr i := by
    intro c
    by_cases hzero : c = 0
    · exact ⟨truncate wall, by simp [headerTime, HeaderTimestamp.truthy, hzero]⟩
    · exact ⟨c, by simp [headerTime, HeaderTimestamp.truthy, hzero]⟩
  unfold selectTimestamp
  split
  · split
    · exact ⟨truncate wall, rfl⟩
    · next c _ =>
      split
      · exact ⟨0, rfl⟩
      · exact hint c
  · split
    · exact ⟨truncate wall, rfl⟩
    · next c _ => exact hint c

/-- The `s` field of the first line of a message. -/
lemma sField_first {fmt : LineFormat} {line : PyStr} {wall : ℚ} {message : Bytes}
    (hline : (parseFragment line).isSome) (htime : ∃ i, headerTime fmt.timestamp wall = intStr i)
    (hlabel : ∀ c ∈ fmt.sValue, isSafeChar c = true)
    (hbuild : buildOutputBytes line fmt.sValue fmt.timestamp (0 == 0) (gTriplet fmt 0) wall =
      .ok message) : sField message = some (encodeSurrogatepass fmt.sValue) := by
  have hfields := length_split_of_fragment hline
  rw [buildOutputBytes_ok_iff, wrapWithMeta_header hfields _ _ _ (gTriplet_ne_nil fmt 0)] at hbuild
  have hmessage := (encodeUtf8_eq_some.mp hbuild).2
  obtain ⟨i, hi⟩ := htime
  have hnot : ∀ {s : PyStr}, IsFieldText s → ∀ {b : UInt8}, b.toNat < 0x80 →
      isFieldChar (codePoint b.toNat) = false → b ∉ encodeSurrogatepass s := by
    intro s hs b hb hchar hmem
    exact hs.not_mem hchar (mem_of_mem_encode hmem hb)
  have htimeText : IsFieldText (headerTime fmt.timestamp wall) := hi ▸ intStr_isFieldText i
  have hlabelText : IsFieldText fmt.sValue := isFieldText_of_safe hlabel
  have hascii : encodeSurrogatepass (str "\\c:") = ascii "\\c:" ∧
      encodeSurrogatepass (str ",s:") = ascii ",s:" := by decide
  -- a group id follows the label after a comma, else the checksum follows after a star
  obtain ⟨rest, htext⟩ : ∃ rest, formatHeader (headerContent fmt.sValue
      (headerTime fmt.timestamp wall) (0 == 0) (gTriplet fmt 0)) ++ line ++ [0x0D, 0x0A] =
        str "\\c:" ++ headerTime fmt.timestamp wall ++ str ",s:" ++ fmt.sValue ++
          (if (gTriplet fmt 0).isSome then 0x2C else 0x2A) :: rest := by
    cases gTriplet fmt 0 with
    | none =>
      refine ⟨nmeaChecksum (headerContent fmt.sValue (headerTime fmt.timestamp wall) true none) ++
        [0x5C] ++ line ++ [0x0D, 0x0A], ?_⟩
      simp [formatHeader, headerContent, str]
    | some g =>
      refine ⟨str "g:" ++ g ++ [0x2A] ++ nmeaChecksum (headerContent fmt.sValue
        (headerTime fmt.timestamp wall) true (some g)) ++ [0x5C] ++ line ++ [0x0D, 0x0A], ?_⟩
      simp [formatHeader, headerContent, str]
  obtain ⟨b, hb, hchar⟩ : ∃ b : UInt8, (b = 0x2C ∨ b = 0x2A) ∧
      encodeChar (if (gTriplet fmt 0).isSome then 0x2C else 0x2A) = [b] := by
    split
    · exact ⟨0x2C, .inl rfl, by decide⟩
    · exact ⟨0x2A, .inr rfl, by decide⟩
  have hrest : ∀ c : CodePoint, encodeSurrogatepass (c :: rest) =
      encodeChar c ++ encodeSurrogatepass rest := fun c => rfl
  rw [hmessage, htext, encodeSurrogatepass_append, encodeSurrogatepass_append,
    encodeSurrogatepass_append, encodeSurrogatepass_append, hrest, hchar, hascii.1, hascii.2]
  exact sField_main ⟨hnot htimeText (by decide) (by decide), hnot htimeText (by decide) (by decide)⟩
    ⟨hnot hlabelText (by decide) (by decide), hnot hlabelText (by decide) (by decide)⟩ hb
    (encodeSurrogatepass rest)

/-- After every history, in every call that returns, the first output of a message carries its label
in its TAG block, and the label is usable exactly when the candidate that passes the tests, in the
state before the sentence, is not white space. -/
theorem s_label_usable {cfg : ProcessorConfig} {env : Environment} {startNs : Int} {p p' : Processor}
    (h : Reachable cfg env startNs (fun _ => True) p) {frame : IngressFrame}
    {snapshot : ProcessingSnapshot} {reports : List SentenceReport}
    (hcall : process cfg env p frame snapshot = (p', .ok reports)) :
    ∃ leadingS, parseLeadingSValue frame = .ok leadingS ∧
      ∀ before r after out, reports = before ++ r :: after → r.outputs.head? = some out →
        ∃ label, sField out.message = some label ∧
          (UsableLabel label ↔
            (labelCandidate cfg.processing frame leadingS
              (stateBefore cfg env frame snapshot leadingS before (called p)).contexts r.parsed).any
                isBlank = false) := by
  have hkeep : ∀ frame : IngressFrame, KeepableFrame cfg.processing
      (fun text => (parseFragment text).isSome) (fun _ => True)
        (fun gid => IsFieldText gid ∧ True) frame :=
    fun frame => @keepable_fragment cfg.processing (fun _ => True) frame (fun _ _ _ _ _ _ => trivial)
  have hkept := h.kept (fun frame _ => hkeep frame)
  obtain ⟨-, hwritten⟩ := hkept.process (hkeep frame) hcall
  obtain ⟨leadingS, sentences, q, hlead, -, hrun, -⟩ := process_ok hcall
  refine ⟨leadingS, hlead, ?_⟩
  intro before r after out hsplit hout
  obtain ⟨q', -, hstep⟩ := processSentences_split sentences hrun hsplit
  obtain ⟨p₀, hp₀⟩ : ∃ p₀, stateBefore cfg env frame snapshot leadingS before (called p) = p₀ := ⟨_, rfl⟩
  rw [hp₀] at hstep ⊢
  obtain ⟨e, he⟩ : ∃ e, r.emission = some e := by
    cases he : r.emission with
    | some e => exact ⟨e, rfl⟩
    | none => simp [SentenceReport.outputs, he] at hout
  have hmem : r ∈ reports := by
    rw [hsplit]
    simp
  have hlines := (hwritten reports rfl r hmem e he).lines
  obtain ⟨-, -, assembler, hfed, ⟨hstatus, -⟩ | ⟨-, hnone, -⟩⟩ := processSentence_ok hstep
  · obtain ⟨-, -, n, houtputs⟩ := outputs_format hstep he
    obtain ⟨fmt, hfmt⟩ : ∃ fmt, lineFormat cfg frame leadingS p₀ r e = fmt := ⟨_, rfl⟩
    have hlabel : fmt.sValue = chooseSValueFromCandidates cfg.processing.stationId
        ((nonEmpty frame.aliasForS).or (incomingCandidate p₀.contexts r.parsed)) leadingS
          frame.remoteIp := by
      rw [← hfmt, lineFormat_sValue, ingressS_eq_incomingCandidate hfed hstatus]
    have hsafe : ∀ c ∈ fmt.sValue, isSafeChar c = true := by
      rw [hlabel]
      exact chooseSValue_safe _ _ _ _
    rw [hfmt] at houtputs
    -- the first output is written from the first line
    simp only [SentenceReport.outputs, he, List.head?_eq_getElem?] at hout
    have hlt : 0 < (if e.emitted then e.lines else []).length := by
      rw [← houtputs.length]
      exact (List.getElem?_eq_some_iff.mp hout).1
    obtain ⟨line, hline⟩ : ∃ line, (if e.emitted then e.lines else [])[0]? = some line :=
      ⟨_, List.getElem?_eq_getElem hlt⟩
    obtain ⟨message, hget, hbuild⟩ := houtputs.output 0 line hline
    rw [hout] at hget
    obtain rfl := Option.some.inj hget
    have hfragment : (parseFragment line).isSome := by
      refine hlines line (List.mem_of_getElem? (?_ : e.lines[0]? = some line))
      split at hline
      · exact hline
      · cases hline
    have htime : ∃ i, headerTime fmt.timestamp (env.wallClock (n + 0)) = intStr i := by
      rw [← hfmt]
      exact headerTime_selectTimestamp _ _ _ _ _
    refine ⟨_, sField_first hfragment htime hsafe hbuild, ?_⟩
    have hlength : fmt.sValue.length ≤ 15 := by
      rw [hlabel]
      exact length_chooseSValue_le _ _ _ _
    rw [usableLabel_encode_iff hsafe hlength, ne_eq, hlabel, chooseSValue_eq_nil_iff,
      Bool.not_eq_true, labelCandidate]
  · rw [he] at hnone
    cases hnone

/-- The first output of every message of every history carries a usable label. -/
def UsableLabels : Prop :=
  ∀ (cfg : ProcessorConfig) (env : Environment) (startNs : Int) (p : Processor),
    Reachable cfg env startNs (fun _ => True) p → ∀ frame snapshot p' reports,
      nonEmpty frame.remoteIp ≠ none → process cfg env p frame snapshot = (p', .ok reports) →
        ∀ r ∈ reports, ∀ out, r.outputs.head? = some out →
          ∃ label, sField out.message = some label ∧ UsableLabel label

/-- A datagram whose TAG block has the given source. -/
def sourceFrame (source : Bytes) : IngressFrame :=
  ⟨str "udp", str "a", none, some (str "10.0.0.1"), str "a",
    ascii "\\s:" ++ source ++ ascii "*00\\!AIVDM,1,1,,A,p,0*00", .utf8Ignore⟩

/-- The first messages of the reports of a call to a fresh processor. -/
def headMessages (cfg : ProcessorConfig) (frame : IngressFrame) : List (Option Bytes) :=
  match (process cfg fixedGidEnvironment (.init 0) frame oneTarget).2 with
  | .ok reports => reports.map (fun r => r.outputs.head?.map ProcessorOutput.message)
  | .error _ => []

lemma headMessages_of_call {cfg : ProcessorConfig} {frame : IngressFrame} {message : Bytes}
    (h : headMessages cfg frame = [some message]) :
    ∃ p' r out, process cfg fixedGidEnvironment (.init 0) frame oneTarget = (p', .ok [r]) ∧
      r.outputs.head? = some out ∧ out.message = message := by
  unfold headMessages at h
  split at h
  · next reports hreports =>
    obtain ⟨r, rest, rfl, hr, hrest⟩ := List.map_eq_cons_iff.mp h
    obtain rfl := List.map_eq_nil_iff.mp hrest
    obtain ⟨out, hout, hmessage⟩ := Option.map_eq_some_iff.mp hr
    exact ⟨_, r, out, Prod.ext rfl hreports, hout, hmessage⟩
  · cases h

theorem s_label_usable_source : ∃ leadingS p' r,
    process taggedConfig fixedGidEnvironment (.init 0) (sourceFrame (ascii " x y ")) oneTarget =
        (p', .ok [r]) ∧
      (labelCandidate taggedConfig.processing (sourceFrame (ascii " x y ")) leadingS
        (called (.init 0)).contexts r.parsed).any isBlank = false := by
  have hmessages : headMessages taggedConfig (sourceFrame (ascii " x y ")) =
    [some (ascii "\\c:1000,s:x_y*63\\!AIVDM,1,1,,A,p,0*00\r\n")] := by decide +kernel
  obtain ⟨p', r, out, hcall, hout, hmessage⟩ := headMessages_of_call hmessages
  obtain ⟨leadingS, -, hlabels⟩ :=
    @s_label_usable taggedConfig fixedGidEnvironment 0 _ _ .start _ _ _ hcall
  obtain ⟨label, hlabel, hiff⟩ := hlabels [] r [] out rfl hout
  have hfield : sField (ascii "\\c:1000,s:x_y*63\\!AIVDM,1,1,,A,p,0*00\r\n") = some (ascii "x_y") := by
    decide +kernel
  rw [hmessage, hfield] at hlabel
  obtain rfl := Option.some.inj hlabel
  exact ⟨leadingS, p', r, hcall, hiff.mp ⟨by decide, by decide, by decide +kernel⟩⟩

/-- A source of one space passes the tests and is stripped to an empty label. -/
theorem not_usableLabels : ¬UsableLabels := by
  intro h
  have hmessages : headMessages taggedConfig (sourceFrame (ascii " ")) =
    [some (ascii "\\c:1000,s:*3D\\!AIVDM,1,1,,A,p,0*00\r\n")] := by decide +kernel
  obtain ⟨p', r, out, hcall, hout, hmessage⟩ := headMessages_of_call hmessages
  obtain ⟨label, hlabel, husable⟩ := h taggedConfig fixedGidEnvironment 0 _ .start _ oneTarget p' [r]
    (by decide) hcall r (by simp) out hout
  rw [hmessage] at hlabel
  have hempty : sField (ascii "\\c:1000,s:*3D\\!AIVDM,1,1,,A,p,0*00\r\n") = some [] := by decide +kernel
  rw [hempty] at hlabel
  obtain rfl := Option.some.inj hlabel
  exact absurd husable.length_pos (by decide)

end Processor

end AisMixer

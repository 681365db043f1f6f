import AisMixer.DataPlane.Emission

/-!
# When processing cannot raise

Every step from the octets of a frame to the octets of an output succeeds, except the strict
encoding of a sentence that has an unpaired surrogate.
-/

namespace AisMixer
open Library

/-! ### Text without surrogates -/

lemma hasSurrogate_append (s t : PyStr) : hasSurrogate (s ++ t) = (hasSurrogate s || hasSurrogate t) :=
  List.any_append

/-- Text of code points below the surrogates. -/
lemma noSurrogate_of_lt {s : PyStr} (h : ∀ c ∈ s, c.val < 0xD800) : hasSurrogate s = false := by
  refine List.any_eq_false.mpr (fun c hc => ?_)
  have hlt := h c hc
  simp only [isSurrogate, Bool.and_eq_true, decide_eq_true_eq]
  omega

lemma digitChar_lt (d : Nat) : (digitChar d).val < 0xD800 := by
  simp only [digitChar]
  omega

lemma natStr_noSurrogate (n : Nat) : hasSurrogate (natStr n) = false := by
  refine noSurrogate_of_lt (fun c hc => ?_)
  unfold natStr at hc
  split at hc
  · rw [List.mem_singleton.mp hc]
    decide
  · obtain ⟨d, -, rfl⟩ := List.mem_map.mp hc
    exact digitChar_lt d

lemma intStr_noSurrogate (i : Int) : hasSurrogate (intStr i) = false := by
  cases i with
  | ofNat n => exact natStr_noSurrogate n
  | negSucc n =>
    have hcons : intStr (.negSucc n) = [0x2D] ++ natStr (n + 1) := rfl
    rw [hcons, hasSurrogate_append, natStr_noSurrogate]
    decide

/-- No decimal digit and no other digit is a surrogate. -/
lemma isSurrogate_of_isDigitChar {c : CodePoint} (h : isDigitChar c = true) : isSurrogate c = false := by
  have hzeros : ∀ z ∈ decimalZeros, z + 10 ≤ 0xD800 ∨ 0xDFFF < z := by decide
  have hranges : ∀ r ∈ otherDigitRanges, r.2 < 0xD800 ∨ 0xDFFF < r.1 := by decide
  by_contra hno
  have hsurrogate : 0xD800 ≤ c.val ∧ c.val ≤ 0xDFFF := by simpa [isSurrogate] using hno
  rw [isDigitChar, Bool.or_eq_true] at h
  rcases h with hdecimal | hother
  · obtain ⟨value, hvalue⟩ := Option.isSome_iff_exists.mp hdecimal
    obtain ⟨z, hz, -⟩ := Option.map_eq_some_iff.mp hvalue
    have hmem := List.mem_of_find?_eq_some hz
    have hin := List.find?_some hz
    simp only [Bool.and_eq_true, decide_eq_true_eq] at hin
    have := hzeros z hmem
    omega
  · obtain ⟨r, hr, hin⟩ := List.any_eq_true.mp hother
    simp only [Bool.and_eq_true, decide_eq_true_eq] at hin
    have := hranges r hr
    omega

lemma noSurrogate_of_isDigit {s : PyStr} (h : isDigit s = true) : hasSurrogate s = false := by
  rw [isDigit, Bool.and_eq_true] at h
  refine List.any_eq_false.mpr (fun c hc => ?_)
  rw [isSurrogate_of_isDigitChar (List.all_eq_true.mp h.2 c hc)]
  decide

lemma sanitizeS_noSurrogate (val : Option PyStr) : hasSurrogate (sanitizeS val) = false := by
  refine noSurrogate_of_lt (fun c hc => ?_)
  obtain ⟨b, -, rfl⟩ := List.mem_map.mp (List.mem_of_mem_take hc)
  split
  · next hsafe =>
    simp only [isSafeChar, Bool.or_eq_true, Bool.and_eq_true, decide_eq_true_eq, beq_iff_eq] at hsafe
    omega
  · decide

lemma chooseSValue_noSurrogate (stationId source incoming remoteIp : Option PyStr) :
    hasSurrogate (chooseSValueFromCandidates stationId source incoming remoteIp) = false := by
  have hip : hasSurrogate (ipToS remoteIp) = false := by
    unfold ipToS
    split
    · decide
    · exact sanitizeS_noSurrogate _
  unfold chooseSValueFromCandidates
  split
  · exact sanitizeS_noSurrogate _
  · split
    · exact sanitizeS_noSurrogate _
    · split
      · exact sanitizeS_noSurrogate _
      · exact hip

lemma nmeaChecksum_noSurrogate (data : PyStr) : hasSurrogate (nmeaChecksum data) = false := by
  refine noSurrogate_of_lt (fun c hc => ?_)
  rcases List.mem_append.mp hc with hc | hc
  · rw [List.eq_of_mem_replicate hc]
    decide
  · obtain ⟨d, hd, rfl⟩ := List.mem_map.mp hc
    have hlt := Nat.digits_lt_base (by decide) (List.mem_reverse.mp hd)
    unfold upperHexDigit
    split <;> simp only [Fin.ofNat, Fin.val_mk] <;> omega

lemma formatHeader_noSurrogate {content : PyStr} (h : hasSurrogate content = false) :
    hasSurrogate (formatHeader content) = false := by
  have hopen : hasSurrogate [0x5C] = false := by decide
  have hstar : hasSurrogate [0x2A] = false := by decide
  simp only [formatHeader, hasSurrogate_append, h, hopen, hstar, nmeaChecksum_noSurrogate, Bool.or_self]

lemma join_noSurrogate {sep : PyStr} (hsep : hasSurrogate sep = false) {parts : List PyStr}
    (hparts : ∀ p ∈ parts, hasSurrogate p = false) : hasSurrogate (join sep parts) = false := by
  induction parts with
  | nil => rfl
  | cons first rest ih =>
    have hfirst := hparts first (by simp)
    have hrest := ih (fun p hp => hparts p (List.mem_cons_of_mem _ hp))
    cases rest with
    | nil => simpa [join, List.intercalate] using hfirst
    | cons second rest =>
      have hcons : join sep (first :: second :: rest) = first ++ (sep ++ join sep (second :: rest)) := by
        simp [join, List.intercalate]
      rw [hcons, hasSurrogate_append, hasSurrogate_append, hfirst, hsep, hrest]
      rfl

/-- A header adds no surrogate to a sentence. -/
lemma wrapWithMeta_noSurrogate {nmeaLine stationId : PyStr} {timestamp : HeaderTimestamp}
    {g : Option PyStr} (isFirst : Bool) (wall : ℚ) (hline : hasSurrogate nmeaLine = false)
    (hstation : hasSurrogate stationId = false)
    (htimestamp : ∀ text, timestamp.truthy = some text → hasSurrogate text = false)
    (hg : ∀ value, g = some value → hasSurrogate value = false) :
    hasSurrogate (wrapWithMeta nmeaLine stationId timestamp isFirst g wall) = false := by
  have htime : hasSurrogate (timestamp.truthy.getD (intStr (truncate wall))) = false := by
    cases htruthy : timestamp.truthy with
    | none => exact intStr_noSurrogate _
    | some text => exact htimestamp text htruthy
  have hfields : ∀ part ∈ [str "c:" ++ timestamp.truthy.getD (intStr (truncate wall)),
      str "s:" ++ stationId], hasSurrogate part = false := by
    intro part hpart
    rcases List.mem_cons.mp hpart with rfl | hpart
    · rw [hasSurrogate_append, htime]
      decide
    · rw [List.mem_singleton.mp hpart, hasSurrogate_append, hstation]
      decide
  have hcomma : hasSurrogate (str ",") = false := by decide
  unfold wrapWithMeta
  simp only
  split
  · exact hline
  · rw [hasSurrogate_append, hline, Bool.or_false]
    split
    · next value hvalue =>
      have htriplet : hasSurrogate (str "g:" ++ value) = false := by
        rw [hasSurrogate_append, hg value (Option.filter_eq_some_iff.mp hvalue).1]
        decide
      split
      · refine formatHeader_noSurrogate (join_noSurrogate hcomma (fun part hpart => ?_))
        rcases List.mem_append.mp hpart with hpart | hpart
        · exact hfields part hpart
        · rw [List.mem_singleton.mp hpart]
          exact htriplet
      · exact formatHeader_noSurrogate htriplet
    · exact formatHeader_noSurrogate (join_noSurrogate hcomma hfields)

/-- The strict encoding fails exactly on surrogates. -/
lemma buildOutputBytes_ok {nmeaLine stationId : PyStr} {timestamp : HeaderTimestamp}
    {g : Option PyStr} (isFirst : Bool) (wall : ℚ) (hline : hasSurrogate nmeaLine = false)
    (hstation : hasSurrogate stationId = false)
    (htimestamp : ∀ text, timestamp.truthy = some text → hasSurrogate text = false)
    (hg : ∀ value, g = some value → hasSurrogate value = false) :
    ∃ message, buildOutputBytes nmeaLine stationId timestamp isFirst g wall = .ok message := by
  have hcrlf : hasSurrogate [0x0D, 0x0A] = false := by decide
  have hall := wrapWithMeta_noSurrogate isFirst wall hline hstation htimestamp hg
  refine ⟨encodeSurrogatepass (wrapWithMeta nmeaLine stationId timestamp isFirst g wall ++ [0x0D, 0x0A]), ?_⟩
  rw [buildOutputBytes_ok_iff, encodeUtf8, hasSurrogate_append, hall, hcrlf]
  rfl

/-! ### The assembler, whatever its timeout -/

namespace Assembler

/-- The ordinals of a group are in range, and its texts have a property. -/
structure GroupSound (P : PyStr → Prop) (key : AssemblyKey) (g : AssemblyGroup) : Prop where
  ordinals : ∀ o ∈ g.fragmentsByOrdinal.keys, 1 ≤ o ∧ o ≤ key.declaredTotal
  texts : ∀ o text, g.fragmentsByOrdinal.get? o = some text → P text

def Sound (P : PyStr → Prop) (s : Assembler) : Prop :=
  ∀ key g, s.groups.get? key = some g → GroupSound P key g

section Sound

variable {P : PyStr → Prop} {cfg : AssemblerConfig} {s s' : Assembler} {now : ℚ} {key : AssemblyKey}
  {g : AssemblyGroup} {ordinal : Nat} {text : PyStr}

lemma init_sound (P : PyStr → Prop) : Sound P init := by
  intro key g hg
  simp [init] at hg

lemma Sound.mono (h : Sound P s)
    (hsub : ∀ key g, s'.groups.get? key = some g → s.groups.get? key = some g) : Sound P s' :=
  fun key g hg => h key g (hsub key g hg)

lemma Sound.cleanup (h : Sound P s) (now : ℚ) : Sound P (cleanupExpired cfg s now).1 :=
  h.mono (fun key _ hg => (cleanupExpired_keptOrDropped cfg s now key).sub hg)

lemma GroupSound.add (h : GroupSound P key g) (htext : P text) (ho : 1 ≤ ordinal)
    (hle : ordinal ≤ key.declaredTotal) (now : ℚ) : GroupSound P key (g.add ordinal text now) where
  ordinals := AssemblyGroup_add_range text now h.ordinals ho hle
  texts := by
    intro o t ht
    rw [AssemblyGroup.add, Dict.get?_set] at ht
    split at ht
    · rw [← Option.some.inj ht]
      exact htext
    · exact h.texts o t ht

lemma Sound.set (h : Sound P s) (hg : GroupSound P key g) :
    Sound P { s with groups := s.groups.set key g } := by
  intro other g' hget
  rw [Dict.get?_set] at hget
  split at hget
  · next heq =>
    rw [← heq, ← Option.some.inj hget]
    exact hg
  · exact h other g' hget

lemma Sound.erase (h : Sound P s) (key : AssemblyKey) :
    Sound P { s with groups := s.groups.erase key } := by
  refine h.mono (fun other g' hget => ?_)
  rw [Dict.get?_erase] at hget
  split at hget
  · cases hget
  · exact hget

variable (cfg now) in
/-- A group takes an arrival without an exception. -/
lemma placeFragment_total (h : Sound P s) (hg : GroupSound P key g) (htext : P text)
    (ho : 1 ≤ ordinal) (hle : ordinal ≤ key.declaredTotal) (discarded : List AssemblyKey)
    (cleaned : Bool) :
    ∃ s' out, placeFragment cfg s now key g ordinal text discarded cleaned = (s', .ok out) ∧
      Sound P s' ∧ ∀ line ∈ out.sentences, P line := by
  cases hstored : g.fragmentsByOrdinal.get? ordinal with
  | some stored =>
    by_cases heq : stored = text
    · refine ⟨_, _, by simp only [placeFragment, hstored, heq, if_true]; rfl, ?_, by simp⟩
      exact (h.cleanup now).mono (fun _ _ hget => hget)
    · refine ⟨_, _, by simp only [placeFragment, hstored, heq, if_false]; rfl, ?_, by simp⟩
      exact ((h.erase key).cleanup now).mono (fun _ _ hget => hget)
  | none =>
    have hadd := hg.add htext ho hle now
    by_cases hfull : (g.add ordinal text now).receivedCount = key.declaredTotal
    · have hlines := fullLines_ok hadd.ordinals hfull
      simp only [AssemblyGroup.add] at hfull hlines
      refine ⟨_, _, by simp only [placeFragment, hstored, hfull, if_true, hlines]; rfl, ?_, ?_⟩
      · exact ((h.set hadd).erase key).mono (fun _ _ hget => hget)
      · intro line hline
        obtain ⟨i, -, hi⟩ := List.mem_filterMap.mp hline
        exact hadd.texts (i + 1) line hi
    · simp only [AssemblyGroup.add] at hfull
      cases cleaned with
      | true =>
        refine ⟨_, _, by simp only [placeFragment, hstored, hfull, if_false, if_true]; rfl, ?_, by simp⟩
        exact (h.set hadd).mono (fun _ _ hget => hget)
      | false =>
        refine ⟨_, _, by simp only [placeFragment, hstored, hfull, if_false, Bool.false_eq_true]; rfl, ?_,
          by simp⟩
        exact ((h.set hadd).cleanup now).mono (fun _ _ hget => hget)

variable (cfg now) in
/-- A feed never raises, and what it returns consists of texts that were fed. -/
theorem feedParsedOutcome_total (h : Sound P s) {parsed : ParsedSentence}
    (htext : parsed.text = .ok text) (hP : parsed.fragment.isSome → P text) :
    ∃ s' out, s.feedParsedOutcome cfg now parsed = (s', .ok out) ∧ Sound P s' ∧
      ∀ line ∈ out.sentences, P line := by
  cases hfrag : parsed.fragment with
  | none =>
    exact ⟨s.count .invalid, { status := .invalid }, by simp only [feedParsedOutcome, hfrag],
      h.mono (fun _ _ hget => hget), by simp⟩
  | some fragment =>
    have hP := hP (by simp [hfrag])
    cases hgrouped : isGrouped cfg fragment with
    | false =>
      obtain ⟨status, sentences, hstatus, hfeed⟩ :=
        feed_ungrouped parsed.frame.assemblerKey text hgrouped
      refine ⟨s.count status, { status := status, sentences := sentences },
        by simp only [feedParsedOutcome, hfrag, htext, hfeed], h.mono (fun _ _ hget => hget), ?_⟩
      rcases hstatus with ⟨-, rfl⟩ | ⟨-, rfl⟩
      · simpa using hP
      · simp
    | true =>
      have hlimits := hgrouped
      simp only [isGrouped, Bool.and_eq_true, bne_iff_ne, ne_eq, Bool.not_eq_true'] at hlimits
      obtain ⟨s₁, g, ks, cleaned, hobtain, hget, hg, -, -, hkept⟩ := obtainGroup_ok cfg s now
        (keyOf parsed.frame.assemblerKey fragment)
      have hgroup : GroupSound P (keyOf parsed.frame.assemblerKey fragment) g := by
        rw [hg]
        cases hlive : liveGroup cfg now (s.groups.get? (keyOf parsed.frame.assemblerKey fragment)) with
        | some g₀ => exact h _ g₀ (liveGroup_eq_some.mp hlive).1
        | none => exact ⟨by simp, by simp⟩
      have hsound : Sound P s₁ := by
        intro other g' hget'
        by_cases hne : other = keyOf parsed.frame.assemblerKey fragment
        · rw [hne, hget] at hget'
          rw [hne, ← Option.some.inj hget']
          exact hgroup
        · exact h other g' ((hkept other hne).sub hget')
      obtain ⟨s', out, hplace, hs', hlines⟩ := placeFragment_total cfg now hsound hgroup
        hP fragment.ordinal_pos fragment.ordinal_le ks cleaned
      refine ⟨s', out, ?_, hs', hlines⟩
      have hkey : (⟨parsed.frame.assemblerKey, fragment.sequentialId, fragment.channel,
        fragment.declaredTotal⟩ : AssemblyKey) = keyOf parsed.frame.assemblerKey fragment := rfl
      simp only [feedParsedOutcome, hfrag, htext, feedValidatedFragment, hlimits.1, hlimits.2, if_false,
        hkey, hobtain, hplace]
      rfl

end Sound

end Assembler

namespace Processor

/-! ### The rest of the loop body -/

/-- What the processor keeps so that nothing but a surrogate can make it raise. -/
structure Healthy (p : Processor) : Prop where
  sound : Assembler.Sound (fun text => hasSurrogate text = false) p.assembler
  consistent : p.deduplicator.Consistent
  gids : ∀ key, ∀ gid ∈ (gidsOf p.contexts key).keys, hasSurrogate gid = false

lemma init_healthy (startNs : Int) : Healthy (.init startNs) where
  sound := Assembler.init_sound _
  consistent := Deduplicator.init_consistent
  gids := by simp [Processor.init, MultipartContexts.empty, gidsOf]

/-- A sentence without surrogates where it matters: in its text, if it is an AIS fragment, and in
the group id of its TAG block. -/
structure CleanSentence (parsed : ParsedSentence) : Prop where
  text : ∃ text, parsed.text = .ok text ∧ (parsed.fragment.isSome → hasSurrogate text = false)
  gid : ∀ gid, currentIngressGid parsed = some gid → hasSurrogate gid = false

section Steps

variable (cfg : ProcessorConfig) (env : Environment) {p : Processor}

lemma dedupCall_total (h : p.deduplicator.Consistent) (message : LogicalKey)
    (scope : Option EgressTargetId) :
    ∃ d decision, dedupCall cfg env p message scope =
      (p.withDedup d (p.readings.dedup + 1), .ok decision) ∧ d.Consistent := by
  obtain ⟨d, unique, hrun, hd, -⟩ := Deduplicator.isUnique_spec cfg.dedup h
    (env.dedupClock p.readings.dedup) message scope
  refine ⟨d, ⟨scope, message, env.dedupClock p.readings.dedup, unique⟩, ?_, hd⟩
  simp only [dedupCall, hrun]
  rfl

lemma decideTargets_total (message : LogicalKey) (targets : List EgressTargetId) :
    ∀ {p : Processor}, p.deduplicator.Consistent →
      ∃ d n ds, decideTargets cfg env message targets p = (p.withDedup d n, .ok ds) ∧ d.Consistent := by
  induction targets with
  | nil => exact fun {p} h => ⟨p.deduplicator, p.readings.dedup, [], rfl, h⟩
  | cons target rest ih =>
    intro p h
    obtain ⟨d, decision, hcall, hd⟩ := dedupCall_total cfg env h message (some target)
    obtain ⟨d', n, ds, hrest, hd'⟩ := @ih (p.withDedup d (p.readings.dedup + 1)) hd
    refine ⟨d', n, decision :: ds, ?_, hd'⟩
    simp only [decideTargets, hcall, hrest]
    rfl

lemma deduplicate_total (h : p.deduplicator.Consistent) (snapshot : ProcessingSnapshot)
    (message : LogicalKey) :
    ∃ d n result, deduplicate cfg env p snapshot message = (p.withDedup d n, .ok result) ∧
      d.Consistent := by
  cases hmode : snapshot.deduplicationMode with
  | global =>
    obtain ⟨d, decision, hcall, hd⟩ := dedupCall_total cfg env h message none
    refine ⟨d, p.readings.dedup + 1, ([decision], snapshot.targetIds, decision.admitted), ?_, hd⟩
    simp only [deduplicate, hmode, hcall]
  | perTarget =>
    obtain ⟨d, n, ds, hdecide, hd⟩ := decideTargets_total cfg env message
      snapshot.targetIds h
    refine ⟨d, n, (ds, (ds.filter Decision.admitted).filterMap Decision.scope,
      !((ds.filter Decision.admitted).filterMap Decision.scope).isEmpty), ?_, hd⟩
    simp only [deduplicate, hmode, hdecide]

/-- The texts that go into every line of a message. -/
structure CleanFormat (fmt : LineFormat) : Prop where
  sValue : hasSurrogate fmt.sValue = false
  timestamp : ∀ text, fmt.timestamp.truthy = some text → hasSurrogate text = false
  gid : hasSurrogate fmt.gid = false

lemma gTriplet_noSurrogate {fmt : LineFormat} (h : CleanFormat fmt) (index : Nat) :
    ∀ value, gTriplet fmt index = some value → hasSurrogate value = false := by
  intro value hvalue
  unfold gTriplet at hvalue
  split at hvalue
  · have hdash : hasSurrogate (str "-") = false := by decide
    rw [← Option.some.inj hvalue]
    simp only [hasSurrogate_append, natStr_noSurrogate, hdash, h.gid, Bool.or_self]
  · cases hvalue

lemma emitLines_total {fmt : LineFormat} (hfmt : CleanFormat fmt) (lines : List PyStr) :
    ∀ (index : Nat) (p : Processor), (∀ line ∈ lines, hasSurrogate line = false) →
      ∃ p' outputs, emitLines cfg env fmt index lines p = (p', .ok outputs) := by
  induction lines with
  | nil => exact fun index p _ => ⟨p, [], rfl⟩
  | cons line rest ih =>
    intro index p hlines
    obtain ⟨message, hbuild⟩ := buildOutputBytes_ok (index == 0)
      (env.wallClock p.readings.output) (hlines line (by simp)) hfmt.sValue hfmt.timestamp
      (gTriplet_noSurrogate hfmt index)
    obtain ⟨p', outputs, hrest⟩ := ih (index + 1) { p with
      sourceState := p.sourceState.touchS cfg.source fmt.sValue (env.sourceClock p.readings.output)
      readings := { p.readings with output := p.readings.output + 1 } }
      (fun l hl => hlines l (List.mem_cons_of_mem _ hl))
    exact ⟨p', _, by simp only [emitLines, hbuild, hrest]; rfl⟩

lemma selectTimestamp_noSurrogate (cfg : ProcessingConfig) (ctx : MultipartContexts)
    (parsed : ParsedSentence) (outcome : AssemblyOutcome) :
    ∀ text, (selectTimestamp cfg ctx parsed outcome).truthy = some text → hasSurrogate text = false := by
  have hint : ∀ (i : Int) text, (HeaderTimestamp.int i).truthy = some text →
      hasSurrogate text = false := by
    intro i text htext
    simp only [HeaderTimestamp.truthy] at htext
    split at htext
    · cases htext
    · rw [← Option.some.inj htext]
      exact intStr_noSurrogate i
  intro text htext
  unfold selectTimestamp at htext
  split at htext
  · split at htext
    · cases htext
    · split at htext
      · have hzero : (HeaderTimestamp.text (str "0")).truthy = some (str "0") := rfl
        rw [hzero] at htext
        rw [← Option.some.inj htext]
        decide
      · exact hint _ text htext
  · split at htext
    · cases htext
    · exact hint _ text htext

lemma selectGid_noSurrogate {ctx : MultipartContexts}
    (hctx : ∀ key, ∀ gid ∈ (gidsOf ctx key).keys, hasSurrogate gid = false)
    {parsed : ParsedSentence} (hparsed : CleanSentence parsed) (cfg : ProcessingConfig)
    (outcome : AssemblyOutcome) :
    ∀ gid, selectGid cfg ctx parsed outcome = some gid → hasSurrogate gid = false := by
  intro gid hgid
  unfold selectGid at hgid
  split at hgid
  · next key _ _ =>
    split at hgid
    · next id hkeys =>
      split at hgid
      · obtain rfl := Option.some.inj hgid
        exact hctx key _ (by rw [gidsOf, hkeys]; simp)
      · cases hgid
    · cases hgid
  · split at hgid
    · exact hparsed.gid gid hgid
    · cases hgid

lemma emit_total (frame : IngressFrame) (snapshot : ProcessingSnapshot) (leadingS : Option PyStr)
    (hgen : ∀ digits n, isDigit (env.gidGenerator digits n) = true) (h : Healthy p)
    {parsed : ParsedSentence} (hparsed : CleanSentence parsed) {outcome : AssemblyOutcome}
    (hlines : ∀ line ∈ outcome.sentences, hasSurrogate line = false) :
    ∃ p' e, emit cfg env frame snapshot leadingS p parsed outcome = (p', .ok e) ∧ Healthy p' := by
  obtain ⟨selected, hselected⟩ : ∃ selected,
      selectGid cfg.processing p.contexts parsed outcome = selected := ⟨_, rfl⟩
  have hgid : hasSurrogate (selected.getD (env.gidGenerator cfg.processing.gidDigits p.readings.gid)) =
      false := by
    cases hs : selected with
    | none => exact noSurrogate_of_isDigit (hgen _ _)
    | some gid => exact selectGid_noSurrogate h.gids hparsed cfg.processing outcome gid (by rw [hselected, hs])
  have hwith : (withGid p selected).deduplicator = p.deduplicator ∧
      (withGid p selected).assembler = p.assembler := by
    unfold withGid
    split <;> exact ⟨rfl, rfl⟩
  obtain ⟨d, n, ⟨decisions, eligible, emitted⟩, hdedup, hd⟩ := deduplicate_total cfg env
    (hwith.1 ▸ h.consistent) snapshot (logicalKey outcome.sentences)
  obtain ⟨q, hq⟩ : ∃ q, (withGid p selected).withDedup d n = q := ⟨_, rfl⟩
  rw [hq] at hdedup
  have hctx : q.contexts = p.contexts := by rw [← hq]; simp
  obtain ⟨fmt, hfmt⟩ : ∃ fmt, formatOf cfg frame leadingS q.contexts parsed outcome
      (selected.getD (env.gidGenerator cfg.processing.gidDigits p.readings.gid)) eligible = fmt := ⟨_, rfl⟩
  have hclean : CleanFormat fmt := by
    rw [← hfmt]
    exact ⟨chooseSValue_noSurrogate _ _ _ _, selectTimestamp_noSurrogate _ _ _ _, hgid⟩
  obtain ⟨q', outputs, hout⟩ := emitLines_total cfg env hclean
    (if emitted then outcome.sentences else []) 0 q (by
      intro line hline
      split at hline
      · exact hlines line hline
      · cases hline)
  obtain ⟨sourceState, m, hframe⟩ := emitLines_frame cfg env fmt 0
    (if emitted then outcome.sentences else []) q
  rw [hout] at hframe
  have hq' : q' = q.withOutput sourceState m := hframe
  refine ⟨{ q' with contexts := if outcome.status = .complete then
      q'.contexts.discard outcome.groupKey.toList else q'.contexts },
    ⟨outcome.sentences, selectTimestamp cfg.processing p.contexts parsed outcome,
      selected.getD (env.gidGenerator cfg.processing.gidDigits p.readings.gid), decisions, eligible,
      emitted, outputs⟩, ?_, ?_, ?_, ?_⟩
  · simp only [withGid] at hdedup
    rw [formatOf, hctx] at hfmt
    simp only [emit, hselected, hdedup]
    rw [hctx, hfmt, hout]
  · rw [hq', ← hq]
    exact hwith.2 ▸ h.sound
  · rw [hq', ← hq]
    exact hd
  · intro key gid hgid
    refine h.gids key gid ?_
    have hq'ctx : q'.contexts = p.contexts := by rw [hq', withOutput_contexts, hctx]
    simp only [hq'ctx] at hgid
    split at hgid
    · rw [gidsOf, discard_gid] at hgid
      split at hgid
      · simp at hgid
      · exact hgid
    · exact hgid

/-- The metadata of an arrival adds no group id with a surrogate. -/
lemma observe_gids {ctx : MultipartContexts}
    (hctx : ∀ key, ∀ gid ∈ (gidsOf ctx key).keys, hasSurrogate gid = false)
    {parsed : ParsedSentence} (hparsed : CleanSentence parsed) (cfg : ProcessingConfig)
    (outcome : AssemblyOutcome) :
    ∀ key, ∀ gid ∈ (gidsOf (observe cfg ctx parsed outcome) key).keys, hasSurrogate gid = false := by
  intro key gid hgid
  have hdiscard : ∀ gid ∈ (gidsOf (ctx.discard outcome.discardedKeys) key).keys,
      hasSurrogate gid = false := by
    intro gid hgid
    rw [gidsOf, discard_gid] at hgid
    split at hgid
    · simp at hgid
    · exact hctx key gid hgid
  by_cases hkey : outcome.groupKey = some key
  · by_cases hstatus : outcome.status = .pending ∨ outcome.status = .duplicate ∨
        outcome.status = .complete
    · rcases (observe_gid cfg ctx parsed hkey hstatus gid).mp hgid with hold | hnew
      · exact hdiscard gid hold
      · unfold ingressGid at hnew
        split at hnew
        · exact hparsed.gid gid hnew
        · cases hnew
    · have hsame : observe cfg ctx parsed outcome = ctx.discard outcome.discardedKeys := by
        simp only [observe, hkey, if_neg hstatus]
      rw [hsame] at hgid
      exact hdiscard gid hgid
  · rw [gidsOf, (observe_other cfg ctx parsed hkey).2] at hgid
    exact hdiscard gid hgid

lemma processSentence_total (frame : IngressFrame) (snapshot : ProcessingSnapshot)
    (leadingS : Option PyStr) (hgen : ∀ digits n, isDigit (env.gidGenerator digits n) = true)
    (h : Healthy p) {parsed : ParsedSentence} (hparsed : CleanSentence parsed) :
    ∃ p' r, processSentence cfg env frame snapshot leadingS p parsed = (p', .ok r) ∧ Healthy p' := by
  obtain ⟨text, htext, hclean⟩ := hparsed.text
  obtain ⟨assembler, outcome, hfeed, hsound, hlines⟩ := Assembler.feedParsedOutcome_total
    cfg.assembler (env.assemblerClock p.readings.assembler) h.sound htext hclean
  have hobserved : Healthy (observed cfg p assembler parsed outcome) :=
    ⟨hsound, h.consistent, observe_gids h.gids hparsed cfg.processing outcome⟩
  by_cases hstatus : outcome.status = .single ∨ outcome.status = .complete
  · obtain ⟨p', e, hemit, hp'⟩ := emit_total cfg env frame snapshot leadingS
      hgen hobserved hparsed hlines
    simp only [observed] at hemit
    refine ⟨p', ⟨parsed, snapshot, outcome, some e⟩, ?_, hp'⟩
    simp only [processSentence, hfeed, if_pos hstatus, hemit]
  · refine ⟨observed cfg p assembler parsed outcome, ⟨parsed, snapshot, outcome, none⟩, ?_, hobserved⟩
    simp only [processSentence, hfeed, if_neg hstatus]
    rfl

lemma processSentences_total (frame : IngressFrame) (snapshot : ProcessingSnapshot)
    (leadingS : Option PyStr) (hgen : ∀ digits n, isDigit (env.gidGenerator digits n) = true)
    (sentences : List ParsedSentence) :
    ∀ {p : Processor}, Healthy p → (∀ parsed ∈ sentences, CleanSentence parsed) →
      ∃ p' rs, processSentences cfg env frame snapshot leadingS sentences p = (p', .ok rs) ∧
        Healthy p' := by
  induction sentences with
  | nil => exact fun {p} h _ => ⟨p, [], rfl, h⟩
  | cons parsed rest ih =>
    intro p h hclean
    obtain ⟨q, r, hstep, hq⟩ := processSentence_total cfg env frame snapshot
      leadingS hgen h (hclean parsed (by simp))
    obtain ⟨p', rs, hrest, hp'⟩ := ih hq (fun x hx => hclean x (List.mem_cons_of_mem _ hx))
    exact ⟨p', r :: rs, by simp only [processSentences, hstep, hrest], hp'⟩

/-- No AIS fragment of the frame has an unpaired surrogate. -/
def CleanFrame (frame : IngressFrame) : Prop :=
  ∀ sentences, parseFrameSentences frame true = .ok sentences → ∀ parsed ∈ sentences,
    parsed.fragment.isSome → ∀ text, parsed.text = .ok text → hasSurrogate text = false

lemma process_total {frame : IngressFrame} (hproduced : Produced frame) (hclean : CleanFrame frame)
    (hgen : ∀ digits n, isDigit (env.gidGenerator digits n) = true) (h : Healthy p)
    (snapshot : ProcessingSnapshot) :
    ∃ p' rs, process cfg env p frame snapshot = (p', .ok rs) ∧ Healthy p' := by
  obtain ⟨leadingS, hlead⟩ := parseLeadingSValue_ok hproduced
  obtain ⟨sentences, hparse, -⟩ := parseFrameSentences_ok hproduced true
  have hsentences : ∀ parsed ∈ sentences, CleanSentence parsed := by
    intro parsed hparsed
    obtain ⟨text, htext, -⟩ := parsed_text hparse hparsed
    exact ⟨⟨text, htext, fun hfrag => hclean sentences hparse parsed hparsed hfrag text htext⟩,
      fun gid hgid => noSurrogate_of_isDigit (parsed_gid hparse hparsed hgid)⟩
  have hhealthy : Healthy (called p) := ⟨h.sound, h.consistent, h.gids⟩
  obtain ⟨q', rs, hrun, hq'⟩ := processSentences_total cfg env frame snapshot
    leadingS hgen sentences hhealthy hsentences
  refine ⟨{ q' with counters := countCompleted q'.counters (batch rs).length }, rs, ?_,
    ⟨hq'.sound, hq'.consistent, hq'.gids⟩⟩
  simp only [process, processImpl, hlead, hparse, hrun]

lemma processAll_total (hgen : ∀ digits n, isDigit (env.gidGenerator digits n) = true)
    (calls : List (IngressFrame × ProcessingSnapshot)) :
    ∀ {p : Processor}, Healthy p → (∀ call ∈ calls, Produced call.1 ∧ CleanFrame call.1) →
      ∀ result ∈ (processAll cfg env calls p).2, ∃ reports, result = .ok reports := by
  induction calls with
  | nil =>
    intro p h hcalls result hresult
    cases hresult
  | cons call rest ih =>
    intro p h hcalls result hresult
    obtain ⟨frame, snapshot⟩ := call
    obtain ⟨hproduced, hclean⟩ := hcalls (frame, snapshot) (by simp)
    obtain ⟨q, rs, hcall, hq⟩ := process_total cfg env hproduced hclean hgen h snapshot
    simp only [processAll, hcall] at hresult
    rcases List.mem_cons.mp hresult with rfl | hresult
    · exact ⟨rs, rfl⟩
    · exact ih hq (fun c hc => hcalls c (List.mem_cons_of_mem _ hc)) result hresult

end Steps

/-! ### Surrogates -/

/-- A frame of a datagram has no surrogates at all. -/
lemma cleanFrame_of_datagram {data : Bytes} {origin : IngressOrigin} {frame : IngressFrame}
    (h : frameFromUdpDatagram data origin = .ok frame) : CleanFrame frame := by
  intro sentences hparse parsed hparsed _ text htext
  obtain ⟨ps, hps, hall⟩ := parseFrameSentences_ok (.udpDatagram h) true
  rw [hparse] at hps
  obtain rfl := Except.ok.inj hps
  obtain ⟨frame', hframe', hmode, -⟩ := frameFromUdpDatagram_ok data origin
  rw [h] at hframe'
  obtain rfl := Except.ok.inj hframe'
  rw [ParsedSentence.text, (hall parsed hparsed).frame_eq, decodeFrameSlice] at htext
  split at htext
  · cases htext
  · split at htext
    · cases htext
    · rw [hmode] at htext
      obtain rfl := Except.ok.inj htext
      exact decodeIgnore_noSurrogate _

lemma reports_of_processSentences {cfg : ProcessorConfig} {env : Environment} {frame : IngressFrame}
    {snapshot : ProcessingSnapshot} {leadingS : Option PyStr} (sentences : List ParsedSentence) :
    ∀ {p p' : Processor} {rs : List SentenceReport},
      processSentences cfg env frame snapshot leadingS sentences p = (p', .ok rs) →
      ∀ r ∈ rs, ∃ q q' parsed, processSentence cfg env frame snapshot leadingS q parsed = (q', .ok r) := by
  induction sentences with
  | nil =>
    intro p p' rs h r hr
    obtain ⟨-, hrs⟩ := Prod.mk.inj h
    obtain rfl := Except.ok.inj hrs
    cases hr
  | cons parsed rest ih =>
    intro p p' rs h r hr
    obtain ⟨q, result, hstep⟩ : ∃ q result,
      processSentence cfg env frame snapshot leadingS p parsed = (q, result) := ⟨_, _, rfl⟩
    obtain ⟨q', results, hrest⟩ : ∃ q' results,
      processSentences cfg env frame snapshot leadingS rest q = (q', results) := ⟨_, _, rfl⟩
    cases result with
    | error e => simp [processSentences, hstep] at h
    | ok first =>
      cases results with
      | error e => simp [processSentences, hstep, hrest] at h
      | ok tail =>
        simp only [processSentences, hstep, hrest] at h
        obtain ⟨-, hrs⟩ := Prod.mk.inj h
        obtain rfl := Except.ok.inj hrs
        rcases List.mem_cons.mp hr with rfl | hr
        · exact ⟨p, q, parsed, hstep⟩
        · exact ih hrest r hr

/-- A call that returns has sent no line with a surrogate: a call that would send one raises. -/
lemma lines_of_process {cfg : ProcessorConfig} {env : Environment} {p p' : Processor}
    {frame : IngressFrame} {snapshot : ProcessingSnapshot} {rs : List SentenceReport}
    (h : process cfg env p frame snapshot = (p', .ok rs)) :
    ∀ r ∈ rs, ∀ e, r.emission = some e → e.emitted = true → ∀ line ∈ e.lines,
      hasSurrogate line = false := by
  intro r hr e he hemitted line hline
  have hreport : ∃ leadingS q q' parsed,
      processSentence cfg env frame snapshot leadingS q parsed = (q', .ok r) := by
    obtain ⟨leadingS, sentences, q, -, -, hrun, -⟩ := process_ok h
    exact ⟨leadingS, reports_of_processSentences sentences hrun r hr⟩
  obtain ⟨leadingS, q, q', parsed, hstep⟩ := hreport
  obtain ⟨rfl, -, assembler, -, ⟨-, e', he', hemit⟩ | ⟨-, hnone, -⟩⟩ := processSentence_ok hstep
  · rw [he] at he'
    obtain rfl := Option.some.inj he'
    obtain ⟨i, hi⟩ := List.mem_iff_getElem?.mp hline
    obtain ⟨message, header, -, hencode⟩ := ((whole_of_emit he hemit).emitted hemitted).2 i line hi
    unfold encodeUtf8 at hencode
    split at hencode
    · cases hencode
    · next hclean =>
      simp only [hasSurrogate_append, Bool.not_eq_true, Bool.or_eq_false_iff] at hclean
      exact hclean.1.2
  · simp [he] at hnone

lemma lines_of_processAll {cfg : ProcessorConfig} {env : Environment}
    (calls : List (IngressFrame × ProcessingSnapshot)) :
    ∀ {p : Processor} {rs : List SentenceReport}, .ok rs ∈ (processAll cfg env calls p).2 →
      ∀ r ∈ rs, ∀ e, r.emission = some e → e.emitted = true → ∀ line ∈ e.lines,
        hasSurrogate line = false := by
  induction calls with
  | nil => simp [processAll]
  | cons call rest ih =>
    intro p rs hmem
    obtain ⟨frame, snapshot⟩ := call
    rcases List.mem_cons.mp hmem with hfirst | hrest
    · exact lines_of_process (Prod.ext rfl hfirst.symm)
    · exact ih hrest

/-- In every run of frames without surrogates in their fragments no call raises. Datagrams give such
frames only, and a call that would send a line with a surrogate does not return. -/
theorem never_raises {cfg : ProcessorConfig} {env : Environment} {startNs : Int}
    (hgen : ∀ digits n, isDigit (env.gidGenerator digits n) = true)
    (calls : List (IngressFrame × ProcessingSnapshot)) :
    ((∀ call ∈ calls, Produced call.1 ∧ CleanFrame call.1) →
      ∀ result ∈ (processAll cfg env calls (.init startNs)).2, ∃ reports, result = .ok reports) ∧
    (∀ data origin frame, frameFromUdpDatagram data origin = .ok frame → CleanFrame frame) ∧
    ∀ reports, .ok reports ∈ (processAll cfg env calls (.init startNs)).2 → ∀ r ∈ reports, ∀ e,
      r.emission = some e → e.emitted = true → ∀ line ∈ e.lines, hasSurrogate line = false :=
  ⟨processAll_total cfg env hgen calls (init_healthy startNs),
    fun _ _ _ h => cleanFrame_of_datagram h, fun _ h => lines_of_processAll calls h⟩

/-- Whatever the built-in producers make, the processor returns. -/
def NeverRaises : Prop :=
  ∀ (cfg : ProcessorConfig) (env : Environment) (startNs : Int)
    (calls : List (IngressFrame × ProcessingSnapshot)),
    (∀ digits n, isDigit (env.gidGenerator digits n) = true) → (∀ n, 0 ≤ env.wallClock n) →
      (∀ call ∈ calls, Produced call.1) →
        ∀ result ∈ (processAll cfg env calls (.init startNs)).2, ∃ reports, result = .ok reports

/-- A text frame whose payload is given. -/
def textCall (payload : PyStr) : IngressFrame × ProcessingSnapshot :=
  (frameFromTextPayload ⟨str "udpsec", str "a", none, some (str "10.0.0.1"), str "a"⟩ payload,
    oneTarget)

def fixedGidEnvironment : Environment := { stillEnvironment with gidGenerator := fun _ _ => str "1" }

lemma fixedGidEnvironment_gid (digits n : Nat) :
    isDigit (fixedGidEnvironment.gidGenerator digits n) = true := by
  change isDigit (str "1") = true
  decide

lemma processAll_singleton (cfg : ProcessorConfig) (env : Environment)
    (call : IngressFrame × ProcessingSnapshot) (p : Processor) :
    (processAll cfg env [call] p).2 = [(process cfg env p call.1 call.2).2] := rfl

theorem never_raises_text : ∃ reports, (processAll taggedConfig fixedGidEnvironment
    [textCall (str "!AIVDM,1,1,,A,p,0*00")] (.init 0)).2 = [.ok reports] := by
  have hclean : CleanFrame (textCall (str "!AIVDM,1,1,,A,p,0*00")).1 := by
    intro sentences hparse parsed hparsed _ text htext
    have htexts : (parseFrameSentences (textCall (str "!AIVDM,1,1,,A,p,0*00")).1 true).map
        (List.map ParsedSentence.text) = .ok [.ok (str "!AIVDM,1,1,,A,p,0*00")] := by decide +kernel
    rw [hparse, Except.map, Except.ok.injEq] at htexts
    have hmem : parsed.text ∈ sentences.map ParsedSentence.text := List.mem_map_of_mem hparsed
    rw [htexts, htext, List.mem_singleton] at hmem
    rw [Except.ok.inj hmem]
    decide
  have hcalls : ∀ call ∈ [textCall (str "!AIVDM,1,1,,A,p,0*00")], Produced call.1 ∧ CleanFrame call.1 := by
    intro call hcall
    rw [List.mem_singleton.mp hcall]
    exact ⟨.textPayload _ _, hclean⟩
  have hall := (@never_raises taggedConfig fixedGidEnvironment 0 fixedGidEnvironment_gid
    [textCall (str "!AIVDM,1,1,,A,p,0*00")]).1 hcalls
  rw [processAll_singleton] at hall ⊢
  obtain ⟨reports, hreports⟩ := hall _ (List.mem_singleton.mpr rfl)
  exact ⟨reports, by rw [hreports]⟩

/-- A fragment with an unpaired surrogate makes the strict encoder raise. -/
theorem not_neverRaises : ¬NeverRaises := by
  intro h
  have hraises : (processAll taggedConfig fixedGidEnvironment
      [textCall (str "!AIVDM,1,1,,A," ++ [0xD800] ++ str ",0*00")] (.init 0)).2 =
        [.error .unicodeEncodeError] := by decide +kernel
  obtain ⟨reports, hreports⟩ := h taggedConfig fixedGidEnvironment 0
    [textCall (str "!AIVDM,1,1,,A," ++ [0xD800] ++ str ",0*00")] fixedGidEnvironment_gid
    (fun _ => by change (0 : ℚ) ≤ 1000; norm_num) (by
      intro call hcall
      rw [List.mem_singleton.mp hcall]
      exact .textPayload _ _)
    (.error .unicodeEncodeError) (by rw [hraises]; simp)
  cases hreports

end Processor

end AisMixer

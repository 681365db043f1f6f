import AisMixer.DataPlane.MetaCleaner
import AisMixer.Library.Scanning
import AisMixer.Library.Utf8Replace

/-!
# What the proxy takes from a payload

`nmea_sproxy/meta_cleaner.py` has a pattern of its own, `!AIVD[MO],[^\r\n]*?\*[0-9A-F]{2}`: one talker,
and no lower-case digit in a checksum. The sentences that `forward_input_payload` sends are compared
with those that the scanner of the mixer finds in the same text.
-/

namespace AisMixer.Sproxy

open AisMixer.Library

/-! ### The two patterns -/

/-- The length of `[^\r\n]*?\*` and two digits at the head of the text, with a lazy body. -/
def markedLength (digit : CodePoint → Bool) : PyStr → Option Nat
  | [] => none
  | c :: rest =>
    if c = 0x2A ∧ (rest.take 2).length = 2 ∧ (rest.take 2).all digit then some 3
    else if c = 0x0D ∨ c = 0x0A then none
    else (markedLength digit rest).map (· + 1)

/-- The length of a header and a marked body at the head of the text. -/
def sentenceLength (headers : List PyStr) (digit : CodePoint → Bool) (line : PyStr) : Option Nat :=
  if line.take 7 ∈ headers then (markedLength digit (line.drop 7)).map (· + 7) else none

/-- `!AIVD[MO],` -/
def aiHeaders : List PyStr := [str "!AIVDM,", str "!AIVDO,"]

/-- `[0-9A-F]` -/
def isUpperHexDigit (c : CodePoint) : Bool :=
  0x30 ≤ c.val && c.val ≤ 0x39 || 0x41 ≤ c.val && c.val ≤ 0x46

/-- The pattern of the proxy. -/
def matchLength (line : PyStr) : Option Nat := sentenceLength aiHeaders isUpperHexDigit line

def extractNmeaSentences (line : PyStr) : List PyStr := findAll matchLength 0 line

/-- The text of a payload, as the proxy reads it. -/
def payloadText (data : Bytes) : PyStr := strip (decodeReplace data)

def iterForwardableNmeaSentences (data : Bytes) : List PyStr := extractNmeaSentences (payloadText data)

section Forwarding

variable {σ : Type} (sendSentence : σ → PyStr → σ × Except PyException Unit)

/-- The loop over the sentences; an exception of `send_sentence` ends it. -/
def forwardSentences : List PyStr → σ → σ × Except PyException Unit
  | [], s => (s, .ok ())
  | cleanLine :: rest, s =>
    if cleanLine.isEmpty then forwardSentences rest s
    else
      match sendSentence s cleanLine with
      | (s, .error e) => (s, .error e)
      | (s, .ok ()) => forwardSentences rest s

def forwardInputPayload (data : Bytes) (s : σ) : σ × Except PyException Unit :=
  forwardSentences sendSentence (iterForwardableNmeaSentences data) s

end Forwarding

/-- A sender that keeps what it is given. -/
def record (sent : List PyStr) (sentence : PyStr) : List PyStr × Except PyException Unit :=
  (sent ++ [sentence], .ok ())

/-! ### Marks -/

section Marks

variable {digit : CodePoint → Bool}

lemma markedLength_eq_some {rest : PyStr} {n : Nat} (h : markedLength digit rest = some n) :
    ∃ body a b after, rest = body ++ 0x2A :: a :: b :: after ∧ n = body.length + 3 ∧
      digit a = true ∧ digit b = true := by
  induction rest generalizing n with
  | nil => cases h
  | cons c rest ih =>
    rw [markedLength] at h
    split at h
    · next hend =>
      obtain ⟨rfl, hlength, hdigits⟩ := hend
      obtain ⟨a, b, hab⟩ := List.length_eq_two.mp hlength
      rw [hab] at hdigits
      simp only [List.all_cons, List.all_nil, Bool.and_true, Bool.and_eq_true] at hdigits
      obtain rfl := Option.some.inj h
      refine ⟨[], a, b, rest.drop 2, ?_, rfl, hdigits.1, hdigits.2⟩
      have hsplit := List.take_append_drop 2 rest
      rw [hab] at hsplit
      exact congrArg _ hsplit.symm
    · split at h
      · cases h
      · obtain ⟨m, hm, rfl⟩ := Option.map_eq_some_iff.mp h
        obtain ⟨body, a, b, after, rfl, rfl, ha, hb⟩ := ih hm
        exact ⟨c :: body, a, b, after, rfl, rfl, ha, hb⟩

/-- What is left of a match after some of its body is matched with the same end. -/
lemma markedLength_drop {rest : PyStr} {n k : Nat} (h : markedLength digit rest = some n)
    (hk : k + 3 ≤ n) : markedLength digit (rest.drop k) = some (n - k) := by
  induction k generalizing rest n with
  | zero => exact h
  | succ k ih =>
    cases rest with
    | nil => cases h
    | cons c rest =>
      rw [markedLength] at h
      split at h
      · obtain rfl := Option.some.inj h
        omega
      · split at h
        · cases h
        · obtain ⟨m, hm, rfl⟩ := Option.map_eq_some_iff.mp h
          rw [Nat.add_sub_add_right]
          exact ih hm (by omega)

end Marks

/-! ### Headers -/

/-- A header is seven characters of which only the first is `!` and none is `*`. -/
structure IsHeader (header : PyStr) : Prop where
  length : header.length = 7
  bang : header[0]? = some 0x21
  no_bang : ∀ i : Nat, 0 < i → header[i]? ≠ some 0x21
  no_star : ∀ i : Nat, header[i]? ≠ some 0x2A

lemma isHeader_of_mem {header : PyStr} (h : header ∈ aiHeaders) : IsHeader header := by
  have hlength : header.length = 7 := by
    revert header
    decide
  have hfirst : ∀ header ∈ aiHeaders, header[0]? = some (0x21 : CodePoint) := by decide
  have hlater : ∀ header ∈ aiHeaders, ∀ i < 7, (0 < i → header[i]? ≠ some (0x21 : CodePoint)) ∧
      header[i]? ≠ some (0x2A : CodePoint) := by decide
  have hnone : ∀ i, 7 ≤ i → header[i]? = none := by
    intro i hi
    rw [List.getElem?_eq_none_iff]
    omega
  refine ⟨hlength, hfirst header h, ?_, ?_⟩
  · intro i hpos
    by_cases hi : i < 7
    · exact (hlater header h i hi).1 hpos
    · simp [hnone i (by omega)]
  · intro i
    by_cases hi : i < 7
    · exact (hlater header h i hi).2
    · simp [hnone i (by omega)]

lemma sentenceLength_eq_some {headers : List PyStr} {digit : CodePoint → Bool} {line : PyStr} {n : Nat} :
    sentenceLength headers digit line = some n ↔
      line.take 7 ∈ headers ∧ ∃ m, markedLength digit (line.drop 7) = some m ∧ m + 7 = n := by
  unfold sentenceLength
  split
  · next hheader => simp [hheader]
  · next hheader => simp [hheader]

/-- A header within a sentence is followed by the same checksum. -/
theorem nested_sentenceLength {digit : CodePoint → Bool} (hbang : digit 0x21 = false) :
    Nested (sentenceLength aiHeaders digit) := by
  intro text n k r h hk h'
  rcases Nat.eq_zero_or_pos k with rfl | hpos
  · rw [List.drop_zero, h] at h'
    rw [Nat.zero_add]
    exact (Option.some.inj h').symm
  obtain ⟨hheader, m, hm, rfl⟩ := sentenceLength_eq_some.mp h
  obtain ⟨hheader', m', hm', rfl⟩ := sentenceLength_eq_some.mp h'
  have houter := isHeader_of_mem hheader
  have hinner := isHeader_of_mem hheader'
  have hinnerAt : ∀ i < 7, ((text.drop k).take 7)[i]? = text[k + i]? := by
    intro i hi
    rw [List.getElem?_take_of_lt hi, List.getElem?_drop]
  have hbangAt : text[k]? = some 0x21 := by
    rw [← hinner.bang, hinnerAt 0 (by omega), Nat.add_zero]
  have hseven : 7 ≤ k := by
    by_contra hlt
    apply houter.no_bang k hpos
    rw [List.getElem?_take_of_lt (by omega)]
    exact hbangAt
  obtain ⟨body, a, b, after, hbody, rfl, ha, hb⟩ := markedLength_eq_some hm
  have hmark : ∀ i, text[7 + body.length + i]? = (0x2A :: a :: b :: after)[i]? := by
    intro i
    have hat : (text.drop 7)[body.length + i]? = (0x2A :: a :: b :: after)[i]? := by
      rw [hbody, List.getElem?_append_right (by omega), Nat.add_sub_cancel_left]
    rwa [List.getElem?_drop, ← Nat.add_assoc] at hat
  have hbefore : k < 7 + body.length := by
    by_contra hle
    obtain ⟨i, rfl⟩ : ∃ i, k = 7 + body.length + i := ⟨k - (7 + body.length), by omega⟩
    rw [hmark i] at hbangAt
    match i with
    | 0 => exact absurd (Option.some.inj hbangAt) (by decide)
    | 1 =>
      obtain rfl : a = 0x21 := Option.some.inj hbangAt
      exact Bool.false_ne_true (hbang.symm.trans ha)
    | 2 =>
      obtain rfl : b = 0x21 := Option.some.inj hbangAt
      exact Bool.false_ne_true (hbang.symm.trans hb)
    | i + 3 => omega
  have hclear : k ≤ body.length := by
    by_contra hgt
    apply hinner.no_star (7 + body.length - k)
    rw [hinnerAt _ (by omega), Nat.add_sub_cancel' hbefore.le]
    exact hmark 0
  have hrest := markedLength_drop hm (k := k) (by omega)
  rw [List.drop_drop, Nat.add_comm 7 k, ← List.drop_drop, hm'] at hrest
  have hsame := Option.some.inj hrest
  omega

/-! ### Upper and lower case -/

/-- The body of a sentence up to its first checksum: no line break, and no checksum before. -/
def Unmarked (body : PyStr) : Prop :=
  (∀ c ∈ body, c ≠ 0x0D ∧ c ≠ 0x0A) ∧ ∀ front a b back, body = front ++ 0x2A :: a :: b :: back →
    ¬(MetaCleaner.isHexDigit a = true ∧ MetaCleaner.isHexDigit b = true)

/-- The first checksum after every AI header is in upper case, if there is one on its line. -/
def UpperCaseChecksums (text : PyStr) : Prop :=
  ∀ before header body a b after, text = before ++ header ++ body ++ 0x2A :: a :: b :: after →
    header ∈ aiHeaders → Unmarked body → MetaCleaner.isHexDigit a = true →
    MetaCleaner.isHexDigit b = true → isUpperHexDigit a = true ∧ isUpperHexDigit b = true

lemma isHexDigit_of_upper {c : CodePoint} (h : isUpperHexDigit c = true) :
    MetaCleaner.isHexDigit c = true := by
  simp only [isUpperHexDigit, MetaCleaner.isHexDigit, Bool.or_eq_true] at h ⊢
  exact .inl h

lemma Unmarked.tail {c : CodePoint} {body : PyStr} (h : Unmarked (c :: body)) : Unmarked body := by
  refine ⟨fun d hd => h.1 d (List.mem_cons_of_mem c hd), ?_⟩
  intro front a b back hbody
  exact h.2 (c :: front) a b back (congrArg (c :: ·) hbody)

/-- Two digits after the head of the text. -/
lemma take_two_iff {digit : CodePoint → Bool} {rest : PyStr} :
    ((rest.take 2).length = 2 ∧ (rest.take 2).all digit = true) ↔
      ∃ a b after, rest = a :: b :: after ∧ digit a = true ∧ digit b = true := by
  match rest with
  | [] => simp
  | [a] => simp
  | a :: b :: after => simp

lemma markedLength_of_unmarked {body : PyStr} {a b : CodePoint} (after : PyStr) (h : Unmarked body)
    (ha : MetaCleaner.isHexDigit a = true) (hb : MetaCleaner.isHexDigit b = true) :
    markedLength MetaCleaner.isHexDigit (body ++ 0x2A :: a :: b :: after) = some (body.length + 3) := by
  induction body with
  | nil =>
    rw [List.nil_append, markedLength, if_pos ⟨rfl, take_two_iff.mpr ⟨a, b, after, rfl, ha, hb⟩⟩]
    rfl
  | cons c body ih =>
    have hnotEnd : ¬(c = 0x2A ∧ ((body ++ 0x2A :: a :: b :: after).take 2).length = 2 ∧
        ((body ++ 0x2A :: a :: b :: after).take 2).all MetaCleaner.isHexDigit) := by
      rintro ⟨rfl, hdigits⟩
      obtain ⟨x, y, z, hxy, hx, hy⟩ := take_two_iff.mp hdigits
      have hstar : MetaCleaner.isHexDigit 0x2A = false := by decide
      match body, hxy with
      | [], hxy =>
        obtain rfl := (List.cons.inj hxy).1
        exact Bool.false_ne_true (hstar.symm.trans hx)
      | [_], hxy =>
        obtain rfl := (List.cons.inj (List.cons.inj hxy).2).1
        exact Bool.false_ne_true (hstar.symm.trans hy)
      | x' :: y' :: back, hxy =>
        obtain ⟨rfl, hrest⟩ := List.cons.inj hxy
        obtain ⟨rfl, -⟩ := List.cons.inj hrest
        exact h.2 [] x' y' back rfl ⟨hx, hy⟩
    have hbreak : ¬(c = 0x0D ∨ c = 0x0A) := by
      have hc := h.1 c (List.mem_cons_self ..)
      rintro (hcr | hlf)
      · exact hc.1 hcr
      · exact hc.2 hlf
    rw [List.cons_append, markedLength, if_neg hnotEnd, if_neg hbreak, ih h.tail]
    rfl

/-- The two bodies end alike when the first checksum is in upper case. -/
lemma markedLength_upper {rest : PyStr}
    (h : ∀ body a b after, rest = body ++ 0x2A :: a :: b :: after → Unmarked body →
      MetaCleaner.isHexDigit a = true → MetaCleaner.isHexDigit b = true →
      isUpperHexDigit a = true ∧ isUpperHexDigit b = true) :
    markedLength isUpperHexDigit rest = markedLength MetaCleaner.isHexDigit rest := by
  induction rest with
  | nil => rfl
  | cons c rest ih =>
    have hend : (c = 0x2A ∧ (rest.take 2).length = 2 ∧ (rest.take 2).all isUpperHexDigit = true) ↔
        (c = 0x2A ∧ (rest.take 2).length = 2 ∧ (rest.take 2).all MetaCleaner.isHexDigit = true) := by
      rw [take_two_iff, take_two_iff]
      constructor
      · rintro ⟨hc, a, b, after, hrest, ha, hb⟩
        exact ⟨hc, a, b, after, hrest, isHexDigit_of_upper ha, isHexDigit_of_upper hb⟩
      · rintro ⟨hc, a, b, after, hrest, ha, hb⟩
        have hnil : Unmarked [] := ⟨by simp, by simp⟩
        have hupper := h [] a b after (by rw [hc, hrest]; rfl) hnil ha hb
        exact ⟨hc, a, b, after, hrest, hupper.1, hupper.2⟩
    rw [markedLength, markedLength]
    by_cases hmark : c = 0x2A ∧ (rest.take 2).length = 2 ∧ (rest.take 2).all MetaCleaner.isHexDigit = true
    · rw [if_pos hmark, if_pos (hend.mpr hmark)]
    · rw [if_neg hmark, if_neg (mt hend.mp hmark)]
      split
      · rfl
      · next hbreak =>
        congr 1
        apply ih
        intro body a b after hrest hbody
        apply h (c :: body) a b after (congrArg (c :: ·) hrest)
        refine ⟨?_, ?_⟩
        · intro d hd
          rcases List.mem_cons.mp hd with rfl | hd
          · exact not_or.mp hbreak
          · exact hbody.1 d hd
        · intro front x y back hsplit hxy
          cases front with
          | nil =>
            obtain ⟨hc, hback⟩ := List.cons.inj hsplit
            apply hmark
            refine ⟨hc, take_two_iff.mpr ⟨x, y, back ++ 0x2A :: a :: b :: after, ?_, hxy⟩⟩
            rw [hrest, hback]
            rfl
          | cons d front => exact hbody.2 front x y back (List.cons.inj hsplit).2 hxy

/-! ### The sentences of the two patterns -/

/-- The proxy finds what a pattern with both cases finds, if and only if the checksums that come first
are in upper case. -/
theorem extractNmeaSentences_eq_iff (text : PyStr) :
    extractNmeaSentences text = findAll (sentenceLength aiHeaders MetaCleaner.isHexDigit) 0 text ↔
      UpperCaseChecksums text := by
  constructor
  · intro heq before header body a b after htext hheader hbody ha hb
    have hlength := (isHeader_of_mem hheader).length
    have hdrop : text.drop before.length = header ++ (body ++ 0x2A :: a :: b :: after) := by
      rw [htext, List.append_assoc, List.append_assoc, List.drop_left]
    have hmatch : sentenceLength aiHeaders MetaCleaner.isHexDigit (text.drop before.length) =
        some (body.length + 3 + 7) := by
      rw [sentenceLength_eq_some, hdrop, List.take_left' hlength, List.drop_left' hlength]
      exact ⟨hheader, _, markedLength_of_unmarked after hbody ha hb, rfl⟩
    have hlt : before.length < text.length := by
      rw [htext]
      simp only [List.length_append, List.length_cons]
      omega
    obtain ⟨s, hs, hend⟩ := findAll_covers (nested_sentenceLength (by decide)) (Nat.zero_le _) hlt hmatch
    rw [← heq] at hs
    obtain ⟨line, n, hline, rfl⟩ := exists_of_mem_findAll hs
    obtain ⟨-, m, hm, rfl⟩ := sentenceLength_eq_some.mp hline
    obtain ⟨body', a', b', after', hline', rfl, ha', hb'⟩ := markedLength_eq_some hm
    have hmixer : (text.drop before.length).take (body.length + 3 + 7) =
        header ++ body ++ [0x2A, a, b] := by
      have hcut : header ++ (body ++ 0x2A :: a :: b :: after) =
          (header ++ body ++ [0x2A, a, b]) ++ after := by simp
      rw [hdrop, hcut, List.take_left']
      simp only [List.length_append, List.length_cons, List.length_nil]
      omega
    have hproxy : line.take (body'.length + 3 + 7) = line.take 7 ++ body' ++ [0x2A, a', b'] := by
      have hcut : line = (line.take 7 ++ body' ++ [0x2A, a', b']) ++ after' := by
        conv_lhs => rw [← List.take_append_drop 7 line, hline']
        simp
      have hseven : (line.take 7).length = 7 :=
        (isHeader_of_mem (sentenceLength_eq_some.mp hline).1).length
      conv_lhs => rw [hcut]
      rw [List.take_left']
      simp only [List.length_append, List.length_cons, List.length_nil]
      omega
    rw [hmixer, hproxy] at hend
    have hlast := List.suffix_of_suffix_length_le
      (List.IsSuffix.trans (List.suffix_append _ [0x2A, a, b]) hend)
      (List.suffix_append (line.take 7 ++ body') [0x2A, a', b']) le_rfl
    have hsame := hlast.eq_of_length rfl
    simp only [List.cons.injEq, true_and, and_true] at hsame
    rw [hsame.1, hsame.2]
    exact ⟨ha', hb'⟩
  · intro hupper
    apply findAll_congr
    intro line hline
    obtain ⟨before, htext⟩ := hline
    unfold matchLength sentenceLength
    by_cases hheader : line.take 7 ∈ aiHeaders
    · rw [if_pos hheader, if_pos hheader]
      congr 1
      apply markedLength_upper
      intro body a b after hrest
      apply hupper before (line.take 7) body a b after _ hheader
      rw [List.append_assoc, List.append_assoc, ← hrest, List.take_append_drop]
      exact htext.symm
    · rw [if_neg hheader, if_neg hheader]

/-! ### The scanner of the mixer -/

/-- No header of another talker is in the text. -/
def OnlyAiTalker (text : PyStr) : Prop :=
  ∀ header ∈ MetaCleaner.headers true, header ∉ aiHeaders → ¬header <:+: text

instance decidable_onlyAiTalker (text : PyStr) : Decidable (OnlyAiTalker text) :=
  inferInstanceAs (Decidable (∀ header ∈ MetaCleaner.headers true, header ∉ aiHeaders → ¬header <:+: text))

lemma markedLength_mixer (rest : PyStr) :
    MetaCleaner.bodyLength rest = markedLength MetaCleaner.isHexDigit rest := by
  induction rest with
  | nil => rfl
  | cons c rest ih => rw [MetaCleaner.bodyLength, markedLength, ih]

lemma aiHeaders_subset : aiHeaders ⊆ MetaCleaner.headers true := by decide

lemma matchLength_mixer {text line : PyStr} (honly : OnlyAiTalker text) (hline : line <:+ text) :
    MetaCleaner.matchLength true line = sentenceLength aiHeaders MetaCleaner.isHexDigit line := by
  have hheader : MetaCleaner.isHeader true (line.take 7) = true ↔ line.take 7 ∈ aiHeaders := by
    rw [MetaCleaner.isHeader_iff]
    constructor
    · intro hmem
      by_contra hother
      exact honly _ hmem hother ((List.take_prefix 7 line).isInfix.trans hline.isInfix)
    · exact fun hmem => aiHeaders_subset hmem
  unfold MetaCleaner.matchLength sentenceLength
  simp only [hheader, markedLength_mixer]

/-- The texts of the spans that the scanner takes. -/
lemma findMatches_texts (includeVdo : Bool) (text : PyStr) : ∀ (front : PyStr) (consumed : Nat),
    (MetaCleaner.findMatches includeVdo front.length consumed text).map
        (fun span => ((front ++ text).take span.2).drop span.1) =
      findAll (MetaCleaner.matchLength includeVdo) consumed text := by
  induction text with
  | nil => exact fun _ _ => rfl
  | cons c rest ih =>
    intro front consumed
    have hnext := ih (front ++ [c])
    rw [List.length_append, List.length_singleton, List.append_assoc, List.singleton_append] at hnext
    cases consumed with
    | succ consumed => exact hnext consumed
    | zero =>
      rw [MetaCleaner.findMatches, findAll]
      cases hm : MetaCleaner.matchLength includeVdo (c :: rest) with
      | none => exact hnext 0
      | some n =>
        rw [List.map_cons, hnext (n - 1)]
        congr 1
        rw [List.take_length_add_append, List.drop_left]

/-- The sentence of a match, as text. -/
def sentenceText (payload : Bytes) (m : NMEAScanMatch) : Option PyStr :=
  decodeUtf8 ((payload.take m.sentenceSpan.stop).drop m.sentenceSpan.start)

/-- The scanner finds in the encoding of a text what its pattern finds in the text. -/
lemma scanNmeaSentences_texts {text : PyStr} (hclean : hasSurrogate text = false) :
    ∃ payload ms, encodeUtf8 text = some payload ∧ scanNmeaSentences payload true = .ok ms ∧
      ms.map (sentenceText payload) = (findAll (MetaCleaner.matchLength true) 0 text).map some := by
  obtain ⟨payload, ms, slices, hpayload, hms, hslices, hall⟩ :=
    MetaCleaner.scanNmeaSentences_agrees text true hclean
  refine ⟨payload, ms, hpayload, hms, ?_⟩
  have htexts : ms.map (sentenceText payload) =
      slices.map (fun slice => some ((text.take slice.stop).drop slice.start)) := by
    clear hms hslices
    induction hall with
    | nil => rfl
    | cons hsame _ ih => rw [List.map_cons, List.map_cons, ih, sentenceText, hsame.sentence.decodes]
  have hspans : slices = (MetaCleaner.findMatches true 0 0 text).map (MetaCleaner.sliceOf text) :=
    (Sum.inr.inj hslices).symm
  have hfind : (MetaCleaner.findMatches true 0 0 text).map
      (fun span => (text.take span.2).drop span.1) = findAll (MetaCleaner.matchLength true) 0 text :=
    findMatches_texts true text [] 0
  rw [htexts, hspans, ← hfind, List.map_map, List.map_map]
  congr 1
  funext span
  obtain ⟨hstart, hstop⟩ := MetaCleaner.sliceOf_span text span
  simp only [Function.comp_apply, hstart, hstop]

lemma hasSurrogate_strip {s : PyStr} (h : hasSurrogate s = false) : hasSurrogate (strip s) = false := by
  rw [hasSurrogate, List.any_eq_false] at h ⊢
  intro c hc
  apply h c
  rw [strip, List.mem_reverse] at hc
  have hmem := (List.dropWhile_suffix _).mem hc
  rw [List.mem_reverse] at hmem
  exact (List.dropWhile_suffix _).mem hmem

/-! ### What is sent -/

lemma forwardSentences_record {sentences : List PyStr} (h : ∀ s ∈ sentences, s ≠ []) (sent : List PyStr) :
    forwardSentences record sentences sent = (sent ++ sentences, .ok ()) := by
  induction sentences generalizing sent with
  | nil => rw [List.append_nil]; rfl
  | cons s rest ih =>
    obtain ⟨hs, hrest⟩ := List.forall_mem_cons.mp h
    have hfull : ¬s.isEmpty = true := by simpa using hs
    rw [forwardSentences, if_neg hfull]
    simp only [record]
    rw [ih hrest, List.append_assoc]
    rfl

lemma ne_nil_of_mem_extract {text s : PyStr} (h : s ∈ extractNmeaSentences text) : s ≠ [] := by
  obtain ⟨line, n, hline, rfl⟩ := exists_of_mem_findAll h
  obtain ⟨hheader, m, -, rfl⟩ := sentenceLength_eq_some.mp hline
  have hseven := (isHeader_of_mem hheader).length
  rw [List.length_take] at hseven
  apply List.ne_nil_of_length_pos
  rw [List.length_take]
  omega

/-- In a payload with no talker but AI, the sentences that the proxy sends are those that the scanner
finds in the same text, in the same order, if and only if each checksum that is the first after an AI
header is in upper case. -/
theorem forwarded_eq_scanned_iff (data : Bytes) (honly : OnlyAiTalker (payloadText data)) :
    ∃ payload ms, encodeUtf8 (payloadText data) = some payload ∧
      scanNmeaSentences payload true = .ok ms ∧
      forwardInputPayload record data [] = (iterForwardableNmeaSentences data, .ok ()) ∧
      ((iterForwardableNmeaSentences data).map some = ms.map (sentenceText payload) ↔
        UpperCaseChecksums (payloadText data)) := by
  have hclean : hasSurrogate (payloadText data) = false :=
    hasSurrogate_strip (hasSurrogate_decodeReplace data)
  obtain ⟨payload, ms, hpayload, hms, htexts⟩ := scanNmeaSentences_texts hclean
  have hscan : findAll (MetaCleaner.matchLength true) 0 (payloadText data) =
      findAll (sentenceLength aiHeaders MetaCleaner.isHexDigit) 0 (payloadText data) :=
    findAll_congr (fun line hline => matchLength_mixer honly hline) 0
  have hsent : forwardInputPayload record data [] = (iterForwardableNmeaSentences data, .ok ()) :=
    forwardSentences_record (fun s hs => ne_nil_of_mem_extract hs) []
  have hmap : (iterForwardableNmeaSentences data).map some = ms.map (sentenceText payload) ↔
      extractNmeaSentences (payloadText data) =
        findAll (sentenceLength aiHeaders MetaCleaner.isHexDigit) 0 (payloadText data) := by
    rw [htexts, hscan]
    exact (List.map_injective_iff.mpr (Option.some_injective _)).eq_iff
  exact ⟨payload, ms, hpayload, hms, hsent, hmap.trans (extractNmeaSentences_eq_iff _)⟩

theorem forwarded_eq_scanned_iff_upper :
    OnlyAiTalker (payloadText (ascii "!AIVDM,1,1,,A,p,0*1A\r\n")) ∧
    ∃ payload ms, encodeUtf8 (payloadText (ascii "!AIVDM,1,1,,A,p,0*1A\r\n")) = some payload ∧
      scanNmeaSentences payload true = .ok ms ∧
      forwardInputPayload record (ascii "!AIVDM,1,1,,A,p,0*1A\r\n") [] =
        (iterForwardableNmeaSentences (ascii "!AIVDM,1,1,,A,p,0*1A\r\n"), .ok ()) ∧
      ((iterForwardableNmeaSentences (ascii "!AIVDM,1,1,,A,p,0*1A\r\n")).map some =
          ms.map (sentenceText payload) ↔
        UpperCaseChecksums (payloadText (ascii "!AIVDM,1,1,,A,p,0*1A\r\n"))) := by
  have honly : OnlyAiTalker (payloadText (ascii "!AIVDM,1,1,,A,p,0*1A\r\n")) := by decide +kernel
  exact ⟨honly, forwarded_eq_scanned_iff _ honly⟩

/-- A sentence with a checksum in lower case is dropped, though the scanner finds it. -/
theorem lower_case_checksum_dropped :
    OnlyAiTalker (payloadText (ascii "!AIVDM,1,1,,A,p,0*1a")) ∧
      iterForwardableNmeaSentences (ascii "!AIVDM,1,1,,A,p,0*1a") = [] ∧
      encodeUtf8 (payloadText (ascii "!AIVDM,1,1,,A,p,0*1a")) = some (ascii "!AIVDM,1,1,,A,p,0*1a") ∧
      scanNmeaSentences (ascii "!AIVDM,1,1,,A,p,0*1a") true =
        .ok [⟨⟨0, 20, by decide⟩, none⟩] := by
  decide +kernel

end AisMixer.Sproxy

import AisMixer.DataPlane.NmeaScanner
import AisMixer.Library.Utf8Index

/-!
# The text extractor

`extract_nmea_sentences` of `meta_cleaner.py`, and its agreement with the scanner over octets. The
pattern looks for ASCII characters and skips all others, and the octets of other characters are no
ASCII octets, so both find the same matches at corresponding positions.
-/

namespace AisMixer
open Library

namespace MetaCleaner

/-- Indices into the line; `tagStart` and `tagEnd` are `-1` without a TAG block, and `tagEnd` is the
place of the backslash before the sentence. -/
structure NMEASlice where
  start : Nat
  stop : Nat
  tagStart : Int
  tagEnd : Int
  deriving DecidableEq

def aisTalkers : List PyStr :=
  [str "AI", str "AB", str "AD", str "AN", str "AR", str "AS", str "AT", str "AX", str "BS"]

/-- `!`, a talker, `VDM` (or `VDO`) and a comma. -/
def isHeader (includeVdo : Bool) (head : PyStr) : Bool :=
  aisTalkers.any (fun talker =>
    head == 0x21 :: talker ++ str "VDM," || includeVdo && head == 0x21 :: talker ++ str "VDO,")

def isHexDigit (c : CodePoint) : Bool :=
  0x30 ≤ c.val && c.val ≤ 0x39 || 0x41 ≤ c.val && c.val ≤ 0x46 || 0x61 ≤ c.val && c.val ≤ 0x66

/-- The length of `[^\r\n]*?\*[0-9A-Fa-f]{2}` at the head of the text, with a lazy body. -/
def bodyLength : PyStr → Option Nat
  | [] => none
  | c :: rest =>
    if c = 0x2A ∧ (rest.take 2).length = 2 ∧ (rest.take 2).all isHexDigit then some 3
    else if c = 0x0D ∨ c = 0x0A then none
    else (bodyLength rest).map (· + 1)

/-- The length of a match of the pattern at the head of the text. -/
def matchLength (includeVdo : Bool) (line : PyStr) : Option Nat :=
  if isHeader includeVdo (line.take 7) then (bodyLength (line.drop 7)).map (· + 7) else none

/-- The spans of `finditer` in what remains of a line at `position`, of which the next `consumed`
characters belong to the previous match. -/
def findMatches (includeVdo : Bool) (position consumed : Nat) : PyStr → List (Nat × Nat)
  | [] => []
  | c :: rest =>
    match consumed with
    | consumed + 1 => findMatches includeVdo (position + 1) consumed rest
    | 0 =>
      match matchLength includeVdo (c :: rest) with
      | none => findMatches includeVdo (position + 1) 0 rest
      | some length =>
        (position, position + length) :: findMatches includeVdo (position + 1) (length - 1) rest

/-- The slice of a match, with the TAG block that touches it. -/
def sliceOf (line : PyStr) (span : Nat × Nat) : NMEASlice :=
  let s := span.1
  if 0 < s ∧ (line)[s - 1]? = some 0x5C then
    match lastIndex line 0x5C (s - 1) with
    | some ts => ⟨s, span.2, ts, (s - 1 : Nat)⟩
    | none => ⟨s, span.2, -1, -1⟩
  else ⟨s, span.2, -1, -1⟩

/-- `extract_nmea_sentences(line, want_idx, include_vdo)`. -/
def extractNmeaSentences (line : PyStr) (wantIdx includeVdo : Bool) : List PyStr ⊕ List NMEASlice :=
  let spans := findMatches includeVdo 0 0 line
  if wantIdx then .inr (spans.map (sliceOf line))
  else .inl (spans.map (fun span => (line.take span.2).drop span.1))

/-! ### The pattern over text and over its encoding -/

lemma encode_aisTalkers : AisMixer.aisTalkers = aisTalkers.map encodeSurrogatepass := by decide

/-- The headers of the pattern. -/
def headers (includeVdo : Bool) : List PyStr :=
  aisTalkers.flatMap (fun talker => ((0x21 : CodePoint) :: talker ++ str "VDM,") ::
    if includeVdo then [(0x21 : CodePoint) :: talker ++ str "VDO,"] else [])

/-- They are seven ASCII characters each. -/
lemma headers_ascii (includeVdo : Bool) : ∀ header ∈ headers includeVdo,
    header.length = 7 ∧ header.all (fun c => c.val < 0x80) = true := by
  cases includeVdo <;> decide

lemma isHeader_iff {includeVdo : Bool} {head : PyStr} :
    isHeader includeVdo head = true ↔ head ∈ headers includeVdo := by
  simp only [isHeader, headers, List.any_eq_true, List.mem_flatMap, Bool.or_eq_true, Bool.and_eq_true,
    beq_iff_eq]
  cases includeVdo <;> simp

lemma isHeader_bytes_iff {includeVdo : Bool} {head : Bytes} :
    AisMixer.isHeader includeVdo head = true ↔
      ∃ header ∈ headers includeVdo, head = encodeSurrogatepass header := by
  have hencode : ∀ talker family : PyStr,
      encodeSurrogatepass ((0x21 : CodePoint) :: talker ++ family) =
        (0x21 : UInt8) :: encodeSurrogatepass talker ++ encodeSurrogatepass family := by
    intro talker family
    rw [List.cons_append, encode_cons, encodeSurrogatepass_append]
    rfl
  have hvdm : ascii "VDM," = encodeSurrogatepass (str "VDM,") := by decide
  have hvdo : ascii "VDO," = encodeSurrogatepass (str "VDO,") := by decide
  simp only [AisMixer.isHeader, headers, encode_aisTalkers, List.any_map, List.any_eq_true,
    List.mem_flatMap, Function.comp_apply, Bool.or_eq_true, Bool.and_eq_true, beq_iff_eq, hvdm, hvdo,
    ← hencode]
  constructor
  · rintro ⟨talker, htalker, hhead | ⟨hvdo, hhead⟩⟩
    · exact ⟨_, ⟨talker, htalker, List.mem_cons_self ..⟩, hhead⟩
    · exact ⟨_, ⟨talker, htalker, by simp [hvdo]⟩, hhead⟩
  · rintro ⟨header, ⟨talker, htalker, hheader⟩, hhead⟩
    rcases List.mem_cons.mp hheader with rfl | hheader
    · exact ⟨talker, htalker, .inl hhead⟩
    · cases includeVdo with
      | false => cases hheader
      | true =>
        obtain rfl := List.mem_singleton.mp hheader
        exact ⟨talker, htalker, .inr ⟨rfl, hhead⟩⟩

lemma isHeader_encode (includeVdo : Bool) (text : PyStr) :
    AisMixer.isHeader includeVdo ((encodeSurrogatepass text).take 7) =
      isHeader includeVdo (text.take 7) := by
  rw [Bool.eq_iff_iff, isHeader_bytes_iff, isHeader_iff]
  have hsame : ∀ header ∈ headers includeVdo,
      ((encodeSurrogatepass text).take 7 = encodeSurrogatepass header ↔ text.take 7 = header) := by
    intro header hmem
    obtain ⟨hlength, hascii⟩ := headers_ascii includeVdo header hmem
    have hiff := @take_encode_eq_iff text header (by simpa using hascii)
    rwa [hlength] at hiff
  constructor
  · rintro ⟨header, hmem, hhead⟩
    rw [(hsame header hmem).mp hhead]
    exact hmem
  · intro hmem
    exact ⟨text.take 7, hmem, (hsame _ hmem).mpr rfl⟩

/-! ### Octets of other characters -/

lemma octets_of_not_ascii {c : CodePoint} (h : ¬c.val < 0x80) : ∀ b ∈ encodeChar c, ¬b.toNat < 0x80 := by
  intro b hb hlt
  obtain ⟨-, hc⟩ := encodeChar_ascii hb hlt
  rw [hc, codePoint_toNat (by omega)] at h
  exact h hlt

lemma octet_eq_iff {c : CodePoint} (hc : c.val < 0x80) {b : UInt8} (hb : b.toNat < 0x80) :
    UInt8.ofNat c.val = b ↔ c = codePoint b.toNat := by
  constructor
  · rintro rfl
    have hnat : (UInt8.ofNat c.val).toNat = c.val := by simp; omega
    exact (codePoint_val c hnat).symm
  · rintro rfl
    exact ofNat_of_toNat (codePoint_toNat (by omega))

lemma isHexDigit_octet {c : CodePoint} (hc : c.val < 0x80) :
    AisMixer.isHexDigit (UInt8.ofNat c.val) = isHexDigit c := by
  have hnat : (UInt8.ofNat c.val).toNat = c.val := by simp; omega
  rw [AisMixer.isHexDigit, isHexDigit, hnat]

lemma ascii_of_isHexDigit {c : CodePoint} (h : isHexDigit c = true) : c.val < 0x80 := by
  simp only [isHexDigit, Bool.or_eq_true, Bool.and_eq_true, decide_eq_true_eq] at h
  omega

lemma ascii_of_isHexDigit_octet {b : UInt8} (h : AisMixer.isHexDigit b = true) : b.toNat < 0x80 := by
  simp only [AisMixer.isHexDigit, Bool.or_eq_true, Bool.and_eq_true, decide_eq_true_eq] at h
  omega

/-- Two hexadecimal digits stand at the head of the octets when they stand at that of the text. -/
lemma hexPair_encode (text : PyStr) :
    (((encodeSurrogatepass text).take 2).length = 2 ∧
      ((encodeSurrogatepass text).take 2).all AisMixer.isHexDigit = true) ↔
    ((text.take 2).length = 2 ∧ (text.take 2).all isHexDigit = true) := by
  constructor
  · rintro ⟨hlength, hhex⟩
    obtain ⟨x, y, hxy⟩ := List.length_eq_two.mp hlength
    rw [hxy] at hhex
    simp only [List.all_cons, List.all_nil, Bool.and_true, Bool.and_eq_true] at hhex
    have hx := ascii_of_isHexDigit_octet hhex.1
    have hy := ascii_of_isHexDigit_octet hhex.2
    have hxval : (codePoint x.toNat).val = x.toNat := codePoint_toNat (by omega)
    have hyval : (codePoint y.toNat).val = y.toNat := codePoint_toNat (by omega)
    have hfront : ∀ c ∈ [codePoint x.toNat, codePoint y.toNat], c.val < 0x80 := by
      simp only [List.forall_mem_cons, hxval, hyval]
      exact ⟨hx, hy, by simp⟩
    have hencode : encodeSurrogatepass [codePoint x.toNat, codePoint y.toNat] = [x, y] := by
      rw [encode_of_ascii hfront]
      simp only [List.map_cons, List.map_nil, ofNat_of_toNat hxval, ofNat_of_toNat hyval]
    have htake : text.take 2 = [codePoint x.toNat, codePoint y.toNat] :=
      (take_encode_eq_iff hfront).mp (hxy.trans hencode.symm)
    rw [htake]
    simp only [List.all_cons, List.all_nil, Bool.and_true, Bool.and_eq_true]
    refine ⟨rfl, ?_, ?_⟩
    · rw [← isHexDigit_octet (by omega), ofNat_of_toNat hxval]
      exact hhex.1
    · rw [← isHexDigit_octet (by omega), ofNat_of_toNat hyval]
      exact hhex.2
  · rintro ⟨hlength, hhex⟩
    obtain ⟨c, d, hcd⟩ := List.length_eq_two.mp hlength
    rw [hcd] at hhex
    simp only [List.all_cons, List.all_nil, Bool.and_true, Bool.and_eq_true] at hhex
    have hc := ascii_of_isHexDigit hhex.1
    have hd := ascii_of_isHexDigit hhex.2
    have hfront : ∀ e ∈ [c, d], e.val < 0x80 := by
      simp only [List.forall_mem_cons]
      exact ⟨hc, hd, by simp⟩
    have htake : (encodeSurrogatepass text).take 2 = encodeSurrogatepass [c, d] :=
      (take_encode_eq_iff hfront).mpr hcd
    rw [htake, encode_of_ascii hfront]
    simp only [List.map_cons, List.map_nil, List.all_cons, List.all_nil, Bool.and_true,
      Bool.and_eq_true, isHexDigit_octet hc, isHexDigit_octet hd]
    exact ⟨rfl, hhex⟩

/-! ### Matches -/

/-- The body runs over octets that are not ASCII. -/
lemma bodyLength_skip {octets : Bytes} (h : ∀ b ∈ octets, ¬b.toNat < 0x80) (rest : Bytes) :
    AisMixer.bodyLength (octets ++ rest) =
      (AisMixer.bodyLength rest).map (fun n => octets.length + n) := by
  induction octets with
  | nil => simp
  | cons b octets ih =>
    obtain ⟨hb, htail⟩ := List.forall_mem_cons.mp h
    have hne : ∀ k : UInt8, k.toNat < 0x80 → b ≠ k := by
      rintro k hk rfl
      exact hb hk
    rw [List.cons_append, AisMixer.bodyLength, if_neg (fun hstar => hne 0x2A (by decide) hstar.1),
      if_neg (not_or.mpr ⟨hne 0x0D (by decide), hne 0x0A (by decide)⟩), ih htail, Option.map_map]
    congr 1
    funext n
    simp only [Function.comp_apply, List.length_cons]
    omega

lemma byteIndex_hexPair {text : PyStr} (hlength : (text.take 2).length = 2)
    (hhex : (text.take 2).all isHexDigit = true) : byteIndex text 2 = 2 := by
  have hascii : ∀ c ∈ text.take 2, c.val < 0x80 := by
    intro c hc
    exact ascii_of_isHexDigit (List.all_eq_true.mp hhex c hc)
  rw [byteIndex, encode_of_ascii hascii, List.length_map, hlength]

/-- The body of a match in the octets is the encoding of that in the text. -/
lemma bodyLength_encode (text : PyStr) :
    AisMixer.bodyLength (encodeSurrogatepass text) = (bodyLength text).map (byteIndex text) := by
  induction text with
  | nil => rfl
  | cons c text ih =>
    by_cases hc : c.val < 0x80
    · have heq : ∀ b : UInt8, b.toNat < 0x80 → (UInt8.ofNat c.val = b ↔ c = codePoint b.toNat) :=
        fun b hb => octet_eq_iff hc hb
      have hstar : UInt8.ofNat c.val = 0x2A ↔ c = 0x2A := heq 0x2A (by decide)
      have hcr : UInt8.ofNat c.val = 0x0D ↔ c = 0x0D := heq 0x0D (by decide)
      have hlf : UInt8.ofNat c.val = 0x0A ↔ c = 0x0A := heq 0x0A (by decide)
      have hlength : (encodeChar c).length = 1 := by rw [encodeChar_of_lt hc]; rfl
      rw [encode_cons, encodeChar_of_lt hc, List.singleton_append, AisMixer.bodyLength, bodyLength]
      simp only [hstar, hcr, hlf, hexPair_encode]
      split
      · next hend =>
        rw [Option.map_some, byteIndex_cons_succ, byteIndex_hexPair hend.2.1 hend.2.2, hlength]
      · split
        · rfl
        · rw [ih, Option.map_map, Option.map_map]
          congr 1
          funext n
          simp only [Function.comp_apply, byteIndex_cons_succ, hlength]
          omega
    · have hne : ∀ k : CodePoint, k.val < 0x80 → c ≠ k := by
        rintro k hk rfl
        exact hc hk
      rw [encode_cons, bodyLength_skip (octets_of_not_ascii hc), ih, bodyLength,
        if_neg (fun hstar => hne 0x2A (by decide) hstar.1),
        if_neg (not_or.mpr ⟨hne 0x0D (by decide), hne 0x0A (by decide)⟩), Option.map_map,
        Option.map_map]
      congr 1
      funext n
      simp only [Function.comp_apply, byteIndex_cons_succ]

/-- A match at the head of the octets is the encoding of one at the head of the text. -/
lemma matchLength_encode (includeVdo : Bool) (text : PyStr) :
    AisMixer.matchLength includeVdo (encodeSurrogatepass text) =
      (matchLength includeVdo text).map (byteIndex text) := by
  rw [AisMixer.matchLength, matchLength, isHeader_encode]
  split
  · next hheader =>
    obtain ⟨hlength, hascii⟩ := headers_ascii includeVdo _ (isHeader_iff.mp hheader)
    have hseven : (encodeSurrogatepass (text.take 7)).length = 7 := by
      rw [encode_of_ascii (by simpa using hascii), List.length_map, hlength]
    have hsplit : encodeSurrogatepass text =
        encodeSurrogatepass (text.take 7) ++ encodeSurrogatepass (text.drop 7) := by
      rw [← encodeSurrogatepass_append, List.take_append_drop]
    have hdrop : (encodeSurrogatepass text).drop 7 = encodeSurrogatepass (text.drop 7) := by
      rw [hsplit, List.drop_left' hseven]
    rw [hdrop, bodyLength_encode, Option.map_map, Option.map_map]
    congr 1
    funext n
    have hindex := byteIndex_append (text.take 7) (text.drop 7) n
    rw [List.take_append_drop, hlength, hseven] at hindex
    simp only [Function.comp_apply]
    rw [Nat.add_comm n 7, hindex, Nat.add_comm]
  · rfl

lemma findMatches_consumed (includeVdo : Bool) (position consumed : Nat) (octets rest : Bytes) :
    AisMixer.findMatches includeVdo position (octets.length + consumed) (octets ++ rest) =
      AisMixer.findMatches includeVdo (position + octets.length) consumed rest := by
  induction octets generalizing position with
  | nil => simp
  | cons b octets ih =>
    have hlength : (b :: octets).length + consumed = octets.length + consumed + 1 := by
      rw [List.length_cons]
      omega
    have hposition : position + (b :: octets).length = position + 1 + octets.length := by
      rw [List.length_cons]
      omega
    rw [hlength, hposition, List.cons_append, AisMixer.findMatches, ih]

/-- No match begins within the octets of a character that is not ASCII. -/
lemma findMatches_skip (includeVdo : Bool) {octets : Bytes} (h : ∀ b ∈ octets, ¬b.toNat < 0x80)
    (position : Nat) (rest : Bytes) :
    AisMixer.findMatches includeVdo position 0 (octets ++ rest) =
      AisMixer.findMatches includeVdo (position + octets.length) 0 rest := by
  induction octets generalizing position with
  | nil => simp
  | cons b octets ih =>
    obtain ⟨hb, htail⟩ := List.forall_mem_cons.mp h
    have hnone : AisMixer.matchLength includeVdo (b :: (octets ++ rest)) = none := by
      rw [AisMixer.matchLength, if_neg]
      intro hheader
      have hbang := (isHeader_head hheader).1
      obtain rfl : b = 0x21 := by simpa using hbang
      exact hb (by decide)
    have hposition : position + (b :: octets).length = position + 1 + octets.length := by
      rw [List.length_cons]
      omega
    rw [List.cons_append, AisMixer.findMatches, hposition]
    simp only [hnone]
    exact ih htail (position + 1)

lemma matchLength_pos {includeVdo : Bool} {line : PyStr} {n : Nat}
    (h : matchLength includeVdo line = some n) : 7 ≤ n := by
  rw [matchLength] at h
  split at h
  · obtain ⟨m, -, rfl⟩ := Option.map_eq_some_iff.mp h
    omega
  · cases h

/-- A character that is not ASCII is no beginning of a match. -/
lemma matchLength_of_not_ascii {includeVdo : Bool} {c : CodePoint} (hc : ¬c.val < 0x80) (text : PyStr) :
    matchLength includeVdo (c :: text) = none := by
  rw [matchLength, if_neg]
  intro hheader
  obtain ⟨-, hascii⟩ := headers_ascii includeVdo _ (isHeader_iff.mp hheader)
  rw [List.all_eq_true] at hascii
  exact hc (by simpa using hascii c (by simp))

/-- The spans in the octets are the images of those in the text. -/
theorem findMatches_encode (includeVdo : Bool) (text : PyStr) : ∀ (front : PyStr) (consumed : Nat),
    AisMixer.findMatches includeVdo (encodeSurrogatepass front).length (byteIndex text consumed)
        (encodeSurrogatepass text) =
      (findMatches includeVdo front.length consumed text).map
        (fun span => (byteIndex (front ++ text) span.1, byteIndex (front ++ text) span.2)) := by
  induction text with
  | nil => exact fun _ _ => rfl
  | cons c text ih =>
    intro front consumed
    have hfront : (encodeSurrogatepass (front ++ [c])).length =
        (encodeSurrogatepass front).length + (encodeChar c).length := by
      rw [encodeSurrogatepass_append, List.length_append]
      simp [encodeSurrogatepass]
    have hnext := ih (front ++ [c])
    rw [hfront, List.length_append, List.length_singleton, List.append_assoc,
      List.singleton_append] at hnext
    rw [encode_cons]
    cases consumed with
    | succ consumed =>
      rw [byteIndex_cons_succ, findMatches_consumed, hnext, findMatches]
    | zero =>
      rw [byteIndex_zero]
      by_cases hc : c.val < 0x80
      · have hlength : (encodeChar c).length = 1 := by rw [encodeChar_of_lt hc]; rfl
        have hmatch := matchLength_encode includeVdo (c :: text)
        rw [encode_cons, encodeChar_of_lt hc, List.singleton_append] at hmatch
        rw [hlength] at hnext
        rw [encodeChar_of_lt hc, List.singleton_append, AisMixer.findMatches, findMatches]
        cases hm : matchLength includeVdo (c :: text) with
        | none =>
          rw [hm, Option.map_none] at hmatch
          simp only [hmatch]
          exact hnext 0
        | some n =>
          obtain ⟨m, rfl⟩ : ∃ m, n = m + 1 := ⟨n - 1, by have := matchLength_pos hm; omega⟩
          rw [hm, Option.map_some, byteIndex_cons_succ, hlength] at hmatch
          have hstart := byteIndex_append front (c :: text) 0
          have hstop := byteIndex_append front (c :: text) (m + 1)
          rw [byteIndex_zero, Nat.add_zero, Nat.add_zero] at hstart
          rw [byteIndex_cons_succ, hlength] at hstop
          simp only [hmatch, List.map_cons, hstart, hstop, Nat.add_sub_cancel, Nat.add_sub_cancel_left]
          rw [hnext m]
      · rw [findMatches_skip includeVdo (octets_of_not_ascii hc), findMatches,
          matchLength_of_not_ascii hc]
        exact hnext 0

/-! ### Spans and slices -/

lemma bodyLength_le {text : PyStr} {n : Nat} (h : bodyLength text = some n) : n ≤ text.length := by
  induction text generalizing n with
  | nil => cases h
  | cons c text ih =>
    rw [bodyLength] at h
    split at h
    · next hend =>
      obtain rfl := Option.some_inj.mp h
      have hlength := hend.2.1
      rw [List.length_take] at hlength
      rw [List.length_cons]
      omega
    · split at h
      · cases h
      · obtain ⟨m, hm, rfl⟩ := Option.map_eq_some_iff.mp h
        exact Nat.succ_le_succ (ih hm)

lemma matchLength_le {includeVdo : Bool} {line : PyStr} {n : Nat}
    (h : matchLength includeVdo line = some n) : n ≤ line.length := by
  rw [matchLength] at h
  split at h
  · next hheader =>
    obtain ⟨m, hm, rfl⟩ := Option.map_eq_some_iff.mp h
    have hseven := (headers_ascii includeVdo _ (isHeader_iff.mp hheader)).1
    have hle := bodyLength_le hm
    rw [List.length_take] at hseven
    rw [List.length_drop] at hle
    omega
  · cases h

/-- A match is not empty and lies within the line. -/
lemma findMatches_le {includeVdo : Bool} {text : PyStr} {span : Nat × Nat} :
    ∀ {position consumed : Nat}, span ∈ findMatches includeVdo position consumed text →
      span.1 < span.2 ∧ span.2 ≤ position + text.length := by
  induction text with
  | nil =>
    intro position consumed h
    cases h
  | cons c text ih =>
    intro position consumed h
    rw [List.length_cons]
    cases consumed with
    | succ consumed =>
      obtain ⟨hlt, hle⟩ := ih h
      exact ⟨hlt, by omega⟩
    | zero =>
      rw [findMatches] at h
      cases hm : matchLength includeVdo (c :: text) with
      | none =>
        simp only [hm] at h
        obtain ⟨hlt, hle⟩ := ih h
        exact ⟨hlt, by omega⟩
      | some n =>
        simp only [hm, List.mem_cons] at h
        rcases h with rfl | h
        · have hpos := matchLength_pos hm
          have hle := matchLength_le hm
          rw [List.length_cons] at hle
          exact ⟨by dsimp only; omega, by dsimp only; omega⟩
        · obtain ⟨hlt, hle⟩ := ih h
          exact ⟨hlt, by omega⟩

/-- The span is the encoding of the characters from `i` to `j`: it lies on character boundaries and
decodes to them. -/
structure IsImage (text : PyStr) (payload : Bytes) (span : ByteSpan) (i j : Nat) : Prop where
  start_eq : span.start = byteIndex text i
  stop_eq : span.stop = byteIndex text j
  lt : i < j
  le : j ≤ text.length
  start_boundary : IsBoundary payload span.start
  stop_boundary : IsBoundary payload span.stop
  decodes : decodeUtf8 ((payload.take span.stop).drop span.start) = some ((text.take j).drop i)

lemma isImage {text : PyStr} (hclean : hasSurrogate text = false) {i j : Nat} (hij : i < j)
    (hj : j ≤ text.length) :
    IsImage text (encodeSurrogatepass text) ⟨byteIndex text i, byteIndex text j, byteIndex_lt hij hj⟩ i j := by
  refine ⟨rfl, rfl, hij, hj, isBoundary_byteIndex text i, isBoundary_byteIndex text j, ?_⟩
  have hslice : hasSurrogate ((text.take j).drop i) = false := by
    rw [hasSurrogate, List.any_eq_false] at hclean ⊢
    intro c hc
    exact hclean c (List.mem_of_mem_take (List.mem_of_mem_drop hc))
  rw [slice_byteIndex hij.le]
  exact decodeUtf8_encode (encodeUtf8_eq_some.mpr ⟨hslice, rfl⟩)

/-- The TAG span of a match is that of the slice, the backslash before the sentence included. -/
def SameTag (text : PyStr) (payload : Bytes) (tag : Option ByteSpan) (slice : NMEASlice) : Prop :=
  (tag = none ∧ slice.tagStart = -1 ∧ slice.tagEnd = -1) ∨
    ∃ (span : ByteSpan) (tagStart tagEnd : Nat), tag = some span ∧ slice.tagStart = tagStart ∧
      slice.tagEnd = tagEnd ∧ tagEnd + 1 = slice.start ∧ IsImage text payload span tagStart (tagEnd + 1)

/-- A match of the scanner and a slice of the extractor are at the same place. -/
structure SameMatch (text : PyStr) (payload : Bytes) (m : NMEAScanMatch) (slice : NMEASlice) : Prop where
  sentence : IsImage text payload m.sentenceSpan slice.start slice.stop
  tag : SameTag text payload m.tagSpan slice

/-- The octet before a sentence is a backslash when the character before it is one. -/
lemma backslash_before {text : PyStr} {s : Nat} (hs : s ≤ text.length) :
    (¬(byteIndex text s = 0 ∨ (encodeSurrogatepass text)[byteIndex text s - 1]? ≠ some 0x5C)) ↔
      0 < s ∧ text[s - 1]? = some 0x5C := by
  have hascii : (0x5C : CodePoint).val < 0x80 := by decide
  rw [not_or, not_not]
  constructor
  · rintro ⟨hpos, hget⟩
    obtain ⟨i, hi, hchar⟩ := exists_index_of_ascii hget (by decide)
    have hi' := (List.getElem?_eq_some_iff.mp hchar).1
    have hbackslash : text[i]? = some 0x5C := hchar
    have hnext := (getElem?_byteIndex hbackslash hascii).2
    have hsame : i + 1 = s := by
      rcases Nat.lt_trichotomy (i + 1) s with hlt | heq | hgt
      · have hless := byteIndex_lt hlt hs
        omega
      · exact heq
      · have hless := byteIndex_lt hgt hi'
        omega
    rw [← hsame]
    exact ⟨Nat.succ_pos i, hbackslash⟩
  · rintro ⟨hpos, hchar⟩
    obtain ⟨hget, hnext⟩ := getElem?_byteIndex hchar hascii
    rw [Nat.sub_add_cancel hpos] at hnext
    refine ⟨by omega, ?_⟩
    rw [hnext, Nat.add_sub_cancel]
    exact hget

lemma findAdjacentTag_encode {text : PyStr} (hclean : hasSurrogate text = false) {span : Nat × Nat}
    (hs : span.1 ≤ text.length) :
    ∃ tag, findAdjacentTag (encodeSurrogatepass text) (byteIndex text span.1) = .ok tag ∧
      SameTag text (encodeSurrogatepass text) tag (sliceOf text span) := by
  have hiff := backslash_before hs
  by_cases hbackslash : 0 < span.1 ∧ text[span.1 - 1]? = some 0x5C
  · have hend : span.1 - 1 + 1 = span.1 := Nat.sub_add_cancel hbackslash.1
    have hbefore : byteIndex text span.1 - 1 = byteIndex text (span.1 - 1) := by
      have hnext := (getElem?_byteIndex hbackslash.2 (by decide)).2
      rw [hend] at hnext
      omega
    have hfind : rfind (encodeSurrogatepass text) 0x5C (byteIndex text (span.1 - 1)) =
        (lastIndex text 0x5C (span.1 - 1)).map (byteIndex text) :=
      lastIndex_encode (by decide) (by omega)
    rw [findAdjacentTag, if_neg (hiff.mpr hbackslash), hbefore, hfind, sliceOf]
    simp only [if_pos hbackslash]
    cases hlast : lastIndex text 0x5C (span.1 - 1) with
    | none => exact ⟨none, rfl, .inl ⟨rfl, rfl, rfl⟩⟩
    | some ts =>
      have hlt := (lastIndex_eq_some_iff.mp hlast).1
      have hts : ts < span.1 := by omega
      have hnew : ByteSpan.new (byteIndex text ts) (byteIndex text span.1) =
          .ok ⟨byteIndex text ts, byteIndex text span.1, byteIndex_lt hts hs⟩ :=
        dif_pos (byteIndex_lt hts hs)
      simp only [Option.map_some, hnew]
      refine ⟨_, rfl, .inr ⟨_, ts, span.1 - 1, rfl, rfl, rfl, hend, ?_⟩⟩
      rw [hend]
      exact isImage hclean hts hs
  · have hbytes := mt hiff.mp hbackslash
    rw [not_not] at hbytes
    rw [findAdjacentTag, if_pos hbytes, sliceOf]
    simp only [if_neg hbackslash]
    exact ⟨none, rfl, .inl ⟨rfl, rfl, rfl⟩⟩

lemma sliceOf_span (line : PyStr) (span : Nat × Nat) :
    (sliceOf line span).start = span.1 ∧ (sliceOf line span).stop = span.2 := by
  unfold sliceOf
  dsimp only
  split
  · split <;> exact ⟨rfl, rfl⟩
  · exact ⟨rfl, rfl⟩

/-- One match. -/
lemma scanMatch_encode {text : PyStr} (hclean : hasSurrogate text = false) {span : Nat × Nat}
    (hlt : span.1 < span.2) (hle : span.2 ≤ text.length) :
    ∃ m, scanMatch (encodeSurrogatepass text) (byteIndex text span.1, byteIndex text span.2) = .ok m ∧
      SameMatch text (encodeSurrogatepass text) m (sliceOf text span) := by
  obtain ⟨tag, htag, hsame⟩ := @findAdjacentTag_encode text hclean span (by omega)
  have hnew : ByteSpan.new (byteIndex text span.1) (byteIndex text span.2) =
      .ok ⟨byteIndex text span.1, byteIndex text span.2, byteIndex_lt hlt hle⟩ :=
    dif_pos (byteIndex_lt hlt hle)
  obtain ⟨hstart, hstop⟩ := sliceOf_span text span
  refine ⟨⟨⟨byteIndex text span.1, byteIndex text span.2, byteIndex_lt hlt hle⟩, tag⟩, ?_, ?_, hsame⟩
  · simp only [scanMatch, htag, hnew, Bind.bind, Except.bind, Pure.pure, Except.pure]
  · rw [hstart, hstop]
    exact isImage hclean hlt hle

/-- All matches, in their order. -/
lemma mapM_scanMatch_encode {text : PyStr} (hclean : hasSurrogate text = false) {spans : List (Nat × Nat)}
    (hspans : ∀ span ∈ spans, span.1 < span.2 ∧ span.2 ≤ text.length) :
    ∃ ms, (spans.map (fun span => (byteIndex text span.1, byteIndex text span.2))).mapM
        (scanMatch (encodeSurrogatepass text)) = .ok ms ∧
      List.Forall₂ (SameMatch text (encodeSurrogatepass text)) ms (spans.map (sliceOf text)) := by
  induction spans with
  | nil => exact ⟨[], rfl, .nil⟩
  | cons span spans ih =>
    obtain ⟨hspan, hrest⟩ := List.forall_mem_cons.mp hspans
    obtain ⟨m, hm, hsame⟩ := scanMatch_encode hclean hspan.1 hspan.2
    obtain ⟨ms, hms, hall⟩ := ih hrest
    refine ⟨m :: ms, ?_, .cons hsame hall⟩
    rw [List.map_cons, List.mapM_cons, hm]
    simp only [hms, Bind.bind, Except.bind, Pure.pure, Except.pure]

/-- The scanner finds in the encoding of a text what the extractor finds in the text: as many matches,
in the same order, each sentence and each TAG block the encoding of the one in the text. -/
theorem scanNmeaSentences_agrees (text : PyStr) (includeVdo : Bool) (hclean : hasSurrogate text = false) :
    ∃ payload ms slices, encodeUtf8 text = some payload ∧
      scanNmeaSentences payload includeVdo = .ok ms ∧
      extractNmeaSentences text true includeVdo = .inr slices ∧
      List.Forall₂ (SameMatch text payload) ms slices := by
  have hspans : ∀ span ∈ findMatches includeVdo 0 0 text, span.1 < span.2 ∧ span.2 ≤ text.length := by
    intro span hspan
    have hle := findMatches_le hspan
    rwa [Nat.zero_add] at hle
  have hfind : AisMixer.findMatches includeVdo 0 0 (encodeSurrogatepass text) =
      (findMatches includeVdo 0 0 text).map
        (fun span => (byteIndex text span.1, byteIndex text span.2)) :=
    findMatches_encode includeVdo text [] 0
  obtain ⟨ms, hms, hall⟩ := mapM_scanMatch_encode hclean hspans
  refine ⟨encodeSurrogatepass text, ms, _, encodeUtf8_eq_some.mpr ⟨hclean, rfl⟩, ?_, rfl, hall⟩
  rw [scanNmeaSentences, hfind]
  exact hms

/-- A sentence after a TAG block, with a letter of two octets in the block and another in the body. -/
def taggedLine : PyStr := str "\\s:é\\!AIVDM,1,1,,A,ж,0*7F"

theorem scanNmeaSentences_agrees_tagged :
    ∃ payload ms slices, encodeUtf8 taggedLine = some payload ∧
      scanNmeaSentences payload false = .ok ms ∧
      extractNmeaSentences taggedLine true false = .inr slices ∧
      List.Forall₂ (SameMatch taggedLine payload) ms slices :=
  scanNmeaSentences_agrees taggedLine false (by decide)

example : extractNmeaSentences taggedLine true false = .inr [⟨5, 25, 0, 4⟩] := by decide +kernel

end MetaCleaner

end AisMixer

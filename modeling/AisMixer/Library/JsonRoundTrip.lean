import AisMixer.Library.Json
import AisMixer.Library.Numerals
import AisMixer.Library.Fallible

/-!
# Reading back what `dumps` has written

With `ensure_ascii=False` every string is read back as it was, whatever its code points,
and a document as its `normal` form, in which `sort_keys` has sorted the members
(`parse_written`). Objects with repeated keys are not covered.
-/

namespace AisMixer.Library

namespace Json

/-! ### Strings -/

lemma hex4_small : ∀ n < 0x20, hex4 (hexDigit (n / 0x1000 % 16)) (hexDigit (n / 0x100 % 16))
    (hexDigit (n / 16 % 16)) (hexDigit (n % 16)) = some n := by
  decide

lemma scanString_plain {c : CodePoint} (hquote : c ≠ 0x22) (hslash : c ≠ 0x5C) (hctl : ¬c.val < 0x20)
    (rest : PyStr) : scanString (c :: rest) = (scanString rest).map (fun p => (c :: p.1, p.2)) := by
  rw [scanString.eq_def]
  simp only [hquote, hslash, hctl, if_false]

lemma scanString_simple {e x : CodePoint} (hu : e ≠ 0x75) (hx : unescape e = some x) (rest : PyStr) :
    scanString (0x5C :: e :: rest) = (scanString rest).map (fun p => (x :: p.1, p.2)) := by
  have hquote : (0x5C : CodePoint) ≠ 0x22 := by decide
  rw [scanString.eq_def]
  simp only [hquote, if_false, if_true, hu, hx]

lemma scanString_unit {c : CodePoint} (hctl : c.val < 0x20) (rest : PyStr) :
    scanString (escapeUnit c.val ++ rest) = (scanString rest).map (fun p => (c :: p.1, p.2)) := by
  have hquote : (0x5C : CodePoint) ≠ 0x22 := by decide
  have hval : Fin.ofNat 0x110000 c.val = c := Fin.ext (Nat.mod_eq_of_lt c.isLt)
  have hlow : ¬(0xD800 ≤ c.val ∧ c.val < 0xDC00) := by omega
  rw [escapeUnit, scanString.eq_def]
  simp only [List.cons_append, List.nil_append, hquote, if_false, if_true, hex4_small c.val hctl, hlow,
    hval]

/-- An escaped character is read back as itself. -/
lemma scanString_escapeChar (c : CodePoint) (rest : PyStr) :
    scanString (escapeChar false c ++ rest) = (scanString rest).map (fun p => (c :: p.1, p.2)) := by
  unfold escapeChar
  by_cases h1 : c = 0x22
  · subst h1
    exact scanString_simple (by decide) (by decide) rest
  by_cases h2 : c = 0x5C
  · subst h2
    exact scanString_simple (by decide) (by decide) rest
  by_cases h3 : c = 0xA
  · subst h3
    exact scanString_simple (by decide) (by decide) rest
  by_cases h4 : c = 0xD
  · subst h4
    exact scanString_simple (by decide) (by decide) rest
  by_cases h5 : c = 0x9
  · subst h5
    exact scanString_simple (by decide) (by decide) rest
  by_cases h6 : c = 0xC
  · subst h6
    exact scanString_simple (by decide) (by decide) rest
  by_cases h7 : c = 0x8
  · subst h7
    exact scanString_simple (by decide) (by decide) rest
  rw [if_neg h1, if_neg h2, if_neg h3, if_neg h4, if_neg h5, if_neg h6, if_neg h7]
  by_cases h8 : c.val < 0x20
  · rw [if_pos h8]
    exact scanString_unit h8 rest
  · rw [if_neg h8, Bool.false_and, if_neg Bool.false_ne_true]
    exact scanString_plain h1 h2 h8 rest

lemma scanString_escaped (s rest : PyStr) :
    scanString (s.flatMap (escapeChar false) ++ 0x22 :: rest) = some (s, rest) := by
  induction s with
  | nil =>
    rw [List.flatMap_nil, List.nil_append, scanString.eq_def]
    simp
  | cons c s ih =>
    rw [List.flatMap_cons, List.append_assoc, scanString_escapeChar, ih]
    rfl

/-! ### Integers -/

/-- What may follow a number: nothing that would continue it. -/
def EndsNumber (rest : PyStr) : Prop :=
  ∀ c, rest.head? = some c → isAsciiDigit c = false ∧ c ≠ 0x2E ∧ c ≠ 0x65 ∧ c ≠ 0x45

/-- What may follow a run of digits. -/
def EndsDigits (rest : PyStr) : Prop := ∀ c, rest.head? = some c → isAsciiDigit c = false

lemma EndsNumber.endsDigits {rest : PyStr} (h : EndsNumber rest) : EndsDigits rest :=
  fun c hc => (h c hc).1

lemma takeWhile_of_endsDigits {ds rest : PyStr} (hds : ∀ c ∈ ds, isAsciiDigit c = true)
    (hrest : EndsDigits rest) :
    (ds ++ rest).takeWhile isAsciiDigit = ds ∧ (ds ++ rest).dropWhile isAsciiDigit = rest := by
  have htail : rest.takeWhile isAsciiDigit = [] ∧ rest.dropWhile isAsciiDigit = rest := by
    cases rest with
    | nil => exact ⟨rfl, rfl⟩
    | cons c rest =>
      have hc : ¬isAsciiDigit c = true := by simp [hrest c rfl]
      exact ⟨List.takeWhile_cons_of_neg hc, List.dropWhile_cons_of_neg hc⟩
  constructor
  · rw [List.takeWhile_append_of_pos hds, htail.1, List.append_nil]
  · rw [List.dropWhile_append_of_pos hds, htail.2]

lemma digitChar_ascii : ∀ d < 10, isAsciiDigit (digitChar d) = true ∧ (digitChar d).val - 0x30 = d := by
  decide

lemma digitChar_ne : ∀ d < 10, digitChar d ≠ 0x22 ∧ digitChar d ≠ 0x5B ∧ digitChar d ≠ 0x7B ∧
    digitChar d ≠ 0x2D ∧ isWs (digitChar d) = false ∧ digitChar d ≠ 0x5D ∧ digitChar d ≠ 0xFEFF := by
  decide

lemma digitsValue_digits (ds : List Nat) (hds : ∀ d ∈ ds, d < 10) (start : Nat) :
    (ds.map digitChar).foldl (fun n c => 10 * n + (c.val - 0x30)) start =
      ds.foldl (fun v d => 10 * v + d) start := by
  induction ds generalizing start with
  | nil => rfl
  | cons d ds ih =>
    rw [List.map_cons, List.foldl_cons, List.foldl_cons, (digitChar_ascii d (hds d (by simp))).2]
    exact ih (fun d' hd' => hds d' (List.mem_cons_of_mem _ hd')) _

lemma digitsValue_natStr (n : Nat) : digitsValue (natStr n) = n := by
  rw [digitsValue, natStr_eq, digitsValue_digits _ (natDigits_lt n), natDigits_value]

/-- A number starts with a zero only when it is zero. -/
lemma head_natStr {n : Nat} (h : (natStr n).head? = some 0x30) : natStr n = [0x30] := by
  by_cases hn : n = 0
  · rw [hn]
    rfl
  · exfalso
    have hdigits : natStr n = (Nat.digits 10 n).reverse.map digitChar := by rw [natStr, if_neg hn]
    rw [hdigits, List.head?_map, List.head?_reverse] at h
    obtain ⟨d, hd, hchar⟩ := Option.map_eq_some_iff.mp h
    have hne := (Nat.digits_ne_nil_iff_ne_zero (b := 10)).mpr hn
    have hlast := Nat.getLast_digit_ne_zero 10 hn
    rw [List.getLast?_eq_some_getLast hne, Option.some_inj] at hd
    have hlt : d < 10 := by
      rw [← hd]
      exact Nat.digits_lt_base (by decide) (List.getLast_mem hne)
    have hzero : ∀ d < 10, digitChar d = 0x30 → d = 0 := by decide
    exact hlast (hd ▸ hzero d hlt hchar)

lemma natStr_allDigits (n : Nat) : ∀ c ∈ natStr n, isAsciiDigit c = true := by
  intro c hc
  obtain ⟨d, hd, rfl⟩ := natStr_digits hc
  exact (digitChar_ascii d hd).1

/-- The digits at the head of a number. -/
lemma scan_natStr (n : Nat) {rest : PyStr} (hrest : EndsDigits rest) :
    (if (natStr n ++ rest).head? = some 0x30 then [0x30]
      else (natStr n ++ rest).takeWhile isAsciiDigit) = natStr n := by
  by_cases hzero : (natStr n ++ rest).head? = some 0x30
  · rw [if_pos hzero]
    rw [List.head?_append_of_ne_nil _ (natStr_ne_nil n)] at hzero
    exact (head_natStr hzero).symm
  · rw [if_neg hzero]
    exact (takeWhile_of_endsDigits (natStr_allDigits n) hrest).1

/-! ### Floats -/

/-- A fraction, or nothing. -/
def IsFraction (text : PyStr) : Prop :=
  text = [] ∨ ∃ ds, ds ≠ [] ∧ (∀ c ∈ ds, isAsciiDigit c = true) ∧ text = 0x2E :: ds

/-- An exponent, or nothing. -/
def IsExponent (text : PyStr) : Prop :=
  text = [] ∨ ∃ sign ds, (sign = [] ∨ sign = [0x2B] ∨ sign = [0x2D]) ∧ ds ≠ [] ∧
    (∀ c ∈ ds, isAsciiDigit c = true) ∧ text = 0x65 :: (sign ++ ds)

/-- The texts of floats: a number with a fraction or an exponent, or a word. -/
def IsFloatLiteral (text : PyStr) : Prop :=
  text ∈ [Library.str "NaN", Library.str "Infinity", Library.str "-Infinity"] ∨
    ∃ (negative : Bool) (n : Nat) (fraction exponent : PyStr), IsFraction fraction ∧
      IsExponent exponent ∧ fraction ++ exponent ≠ [] ∧
      text = (if negative then [0x2D] else []) ++ natStr n ++ fraction ++ exponent

lemma IsExponent.endsDigits {exponent rest : PyStr} (h : IsExponent exponent) (hrest : EndsNumber rest) :
    EndsDigits (exponent ++ rest) ∧ (exponent ++ rest).head? ≠ some 0x2E := by
  rcases h with rfl | ⟨sign, ds, -, -, -, rfl⟩
  · exact ⟨hrest.endsDigits, fun hdot => (hrest 0x2E hdot).2.1 rfl⟩
  · refine ⟨fun c hc => ?_, by simp⟩
    obtain rfl : (0x65 : CodePoint) = c := by simpa using hc
    decide

lemma IsFraction.endsDigits {fraction exponent rest : PyStr} (h : IsFraction fraction)
    (hexponent : IsExponent exponent) (hrest : EndsNumber rest) :
    EndsDigits (fraction ++ (exponent ++ rest)) := by
  rcases h with rfl | ⟨ds, -, -, rfl⟩
  · exact (hexponent.endsDigits hrest).1
  · intro c hc
    obtain rfl : (0x2E : CodePoint) = c := by simpa using hc
    decide

lemma scanFraction_append {fraction exponent rest : PyStr} (h : IsFraction fraction)
    (hexponent : IsExponent exponent) (hrest : EndsNumber rest) :
    scanFraction (fraction ++ (exponent ++ rest)) = (fraction, exponent ++ rest) := by
  obtain ⟨hdigits, hdot⟩ := hexponent.endsDigits hrest
  rcases h with rfl | ⟨ds, hne, hds, rfl⟩
  · rw [List.nil_append]
    cases htail : exponent ++ rest with
    | nil => rfl
    | cons c tail =>
      rw [htail] at hdot
      have hc : c ≠ 0x2E := by simpa using hdot
      simp [scanFraction, hc]
  · obtain ⟨htake, hdrop⟩ := takeWhile_of_endsDigits hds hdigits
    rw [List.cons_append, scanFraction, htake, hdrop, if_pos ⟨rfl, hne⟩]

lemma scanExponent_append {exponent rest : PyStr} (h : IsExponent exponent) (hrest : EndsNumber rest) :
    scanExponent (exponent ++ rest) = (exponent, rest) := by
  rcases h with rfl | ⟨sign, ds, hsign, hne, hds, rfl⟩
  · rw [List.nil_append]
    cases rest with
    | nil => rfl
    | cons c rest => simp [scanExponent, (hrest c rfl).2.2]
  · obtain ⟨htake, hdrop⟩ := takeWhile_of_endsDigits hds hrest.endsDigits
    have hscan : ((sign ++ ds ++ rest).takeWhile (fun d => d == 0x2B || d == 0x2D)).take 1 = sign := by
      obtain ⟨d, ds', rfl⟩ := List.exists_cons_of_ne_nil hne
      have hd : (d == 0x2B || d == 0x2D) = false := by
        have hdigit := hds d (by simp)
        rw [Bool.or_eq_false_iff]
        constructor
        · rw [beq_eq_false_iff_ne]
          rintro rfl
          revert hdigit
          decide
        · rw [beq_eq_false_iff_ne]
          rintro rfl
          revert hdigit
          decide
      rcases hsign with rfl | rfl | rfl
      · simp [hd]
      · simp [hd]
      · simp [hd]
    rw [List.cons_append, scanExponent]
    simp only [hscan]
    rw [List.append_assoc, List.drop_left, htake, hdrop]
    simp [hne]

/-! ### Numbers -/

/-- The integer of so many digits is read, if the limit allows it. -/
lemma scanUnsigned_natStr {maxDigits : Option Nat} (negative : Bool) (n : Nat)
    (hlimit : ∀ limit, maxDigits = some limit → (natStr n).length ≤ limit) {rest : PyStr}
    (hrest : EndsNumber rest) :
    scanUnsigned maxDigits negative (natStr n ++ rest) =
      .ok (.int (if negative then -(n : Int) else n), rest) := by
  have hfraction := scanFraction_append (.inl rfl) (.inl rfl) hrest
  have hexponent := scanExponent_append (.inl rfl) hrest
  have hshort : maxDigits.any (fun limit => decide (limit < (natStr n).length)) = false := by
    cases maxDigits with
    | none => rfl
    | some limit => simpa using hlimit limit rfl
  rw [List.nil_append, List.nil_append] at hfraction
  rw [List.nil_append] at hexponent
  simp only [scanUnsigned, scan_natStr n hrest.endsDigits, natStr_ne_nil, if_false, List.drop_left,
    hfraction, hexponent, List.append_nil, ne_eq, not_true_eq_false, hshort, Bool.false_eq_true,
    digitsValue_natStr]

lemma scanUnsigned_float (maxDigits : Option Nat) (negative : Bool) (n : Nat)
    {fraction exponent rest : PyStr} (hfraction : IsFraction fraction) (hexponent : IsExponent exponent)
    (hne : fraction ++ exponent ≠ []) (hrest : EndsNumber rest) :
    scanUnsigned maxDigits negative (natStr n ++ (fraction ++ (exponent ++ rest))) =
      .ok (.float ((if negative then [0x2D] else []) ++ natStr n ++ fraction ++ exponent), rest) := by
  simp only [scanUnsigned, scan_natStr n (hfraction.endsDigits hexponent hrest), natStr_ne_nil, if_false,
    List.drop_left, scanFraction_append hfraction hexponent hrest, scanExponent_append hexponent hrest]
  rw [if_pos hne]

/-! ### Values -/

/-- A text from which a value is read back, whatever follows it, under a limit on the digits of an
integer. -/
def Reads (maxDigits : Option Nat) (text : PyStr) (v : Json) : Prop :=
  (∃ c cs, text = c :: cs ∧ isWs c = false ∧ c ≠ 0x5D ∧ c ≠ 0xFEFF) ∧
  ∀ fuel rest, text.length ≤ fuel → EndsNumber rest →
    parseValue maxDigits fuel (text ++ rest) = .ok (v, rest)

section Reads

variable {maxDigits : Option Nat}

lemma literals_ne : ∀ l ∈ literals, 2 ≤ l.1.length ∧
    ∀ d < 10, l.1.head? ≠ some (digitChar d) ∧ l.1.take 2 ≠ [0x2D, digitChar d] := by
  decide

lemma find_literals_digit {d : Nat} (hd : d < 10) (s : PyStr) :
    literals.find? (fun l => l.1.isPrefixOf (digitChar d :: s)) = none := by
  rw [List.find?_eq_none]
  intro l hl hfrontPart
  obtain ⟨hlen, hne⟩ := literals_ne l hl
  obtain ⟨t, ht⟩ := List.isPrefixOf_iff_prefix.mp hfrontPart
  apply (hne d hd).1
  cases hword : l.1 with
  | nil => simp [hword] at hlen
  | cons c cs =>
    rw [hword, List.cons_append] at ht
    rw [List.head?_cons, (List.cons.inj ht).1]

lemma find_literals_minus {d : Nat} (hd : d < 10) (s : PyStr) :
    literals.find? (fun l => l.1.isPrefixOf (0x2D :: digitChar d :: s)) = none := by
  rw [List.find?_eq_none]
  intro l hl hfrontPart
  obtain ⟨hlen, hne⟩ := literals_ne l hl
  obtain ⟨t, ht⟩ := List.isPrefixOf_iff_prefix.mp hfrontPart
  apply (hne d hd).2
  have htake := congrArg (List.take 2) ht
  rwa [List.take_append_of_le_length hlen] at htake

lemma natStr_cons (n : Nat) : ∃ d < 10, ∃ cs, natStr n = digitChar d :: cs := by
  cases h : natStr n with
  | nil => exact (natStr_ne_nil n h).elim
  | cons c cs =>
    obtain ⟨d, hd, rfl⟩ := natStr_digits (n := n) (c := c) (by rw [h]; simp)
    exact ⟨d, hd, cs, rfl⟩

/-- The sign and the digits of a number lead to `scanUnsigned`. -/
lemma scanScalar_number (negative : Bool) (n : Nat) (rest : PyStr) :
    scanScalar maxDigits ((if negative then [0x2D] else []) ++ natStr n ++ rest) =
      scanUnsigned maxDigits negative (natStr n ++ rest) := by
  obtain ⟨d, hd, cs, hcons⟩ := natStr_cons n
  cases negative with
  | false =>
    simp only [Bool.false_eq_true, if_false, List.nil_append, hcons, List.cons_append, scanScalar,
      find_literals_digit hd, (digitChar_ne d hd).2.2.2.1]
  | true =>
    simp only [if_true, List.cons_append, List.nil_append, hcons, scanScalar, find_literals_minus hd]

lemma scanScalar_intStr (i : Int)
    (hlimit : ∀ limit, maxDigits = some limit → (natStr i.natAbs).length ≤ limit) {rest : PyStr}
    (hrest : EndsNumber rest) : scanScalar maxDigits (intStr i ++ rest) = .ok (.int i, rest) := by
  cases i with
  | ofNat n =>
    have hscan := @scanScalar_number maxDigits false n rest
    rw [scanUnsigned_natStr false n hlimit hrest] at hscan
    exact hscan
  | negSucc n =>
    have hscan := @scanScalar_number maxDigits true (n + 1) rest
    rw [scanUnsigned_natStr true (n + 1) hlimit hrest] at hscan
    exact hscan

lemma intStr_cons (i : Int) : ∃ c cs, intStr i = c :: cs ∧ c ≠ 0x22 ∧ c ≠ 0x5B ∧ c ≠ 0x7B ∧
    isWs c = false ∧ c ≠ 0x5D ∧ c ≠ 0xFEFF := by
  cases i with
  | ofNat n =>
    obtain ⟨d, hd, cs, hcons⟩ := natStr_cons n
    obtain ⟨h1, h2, h3, -, h4, h5, h6⟩ := digitChar_ne d hd
    exact ⟨digitChar d, cs, hcons, h1, h2, h3, h4, h5, h6⟩
  | negSucc n => exact ⟨0x2D, natStr (n + 1), rfl, by decide, by decide, by decide, by decide, by decide,
      by decide⟩

/-- Fuel for a text that is not empty. -/
lemma exists_fuel {fuel k : Nat} (h : k + 1 ≤ fuel) : ∃ f, fuel = f + 1 ∧ k ≤ f :=
  ⟨fuel - 1, by omega, by omega⟩

/-- A text that begins like a number is read by the scanner of scalars. -/
lemma reads_scalar {text : PyStr} {v : Json} (hhead : ∃ c cs, text = c :: cs ∧ c ≠ 0x22 ∧ c ≠ 0x5B ∧
      c ≠ 0x7B ∧ isWs c = false ∧ c ≠ 0x5D ∧ c ≠ 0xFEFF)
    (hscan : ∀ rest, EndsNumber rest → scanScalar maxDigits (text ++ rest) = .ok (v, rest)) :
    Reads maxDigits text v := by
  obtain ⟨c, cs, hcons, h1, h2, h3, hws, hbracket, hbom⟩ := hhead
  refine ⟨⟨c, cs, hcons, hws, hbracket, hbom⟩, ?_⟩
  intro fuel rest hfuel hrest
  rw [hcons, List.length_cons] at hfuel
  obtain ⟨f, rfl, -⟩ := exists_fuel hfuel
  have hvalue := hscan rest hrest
  rw [hcons] at hvalue ⊢
  rw [List.cons_append] at hvalue ⊢
  rw [parseValue]
  simp only [h1, h2, h3, if_false]
  exact hvalue

theorem reads_int (i : Int)
    (hlimit : ∀ limit, maxDigits = some limit → (natStr i.natAbs).length ≤ limit) :
    Reads maxDigits (intStr i) (.int i) :=
  reads_scalar (intStr_cons i) (fun _ hrest => scanScalar_intStr i hlimit hrest)

theorem reads_float {literal : PyStr} (h : IsFloatLiteral literal) :
    Reads maxDigits literal (.float literal) := by
  rcases h with hword | ⟨negative, n, fraction, exponent, hfraction, hexponent, hne, rfl⟩
  · simp only [List.mem_cons, List.not_mem_nil, or_false] at hword
    rcases hword with rfl | rfl | rfl
    all_goals
      refine ⟨⟨_, _, rfl, by decide, by decide, by decide⟩, ?_⟩
      intro fuel rest hfuel hrest
      obtain ⟨f, rfl, -⟩ := exists_fuel (k := 0) (le_trans (by decide) hfuel)
      rfl
  · refine reads_scalar ?_ ?_
    · obtain ⟨d, hd, cs, hcons⟩ := natStr_cons n
      obtain ⟨h1, h2, h3, -, h4, h5, h6⟩ := digitChar_ne d hd
      cases negative with
      | false =>
        exact ⟨digitChar d, cs ++ fraction ++ exponent, by simp [hcons], h1, h2, h3, h4, h5, h6⟩
      | true =>
        exact ⟨0x2D, natStr n ++ fraction ++ exponent, by simp, by decide, by decide, by decide,
          by decide, by decide, by decide⟩
    · intro rest hrest
      have hscan := @scanScalar_number maxDigits negative n (fraction ++ (exponent ++ rest))
      rw [scanUnsigned_float maxDigits negative n hfraction hexponent hne hrest] at hscan
      simpa only [List.append_assoc] using hscan

theorem reads_str (s : PyStr) : Reads maxDigits (dumpsStr false s) (.str s) := by
  refine ⟨⟨0x22, _, rfl, by decide, by decide, by decide⟩, ?_⟩
  intro fuel rest hfuel hrest
  rw [dumpsStr, List.cons_append, List.length_cons] at hfuel
  obtain ⟨f, rfl, -⟩ := exists_fuel hfuel
  have hscan := scanString_escaped s rest
  rw [dumpsStr, List.cons_append, List.cons_append, List.append_assoc, List.singleton_append, parseValue]
  simp only [if_true, hscan]

/-- The three literal words. -/
lemma reads_literal {word : PyStr} {v : Json} (hword : (word, v) ∈ literals.take 3) :
    Reads maxDigits word v := by
  have hcases : (word = Library.str "null" ∧ v = .null) ∨
      (word = Library.str "true" ∧ v = .bool true) ∨ (word = Library.str "false" ∧ v = .bool false) := by
    simpa [literals] using hword
  rcases hcases with ⟨rfl, rfl⟩ | ⟨rfl, rfl⟩ | ⟨rfl, rfl⟩
  all_goals
    refine ⟨⟨_, _, rfl, by decide, by decide, by decide⟩, ?_⟩
    intro fuel rest hfuel hrest
    obtain ⟨f, rfl, -⟩ := exists_fuel (k := 0) (le_trans (by decide) hfuel)
    rfl

/-! ### Lists of values -/

lemma skipWs_of_not_ws {c : CodePoint} (h : isWs c = false) (s : PyStr) : skipWs (c :: s) = c :: s := by
  rw [skipWs, List.dropWhile_cons_of_neg (by simp [h])]

lemma join_cons_cons (sep t t' : PyStr) (ts : List PyStr) :
    join sep (t :: t' :: ts) = t ++ (sep ++ join sep (t' :: ts)) := by
  simp [join, List.intercalate]

lemma join_singleton (sep t : PyStr) : join sep [t] = t := by
  simp [join, List.intercalate]

lemma Reads.skipWs {text : PyStr} {v : Json} (h : Reads maxDigits text v) (s : PyStr) :
    skipWs (text ++ s) = text ++ s := by
  obtain ⟨⟨c, cs, rfl, hws, -⟩, -⟩ := h
  rw [List.cons_append, skipWs_of_not_ws hws]

lemma endsNumber_cons {c : CodePoint} (hdigit : isAsciiDigit c = false) (hdot : c ≠ 0x2E)
    (he : c ≠ 0x65) (hE : c ≠ 0x45) (s : PyStr) : EndsNumber (c :: s) := by
  intro d hd
  obtain rfl : c = d := by simpa using hd
  exact ⟨hdigit, hdot, he, hE⟩

lemma parseElements_join {texts : List PyStr} {values : List Json}
    (h : List.Forall₂ (Reads maxDigits) texts values)
    (hne : texts ≠ []) (fuel : Nat) (rest : PyStr) (hfuel : (join [0x2C] texts).length + 1 ≤ fuel) :
    parseElements maxDigits fuel (join [0x2C] texts ++ 0x5D :: rest) = .ok (values, rest) := by
  induction h generalizing fuel with
  | nil => exact (hne rfl).elim
  | @cons text v texts values hread htail ih =>
    obtain ⟨f, rfl, hf⟩ := exists_fuel hfuel
    cases htail with
    | nil =>
      rw [join_singleton] at hf ⊢
      have hvalue := hread.2 f (0x5D :: rest) hf
        (endsNumber_cons (by decide) (by decide) (by decide) (by decide) rest)
      simp only [parseElements, hvalue, skipWs_of_not_ws (show isWs 0x5D = false by decide), if_true]
    | @cons text' v' texts values hread' htail' =>
      rw [join_cons_cons, List.length_append, List.length_append, List.length_singleton] at hf
      have hvalue := hread.2 f (0x2C :: (join [0x2C] (text' :: texts) ++ 0x5D :: rest)) (by omega)
        (endsNumber_cons (by decide) (by decide) (by decide) (by decide) _)
      have hnext := ih (by simp) f (by omega)
      have hcomma : (0x2C : CodePoint) ≠ 0x5D := by decide
      have hskip : Json.skipWs (join [0x2C] (text' :: texts) ++ 0x5D :: rest) =
          join [0x2C] (text' :: texts) ++ 0x5D :: rest := by
        cases texts with
        | nil => rw [join_singleton, hread'.skipWs]
        | cons t ts => rw [join_cons_cons, List.append_assoc, hread'.skipWs]
      have hsplit : join [0x2C] (text :: text' :: texts) ++ 0x5D :: rest =
          text ++ 0x2C :: (join [0x2C] (text' :: texts) ++ 0x5D :: rest) := by
        rw [join_cons_cons, List.append_assoc, List.append_assoc]
        rfl
      simp only [hsplit, parseElements, hvalue, skipWs_of_not_ws (show isWs 0x2C = false by decide),
        hcomma, if_false, if_true, hskip, hnext]
      rfl

theorem reads_arr {texts : List PyStr} {values : List Json}
    (h : List.Forall₂ (Reads maxDigits) texts values) :
    Reads maxDigits (0x5B :: join [0x2C] texts ++ [0x5D]) (.arr values) := by
  refine ⟨⟨0x5B, _, rfl, by decide, by decide, by decide⟩, ?_⟩
  intro fuel rest hfuel hrest
  rw [List.cons_append, List.length_cons] at hfuel
  obtain ⟨f, rfl, hf⟩ := exists_fuel hfuel
  rw [List.length_append, List.length_singleton] at hf
  have hquote : (0x5B : CodePoint) ≠ 0x22 := by decide
  rw [List.cons_append, List.cons_append, List.append_assoc, List.singleton_append, parseValue]
  simp only [hquote, if_false, if_true]
  cases h with
  | nil =>
    have hskip : Json.skipWs (join [0x2C] [] ++ 0x5D :: rest) = 0x5D :: rest :=
      skipWs_of_not_ws (by decide) rest
    simp only [hskip, if_true]
  | @cons text v texts values hread htail =>
    have helements := parseElements_join (.cons hread htail) (by simp) f rest hf
    obtain ⟨⟨c, cs, htext, hws, hbracket, -⟩, -⟩ := hread
    obtain ⟨ds, hds⟩ : ∃ ds, join [0x2C] (text :: texts) = c :: ds := by
      cases texts with
      | nil => exact ⟨cs, by rw [join_singleton, htext]⟩
      | cons t ts => exact ⟨_, by rw [join_cons_cons, htext, List.cons_append]⟩
    rw [hds, List.cons_append] at helements ⊢
    simp only [skipWs_of_not_ws hws, hbracket, if_false, helements]
    rfl

/-! ### Objects -/

lemma dictOf_eq {pairs : List (PyStr × Json)} (h : (pairs.map Prod.fst).Nodup) : dictOf pairs = pairs := by
  have hfold : ∀ (ps acc : List (PyStr × Json)), ((acc ++ ps).map Prod.fst).Nodup →
      ps.foldl (fun acc p => Dict.setEntries p.1 p.2 acc) acc = acc ++ ps := by
    intro ps
    induction ps with
    | nil => simp
    | cons p ps ih =>
      intro acc hnodup
      have hnew : p.1 ∉ acc.map Prod.fst := by
        rw [List.map_append, List.nodup_append] at hnodup
        exact fun hmem => hnodup.2.2 p.1 hmem p.1 (by simp) rfl
      rw [List.foldl_cons, Dict.setEntries_of_not_mem hnew, ih _ (by simpa using hnodup)]
      simp
  exact hfold pairs [] (by simpa using h)

/-- One member as it is written. -/
def memberText (p : PyStr × PyStr) : PyStr := dumpsStr false p.1 ++ 0x3A :: p.2

/-- A member whose value is read back. -/
def ReadsMember (maxDigits : Option Nat) (p : PyStr × PyStr) (q : PyStr × Json) : Prop :=
  p.1 = q.1 ∧ Reads maxDigits p.2 q.2

lemma memberText_cons (p : PyStr × PyStr) (s : PyStr) :
    memberText p ++ s = 0x22 :: (p.1.flatMap (escapeChar false) ++ 0x22 :: 0x3A :: (p.2 ++ s)) := by
  simp [memberText, dumpsStr]

lemma length_memberText (p : PyStr × PyStr) : p.2.length + 1 ≤ (memberText p).length := by
  simp only [memberText, List.length_append, List.length_cons]
  omega

lemma parseMembers_join {pairs : List (PyStr × PyStr)} {members : List (PyStr × Json)}
    (h : List.Forall₂ (ReadsMember maxDigits) pairs members) (hne : pairs ≠ []) (fuel : Nat) (rest : PyStr)
    (hfuel : (join [0x2C] (pairs.map memberText)).length + 1 ≤ fuel) :
    parseMembers maxDigits fuel (join [0x2C] (pairs.map memberText) ++ 0x7D :: rest) =
      .ok (members, rest) := by
  have hcolon : isWs 0x3A = false := by decide
  induction h generalizing fuel with
  | nil => exact (hne rfl).elim
  | @cons p q pairs members hpq htail ih =>
    obtain ⟨hkey, hread⟩ := hpq
    obtain ⟨f, rfl, hf⟩ := exists_fuel hfuel
    have hlen := length_memberText p
    cases htail with
    | nil =>
      rw [List.map_singleton, join_singleton] at hf ⊢
      have hvalue := hread.2 f (0x7D :: rest) (by omega)
        (endsNumber_cons (by decide) (by decide) (by decide) (by decide) rest)
      simp only [memberText_cons, parseMembers, if_true, scanString_escaped, skipWs_of_not_ws hcolon,
        hread.skipWs, hvalue, skipWs_of_not_ws (show isWs 0x7D = false by decide), hkey]
    | @cons p' q' pairs members hpq' htail' =>
      rw [List.map_cons, List.map_cons, join_cons_cons, List.length_append, List.length_append,
        List.length_singleton, ← List.map_cons] at hf
      have hvalue := hread.2 f (0x2C :: (join [0x2C] ((p' :: pairs).map memberText) ++ 0x7D :: rest))
        (by omega) (endsNumber_cons (by decide) (by decide) (by decide) (by decide) _)
      have hnext := ih (by simp) f (by omega)
      have hcomma : (0x2C : CodePoint) ≠ 0x7D := by decide
      have hskip : Json.skipWs (join [0x2C] ((p' :: pairs).map memberText) ++ 0x7D :: rest) =
          join [0x2C] ((p' :: pairs).map memberText) ++ 0x7D :: rest := by
        cases pairs with
        | nil =>
          rw [List.map_singleton, join_singleton, memberText_cons, skipWs_of_not_ws (by decide)]
        | cons t ts =>
          rw [List.map_cons, List.map_cons, join_cons_cons, List.append_assoc, memberText_cons,
            skipWs_of_not_ws (by decide)]
      have hsplit : join [0x2C] ((p :: p' :: pairs).map memberText) ++ 0x7D :: rest =
          memberText p ++ 0x2C :: (join [0x2C] ((p' :: pairs).map memberText) ++ 0x7D :: rest) := by
        rw [List.map_cons, List.map_cons, join_cons_cons, List.append_assoc, List.append_assoc]
        rfl
      simp only [hsplit, memberText_cons, parseMembers, if_true, scanString_escaped,
        skipWs_of_not_ws hcolon, hread.skipWs, hvalue,
        skipWs_of_not_ws (show isWs 0x2C = false by decide), hcomma, if_false, hskip, hnext, hkey]
      rfl

theorem reads_obj {pairs : List (PyStr × PyStr)} {members : List (PyStr × Json)}
    (h : List.Forall₂ (ReadsMember maxDigits) pairs members) (hnodup : (members.map Prod.fst).Nodup) :
    Reads maxDigits (0x7B :: join [0x2C] (pairs.map memberText) ++ [0x7D]) (.obj members) := by
  refine ⟨⟨0x7B, _, rfl, by decide, by decide, by decide⟩, ?_⟩
  intro fuel rest hfuel hrest
  rw [List.cons_append, List.length_cons] at hfuel
  obtain ⟨f, rfl, hf⟩ := exists_fuel hfuel
  rw [List.length_append, List.length_singleton] at hf
  have hquote : (0x7B : CodePoint) ≠ 0x22 := by decide
  have hbracket : (0x7B : CodePoint) ≠ 0x5B := by decide
  rw [List.cons_append, List.cons_append, List.append_assoc, List.singleton_append, parseValue]
  simp only [hquote, hbracket, if_false, if_true]
  cases h with
  | nil =>
    have hskip : Json.skipWs (join [0x2C] (([] : List (PyStr × PyStr)).map memberText) ++ 0x7D :: rest) =
        0x7D :: rest := skipWs_of_not_ws (by decide) rest
    simp only [hskip, if_true]
  | @cons p q pairs members hpq htail =>
    have hmembers := parseMembers_join (.cons hpq htail) (by simp) f rest hf
    obtain ⟨ds, hds⟩ : ∃ ds, join [0x2C] ((p :: pairs).map memberText) = 0x22 :: ds := by
      cases pairs with
      | nil => exact ⟨_, by rw [List.map_singleton, join_singleton, ← List.append_nil (memberText p),
          memberText_cons]⟩
      | cons t ts => exact ⟨_, by rw [List.map_cons, List.map_cons, join_cons_cons, memberText_cons]⟩
    have hbrace : (0x22 : CodePoint) ≠ 0x7D := by decide
    rw [hds, List.cons_append] at hmembers ⊢
    simp only [skipWs_of_not_ws (show isWs 0x22 = false by decide), hbrace, if_false, hmembers,
      Except.map, dictOf_eq hnodup]

end Reads

/-! ### Documents -/

mutual

/-- No floats, and no key twice in an object. -/
def Plain : Json → Prop
  | .float _ => False
  | .arr items => PlainItems items
  | .obj members => (members.map Prod.fst).Nodup ∧ PlainMembers members
  | _ => True

def PlainItems : List Json → Prop
  | [] => True
  | v :: vs => Plain v ∧ PlainItems vs

def PlainMembers : List (PyStr × Json) → Prop
  | [] => True
  | (_, v) :: ms => Plain v ∧ PlainMembers ms

end

mutual

/-- What is written as a document: floats by their literals, integers within the limit, and no key
twice in an object. -/
def Writable (maxDigits : Option Nat) : Json → Prop
  | .int i => ∀ limit, maxDigits = some limit → (natStr i.natAbs).length ≤ limit
  | .float literal => IsFloatLiteral literal
  | .arr items => WritableItems maxDigits items
  | .obj members => (members.map Prod.fst).Nodup ∧ WritableMembers maxDigits members
  | _ => True

def WritableItems (maxDigits : Option Nat) : List Json → Prop
  | [] => True
  | v :: vs => Writable maxDigits v ∧ WritableItems maxDigits vs

def WritableMembers (maxDigits : Option Nat) : List (PyStr × Json) → Prop
  | [] => True
  | (_, v) :: ms => Writable maxDigits v ∧ WritableMembers maxDigits ms

end

mutual

/-- Without a limit every plain value is written. -/
theorem Plain.writable : ∀ v : Json, Plain v → Writable none v
  | .null, _ => trivial
  | .bool _, _ => trivial
  | .int _, _ => fun _ h => by cases h
  | .str _, _ => trivial
  | .float _, h => h.elim
  | .arr items, h => PlainItems.writable items h
  | .obj members, h => ⟨h.1, PlainMembers.writable members h.2⟩

theorem PlainItems.writable : ∀ items : List Json, PlainItems items → WritableItems none items
  | [], _ => trivial
  | v :: vs, h => ⟨Plain.writable v h.1, PlainItems.writable vs h.2⟩

theorem PlainMembers.writable : ∀ members : List (PyStr × Json), PlainMembers members →
    WritableMembers none members
  | [], _ => trivial
  | (_, v) :: ms, h => ⟨Plain.writable v h.1, PlainMembers.writable ms h.2⟩

end

mutual

/-- Some integer is longer than the conversion limit, so `dumps` raises the `ValueError` of `str()`. -/
def anyLongInt (limit : Nat) : Json → Bool
  | .int i => limit < (natStr i.natAbs).length
  | .arr items => anyLongIntItems limit items
  | .obj members => anyLongIntMembers limit members
  | _ => false

def anyLongIntItems (limit : Nat) : List Json → Bool
  | [] => false
  | v :: vs => anyLongInt limit v || anyLongIntItems limit vs

def anyLongIntMembers (limit : Nat) : List (PyStr × Json) → Bool
  | [] => false
  | (_, v) :: ms => anyLongInt limit v || anyLongIntMembers limit ms

end

mutual

/-- Within the limit the value is written. -/
theorem Writable.within {limit : Nat} : ∀ v : Json, Writable none v → anyLongInt limit v = false →
    Writable (some limit) v
  | .null, _, _ => trivial
  | .bool _, _, _ => trivial
  | .int _, _, hshort => fun _ heq => Option.some_inj.mp heq ▸ not_lt.mp (of_decide_eq_false hshort)
  | .str _, _, _ => trivial
  | .float _, h, _ => h
  | .arr items, h, hshort => WritableItems.within items h hshort
  | .obj members, h, hshort => ⟨h.1, WritableMembers.within members h.2 hshort⟩

theorem WritableItems.within {limit : Nat} : ∀ items : List Json, WritableItems none items →
    anyLongIntItems limit items = false → WritableItems (some limit) items
  | [], _, _ => trivial
  | v :: vs, h, hshort =>
    ⟨Writable.within v h.1 (Bool.or_eq_false_iff.mp hshort).1,
      WritableItems.within vs h.2 (Bool.or_eq_false_iff.mp hshort).2⟩

theorem WritableMembers.within {limit : Nat} : ∀ members : List (PyStr × Json),
    WritableMembers none members → anyLongIntMembers limit members = false →
    WritableMembers (some limit) members
  | [], _, _ => trivial
  | (_, v) :: ms, h, hshort =>
    ⟨Writable.within v h.1 (Bool.or_eq_false_iff.mp hshort).1,
      WritableMembers.within ms h.2 (Bool.or_eq_false_iff.mp hshort).2⟩

end

mutual

/-- The value that the written text stands for. -/
def normal (o : DumpsOptions) : Json → Json
  | .arr items => .arr (normalItems o items)
  | .obj members =>
    .obj (if o.sortKeys then (normalMembers o members).insertionSort keyLe else normalMembers o members)
  | v => v

def normalItems (o : DumpsOptions) : List Json → List Json
  | [] => []
  | v :: vs => normal o v :: normalItems o vs

def normalMembers (o : DumpsOptions) : List (PyStr × Json) → List (PyStr × Json)
  | [] => []
  | (k, v) :: ms => (k, normal o v) :: normalMembers o ms

end

lemma dumpsMembers_eq (o : DumpsOptions) (members : List (PyStr × Json)) :
    dumpsMembers o members = members.map (fun m => (m.1, dumps o m.2)) := by
  induction members with
  | nil => rfl
  | cons m ms ih => rw [dumpsMembers, ih, List.map_cons]

lemma normalMembers_eq (o : DumpsOptions) (members : List (PyStr × Json)) :
    normalMembers o members = members.map (fun m => (m.1, normal o m.2)) := by
  induction members with
  | nil => rfl
  | cons m ms ih => rw [normalMembers, ih, List.map_cons]

/-- Sorting looks at the keys alone. -/
lemma sort_map {α : Type} (f : Json → α) (members : List (PyStr × Json)) :
    (members.map (fun m => (m.1, f m.2))).insertionSort keyLe =
      (members.insertionSort keyLe).map (fun m => (m.1, f m.2)) :=
  (List.map_insertionSort keyLe keyLe (fun m : PyStr × Json => (m.1, f m.2)) members
    (fun _ _ _ _ => Iff.rfl)).symm

lemma forall₂_readsMember {maxDigits : Option Nat} {o : DumpsOptions} {members : List (PyStr × Json)}
    (h : ∀ m ∈ members, Reads maxDigits (dumps o m.2) (normal o m.2)) :
    List.Forall₂ (ReadsMember maxDigits) (members.map (fun m => (m.1, dumps o m.2)))
      (members.map (fun m => (m.1, normal o m.2))) := by
  rw [List.forall₂_map_left_iff, List.forall₂_map_right_iff, List.forall₂_same]
  intro m hm
  exact ⟨rfl, h m hm⟩

lemma reads_dumps_obj {maxDigits : Option Nat} {sortKeys : Bool} {members : List (PyStr × Json)}
    (hnodup : (members.map Prod.fst).Nodup)
    (h : ∀ m ∈ members, Reads maxDigits (dumps ⟨false, sortKeys⟩ m.2) (normal ⟨false, sortKeys⟩ m.2)) :
    Reads maxDigits (dumps ⟨false, sortKeys⟩ (.obj members)) (normal ⟨false, sortKeys⟩ (.obj members)) := by
  have hkeys : ∀ ms : List (PyStr × Json),
      (ms.map (fun m => (m.1, normal ⟨false, sortKeys⟩ m.2))).map Prod.fst = ms.map Prod.fst := by
    intro ms
    simp [Function.comp_def]
  rw [dumps, normal, dumpsMembers_eq, normalMembers_eq]
  cases sortKeys with
  | false =>
    simp only [Bool.false_eq_true, if_false]
    exact reads_obj (forall₂_readsMember h) (by rw [hkeys]; exact hnodup)
  | true =>
    have hperm := List.perm_insertionSort keyLe members
    have hread := reads_obj (forall₂_readsMember
      (fun m hm => h m (hperm.mem_iff.mp hm))) (by rw [hkeys]; exact (hperm.map Prod.fst).nodup_iff.mpr hnodup)
    simp only [if_true, sort_map]
    exact hread

mutual

/-- Every value that is written is read back in its normal form. -/
theorem reads_dumps (maxDigits : Option Nat) (sortKeys : Bool) : ∀ v : Json, Writable maxDigits v →
    Reads maxDigits (dumps ⟨false, sortKeys⟩ v) (normal ⟨false, sortKeys⟩ v)
  | .null, _ => reads_literal (by simp [literals, dumps, normal])
  | .bool true, _ => reads_literal (by simp [literals, dumps, normal])
  | .bool false, _ => reads_literal (by simp [literals, dumps, normal])
  | .int i, h => reads_int i h
  | .str s, _ => reads_str s
  | .float _, h => reads_float h
  | .arr items, h => reads_arr (reads_dumpsItems maxDigits sortKeys items h)
  | .obj members, h => reads_dumps_obj h.1 (reads_dumpsMembers maxDigits sortKeys members h.2)

theorem reads_dumpsItems (maxDigits : Option Nat) (sortKeys : Bool) : ∀ items : List Json,
    WritableItems maxDigits items →
    List.Forall₂ (Reads maxDigits) (dumpsItems ⟨false, sortKeys⟩ items)
      (normalItems ⟨false, sortKeys⟩ items)
  | [], _ => .nil
  | v :: vs, h => .cons (reads_dumps maxDigits sortKeys v h.1)
      (reads_dumpsItems maxDigits sortKeys vs h.2)

theorem reads_dumpsMembers (maxDigits : Option Nat) (sortKeys : Bool) :
    ∀ members : List (PyStr × Json), WritableMembers maxDigits members →
    ∀ m ∈ members, Reads maxDigits (dumps ⟨false, sortKeys⟩ m.2) (normal ⟨false, sortKeys⟩ m.2)
  | (_, v) :: ms, h, m, hm =>
    match List.mem_cons.mp hm with
    | .inl heq => heq ▸ reads_dumps maxDigits sortKeys v h.1
    | .inr hmem => reads_dumpsMembers maxDigits sortKeys ms h.2 m hmem

end

/-- Reading what was written gives the normal form back. -/
theorem parse_written {maxDigits : Option Nat} (sortKeys : Bool) {v : Json} (h : Writable maxDigits v) :
    parse maxDigits (dumps ⟨false, sortKeys⟩ v) = .ok (normal ⟨false, sortKeys⟩ v) := by
  obtain ⟨⟨c, cs, htext, hws, -, hbom⟩, hread⟩ := reads_dumps maxDigits sortKeys v h
  have hvalue := hread ((dumps ⟨false, sortKeys⟩ v).length + 1) [] (by omega) (by intro d hd; cases hd)
  rw [List.append_nil, htext] at hvalue
  rw [parse, htext]
  have hhead : (c :: cs).head? ≠ some 0xFEFF := by simpa using hbom
  simp only [hhead, if_false, skipWs_of_not_ws hws, hvalue]
  rfl

theorem parse_dumps (sortKeys : Bool) {v : Json} (h : Plain v) :
    parse none (dumps ⟨false, sortKeys⟩ v) = .ok (normal ⟨false, sortKeys⟩ v) :=
  parse_written sortKeys (Plain.writable v h)

/-! ### Members of what is read back -/

lemma lookupEntries_of_perm {ms ms' : List (PyStr × Json)} (hperm : ms'.Perm ms)
    (hnodup : (ms.map Prod.fst).Nodup) (key : PyStr) :
    Dict.lookupEntries key ms' = Dict.lookupEntries key ms :=
  Dict.get?_of_perm (d := ⟨ms', (hperm.map Prod.fst).nodup_iff.mpr hnodup⟩) (e := ⟨ms, hnodup⟩) hperm key

/-- A member of the normal form is the normal form of the member. -/
theorem get?_normal (o : DumpsOptions) {members : List (PyStr × Json)}
    (hnodup : (members.map Prod.fst).Nodup) (key : PyStr) :
    (normal o (.obj members)).get? key = (Dict.lookupEntries key members).map (normal o) := by
  have hmap : Dict.lookupEntries key (normalMembers o members) =
      (Dict.lookupEntries key members).map (normal o) := by
    rw [normalMembers_eq]
    exact Dict.get?_mapValues (normal o) ⟨members, hnodup⟩ key
  have hkeys : ((normalMembers o members).map Prod.fst).Nodup := by
    rw [normalMembers_eq, List.map_map]
    exact hnodup
  rw [normal, get?, ← hmap]
  split
  · exact lookupEntries_of_perm (List.perm_insertionSort keyLe _) hkeys key
  · rfl

/-! ### Unpaired surrogates -/

mutual

/-- Some string of the value, keys included, has an unpaired surrogate. -/
def anySurrogate : Json → Bool
  | .str s => hasSurrogate s
  | .float literal => hasSurrogate literal
  | .arr items => anySurrogateItems items
  | .obj members => anySurrogateMembers members
  | _ => false

def anySurrogateItems : List Json → Bool
  | [] => false
  | v :: vs => anySurrogate v || anySurrogateItems vs

def anySurrogateMembers : List (PyStr × Json) → Bool
  | [] => false
  | (k, v) :: ms => (hasSurrogate k || anySurrogate v) || anySurrogateMembers ms

end

lemma hasSurrogate_append (s t : PyStr) : hasSurrogate (s ++ t) = (hasSurrogate s || hasSurrogate t) := by
  simp [hasSurrogate]

lemma hasSurrogate_cons (c : CodePoint) (s : PyStr) :
    hasSurrogate (c :: s) = (isSurrogate c || hasSurrogate s) := rfl

lemma hasSurrogate_escapeUnit : ∀ n < 0x20, hasSurrogate (escapeUnit n) = false := by
  decide

lemma hasSurrogate_escapeChar (c : CodePoint) : hasSurrogate (escapeChar false c) = isSurrogate c := by
  unfold escapeChar
  by_cases hctl : c.val < 0x20
  · have hc : isSurrogate c = false := by simp [isSurrogate]; omega
    have hunit := hasSurrogate_escapeUnit c.val hctl
    rw [hc]
    split_ifs <;> first | rfl | exact hunit
  · split_ifs with h1 h2 h3 h4 h5 h6 h7
    · subst h1; rfl
    · subst h2; rfl
    · subst h3; rfl
    · subst h4; rfl
    · subst h5; rfl
    · subst h6; rfl
    · subst h7; rfl
    all_goals simp_all [hasSurrogate]

lemma hasSurrogate_dumpsStr (s : PyStr) : hasSurrogate (dumpsStr false s) = hasSurrogate s := by
  have hbody : hasSurrogate (s.flatMap (escapeChar false)) = hasSurrogate s := by
    induction s with
    | nil => rfl
    | cons c s ih => rw [List.flatMap_cons, hasSurrogate_append, hasSurrogate_escapeChar, ih, hasSurrogate_cons]
  rw [dumpsStr, hasSurrogate_append, hasSurrogate_cons, hbody]
  simp [isSurrogate, hasSurrogate]

lemma hasSurrogate_join (texts : List PyStr) :
    hasSurrogate (join [0x2C] texts) = texts.any hasSurrogate := by
  induction texts with
  | nil => rfl
  | cons t texts ih =>
    cases texts with
    | nil => simp [join_singleton]
    | cons t' ts =>
      rw [join_cons_cons, hasSurrogate_append, hasSurrogate_append, ih]
      simp [hasSurrogate, isSurrogate]

lemma hasSurrogate_intStr (i : Int) : hasSurrogate (intStr i) = false := by
  have hnat : ∀ n, hasSurrogate (natStr n) = false := by
    intro n
    rw [hasSurrogate, List.any_eq_false]
    intro c hc
    obtain ⟨d, hd, rfl⟩ := natStr_digits hc
    have hall : ∀ d < 10, ¬isSurrogate (digitChar d) = true := by decide
    exact hall d hd
  cases i with
  | ofNat n => exact hnat n
  | negSucc n => exact hnat (n + 1)

lemma any_of_perm {α : Type} {p : α → Bool} {xs ys : List α} (h : xs.Perm ys) : xs.any p = ys.any p := by
  rw [Bool.eq_iff_iff, List.any_eq_true, List.any_eq_true]
  simp only [h.mem_iff]

mutual

/-- Without `ensure_ascii` a text keeps the surrogates of its strings and has no others. -/
theorem hasSurrogate_dumps (sortKeys : Bool) : ∀ v : Json,
    hasSurrogate (dumps ⟨false, sortKeys⟩ v) = anySurrogate v
  | .null => rfl
  | .bool true => rfl
  | .bool false => rfl
  | .int i => hasSurrogate_intStr i
  | .float _ => rfl
  | .str s => hasSurrogate_dumpsStr s
  | .arr items => by
    rw [dumps, anySurrogate, hasSurrogate_append, hasSurrogate_cons, hasSurrogate_join,
      hasSurrogate_dumpsItems sortKeys items]
    simp [isSurrogate, hasSurrogate]
  | .obj members => by
    have hmembers := hasSurrogate_dumpsMembers sortKeys members
    have hsort : ∀ texts : List (PyStr × PyStr), ((if sortKeys then texts.insertionSort keyLe else texts).map
        memberText).any hasSurrogate = (texts.map memberText).any hasSurrogate := by
      intro texts
      cases sortKeys with
      | false => rfl
      | true => exact any_of_perm ((List.perm_insertionSort keyLe texts).map memberText)
    rw [dumps, anySurrogate, hasSurrogate_append, hasSurrogate_cons, hasSurrogate_join, ← hmembers,
      ← hsort]
    simp [isSurrogate, hasSurrogate, memberText, Function.comp_def]

theorem hasSurrogate_dumpsItems (sortKeys : Bool) : ∀ items : List Json,
    (dumpsItems ⟨false, sortKeys⟩ items).any hasSurrogate = anySurrogateItems items
  | [] => rfl
  | v :: vs => by
    rw [dumpsItems, anySurrogateItems, List.any_cons, hasSurrogate_dumps sortKeys v,
      hasSurrogate_dumpsItems sortKeys vs]

theorem hasSurrogate_dumpsMembers (sortKeys : Bool) : ∀ members : List (PyStr × Json),
    ((dumpsMembers ⟨false, sortKeys⟩ members).map memberText).any hasSurrogate =
      anySurrogateMembers members
  | [] => rfl
  | (k, v) :: ms => by
    rw [dumpsMembers, anySurrogateMembers, List.map_cons, List.any_cons, memberText, hasSurrogate_append,
      hasSurrogate_dumpsStr, hasSurrogate_cons, hasSurrogate_dumps sortKeys v,
      hasSurrogate_dumpsMembers sortKeys ms]
    simp [isSurrogate]

end

/-! ### Control characters -/

def NoControl (s : PyStr) : Prop := ∀ c ∈ s, 0x20 ≤ c.val

lemma NoControl.append {s t : PyStr} (hs : NoControl s) (ht : NoControl t) : NoControl (s ++ t) := by
  intro c hc
  rcases List.mem_append.mp hc with hc | hc
  · exact hs c hc
  · exact ht c hc

lemma NoControl.cons {c : CodePoint} {s : PyStr} (hc : 0x20 ≤ c.val) (hs : NoControl s) :
    NoControl (c :: s) := by
  intro d hd
  rcases List.mem_cons.mp hd with rfl | hd
  · exact hc
  · exact hs d hd

lemma noControl_nil : NoControl [] := fun _ hc => by cases hc

lemma noControl_digits {ds : PyStr} (h : ∀ c ∈ ds, isAsciiDigit c = true) : NoControl ds := by
  intro c hc
  have hdigit := h c hc
  simp only [isAsciiDigit, Bool.and_eq_true, decide_eq_true_eq] at hdigit
  omega

lemma noControl_iff (s : PyStr) : NoControl s ↔ s.all (fun c => decide (0x20 ≤ c.val)) = true := by
  simp [NoControl]

lemma noControl_words : ∀ w ∈ [Library.str "null", Library.str "true", Library.str "false",
    Library.str "NaN", Library.str "Infinity", Library.str "-Infinity"], NoControl w := by
  simp only [noControl_iff]
  decide

lemma noControl_escapeChar (c : CodePoint) : NoControl (escapeChar false c) := by
  have hunit : ∀ n < 0x20, NoControl (escapeUnit n) := by
    simp only [noControl_iff]
    decide
  have hpair : ∀ d ∈ [(0x22 : CodePoint), 0x5C, 0x6E, 0x72, 0x74, 0x66, 0x62], NoControl [0x5C, d] := by
    intro d hd
    refine .cons (by decide) (.cons ?_ noControl_nil)
    fin_cases hd <;> decide
  unfold escapeChar
  split_ifs with h1 h2 h3 h4 h5 h6 h7 h8 h9
  · exact hpair _ (by decide)
  · exact hpair _ (by decide)
  · exact hpair _ (by decide)
  · exact hpair _ (by decide)
  · exact hpair _ (by decide)
  · exact hpair _ (by decide)
  · exact hpair _ (by decide)
  · exact hunit c.val h8
  · simp at h9
  · simp at h9
  · exact .cons (not_lt.mp h8) noControl_nil

lemma noControl_dumpsStr (s : PyStr) : NoControl (dumpsStr false s) := by
  have hbody : NoControl (s.flatMap (escapeChar false)) := by
    intro c hc
    obtain ⟨d, -, hd⟩ := List.mem_flatMap.mp hc
    exact noControl_escapeChar d c hd
  exact (NoControl.cons (by decide) hbody).append (.cons (by decide) noControl_nil)

lemma noControl_join {texts : List PyStr} (h : ∀ t ∈ texts, NoControl t) :
    NoControl (join [0x2C] texts) := by
  induction texts with
  | nil => exact noControl_nil
  | cons t texts ih =>
    cases texts with
    | nil =>
      rw [join_singleton]
      exact h t (by simp)
    | cons t' ts =>
      rw [join_cons_cons]
      exact (h t (by simp)).append ((NoControl.cons (by decide) noControl_nil).append
        (ih (fun u hu => h u (List.mem_cons_of_mem _ hu))))

lemma noControl_natStr (n : Nat) : NoControl (natStr n) := noControl_digits (natStr_allDigits n)

lemma noControl_intStr (i : Int) : NoControl (intStr i) := by
  cases i with
  | ofNat n => exact noControl_natStr n
  | negSucc n => exact .cons (by decide) (noControl_natStr (n + 1))

lemma noControl_float {literal : PyStr} (h : IsFloatLiteral literal) : NoControl literal := by
  rcases h with hword | ⟨negative, n, fraction, exponent, hfraction, hexponent, -, rfl⟩
  · exact noControl_words literal (List.mem_append_right
      [Library.str "null", Library.str "true", Library.str "false"] hword)
  · have hsign : NoControl (if negative then [0x2D] else []) := by
      cases negative with
      | false => exact noControl_nil
      | true => exact .cons (by decide) noControl_nil
    have hfrac : NoControl fraction := by
      rcases hfraction with rfl | ⟨ds, -, hds, rfl⟩
      · exact noControl_nil
      · exact .cons (by decide) (noControl_digits hds)
    have hexp : NoControl exponent := by
      rcases hexponent with rfl | ⟨sign, ds, hsign, -, hds, rfl⟩
      · exact noControl_nil
      · refine .cons (by decide) (NoControl.append ?_ (noControl_digits hds))
        rcases hsign with rfl | rfl | rfl
        · exact noControl_nil
        · exact .cons (by decide) noControl_nil
        · exact .cons (by decide) noControl_nil
    exact ((hsign.append (noControl_natStr n)).append hfrac).append hexp

mutual

/-- A document is written without control characters, so on one line. -/
theorem noControl_dumps (maxDigits : Option Nat) (sortKeys : Bool) : ∀ v : Json,
    Writable maxDigits v → NoControl (dumps ⟨false, sortKeys⟩ v)
  | .null, _ => noControl_words _ (by simp [dumps])
  | .bool true, _ => noControl_words _ (by simp [dumps])
  | .bool false, _ => noControl_words _ (by simp [dumps])
  | .int i, _ => noControl_intStr i
  | .float _, h => noControl_float h
  | .str s, _ => noControl_dumpsStr s
  | .arr items, h =>
    (NoControl.cons (by decide) (noControl_join (noControl_dumpsItems maxDigits sortKeys items h))).append
      (.cons (by decide) noControl_nil)
  | .obj members, h => by
    have hmembers := noControl_dumpsMembers maxDigits sortKeys members h.2
    rw [dumps]
    refine (NoControl.cons (by decide) (noControl_join ?_)).append (.cons (by decide) noControl_nil)
    intro t ht
    obtain ⟨p, hp, rfl⟩ := List.mem_map.mp ht
    refine (noControl_dumpsStr p.1).append (.cons (by decide) (hmembers p ?_))
    split at hp
    · exact (List.perm_insertionSort keyLe _).mem_iff.mp hp
    · exact hp

theorem noControl_dumpsItems (maxDigits : Option Nat) (sortKeys : Bool) : ∀ items : List Json,
    WritableItems maxDigits items → ∀ t ∈ dumpsItems ⟨false, sortKeys⟩ items, NoControl t
  | [], _, t, ht => by cases ht
  | v :: vs, h, t, ht =>
    match List.mem_cons.mp ht with
    | .inl heq => heq ▸ noControl_dumps maxDigits sortKeys v h.1
    | .inr hmem => noControl_dumpsItems maxDigits sortKeys vs h.2 t hmem

theorem noControl_dumpsMembers (maxDigits : Option Nat) (sortKeys : Bool) :
    ∀ members : List (PyStr × Json), WritableMembers maxDigits members →
    ∀ p ∈ dumpsMembers ⟨false, sortKeys⟩ members, NoControl p.2
  | [], _, p, hp => by cases hp
  | (_, v) :: ms, h, p, hp =>
    match List.mem_cons.mp hp with
    | .inl heq => heq ▸ noControl_dumps maxDigits sortKeys v h.1
    | .inr hmem => noControl_dumpsMembers maxDigits sortKeys ms h.2 p hmem

end

end Json

end AisMixer.Library

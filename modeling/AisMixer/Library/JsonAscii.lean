import AisMixer.Library.JsonRoundTrip

/-!
# Reading back escaped documents

With `ensure_ascii=True` a string without surrogates is read back as it was: a character outside the
basic plane is written as a pair of escapes, which the reader joins.
-/

namespace AisMixer.Library

namespace Json

/-! ### Escapes -/

lemma hexValue_hexDigit : ∀ n < 16, hexValue (hexDigit n) = some n := by decide

lemma hex4_unit {n : Nat} (h : n < 0x10000) :
    hex4 (hexDigit (n / 0x1000 % 16)) (hexDigit (n / 0x100 % 16)) (hexDigit (n / 16 % 16))
      (hexDigit (n % 16)) = some n := by
  have hdigit (m : Nat) : hexValue (hexDigit (m % 16)) = some (m % 16) :=
    hexValue_hexDigit _ (Nat.mod_lt m (by norm_num))
  unfold hex4
  rw [hdigit, hdigit, hdigit, hdigit]
  have hvalue : ((n / 0x1000 % 16 * 16 + n / 0x100 % 16) * 16 + n / 16 % 16) * 16 + n % 16 = n := by omega
  exact congrArg some hvalue

/-- A unit that begins no pair. -/
lemma scanString_escapeUnit {n : Nat} (h : n < 0x10000) (hhigh : ¬(0xD800 ≤ n ∧ n < 0xDC00)) (rest : PyStr) :
    scanString (escapeUnit n ++ rest) = (scanString rest).map (fun p => (Fin.ofNat _ n :: p.1, p.2)) := by
  have hquote : (0x5C : CodePoint) ≠ 0x22 := by decide
  rw [escapeUnit, scanString.eq_def]
  simp only [List.cons_append, List.nil_append, hquote, if_false, if_true, hex4_unit h, hhigh]

lemma scanString_escapePair {high low : Nat} (hhigh : high < 0x400) (hlow : low < 0x400) (rest : PyStr) :
    scanString (escapeUnit (0xD800 + high) ++ escapeUnit (0xDC00 + low) ++ rest) =
      (scanString rest).map (fun p => (Fin.ofNat _ (0x10000 + high * 0x400 + low) :: p.1, p.2)) := by
  have hquote : (0x5C : CodePoint) ≠ 0x22 := by decide
  have hfirst : 0xD800 ≤ 0xD800 + high ∧ 0xD800 + high < 0xDC00 := by omega
  have hsecond : 0xDC00 ≤ 0xDC00 + low ∧ 0xDC00 + low < 0xE000 := by omega
  rw [escapeUnit, escapeUnit, scanString.eq_def]
  simp only [List.cons_append, List.nil_append, hquote, if_false, if_true, and_self,
    hex4_unit (show 0xD800 + high < 0x10000 by omega), hex4_unit (show 0xDC00 + low < 0x10000 by omega),
    hfirst, hsecond, Nat.add_sub_cancel_left]

lemma scanString_escapeChar_ascii {c : CodePoint} (h : isSurrogate c = false) (rest : PyStr) :
    scanString (escapeChar true c ++ rest) = (scanString rest).map (fun p => (c :: p.1, p.2)) := by
  have hself : Fin.ofNat 0x110000 c.val = c := Fin.ext (Nat.mod_eq_of_lt c.isLt)
  by_cases hplain : c.val ≤ 0x7E
  · have hsame : escapeChar true c = escapeChar false c := by
      simp only [escapeChar, Bool.true_and, Bool.false_and, Bool.false_eq_true, if_false, decide_eq_true_eq,
        not_lt.mpr hplain]
    rw [hsame]
    exact scanString_escapeChar c rest
  · have hne : ∀ d : CodePoint, d.val ≤ 0x7E → c ≠ d := by
      intro d hd heq
      exact hplain (heq ▸ hd)
    have hcontrol : ¬c.val < 0x20 := by omega
    unfold escapeChar
    rw [if_neg (hne _ (by decide)), if_neg (hne _ (by decide)), if_neg (hne _ (by decide)),
      if_neg (hne _ (by decide)), if_neg (hne _ (by decide)), if_neg (hne _ (by decide)),
      if_neg (hne _ (by decide)), if_neg hcontrol, if_pos (by simpa using hplain)]
    by_cases hbasic : c.val < 0x10000
    · have hhigh : ¬(0xD800 ≤ c.val ∧ c.val < 0xDC00) := by
        intro hrange
        have hsurrogate : isSurrogate c = true := by
          rw [isSurrogate, Bool.and_eq_true, decide_eq_true_eq, decide_eq_true_eq]
          exact ⟨hrange.1, by omega⟩
        rw [h] at hsurrogate
        cases hsurrogate
      rw [if_pos hbasic, scanString_escapeUnit hbasic hhigh, hself]
    · have hbound := c.isLt
      have hhigh : (c.val - 0x10000) / 0x400 < 0x400 := by omega
      have hlow : (c.val - 0x10000) % 0x400 < 0x400 := Nat.mod_lt _ (by norm_num)
      have hjoin : 0x10000 + (c.val - 0x10000) / 0x400 * 0x400 + (c.val - 0x10000) % 0x400 = c.val := by omega
      rw [if_neg hbasic, scanString_escapePair hhigh hlow, hjoin, hself]

lemma scanString_escaped_ascii {s : PyStr} (h : hasSurrogate s = false) (rest : PyStr) :
    scanString (s.flatMap (escapeChar true) ++ 0x22 :: rest) = some (s, rest) := by
  induction s with
  | nil =>
    rw [List.flatMap_nil, List.nil_append, scanString.eq_def]
    simp
  | cons c s ih =>
    rw [hasSurrogate, List.any_cons, Bool.or_eq_false_iff] at h
    rw [List.flatMap_cons, List.append_assoc, scanString_escapeChar_ascii h.1, ih h.2]
    rfl

variable {maxDigits : Option Nat}

lemma reads_str_ascii {s : PyStr} (h : hasSurrogate s = false) : Reads maxDigits (dumpsStr true s) (.str s) := by
  refine ⟨⟨0x22, _, rfl, by decide, by decide, by decide⟩, ?_⟩
  intro fuel rest hfuel hrest
  rw [dumpsStr, List.cons_append, List.length_cons] at hfuel
  obtain ⟨f, rfl, -⟩ := exists_fuel hfuel
  have hscan := scanString_escaped_ascii h rest
  rw [dumpsStr, List.cons_append, List.cons_append, List.append_assoc, List.singleton_append, parseValue]
  simp only [if_true, hscan]

/-! ### Flat objects -/

/-- A key of printable ASCII characters. -/
def AsciiKey (key : PyStr) : Prop := ∀ c ∈ key, c.val ≤ 0x7E

/-- A string without surrogates, or a number that `int()` takes back. -/
def FlatValue : Json → Prop
  | .str s => hasSurrogate s = false
  | .int i => (natStr i.natAbs).length ≤ intMaxStrDigits
  | _ => False

lemma dumpsStr_ascii {key : PyStr} (h : AsciiKey key) : dumpsStr true key = dumpsStr false key := by
  have hsame : key.flatMap (escapeChar true) = key.flatMap (escapeChar false) := by
    apply List.flatMap_congr
    intro c hc
    simp only [escapeChar, Bool.true_and, Bool.false_and, Bool.false_eq_true, if_false, decide_eq_true_eq,
      not_lt.mpr (h c hc)]
  rw [dumpsStr, dumpsStr, hsame]

lemma reads_flatValue {v : Json} (h : FlatValue v) : Reads (some intMaxStrDigits) (dumps {} v) v := by
  cases v with
  | str s => exact reads_str_ascii h
  | int i =>
    apply reads_int i
    intro limit hlimit
    rw [← Option.some.inj hlimit]
    exact h
  | _ => exact h.elim

lemma parse_of_reads {text : PyStr} {v : Json} (h : Reads maxDigits text v) : parse maxDigits text = .ok v := by
  obtain ⟨⟨c, cs, htext, hws, -, hbom⟩, hread⟩ := h
  have hvalue := hread (text.length + 1) [] (by omega) (by intro d hd; cases hd)
  rw [List.append_nil, htext] at hvalue
  rw [parse, htext]
  have hhead : (c :: cs).head? ≠ some 0xFEFF := by simpa using hbom
  simp only [hhead, if_false, skipWs_of_not_ws hws, hvalue]
  rfl

/-- A flat object is read back as it was. -/
theorem loads_dumps_flat {members : List (PyStr × Json)} (hnodup : (members.map Prod.fst).Nodup)
    (h : ∀ m ∈ members, AsciiKey m.1 ∧ FlatValue m.2) :
    loads (dumps {} (.obj members)) = .ok (.obj members) := by
  have htexts : dumps {} (.obj members) =
      0x7B :: join [0x2C] ((members.map (fun m => (m.1, dumps {} m.2))).map memberText) ++ [0x7D] := by
    rw [dumps, dumpsMembers_eq]
    simp only [Bool.false_eq_true, if_false, List.map_map]
    congr 3
    apply List.map_congr_left
    intro m hm
    simp only [Function.comp_apply, memberText, dumpsStr_ascii (h m hm).1]
  have hmembers : List.Forall₂ (ReadsMember (some intMaxStrDigits))
      (members.map (fun m => (m.1, dumps {} m.2))) members := by
    rw [List.forall₂_map_left_iff, List.forall₂_same]
    intro m hm
    exact ⟨rfl, reads_flatValue (h m hm).2⟩
  rw [htexts]
  exact parse_of_reads (reads_obj hmembers hnodup)

/-! ### No surrogates are written -/

lemma hexDigit_plain : ∀ n < 16, isSurrogate (hexDigit n) = false := by decide

lemma escapeUnit_plain (n : Nat) : hasSurrogate (escapeUnit n) = false := by
  have hdigit (m : Nat) : isSurrogate (hexDigit (m % 16)) = false :=
    hexDigit_plain _ (Nat.mod_lt m (by norm_num))
  simp only [escapeUnit, hasSurrogate_cons, hdigit]
  rfl

lemma escapeChar_plain (c : CodePoint) : hasSurrogate (escapeChar true c) = false := by
  by_cases hplain : c.val ≤ 0x7E
  · have hsame : escapeChar true c = escapeChar false c := by
      simp only [escapeChar, Bool.true_and, Bool.false_and, Bool.false_eq_true, if_false, decide_eq_true_eq,
        not_lt.mpr hplain]
    rw [hsame, hasSurrogate_escapeChar, isSurrogate, Bool.and_eq_false_iff, decide_eq_false_iff_not]
    left
    omega
  · have hlong : (true && decide (0x7E < c.val)) = true := by simpa using hplain
    unfold escapeChar
    simp only [hlong, if_true]
    split_ifs
    all_goals first
      | rfl
      | exact escapeUnit_plain _
      | rw [hasSurrogate_append, escapeUnit_plain, escapeUnit_plain, Bool.or_self]

lemma dumpsStr_plain (s : PyStr) : hasSurrogate (dumpsStr true s) = false := by
  have hbody : hasSurrogate (s.flatMap (escapeChar true)) = false := by
    induction s with
    | nil => rfl
    | cons c s ih => rw [List.flatMap_cons, hasSurrogate_append, escapeChar_plain, ih, Bool.or_self]
  rw [dumpsStr, hasSurrogate_append, hasSurrogate_cons, hbody]
  rfl

lemma flatValue_plain {v : Json} (h : FlatValue v) : hasSurrogate (dumps {} v) = false := by
  cases v with
  | str s => exact dumpsStr_plain s
  | int i => exact hasSurrogate_intStr i
  | _ => exact h.elim

lemma dumps_flat_plain {members : List (PyStr × Json)} (h : ∀ m ∈ members, FlatValue m.2) :
    hasSurrogate (dumps {} (.obj members)) = false := by
  rw [dumps, hasSurrogate_append, hasSurrogate_cons, hasSurrogate_join, dumpsMembers_eq]
  have hmembers : ((members.map (fun m => (m.1, dumps {} m.2))).map
      (fun m => dumpsStr true m.1 ++ 0x3A :: m.2)).any hasSurrogate = false := by
    rw [List.map_map, List.any_map, List.any_eq_false]
    intro m hm
    have hvalue := flatValue_plain (h m hm)
    simp only [Function.comp_apply, hasSurrogate_append, dumpsStr_plain, hasSurrogate_cons, hvalue]
    decide
  simp only [Bool.false_eq_true, if_false, hmembers]
  decide

end Json

end AisMixer.Library

import AisMixer.Library.Utf8

/-!
# UTF-8 with replacement characters

The error handler `replace` reads one `U+FFFD` for each maximal part of a sequence that breaks off, so
it does not read the marks of `decodeUnits`, of which there is one for each octet.
-/

namespace AisMixer.Library

/-- `a` and `b` begin a sequence of three or four octets that is no surrogate. -/
def isPartial (a b : UInt8) : Bool :=
  isTail b &&
    (0xE0 ≤ a.toNat && a.toNat < 0xF0 && (a.toNat != 0xE0 || 0xA0 ≤ b.toNat) &&
        (a.toNat != 0xED || b.toNat < 0xA0) ||
      0xF0 ≤ a.toNat && a.toNat < 0xF5 && (a.toNat != 0xF0 || 0x90 ≤ b.toNat) &&
        (a.toNat != 0xF4 || b.toNat < 0x90))

/-- The sequence at the head of the octets and its length. One that does not decode has no character
and is as long as it is the beginning of one that does, yet at least an octet. -/
def decodeHead (a : UInt8) (s : Bytes) : Option CodePoint × Nat :=
  if a.toNat < 0x80 then (some (codePoint a.toNat), 1)
  else match s with
  | [] => (none, 1)
  | b :: t =>
    if isPair a b then (some (codePoint ((a.toNat - 0xC0) * 0x40 + (b.toNat - 0x80))), 2)
    else if !isPartial a b then (none, 1)
    else match t with
    | [] => (none, 2)
    | c :: u =>
      if !isTail c then (none, 2)
      else if a.toNat < 0xF0 then
        (some (codePoint ((a.toNat - 0xE0) * 0x1000 + (b.toNat - 0x80) * 0x40 + (c.toNat - 0x80))), 3)
      else match u with
      | [] => (none, 3)
      | d :: _ =>
        if isTail d then
          (some (codePoint ((a.toNat - 0xF0) * 0x40000 + (b.toNat - 0x80) * 0x1000 +
            (c.toNat - 0x80) * 0x40 + (d.toNat - 0x80))), 4)
        else (none, 3)

/-- The text of what remains, of which the next `consumed` octets belong to the previous sequence. -/
def replaceFrom (consumed : Nat) : Bytes → PyStr
  | [] => []
  | a :: s =>
    match consumed with
    | consumed + 1 => replaceFrom consumed s
    | 0 => (decodeHead a s).1.getD 0xFFFD :: replaceFrom ((decodeHead a s).2 - 1) s

/-- `bytes.decode("utf-8", errors="replace")`. -/
def decodeReplace (bs : Bytes) : PyStr := replaceFrom 0 bs

example : decodeReplace [0xE2, 0x82, 0x41, 0xED, 0xA0, 0x80, 0xC3, 0xA9, 0xF0, 0x9F] =
    [0xFFFD, 0x41, 0xFFFD, 0xFFFD, 0xFFFD, 0xE9, 0xFFFD] := by decide +kernel

lemma isSurrogate_codePoint {n : Nat} (hn : n < 0x110000) (hout : n < 0xD800 ∨ 0xDFFF < n) :
    isSurrogate (codePoint n) = false := by
  simp only [isSurrogate, codePoint_toNat hn, Bool.and_eq_false_iff, decide_eq_false_iff_not]
  omega

lemma isSurrogate_decodeHead (a : UInt8) (s : Bytes) :
    ((decodeHead a s).1.map isSurrogate).getD false = false := by
  fun_cases decodeHead a s <;>
    simp only [Option.map_some, Option.map_none, Option.getD_some, Option.getD_none]
  · exact isSurrogate_codePoint (by omega) (by omega)
  · next hpair =>
    simp only [isPair, isTail, Bool.and_eq_true, decide_eq_true_eq] at hpair
    exact isSurrogate_codePoint (by omega) (by omega)
  · next hpartial c u hc hlow =>
    simp only [isPartial, isTail, Bool.not_eq_true', Bool.not_eq_false, Bool.and_eq_true,
      Bool.or_eq_true, decide_eq_true_eq, bne_iff_ne, ne_eq] at hpartial hc
    exact isSurrogate_codePoint (by omega) (by omega)
  · next hpartial c hc hhigh d v hd =>
    simp only [isPartial, isTail, Bool.not_eq_true', Bool.not_eq_false, Bool.and_eq_true,
      Bool.or_eq_true, decide_eq_true_eq, bne_iff_ne, ne_eq] at hpartial hc hd
    exact isSurrogate_codePoint (by omega) (by omega)

/-- No surrogate is decoded. -/
theorem hasSurrogate_decodeReplace (bs : Bytes) : hasSurrogate (decodeReplace bs) = false := by
  have hrest : ∀ consumed, hasSurrogate (replaceFrom consumed bs) = false := by
    induction bs with
    | nil => exact fun _ => rfl
    | cons a s ih =>
      intro consumed
      cases consumed with
      | succ consumed => exact ih consumed
      | zero =>
        have hhead : isSurrogate ((decodeHead a s).1.getD 0xFFFD) = false := by
          have hsome := isSurrogate_decodeHead a s
          cases hc : (decodeHead a s).1 with
          | none => decide
          | some c => simpa [hc] using hsome
        have htail := ih ((decodeHead a s).2 - 1)
        rw [hasSurrogate] at htail
        rw [replaceFrom, hasSurrogate, List.any_cons, hhead, htail]
        rfl
  exact hrest 0

end AisMixer.Library

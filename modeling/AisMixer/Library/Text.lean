import Mathlib

/-!
# Python text and integers

A `str` is a list of code points, unpaired surrogates included, and `bytes` is a list
of octets. This file has the string methods, `int()` and `str()` of an integer, as the
language documents them. The digit tables are those of Unicode 16.
-/

namespace AisMixer.Library

abbrev CodePoint := Fin 0x110000

instance neZero_codePoints : NeZero 0x110000 := ⟨by decide⟩

/-- A Python `str`. -/
abbrev PyStr := List CodePoint

instance lawfulBEq_codePoint : LawfulBEq CodePoint := inferInstance

instance lawfulBEq_pyStr : LawfulBEq PyStr := inferInstance

abbrev Bytes := List UInt8

lemma char_toNat_lt (c : Char) : c.toNat < 0x110000 := by
  rcases c.valid with h | h
  · exact lt_trans (show c.toNat < 0xd800 from h) (by norm_num)
  · exact h.2

/-- A `str` literal. -/
def str (s : String) : PyStr := s.toList.map (fun c => ⟨c.toNat, char_toNat_lt c⟩)

/-- An ASCII `bytes` literal. -/
def ascii (s : String) : Bytes := s.toList.map (fun c => UInt8.ofNat c.toNat)

/-- The exceptions that the modelled code raises or catches. -/
inductive PyException where
  | typeError (message : PyStr)
  | valueError (message : PyStr)
  | runtimeError (message : PyStr)
  | assertionError (message : PyStr)
  | keyError
  | attributeError
  | unicodeEncodeError
  | unicodeDecodeError
  | jsonDecodeError
  | osError
  | invalidTag
  deriving DecidableEq

/-- A code point that strict UTF-8 cannot encode. -/
def isSurrogate (c : CodePoint) : Bool := 0xD800 ≤ c.val && c.val ≤ 0xDFFF

def hasSurrogate (s : PyStr) : Bool := s.any isSurrogate

/-! ### Character classes -/

/-- The code points of the zeros of the decimal digit runs. -/
def decimalZeros : List Nat :=
  [0x30, 0x660, 0x6F0, 0x7C0, 0x966, 0x9E6, 0xA66, 0xAE6, 0xB66, 0xBE6, 0xC66, 0xCE6, 0xD66,
    0xDE6, 0xE50, 0xED0, 0xF20, 0x1040, 0x1090, 0x17E0, 0x1810, 0x1946, 0x19D0, 0x1A80, 0x1A90,
    0x1B50, 0x1BB0, 0x1C40, 0x1C50, 0xA620, 0xA8D0, 0xA900, 0xA9D0, 0xA9F0, 0xAA50, 0xABF0,
    0xFF10, 0x104A0, 0x10D30, 0x10D40, 0x11066, 0x110F0, 0x11136, 0x111D0, 0x112F0, 0x11450,
    0x114D0, 0x11650, 0x116C0, 0x116D0, 0x116DA, 0x11730, 0x118E0, 0x11950, 0x11BF0, 0x11C50,
    0x11D50, 0x11DA0, 0x11F50, 0x16130, 0x16A60, 0x16AC0, 0x16B50, 0x16D70, 0x1CCF0, 0x1D7CE,
    0x1D7D8, 0x1D7E2, 0x1D7EC, 0x1D7F6, 0x1E140, 0x1E2F0, 0x1E4F0, 0x1E5F1, 0x1E950, 0x1FBF0]

/-- Digits that are not decimal digits: superscripts, circled digits and the like. -/
def otherDigitRanges : List (Nat × Nat) :=
  [(0xB2, 0xB3), (0xB9, 0xB9), (0x1369, 0x1371), (0x19DA, 0x19DA), (0x2070, 0x2070),
    (0x2074, 0x2079), (0x2080, 0x2089), (0x2460, 0x2468), (0x2474, 0x247C), (0x2488, 0x2490),
    (0x24EA, 0x24EA), (0x24F5, 0x24FD), (0x24FF, 0x24FF), (0x2776, 0x277E), (0x2780, 0x2788),
    (0x278A, 0x2792), (0x10A40, 0x10A43), (0x10E60, 0x10E68), (0x11052, 0x1105A),
    (0x1F100, 0x1F10A)]

def spaceRanges : List (Nat × Nat) :=
  [(0x9, 0xD), (0x1C, 0x20), (0x85, 0x85), (0xA0, 0xA0), (0x1680, 0x1680), (0x2000, 0x200A),
    (0x2028, 0x2029), (0x202F, 0x202F), (0x205F, 0x205F), (0x3000, 0x3000)]

def inRanges (ranges : List (Nat × Nat)) (n : Nat) : Bool :=
  ranges.any (fun r => r.1 ≤ n && n ≤ r.2)

/-- The value of a decimal digit. -/
def decimalValue (c : CodePoint) : Option Nat :=
  (decimalZeros.find? (fun z => z ≤ c.val && c.val < z + 10)).map (fun z => c.val - z)

def isDigitChar (c : CodePoint) : Bool :=
  (decimalValue c).isSome || inRanges otherDigitRanges c.val

def isSpaceChar (c : CodePoint) : Bool := inRanges spaceRanges c.val

/-- `str.isdigit()`: non-empty and digits only. -/
def isDigit (s : PyStr) : Bool := !s.isEmpty && s.all isDigitChar

/-! ### String methods -/

/-- `str.strip()`. -/
def strip (s : PyStr) : PyStr :=
  ((s.dropWhile isSpaceChar).reverse.dropWhile isSpaceChar).reverse

/-- `s.partition(sep)` for a one-character separator; the second component tells
whether the separator occurred. -/
def partition (sep : CodePoint) : PyStr → PyStr × Bool × PyStr
  | [] => ([], false, [])
  | c :: cs =>
    if c = sep then ([], true, cs)
    else (c :: (partition sep cs).1, (partition sep cs).2.1, (partition sep cs).2.2)

/-- `s.split(sep, maxsplit)` for a one-character separator. -/
def splitMax (sep : CodePoint) : Nat → PyStr → List PyStr
  | 0, s => [s]
  | n + 1, s =>
    match partition sep s with
    | (_, false, _) => [s]
    | (before, true, after) => before :: splitMax sep n after

/-- `sep.join(parts)`. -/
def join (sep : PyStr) (parts : List PyStr) : PyStr := sep.intercalate parts

/-! ### Integers -/

/-- The longest run of digits that `int()` converts. -/
def intMaxStrDigits : Nat := 4300

/-- White space around a number: ASCII white space without the separators `\x1c`..`\x1f`,
or white space outside ASCII. -/
def isIntSpace (c : CodePoint) : Bool :=
  if c.val < 0x80 then (0x9 ≤ c.val && c.val ≤ 0xD) || c.val == 0x20 else isSpaceChar c

def intStrip (s : PyStr) : PyStr :=
  ((s.dropWhile isIntSpace).reverse.dropWhile isIntSpace).reverse

/-- Digits with single underscores between them, as their value and their number. -/
def digitRun : Bool → Nat → Nat → PyStr → Option (Nat × Nat)
  | afterDigit, value, count, [] => if afterDigit then some (value, count) else none
  | afterDigit, value, count, c :: cs =>
    if c = 0x5F then if afterDigit then digitRun false value count cs else none
    else match decimalValue c with
      | some d => digitRun true (10 * value + d) (count + 1) cs
      | none => none

def unsignedInt (s : PyStr) : Option Nat :=
  match digitRun false 0 0 s with
  | some (value, count) => if count ≤ intMaxStrDigits then some value else none
  | none => none

/-- `int(s)`; `none` is a `ValueError`. -/
def pyInt (s : PyStr) : Option Int :=
  match intStrip s with
  | [] => none
  | c :: cs =>
    if c = 0x2D then (unsignedInt cs).map (fun n => -(n : Int))
    else if c = 0x2B then (unsignedInt cs).map (fun n => (n : Int))
    else (unsignedInt (c :: cs)).map (fun n => (n : Int))

def digitChar (d : Nat) : CodePoint := ⟨0x30 + d % 10, by omega⟩

/-- `str(n)` of a natural number. -/
def natStr (n : Nat) : PyStr :=
  if n = 0 then [0x30] else (Nat.digits 10 n).reverse.map digitChar

/-- `str(i)` of an integer. -/
def intStr : Int → PyStr
  | .ofNat n => natStr n
  | .negSucc n => 0x2D :: natStr (n + 1)

example : pyInt (str " -1_0\n") = some (-10) := by decide

example : intStr (-120) = str "-120" := by decide

end AisMixer.Library

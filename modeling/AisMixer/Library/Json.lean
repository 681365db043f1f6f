import AisMixer.Library.Dict
import AisMixer.Library.Text

/-!
# JSON as the `json` module reads and writes it

`loads` is `json.loads` of a `str`: strings keep unpaired surrogates, an object keeps the
last value of a repeated key at the place of the first, and an integer literal longer than
the conversion limit raises the plain `ValueError` of `int()`. `dumps` is `json.dumps` with
`separators=(",", ":")`.
-/

namespace AisMixer.Library

inductive Json where
  | null
  | bool (b : Bool)
  | int (i : Int)
  /-- A float by its literal; no caller computes with one. -/
  | float (literal : PyStr)
  | str (s : PyStr)
  | arr (items : List Json)
  | obj (members : List (PyStr × Json))

inductive LoadsError where
  | jsonDecodeError
  | valueError
  deriving DecidableEq

namespace Json

/-- `d.get(key)`, with `none` for a missing key or for a value that is no object. -/
def get? (key : PyStr) : Json → Option Json
  | .obj members => Dict.lookupEntries key members
  | _ => none

/-! ### Reading -/

def isWs (c : CodePoint) : Bool := c == 0x20 || c == 0x9 || c == 0xA || c == 0xD

def skipWs (s : PyStr) : PyStr := s.dropWhile isWs

def hexValue (c : CodePoint) : Option Nat :=
  if 0x30 ≤ c.val ∧ c.val ≤ 0x39 then some (c.val - 0x30)
  else if 0x41 ≤ c.val ∧ c.val ≤ 0x46 then some (c.val - 0x37)
  else if 0x61 ≤ c.val ∧ c.val ≤ 0x66 then some (c.val - 0x57)
  else none

def hex4 (a b c d : CodePoint) : Option Nat := do
  let a ← hexValue a
  let b ← hexValue b
  let c ← hexValue c
  let d ← hexValue d
  return ((a * 16 + b) * 16 + c) * 16 + d

/-- The character named by a one-letter escape. -/
def unescape (c : CodePoint) : Option CodePoint :=
  if c = 0x22 ∨ c = 0x5C ∨ c = 0x2F then some c
  else if c = 0x62 then some 0x8
  else if c = 0x66 then some 0xC
  else if c = 0x6E then some 0xA
  else if c = 0x72 then some 0xD
  else if c = 0x74 then some 0x9
  else none

/-- The rest of a string after its opening quote, and the text after its closing one. -/
def scanString : PyStr → Option (PyStr × PyStr)
  | [] => none
  | c :: cs =>
    if c = 0x22 then some ([], cs)
    else if c = 0x5C then
      match cs with
      | [] => none
      | e :: es =>
        if e = 0x75 then
          match es with
          | h1 :: h2 :: h3 :: h4 :: rest =>
            match hex4 h1 h2 h3 h4 with
            | none => none
            | some u =>
              let single : Unit → Option (PyStr × PyStr) := fun _ =>
                (scanString rest).map (fun p => (Fin.ofNat _ u :: p.1, p.2))
              if 0xD800 ≤ u ∧ u < 0xDC00 then
                match rest with
                | b :: v :: l1 :: l2 :: l3 :: l4 :: after =>
                  if b = 0x5C ∧ v = 0x75 then
                    match hex4 l1 l2 l3 l4 with
                    | none => none
                    | some w =>
                      if 0xDC00 ≤ w ∧ w < 0xE000 then
                        (scanString after).map (fun p =>
                          (Fin.ofNat _ (0x10000 + (u - 0xD800) * 0x400 + (w - 0xDC00)) :: p.1, p.2))
                      else single ()
                  else single ()
                | _ => single ()
              else single ()
          | _ => none
        else
          match unescape e with
          | none => none
          | some x => (scanString es).map (fun p => (x :: p.1, p.2))
    else if c.val < 0x20 then none
    else (scanString cs).map (fun p => (c :: p.1, p.2))

def isAsciiDigit (c : CodePoint) : Bool := 0x30 ≤ c.val && c.val ≤ 0x39

def digitsValue (ds : PyStr) : Nat := ds.foldl (fun n c => 10 * n + (c.val - 0x30)) 0

/-- The fraction of a number literal, if there is one. -/
def scanFraction : PyStr → PyStr × PyStr
  | [] => ([], [])
  | c :: cs =>
    if c = 0x2E ∧ cs.takeWhile isAsciiDigit ≠ [] then
      (c :: cs.takeWhile isAsciiDigit, cs.dropWhile isAsciiDigit)
    else ([], c :: cs)

/-- The exponent of a number literal, if there is one. -/
def scanExponent : PyStr → PyStr × PyStr
  | [] => ([], [])
  | c :: cs =>
    let sign := cs.takeWhile (fun d => d == 0x2B || d == 0x2D) |>.take 1
    let rest := cs.drop sign.length
    if (c = 0x65 ∨ c = 0x45) ∧ rest.takeWhile isAsciiDigit ≠ [] then
      (c :: sign ++ rest.takeWhile isAsciiDigit, rest.dropWhile isAsciiDigit)
    else ([], c :: cs)

/-- An unsigned number literal; `maxDigits` is the conversion limit of `int()`, if any. -/
def scanUnsigned (maxDigits : Option Nat) (negative : Bool) (s : PyStr) :
    Except LoadsError (Json × PyStr) :=
  let digits := if s.head? = some 0x30 then [0x30] else s.takeWhile isAsciiDigit
  let rest := s.drop digits.length
  if digits = [] then .error .jsonDecodeError
  else
    let (fraction, rest) := scanFraction rest
    let (exponent, rest) := scanExponent rest
    if fraction ++ exponent ≠ [] then
      .ok (.float ((if negative then [0x2D] else []) ++ digits ++ fraction ++ exponent), rest)
    else if maxDigits.any (fun limit => decide (limit < digits.length)) then .error .valueError
    else .ok (.int (if negative then -(digitsValue digits : Int) else digitsValue digits), rest)

/-- The values that start with a letter, with their texts. -/
def literals : List (PyStr × Json) :=
  [(Library.str "null", .null), (Library.str "true", .bool true), (Library.str "false", .bool false),
    (Library.str "NaN", .float (Library.str "NaN")),
    (Library.str "Infinity", .float (Library.str "Infinity")),
    (Library.str "-Infinity", .float (Library.str "-Infinity"))]

/-- A literal word or a number. -/
def scanScalar (maxDigits : Option Nat) (s : PyStr) : Except LoadsError (Json × PyStr) :=
  match literals.find? (fun l => l.1.isPrefixOf s) with
  | some (word, value) => .ok (value, s.drop word.length)
  | none =>
    match s with
    | [] => .error .jsonDecodeError
    | c :: cs =>
      if c = 0x2D then scanUnsigned maxDigits true cs else scanUnsigned maxDigits false (c :: cs)

/-- `dict(pairs)`. -/
def dictOf (pairs : List (PyStr × Json)) : List (PyStr × Json) :=
  pairs.foldl (fun acc p => Dict.setEntries p.1 p.2 acc) []

mutual

/-- One value at the head of the text; every call spends one unit of fuel and the length
of the text is enough of it. -/
def parseValue (maxDigits : Option Nat) : Nat → PyStr → Except LoadsError (Json × PyStr)
  | 0, _ => .error .jsonDecodeError
  | fuel + 1, s =>
    match s with
    | [] => .error .jsonDecodeError
    | c :: cs =>
      if c = 0x22 then
        match scanString cs with
        | some (t, rest) => .ok (.str t, rest)
        | none => .error .jsonDecodeError
      else if c = 0x5B then
        match skipWs cs with
        | [] => .error .jsonDecodeError
        | d :: rest =>
          if d = 0x5D then .ok (.arr [], rest)
          else (parseElements maxDigits fuel (d :: rest)).map (fun p => (.arr p.1, p.2))
      else if c = 0x7B then
        match skipWs cs with
        | [] => .error .jsonDecodeError
        | d :: rest =>
          if d = 0x7D then .ok (.obj [], rest)
          else (parseMembers maxDigits fuel (d :: rest)).map (fun p => (.obj (dictOf p.1), p.2))
      else scanScalar maxDigits (c :: cs)

def parseElements (maxDigits : Option Nat) : Nat → PyStr → Except LoadsError (List Json × PyStr)
  | 0, _ => .error .jsonDecodeError
  | fuel + 1, s =>
    match parseValue maxDigits fuel s with
    | .error e => .error e
    | .ok (v, rest) =>
      match skipWs rest with
      | [] => .error .jsonDecodeError
      | d :: rest =>
        if d = 0x5D then .ok ([v], rest)
        else if d = 0x2C then
          (parseElements maxDigits fuel (skipWs rest)).map (fun p => (v :: p.1, p.2))
        else .error .jsonDecodeError

def parseMembers (maxDigits : Option Nat) :
    Nat → PyStr → Except LoadsError (List (PyStr × Json) × PyStr)
  | 0, _ => .error .jsonDecodeError
  | fuel + 1, s =>
    match s with
    | [] => .error .jsonDecodeError
    | c :: cs =>
      if c = 0x22 then
        match scanString cs with
        | none => .error .jsonDecodeError
        | some (key, rest) =>
          match skipWs rest with
          | [] => .error .jsonDecodeError
          | d :: rest =>
            if d = 0x3A then
              match parseValue maxDigits fuel (skipWs rest) with
              | .error e => .error e
              | .ok (v, rest) =>
                match skipWs rest with
                | [] => .error .jsonDecodeError
                | d :: rest =>
                  if d = 0x7D then .ok ([(key, v)], rest)
                  else if d = 0x2C then
                    (parseMembers maxDigits fuel (skipWs rest)).map (fun p => ((key, v) :: p.1, p.2))
                  else .error .jsonDecodeError
            else .error .jsonDecodeError
      else .error .jsonDecodeError

end

/-- A whole document, with `maxDigits` as the conversion limit of `int()`. -/
def parse (maxDigits : Option Nat) (s : PyStr) : Except LoadsError Json :=
  if s.head? = some 0xFEFF then .error .jsonDecodeError
  else
    match parseValue maxDigits (s.length + 1) (skipWs s) with
    | .error e => .error e
    | .ok (v, rest) => if skipWs rest = [] then .ok v else .error .jsonDecodeError

/-- `json.loads(s)`. -/
def loads (s : PyStr) : Except LoadsError Json := parse (some intMaxStrDigits) s

/-! ### Writing -/

def hexDigit (n : Nat) : CodePoint := if n < 10 then Fin.ofNat _ (0x30 + n) else Fin.ofNat _ (0x57 + n)

/-- `\uXXXX`. -/
def escapeUnit (n : Nat) : PyStr :=
  [0x5C, 0x75, hexDigit (n / 0x1000 % 16), hexDigit (n / 0x100 % 16), hexDigit (n / 16 % 16),
    hexDigit (n % 16)]

def escapeChar (ensureAscii : Bool) (c : CodePoint) : PyStr :=
  if c = 0x22 then [0x5C, 0x22]
  else if c = 0x5C then [0x5C, 0x5C]
  else if c = 0xA then [0x5C, 0x6E]
  else if c = 0xD then [0x5C, 0x72]
  else if c = 0x9 then [0x5C, 0x74]
  else if c = 0xC then [0x5C, 0x66]
  else if c = 0x8 then [0x5C, 0x62]
  else if c.val < 0x20 then escapeUnit c.val
  else if ensureAscii && 0x7E < c.val then
    if c.val < 0x10000 then escapeUnit c.val
    else escapeUnit (0xD800 + (c.val - 0x10000) / 0x400) ++
      escapeUnit (0xDC00 + (c.val - 0x10000) % 0x400)
  else [c]

def dumpsStr (ensureAscii : Bool) (s : PyStr) : PyStr :=
  0x22 :: s.flatMap (escapeChar ensureAscii) ++ [0x22]

/-- The options of `json.dumps` that callers set. -/
structure DumpsOptions where
  ensureAscii : Bool := true
  sortKeys : Bool := false

/-- The order of `sort_keys=True`. -/
def keyLe {α : Type} (p q : PyStr × α) : Prop := p.1 ≤ q.1

instance {α : Type} : DecidableRel (@keyLe α) := fun p q =>
  inferInstanceAs (Decidable (p.1 ≤ q.1))

mutual

def dumps (o : DumpsOptions) : Json → PyStr
  | .null => Library.str "null"
  | .bool true => Library.str "true"
  | .bool false => Library.str "false"
  | .int i => intStr i
  | .float literal => literal
  | .str s => dumpsStr o.ensureAscii s
  | .arr items => 0x5B :: join [0x2C] (dumpsItems o items) ++ [0x5D]
  | .obj members =>
    let texts := dumpsMembers o members
    0x7B :: join [0x2C] ((if o.sortKeys then texts.insertionSort keyLe else texts).map
      (fun p => dumpsStr o.ensureAscii p.1 ++ 0x3A :: p.2)) ++ [0x7D]

def dumpsItems (o : DumpsOptions) : List Json → List PyStr
  | [] => []
  | v :: vs => dumps o v :: dumpsItems o vs

def dumpsMembers (o : DumpsOptions) : List (PyStr × Json) → List (PyStr × PyStr)
  | [] => []
  | (k, v) :: ms => (k, dumps o v) :: dumpsMembers o ms

end

end Json

end AisMixer.Library

import AisMixer.Library.Json

/-!
# Messages with quoted parts

The text of an exception is built from plain parts and from `repr` of strings. Which code
points `repr` shows unescaped depends on the Unicode tables of the interpreter, so a
`Message` keeps its parts and `render` takes `str.isprintable` as an argument.
-/

namespace AisMixer.Library

inductive MessagePart where
  | text (s : PyStr)
  | repr (s : PyStr)
  deriving DecidableEq

abbrev Message := List MessagePart

/-- `\xXX`, `\uXXXX` or `\UXXXXXXXX`. -/
def reprEscape (n : Nat) : PyStr :=
  if n < 0x100 then [0x5C, 0x78, Json.hexDigit (n / 16 % 16), Json.hexDigit (n % 16)]
  else if n < 0x10000 then Json.escapeUnit n
  else [0x5C, 0x55, 0x30, 0x30, Json.hexDigit (n / 0x100000 % 16), Json.hexDigit (n / 0x10000 % 16),
    Json.hexDigit (n / 0x1000 % 16), Json.hexDigit (n / 0x100 % 16), Json.hexDigit (n / 16 % 16),
    Json.hexDigit (n % 16)]

def reprChar (isPrintable : CodePoint → Bool) (quote c : CodePoint) : PyStr :=
  if c = quote ∨ c = 0x5C then [0x5C, c]
  else if c = 0x9 then [0x5C, 0x74]
  else if c = 0xA then [0x5C, 0x6E]
  else if c = 0xD then [0x5C, 0x72]
  else if c.val < 0x20 ∨ c.val = 0x7F then reprEscape c.val
  else if c.val < 0x7F then [c]
  else if isPrintable c then [c]
  else reprEscape c.val

/-- `repr(s)`: single quotes unless only a double-quoted text needs no escape for them. -/
def reprStr (isPrintable : CodePoint → Bool) (s : PyStr) : PyStr :=
  let quote : CodePoint := if 0x27 ∈ s ∧ 0x22 ∉ s then 0x22 else 0x27
  quote :: s.flatMap (reprChar isPrintable quote) ++ [quote]

def MessagePart.render (isPrintable : CodePoint → Bool) : MessagePart → PyStr
  | .text s => s
  | .repr s => reprStr isPrintable s

def Message.render (isPrintable : CodePoint → Bool) (message : Message) : PyStr :=
  message.flatMap (MessagePart.render isPrintable)

example : reprStr (fun _ => true) (str "it's\n") = str "\"it's\\n\"" := by decide

end AisMixer.Library

import AisMixer.Library.Text

/-!
# Standard base64

`b64encode` and the validating `b64decode` of the `base64` module. The decoder ignores the
unused low bits of the last symbol, so it accepts more texts than the encoder writes.
-/

namespace AisMixer.Library

def base64Symbol (n : Nat) : UInt8 :=
  if n < 26 then UInt8.ofNat (0x41 + n)
  else if n < 52 then UInt8.ofNat (0x61 + (n - 26))
  else if n < 62 then UInt8.ofNat (0x30 + (n - 52))
  else if n = 62 then 0x2B
  else 0x2F

def base64Value (b : UInt8) : Option Nat :=
  if 0x41 ≤ b.toNat ∧ b.toNat ≤ 0x5A then some (b.toNat - 0x41)
  else if 0x61 ≤ b.toNat ∧ b.toNat ≤ 0x7A then some (b.toNat - 0x61 + 26)
  else if 0x30 ≤ b.toNat ∧ b.toNat ≤ 0x39 then some (b.toNat - 0x30 + 52)
  else if b = 0x2B then some 62
  else if b = 0x2F then some 63
  else none

/-- `base64.b64encode(data)`. -/
def b64encode : Bytes → Bytes
  | [] => []
  | [a] => [base64Symbol (a.toNat / 4), base64Symbol (a.toNat % 4 * 16), 0x3D, 0x3D]
  | [a, b] =>
    [base64Symbol (a.toNat / 4), base64Symbol (a.toNat % 4 * 16 + b.toNat / 16),
      base64Symbol (b.toNat % 16 * 4), 0x3D]
  | a :: b :: c :: rest =>
    base64Symbol (a.toNat / 4) :: base64Symbol (a.toNat % 4 * 16 + b.toNat / 16) ::
      base64Symbol (b.toNat % 16 * 4 + c.toNat / 64) :: base64Symbol (c.toNat % 64) :: b64encode rest

/-- The last four symbols, where padding may stand. -/
def b64decodeLast (a b c d : UInt8) : Option Bytes := do
  let x ← base64Value a
  let y ← base64Value b
  if d = 0x3D then
    if c = 0x3D then return [UInt8.ofNat (x * 4 + y / 16)]
    else
      let z ← base64Value c
      return [UInt8.ofNat (x * 4 + y / 16), UInt8.ofNat (y % 16 * 16 + z / 4)]
  else
    let z ← base64Value c
    let w ← base64Value d
    return [UInt8.ofNat (x * 4 + y / 16), UInt8.ofNat (y % 16 * 16 + z / 4),
      UInt8.ofNat (z % 4 * 64 + w)]

/-- `base64.b64decode(data, validate=True)`; `none` is a `binascii.Error`. -/
def b64decode : Bytes → Option Bytes
  | [] => some []
  | a :: b :: c :: d :: rest =>
    if rest = [] then b64decodeLast a b c d
    else do
      let x ← base64Value a
      let y ← base64Value b
      let z ← base64Value c
      let w ← base64Value d
      let tail ← b64decode rest
      return UInt8.ofNat (x * 4 + y / 16) :: UInt8.ofNat (y % 16 * 16 + z / 4) ::
        UInt8.ofNat (z % 4 * 64 + w) :: tail
  | _ => none

example : b64encode (ascii "any") = ascii "YW55" := by decide

/-! ### Round trip -/

lemma base64Value_symbol {n : Nat} (h : n < 64) : base64Value (base64Symbol n) = some n := by
  have hall : ∀ m < 64, base64Value (base64Symbol m) = some m := by decide
  exact hall n h

lemma base64Symbol_ne_pad {n : Nat} (h : n < 64) : base64Symbol n ≠ 0x3D := by
  have hall : ∀ m < 64, base64Symbol m ≠ 0x3D := by decide
  exact hall n h

lemma ofNat_eq_of_toNat {n : Nat} {a : UInt8} (h : n = a.toNat) : UInt8.ofNat n = a := by
  rw [h]
  exact UInt8.ofNat_toNat

lemma b64decodeLast_one (a : UInt8) :
    b64decodeLast (base64Symbol (a.toNat / 4)) (base64Symbol (a.toNat % 4 * 16)) 0x3D 0x3D = some [a] := by
  have ha := a.toNat_lt
  rw [b64decodeLast, base64Value_symbol (by omega), base64Value_symbol (by omega)]
  have hfirst : UInt8.ofNat (a.toNat / 4 * 4 + a.toNat % 4 * 16 / 16) = a :=
    ofNat_eq_of_toNat (by omega)
  simp only [Option.bind_eq_bind, Option.bind_some, if_true, hfirst]
  rfl

lemma b64decodeLast_two (a b : UInt8) :
    b64decodeLast (base64Symbol (a.toNat / 4)) (base64Symbol (a.toNat % 4 * 16 + b.toNat / 16))
      (base64Symbol (b.toNat % 16 * 4)) 0x3D = some [a, b] := by
  have ha := a.toNat_lt
  have hb := b.toNat_lt
  rw [b64decodeLast, base64Value_symbol (by omega), base64Value_symbol (by omega),
    base64Value_symbol (by omega)]
  have hfirst : UInt8.ofNat (a.toNat / 4 * 4 + (a.toNat % 4 * 16 + b.toNat / 16) / 16) = a :=
    ofNat_eq_of_toNat (by omega)
  have hsecond : UInt8.ofNat ((a.toNat % 4 * 16 + b.toNat / 16) % 16 * 16 + b.toNat % 16 * 4 / 4) = b :=
    ofNat_eq_of_toNat (by omega)
  have hpad := base64Symbol_ne_pad (show b.toNat % 16 * 4 < 64 by omega)
  simp only [Option.bind_eq_bind, Option.bind_some, if_true, if_neg hpad, hfirst, hsecond]
  rfl

lemma b64decode_three (a b c : UInt8) {rest tail : Bytes} (hrest : b64decode rest = some tail) :
    b64decode (base64Symbol (a.toNat / 4) :: base64Symbol (a.toNat % 4 * 16 + b.toNat / 16) ::
      base64Symbol (b.toNat % 16 * 4 + c.toNat / 64) :: base64Symbol (c.toNat % 64) :: rest) =
      some (a :: b :: c :: tail) := by
  have ha := a.toNat_lt
  have hb := b.toNat_lt
  have hc := c.toNat_lt
  have hfirst : UInt8.ofNat (a.toNat / 4 * 4 + (a.toNat % 4 * 16 + b.toNat / 16) / 16) = a :=
    ofNat_eq_of_toNat (by omega)
  have hsecond : UInt8.ofNat ((a.toNat % 4 * 16 + b.toNat / 16) % 16 * 16 +
      (b.toNat % 16 * 4 + c.toNat / 64) / 4) = b :=
    ofNat_eq_of_toNat (by omega)
  have hthird : UInt8.ofNat ((b.toNat % 16 * 4 + c.toNat / 64) % 4 * 64 + c.toNat % 64) = c :=
    ofNat_eq_of_toNat (by omega)
  rw [b64decode]
  by_cases hempty : rest = []
  · obtain rfl : tail = [] := by
      rw [hempty, b64decode] at hrest
      exact (Option.some_inj.mp hrest).symm
    rw [if_pos hempty, b64decodeLast, base64Value_symbol (by omega), base64Value_symbol (by omega),
      base64Value_symbol (by omega), base64Value_symbol (by omega)]
    have hpad := base64Symbol_ne_pad (show c.toNat % 64 < 64 by omega)
    simp only [Option.bind_eq_bind, Option.bind_some, if_neg hpad, hfirst, hsecond, hthird]
    rfl
  · rw [if_neg hempty, base64Value_symbol (by omega), base64Value_symbol (by omega),
      base64Value_symbol (by omega), base64Value_symbol (by omega), hrest]
    simp only [Option.bind_eq_bind, Option.bind_some, hfirst, hsecond, hthird]
    rfl

theorem b64decode_b64encode (data : Bytes) : b64decode (b64encode data) = some data := by
  induction data using b64encode.induct with
  | case1 => rfl
  | case2 a =>
    rw [b64encode, b64decode, if_pos rfl]
    exact b64decodeLast_one a
  | case3 a b =>
    rw [b64encode, b64decode, if_pos rfl]
    exact b64decodeLast_two a b
  | case4 a b c rest ih =>
    rw [b64encode]
    exact b64decode_three a b c ih

/-! ### The alphabet -/

lemma base64Symbol_ne_pipe (n : Nat) : base64Symbol n ≠ 0x7C := by
  by_cases h : n < 64
  · have hall : ∀ m < 64, base64Symbol m ≠ 0x7C := by decide
    exact hall n h
  · have hsymbol : base64Symbol n = 0x2F := by
      unfold base64Symbol
      rw [if_neg (by omega), if_neg (by omega), if_neg (by omega), if_neg (by omega)]
    rw [hsymbol]
    decide

lemma pipe_not_mem_b64encode (data : Bytes) : 0x7C ∉ b64encode data := by
  have hpad : (0x7C : UInt8) ≠ 0x3D := by decide
  induction data using b64encode.induct with
  | case1 => simp [b64encode]
  | case2 a => simp [b64encode, (base64Symbol_ne_pipe _).symm, hpad]
  | case3 a b => simp [b64encode, (base64Symbol_ne_pipe _).symm, hpad]
  | case4 a b c rest ih => simp [b64encode, (base64Symbol_ne_pipe _).symm, ih]

lemma b64encode_ne_nil {data : Bytes} (h : data ≠ []) : b64encode data ≠ [] := by
  intro hnil
  have hdecode := b64decode_b64encode data
  rw [hnil, b64decode] at hdecode
  exact h (Option.some_inj.mp hdecode).symm

end AisMixer.Library

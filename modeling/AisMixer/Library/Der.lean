import AisMixer.Library.Framing

/-!
# Two integers in DER

The DER form of a sequence of two natural numbers that fit in a given number of octets, with the
short form of every length. Reading is strict and undoes writing.
-/

namespace AisMixer.Library

/-- `int.from_bytes(bytes, "big")`. -/
def fromBigEndian (bytes : Bytes) : Nat := bytes.foldl (fun n b => n * 256 + b.toNat) 0

lemma fromBigEndian_append (bytes : Bytes) (b : UInt8) :
    fromBigEndian (bytes ++ [b]) = fromBigEndian bytes * 256 + b.toNat := by
  rw [fromBigEndian, List.foldl_append]
  rfl

theorem fromBigEndian_bigEndian {width n : Nat} (h : n < 256 ^ width) :
    fromBigEndian (bigEndian width n) = n := by
  induction width generalizing n with
  | zero =>
    rw [pow_zero] at h
    obtain rfl : n = 0 := by omega
    rfl
  | succ width ih =>
    have hdiv : n / 256 < 256 ^ width := by
      rw [pow_succ] at h
      exact Nat.div_lt_of_lt_mul (by omega)
    have hbyte : (UInt8.ofNat n).toNat = n % 256 := by simp
    rw [bigEndian, fromBigEndian_append, ih hdiv, hbyte]
    omega

lemma fromBigEndian_zero_cons (bytes : Bytes) : fromBigEndian (0 :: bytes) = fromBigEndian bytes := rfl

/-- The octets without leading zeros. -/
def stripZeros (bytes : Bytes) : Bytes := bytes.dropWhile (· == 0)

lemma fromBigEndian_stripZeros (bytes : Bytes) : fromBigEndian (stripZeros bytes) = fromBigEndian bytes := by
  induction bytes with
  | nil => rfl
  | cons b rest ih =>
    by_cases hb : b = 0
    · rw [hb, fromBigEndian_zero_cons, ← ih]
      rfl
    · rw [stripZeros, List.dropWhile_cons_of_neg (by simpa using hb)]

/-- The contents of an INTEGER: a leading zero octet keeps it from being negative. -/
def integerContents (width n : Nat) : Bytes :=
  match stripZeros (bigEndian width n) with
  | [] => [0]
  | b :: rest => if b < 0x80 then b :: rest else 0 :: b :: rest

lemma fromBigEndian_integerContents {width n : Nat} (h : n < 256 ^ width) :
    fromBigEndian (integerContents width n) = n := by
  have hvalue := fromBigEndian_stripZeros (bigEndian width n)
  rw [fromBigEndian_bigEndian h] at hvalue
  unfold integerContents
  split
  · next hstrip =>
    rw [hstrip] at hvalue
    exact hvalue
  · next hstrip =>
    rw [hstrip] at hvalue
    split
    · exact hvalue
    · rw [fromBigEndian_zero_cons]
      exact hvalue

lemma length_integerContents (width n : Nat) :
    1 ≤ (integerContents width n).length ∧ (integerContents width n).length ≤ width + 1 := by
  have hstrip : (stripZeros (bigEndian width n)).length ≤ width := by
    have hle := (@List.dropWhile_sublist _ (bigEndian width n) (· == 0)).length_le
    rwa [length_bigEndian] at hle
  unfold integerContents
  split
  · simp
  · next b rest hbytes =>
    rw [hbytes, List.length_cons] at hstrip
    split <;> simp only [List.length_cons] <;> omega

/-- Not negative, and no shorter form of the same number. -/
def isMinimal : Bytes → Bool
  | [] => false
  | [b] => b < 0x80
  | b :: c :: _ => b < 0x80 && (b != 0 || 0x80 ≤ c)

lemma isMinimal_integerContents (width n : Nat) : isMinimal (integerContents width n) = true := by
  unfold integerContents
  split
  · rfl
  · next b rest hbytes =>
    have hne : (b == 0) = false := by
      have hhead := List.head?_dropWhile_not (· == 0) (bigEndian width n)
      rw [← stripZeros, hbytes] at hhead
      simpa using hhead
    split
    · next hsmall =>
      cases rest with
      | nil => simpa [isMinimal] using hsmall
      | cons c rest => simp [isMinimal, hsmall, bne, hne]
    · next hlarge =>
      have hlarge' : (0x80 : UInt8) ≤ b := UInt8.not_lt.mp hlarge
      simp [isMinimal, hlarge']

/-- A tag, a length in the short form, and the contents. -/
def tagged (tag : UInt8) (contents : Bytes) : Bytes := tag :: UInt8.ofNat contents.length :: contents

/-- The contents behind a tag and what follows them. -/
def readTagged (tag : UInt8) : Bytes → Option (Bytes × Bytes)
  | t :: length :: rest =>
    if t = tag ∧ length < 0x80 ∧ length.toNat ≤ rest.length then
      some (rest.take length.toNat, rest.drop length.toNat)
    else none
  | _ => none

lemma readTagged_tagged {contents : Bytes} (h : contents.length < 0x80) (tag : UInt8) (rest : Bytes) :
    readTagged tag (tagged tag contents ++ rest) = some (contents, rest) := by
  have hlength : (UInt8.ofNat contents.length).toNat = contents.length := by
    simp only [UInt8.toNat_ofNat']
    omega
  have hshort : UInt8.ofNat contents.length < 0x80 := by
    rw [UInt8.lt_iff_toNat_lt, hlength]
    exact h
  simp [tagged, readTagged, hlength, hshort]

/-- `encode_dss_signature`: the sequence of two integers. -/
def encodeDerPair (width r s : Nat) : Bytes :=
  tagged 0x30 (tagged 0x02 (integerContents width r) ++ tagged 0x02 (integerContents width s))

/-- `decode_dss_signature`; `none` is the exception `ValueError`. -/
def decodeDerPair (bytes : Bytes) : Option (Nat × Nat) := do
  let (sequence, rest) ← readTagged 0x30 bytes
  let (r, sequence) ← readTagged 0x02 sequence
  let (s, sequence) ← readTagged 0x02 sequence
  if rest = [] ∧ sequence = [] ∧ isMinimal r ∧ isMinimal s then
    some (fromBigEndian r, fromBigEndian s)
  else none

theorem decodeDerPair_encodeDerPair {width r s : Nat} (hwidth : width ≤ 60) (hr : r < 256 ^ width)
    (hs : s < 256 ^ width) : decodeDerPair (encodeDerPair width r s) = some (r, s) := by
  have hlr := (length_integerContents width r).2
  have hls := (length_integerContents width s).2
  have hsequence : (tagged 0x02 (integerContents width r) ++
      tagged 0x02 (integerContents width s)).length < 0x80 := by
    simp only [tagged, List.length_append, List.length_cons]
    omega
  have houter := readTagged_tagged hsequence 0x30 []
  have hfirst := @readTagged_tagged (integerContents width r) (by omega) 0x02
    (tagged 0x02 (integerContents width s))
  have hsecond := @readTagged_tagged (integerContents width s) (by omega) 0x02 []
  rw [List.append_nil] at houter hsecond
  simp only [decodeDerPair, encodeDerPair, houter, hfirst, hsecond, Option.bind_eq_bind, Option.bind_some,
    isMinimal_integerContents, fromBigEndian_integerContents hr, fromBigEndian_integerContents hs,
    and_self, if_true]

lemma encodeDerPair_ne_nil (width r s : Nat) : encodeDerPair width r s ≠ [] := by
  simp [encodeDerPair, tagged]

end AisMixer.Library

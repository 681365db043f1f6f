import AisMixer.Udpsec.Crypto
import AisMixer.Library.Der

/-!
# Transcript signatures

A scalar pair and its mirror image are valid for the same digests. Signing keeps the low one of the
two, and verification takes only the canonical form of the low one, so that a digest has one
accepted signature for each pair and its mirror image.
-/

namespace AisMixer.Udpsec

open AisMixer.Library

variable {Private Public : Type} {p : Primitives Private Public}

/-- ECDSA on P-256 and its DER codec, as documented. `accepts` is the equation of ECDSA, which has
the same solutions for `s` and for the order less `s`. -/
structure EcdsaLaws (p : Primitives Private Public) (accepts : Public → Bytes → Int → Int → Prop) : Prop where
  decode_encode : ∀ r s, validP256Scalar r = true → validP256Scalar s = true →
    p.decodeDssSignature (p.encodeDssSignature r s) = some (r, s)
  encode_ne_nil : ∀ r s, p.encodeDssSignature r s ≠ []
  verify_iff : ∀ key digest r s, validP256Scalar r = true → validP256Scalar s = true →
    (p.ecdsaVerify key (p.encodeDssSignature r s) digest = true ↔ accepts key digest r s)
  mirror : ∀ key digest r s, validP256Scalar r = true → validP256Scalar s = true →
    (accepts key digest r s ↔ accepts key digest r (p256Order - s))
  sign_valid : ∀ key digest draw, digest.length = 32 →
    p.ecdsaVerify (p.publicKey key) (p.ecdsaSign key digest draw) digest = true

/-! ### The two halves of the scalars -/

lemma validP256Scalar_iff (value : Int) :
    validP256Scalar value = true ↔ 1 ≤ value ∧ value < p256Order := by
  simp [validP256Scalar]

lemma validP256Scalar_mirror {s : Int} (h : validP256Scalar s = true) :
    validP256Scalar (p256Order - s) = true := by
  rw [validP256Scalar_iff] at h ⊢
  omega

/-- The order is odd: of a scalar and its mirror image exactly one is low. -/
lemma low_iff_mirror_high (s : Int) : s ≤ p256HalfOrder ↔ p256HalfOrder < p256Order - s := by
  unfold p256HalfOrder p256Order
  omega

/-- The scalar that a signature goes out with. -/
def lowScalar (s : Int) : Int := if p256HalfOrder < s then p256Order - s else s

lemma lowScalar_le (s : Int) : lowScalar s ≤ p256HalfOrder := by
  unfold lowScalar
  split
  · next hhigh =>
    rw [low_iff_mirror_high]
    simpa using hhigh
  · next hlow => exact not_lt.mp hlow

lemma validP256Scalar_lowScalar {s : Int} (h : validP256Scalar s = true) :
    validP256Scalar (lowScalar s) = true := by
  unfold lowScalar
  split
  · exact validP256Scalar_mirror h
  · exact h

lemma EcdsaLaws.lowScalar_accepts {accepts : Public → Bytes → Int → Int → Prop} (h : EcdsaLaws p accepts)
    {key : Public} {digest : Bytes} {r s : Int} (hr : validP256Scalar r = true)
    (hs : validP256Scalar s = true) : accepts key digest r (lowScalar s) ↔ accepts key digest r s := by
  unfold lowScalar
  split
  · exact (h.mirror key digest r s hr hs).symm
  · exact Iff.rfl

/-! ### What the two functions return -/

lemma transcriptDigestBytes_ok_iff {digest normalized : Bytes} :
    transcriptDigestBytes digest = .ok normalized ↔ digest.length = 32 ∧ normalized = digest := by
  unfold transcriptDigestBytes
  split
  · next h => simp [h]
  · next h => simp [not_not.mp h, eq_comm]

lemma signTranscriptDigest_ok_iff {key : Private} {digest draw signature : Bytes} :
    signTranscriptDigest p key digest draw = .ok signature ↔ digest.length = 32 ∧
      p.ecdsaSign key digest draw ≠ [] ∧ ∃ r s,
        p.decodeDssSignature (p.ecdsaSign key digest draw) = some (r, s) ∧
        validP256Scalar r = true ∧ validP256Scalar s = true ∧
        p.encodeDssSignature r s = p.ecdsaSign key digest draw ∧
        p.encodeDssSignature r (lowScalar s) ≠ [] ∧
        signature = p.encodeDssSignature r (lowScalar s) := by
  unfold signTranscriptDigest
  simp only [bind_eq_ok_iff, transcriptDigestBytes_ok_iff, throw_if_eq_ok_iff, orRaise_eq_ok_iff]
  constructor
  · rintro ⟨_, ⟨hlength, rfl⟩, hnil, ⟨r, s⟩, hdecode, hscalars, hcanonical, hne, hsignature⟩
    simp only [Bool.or_eq_true, Bool.not_eq_true', not_or, Bool.not_eq_false] at hscalars
    exact ⟨hlength, hnil, r, s, hdecode, hscalars.1, hscalars.2, not_not.mp hcanonical, hne,
      (Except.ok.inj hsignature).symm⟩
  · rintro ⟨hlength, hnil, r, s, hdecode, hr, hs, hcanonical, hne, rfl⟩
    refine ⟨digest, ⟨hlength, rfl⟩, hnil, (r, s), hdecode, ?_, not_not.mpr hcanonical, hne, rfl⟩
    simp [hr, hs]

lemma verifyTranscriptSignature_eq {key : Public} {signature digest : Bytes} (hdigest : digest.length = 32) :
    ∃ accepted, verifyTranscriptSignature p key signature digest = .ok accepted ∧
      (accepted = true ↔ signature ≠ [] ∧ ∃ r s, p.decodeDssSignature signature = some (r, s) ∧
        validP256Scalar r = true ∧ validP256Scalar s = true ∧ s ≤ p256HalfOrder ∧
        p.encodeDssSignature r s = signature ∧ p.ecdsaVerify key signature digest = true) := by
  unfold verifyTranscriptSignature
  rw [transcriptDigestBytes_ok_iff.mpr ⟨hdigest, rfl⟩]
  by_cases hnil : signature = []
  · exact ⟨false, by simp [hnil, Bind.bind, Except.bind, pure, Except.pure], by simp [hnil]⟩
  · cases hdecode : p.decodeDssSignature signature with
    | none =>
      exact ⟨false, by simp [hnil, Bind.bind, Except.bind, pure, Except.pure], by simp⟩
    | some scalars =>
      obtain ⟨r, s⟩ := scalars
      refine ⟨validP256Scalar r && validP256Scalar s && !decide (p256HalfOrder < s) &&
        p.encodeDssSignature r s == signature && p.ecdsaVerify key signature digest, ?_, ?_⟩
      · simp only [hnil, Bind.bind, Except.bind, pure, Except.pure, if_false]
      · simp only [Bool.and_eq_true, Bool.not_eq_true', decide_eq_false_iff_not, not_lt, beq_iff_eq,
          Option.some.injEq, Prod.mk.injEq]
        constructor
        · rintro ⟨⟨⟨⟨hr, hs⟩, hlow⟩, hcanonical⟩, hverify⟩
          exact ⟨hnil, r, s, ⟨rfl, rfl⟩, hr, hs, hlow, hcanonical, hverify⟩
        · rintro ⟨-, r', s', ⟨rfl, rfl⟩, hr, hs, hlow, hcanonical, hverify⟩
          exact ⟨⟨⟨⟨hr, hs⟩, hlow⟩, hcanonical⟩, hverify⟩

/-- A signature is accepted exactly when it is the canonical form of a valid low pair. -/
lemma EcdsaLaws.accepted_iff {accepts : Public → Bytes → Int → Int → Prop} (h : EcdsaLaws p accepts)
    {key : Public} {signature digest : Bytes} (hdigest : digest.length = 32) :
    verifyTranscriptSignature p key signature digest = .ok true ↔ ∃ r s,
      signature = p.encodeDssSignature r s ∧ validP256Scalar r = true ∧ validP256Scalar s = true ∧
        s ≤ p256HalfOrder ∧ accepts key digest r s := by
  obtain ⟨accepted, hverify, haccepted⟩ := @verifyTranscriptSignature_eq _ _ p key signature digest hdigest
  rw [hverify, Except.ok.injEq, haccepted]
  constructor
  · rintro ⟨-, r, s, -, hr, hs, hlow, rfl, hvalid⟩
    exact ⟨r, s, rfl, hr, hs, hlow, (h.verify_iff key digest r s hr hs).mp hvalid⟩
  · rintro ⟨r, s, rfl, hr, hs, hlow, hvalid⟩
    exact ⟨h.encode_ne_nil r s, r, s, h.decode_encode r s hr hs, hr, hs, hlow, rfl,
      (h.verify_iff key digest r s hr hs).mpr hvalid⟩

/-- Whatever is not accepted is refused without an exception. -/
lemma verify_false_of_not_true {key : Public} {signature digest : Bytes} (hdigest : digest.length = 32)
    (h : verifyTranscriptSignature p key signature digest ≠ .ok true) :
    verifyTranscriptSignature p key signature digest = .ok false := by
  obtain ⟨accepted, hverify, -⟩ := @verifyTranscriptSignature_eq _ _ p key signature digest hdigest
  rw [hverify] at h ⊢
  cases accepted with
  | false => rfl
  | true => exact absurd rfl h

lemma digest_length_of_verify {key : Public} {signature digest : Bytes} {accepted : Bool}
    (h : verifyTranscriptSignature p key signature digest = .ok accepted) : digest.length = 32 := by
  unfold verifyTranscriptSignature at h
  obtain ⟨_, hdigest, -⟩ := bind_eq_ok_iff.mp h
  exact (transcriptDigestBytes_ok_iff.mp hdigest).1

/-- Signing succeeds on every canonical pair in range that the backend produces, and what it returns
is accepted. Of an accepted signature the mirror image is refused although the backend takes it, and
so is every other form of either pair; a form that is not canonical is never accepted. -/
theorem transcript_signatures_unique {accepts : Public → Bytes → Int → Int → Prop}
    (h : EcdsaLaws p accepts) :
    (∀ key digest draw r s, digest.length = 32 → validP256Scalar r = true → validP256Scalar s = true →
      p.ecdsaSign key digest draw = p.encodeDssSignature r s →
      ∃ signature, signTranscriptDigest p key digest draw = .ok signature) ∧
    (∀ key digest draw signature, signTranscriptDigest p key digest draw = .ok signature →
      verifyTranscriptSignature p (p.publicKey key) signature digest = .ok true) ∧
    (∀ key digest signature, verifyTranscriptSignature p key signature digest = .ok true →
      ∃ r s, p.decodeDssSignature signature = some (r, s) ∧
        p.ecdsaVerify key (p.encodeDssSignature r (p256Order - s)) digest = true ∧
        verifyTranscriptSignature p key (p.encodeDssSignature r (p256Order - s)) digest = .ok false ∧
        ∀ other, other ≠ signature → p.decodeDssSignature other = some (r, s) ∨
          p.decodeDssSignature other = some (r, p256Order - s) →
          verifyTranscriptSignature p key other digest = .ok false) ∧
    ∀ key digest signature r s, digest.length = 32 → p.decodeDssSignature signature = some (r, s) →
      p.encodeDssSignature r s ≠ signature →
      verifyTranscriptSignature p key signature digest = .ok false := by
  refine ⟨?_, ?_, ?_, ?_⟩
  · intro key digest draw r s hdigest hr hs hsign
    refine ⟨_, signTranscriptDigest_ok_iff.mpr ⟨hdigest, ?_, r, s, ?_, hr, hs, hsign.symm,
      h.encode_ne_nil _ _, rfl⟩⟩
    · rw [hsign]
      exact h.encode_ne_nil r s
    · rw [hsign]
      exact h.decode_encode r s hr hs
  · intro key digest draw signature hsign
    obtain ⟨hdigest, -, r, s, -, hr, hs, hcanonical, -, rfl⟩ := signTranscriptDigest_ok_iff.mp hsign
    have hvalid := h.sign_valid key digest draw hdigest
    rw [← hcanonical, h.verify_iff _ _ _ _ hr hs] at hvalid
    exact (h.accepted_iff hdigest).mpr ⟨r, lowScalar s, rfl, hr, validP256Scalar_lowScalar hs,
      lowScalar_le s, (h.lowScalar_accepts hr hs).mpr hvalid⟩
  · intro key digest signature haccepted
    have hdigest := digest_length_of_verify haccepted
    obtain ⟨r, s, rfl, hr, hs, hlow, hvalid⟩ := (h.accepted_iff hdigest).mp haccepted
    have hmirror := validP256Scalar_mirror hs
    have hhigh := (low_iff_mirror_high s).mp hlow
    -- whatever else is accepted is the canonical form of its own low pair
    have hother : ∀ other, other ≠ p.encodeDssSignature r s →
        p.decodeDssSignature other = some (r, s) ∨
          p.decodeDssSignature other = some (r, p256Order - s) →
        verifyTranscriptSignature p key other digest = .ok false := by
      intro other hne hdecode
      apply verify_false_of_not_true hdigest
      intro hcontra
      obtain ⟨r', s', rfl, hr', hs', hlow', -⟩ := (h.accepted_iff hdigest).mp hcontra
      rw [h.decode_encode r' s' hr' hs', Option.some.injEq, Option.some.injEq, Prod.mk.injEq,
        Prod.mk.injEq] at hdecode
      rcases hdecode with ⟨rfl, rfl⟩ | ⟨-, rfl⟩
      · exact hne rfl
      · exact absurd hlow' (not_le.mpr hhigh)
    refine ⟨r, s, h.decode_encode r s hr hs, ?_, ?_, hother⟩
    · rw [h.verify_iff _ _ _ _ hr hmirror, ← h.mirror key digest r s hr hs]
      exact hvalid
    · apply hother
      · intro heq
        have hdecode := h.decode_encode r (p256Order - s) hr hmirror
        rw [heq, h.decode_encode r s hr hs, Option.some.injEq, Prod.mk.injEq] at hdecode
        rw [← hdecode.2] at hhigh
        exact absurd hlow (not_le.mpr hhigh)
      · exact .inr (h.decode_encode r _ hr hmirror)
  · intro key digest signature r s hdigest hdecode hne
    apply verify_false_of_not_true hdigest
    intro hcontra
    obtain ⟨r', s', rfl, hr', hs', -, -⟩ := (h.accepted_iff hdigest).mp hcontra
    rw [h.decode_encode r' s' hr' hs', Option.some.injEq, Prod.mk.injEq] at hdecode
    obtain ⟨rfl, rfl⟩ := hdecode
    exact hne rfl

/-! ### Points that are their own exponents -/

/-- A number for a digest. -/
def digestExponent (digest : Bytes) : Int := 1 + (digest.map UInt8.toNat).sum

/-- The equation of ECDSA in a group whose points are their exponents and whose first coordinate
forgets the sign. -/
def ExponentAccepts (key : Nat) (digest : Bytes) (r s : Int) : Prop :=
  p256Order ∣ s * r - (digestExponent digest + r * key) ∨
    p256Order ∣ s * r + (digestExponent digest + r * key)

instance (key : Nat) (digest : Bytes) (r s : Int) : Decidable (ExponentAccepts key digest r s) :=
  inferInstanceAs (Decidable (_ ∨ _))

def exponentDecode (signature : Bytes) : Option (Int × Int) :=
  (decodeDerPair signature).map (fun scalars => (scalars.1, scalars.2))

def exponentEncode (r s : Int) : Bytes := encodeDerPair 32 r.toNat s.toNat

/-- Primitives over this group: they keep no secret, but they compute what the code relies on. -/
def exponentPrimitives : Primitives Nat Nat where
  sha256 bytes := bigEndian 32 (fromBigEndian bytes)
  hkdf salt info key := bigEndian 32 (fromBigEndian (salt ++ info ++ key))
  publicKey key := key % 2 ^ 255
  publicBytes key := 0x02 :: bigEndian 32 key
  fromEncodedPoint encoded := some (fromBigEndian encoded.tail)
  exchange key peer := bigEndian 32 (key * peer)
  ecdsaSign key digest _ := exponentEncode 1 (digestExponent digest + (key % 2 ^ 255 : Nat))
  ecdsaVerify key signature digest := (exponentDecode signature).any
    (fun scalars => decide (ExponentAccepts key digest scalars.1 scalars.2))
  decodeDssSignature := exponentDecode
  encodeDssSignature := exponentEncode
  encrypt key nonce text aad := text ++ bigEndian 16 (fromBigEndian (key ++ nonce ++ aad ++ text))
  decrypt key nonce ciphertext aad :=
    let text := ciphertext.take (ciphertext.length - 16)
    if ciphertext = text ++ bigEndian 16 (fromBigEndian (key ++ nonce ++ aad ++ text)) then some text
    else none

lemma exponentDecode_exponentEncode {r s : Int} (hr : validP256Scalar r = true)
    (hs : validP256Scalar s = true) : exponentDecode (exponentEncode r s) = some (r, s) := by
  rw [validP256Scalar_iff] at hr hs
  unfold p256Order at hr hs
  have hpow : (256 : Nat) ^ 32 = 0x10000000000000000000000000000000000000000000000000000000000000000 := by
    norm_num
  have hdecode := @decodeDerPair_encodeDerPair 32 r.toNat s.toNat (by omega) (by omega) (by omega)
  rw [exponentDecode, exponentEncode, hdecode, Option.map_some, Int.toNat_of_nonneg (by omega),
    Int.toNat_of_nonneg (by omega)]

/-- The sum of the octets of a digest is far below the order. -/
lemma digestExponent_bounds {digest : Bytes} (h : digest.length = 32) :
    1 ≤ digestExponent digest ∧ digestExponent digest ≤ 8161 := by
  have hsum : (digest.map UInt8.toNat).sum ≤ (digest.map UInt8.toNat).length * 255 := by
    apply List.sum_le_card_nsmul
    intro n hn
    obtain ⟨b, -, rfl⟩ := List.mem_map.mp hn
    exact Nat.le_of_lt_succ (UInt8.toNat_lt b)
  rw [List.length_map, h] at hsum
  unfold digestExponent
  omega

lemma exponentPrimitives_decode : exponentPrimitives.decodeDssSignature = exponentDecode := rfl

lemma exponentPrimitives_encode : exponentPrimitives.encodeDssSignature = exponentEncode := rfl

lemma exponentAccepts_mirror (key : Nat) (digest : Bytes) (r s : Int) :
    ExponentAccepts key digest r s ↔ ExponentAccepts key digest r (p256Order - s) := by
  have hminus : (p256Order - s) * r - (digestExponent digest + r * key) =
      p256Order * r - (s * r + (digestExponent digest + r * key)) := by ring
  have hplus : (p256Order - s) * r + (digestExponent digest + r * key) =
      p256Order * r - (s * r - (digestExponent digest + r * key)) := by ring
  rw [ExponentAccepts, ExponentAccepts, hminus, hplus, dvd_sub_right (dvd_mul_right _ _),
    dvd_sub_right (dvd_mul_right _ _)]
  exact Or.comm

/-- With the first nonce the equation is an identity. -/
lemma exponentAccepts_one (key : Nat) (digest : Bytes) :
    ExponentAccepts key digest 1 (digestExponent digest + key) := by
  left
  rw [mul_one, one_mul, sub_self]
  exact dvd_zero _

lemma exponentVerify_iff {key : Nat} {digest : Bytes} {r s : Int} (hr : validP256Scalar r = true)
    (hs : validP256Scalar s = true) :
    exponentPrimitives.ecdsaVerify key (exponentEncode r s) digest = true ↔
      ExponentAccepts key digest r s := by
  have hdecode := exponentDecode_exponentEncode hr hs
  simp only [exponentPrimitives, hdecode, Option.any_some, decide_eq_true_iff]

lemma exponentLaws : EcdsaLaws exponentPrimitives ExponentAccepts where
  decode_encode r s hr hs := by
    rw [exponentPrimitives_decode, exponentPrimitives_encode]
    exact exponentDecode_exponentEncode hr hs
  encode_ne_nil r s := encodeDerPair_ne_nil 32 r.toNat s.toNat
  verify_iff key digest r s hr hs := exponentVerify_iff hr hs
  mirror key digest r s _ _ := exponentAccepts_mirror key digest r s
  sign_valid key digest draw hdigest := by
    obtain ⟨hlow, hhigh⟩ := digestExponent_bounds hdigest
    have hkey : key % 2 ^ 255 < 2 ^ 255 := Nat.mod_lt _ (by norm_num)
    have hsign : exponentPrimitives.ecdsaSign key digest draw =
      exponentEncode 1 (digestExponent digest + (key % 2 ^ 255 : Nat)) := rfl
    have hpublic : exponentPrimitives.publicKey key = key % 2 ^ 255 := rfl
    rw [hsign, hpublic]
    generalize key % 2 ^ 255 = exponent at hkey
    have hs : validP256Scalar (digestExponent digest + exponent) = true := by
      rw [validP256Scalar_iff]
      unfold p256Order
      norm_num at hkey
      omega
    exact (exponentVerify_iff (by decide) hs).mpr (exponentAccepts_one exponent digest)

/-- A backend that produces a high pair: the signature goes out with the low one. -/
theorem transcript_signatures_unique_high :
    let key : Nat := 2 ^ 255 - 1
    let digest : Bytes := List.replicate 32 7
    ∃ signature r s, signTranscriptDigest exponentPrimitives key digest [] = .ok signature ∧
      signature ≠ exponentPrimitives.ecdsaSign key digest [] ∧
      verifyTranscriptSignature exponentPrimitives (exponentPrimitives.publicKey key) signature digest =
        .ok true ∧
      exponentPrimitives.decodeDssSignature signature = some (r, s) ∧
      verifyTranscriptSignature exponentPrimitives (exponentPrimitives.publicKey key)
        (exponentPrimitives.encodeDssSignature r (p256Order - s)) digest = .ok false := by
  intro key digest
  obtain ⟨hsigns, haccepts, hmirror, -⟩ := transcript_signatures_unique exponentLaws
  obtain ⟨signature, hsign⟩ := hsigns key digest [] 1 (225 + key) rfl (by decide +kernel)
    (by decide +kernel) (by decide +kernel)
  have haccepted := haccepts key digest [] signature hsign
  obtain ⟨r, s, hdecode, -, hrefused, -⟩ := hmirror _ _ _ haccepted
  refine ⟨signature, r, s, hsign, ?_, haccepted, hdecode, hrefused⟩
  rintro rfl
  have hhigh : verifyTranscriptSignature exponentPrimitives (exponentPrimitives.publicKey key)
      (exponentPrimitives.ecdsaSign key digest []) digest = .ok false := by decide +kernel
  rw [hhigh] at haccepted
  cases haccepted

end AisMixer.Udpsec

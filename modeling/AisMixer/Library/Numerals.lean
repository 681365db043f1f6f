import AisMixer.Library.Text

/-!
# Decimal numerals

`int()` reads back what `str()` writes, within its limit on the number of digits, and what it
reads is below the power of ten that the limit gives.
-/

namespace AisMixer.Library

/-! ### Digits -/

lemma decimalValue_lt {c : CodePoint} {d : Nat} (h : decimalValue c = some d) : d < 10 := by
  obtain ⟨z, hz, rfl⟩ := Option.map_eq_some_iff.mp h
  have hin := List.find?_some hz
  simp only [Bool.and_eq_true, decide_eq_true_eq] at hin
  omega

lemma digitChar_spec : ∀ d < 10, decimalValue (digitChar d) = some d ∧ isDigitChar (digitChar d) = true ∧
    isIntSpace (digitChar d) = false ∧ digitChar d ≠ 0x2D ∧ digitChar d ≠ 0x2B ∧ digitChar d ≠ 0x5F := by
  decide

/-- The digits of a number, the first one first. -/
def natDigits (n : Nat) : List Nat := if n = 0 then [0] else (Nat.digits 10 n).reverse

lemma natStr_eq (n : Nat) : natStr n = (natDigits n).map digitChar := by
  unfold natStr natDigits
  split <;> rfl

lemma natDigits_lt (n : Nat) : ∀ d ∈ natDigits n, d < 10 := by
  intro d hd
  unfold natDigits at hd
  split at hd
  · rw [List.mem_singleton.mp hd]
    norm_num
  · exact Nat.digits_lt_base (by norm_num) (List.mem_reverse.mp hd)

lemma natDigits_ne_nil (n : Nat) : natDigits n ≠ [] := by
  unfold natDigits
  split
  · simp
  · next h => simpa [Nat.digits_eq_nil_iff_eq_zero] using h

lemma natDigits_length {n k : Nat} (hk : 0 < k) (h : n < 10 ^ k) : (natDigits n).length ≤ k := by
  unfold natDigits
  split
  · exact hk
  · rw [List.length_reverse]
    exact (Nat.digits_length_le_iff (by norm_num) n).mpr h

lemma natDigits_value (n : Nat) : (natDigits n).foldl (fun v d => 10 * v + d) 0 = n := by
  unfold natDigits
  split
  · next h => rw [h]; rfl
  · rw [List.foldl_reverse]
    have h := Nat.ofDigits_digits 10 n
    rw [Nat.ofDigits_eq_foldr] at h
    conv_rhs => rw [← h]
    congr 1
    funext d v
    push_cast
    ring

lemma natStr_ne_nil (n : Nat) : natStr n ≠ [] := by
  rw [natStr_eq]
  simpa using natDigits_ne_nil n

lemma natStr_digits {n : Nat} {c : CodePoint} (hc : c ∈ natStr n) : ∃ d < 10, c = digitChar d := by
  rw [natStr_eq] at hc
  obtain ⟨d, hd, rfl⟩ := List.mem_map.mp hc
  exact ⟨d, natDigits_lt n d hd, rfl⟩

lemma isDigit_natStr (n : Nat) : isDigit (natStr n) = true := by
  simp only [isDigit, Bool.and_eq_true, Bool.not_eq_true', List.isEmpty_eq_false_iff, List.all_eq_true]
  refine ⟨natStr_ne_nil n, fun c hc => ?_⟩
  obtain ⟨d, hd, rfl⟩ := natStr_digits hc
  exact (digitChar_spec d hd).2.1

/-! ### Reading back -/

lemma digitRun_digits (ds : List Nat) :
    ∀ (afterDigit : Bool) (value count : Nat), (∀ d ∈ ds, d < 10) → (ds ≠ [] ∨ afterDigit = true) →
      digitRun afterDigit value count (ds.map digitChar) =
        some (ds.foldl (fun v d => 10 * v + d) value, count + ds.length) := by
  induction ds with
  | nil =>
    intro afterDigit value count _ h
    have hafter : afterDigit = true := by simpa using h
    simp [digitRun, hafter]
  | cons d ds ih =>
    intro afterDigit value count hds _
    obtain ⟨hvalue, -, -, -, -, hunderscore⟩ := digitChar_spec d (hds d (by simp))
    have hrest := ih true (10 * value + d) (count + 1) (fun x hx => hds x (List.mem_cons_of_mem _ hx))
      (.inr rfl)
    rw [List.map_cons, digitRun, if_neg hunderscore, hvalue]
    simp only
    rw [hrest, List.foldl_cons, List.length_cons]
    congr 2
    omega

lemma dropWhile_eq_self {α : Type} {p : α → Bool} {xs : List α} (h : ∀ x ∈ xs, p x = false) :
    xs.dropWhile p = xs := by
  cases xs with
  | nil => rfl
  | cons x xs => simp [h x (by simp)]

lemma intStrip_eq_self {s : PyStr} (h : ∀ c ∈ s, isIntSpace c = false) : intStrip s = s := by
  rw [intStrip, dropWhile_eq_self h, dropWhile_eq_self, List.reverse_reverse]
  exact fun c hc => h c (List.mem_reverse.mp hc)

theorem pyInt_natStr {n : Nat} (h : n < 10 ^ intMaxStrDigits) : pyInt (natStr n) = some (n : Int) := by
  have hunsigned : unsignedInt (natStr n) = some n := by
    rw [unsignedInt, natStr_eq, digitRun_digits _ _ _ _ (natDigits_lt n) (.inl (natDigits_ne_nil n)),
      natDigits_value]
    have hlen := natDigits_length (by decide) h
    simp only [Nat.zero_add, if_pos hlen]
  have hstrip : intStrip (natStr n) = natStr n := by
    refine intStrip_eq_self (fun c hc => ?_)
    obtain ⟨d, hd, rfl⟩ := natStr_digits hc
    exact (digitChar_spec d hd).2.2.1
  rw [pyInt, hstrip]
  cases hcons : natStr n with
  | nil => exact absurd hcons (natStr_ne_nil n)
  | cons c cs =>
    obtain ⟨d, hd, rfl⟩ := natStr_digits (n := n) (c := c) (by rw [hcons]; simp)
    obtain ⟨-, -, -, hminus, hplus, -⟩ := digitChar_spec d hd
    simp only [if_neg hminus, if_neg hplus]
    rw [← hcons, hunsigned]
    rfl

/-! ### Bounds -/

lemma digitRun_lt (s : PyStr) : ∀ {afterDigit : Bool} {value count value' count' : Nat},
    digitRun afterDigit value count s = some (value', count') →
      count ≤ count' ∧ value' < (value + 1) * 10 ^ (count' - count) := by
  induction s with
  | nil =>
    intro afterDigit value count value' count' h
    unfold digitRun at h
    split at h
    · simp only [Option.some.injEq, Prod.mk.injEq] at h
      obtain ⟨rfl, rfl⟩ := h
      simp
    · cases h
  | cons c cs ih =>
    intro afterDigit value count value' count' h
    unfold digitRun at h
    split at h
    · split at h
      · exact ih h
      · cases h
    · split at h
      · next d hd =>
        obtain ⟨hle, hlt⟩ := ih h
        have hdigit := decimalValue_lt hd
        refine ⟨by omega, lt_of_lt_of_le hlt ?_⟩
        calc (10 * value + d + 1) * 10 ^ (count' - (count + 1))
            ≤ ((value + 1) * 10) * 10 ^ (count' - (count + 1)) := by gcongr; omega
          _ = (value + 1) * 10 ^ (count' - count) := by
            rw [Nat.mul_assoc, ← Nat.pow_succ', show (count' - (count + 1)).succ = count' - count by omega]
      · cases h

lemma unsignedInt_lt {s : PyStr} {n : Nat} (h : unsignedInt s = some n) : n < 10 ^ intMaxStrDigits := by
  unfold unsignedInt at h
  split at h
  · next value count hrun =>
    split at h
    · next hle =>
      obtain rfl := Option.some.inj h
      obtain ⟨-, hlt⟩ := digitRun_lt s hrun
      rw [Nat.zero_add, Nat.one_mul, Nat.sub_zero] at hlt
      exact lt_of_lt_of_le hlt (Nat.pow_le_pow_right (by norm_num) hle)
    · cases h
  · cases h

/-- What `int()` reads is a run of digits, negative only after a minus sign. -/
lemma pyInt_cases {s : PyStr} {i : Int} (h : pyInt s = some i) :
    ∃ digits n, unsignedInt digits = some n ∧ (i = n ∨ i = -n ∧ (intStrip s).head? = some 0x2D) := by
  unfold pyInt at h
  split at h
  · cases h
  · next c cs hstrip =>
    split at h
    · next hminus =>
      simp only [Option.map_eq_some_iff, Option.bind_eq_bind, Option.bind_eq_some_iff] at h
      obtain ⟨m, ⟨n, hn, hm⟩, rfl⟩ := h
      obtain rfl : (n : Int) = m := by simpa using hm
      exact ⟨cs, n, hn, .inr ⟨rfl, by rw [hstrip, hminus]; rfl⟩⟩
    · split at h
      · simp only [Option.map_eq_some_iff, Option.bind_eq_bind, Option.bind_eq_some_iff] at h
        obtain ⟨m, ⟨n, hn, hm⟩, rfl⟩ := h
        obtain rfl : (n : Int) = m := by simpa using hm
        exact ⟨cs, n, hn, .inl rfl⟩
      · simp only [Option.map_eq_some_iff, Option.bind_eq_bind, Option.bind_eq_some_iff] at h
        obtain ⟨m, ⟨n, hn, hm⟩, rfl⟩ := h
        obtain rfl : (n : Int) = m := by simpa using hm
        exact ⟨c :: cs, n, hn, .inl rfl⟩

theorem pyInt_lt {s : PyStr} {i : Int} (h : pyInt s = some i) : i.natAbs < 10 ^ intMaxStrDigits := by
  obtain ⟨digits, n, hn, rfl | ⟨rfl, -⟩⟩ := pyInt_cases h
  · simpa using unsignedInt_lt hn
  · simpa using unsignedInt_lt hn

lemma mem_of_mem_intStrip {s : PyStr} {c : CodePoint} (h : c ∈ intStrip s) : c ∈ s := by
  rw [intStrip, List.mem_reverse] at h
  have hmem := (List.dropWhile_sublist _).subset h
  rw [List.mem_reverse] at hmem
  exact (List.dropWhile_sublist _).subset hmem

/-- Digits without a sign are no negative number. -/
lemma pyInt_nonneg {s : PyStr} (hs : isDigit s = true) {i : Int} (h : pyInt s = some i) : 0 ≤ i := by
  obtain ⟨digits, n, -, rfl | ⟨-, hminus⟩⟩ := pyInt_cases h
  · exact Int.natCast_nonneg n
  · rw [isDigit, Bool.and_eq_true] at hs
    have hmem : (0x2D : CodePoint) ∈ s := mem_of_mem_intStrip (List.mem_of_head? hminus)
    have hdigit := List.all_eq_true.mp hs.2 _ hmem
    have hno : isDigitChar 0x2D = false := by decide
    rw [hno] at hdigit
    cases hdigit

end AisMixer.Library

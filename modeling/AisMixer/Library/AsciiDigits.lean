import AisMixer.Library.Numerals
import AisMixer.Library.Utf8

/-!
# Decimal digits as octets

The numerals that `str()` writes, as ASCII octets. Numerals of one length are ordered by
their octets as by their values.
-/

namespace AisMixer.Library

/-- ASCII octets as text, and ASCII text as octets. -/
def asciiText (bytes : Bytes) : PyStr := bytes.map (fun b => codePoint b.toNat)

def asciiBytes (text : PyStr) : Bytes := text.map (fun c => UInt8.ofNat c.val)

/-- The octet of a digit. -/
def digitByte (d : Nat) : UInt8 := UInt8.ofNat (digitChar d).val

lemma digitByte_spec : ∀ d < 10, codePoint (digitByte d).toNat = digitChar d ∧
    (digitByte d).toNat = 0x30 + d := by
  decide

lemma asciiBytes_natStr (n : Nat) : asciiBytes (natStr n) = (natDigits n).map digitByte := by
  rw [asciiBytes, natStr_eq, List.map_map]
  rfl

lemma asciiText_natStr (n : Nat) : asciiText (asciiBytes (natStr n)) = natStr n := by
  rw [asciiBytes_natStr, asciiText, List.map_map, natStr_eq]
  apply List.map_congr_left
  intro d hd
  exact (digitByte_spec d (natDigits_lt n d hd)).1

lemma foldDigits_bounds (ds : List Nat) (hds : ∀ d ∈ ds, d < 10) (v : Nat) :
    v * 10 ^ ds.length ≤ ds.foldl (fun v d => 10 * v + d) v ∧
      ds.foldl (fun v d => 10 * v + d) v < (v + 1) * 10 ^ ds.length := by
  induction ds generalizing v with
  | nil => simp
  | cons d ds ih =>
    have hd := hds d (by simp)
    obtain ⟨hlow, hhigh⟩ := ih (fun e he => hds e (List.mem_cons_of_mem _ he)) (10 * v + d)
    rw [List.foldl_cons, List.length_cons, pow_succ']
    constructor
    · calc v * (10 * 10 ^ ds.length) = (10 * v) * 10 ^ ds.length := by ring
        _ ≤ (10 * v + d) * 10 ^ ds.length := Nat.mul_le_mul_right _ (Nat.le_add_right _ _)
        _ ≤ _ := hlow
    · calc _ < (10 * v + d + 1) * 10 ^ ds.length := hhigh
        _ ≤ (10 * (v + 1)) * 10 ^ ds.length := Nat.mul_le_mul_right _ (by omega)
        _ = (v + 1) * (10 * 10 ^ ds.length) := by ring

/-- Digit strings of one length compare like their values. -/
lemma foldDigits_lt {ds es : List Nat} (hds : ∀ d ∈ ds, d < 10) (hes : ∀ e ∈ es, e < 10)
    (hlength : ds.length = es.length) (h : ds.map digitByte < es.map digitByte) {v w : Nat} (hvw : v ≤ w) :
    ds.foldl (fun v d => 10 * v + d) v < es.foldl (fun v d => 10 * v + d) w := by
  induction ds generalizing es v w with
  | nil =>
    rw [List.length_nil] at hlength
    rw [List.length_eq_zero_iff.mp hlength.symm] at h
    exact (List.not_lt_nil _ h).elim
  | cons d ds ih =>
    cases es with
    | nil => simp at hlength
    | cons e es =>
      have hd := hds d (by simp)
      have he := hes e (by simp)
      have hds' : ∀ d ∈ ds, d < 10 := fun d' hd' => hds d' (List.mem_cons_of_mem _ hd')
      have hes' : ∀ e ∈ es, e < 10 := fun e' he' => hes e' (List.mem_cons_of_mem _ he')
      have hlength' : ds.length = es.length := by simpa using hlength
      rw [List.map_cons, List.map_cons, List.cons_lt_cons_iff] at h
      rw [List.foldl_cons, List.foldl_cons]
      rcases h with hlt | ⟨heq, htail⟩
      · have hde : d < e := by
          rw [UInt8.lt_iff_toNat_lt, (digitByte_spec d hd).2, (digitByte_spec e he).2] at hlt
          omega
        calc ds.foldl (fun v d => 10 * v + d) (10 * v + d)
            < (10 * v + d + 1) * 10 ^ ds.length := (foldDigits_bounds ds hds' _).2
          _ ≤ (10 * w + e) * 10 ^ es.length := by
            rw [hlength']
            exact Nat.mul_le_mul_right _ (by omega)
          _ ≤ _ := (foldDigits_bounds es hes' _).1
      · have hde : d = e := by
          have htoNat := congrArg UInt8.toNat heq
          rw [(digitByte_spec d hd).2, (digitByte_spec e he).2] at htoNat
          omega
        exact ih hds' hes' hlength' htail (by omega)

lemma natDigits_head {n : Nat} (h : n ≠ 0) : ∃ d rest, natDigits n = d :: rest ∧ 0 < d := by
  have hne : Nat.digits 10 n ≠ [] := Nat.digits_ne_nil_iff_ne_zero.mpr h
  have hdigits : natDigits n = (Nat.digits 10 n).reverse := by rw [natDigits, if_neg h]
  refine ⟨(Nat.digits 10 n).getLast hne, (Nat.digits 10 n).dropLast.reverse, ?_,
    Nat.pos_of_ne_zero (Nat.getLast_digit_ne_zero 10 h)⟩
  rw [hdigits, ← List.reverse_concat', List.dropLast_append_getLast]

end AisMixer.Library

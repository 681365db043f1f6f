import AisMixer.Library.Checksum

/-!
# Positions of characters in encoded text

`byteIndex text i` is where the character with index `i` begins in the encoding of `text`.
Octets below `0x80` stand at such positions only, so that what is found by ASCII octets in the
encoding is found by the same characters in the text.
-/

namespace AisMixer.Library

/-- `len(text[:i].encode())`. -/
def byteIndex (text : PyStr) (i : Nat) : Nat := (encodeSurrogatepass (text.take i)).length

@[simp] lemma byteIndex_zero (text : PyStr) : byteIndex text 0 = 0 := rfl

@[simp] lemma byteIndex_cons_succ (c : CodePoint) (text : PyStr) (i : Nat) :
    byteIndex (c :: text) (i + 1) = (encodeChar c).length + byteIndex text i := by
  rw [byteIndex, List.take_succ_cons, encodeSurrogatepass, List.flatMap_cons, List.length_append]
  rfl

lemma encode_cons (c : CodePoint) (text : PyStr) :
    encodeSurrogatepass (c :: text) = encodeChar c ++ encodeSurrogatepass text :=
  List.flatMap_cons

lemma byteIndex_append (front text : PyStr) (i : Nat) :
    byteIndex (front ++ text) (front.length + i) =
      (encodeSurrogatepass front).length + byteIndex text i := by
  rw [byteIndex, byteIndex, List.take_length_add_append, encodeSurrogatepass_append, List.length_append]

lemma take_byteIndex (text : PyStr) (i : Nat) :
    (encodeSurrogatepass text).take (byteIndex text i) = encodeSurrogatepass (text.take i) := by
  have hsplit : encodeSurrogatepass text =
      encodeSurrogatepass (text.take i) ++ encodeSurrogatepass (text.drop i) := by
    rw [← encodeSurrogatepass_append, List.take_append_drop]
  rw [hsplit, byteIndex, List.take_left]

lemma isBoundary_byteIndex (text : PyStr) (i : Nat) :
    IsBoundary (encodeSurrogatepass text) (byteIndex text i) :=
  ⟨text.take i, take_byteIndex text i⟩

lemma byteIndex_lt {text : PyStr} {i j : Nat} (hij : i < j) (hj : j ≤ text.length) :
    byteIndex text i < byteIndex text j := by
  induction text generalizing i j with
  | nil =>
    rw [List.length_nil] at hj
    omega
  | cons c text ih =>
    obtain ⟨j, rfl⟩ : ∃ k, j = k + 1 := ⟨j - 1, by omega⟩
    have hpos := encodeChar_length_pos c
    cases i with
    | zero =>
      rw [byteIndex_zero, byteIndex_cons_succ]
      omega
    | succ i =>
      rw [List.length_cons] at hj
      have hless := ih (show i < j by omega) (by omega)
      rw [byteIndex_cons_succ, byteIndex_cons_succ]
      omega

lemma byteIndex_le {text : PyStr} {i j : Nat} (hij : i ≤ j) (hj : j ≤ text.length) :
    byteIndex text i ≤ byteIndex text j := by
  rcases Nat.eq_or_lt_of_le hij with rfl | hlt
  · exact le_rfl
  · exact (byteIndex_lt hlt hj).le

/-- The octets between two positions encode the characters between them. -/
lemma slice_byteIndex {text : PyStr} {i j : Nat} (hij : i ≤ j) :
    ((encodeSurrogatepass text).take (byteIndex text j)).drop (byteIndex text i) =
      encodeSurrogatepass ((text.take j).drop i) := by
  have hfront : (text.take j).take i = text.take i := by
    rw [List.take_take, min_eq_left hij]
  have hsplit : encodeSurrogatepass (text.take j) =
      encodeSurrogatepass (text.take i) ++ encodeSurrogatepass ((text.take j).drop i) := by
    rw [← encodeSurrogatepass_append, ← hfront, List.take_append_drop]
  rw [take_byteIndex, hsplit, byteIndex, List.drop_left]

/-! ### ASCII characters -/

/-- The octet of an ASCII character. -/
lemma getElem?_byteIndex {text : PyStr} {i : Nat} {c : CodePoint} (hc : text[i]? = some c)
    (hascii : c.val < 0x80) :
    (encodeSurrogatepass text)[byteIndex text i]? = some (UInt8.ofNat c.val) ∧
      byteIndex text (i + 1) = byteIndex text i + 1 := by
  induction text generalizing i with
  | nil => simp at hc
  | cons d text ih =>
    cases i with
    | zero =>
      obtain rfl : d = c := by simpa using hc
      rw [byteIndex_cons_succ, encode_cons, encodeChar_of_lt hascii]
      exact ⟨rfl, rfl⟩
    | succ i =>
      obtain ⟨hget, hnext⟩ := ih (by simpa using hc)
      rw [byteIndex_cons_succ, byteIndex_cons_succ, encode_cons, hnext]
      refine ⟨?_, by omega⟩
      rw [List.getElem?_append_right (Nat.le_add_right _ _), Nat.add_sub_cancel_left]
      exact hget

/-- An ASCII octet stands for a character of the text. -/
lemma exists_index_of_ascii {text : PyStr} {j : Nat} {b : UInt8}
    (hj : (encodeSurrogatepass text)[j]? = some b) (hb : b.toNat < 0x80) :
    ∃ i, j = byteIndex text i ∧ text[i]? = some (codePoint b.toNat) := by
  obtain ⟨hlt, hget⟩ := List.getElem?_eq_some_iff.mp hj
  have hsplit := (List.take_append_drop j (encodeSurrogatepass text)).symm
  rw [List.drop_eq_getElem_cons hlt, hget] at hsplit
  obtain ⟨front, rest, rfl, hfront, -⟩ := encode_split_ascii hsplit hb
  refine ⟨front.length, ?_, by simp⟩
  rw [byteIndex, List.take_left, hfront, List.length_take, min_eq_left hlt.le]

/-- ASCII text at the head of the octets is at the head of the text. -/
lemma take_encode_eq_iff {text front : PyStr} (hfront : ∀ c ∈ front, c.val < 0x80) :
    (encodeSurrogatepass text).take front.length = encodeSurrogatepass front ↔
      text.take front.length = front := by
  have hlength : (encodeSurrogatepass front).length = front.length := by
    rw [encode_of_ascii hfront, List.length_map]
  constructor
  · intro h
    have hsplit := List.take_append_drop front.length (encodeSurrogatepass text)
    rw [h] at hsplit
    obtain ⟨rest, rfl, -⟩ := encode_append_cancel hsplit
    exact List.take_left
  · intro h
    have hsplit : encodeSurrogatepass text =
        encodeSurrogatepass front ++ encodeSurrogatepass (text.drop front.length) := by
      rw [← encodeSurrogatepass_append]
      exact congrArg encodeSurrogatepass ((List.take_append_drop front.length text).symm.trans
        (congrArg (· ++ text.drop front.length) h))
    rw [hsplit, ← hlength, List.take_left]

/-! ### The last occurrence -/

lemma getLast?_filter_range {p : Nat → Bool} {n i : Nat} :
    ((List.range n).filter p).getLast? = some i ↔
      i < n ∧ p i = true ∧ ∀ j, i < j → j < n → p j = false := by
  induction n with
  | zero => simp
  | succ n ih =>
    rw [List.range_succ, List.filter_append, List.filter_singleton]
    cases hp : p n with
    | true =>
      rw [Bool.cond_true, List.getLast?_concat, Option.some_inj]
      constructor
      · rintro rfl
        exact ⟨Nat.lt_succ_self n, hp, fun j hlt hle => by omega⟩
      · rintro ⟨hle, -, hlast⟩
        by_contra hne
        have hfalse := hlast n (by omega) (Nat.lt_succ_self n)
        rw [hp] at hfalse
        cases hfalse
    | false =>
      rw [Bool.cond_false, List.append_nil, ih]
      constructor
      · rintro ⟨hlt, hi, hlast⟩
        refine ⟨by omega, hi, fun j hij hj => ?_⟩
        rcases Nat.eq_or_lt_of_le (Nat.lt_succ_iff.mp hj) with rfl | hless
        · exact hp
        · exact hlast j hij hless
      · rintro ⟨hle, hi, hlast⟩
        have hne : i ≠ n := by
          rintro rfl
          rw [hp] at hi
          cases hi
        exact ⟨by omega, hi, fun j hij hj => hlast j hij (by omega)⟩

section LastIndex

variable {α : Type} [DecidableEq α]

/-- The last index below `stop` at which `a` stands. -/
def lastIndex (xs : List α) (a : α) (stop : Nat) : Option Nat :=
  ((List.range (min stop xs.length)).filter (fun i => xs[i]? = some a)).getLast?

variable {xs : List α} {a : α} {stop i : Nat}

lemma lastIndex_eq_some_iff : lastIndex xs a stop = some i ↔
    i < stop ∧ xs[i]? = some a ∧ ∀ j, i < j → j < stop → xs[j]? ≠ some a := by
  rw [lastIndex, getLast?_filter_range]
  simp only [decide_eq_true_eq, decide_eq_false_iff_not, lt_min_iff]
  constructor
  · rintro ⟨⟨hstop, -⟩, hi, hlast⟩
    refine ⟨hstop, hi, fun j hij hj hget => ?_⟩
    exact hlast j hij ⟨hj, (List.getElem?_eq_some_iff.mp hget).1⟩ hget
  · rintro ⟨hstop, hi, hlast⟩
    exact ⟨⟨hstop, (List.getElem?_eq_some_iff.mp hi).1⟩, hi, fun j hij hj => hlast j hij hj.1⟩

lemma lastIndex_eq_none_iff : lastIndex xs a stop = none ↔ ∀ j < stop, xs[j]? ≠ some a := by
  rw [lastIndex, List.getLast?_eq_none_iff, List.filter_eq_nil_iff]
  simp only [decide_eq_true_eq, List.mem_range, lt_min_iff]
  constructor
  · intro h j hj hget
    exact h j ⟨hj, (List.getElem?_eq_some_iff.mp hget).1⟩ hget
  · intro h j hj
    exact h j hj.1

end LastIndex

/-- The last ASCII octet before a character is where the last such character is. -/
theorem lastIndex_encode {text : PyStr} {b : UInt8} (hb : b.toNat < 0x80) {stop : Nat}
    (hstop : stop ≤ text.length) :
    lastIndex (encodeSurrogatepass text) b (byteIndex text stop) =
      (lastIndex text (codePoint b.toNat) stop).map (byteIndex text) := by
  have hval : (codePoint b.toNat).val = b.toNat := codePoint_toNat (by omega)
  have hascii : (codePoint b.toNat).val < 0x80 := by omega
  have hoctet : UInt8.ofNat (codePoint b.toNat).val = b := ofNat_of_toNat hval
  have hless : ∀ i j, i ≤ text.length → byteIndex text i < byteIndex text j → i < j := by
    intro i j hi hlt
    by_contra hge
    have hle := byteIndex_le (not_lt.mp hge) hi
    omega
  cases hlast : lastIndex text (codePoint b.toNat) stop with
  | none =>
    rw [Option.map_none, lastIndex_eq_none_iff]
    intro j hj hget
    obtain ⟨i, rfl, hi⟩ := exists_index_of_ascii hget hb
    have hi' := (List.getElem?_eq_some_iff.mp hi).1
    exact lastIndex_eq_none_iff.mp hlast i (hless i stop hi'.le hj) hi
  | some i =>
    obtain ⟨hlt, hi, hnone⟩ := lastIndex_eq_some_iff.mp hlast
    rw [Option.map_some, lastIndex_eq_some_iff]
    refine ⟨byteIndex_lt hlt hstop, ?_, ?_⟩
    · rw [(getElem?_byteIndex hi hascii).1, hoctet]
    · intro j hij hj hget
      obtain ⟨k, rfl, hk⟩ := exists_index_of_ascii hget hb
      have hk' := (List.getElem?_eq_some_iff.mp hk).1
      have hi' := (List.getElem?_eq_some_iff.mp hi).1
      exact hnone k (hless i k hi'.le hij) (hless k stop hk'.le hj) hk

end AisMixer.Library

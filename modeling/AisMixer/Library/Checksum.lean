import AisMixer.Library.Utf8

/-!
# Checksums of delimited text

The exclusive or of a list of values, and lists that are cut at the first occurrence of a
delimiter.
-/

namespace AisMixer.Library

/-- The exclusive or of the values of a list. -/
def xorOf {α : Type} (value : α → Nat) (xs : List α) : Nat := xs.foldl (fun x a => x ^^^ value a) 0

section Xor

variable {α : Type} (value : α → Nat)

lemma foldl_xor (xs : List α) (x : Nat) :
    xs.foldl (fun x a => x ^^^ value a) x = x ^^^ xorOf value xs := by
  induction xs generalizing x with
  | nil => simp [xorOf]
  | cons a xs ih =>
    rw [xorOf, List.foldl_cons, List.foldl_cons, ih, ih (0 ^^^ value a), Nat.zero_xor, Nat.xor_assoc]

@[simp] lemma xorOf_append (xs ys : List α) :
    xorOf value (xs ++ ys) = xorOf value xs ^^^ xorOf value ys := by
  rw [xorOf, List.foldl_append, foldl_xor]
  rfl

lemma xorOf_lt {k : Nat} {xs : List α} (h : ∀ a ∈ xs, value a < 2 ^ k) : xorOf value xs < 2 ^ k := by
  induction xs with
  | nil => exact Nat.two_pow_pos k
  | cons a xs ih =>
    have htail := ih (fun b hb => h b (List.mem_cons_of_mem _ hb))
    rw [← List.singleton_append, xorOf_append]
    refine Nat.xor_lt_two_pow ?_ htail
    simpa [xorOf] using h a (by simp)

end Xor

/-- A list determines what stands before the first occurrence of a delimiter. -/
lemma append_cons_inj {α : Type} {x : α} {a b c d : List α} (ha : x ∉ a) (hc : x ∉ c)
    (h : a ++ x :: b = c ++ x :: d) : a = c ∧ b = d := by
  induction a generalizing c with
  | nil =>
    cases c with
    | nil => exact ⟨rfl, (List.cons.inj h).2⟩
    | cons y c =>
      obtain ⟨rfl, -⟩ := List.cons.inj h
      simp at hc
  | cons y a ih =>
    cases c with
    | nil =>
      obtain ⟨rfl, -⟩ := List.cons.inj h
      simp at ha
    | cons z c =>
      obtain ⟨rfl, htail⟩ := List.cons.inj h
      simp only [List.mem_cons, not_or] at ha hc
      obtain ⟨rfl, rfl⟩ := ih ha.2 hc.2 htail
      exact ⟨rfl, rfl⟩

/-! ### ASCII octets of encoded text -/

/-- An ASCII octet of encoded text is a character of the text. -/
lemma mem_of_mem_encode {s : PyStr} {b : UInt8} (hb : b ∈ encodeSurrogatepass s) (h : b.toNat < 0x80) :
    codePoint b.toNat ∈ s := by
  obtain ⟨c, hc, hmem⟩ := List.mem_flatMap.mp hb
  exact (encodeChar_ascii hmem h).2 ▸ hc

lemma encodeChar_of_lt {c : CodePoint} (h : c.val < 0x80) : encodeChar c = [UInt8.ofNat c.val] :=
  if_pos h

/-- The octets of ASCII text are its characters. -/
lemma encode_of_ascii {s : PyStr} (h : ∀ c ∈ s, c.val < 0x80) :
    encodeSurrogatepass s = s.map (fun c => UInt8.ofNat c.val) := by
  induction s with
  | nil => rfl
  | cons c s ih =>
    rw [encodeSurrogatepass, List.flatMap_cons, encodeChar_of_lt (h c (by simp)), List.map_cons]
    exact congrArg _ (ih (fun d hd => h d (List.mem_cons_of_mem _ hd)))

/-- The exclusive or of the characters of ASCII text is that of its octets. -/
lemma xorOf_encode_ascii {s : PyStr} (h : ∀ c ∈ s, c.val < 0x80) :
    xorOf UInt8.toNat (encodeSurrogatepass s) = xorOf Fin.val s := by
  induction s with
  | nil => rfl
  | cons c s ih =>
    have hc := h c (by simp)
    have hchar : xorOf UInt8.toNat (encodeSurrogatepass [c]) = xorOf Fin.val [c] := by
      simp only [encodeSurrogatepass, List.flatMap_cons, List.flatMap_nil, List.append_nil,
        encodeChar_of_lt hc, xorOf, List.foldl_cons, List.foldl_nil, Nat.zero_xor]
      rw [UInt8.toNat_ofNat_of_lt']
      change c.val < 256
      omega
    rw [← List.singleton_append, encodeSurrogatepass_append, xorOf_append, xorOf_append, hchar,
      ih (fun d hd => h d (List.mem_cons_of_mem _ hd))]

end AisMixer.Library

import AisMixer.Library.Text

/-!
# Length-prefixed framing

Unsigned big-endian integers of a fixed width, and byte strings framed by their length in
such an integer. A concatenation of framed fields determines the fields.
-/

namespace AisMixer.Library

/-- `n.to_bytes(width, "big")` of a number that fits in the width. -/
def bigEndian : Nat → Nat → Bytes
  | 0, _ => []
  | width + 1, n => bigEndian width (n / 256) ++ [UInt8.ofNat n]

@[simp] lemma length_bigEndian (width n : Nat) : (bigEndian width n).length = width := by
  induction width generalizing n with
  | zero => rfl
  | succ width ih => rw [bigEndian, List.length_append, ih, List.length_singleton]

theorem bigEndian_inj {width n m : Nat} (hn : n < 256 ^ width) (hm : m < 256 ^ width)
    (h : bigEndian width n = bigEndian width m) : n = m := by
  induction width generalizing n m with
  | zero =>
    rw [pow_zero] at hn hm
    omega
  | succ width ih =>
    rw [bigEndian, bigEndian] at h
    obtain ⟨hhigh, hlow⟩ := List.append_inj' h rfl
    have hdiv : n / 256 = m / 256 := by
      apply ih _ _ hhigh
      · rw [pow_succ] at hn
        exact Nat.div_lt_of_lt_mul (by omega)
      · rw [pow_succ] at hm
        exact Nat.div_lt_of_lt_mul (by omega)
    have hmod : n % 256 = m % 256 := by
      have hbytes := congrArg UInt8.toNat (List.singleton_inj.mp hlow)
      simpa using hbytes
    omega

/-- A field after its length. -/
def frame (width : Nat) (field : Bytes) : Bytes := bigEndian width field.length ++ field

/-- A framed field can be taken off the front of a byte string. -/
theorem frame_append_inj {width : Nat} {field field' rest rest' : Bytes}
    (hfield : field.length < 256 ^ width) (hfield' : field'.length < 256 ^ width)
    (h : frame width field ++ rest = frame width field' ++ rest') : field = field' ∧ rest = rest' := by
  rw [frame, frame, List.append_assoc, List.append_assoc] at h
  obtain ⟨hlength, h⟩ := List.append_inj h (by simp)
  exact List.append_inj h (bigEndian_inj hfield hfield' hlength)

theorem frames_inj {width : Nat} (hwidth : 0 < width) {fields fields' : List Bytes}
    (hfields : ∀ field ∈ fields, field.length < 256 ^ width)
    (hfields' : ∀ field ∈ fields', field.length < 256 ^ width)
    (h : fields.flatMap (frame width) = fields'.flatMap (frame width)) : fields = fields' := by
  have hne : ∀ (field : Bytes) (rest : List Bytes), ([] : Bytes) ≠ (field :: rest).flatMap (frame width) := by
    intro field rest heq
    have hlength := congrArg List.length heq
    rw [List.flatMap_cons, List.length_append, frame, List.length_append, length_bigEndian,
      List.length_nil] at hlength
    omega
  induction fields generalizing fields' with
  | nil =>
    cases fields' with
    | nil => rfl
    | cons field' rest' => exact (hne field' rest' h).elim
  | cons field rest ih =>
    cases fields' with
    | nil => exact (hne field rest h.symm).elim
    | cons field' rest' =>
      rw [List.flatMap_cons, List.flatMap_cons] at h
      obtain ⟨hhead, htail⟩ := frame_append_inj (hfields field (by simp)) (hfields' field' (by simp)) h
      have hrest := ih (fun f hf => hfields f (List.mem_cons_of_mem _ hf))
        (fun f hf => hfields' f (List.mem_cons_of_mem _ hf)) htail
      rw [hhead, hrest]

end AisMixer.Library

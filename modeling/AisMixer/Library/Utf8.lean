import AisMixer.Library.Text

/-!
# UTF-8 with Python's error handlers

`decodeUnits` reads octets into code points, three-octet surrogates included, and marks
every octet that starts no sequence. The error handlers of the language are readings of
this list: `strict` and `surrogatepass` fail on a marked octet, `ignore` drops it, and
only `surrogatepass` keeps a surrogate.
-/

namespace AisMixer.Library

def encodeChar (c : CodePoint) : Bytes :=
  if c.val < 0x80 then [UInt8.ofNat c.val]
  else if c.val < 0x800 then [UInt8.ofNat (0xC0 + c.val / 0x40), UInt8.ofNat (0x80 + c.val % 0x40)]
  else if c.val < 0x10000 then
    [UInt8.ofNat (0xE0 + c.val / 0x1000), UInt8.ofNat (0x80 + c.val / 0x40 % 0x40),
      UInt8.ofNat (0x80 + c.val % 0x40)]
  else
    [UInt8.ofNat (0xF0 + c.val / 0x40000), UInt8.ofNat (0x80 + c.val / 0x1000 % 0x40),
      UInt8.ofNat (0x80 + c.val / 0x40 % 0x40), UInt8.ofNat (0x80 + c.val % 0x40)]

/-- `str.encode("utf-8", errors="surrogatepass")`. -/
def encodeSurrogatepass (s : PyStr) : Bytes := s.flatMap encodeChar

/-- `str.encode("utf-8")`; `none` is a `UnicodeEncodeError`. -/
def encodeUtf8 (s : PyStr) : Option Bytes :=
  if hasSurrogate s then none else some (encodeSurrogatepass s)

def isTail (b : UInt8) : Bool := 0x80 ≤ b.toNat && b.toNat < 0xC0

def isPair (a b : UInt8) : Bool := 0xC2 ≤ a.toNat && a.toNat < 0xE0 && isTail b

def isTriple (a b c : UInt8) : Bool :=
  0xE0 ≤ a.toNat && a.toNat < 0xF0 && isTail b && (a.toNat != 0xE0 || 0xA0 ≤ b.toNat) && isTail c

def isQuad (a b c d : UInt8) : Bool :=
  0xF0 ≤ a.toNat && a.toNat < 0xF5 && isTail b && (a.toNat != 0xF0 || 0x90 ≤ b.toNat) &&
    (a.toNat != 0xF4 || b.toNat < 0x90) && isTail c && isTail d

def codePoint (n : Nat) : CodePoint := Fin.ofNat 0x110000 n

/-- The sequences of a byte string; `none` stands for an octet that starts none. -/
def decodeUnits : Bytes → List (Option CodePoint)
  | [] => []
  | a :: s =>
    let skip : Unit → List (Option CodePoint) := fun _ => none :: decodeUnits s
    if a.toNat < 0x80 then some (codePoint a.toNat) :: decodeUnits s
    else match s with
    | [] => [none]
    | b :: t =>
      if isPair a b then
        some (codePoint ((a.toNat - 0xC0) * 0x40 + (b.toNat - 0x80))) :: decodeUnits t
      else match t with
      | [] => skip ()
      | c :: u =>
        if isTriple a b c then
          some (codePoint ((a.toNat - 0xE0) * 0x1000 + (b.toNat - 0x80) * 0x40 +
            (c.toNat - 0x80))) :: decodeUnits u
        else match u with
        | [] => skip ()
        | d :: v =>
          if isQuad a b c d then
            some (codePoint ((a.toNat - 0xF0) * 0x40000 + (b.toNat - 0x80) * 0x1000 +
              (c.toNat - 0x80) * 0x40 + (d.toNat - 0x80))) :: decodeUnits v
          else skip ()

/-- `bytes.decode("utf-8", errors="surrogatepass")`; `none` is a `UnicodeDecodeError`. -/
def decodeSurrogatepass (bs : Bytes) : Option PyStr := (decodeUnits bs).mapM id

/-- `bytes.decode("utf-8")`; `none` is a `UnicodeDecodeError`. -/
def decodeUtf8 (bs : Bytes) : Option PyStr :=
  match decodeSurrogatepass bs with
  | some s => if hasSurrogate s then none else some s
  | none => none

/-- `bytes.decode("utf-8", errors="ignore")`. -/
def decodeIgnore (bs : Bytes) : PyStr :=
  ((decodeUnits bs).filterMap id).filter (fun c => !isSurrogate c)

/-! ### One sequence at a time -/

lemma codePoint_val {n : Nat} (c : CodePoint) (h : n = c.val) : codePoint n = c := by
  subst h
  exact Fin.ext (Nat.mod_eq_of_lt c.isLt)

lemma decodeUnits_single {a : UInt8} (h : a.toNat < 0x80) (s : Bytes) :
    decodeUnits (a :: s) = some (codePoint a.toNat) :: decodeUnits s := by
  rw [decodeUnits.eq_def]
  simp only [h, if_true]

lemma decodeUnits_pair {a b : UInt8} (h : isPair a b = true) (s : Bytes) :
    decodeUnits (a :: b :: s) =
      some (codePoint ((a.toNat - 0xC0) * 0x40 + (b.toNat - 0x80))) :: decodeUnits s := by
  have ha : ¬a.toNat < 0x80 := by
    simp only [isPair, Bool.and_eq_true, decide_eq_true_eq] at h
    omega
  rw [decodeUnits.eq_def]
  simp only [ha, if_false, h, if_true]

lemma decodeUnits_triple {a b c : UInt8} (h : isTriple a b c = true) (s : Bytes) :
    decodeUnits (a :: b :: c :: s) =
      some (codePoint ((a.toNat - 0xE0) * 0x1000 + (b.toNat - 0x80) * 0x40 + (c.toNat - 0x80))) ::
        decodeUnits s := by
  have ha : ¬a.toNat < 0x80 ∧ isPair a b = false := by
    simp only [isTriple, isPair, Bool.and_eq_true, decide_eq_true_eq, Bool.and_eq_false_iff,
      decide_eq_false_iff_not] at h ⊢
    omega
  rw [decodeUnits.eq_def]
  simp only [ha.1, ha.2, if_false, Bool.false_eq_true, h, if_true]

lemma decodeUnits_quad {a b c d : UInt8} (h : isQuad a b c d = true) (s : Bytes) :
    decodeUnits (a :: b :: c :: d :: s) =
      some (codePoint ((a.toNat - 0xF0) * 0x40000 + (b.toNat - 0x80) * 0x1000 +
        (c.toNat - 0x80) * 0x40 + (d.toNat - 0x80))) :: decodeUnits s := by
  have ha : ¬a.toNat < 0x80 ∧ isPair a b = false ∧ isTriple a b c = false := by
    simp only [isQuad, isTriple, isPair, Bool.and_eq_true, decide_eq_true_eq, Bool.and_eq_false_iff,
      decide_eq_false_iff_not] at h ⊢
    omega
  rw [decodeUnits.eq_def]
  simp only [ha.1, ha.2.1, ha.2.2, if_false, Bool.false_eq_true, h, if_true]

/-! ### Round trips -/

lemma decodeUnits_encodeChar (c : CodePoint) (rest : Bytes) :
    decodeUnits (encodeChar c ++ rest) = some c :: decodeUnits rest := by
  have hc := c.isLt
  have htoNat : ∀ n < 0x100, (UInt8.ofNat n).toNat = n := fun n hn => by simpa using hn
  unfold encodeChar
  by_cases h1 : c.val < 0x80
  · have ha := htoNat c.val (by omega)
    rw [if_pos h1, List.singleton_append, decodeUnits_single (by omega), codePoint_val c ha]
  by_cases h2 : c.val < 0x800
  · have ha := htoNat (0xC0 + c.val / 0x40) (by omega)
    have hb := htoNat (0x80 + c.val % 0x40) (by omega)
    rw [if_neg h1, if_pos h2, List.cons_append, List.singleton_append, decodeUnits_pair,
      codePoint_val c (by omega)]
    simp only [isPair, isTail, ha, hb, Bool.and_eq_true, decide_eq_true_eq]
    omega
  by_cases h3 : c.val < 0x10000
  · have ha := htoNat (0xE0 + c.val / 0x1000) (by omega)
    have hb := htoNat (0x80 + c.val / 0x40 % 0x40) (by omega)
    have hd := htoNat (0x80 + c.val % 0x40) (by omega)
    rw [if_neg h1, if_neg h2, if_pos h3, List.cons_append, List.cons_append, List.singleton_append,
      decodeUnits_triple, codePoint_val c (by omega)]
    simp only [isTriple, isTail, ha, hb, hd, Bool.and_eq_true, Bool.or_eq_true, decide_eq_true_eq,
      bne_iff_ne, ne_eq]
    omega
  · have ha := htoNat (0xF0 + c.val / 0x40000) (by omega)
    have hb := htoNat (0x80 + c.val / 0x1000 % 0x40) (by omega)
    have hd := htoNat (0x80 + c.val / 0x40 % 0x40) (by omega)
    have he := htoNat (0x80 + c.val % 0x40) (by omega)
    rw [if_neg h1, if_neg h2, if_neg h3, List.cons_append, List.cons_append, List.cons_append,
      List.singleton_append, decodeUnits_quad, codePoint_val c (by omega)]
    simp only [isQuad, isTail, ha, hb, hd, he, Bool.and_eq_true, Bool.or_eq_true,
      decide_eq_true_eq, bne_iff_ne, ne_eq]
    omega

@[simp] theorem decodeUnits_encode (s : PyStr) (rest : Bytes) :
    decodeUnits (encodeSurrogatepass s ++ rest) = s.map some ++ decodeUnits rest := by
  induction s with
  | nil => rfl
  | cons c s ih =>
    rw [encodeSurrogatepass, List.flatMap_cons, List.append_assoc, decodeUnits_encodeChar]
    exact congrArg _ ih

lemma mapM_id_map_some (s : PyStr) : (s.map some).mapM id = some s := by
  induction s with
  | nil => rfl
  | cons c s ih => simp [List.mapM_cons, ih]

theorem decodeSurrogatepass_encode (s : PyStr) :
    decodeSurrogatepass (encodeSurrogatepass s) = some s := by
  have h := decodeUnits_encode s []
  rw [List.append_nil, decodeUnits, List.append_nil] at h
  rw [decodeSurrogatepass, h, mapM_id_map_some]

theorem decodeUtf8_encode {s : PyStr} {bs : Bytes} (h : encodeUtf8 s = some bs) :
    decodeUtf8 bs = some s := by
  unfold encodeUtf8 at h
  split at h
  · cases h
  · next hs =>
    cases h
    simp [decodeUtf8, decodeSurrogatepass_encode, hs]

theorem decodeIgnore_encode {s : PyStr} (hs : hasSurrogate s = false) :
    decodeIgnore (encodeSurrogatepass s) = s := by
  have h := decodeUnits_encode s []
  rw [List.append_nil, decodeUnits, List.append_nil] at h
  have hf : (s.map some).filterMap id = s := by simp [List.filterMap_map]
  rw [decodeIgnore, h, hf, List.filter_eq_self]
  rw [hasSurrogate, List.any_eq_false] at hs
  intro c hc
  simpa using hs c hc

lemma ofNat_of_toNat {n : Nat} {b : UInt8} (h : n = b.toNat) : UInt8.ofNat n = b := by
  subst h
  exact UInt8.ofNat_toNat

lemma codePoint_toNat {n : Nat} (h : n < 0x110000) : (codePoint n).val = n := Nat.mod_eq_of_lt h

lemma encodeChar_single {a : UInt8} (h : a.toNat < 0x80) : encodeChar (codePoint a.toNat) = [a] := by
  have hv := codePoint_toNat (show a.toNat < 0x110000 by omega)
  rw [encodeChar, if_pos (by omega), ofNat_of_toNat (by omega)]

lemma encodeChar_pair {a b : UInt8} (h : isPair a b = true) :
    encodeChar (codePoint ((a.toNat - 0xC0) * 0x40 + (b.toNat - 0x80))) = [a, b] := by
  simp only [isPair, isTail, Bool.and_eq_true, decide_eq_true_eq] at h
  have hv := codePoint_toNat
    (show (a.toNat - 0xC0) * 0x40 + (b.toNat - 0x80) < 0x110000 by omega)
  rw [encodeChar, if_neg (by omega), if_pos (by omega), ofNat_of_toNat (b := a) (by omega),
    ofNat_of_toNat (b := b) (by omega)]

lemma encodeChar_triple {a b c : UInt8} (h : isTriple a b c = true) :
    encodeChar (codePoint ((a.toNat - 0xE0) * 0x1000 + (b.toNat - 0x80) * 0x40 +
      (c.toNat - 0x80))) = [a, b, c] := by
  simp only [isTriple, isTail, Bool.and_eq_true, Bool.or_eq_true, decide_eq_true_eq, bne_iff_ne,
    ne_eq] at h
  have hv := codePoint_toNat (show (a.toNat - 0xE0) * 0x1000 + (b.toNat - 0x80) * 0x40 +
    (c.toNat - 0x80) < 0x110000 by omega)
  rw [encodeChar, if_neg (by omega), if_neg (by omega), if_pos (by omega),
    ofNat_of_toNat (b := a) (by omega), ofNat_of_toNat (b := b) (by omega),
    ofNat_of_toNat (b := c) (by omega)]

lemma encodeChar_quad {a b c d : UInt8} (h : isQuad a b c d = true) :
    encodeChar (codePoint ((a.toNat - 0xF0) * 0x40000 + (b.toNat - 0x80) * 0x1000 +
      (c.toNat - 0x80) * 0x40 + (d.toNat - 0x80))) = [a, b, c, d] := by
  simp only [isQuad, isTail, Bool.and_eq_true, Bool.or_eq_true, decide_eq_true_eq, bne_iff_ne,
    ne_eq] at h
  have hv := codePoint_toNat (show (a.toNat - 0xF0) * 0x40000 + (b.toNat - 0x80) * 0x1000 +
    (c.toNat - 0x80) * 0x40 + (d.toNat - 0x80) < 0x110000 by omega)
  rw [encodeChar, if_neg (by omega), if_neg (by omega), if_neg (by omega),
    ofNat_of_toNat (b := a) (by omega), ofNat_of_toNat (b := b) (by omega),
    ofNat_of_toNat (b := c) (by omega), ofNat_of_toNat (b := d) (by omega)]

/-- Decoding either reads one whole character or marks one octet. -/
theorem decodeUnits_cons_cases (a : UInt8) (s : Bytes) :
    (∃ c t, a :: s = encodeChar c ++ t ∧ decodeUnits (a :: s) = some c :: decodeUnits t) ∨
      decodeUnits (a :: s) = none :: decodeUnits s := by
  by_cases h1 : a.toNat < 0x80
  · exact .inl ⟨_, s, by rw [encodeChar_single h1]; rfl, decodeUnits_single h1 s⟩
  match s with
  | [] => right; rw [decodeUnits.eq_def]; simp only [h1, if_false]; rfl
  | b :: t =>
    by_cases h2 : isPair a b = true
    · exact .inl ⟨_, t, by rw [encodeChar_pair h2]; rfl, decodeUnits_pair h2 t⟩
    match t with
    | [] => right; rw [decodeUnits.eq_def]; simp only [h1, h2, if_false]; rfl
    | c :: u =>
      by_cases h3 : isTriple a b c = true
      · exact .inl ⟨_, u, by rw [encodeChar_triple h3]; rfl, decodeUnits_triple h3 u⟩
      match u with
      | [] => right; rw [decodeUnits.eq_def]; simp only [h1, h2, h3, if_false]; rfl
      | d :: v =>
        by_cases h4 : isQuad a b c d = true
        · exact .inl ⟨_, v, by rw [encodeChar_quad h4]; rfl, decodeUnits_quad h4 v⟩
        · right
          rw [decodeUnits.eq_def]
          simp only [h1, h2, h3, h4, if_false]
          rfl

lemma encodeChar_length_pos (c : CodePoint) : 0 < (encodeChar c).length := by
  unfold encodeChar
  split_ifs <;> simp

/-- Octets that decode without a mark are the encoding of what they decode to. -/
theorem encode_of_decodeUnits {bs : Bytes} {s : PyStr} (h : decodeUnits bs = s.map some) :
    encodeSurrogatepass s = bs := by
  induction hn : bs.length using Nat.strong_induction_on generalizing bs s with
  | _ n ih =>
    cases bs with
    | nil =>
      have hs : s = [] := by simpa [decodeUnits] using h.symm
      rw [hs]
      rfl
    | cons a t =>
      rcases decodeUnits_cons_cases a t with ⟨c, u, he, hd⟩ | hd
      · rw [hd] at h
        obtain ⟨c', s', rfl, hc, hs⟩ := List.map_eq_cons_iff.mp h.symm
        cases hc
        have hlen : u.length < n := by
          have := congrArg List.length he
          have hpos := encodeChar_length_pos c
          simp only [List.length_append] at this
          omega
        rw [he, encodeSurrogatepass, List.flatMap_cons]
        exact congrArg _ (ih u.length hlen hs.symm rfl)
      · rw [hd] at h
        cases s <;> simp at h

theorem encode_of_decodeSurrogatepass {bs : Bytes} {s : PyStr}
    (h : decodeSurrogatepass bs = some s) : encodeSurrogatepass s = bs := by
  apply encode_of_decodeUnits
  rw [decodeSurrogatepass] at h
  generalize decodeUnits bs = us at h
  induction us generalizing s with
  | nil =>
    cases h
    rfl
  | cons u us ih =>
    cases u with
    | none => simp [List.mapM_cons] at h
    | some c =>
      simp only [List.mapM_cons, id_eq, Option.bind_eq_bind, Option.bind_some,
        Option.bind_eq_some_iff] at h
      obtain ⟨t, ht, hs⟩ := h
      cases hs
      simp [ih ht]

theorem encodeUtf8_of_decodeUtf8 {bs : Bytes} {s : PyStr} (h : decodeUtf8 bs = some s) :
    encodeUtf8 s = some bs := by
  unfold decodeUtf8 at h
  cases hd : decodeSurrogatepass bs with
  | none => simp [hd] at h
  | some t =>
    simp only [hd] at h
    split at h
    · cases h
    · next hs =>
      cases h
      rw [encodeUtf8, if_neg hs, encode_of_decodeSurrogatepass hd]

lemma encodeUtf8_eq_some {s : PyStr} {bs : Bytes} :
    encodeUtf8 s = some bs ↔ hasSurrogate s = false ∧ bs = encodeSurrogatepass s := by
  unfold encodeUtf8
  cases hasSurrogate s <;> simp [eq_comm]

/-! ### ASCII octets are character boundaries -/

lemma encodeChar_ascii {c : CodePoint} {b : UInt8} (hb : b ∈ encodeChar c) (h : b.toNat < 0x80) :
    encodeChar c = [b] ∧ c = codePoint b.toNat := by
  have hc := c.isLt
  have htoNat : ∀ n < 0x100, (UInt8.ofNat n).toNat = n := fun n hn => by simpa using hn
  unfold encodeChar at hb ⊢
  by_cases h1 : c.val < 0x80
  · rw [if_pos h1, List.mem_singleton] at hb
    subst hb
    rw [htoNat _ (by omega)]
    exact ⟨if_pos h1, (codePoint_val c rfl).symm⟩
  · exfalso
    simp only [h1, if_false] at hb
    split_ifs at hb <;> simp only [List.mem_cons, List.not_mem_nil, or_false] at hb <;>
      rcases hb with rfl | hb <;> (try rcases hb with rfl | hb) <;> (try rcases hb with rfl | hb) <;>
      (try subst hb) <;> rw [htoNat _ (by omega)] at h <;> omega

/-- An ASCII octet of encoded text is a whole character, so it splits the text. -/
theorem encode_split_ascii {s : PyStr} {p q : Bytes} {b : UInt8}
    (h : encodeSurrogatepass s = p ++ b :: q) (hb : b.toNat < 0x80) :
    ∃ t u, s = t ++ codePoint b.toNat :: u ∧ encodeSurrogatepass t = p ∧ encodeSurrogatepass u = q := by
  induction s generalizing p with
  | nil => simp [encodeSurrogatepass] at h
  | cons c s ih =>
    rw [encodeSurrogatepass, List.flatMap_cons] at h
    rcases List.append_eq_append_iff.mp h with ⟨r, hp, hs⟩ | ⟨r, hc, hs⟩
    · obtain ⟨t, u, rfl, ht, hu⟩ := ih hs
      exact ⟨c :: t, u, rfl, by rw [hp, ← ht]; rfl, hu⟩
    · cases r with
      | nil =>
        obtain ⟨t, u, rfl, ht, hu⟩ := ih (p := []) hs.symm
        refine ⟨c :: t, u, rfl, ?_, hu⟩
        rw [List.append_nil] at hc
        rw [encodeSurrogatepass, List.flatMap_cons, hc]
        exact (congrArg (p ++ ·) ht).trans (List.append_nil p)
      | cons b' r =>
        obtain ⟨rfl, rfl⟩ := List.cons.inj hs
        obtain ⟨he, rfl⟩ := encodeChar_ascii (c := c) (b := b) (by rw [hc]; simp) hb
        rw [he] at hc
        have hp : p = [] ∧ r = [] := by
          cases p with
          | nil => simpa using hc
          | cons x p => simp at hc
        refine ⟨[], s, rfl, hp.1 ▸ rfl, ?_⟩
        rw [hp.2]
        rfl

lemma encodeSurrogatepass_append (s t : PyStr) :
    encodeSurrogatepass (s ++ t) = encodeSurrogatepass s ++ encodeSurrogatepass t :=
  List.flatMap_append

/-- What follows encoded text in encoded text is encoded text. -/
lemma encode_append_cancel {s t : PyStr} {bs : Bytes}
    (h : encodeSurrogatepass t ++ bs = encodeSurrogatepass s) :
    ∃ u, s = t ++ u ∧ bs = encodeSurrogatepass u := by
  have hunits : t.map some ++ decodeUnits bs = s.map some := by
    rw [← decodeUnits_encode, h]
    simpa [decodeUnits] using decodeUnits_encode s []
  obtain ⟨a, u, rfl, ha, hu⟩ := List.append_eq_map_iff.mp hunits
  obtain rfl : a = t := List.map_injective_iff.mpr (Option.some_injective _) ha
  exact ⟨u, rfl, (encode_of_decodeUnits hu.symm).symm⟩

/-- A position of the octets between two characters. -/
def IsBoundary (bs : Bytes) (i : Nat) : Prop := ∃ t, bs.take i = encodeSurrogatepass t

lemma isBoundary_of_ascii {s : PyStr} {i : Nat} {b : UInt8}
    (hi : (encodeSurrogatepass s)[i]? = some b) (hb : b.toNat < 0x80) :
    IsBoundary (encodeSurrogatepass s) i ∧ IsBoundary (encodeSurrogatepass s) (i + 1) := by
  obtain ⟨hlt, hget⟩ := List.getElem?_eq_some_iff.mp hi
  have hsplit := (List.take_append_drop i (encodeSurrogatepass s)).symm
  rw [List.drop_eq_getElem_cons hlt, hget] at hsplit
  obtain ⟨t, u, -, ht, -⟩ := encode_split_ascii hsplit hb
  have hchar : encodeChar (codePoint b.toNat) = [b] := encodeChar_single hb
  refine ⟨⟨t, ht.symm⟩, t ++ [codePoint b.toNat], ?_⟩
  rw [List.take_succ_eq_append_getElem hlt, hget, encodeSurrogatepass_append, ht]
  simp [encodeSurrogatepass, hchar]

/-- The octets between two boundaries decode. -/
lemma decode_between {bs : Bytes} {i j : Nat} (hi : IsBoundary bs i) (hj : IsBoundary bs j)
    (hij : i ≤ j) : ∃ t, (bs.take j).drop i = encodeSurrogatepass t := by
  obtain ⟨t, ht⟩ := hi
  obtain ⟨s, hs⟩ := hj
  have h : encodeSurrogatepass t ++ (bs.take j).drop i = encodeSurrogatepass s := by
    rw [← ht, ← hs, show bs.take i = (bs.take j).take i by rw [List.take_take, min_eq_left hij],
      List.take_append_drop]
  obtain ⟨u, -, hu⟩ := encode_append_cancel h
  exact ⟨u, hu⟩

end AisMixer.Library

import AisMixer.Library.Fallible

/-!
# The NMEA scanner

`scanNmeaSentences` is `re.finditer` of the sentence pattern
`!<talker>VD[MO],[^\r\n]*?\*[0-9A-Fa-f]{2}` over the octets of a payload, with the TAG block
that touches each match. A span proves that it is not empty.
-/

namespace AisMixer
open Library

structure ByteSpan where
  start : Nat
  stop : Nat
  start_lt_stop : start < stop
  deriving DecidableEq

/-- The constructor with its check. -/
def ByteSpan.new (start stop : Nat) : Except PyException ByteSpan :=
  if h : start < stop then .ok ⟨start, stop, h⟩
  else .error (.valueError (str "byte span must satisfy 0 <= start < end"))

structure NMEAScanMatch where
  sentenceSpan : ByteSpan
  tagSpan : Option ByteSpan
  deriving DecidableEq

def aisTalkers : List Bytes :=
  [ascii "AI", ascii "AB", ascii "AD", ascii "AN", ascii "AR", ascii "AS", ascii "AT", ascii "AX",
    ascii "BS"]

/-- `!`, a talker, `VDM` (or `VDO`) and a comma. -/
def isHeader (includeVdo : Bool) (head : Bytes) : Bool :=
  aisTalkers.any (fun talker =>
    head == 0x21 :: talker ++ ascii "VDM," || includeVdo && head == 0x21 :: talker ++ ascii "VDO,")

def isHexDigit (b : UInt8) : Bool :=
  0x30 ≤ b.toNat && b.toNat ≤ 0x39 || 0x41 ≤ b.toNat && b.toNat ≤ 0x46 ||
    0x61 ≤ b.toNat && b.toNat ≤ 0x66

/-- The length of `[^\r\n]*?\*[0-9A-Fa-f]{2}` at the head of the octets. The body is lazy:
the checksum is tried before another octet is taken. -/
def bodyLength : Bytes → Option Nat
  | [] => none
  | b :: rest =>
    if b = 0x2A ∧ (rest.take 2).length = 2 ∧ (rest.take 2).all isHexDigit then some 3
    else if b = 0x0D ∨ b = 0x0A then none
    else (bodyLength rest).map (· + 1)

/-- The length of a match of the pattern at the head of the octets. -/
def matchLength (includeVdo : Bool) (payload : Bytes) : Option Nat :=
  if isHeader includeVdo (payload.take 7) then (bodyLength (payload.drop 7)).map (· + 7) else none

/-- The spans of `finditer` in what remains of a payload at `position`, of which the next
`consumed` octets belong to the previous match. -/
def findMatches (includeVdo : Bool) (position consumed : Nat) : Bytes → List (Nat × Nat)
  | [] => []
  | b :: rest =>
    match consumed with
    | consumed + 1 => findMatches includeVdo (position + 1) consumed rest
    | 0 =>
      match matchLength includeVdo (b :: rest) with
      | none => findMatches includeVdo (position + 1) 0 rest
      | some length =>
        (position, position + length) :: findMatches includeVdo (position + 1) (length - 1) rest

/-- `payload.rfind(b, 0, stop)`. -/
def rfind (payload : Bytes) (b : UInt8) (stop : Nat) : Option Nat :=
  ((List.range (min stop payload.length)).filter (fun i => payload[i]? = some b)).getLast?

def findAdjacentTag (payload : Bytes) (sentenceStart : Nat) : Except PyException (Option ByteSpan) :=
  if sentenceStart = 0 ∨ payload[sentenceStart - 1]? ≠ some 0x5C then .ok none
  else
    match rfind payload 0x5C (sentenceStart - 1) with
    | none => .ok none
    | some tagStart => (ByteSpan.new tagStart sentenceStart).map some

def scanMatch (payload : Bytes) (span : Nat × Nat) : Except PyException NMEAScanMatch := do
  let tagSpan ← findAdjacentTag payload span.1
  let sentenceSpan ← ByteSpan.new span.1 span.2
  return ⟨sentenceSpan, tagSpan⟩

def scanNmeaSentences (payload : Bytes) (includeVdo : Bool) : Except PyException (List NMEAScanMatch) :=
  (findMatches includeVdo 0 0 payload).mapM (scanMatch payload)

/-! ### Where matches and TAG blocks lie -/

/-- A span of the payload that starts with `!` and ends with a hexadecimal digit. -/
structure IsSentenceSpan (payload : Bytes) (start stop : Nat) : Prop where
  start_lt_stop : start < stop
  stop_le : stop ≤ payload.length
  bang : payload[start]? = some 0x21
  hexDigit : ∃ b, payload[stop - 1]? = some b ∧ isHexDigit b = true

lemma bodyLength_spec {body : Bytes} {n : Nat} (h : bodyLength body = some n) :
    0 < n ∧ n ≤ body.length ∧ ∃ b, body[n - 1]? = some b ∧ isHexDigit b = true := by
  induction body generalizing n with
  | nil => simp [bodyLength] at h
  | cons b rest ih =>
    by_cases hend : b = 0x2A ∧ (rest.take 2).length = 2 ∧ (rest.take 2).all isHexDigit
    · rw [bodyLength, if_pos hend] at h
      obtain ⟨-, hlen, hhex⟩ := hend
      match rest, hlen with
      | x :: y :: rest, _ =>
        obtain rfl : 3 = n := by simpa using h
        have hy : isHexDigit y = true := by
          rw [List.all_eq_true] at hhex
          exact hhex y (by simp)
        exact ⟨by omega, by simp, y, rfl, hy⟩
    · rw [bodyLength, if_neg hend] at h
      split at h
      · cases h
      · obtain ⟨m, hm, rfl⟩ := Option.map_eq_some_iff.mp h
        obtain ⟨hpos, hle, c, hc, hhex⟩ := ih hm
        refine ⟨by omega, by simpa using hle, c, ?_, hhex⟩
        rw [Nat.add_sub_cancel, ← hc]
        obtain ⟨k, rfl⟩ : ∃ k, m = k + 1 := ⟨m - 1, by omega⟩
        simp

lemma isHeader_head {includeVdo : Bool} {head : Bytes} (h : isHeader includeVdo head = true) :
    head[0]? = some 0x21 ∧ head.length = 7 := by
  simp only [isHeader, List.any_eq_true, Bool.or_eq_true, Bool.and_eq_true, beq_iff_eq] at h
  obtain ⟨talker, ht, h⟩ := h
  have hlen : talker.length = 2 := by
    simp only [aisTalkers, List.mem_cons, List.not_mem_nil, or_false] at ht
    rcases ht with rfl | rfl | rfl | rfl | rfl | rfl | rfl | rfl | rfl <;> rfl
  have hvdm : (ascii "VDM,").length = 4 := rfl
  have hvdo : (ascii "VDO,").length = 4 := rfl
  rcases h with rfl | ⟨-, rfl⟩
  · exact ⟨rfl, by simp [hlen, hvdm]⟩
  · exact ⟨rfl, by simp [hlen, hvdo]⟩

lemma matchLength_spec {includeVdo : Bool} {payload : Bytes} {n : Nat}
    (h : matchLength includeVdo payload = some n) : IsSentenceSpan payload 0 n := by
  rw [matchLength] at h
  split at h
  · next hhead =>
    obtain ⟨m, hm, rfl⟩ := Option.map_eq_some_iff.mp h
    obtain ⟨hbang, hlen⟩ := isHeader_head hhead
    obtain ⟨hpos, hle, b, hb, hhex⟩ := bodyLength_spec hm
    have hseven : 7 ≤ payload.length := by
      rw [List.length_take] at hlen
      omega
    rw [List.length_drop] at hle
    refine ⟨by omega, by omega, ?_, b, ?_, hhex⟩
    · rw [← hbang, List.getElem?_take_of_lt (by omega)]
    · rw [← hb, List.getElem?_drop]
      congr 1
      omega
  · cases h

lemma IsSentenceSpan.drop {payload : Bytes} {position n : Nat}
    (h : IsSentenceSpan (payload.drop position) 0 n) :
    IsSentenceSpan payload position (position + n) := by
  obtain ⟨hpos, hle, hbang, b, hb, hhex⟩ := h
  rw [List.length_drop] at hle
  rw [List.getElem?_drop] at hbang hb
  refine ⟨by omega, by omega, hbang, b, ?_, hhex⟩
  rw [← hb]
  congr 1
  omega

lemma findMatches_spec {includeVdo : Bool} {payload : Bytes} {span : Nat × Nat} :
    ∀ (rest : Bytes) (position consumed : Nat), payload.drop position = rest →
      span ∈ findMatches includeVdo position consumed rest →
      IsSentenceSpan payload span.1 span.2 := by
  intro rest
  induction rest with
  | nil => simp [findMatches]
  | cons b rest ih =>
    intro position consumed hdrop hmem
    have hnext : payload.drop (position + 1) = rest := by
      rw [← List.drop_drop, hdrop]
      rfl
    cases consumed with
    | succ consumed => exact ih (position + 1) consumed hnext (by simpa [findMatches] using hmem)
    | zero =>
      cases hm : matchLength includeVdo (b :: rest) with
      | none => exact ih (position + 1) 0 hnext (by simpa [findMatches, hm] using hmem)
      | some n =>
        simp only [findMatches, hm, List.mem_cons] at hmem
        rcases hmem with rfl | hmem
        · rw [← hdrop] at hm
          exact (matchLength_spec hm).drop
        · exact ih (position + 1) (n - 1) hnext hmem

/-- What a match of the scanner is, in the words of `_validate_match`. -/
structure IsScanMatch (payload : Bytes) (m : NMEAScanMatch) : Prop where
  sentence : IsSentenceSpan payload m.sentenceSpan.start m.sentenceSpan.stop
  tag : ∀ span, m.tagSpan = some span →
    span.stop = m.sentenceSpan.start ∧ span.start < span.stop - 1 ∧
      payload[span.start]? = some 0x5C ∧ payload[span.stop - 1]? = some 0x5C

lemma rfind_spec {payload : Bytes} {b : UInt8} {stop i : Nat} (h : rfind payload b stop = some i) :
    i < stop ∧ payload[i]? = some b := by
  have hmem := List.mem_of_getLast? h
  simp only [List.mem_filter, List.mem_range, decide_eq_true_eq] at hmem
  exact ⟨by omega, hmem.2⟩

lemma scanMatch_spec {payload : Bytes} {span : Nat × Nat}
    (h : IsSentenceSpan payload span.1 span.2) :
    ∃ m, scanMatch payload span = .ok m ∧ IsScanMatch payload m := by
  have hspan : ByteSpan.new span.1 span.2 = .ok ⟨span.1, span.2, h.start_lt_stop⟩ :=
    dif_pos h.start_lt_stop
  by_cases hnone : span.1 = 0 ∨ payload[span.1 - 1]? ≠ some 0x5C
  · refine ⟨⟨⟨span.1, span.2, h.start_lt_stop⟩, none⟩, ?_, h, by simp⟩
    simp [scanMatch, findAdjacentTag, hnone, hspan, Bind.bind, Except.bind, Pure.pure, Except.pure]
  · cases hr : rfind payload 0x5C (span.1 - 1) with
    | none =>
      refine ⟨⟨⟨span.1, span.2, h.start_lt_stop⟩, none⟩, ?_, h, by simp⟩
      simp [scanMatch, findAdjacentTag, hnone, hr, hspan, Bind.bind, Except.bind, Pure.pure,
        Except.pure]
    | some tagStart =>
      obtain ⟨hlt, htag⟩ := rfind_spec hr
      have hlt' : tagStart < span.1 := by omega
      refine ⟨⟨⟨span.1, span.2, h.start_lt_stop⟩, some ⟨tagStart, span.1, hlt'⟩⟩, ?_, h, ?_⟩
      · have htagSpan : ByteSpan.new tagStart span.1 = .ok ⟨tagStart, span.1, hlt'⟩ := dif_pos hlt'
        simp [scanMatch, findAdjacentTag, hnone, hr, hspan, htagSpan, Except.map, Bind.bind,
          Except.bind, Pure.pure, Except.pure]
      · rintro _ ⟨⟩
        exact ⟨rfl, hlt, htag, by tauto⟩

/-- The scanner is total, and every match lies where the parser expects it. -/
theorem scanNmeaSentences_ok (payload : Bytes) (includeVdo : Bool) :
    ∃ ms, scanNmeaSentences payload includeVdo = .ok ms ∧ ∀ m ∈ ms, IsScanMatch payload m :=
  mapM_ok_of_forall (fun span hspan =>
    scanMatch_spec (findMatches_spec payload 0 0 (by simp) hspan))

end AisMixer

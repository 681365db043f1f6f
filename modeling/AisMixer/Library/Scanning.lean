import Mathlib

/-!
# Successive matches of a pattern

`findAll` takes the matches of a pattern from left to right, as `re.findall` does: the search goes on
after each match. A pattern is given by the length of its match at the head of a text, and no match is
empty. In a `Nested` pattern a match that begins within another ends where that one ends, and then
every place where the pattern matches is within a match that `findAll` takes.
-/

namespace AisMixer.Library

variable {α : Type}

/-- The matches in what remains of a text, of which the next `consumed` items belong to the previous
match. -/
def findAll (matchLength : List α → Option Nat) (consumed : Nat) : List α → List (List α)
  | [] => []
  | a :: rest =>
    match consumed with
    | consumed + 1 => findAll matchLength consumed rest
    | 0 =>
      match matchLength (a :: rest) with
      | none => findAll matchLength 0 rest
      | some length => (a :: rest).take length :: findAll matchLength (length - 1) rest

/-- Patterns that match alike at every place of a text find alike in it. -/
theorem findAll_congr {m m' : List α → Option Nat} {text : List α}
    (h : ∀ suffix, suffix <:+ text → m suffix = m' suffix) (consumed : Nat) :
    findAll m consumed text = findAll m' consumed text := by
  induction text generalizing consumed with
  | nil => rfl
  | cons a rest ih =>
    have hrest : ∀ suffix, suffix <:+ rest → m suffix = m' suffix :=
      fun suffix hsuffix => h suffix (hsuffix.trans (List.suffix_cons a rest))
    cases consumed with
    | succ consumed => exact ih hrest consumed
    | zero =>
      rw [findAll, findAll, h (a :: rest) List.suffix_rfl]
      cases m' (a :: rest) with
      | none => exact ih hrest 0
      | some n => exact congrArg _ (ih hrest (n - 1))

/-- What is found matches where it stands. -/
theorem exists_of_mem_findAll {m : List α → Option Nat} {text s : List α} {consumed : Nat}
    (h : s ∈ findAll m consumed text) : ∃ suffix n, m suffix = some n ∧ s = suffix.take n := by
  induction text generalizing consumed with
  | nil => cases h
  | cons a rest ih =>
    cases consumed with
    | succ consumed => exact ih h
    | zero =>
      rw [findAll] at h
      cases hm : m (a :: rest) with
      | none =>
        rw [hm] at h
        exact ih h
      | some n =>
        rw [hm] at h
        rcases List.mem_cons.mp h with hs | hs
        · exact ⟨a :: rest, n, hm, hs⟩
        · exact ih hs

/-- A match that begins within another ends with it. -/
def Nested (m : List α → Option Nat) : Prop :=
  ∀ text n k r, m text = some n → k < n → m (text.drop k) = some r → k + r = n

/-- Wherever a nested pattern matches, its match is the end of one that is found. -/
theorem findAll_covers {m : List α → Option Nat} (hnested : Nested m) {text : List α} {consumed i r : Nat}
    (hi : consumed ≤ i) (hlt : i < text.length) (h : m (text.drop i) = some r) :
    ∃ s ∈ findAll m consumed text, (text.drop i).take r <:+ s := by
  induction text generalizing consumed i with
  | nil => cases hlt
  | cons a rest ih =>
    cases consumed with
    | succ consumed =>
      obtain ⟨j, rfl⟩ : ∃ j, i = j + 1 := ⟨i - 1, by omega⟩
      exact ih (Nat.le_of_succ_le_succ hi) (Nat.lt_of_succ_lt_succ hlt) h
    | zero =>
      rw [findAll]
      cases hm : m (a :: rest) with
      | none =>
        cases i with
        | zero =>
          rw [List.drop_zero, hm] at h
          cases h
        | succ j => exact ih (Nat.zero_le j) (Nat.lt_of_succ_lt_succ hlt) h
      | some n =>
        by_cases hin : i < n
        · have hend := hnested (a :: rest) n i r hm hin h
          refine ⟨(a :: rest).take n, List.mem_cons_self .., ?_⟩
          have hsuffix : ((a :: rest).take n).drop i = ((a :: rest).drop i).take r := by
            rw [List.drop_take]
            congr 1
            omega
          rw [← hsuffix]
          exact List.drop_suffix i _
        · cases i with
          | zero =>
            rw [List.drop_zero, hm] at h
            obtain rfl := Option.some.inj h
            exact ⟨(a :: rest).take n, List.mem_cons_self .., List.suffix_rfl⟩
          | succ j =>
            have hrest : n - 1 ≤ j := by omega
            obtain ⟨s, hs, hsuffix⟩ := ih hrest (Nat.lt_of_succ_lt_succ hlt) h
            exact ⟨s, List.mem_cons_of_mem _ hs, hsuffix⟩

end AisMixer.Library

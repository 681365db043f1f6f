import Mathlib

/-!
# Lists without repeats, first occurrences kept

`appendUnseen` is the loop that appends what a set of seen items does not hold. Over any
number of lists it computes `firstOccurrences` of their concatenation (`Collected.append`).
-/

namespace AisMixer.Library

variable {α β : Type} [DecidableEq α] [DecidableEq β]

/-- `if x not in seen: seen.add(x); out.append(x)` for each item of a list. -/
def appendUnseen : List α → List α × Finset α → List α × Finset α
  | [], acc => acc
  | x :: xs, (out, seen) =>
    if x ∈ seen then appendUnseen xs (out, seen) else appendUnseen xs (out ++ [x], insert x seen)

/-- Every item once, at the place of its first occurrence. -/
def firstOccurrences (xs : List α) : List α := xs.reverse.dedup.reverse

theorem firstOccurrences_concat (xs : List α) (x : α) :
    firstOccurrences (xs ++ [x]) =
      if x ∈ xs then firstOccurrences xs else firstOccurrences xs ++ [x] := by
  unfold firstOccurrences
  rw [List.reverse_append, List.reverse_singleton, List.singleton_append]
  by_cases h : x ∈ xs
  · rw [if_pos h, List.dedup_cons_of_mem (List.mem_reverse.mpr h)]
  · rw [if_neg h, List.dedup_cons_of_notMem (fun hmem => h (List.mem_reverse.mp hmem)),
      List.reverse_cons]

theorem nodup_firstOccurrences (xs : List α) : (firstOccurrences xs).Nodup :=
  List.nodup_reverse.mpr (List.nodup_dedup _)

@[simp] theorem mem_firstOccurrences {xs : List α} {x : α} : x ∈ firstOccurrences xs ↔ x ∈ xs := by
  simp [firstOccurrences]

/-- Renaming commutes with keeping first occurrences when it confuses no two items. -/
theorem firstOccurrences_filterMap {g : α → Option β} {xs : List α}
    (hdef : ∀ x ∈ xs, (g x).isSome) (hinj : ∀ x ∈ xs, ∀ y ∈ xs, g x = g y → x = y) :
    firstOccurrences (xs.filterMap g) = (firstOccurrences xs).filterMap g := by
  induction xs using List.reverseRecOn with
  | nil => rfl
  | append_singleton xs x ih =>
    have hsub : ∀ y ∈ xs, y ∈ xs ++ [x] := fun y hy => List.mem_append_left _ hy
    have hx : x ∈ xs ++ [x] := by simp
    obtain ⟨b, hb⟩ := Option.isSome_iff_exists.mp (hdef x hx)
    have hmem : b ∈ xs.filterMap g ↔ x ∈ xs := by
      rw [List.mem_filterMap]
      constructor
      · rintro ⟨y, hy, hyb⟩
        rw [← hinj y (hsub y hy) x hx (hyb.trans hb.symm)]
        exact hy
      · intro hmem
        exact ⟨x, hmem, hb⟩
    have hlast : (xs ++ [x]).filterMap g = xs.filterMap g ++ [b] := by
      rw [List.filterMap_append]
      simp [hb]
    rw [hlast, firstOccurrences_concat, firstOccurrences_concat,
      ih (fun y hy => hdef y (hsub y hy)) (fun y hy z hz => hinj y (hsub y hy) z (hsub z hz))]
    by_cases h : x ∈ xs
    · rw [if_pos (hmem.mpr h), if_pos h]
    · rw [if_neg (fun hb => h (hmem.mp hb)), if_neg h, List.filterMap_append]
      simp [hb]

/-- The state of the loop after the items of `xs`. -/
def Collected (xs : List α) (acc : List α × Finset α) : Prop :=
  acc.1 = firstOccurrences xs ∧ ∀ x, x ∈ acc.2 ↔ x ∈ xs

theorem collected_nil : Collected ([] : List α) ([], ∅) := ⟨rfl, by simp⟩

theorem Collected.append {xs : List α} {acc : List α × Finset α} (h : Collected xs acc) (ys : List α) :
    Collected (xs ++ ys) (appendUnseen ys acc) := by
  induction ys generalizing xs acc with
  | nil => simpa [appendUnseen] using h
  | cons y ys ih =>
    obtain ⟨out, seen⟩ := acc
    obtain ⟨hout, hseen⟩ := h
    have hsplit : xs ++ y :: ys = (xs ++ [y]) ++ ys := by simp
    rw [hsplit, appendUnseen]
    by_cases hy : y ∈ xs
    · rw [if_pos ((hseen y).mpr hy)]
      apply ih
      refine ⟨by rw [firstOccurrences_concat, if_pos hy]; exact hout, ?_⟩
      intro x
      rw [hseen, List.mem_append, List.mem_singleton]
      constructor
      · exact Or.inl
      · rintro (hx | rfl)
        · exact hx
        · exact hy
    · rw [if_neg (fun hmem => hy ((hseen y).mp hmem))]
      apply ih
      refine ⟨?_, ?_⟩
      · rw [firstOccurrences_concat, if_neg hy]
        exact congrArg (· ++ [y]) hout
      · intro x
        rw [Finset.mem_insert, hseen, List.mem_append, List.mem_singleton, or_comm]

end AisMixer.Library

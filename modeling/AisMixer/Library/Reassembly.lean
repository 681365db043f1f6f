import Mathlib

/-!
# Reassembly of numbered parts

A history of arrivals of numbered parts, of which only the first one of each number makes
progress. A history covers a total when every number from one to the total has arrived, and it
is steady when no two steps of progress are a timeout apart.
-/

namespace AisMixer.Library

structure Arrival (τ α : Type) where
  time : τ
  ordinal : Nat
  text : α

namespace Arrival

variable {τ α : Type}

def ordinals (arrivals : List (Arrival τ α)) : List Nat := arrivals.map Arrival.ordinal

/-- The arrivals so far that made progress, and one more arrival. -/
def addProgress (steps : List (Arrival τ α)) (a : Arrival τ α) : List (Arrival τ α) :=
  if a.ordinal ∈ ordinals steps then steps else steps ++ [a]

/-- The arrivals that bring a new ordinal. -/
def progress (arrivals : List (Arrival τ α)) : List (Arrival τ α) := arrivals.foldl addProgress []

/-- Every ordinal from one to the total has arrived. -/
def Covers (total : Nat) (arrivals : List (Arrival τ α)) : Prop :=
  ∀ o, 1 ≤ o → o ≤ total → o ∈ ordinals arrivals

/-- Consecutive steps of progress are less than the timeout apart. -/
def Steady [Sub τ] [LT τ] (timeout : τ) (arrivals : List (Arrival τ α)) : Prop :=
  (progress arrivals).IsChain (fun a b => b.time - a.time < timeout)

lemma progress_concat (arrivals : List (Arrival τ α)) (a : Arrival τ α) :
    progress (arrivals ++ [a]) = addProgress (progress arrivals) a := by
  simp [progress, List.foldl_append]

lemma mem_ordinals_addProgress (steps : List (Arrival τ α)) (a : Arrival τ α) (o : Nat) :
    o ∈ ordinals (addProgress steps a) ↔ o ∈ ordinals steps ∨ o = a.ordinal := by
  unfold addProgress
  split
  · next h =>
    constructor
    · exact .inl
    · rintro (ho | rfl)
      · exact ho
      · exact h
  · simp [ordinals]

/-- Progress keeps every ordinal. -/
lemma mem_ordinals_progress (arrivals : List (Arrival τ α)) (o : Nat) :
    o ∈ ordinals (progress arrivals) ↔ o ∈ ordinals arrivals := by
  induction arrivals using List.reverseRecOn with
  | nil => rfl
  | append_singleton arrivals a ih =>
    rw [progress_concat, mem_ordinals_addProgress, ih]
    simp [ordinals]

lemma progress_concat_of_mem {arrivals : List (Arrival τ α)} {a : Arrival τ α}
    (h : a.ordinal ∈ ordinals arrivals) : progress (arrivals ++ [a]) = progress arrivals := by
  rw [progress_concat, addProgress, if_pos ((mem_ordinals_progress arrivals a.ordinal).mpr h)]

lemma progress_concat_of_not_mem {arrivals : List (Arrival τ α)} {a : Arrival τ α}
    (h : a.ordinal ∉ ordinals arrivals) : progress (arrivals ++ [a]) = progress arrivals ++ [a] := by
  rw [progress_concat, addProgress,
    if_neg (fun hmem => h ((mem_ordinals_progress arrivals a.ordinal).mp hmem))]

/-- Progress of a part of a history is a part of its progress. -/
lemma progress_le_append (arrivals more : List (Arrival τ α)) :
    progress arrivals <+: progress (arrivals ++ more) := by
  induction more using List.reverseRecOn with
  | nil => simp
  | append_singleton more a ih =>
    rw [← List.append_assoc, progress_concat, addProgress]
    split
    · exact ih
    · exact ih.trans (List.prefix_append _ _)

lemma progress_eq_nil {arrivals : List (Arrival τ α)} : progress arrivals = [] ↔ arrivals = [] := by
  constructor
  · intro h
    cases arrivals with
    | nil => rfl
    | cons a rest =>
      have hmem : a.ordinal ∈ ordinals (progress (a :: rest)) :=
        (mem_ordinals_progress _ _).mpr (by simp [ordinals])
      rw [h] at hmem
      cases hmem
  · rintro rfl
    rfl

lemma Covers.mono {total : Nat} {arrivals more : List (Arrival τ α)} (h : Covers total arrivals)
    (hsub : ∀ a ∈ arrivals, a ∈ more) : Covers total more := by
  intro o ho hle
  obtain ⟨a, ha, rfl⟩ := List.mem_map.mp (h o ho hle)
  exact List.mem_map_of_mem (hsub a ha)

section Time

variable [Sub τ] [LT τ]

lemma Steady.of_append {timeout : τ} {arrivals more : List (Arrival τ α)}
    (h : Steady timeout (arrivals ++ more)) : Steady timeout arrivals :=
  List.IsChain.prefix h (progress_le_append arrivals more)

/-- A new ordinal keeps a history steady when it comes in time. -/
lemma steady_concat_of_not_mem {timeout : τ} {arrivals : List (Arrival τ α)} {a : Arrival τ α}
    (h : a.ordinal ∉ ordinals arrivals) :
    Steady timeout (arrivals ++ [a]) ↔ Steady timeout arrivals ∧
      ∀ last ∈ (progress arrivals).getLast?, a.time - last.time < timeout := by
  rw [Steady, progress_concat_of_not_mem h, List.isChain_append]
  simp [Steady]

lemma steady_concat_of_mem {timeout : τ} {arrivals : List (Arrival τ α)} {a : Arrival τ α}
    (h : a.ordinal ∈ ordinals arrivals) :
    Steady timeout (arrivals ++ [a]) ↔ Steady timeout arrivals := by
  rw [Steady, progress_concat_of_mem h, Steady]

/-- In a steady history, the step of progress after a part of it comes in time. -/
lemma Steady.next {timeout : τ} {arrivals more : List (Arrival τ α)} {a : Arrival τ α}
    (h : Steady timeout (arrivals ++ more)) (ha : a ∈ more) (hnew : a.ordinal ∉ ordinals arrivals) :
    ∃ b ∈ more, b.ordinal ∉ ordinals arrivals ∧
      ∀ last ∈ (progress arrivals).getLast?, b.time - last.time < timeout := by
  induction more generalizing arrivals with
  | nil => cases ha
  | cons c more ih =>
    by_cases hc : c.ordinal ∈ ordinals arrivals
    · -- a repetition changes neither the ordinals nor the progress
      have hsame : ∀ o, o ∈ ordinals (arrivals ++ [c]) ↔ o ∈ ordinals arrivals := by
        intro o
        simp only [ordinals, List.map_append, List.map_cons, List.map_nil, List.mem_append,
          List.mem_singleton, or_iff_left_iff_imp]
        rintro rfl
        exact hc
      have hmem : a ∈ more := by
        rcases List.mem_cons.mp ha with rfl | ha
        · exact absurd hc hnew
        · exact ha
      have hrest : Steady timeout ((arrivals ++ [c]) ++ more) := by simpa using h
      obtain ⟨b, hb, hbnew, hlast⟩ := ih hrest hmem (by rwa [hsame])
      rw [progress_concat_of_mem hc] at hlast
      exact ⟨b, List.mem_cons_of_mem _ hb, by rwa [← hsame], hlast⟩
    · have hstep : Steady timeout (arrivals ++ [c]) := by
        have hrest : Steady timeout ((arrivals ++ [c]) ++ more) := by simpa using h
        exact hrest.of_append
      exact ⟨c, List.mem_cons_self, hc, ((steady_concat_of_not_mem hc).mp hstep).2⟩

end Time

end Arrival

end AisMixer.Library

import Mathlib

/-!
# Recency in a log

A log lists timed records of keys. Of two keys, the one whose last record is nearer to the end of
the log is the more recent one.
-/

namespace AisMixer.Library

variable {τ κ : Type} [DecidableEq κ]

/-- The time of the last record of a key. -/
def lastTime (log : List (τ × κ)) (key : κ) : Option τ :=
  (log.reverse.find? (fun r => decide (r.2 = key))).map Prod.fst

/-- The number of records after the last one of a key. -/
def recency (log : List (τ × κ)) (key : κ) : Nat :=
  log.reverse.findIdx (fun r => decide (r.2 = key))

section LastRecord

variable {before after : List (τ × κ)} {key other : κ} {time : τ}

lemma lastTime_of_last (h : ∀ r ∈ after, r.2 ≠ key) :
    lastTime (before ++ (time, key) :: after) key = some time := by
  have hnone : after.reverse.find? (fun r => decide (r.2 = key)) = none := by
    rw [List.find?_eq_none]
    intro r hr
    simpa using h r (List.mem_reverse.mp hr)
  rw [lastTime, List.reverse_append, List.reverse_cons, List.find?_append, List.find?_append, hnone]
  simp

lemma recency_of_last (h : ∀ r ∈ after, r.2 ≠ key) :
    recency (before ++ (time, key) :: after) key = after.length := by
  have hnone : after.reverse.findIdx (fun r => decide (r.2 = key)) = after.reverse.length := by
    rw [List.findIdx_eq_length]
    intro r hr
    simpa using h r (List.mem_reverse.mp hr)
  rw [recency, List.reverse_append, List.reverse_cons, List.findIdx_append, List.findIdx_append,
    hnone, List.length_reverse]
  simp

lemma lastTime_append (h : ∃ r ∈ after, r.2 = key) :
    lastTime (before ++ after) key = lastTime after key := by
  obtain ⟨r, hr, hkey⟩ := h
  have hsome : (after.reverse.find? (fun r => decide (r.2 = key))).isSome = true := by
    rw [List.find?_isSome]
    exact ⟨r, List.mem_reverse.mpr hr, decide_eq_true hkey⟩
  rw [lastTime, lastTime, List.reverse_append, List.find?_append, Option.or_of_isSome hsome]

lemma recency_lt (h : ∃ r ∈ after, r.2 = key) : recency (before ++ after) key < after.length := by
  obtain ⟨r, hr, hkey⟩ := h
  have hlt : after.reverse.findIdx (fun r => decide (r.2 = key)) < after.reverse.length :=
    List.findIdx_lt_length_of_exists ⟨r, List.mem_reverse.mpr hr, decide_eq_true hkey⟩
  rw [recency, List.reverse_append, List.findIdx_append, if_pos hlt]
  rwa [List.length_reverse] at hlt

lemma mem_of_lastTime {log : List (τ × κ)} (h : lastTime log key = some time) :
    (time, key) ∈ log := by
  obtain ⟨r, hfind, rfl⟩ := Option.map_eq_some_iff.mp h
  have hkey := List.find?_some hfind
  have hmem := List.mem_of_find?_eq_some hfind
  rw [decide_eq_true_iff] at hkey
  rw [← hkey]
  exact List.mem_reverse.mp hmem

/-- A key that has a record after the last one of another is more recent, and in a log in the
order of its times it is not older. -/
theorem more_recent (hlast : ∀ r ∈ after, r.2 ≠ key) (hother : ∃ r ∈ after, r.2 = other) :
    recency (before ++ (time, key) :: after) other < recency (before ++ (time, key) :: after) key := by
  rw [recency_of_last hlast, List.append_cons]
  exact recency_lt hother

theorem not_older [LinearOrder τ] (hlast : ∀ r ∈ after, r.2 ≠ key)
    (hother : ∃ r ∈ after, r.2 = other)
    (hsorted : (before ++ (time, key) :: after).Pairwise (fun r s => r.1 ≤ s.1)) {s t : τ}
    (hs : lastTime (before ++ (time, key) :: after) key = some s)
    (ht : lastTime (before ++ (time, key) :: after) other = some t) : s ≤ t := by
  rw [lastTime_of_last hlast] at hs
  rw [List.append_cons, lastTime_append hother] at ht
  rw [← Option.some.inj hs]
  have htail := (List.pairwise_append.mp hsorted).2.1
  exact (List.pairwise_cons.mp htail).1 (t, other) (mem_of_lastTime ht)

end LastRecord

end AisMixer.Library

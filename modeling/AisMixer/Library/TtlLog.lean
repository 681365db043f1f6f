import Mathlib

/-!
# Logs with a time to live

A log lists records in the order of their times. A queue that drops the expired front of the log
loses no live record, so it answers membership like the log itself.
-/

namespace AisMixer.Library

variable {ρ τ : Type} [AddCommGroup τ] [LinearOrder τ] [IsOrderedAddMonoid τ]

/-- The queue without its expired front. -/
def dropExpired (time : ρ → τ) (ttl now : τ) (queue : List ρ) : List ρ :=
  queue.dropWhile (fun e => decide (ttl ≤ now - time e))

/-- In a queue in the order of the times the expired records are all at the front. -/
lemma dropExpired_eq_filter {time : ρ → τ} {queue : List ρ}
    (hsorted : queue.Pairwise (fun e f => time e ≤ time f)) (ttl now : τ) :
    dropExpired time ttl now queue = queue.filter (fun e => decide (now - time e < ttl)) := by
  induction queue with
  | nil => rfl
  | cons e rest ih =>
    obtain ⟨hle, hrest⟩ := List.pairwise_cons.mp hsorted
    rw [dropExpired]
    by_cases hlive : now - time e < ttl
    · have hall : ∀ f ∈ e :: rest, decide (now - time f < ttl) = true := by
        intro f hf
        apply decide_eq_true
        rcases List.mem_cons.mp hf with rfl | hf
        · exact hlive
        · exact lt_of_le_of_lt (sub_le_sub_left (hle f hf) now) hlive
      rw [List.dropWhile_cons_of_neg (by simpa using hlive), List.filter_eq_self.mpr hall]
    · rw [List.dropWhile_cons_of_pos (by simpa using hlive), ← dropExpired, ih hrest,
        List.filter_cons_of_neg (by simpa using hlive)]

/-- The queue is the log without some of its expired records, as of `last`. -/
structure KeepsLive (time : ρ → τ) (ttl last : τ) (log queue : List ρ) : Prop where
  dropped : ∃ front, log = front ++ queue ∧ ∀ e ∈ front, ttl ≤ last - time e
  sorted : log.Pairwise (fun e f => time e ≤ time f)
  le_last : ∀ e ∈ log, time e ≤ last

namespace KeepsLive

variable {time : ρ → τ} {ttl last now : τ} {log queue : List ρ}

omit [IsOrderedAddMonoid τ] in
lemma nil (time : ρ → τ) (ttl last : τ) : KeepsLive time ttl last [] [] where
  dropped := ⟨[], rfl, by simp⟩
  sorted := List.Pairwise.nil
  le_last := by simp

lemma expired_mono {e : ρ} (hle : last ≤ now) (h : ttl ≤ last - time e) : ttl ≤ now - time e :=
  h.trans (sub_le_sub_right hle _)

/-- A cleanup at a later time. -/
lemma cleanup (h : KeepsLive time ttl last log queue) (hle : last ≤ now) :
    KeepsLive time ttl now log (dropExpired time ttl now queue) := by
  obtain ⟨front, hlog, hfront⟩ := h.dropped
  refine ⟨⟨front ++ queue.takeWhile (fun e => decide (ttl ≤ now - time e)), ?_, ?_⟩, h.sorted,
    fun e he => (h.le_last e he).trans hle⟩
  · rw [List.append_assoc, dropExpired, List.takeWhile_append_dropWhile, hlog]
  · intro e he
    rcases List.mem_append.mp he with he | he
    · exact expired_mono hle (hfront e he)
    · simpa using List.mem_takeWhile_imp he

/-- After a cleanup the queue holds the live records of the log and no others. -/
lemma mem_cleanup_iff (h : KeepsLive time ttl last log queue) (hle : last ≤ now) (e : ρ) :
    e ∈ dropExpired time ttl now queue ↔ e ∈ log ∧ now - time e < ttl := by
  have hclean := h.cleanup hle
  obtain ⟨front, hlog, hfront⟩ := hclean.dropped
  have hsorted := hclean.sorted
  rw [hlog] at hsorted
  constructor
  · intro he
    refine ⟨by rw [hlog]; exact List.mem_append_right _ he, ?_⟩
    cases hq : dropExpired time ttl now queue with
    | nil =>
      rw [hq] at he
      cases he
    | cons first rest =>
      -- the front record is live and the others are not older
      have hfirst : now - time first < ttl := by
        have hhead := List.head?_dropWhile_not (fun e => decide (ttl ≤ now - time e)) queue
        rw [← dropExpired, hq] at hhead
        simpa using hhead
      rw [hq] at he hsorted
      rcases List.mem_cons.mp he with rfl | he
      · exact hfirst
      · have htail := (List.pairwise_append.mp hsorted).2.1
        exact lt_of_le_of_lt (sub_le_sub_left ((List.pairwise_cons.mp htail).1 e he) _) hfirst
  · rintro ⟨he, hlive⟩
    rw [hlog] at he
    rcases List.mem_append.mp he with he | he
    · exact absurd (hfront e he) (not_le.mpr hlive)
    · exact he

/-- Time passes. -/
lemma later (h : KeepsLive time ttl last log queue) (hle : last ≤ now) :
    KeepsLive time ttl now log queue where
  dropped := by
    obtain ⟨front, hlog, hfront⟩ := h.dropped
    exact ⟨front, hlog, fun e he => expired_mono hle (hfront e he)⟩
  sorted := h.sorted
  le_last e he := (h.le_last e he).trans hle

omit [IsOrderedAddMonoid τ] in
lemma push (h : KeepsLive time ttl last log queue) {e : ρ} (he : time e = last) :
    KeepsLive time ttl last (log ++ [e]) (queue ++ [e]) where
  dropped := by
    obtain ⟨front, hlog, hfront⟩ := h.dropped
    exact ⟨front, by rw [hlog, List.append_assoc], hfront⟩
  sorted := by
    refine List.pairwise_append.mpr ⟨h.sorted, List.pairwise_singleton _ _, ?_⟩
    intro f hf g hg
    rw [List.mem_singleton.mp hg, he]
    exact h.le_last f hf
  le_last := by
    intro f hf
    rcases List.mem_append.mp hf with hf | hf
    · exact h.le_last f hf
    · rw [List.mem_singleton.mp hf, he]

end KeepsLive

end AisMixer.Library

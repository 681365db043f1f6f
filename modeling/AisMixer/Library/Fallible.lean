import AisMixer.Library.Text

/-!
# Fallible steps

Lemmas about `Except` as the result of code that can raise.
-/

namespace AisMixer.Library

variable {α β ε : Type}

/-- A missing value is an exception. -/
def orRaise (e : ε) : Option α → Except ε α
  | some a => .ok a
  | none => .error e

/-- Lookups that all succeed. -/
lemma mapM_orRaise {f : α → Option β} {e : ε} {xs : List α} (h : ∀ x ∈ xs, (f x).isSome) :
    xs.mapM (fun x => orRaise e (f x)) = .ok (xs.filterMap f) := by
  induction xs with
  | nil => rfl
  | cons x xs ih =>
    obtain ⟨y, hy⟩ := Option.isSome_iff_exists.mp (h x (by simp))
    rw [List.mapM_cons, ih (fun z hz => h z (List.mem_cons_of_mem _ hz))]
    simp [hy, orRaise, Bind.bind, Except.bind, Pure.pure, Except.pure]

/-- A step after one that succeeded. -/
lemma bind_eq_ok_iff {x : Except ε α} {f : α → Except ε β} {b : β} :
    x >>= f = .ok b ↔ ∃ a, x = .ok a ∧ f a = .ok b := by
  cases x with
  | error e => simp [Bind.bind, Except.bind]
  | ok a => simp [Bind.bind, Except.bind]

/-- A step after a check. -/
lemma check_bind_eq_ok_iff {x : Except ε Unit} {f : Unit → Except ε β} {b : β} :
    x >>= f = .ok b ↔ x = .ok () ∧ f () = .ok b := by
  cases x with
  | error e => simp [Bind.bind, Except.bind]
  | ok a => simp [Bind.bind, Except.bind]

lemma map_eq_ok_iff {x : Except ε α} {f : α → β} {b : β} :
    x.map f = .ok b ↔ ∃ a, x = .ok a ∧ f a = b := by
  cases x with
  | error e => simp [Except.map]
  | ok a => simp [Except.map]

lemma mapError_eq_ok_iff {δ : Type} {x : Except ε α} {f : ε → δ} {a : α} :
    x.mapError f = .ok a ↔ x = .ok a := by
  cases x with
  | error e => simp [Except.mapError]
  | ok a => simp [Except.mapError]

lemma orRaise_eq_ok_iff {e : ε} {o : Option α} {a : α} : orRaise e o = .ok a ↔ o = some a := by
  cases o with
  | none => simp [orRaise]
  | some a => simp [orRaise]

/-- What follows a condition under which an exception is raised. -/
lemma throw_if_eq_ok_iff {c : Prop} [Decidable c] {e : ε} {f : PUnit → Except ε β} {x : Except ε β} {b : β} :
    (if c then throw e >>= f else x) = .ok b ↔ ¬c ∧ x = .ok b := by
  by_cases hc : c
  · simp [hc, throw, throwThe, MonadExceptOf.throw, Bind.bind, Except.bind]
  · simp [hc]

/-- A list of steps that all succeed. -/
lemma mapM_ok_of_forall {f : α → Except ε β} {P : β → Prop} {xs : List α}
    (h : ∀ x ∈ xs, ∃ y, f x = .ok y ∧ P y) : ∃ ys, xs.mapM f = .ok ys ∧ ∀ y ∈ ys, P y := by
  induction xs with
  | nil => exact ⟨[], rfl, by simp⟩
  | cons x xs ih =>
    obtain ⟨y, hy, hPy⟩ := h x (by simp)
    obtain ⟨ys, hys, hPys⟩ := ih (fun z hz => h z (List.mem_cons_of_mem _ hz))
    refine ⟨y :: ys, ?_, by simpa using ⟨hPy, hPys⟩⟩
    simp [List.mapM_cons, hy, hys, Bind.bind, Except.bind, Pure.pure, Except.pure]

/-- Each result of a list of steps comes from one of them. -/
lemma mem_of_mapM_ok {f : α → Except ε β} {xs : List α} {ys : List β} (h : xs.mapM f = .ok ys) :
    ∀ y ∈ ys, ∃ x ∈ xs, f x = .ok y := by
  induction xs generalizing ys with
  | nil =>
    obtain rfl : [] = ys := by simpa [Pure.pure, Except.pure] using h
    simp
  | cons x xs ih =>
    rw [List.mapM_cons, bind_eq_ok_iff] at h
    obtain ⟨y, hy, h⟩ := h
    rw [bind_eq_ok_iff] at h
    obtain ⟨zs, hzs, h⟩ := h
    obtain rfl : y :: zs = ys := by simpa [Pure.pure, Except.pure] using h
    intro z hz
    rcases List.mem_cons.mp hz with rfl | hz
    · exact ⟨x, by simp, hy⟩
    · obtain ⟨w, hw, hwz⟩ := ih hzs z hz
      exact ⟨w, List.mem_cons_of_mem _ hw, hwz⟩

/-- The results of a list of steps, place by place. -/
lemma mapM_ok_iff_forall₂ {f : α → Except ε β} {xs : List α} {ys : List β} :
    xs.mapM f = .ok ys ↔ List.Forall₂ (fun x y => f x = .ok y) xs ys := by
  induction xs generalizing ys with
  | nil => simp [Pure.pure, Except.pure, eq_comm]
  | cons x xs ih =>
    rw [List.mapM_cons, bind_eq_ok_iff, List.forall₂_cons_left_iff]
    constructor
    · rintro ⟨y, hy, h⟩
      obtain ⟨zs, hzs, h⟩ := bind_eq_ok_iff.mp h
      obtain rfl : y :: zs = ys := by simpa [Pure.pure, Except.pure] using h
      exact ⟨y, zs, hy, ih.mp hzs, rfl⟩
    · rintro ⟨y, zs, hy, hzs, rfl⟩
      exact ⟨y, hy, bind_eq_ok_iff.mpr ⟨zs, ih.mpr hzs, rfl⟩⟩

/-- Steps in another order give the same results in that order. -/
lemma mapM_ok_of_perm {f : α → Except ε β} {xs xs' : List α} {ys : List β} (hperm : xs'.Perm xs)
    (h : xs.mapM f = .ok ys) : ∃ ys', xs'.mapM f = .ok ys' ∧ ys'.Perm ys := by
  obtain ⟨ys', hforall, hys⟩ := List.perm_comp_forall₂ hperm (mapM_ok_iff_forall₂.mp h)
  exact ⟨ys', mapM_ok_iff_forall₂.mpr hforall, hys⟩

lemma length_of_mapM_ok {f : α → Except ε β} {xs : List α} {ys : List β} (h : xs.mapM f = .ok ys) :
    ys.length = xs.length := by
  induction xs generalizing ys with
  | nil =>
    obtain rfl : [] = ys := by simpa [Pure.pure, Except.pure] using h
    rfl
  | cons x xs ih =>
    rw [List.mapM_cons, bind_eq_ok_iff] at h
    obtain ⟨y, -, h⟩ := h
    rw [bind_eq_ok_iff] at h
    obtain ⟨zs, hzs, h⟩ := h
    obtain rfl : y :: zs = ys := by simpa [Pure.pure, Except.pure] using h
    simp [ih hzs]

end AisMixer.Library

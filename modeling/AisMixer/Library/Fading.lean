import Mathlib.Data.List.Basic

/-!
# Lists that fade

A list fades when some of its elements leave, each for a given cause, and the others stay in
order, each perhaps replaced by an element that counts as the same.
-/

namespace AisMixer.Library

variable {α : Type} {gone : α → Prop} {same : α → α → Prop}

/-- The second list is the first after some elements that were `gone` have left. -/
inductive Fades (gone : α → Prop) (same : α → α → Prop) : List α → List α → Prop where
  | nil : Fades gone same [] []
  | leave {x : α} {xs ys : List α} : gone x → Fades gone same xs ys → Fades gone same (x :: xs) ys
  | stay {x y : α} {xs ys : List α} : same x y → Fades gone same xs ys → Fades gone same (x :: xs) (y :: ys)

namespace Fades

variable {xs ys zs : List α} {x y : α}

lemma refl (hrefl : ∀ x, same x x) (xs : List α) : Fades gone same xs xs := by
  induction xs with
  | nil => exact nil
  | cons x xs ih => exact stay (hrefl x) ih

lemma trans (hgone : ∀ x y, same x y → gone y → gone x) (hsame : ∀ x y z, same x y → same y z → same x z)
    (h : Fades gone same xs ys) (h' : Fades gone same ys zs) : Fades gone same xs zs := by
  induction h generalizing zs with
  | nil => exact h'
  | leave hx _ ih => exact leave hx (ih h')
  | stay hxy _ ih =>
    cases h' with
    | leave hy h' => exact leave (hgone _ _ hxy hy) (ih h')
    | stay hyz h' => exact stay (hsame _ _ _ hxy hyz) (ih h')

lemma dropWhile (hrefl : ∀ x, same x x) {drop : α → Bool} (hdrop : ∀ x, drop x = true → gone x)
    (xs : List α) : Fades gone same xs (xs.dropWhile drop) := by
  induction xs with
  | nil => exact nil
  | cons x xs ih =>
    rw [List.dropWhile_cons]
    split
    · next h => exact leave (hdrop x h) ih
    · exact refl hrefl _

/-- One element is replaced by one that counts as the same. -/
lemma replace (hrefl : ∀ x, same x x) (hsame : same x y) (before after : List α) :
    Fades gone same (before ++ x :: after) (before ++ y :: after) := by
  induction before with
  | nil => exact stay hsame (refl hrefl after)
  | cons z before ih => exact stay (hrefl z) ih

lemma mem_right (h : Fades gone same xs ys) (hy : y ∈ ys) : ∃ x ∈ xs, same x y := by
  induction h with
  | nil => cases hy
  | leave _ _ ih =>
    obtain ⟨x, hx, hsame⟩ := ih hy
    exact ⟨x, List.mem_cons_of_mem _ hx, hsame⟩
  | stay hsame _ ih =>
    rcases List.mem_cons.mp hy with rfl | hy
    · exact ⟨_, List.mem_cons_self, hsame⟩
    · obtain ⟨x, hx, hsame'⟩ := ih hy
      exact ⟨x, List.mem_cons_of_mem _ hx, hsame'⟩

lemma mem_left (h : Fades gone same xs ys) (hx : x ∈ xs) : gone x ∨ ∃ y ∈ ys, same x y := by
  induction h with
  | nil => cases hx
  | leave hgone _ ih =>
    rcases List.mem_cons.mp hx with rfl | hx
    · exact .inl hgone
    · exact ih hx
  | stay hsame _ ih =>
    rcases List.mem_cons.mp hx with rfl | hx
    · exact .inr ⟨_, List.mem_cons_self, hsame⟩
    · rcases ih hx with hgone | ⟨y, hy, hsame'⟩
      · exact .inl hgone
      · exact .inr ⟨y, List.mem_cons_of_mem _ hy, hsame'⟩

/-- A name that the same elements share keeps its order. -/
lemma map_sublist {β : Type} {name : α → β} (hname : ∀ x y, same x y → name y = name x)
    (h : Fades gone same xs ys) : (ys.map name).Sublist (xs.map name) := by
  induction h with
  | nil => exact .slnil
  | leave _ _ ih => exact ih.cons _
  | stay hsame _ ih =>
    rw [List.map_cons, List.map_cons, hname _ _ hsame]
    exact ih.cons_cons _

lemma sublist_of_eq (h : Fades gone Eq xs ys) : ys.Sublist xs := by
  induction h with
  | nil => exact .slnil
  | leave _ _ ih => exact ih.cons _
  | stay hsame _ ih =>
    rw [hsame]
    exact ih.cons_cons _

/-- An element is gone or has kept its place: behind it nothing has come up. -/
lemma split {before after : List α} (h : Fades gone same (before ++ x :: after) ys) :
    gone x ∨ ∃ before' y after', ys = before' ++ y :: after' ∧ same x y ∧ after'.length ≤ after.length := by
  induction before generalizing ys with
  | nil =>
    cases h with
    | leave hgone _ => exact .inl hgone
    | @stay _ y _ after' hsame hrest =>
      refine .inr ⟨[], y, after', rfl, hsame, ?_⟩
      have hname : ∀ u v : α, same u v → () = () := fun _ _ _ => rfl
      have hlength := (hrest.map_sublist hname).length_le
      simpa using hlength
  | cons z before ih =>
    cases h with
    | leave _ hrest => exact ih hrest
    | @stay _ y _ rest _ hrest =>
      rcases ih hrest with hgone | ⟨before', y', after', rfl, hsame, hlength⟩
      · exact .inl hgone
      · exact .inr ⟨y :: before', y', after', rfl, hsame, hlength⟩

end Fades

end AisMixer.Library

import AisMixer.Udpsec.ExpiringSet
import AisMixer.Library.TtlLog

/-!
# The bounded expiring set refines a list of acceptances

The specification keeps the acceptances of keys with their times. An acceptance leaves the list
when it expires, when everything is discarded, or as the oldest one when a new key meets a full
list; nothing else removes it and nothing renews it.
-/

namespace AisMixer
open Library

/-- A key that was accepted, and when. -/
structure Acceptance (κ : Type) where
  key : κ
  time : ℚ
  deriving DecidableEq

namespace Acceptance

variable {κ : Type} [DecidableEq κ] {ttl now : ℚ} {maxEntries : Nat} {retained : List (Acceptance κ)}

/-- The acceptances that have not expired. -/
def unexpired (ttl now : ℚ) (retained : List (Acceptance κ)) : List (Acceptance κ) :=
  retained.filter (fun a => decide (now < a.time + ttl))

/-- How many have expired. -/
def expiredCount (ttl now : ℚ) (retained : List (Acceptance κ)) : Nat :=
  retained.countP (fun a => decide (a.time + ttl ≤ now))

def contains (ttl : ℚ) (retained : List (Acceptance κ)) (key : κ) (now : ℚ) :
    List (Acceptance κ) × Bool × Nat :=
  let left := unexpired ttl now retained
  (left, left.any (fun a => a.key = key), expiredCount ttl now retained)

def accept (ttl : ℚ) (maxEntries : Nat) (retained : List (Acceptance κ)) (key : κ) (now : ℚ) :
    List (Acceptance κ) × ExpiringSetAdmission :=
  let left := unexpired ttl now retained
  let expired := expiredCount ttl now retained
  if left.any (fun a => a.key = key) then (left, ⟨false, expired, 0⟩)
  else if left.length < maxEntries then (left ++ [⟨key, now⟩], ⟨true, expired, 0⟩)
  else (left.tail ++ [⟨key, now⟩], ⟨true, expired, 1⟩)

omit [DecidableEq κ] in
lemma unexpired_sublist : (unexpired ttl now retained).Sublist retained := List.filter_sublist

omit [DecidableEq κ] in
lemma length_unexpired :
    expiredCount ttl now retained + (unexpired ttl now retained).length = retained.length := by
  rw [expiredCount, unexpired, ← List.countP_eq_length_filter, Nat.add_comm,
    List.length_eq_countP_add_countP (fun a : Acceptance κ => decide (now < a.time + ttl))]
  congr 2
  funext a
  simp

end Acceptance

/-! ### Calls -/

inductive ExpiringSetCall (κ : Type) where
  | contains (key : κ) (now : ℚ)
  | accept (key : κ) (now : ℚ)
  | discardAll

inductive ExpiringSetAnswer where
  | contained (value : Bool) (expired : Nat)
  | admission (value : ExpiringSetAdmission)
  | discarded (count : Nat)
  deriving DecidableEq

namespace ExpiringSetCall

variable {κ : Type} [DecidableEq κ]

def time? : ExpiringSetCall κ → Option ℚ
  | contains _ now => some now
  | accept _ now => some now
  | discardAll => none

/-- The call on a set. -/
def perform (s : BoundedExpiringSet κ) :
    ExpiringSetCall κ → BoundedExpiringSet κ × Except PyException ExpiringSetAnswer
  | contains key now =>
    let (s, value, expired) := s.contains key now
    (s, .ok (.contained value expired))
  | accept key now =>
    let (s, admission) := s.accept key now
    (s, admission.map .admission)
  | discardAll =>
    let (s, count) := s.discardAll
    (s, .ok (.discarded count))

/-- The call on the specification. -/
def expect (ttl : ℚ) (maxEntries : Nat) (retained : List (Acceptance κ)) :
    ExpiringSetCall κ → List (Acceptance κ) × ExpiringSetAnswer
  | contains key now =>
    let (retained, value, expired) := Acceptance.contains ttl retained key now
    (retained, .contained value expired)
  | accept key now =>
    let (retained, admission) := Acceptance.accept ttl maxEntries retained key now
    (retained, .admission admission)
  | discardAll => ([], .discarded retained.length)

def performAll : BoundedExpiringSet κ → List (ExpiringSetCall κ) →
    BoundedExpiringSet κ × List (Except PyException ExpiringSetAnswer)
  | s, [] => (s, [])
  | s, call :: calls =>
    let (s, answer) := call.perform s
    let (last, answers) := performAll s calls
    (last, answer :: answers)

def expectAll (ttl : ℚ) (maxEntries : Nat) : List (Acceptance κ) → List (ExpiringSetCall κ) →
    List (Acceptance κ) × List ExpiringSetAnswer
  | retained, [] => (retained, [])
  | retained, call :: calls =>
    let (retained, answer) := call.expect ttl maxEntries retained
    let (last, answers) := expectAll ttl maxEntries retained calls
    (last, answer :: answers)

end ExpiringSetCall

namespace BoundedExpiringSet

variable {κ : Type} [DecidableEq κ] {ttl now last : ℚ} {maxEntries : Nat}
  {retained : List (Acceptance κ)} {s : BoundedExpiringSet κ}

/-- The keys of a set with the times of their expiry, in the order of the dictionary. -/
def expiries (s : BoundedExpiringSet κ) : List (κ × ℚ) :=
  s.liveByKey.entries.map (fun e => (e.1, e.2.expiresAt))

/-- The set holds the retained acceptances, which are in the order of their times. -/
structure Refines (ttl : ℚ) (maxEntries : Nat) (last : ℚ) (retained : List (Acceptance κ))
    (s : BoundedExpiringSet κ) : Prop where
  consistent : s.Consistent
  ttl_eq : s.ttl = ttl
  max_eq : s.maxEntries = maxEntries
  order : s.expiryOrder.map (fun r => (r.key, r.expiresAt)) =
    retained.map (fun a => (a.key, a.time + ttl))
  sorted : retained.Pairwise (fun a b => a.time ≤ b.time)
  le_last : ∀ a ∈ retained, a.time ≤ last
  fits : retained.length ≤ maxEntries

namespace Refines

omit [DecidableEq κ] in
lemma init (ttl : ℚ) (maxEntries : Nat) (last : ℚ) :
    Refines ttl maxEntries last [] (BoundedExpiringSet.init ttl maxEntries : BoundedExpiringSet κ) where
  consistent := init_consistent ttl maxEntries
  ttl_eq := rfl
  max_eq := rfl
  order := rfl
  sorted := List.Pairwise.nil
  le_last := by simp
  fits := Nat.zero_le _

omit [DecidableEq κ] in
lemma expiries_eq (h : Refines ttl maxEntries last retained s) :
    s.expiries = retained.map (fun a => (a.key, a.time + ttl)) := by
  rw [← h.order, expiries, show s.liveByKey.entries = _ from h.consistent, List.map_map]
  rfl

omit [DecidableEq κ] in
lemma length_order (h : Refines ttl maxEntries last retained s) :
    s.expiryOrder.length = retained.length := by
  have hlength := congrArg List.length h.order
  rwa [List.length_map, List.length_map] at hlength

omit [DecidableEq κ] in
lemma size_eq (h : Refines ttl maxEntries last retained s) : s.size = retained.length := by
  rw [size_eq_length h.consistent, h.length_order]

omit [DecidableEq κ] in
lemma later (h : Refines ttl maxEntries last retained s) (hle : last ≤ now) :
    Refines ttl maxEntries now retained s :=
  { h with le_last := fun a ha => (h.le_last a ha).trans hle }

omit [DecidableEq κ] in
/-- In the order of the times the expired records are all at the front. -/
lemma liveAt_eq (h : Refines ttl maxEntries last retained s) (now : ℚ) :
    (liveAt now s.expiryOrder).map (fun r => (r.key, r.expiresAt)) =
      (Acceptance.unexpired ttl now retained).map (fun a => (a.key, a.time + ttl)) := by
  have hsorted : s.expiryOrder.Pairwise (fun r q => r.expiresAt ≤ q.expiresAt) := by
    have hretained : (retained.map (fun a => (a.key, a.time + ttl))).Pairwise
        (fun e f => e.2 ≤ f.2) := by
      rw [List.pairwise_map]
      exact h.sorted.imp (fun hle => add_le_add_left hle ttl)
    rwa [← h.order, List.pairwise_map] at hretained
  have hfilter : liveAt now s.expiryOrder =
      s.expiryOrder.filter (fun r => decide (now < r.expiresAt)) := by
    have hdrop := dropExpired_eq_filter hsorted 0 now
    simp only [dropExpired, sub_nonneg, sub_neg] at hdrop
    exact hdrop
  have hpairs : ∀ {α : Type} (f : α → κ × ℚ) (xs : List α),
      (xs.filter (fun x => decide (now < (f x).2))).map f =
        (xs.map f).filter (fun e => decide (now < e.2)) := by
    intro α f xs
    rw [List.filter_map]
    rfl
  rw [hfilter, hpairs (fun r : ExpiringRecord κ => (r.key, r.expiresAt)), h.order,
    ← hpairs (fun a : Acceptance κ => (a.key, a.time + ttl))]
  rfl

omit [DecidableEq κ] in
lemma length_liveAt (h : Refines ttl maxEntries last retained s) (now : ℚ) :
    (liveAt now s.expiryOrder).length = (Acceptance.unexpired ttl now retained).length := by
  have hlength := congrArg List.length (h.liveAt_eq now)
  rwa [List.length_map, List.length_map] at hlength

/-- A key is live exactly when an acceptance of it is retained that has not expired. -/
lemma live_iff (h : Refines ttl maxEntries last retained s) (now : ℚ) (key : κ) :
    (∃ r ∈ liveAt now s.expiryOrder, r.key = key) ↔
      (Acceptance.unexpired ttl now retained).any (fun a => a.key = key) = true := by
  have hkeys := congrArg (List.map Prod.fst) (h.liveAt_eq now)
  rw [List.map_map, List.map_map] at hkeys
  have hmem := iff_of_eq (congrArg (fun ks => key ∈ ks) hkeys)
  simpa using hmem

omit [DecidableEq κ] in
/-- A set without its expired records. -/
lemma expire (h : Refines ttl maxEntries last retained s) {s' : BoundedExpiringSet κ}
    (hconsistent : s'.Consistent) (horder : s'.expiryOrder = liveAt now s.expiryOrder)
    (httl : s'.ttl = s.ttl) (hmax : s'.maxEntries = s.maxEntries) :
    Refines ttl maxEntries last (Acceptance.unexpired ttl now retained) s' where
  consistent := hconsistent
  ttl_eq := httl.trans h.ttl_eq
  max_eq := hmax.trans h.max_eq
  order := by rw [horder, h.liveAt_eq]
  sorted := h.sorted.sublist Acceptance.unexpired_sublist
  le_last a ha := h.le_last a (Acceptance.unexpired_sublist.subset ha)
  fits := Acceptance.unexpired_sublist.length_le.trans h.fits

omit [DecidableEq κ] in
/-- The count of `contains` and `accept`. -/
lemma expired_eq (h : Refines ttl maxEntries last retained s) {expired : Nat}
    (hcount : expired + (liveAt now s.expiryOrder).length = s.expiryOrder.length) :
    expired = Acceptance.expiredCount ttl now retained := by
  have hlength := @Acceptance.length_unexpired _ ttl now retained
  rw [h.length_liveAt, h.length_order] at hcount
  omega

lemma contains (h : Refines ttl maxEntries last retained s) (key : κ) (now : ℚ) :
    (s.contains key now).2 = (Acceptance.contains ttl retained key now).2 ∧
      Refines ttl maxEntries last (Acceptance.contains ttl retained key now).1
        (s.contains key now).1 := by
  obtain ⟨hconsistent, horder, httl, hmax, hvalue⟩ := contains_spec h.consistent key now
  have hexpired := h.expired_eq (cleanupExpired_spec h.consistent now).2.2.2.2
  refine ⟨Prod.ext ?_ hexpired, h.expire hconsistent horder httl hmax⟩
  rw [Bool.eq_iff_iff, hvalue, h.live_iff]
  rfl

/-- `accept` answers like the list and never finds its ordering inconsistent. -/
lemma accept (h : Refines ttl maxEntries last retained s) (hmax : 1 ≤ maxEntries)
    (hle : last ≤ now) (key : κ) :
    (s.accept key now).2 = .ok (Acceptance.accept ttl maxEntries retained key now).2 ∧
      Refines ttl maxEntries now (Acceptance.accept ttl maxEntries retained key now).1
        (s.accept key now).1 := by
  have hpos : 0 < s.maxEntries := by
    rw [h.max_eq]
    exact hmax
  obtain ⟨hconsistent, httl, hmaxEq, admission, hadmission, hcount, hcase⟩ :=
    accept_spec h.consistent hpos key now
  have hexpired := h.expired_eq hcount
  have hlive := h.live_iff now key
  have hlength := h.length_liveAt now
  rw [h.max_eq] at hcase
  rw [hadmission]
  unfold Acceptance.accept
  rcases hcase with ⟨haccepted, hevicted, hfound, horder⟩ |
    ⟨haccepted, hnew, number, dropped, hevicted, horder, hroom⟩
  · rw [if_pos (hlive.mp hfound), ← hexpired, ← haccepted, ← hevicted]
    exact ⟨rfl, (h.expire hconsistent horder httl hmaxEq).later hle⟩
  · have hnone : ¬(Acceptance.unexpired ttl now retained).any (fun a => a.key = key) = true := by
      rw [← hlive]
      rintro ⟨r, hr, hkey⟩
      exact hnew r hr hkey
    have hpush : Refines ttl maxEntries now
        ((Acceptance.unexpired ttl now retained).drop dropped ++ [⟨key, now⟩]) (s.accept key now).1 := by
      have hsublist := (List.drop_sublist dropped _).trans
        (@Acceptance.unexpired_sublist _ ttl now retained)
      refine ⟨hconsistent, httl.trans h.ttl_eq, hmaxEq.trans h.max_eq, ?_, ?_, ?_, ?_⟩
      · rw [horder, List.map_append, List.map_append, List.map_drop, List.map_drop, h.liveAt_eq,
          h.ttl_eq]
        rfl
      · refine List.pairwise_append.mpr ⟨h.sorted.sublist hsublist, List.pairwise_singleton _ _, ?_⟩
        intro a ha b hb
        rw [List.mem_singleton.mp hb]
        exact (h.le_last a (hsublist.subset ha)).trans hle
      · intro a ha
        rcases List.mem_append.mp ha with ha | ha
        · exact (h.le_last a (hsublist.subset ha)).trans hle
        · rw [List.mem_singleton.mp ha]
      · have hfits := (@Acceptance.unexpired_sublist _ ttl now retained).length_le.trans h.fits
        rw [List.length_append, List.length_drop, List.length_singleton]
        omega
    rw [if_neg hnone]
    rcases hroom with ⟨rfl, hroom⟩ | ⟨rfl, hroom⟩
    · rw [if_pos (by omega), ← hexpired, ← haccepted, ← hevicted]
      exact ⟨rfl, hpush⟩
    · rw [if_neg (by omega), ← hexpired, ← haccepted, ← hevicted, ← List.drop_one]
      exact ⟨rfl, hpush⟩

omit [DecidableEq κ] in
lemma discardAll (h : Refines ttl maxEntries last retained s) :
    s.discardAll.2 = retained.length ∧ Refines ttl maxEntries last [] s.discardAll.1 :=
  ⟨h.size_eq, rfl, h.ttl_eq, h.max_eq, rfl, List.Pairwise.nil, by simp, Nat.zero_le _⟩

/-- A call on both sides. -/
theorem perform (h : Refines ttl maxEntries last retained s) (hmax : 1 ≤ maxEntries)
    (call : ExpiringSetCall κ) (hle : ∀ now ∈ call.time?, last ≤ now) :
    (call.perform s).2 = .ok (call.expect ttl maxEntries retained).2 ∧
      Refines ttl maxEntries (call.time?.getD last) (call.expect ttl maxEntries retained).1
        (call.perform s).1 := by
  cases call with
  | contains key now =>
    obtain ⟨hanswer, hnext⟩ := h.contains key now
    refine ⟨?_, hnext.later (hle now rfl)⟩
    have hvalue := congrArg Prod.fst hanswer
    have hcount := congrArg Prod.snd hanswer
    rw [ExpiringSetCall.perform, ExpiringSetCall.expect]
    dsimp only
    rw [hvalue, hcount]
  | accept key now =>
    obtain ⟨hanswer, hnext⟩ := h.accept hmax (hle now rfl) key
    refine ⟨?_, hnext⟩
    rw [ExpiringSetCall.perform, ExpiringSetCall.expect]
    dsimp only
    rw [hanswer]
    rfl
  | discardAll =>
    obtain ⟨hanswer, hnext⟩ := h.discardAll
    refine ⟨?_, hnext⟩
    rw [ExpiringSetCall.perform, ExpiringSetCall.expect]
    dsimp only
    rw [hanswer]

/-- Calls in the order of their times, on both sides. -/
theorem performAll (hmax : 1 ≤ maxEntries) (calls : List (ExpiringSetCall κ)) :
    ∀ {last : ℚ} {retained : List (Acceptance κ)} {s : BoundedExpiringSet κ},
      Refines ttl maxEntries last retained s →
      (calls.filterMap ExpiringSetCall.time?).Pairwise (fun t u => t ≤ u) →
      (∀ now ∈ calls.filterMap ExpiringSetCall.time?, last ≤ now) →
      (ExpiringSetCall.performAll s calls).2 =
          (ExpiringSetCall.expectAll ttl maxEntries retained calls).2.map Except.ok ∧
        ∃ last', (∀ now, (∀ t ∈ calls.filterMap ExpiringSetCall.time?, t ≤ now) → last ≤ now →
            last' ≤ now) ∧
          Refines ttl maxEntries last' (ExpiringSetCall.expectAll ttl maxEntries retained calls).1
            (ExpiringSetCall.performAll s calls).1 := by
  induction calls with
  | nil =>
    intro last retained s h _ _
    exact ⟨rfl, last, fun now _ hle => hle, h⟩
  | cons call calls ih =>
    intro last retained s h hclock hle
    have hsplit : (call :: calls).filterMap ExpiringSetCall.time? =
        call.time?.toList ++ calls.filterMap ExpiringSetCall.time? := by
      cases htime : call.time? with
      | none => rw [List.filterMap_cons_none htime]; rfl
      | some t => rw [List.filterMap_cons_some htime]; rfl
    rw [hsplit] at hclock hle ⊢
    obtain ⟨-, hrest, hfirst⟩ := List.pairwise_append.mp hclock
    obtain ⟨hanswer, hnext⟩ := h.perform hmax call (fun now hnow =>
      hle now (List.mem_append_left _ (Option.mem_toList.mpr hnow)))
    have hlater : ∀ now ∈ calls.filterMap ExpiringSetCall.time?, call.time?.getD last ≤ now := by
      intro now hnow
      cases htime : call.time? with
      | none => exact hle now (List.mem_append_right _ hnow)
      | some t => exact hfirst t (by simp [htime]) now hnow
    obtain ⟨hanswers, last', hlast', hrefines⟩ := ih hnext hrest hlater
    refine ⟨?_, last', ?_, hrefines⟩
    · simp only [ExpiringSetCall.performAll, ExpiringSetCall.expectAll, hanswer, hanswers, List.map_cons]
    · intro now hall hnow
      apply hlast' now (fun t ht => hall t (List.mem_append_right _ ht))
      cases htime : call.time? with
      | none => exact hnow
      | some t => exact hall t (by simp [htime])

end Refines

/-- On calls in the order of their times a set answers like the list of retained acceptances, with
the same counts, and never raises; it holds exactly these acceptances and does not outgrow its
bound. The next `accept` succeeds exactly when no retained acceptance of the key is unexpired, it
evicts exactly when the key is new and the set is full, and a refusal renews nothing. -/
theorem expiring_set_refines (ttl : ℚ) {maxEntries : Nat} (hmax : 1 ≤ maxEntries)
    (calls : List (ExpiringSetCall κ))
    (hclock : (calls.filterMap ExpiringSetCall.time?).Pairwise (fun t u => t ≤ u)) :
    let actual := ExpiringSetCall.performAll (init ttl maxEntries : BoundedExpiringSet κ) calls
    let expected := ExpiringSetCall.expectAll ttl maxEntries [] calls
    actual.2 = expected.2.map Except.ok ∧
      actual.1.expiries = expected.1.map (fun a => (a.key, a.time + ttl)) ∧
      actual.1.size ≤ maxEntries ∧
      ∀ key now, (∀ t ∈ calls.filterMap ExpiringSetCall.time?, t ≤ now) →
        ∃ admission, (actual.1.accept key now).2 = .ok admission ∧
          (admission.accepted = true ↔ ∀ a ∈ expected.1, a.key = key → ¬now < a.time + ttl) ∧
          admission.expired = Acceptance.expiredCount ttl now expected.1 ∧
          admission.capacityEvicted = (if admission.accepted = true ∧
            (Acceptance.unexpired ttl now expected.1).length = maxEntries then 1 else 0) ∧
          (admission.accepted = false → (actual.1.accept key now).1.expiries =
            actual.1.expiries.filter (fun e => decide (now < e.2))) := by
  intro actual expected
  have hstart : ∀ now ∈ calls.filterMap ExpiringSetCall.time?,
      ∀ first, (calls.filterMap ExpiringSetCall.time?).head? = some first → first ≤ now := by
    intro now hnow first hfirst
    cases htimes : calls.filterMap ExpiringSetCall.time? with
    | nil =>
      rw [htimes] at hnow
      cases hnow
    | cons t times =>
      rw [htimes] at hclock hnow hfirst
      obtain rfl := Option.some.inj hfirst
      rcases List.mem_cons.mp hnow with rfl | hnow
      · exact le_rfl
      · exact (List.pairwise_cons.mp hclock).1 now hnow
  -- a run starts at its first time, or at any time when it has none
  have hrun : ∀ start, ∃ last', (∀ now, (∀ t ∈ calls.filterMap ExpiringSetCall.time?, t ≤ now) →
      start ≤ now → last' ≤ now) ∧ actual.2 = expected.2.map Except.ok ∧
      Refines ttl maxEntries last' expected.1 actual.1 := by
    intro start
    cases hhead : (calls.filterMap ExpiringSetCall.time?).head? with
    | none =>
      have hnone : calls.filterMap ExpiringSetCall.time? = [] := List.head?_eq_none_iff.mp hhead
      obtain ⟨hanswers, last', hlast, hrefines⟩ := Refines.performAll hmax calls
        (Refines.init ttl maxEntries start) hclock (by simp [hnone])
      exact ⟨last', hlast, hanswers, hrefines⟩
    | some first =>
      obtain ⟨hanswers, last', hlast, hrefines⟩ := Refines.performAll hmax calls
        (Refines.init ttl maxEntries first) hclock (fun now hnow => hstart now hnow first hhead)
      refine ⟨last', fun now hall _ => hlast now hall ?_, hanswers, hrefines⟩
      exact hall first (List.mem_of_head? hhead)
  obtain ⟨_, -, hanswers, hrefines⟩ := hrun 0
  refine ⟨hanswers, hrefines.expiries_eq, ?_, ?_⟩
  · rw [hrefines.size_eq]
    exact hrefines.fits
  · intro key now hall
    obtain ⟨last', hlast, -, h⟩ := hrun now
    obtain ⟨hanswer, hnext⟩ := h.accept hmax (hlast now hall le_rfl) key
    have hfits := (@Acceptance.unexpired_sublist _ ttl now expected.1).length_le.trans h.fits
    have hfound : (Acceptance.unexpired ttl now expected.1).any (fun a => a.key = key) = true ↔
        ¬∀ a ∈ expected.1, a.key = key → ¬now < a.time + ttl := by
      simp only [Acceptance.unexpired, List.any_eq_true, List.mem_filter, decide_eq_true_eq]
      push Not
      constructor
      · rintro ⟨a, ⟨ha, hlive⟩, hkey⟩
        exact ⟨a, ha, hkey, hlive⟩
      · rintro ⟨a, ha, hkey, hlive⟩
        exact ⟨a, ⟨ha, hlive⟩, hkey⟩
    refine ⟨_, hanswer, ?_, ?_, ?_, ?_⟩
    · rw [← not_iff_not, ← hfound]
      unfold Acceptance.accept
      dsimp only
      split
      · next hany => simp [hany]
      · next hany => split <;> simp [hany]
    · unfold Acceptance.accept
      dsimp only
      split
      · rfl
      · split <;> rfl
    · unfold Acceptance.accept
      dsimp only
      split
      · simp
      · split
        · next hroom => simp [hroom.ne]
        · next hroom =>
          have hfull : (Acceptance.unexpired ttl now expected.1).length = maxEntries := by omega
          simp [hfull]
    · intro hrefused
      have hleft : (Acceptance.accept ttl maxEntries expected.1 key now).1 =
          Acceptance.unexpired ttl now expected.1 := by
        unfold Acceptance.accept at hrefused ⊢
        dsimp only at hrefused ⊢
        split
        · rfl
        · next hany =>
          rw [if_neg hany] at hrefused
          split at hrefused <;> cases hrefused
      rw [hnext.expiries_eq, h.expiries_eq, hleft, Acceptance.unexpired, List.filter_map]
      rfl

/-- A duplicate, an eviction and an expiry in a set of two keys. -/
def fullSetCalls : List (ExpiringSetCall Nat) :=
  [.accept 7 0, .accept 8 1, .accept 7 2, .accept 9 3, .accept 7 4, .contains 8 40, .discardAll]

theorem expiring_set_refines_full :
    (ExpiringSetCall.performAll (init 30 2) fullSetCalls).2 =
      (ExpiringSetCall.expectAll 30 2 [] fullSetCalls).2.map Except.ok :=
  (expiring_set_refines 30 (by decide) fullSetCalls (by decide +kernel)).1

end BoundedExpiringSet

end AisMixer

import AisMixer.Library.Dict
import AisMixer.Library.Text

/-!
# The bounded expiring set

`BoundedExpiringSet` remembers keys for `ttl` seconds and at most `maxEntries` of them. The
dictionary of live keys and the expiry queue share their records by identity, which a record
number stands for. `Consistent` is the representation invariant: the dictionary lists exactly
the records of the queue, in the order of the queue.
-/

namespace AisMixer
open Library

/-- One record; `number` is its identity. -/
structure ExpiringRecord (κ : Type) where
  number : Nat
  key : κ
  expiresAt : ℚ
  deriving DecidableEq

structure ExpiringSetAdmission where
  accepted : Bool
  expired : Nat
  capacityEvicted : Nat
  deriving DecidableEq

structure BoundedExpiringSet (κ : Type) where
  ttl : ℚ
  maxEntries : Nat
  liveByKey : Dict κ (ExpiringRecord κ)
  expiryOrder : List (ExpiringRecord κ)
  nextNumber : Nat

namespace BoundedExpiringSet

variable {κ : Type} [DecidableEq κ]

def init (ttl : ℚ) (maxEntries : Nat) : BoundedExpiringSet κ := ⟨ttl, maxEntries, .empty, [], 0⟩

def size (s : BoundedExpiringSet κ) : Nat := s.liveByKey.size

/-- `live.get(record.key) is record`. -/
def isCurrent (live : Dict κ (ExpiringRecord κ)) (record : ExpiringRecord κ) : Bool :=
  (live.get? record.key).any (fun current => current.number == record.number)

/-- The loop of `_cleanup_expired`: stale records go, then the expired front prefix. -/
def cleanupLoop (now : ℚ) : List (ExpiringRecord κ) → Dict κ (ExpiringRecord κ) → Nat →
    List (ExpiringRecord κ) × Dict κ (ExpiringRecord κ) × Nat
  | [], live, expired => ([], live, expired)
  | record :: rest, live, expired =>
    if !isCurrent live record then cleanupLoop now rest live expired
    else if now < record.expiresAt then (record :: rest, live, expired)
    else cleanupLoop now rest (live.erase record.key) (expired + 1)

def cleanupExpired (s : BoundedExpiringSet κ) (now : ℚ) : BoundedExpiringSet κ × Nat :=
  let (order, live, expired) := cleanupLoop now s.expiryOrder s.liveByKey 0
  ({ s with liveByKey := live, expiryOrder := order }, expired)

/-- The loop of `_evict_oldest_live`; `none` in the last place is the `RuntimeError`. -/
def evictLoop : List (ExpiringRecord κ) → Dict κ (ExpiringRecord κ) →
    List (ExpiringRecord κ) × Dict κ (ExpiringRecord κ) × Option Nat
  | [], live => ([], live, none)
  | record :: rest, live =>
    if !isCurrent live record then evictLoop rest live
    else (rest, live.erase record.key, some 1)

def contains (s : BoundedExpiringSet κ) (key : κ) (now : ℚ) : BoundedExpiringSet κ × Bool × Nat :=
  let (s, expired) := s.cleanupExpired now
  (s, s.liveByKey.contains key, expired)

/-- Adds a record without looking at the capacity. -/
def addRecord (s : BoundedExpiringSet κ) (key : κ) (now : ℚ) : BoundedExpiringSet κ :=
  let record : ExpiringRecord κ := ⟨s.nextNumber, key, now + s.ttl⟩
  { s with
    liveByKey := s.liveByKey.set key record
    expiryOrder := s.expiryOrder ++ [record]
    nextNumber := s.nextNumber + 1 }

def accept (s : BoundedExpiringSet κ) (key : κ) (now : ℚ) :
    BoundedExpiringSet κ × Except PyException ExpiringSetAdmission :=
  let (s, expired) := s.cleanupExpired now
  if s.liveByKey.contains key then (s, .ok ⟨false, expired, 0⟩)
  else if s.maxEntries ≤ s.size then
    let (order, live, evicted) := evictLoop s.expiryOrder s.liveByKey
    let s := { s with liveByKey := live, expiryOrder := order }
    match evicted with
    | none => (s, .error (.runtimeError (str "expiring-set ordering is inconsistent")))
    | some evicted => (s.addRecord key now, .ok ⟨true, expired, evicted⟩)
  else (s.addRecord key now, .ok ⟨true, expired, 0⟩)

def discardAll (s : BoundedExpiringSet κ) : BoundedExpiringSet κ × Nat :=
  ({ s with liveByKey := .empty, expiryOrder := [] }, s.size)

/-! ### The representation invariant -/

/-- The dictionary and the queue list the same records in the same order. -/
def Consistent (s : BoundedExpiringSet κ) : Prop :=
  s.liveByKey.entries = s.expiryOrder.map (fun r => (r.key, r))

/-- The part of the queue that is live at `now`. -/
def liveAt (now : ℚ) (order : List (ExpiringRecord κ)) : List (ExpiringRecord κ) :=
  order.dropWhile (fun r => decide (r.expiresAt ≤ now))

omit [DecidableEq κ] in
lemma init_consistent (ttl : ℚ) (maxEntries : Nat) :
    (init ttl maxEntries : BoundedExpiringSet κ).Consistent := rfl

lemma head_isCurrent {live : Dict κ (ExpiringRecord κ)} {r : ExpiringRecord κ}
    {rest : List (ExpiringRecord κ)} (h : live.entries = (r :: rest).map (fun r => (r.key, r))) :
    isCurrent live r = true := by
  have hr : live.get? r.key = some r := (live.get?_eq_some_iff r.key r).mpr (by rw [h]; simp)
  simp [isCurrent, hr]

lemma erase_head_entries {live : Dict κ (ExpiringRecord κ)} {r : ExpiringRecord κ}
    {rest : List (ExpiringRecord κ)} (h : live.entries = (r :: rest).map (fun r => (r.key, r))) :
    (live.erase r.key).entries = rest.map (fun r => (r.key, r)) :=
  live.entries_erase_head h

lemma cleanupLoop_spec (now : ℚ) (order : List (ExpiringRecord κ)) :
    ∀ (live : Dict κ (ExpiringRecord κ)) (expired : Nat),
      live.entries = order.map (fun r => (r.key, r)) →
      ∃ live', cleanupLoop now order live expired =
          (liveAt now order, live', expired + (order.length - (liveAt now order).length)) ∧
        live'.entries = (liveAt now order).map (fun r => (r.key, r)) := by
  induction order with
  | nil => exact fun live expired h => ⟨live, rfl, h⟩
  | cons r rest ih =>
    intro live expired h
    rw [cleanupLoop, head_isCurrent h]
    by_cases hr : now < r.expiresAt
    · have hl : liveAt now (r :: rest) = r :: rest := by simp [liveAt, not_le.mpr hr]
      refine ⟨live, ?_, by rw [hl]; exact h⟩
      simp [hr, hl]
    · obtain ⟨live', hrun, hlive⟩ := ih (live.erase r.key) (expired + 1) (erase_head_entries h)
      have hl : liveAt now (r :: rest) = liveAt now rest := by simp [liveAt, not_lt.mp hr]
      have hlen : (liveAt now rest).length ≤ rest.length := (List.dropWhile_sublist _).length_le
      refine ⟨live', ?_, by rw [hl]; exact hlive⟩
      simp only [Bool.not_true, Bool.false_eq_true, if_false, hr, hrun, hl, List.length_cons,
        Prod.mk.injEq, true_and]
      omega

/-- Cleanup drops the expired front prefix and nothing else. -/
theorem cleanupExpired_spec {s : BoundedExpiringSet κ} (hs : s.Consistent) (now : ℚ) :
    (s.cleanupExpired now).1.Consistent ∧
      (s.cleanupExpired now).1.expiryOrder = liveAt now s.expiryOrder ∧
      (s.cleanupExpired now).1.ttl = s.ttl ∧ (s.cleanupExpired now).1.maxEntries = s.maxEntries ∧
      (s.cleanupExpired now).2 + (liveAt now s.expiryOrder).length = s.expiryOrder.length := by
  obtain ⟨live', hrun, hlive⟩ := cleanupLoop_spec now s.expiryOrder s.liveByKey 0 hs
  have hlen : (liveAt now s.expiryOrder).length ≤ s.expiryOrder.length :=
    (List.dropWhile_sublist _).length_le
  simp only [cleanupExpired, hrun, Consistent, true_and]
  exact ⟨hlive, by omega⟩

omit [DecidableEq κ] in
lemma size_eq_length {s : BoundedExpiringSet κ} (hs : s.Consistent) :
    s.size = s.expiryOrder.length := by
  simp [size, Dict.size, show s.liveByKey.entries = _ from hs]

lemma contains_iff_mem {s : BoundedExpiringSet κ} (hs : s.Consistent) (key : κ) :
    s.liveByKey.contains key = true ↔ ∃ r ∈ s.expiryOrder, r.key = key := by
  simp [Dict.contains_iff, Dict.keys, show s.liveByKey.entries = _ from hs]

lemma addRecord_consistent {s : BoundedExpiringSet κ} (hs : s.Consistent) {key : κ} (now : ℚ)
    (hkey : s.liveByKey.contains key = false) : (s.addRecord key now).Consistent := by
  have hmem : key ∉ s.liveByKey.keys := by
    rw [← Dict.contains_iff, hkey]
    exact Bool.false_ne_true
  simp only [Consistent, addRecord, Dict.entries_set_of_not_mem _ _ hmem, List.map_append,
    show s.liveByKey.entries = _ from hs]
  rfl

/-- What `contains` does: it drops the expired prefix and looks the key up in the rest. -/
theorem contains_spec {s : BoundedExpiringSet κ} (hs : s.Consistent) (key : κ) (now : ℚ) :
    (s.contains key now).1.Consistent ∧
      (s.contains key now).1.expiryOrder = liveAt now s.expiryOrder ∧
      (s.contains key now).1.ttl = s.ttl ∧ (s.contains key now).1.maxEntries = s.maxEntries ∧
      ((s.contains key now).2.1 = true ↔ ∃ r ∈ liveAt now s.expiryOrder, r.key = key) := by
  obtain ⟨hc, ho, ht, hm, -⟩ := cleanupExpired_spec hs now
  refine ⟨hc, ho, ht, hm, ?_⟩
  rw [← ho]
  exact contains_iff_mem hc key

/-- What `accept` does: a live key is refused and changes nothing but the expired prefix; a
new key goes to the end, after the oldest live record when the set is full. -/
theorem accept_spec {s : BoundedExpiringSet κ} (hs : s.Consistent) (hmax : 0 < s.maxEntries)
    (key : κ) (now : ℚ) :
    (s.accept key now).1.Consistent ∧ (s.accept key now).1.ttl = s.ttl ∧
      (s.accept key now).1.maxEntries = s.maxEntries ∧
      ∃ adm, (s.accept key now).2 = .ok adm ∧
        adm.expired + (liveAt now s.expiryOrder).length = s.expiryOrder.length ∧
        ((adm.accepted = false ∧ adm.capacityEvicted = 0 ∧
            (∃ r ∈ liveAt now s.expiryOrder, r.key = key) ∧
            (s.accept key now).1.expiryOrder = liveAt now s.expiryOrder) ∨
          (adm.accepted = true ∧ (∀ r ∈ liveAt now s.expiryOrder, r.key ≠ key) ∧
            ∃ number dropped, adm.capacityEvicted = dropped ∧
              (s.accept key now).1.expiryOrder =
                (liveAt now s.expiryOrder).drop dropped ++ [⟨number, key, now + s.ttl⟩] ∧
              (dropped = 0 ∧ (liveAt now s.expiryOrder).length < s.maxEntries ∨
                dropped = 1 ∧ s.maxEntries ≤ (liveAt now s.expiryOrder).length))) := by
  obtain ⟨hc, ho, ht, hm, he⟩ := cleanupExpired_spec hs now
  obtain ⟨c, expired, hceq⟩ : ∃ c expired, s.cleanupExpired now = (c, expired) := ⟨_, _, rfl⟩
  rw [hceq] at hc ho ht hm he
  simp only at hc ho ht hm he
  by_cases hkey : c.liveByKey.contains key = true
  · simp only [accept, hceq, hkey, if_true]
    refine ⟨hc, ht, hm, _, rfl, he, .inl ⟨rfl, rfl, ?_, ho⟩⟩
    rw [← ho]
    exact (contains_iff_mem hc key).mp hkey
  · have hnew : ∀ r ∈ liveAt now s.expiryOrder, r.key ≠ key := by
      rw [← ho]
      exact fun r hr hrk => hkey ((contains_iff_mem hc key).mpr ⟨r, hr, hrk⟩)
    have hsize : c.size = (liveAt now s.expiryOrder).length := by rw [size_eq_length hc, ho]
    by_cases hfull : c.maxEntries ≤ c.size
    · obtain ⟨r, rest, horder⟩ : ∃ r rest, c.expiryOrder = r :: rest := by
        cases h : c.expiryOrder with
        | nil => rw [size_eq_length hc, h] at hfull; simp at hfull; omega
        | cons r rest => exact ⟨r, rest, rfl⟩
      have hent : c.liveByKey.entries = (r :: rest).map (fun r => (r.key, r)) := by
        rw [← horder]
        exact hc
      simp only [accept, hceq, hkey, Bool.false_eq_true, if_false, hfull, if_true, horder, evictLoop,
        head_isCurrent hent, Bool.not_true]
      have hce : (⟨c.ttl, c.maxEntries, c.liveByKey.erase r.key, rest, c.nextNumber⟩ :
          BoundedExpiringSet κ).Consistent := erase_head_entries hent
      refine ⟨addRecord_consistent hce now ?_, ht, hm, _, rfl, he, .inr ⟨rfl, hnew, c.nextNumber, 1, rfl,
        ?_, ?_⟩⟩
      · rw [Bool.eq_false_iff]
        intro h
        obtain ⟨q, hq, hqk⟩ := (contains_iff_mem hce key).mp h
        exact hnew q (by rw [← ho, horder]; exact List.mem_cons_of_mem _ hq) hqk
      · simp only [addRecord, ← ho, horder, List.drop_succ_cons, List.drop_zero, ht]
      · exact .inr ⟨rfl, by rw [← hsize, ← hm]; exact hfull⟩
    · simp only [accept, hceq, hkey, Bool.false_eq_true, if_false, hfull]
      refine ⟨addRecord_consistent hc now (by simpa using hkey), ht, hm, _, rfl, he,
        .inr ⟨rfl, hnew, c.nextNumber, 0, rfl, ?_, .inl ⟨rfl, by rw [← hsize, ← hm]; omega⟩⟩⟩
      simp only [addRecord, ← ho, List.drop_zero, ht]

end BoundedExpiringSet

end AisMixer

import Mathlib

/-!
# Insertion-ordered dictionaries

`Dict κ υ` is a finite map that remembers the order in which its keys were first
inserted: assignment to a live key keeps the key's place, a new key goes to the end.
Uniqueness of the keys is a field, so every operation carries its own proof.
-/

namespace AisMixer.Library

/-- A finite map with unique keys in insertion order. -/
structure Dict (κ υ : Type) where
  entries : List (κ × υ)
  nodupKeys : (entries.map Prod.fst).Nodup

namespace Dict

variable {κ υ : Type} [DecidableEq κ]

instance [DecidableEq υ] : DecidableEq (Dict κ υ) := fun d e =>
  decidable_of_iff (d.entries = e.entries) (by cases d; cases e; simp)

omit [DecidableEq κ] in
@[ext] theorem ext {d e : Dict κ υ} (h : d.entries = e.entries) : d = e := by
  cases d
  cases e
  simpa using h

/-- The dictionary without keys. -/
def empty : Dict κ υ := ⟨[], List.nodup_nil⟩

def keys (d : Dict κ υ) : List κ := d.entries.map Prod.fst

def values (d : Dict κ υ) : List υ := d.entries.map Prod.snd

def size (d : Dict κ υ) : Nat := d.entries.length

/-- The first match of a key in an association list. -/
def lookupEntries (key : κ) : List (κ × υ) → Option υ
  | [] => none
  | (other, value) :: rest => if other = key then some value else lookupEntries key rest

def get? (d : Dict κ υ) (key : κ) : Option υ := lookupEntries key d.entries

def contains (d : Dict κ υ) (key : κ) : Bool := (d.get? key).isSome

/-- Assignment keeps the place of a live key and appends a new one. -/
def setEntries (key : κ) (value : υ) : List (κ × υ) → List (κ × υ)
  | [] => [(key, value)]
  | (other, old) :: rest =>
    if other = key then (key, value) :: rest else (other, old) :: setEntries key value rest

lemma setEntries_keys (key : κ) (value : υ) (es : List (κ × υ)) :
    (setEntries key value es).map Prod.fst =
      if key ∈ es.map Prod.fst then es.map Prod.fst else es.map Prod.fst ++ [key] := by
  induction es with
  | nil => simp [setEntries]
  | cons e es ih =>
    obtain ⟨other, old⟩ := e
    by_cases h : other = key
    · simp [setEntries, h]
    · simp only [setEntries, h, if_false, List.map_cons, ih, List.mem_cons, Ne.symm h, false_or]
      split <;> simp

def set (d : Dict κ υ) (key : κ) (value : υ) : Dict κ υ where
  entries := setEntries key value d.entries
  nodupKeys := by
    rw [setEntries_keys]
    split
    · exact d.nodupKeys
    · next h =>
      refine List.nodup_append.mpr ⟨d.nodupKeys, List.nodup_singleton key, ?_⟩
      rintro a ha b hb rfl
      exact h (List.mem_singleton.mp hb ▸ ha)

/-- Deletion of a key; deleting an absent key changes nothing. -/
def erase (d : Dict κ υ) (key : κ) : Dict κ υ where
  entries := d.entries.filter (fun e => e.1 ≠ key)
  nodupKeys := d.nodupKeys.sublist (List.Sublist.map _ List.filter_sublist)

/-- Deletion of a list of keys, one after another. -/
def eraseAll (d : Dict κ υ) (ks : List κ) : Dict κ υ := ks.foldl erase d

/-- `dict(pairs)`. -/
def ofEntries (es : List (κ × υ)) : Dict κ υ := es.foldl (fun d e => d.set e.1 e.2) empty

omit [DecidableEq κ] in
/-- The same keys with their values changed. -/
def mapValues {ω : Type} (f : υ → ω) (d : Dict κ υ) : Dict κ ω where
  entries := d.entries.map (fun e => (e.1, f e.2))
  nodupKeys := by simpa [Function.comp_def] using d.nodupKeys

/-- Reassignment that also moves the key to the end. -/
def setAtEnd (d : Dict κ υ) (key : κ) (value : υ) : Dict κ υ := (d.erase key).set key value

/-! ### Lookups after an update -/

lemma lookupEntries_eq_some_of_mem {key : κ} {value : υ} {es : List (κ × υ)}
    (hn : (es.map Prod.fst).Nodup) (h : (key, value) ∈ es) : lookupEntries key es = some value := by
  induction es with
  | nil => simp at h
  | cons e es ih =>
    obtain ⟨other, old⟩ := e
    simp only [List.map_cons, List.nodup_cons] at hn
    rcases List.mem_cons.mp h with h | h
    · obtain ⟨rfl, rfl⟩ := Prod.mk.inj h
      simp [lookupEntries]
    · have hne : other ≠ key := by
        rintro rfl
        exact hn.1 (List.mem_map.mpr ⟨_, h, rfl⟩)
      simp [lookupEntries, hne, ih hn.2 h]

lemma mem_of_lookupEntries {key : κ} {value : υ} {es : List (κ × υ)}
    (h : lookupEntries key es = some value) : (key, value) ∈ es := by
  induction es with
  | nil => simp [lookupEntries] at h
  | cons e es ih =>
    obtain ⟨other, old⟩ := e
    by_cases ho : other = key
    · simp_all [lookupEntries]
    · simp only [lookupEntries, ho, if_false] at h
      exact List.mem_cons_of_mem _ (ih h)

theorem get?_eq_some_iff (d : Dict κ υ) (key : κ) (value : υ) :
    d.get? key = some value ↔ (key, value) ∈ d.entries :=
  ⟨mem_of_lookupEntries, lookupEntries_eq_some_of_mem d.nodupKeys⟩

theorem get?_eq_none_iff (d : Dict κ υ) (key : κ) : d.get? key = none ↔ key ∉ d.keys := by
  constructor
  · intro h hk
    obtain ⟨⟨k, v⟩, hmem, rfl⟩ := List.mem_map.mp hk
    rw [(d.get?_eq_some_iff k v).mpr hmem] at h
    cases h
  · intro h
    cases hv : d.get? key with
    | none => rfl
    | some v => exact (h (List.mem_map.mpr ⟨_, (d.get?_eq_some_iff key v).mp hv, rfl⟩)).elim

theorem mem_keys_iff (d : Dict κ υ) (key : κ) : key ∈ d.keys ↔ ∃ v, d.get? key = some v := by
  rw [← not_iff_not, ← get?_eq_none_iff, Option.eq_none_iff_forall_ne_some]
  simp

theorem contains_iff (d : Dict κ υ) (key : κ) : d.contains key = true ↔ key ∈ d.keys := by
  rw [contains, Option.isSome_iff_exists, mem_keys_iff]

omit [DecidableEq κ] in
lemma length_keys (d : Dict κ υ) : d.keys.length = d.size := by simp [keys, size]

omit [DecidableEq κ] in
lemma keys_nodup (d : Dict κ υ) : d.keys.Nodup := d.nodupKeys

@[simp] theorem get?_empty (key : κ) : (empty : Dict κ υ).get? key = none := rfl

omit [DecidableEq κ] in
@[simp] theorem size_empty : (empty : Dict κ υ).size = 0 := rfl

omit [DecidableEq κ] in
@[simp] theorem keys_empty : (empty : Dict κ υ).keys = [] := rfl

@[simp] theorem get?_set (d : Dict κ υ) (key other : κ) (value : υ) :
    (d.set key value).get? other = if key = other then some value else d.get? other := by
  simp only [get?, set]
  induction d.entries with
  | nil => simp [setEntries, lookupEntries]
  | cons e es ih =>
    obtain ⟨k, v⟩ := e
    by_cases hk : k = key
    · subst hk
      by_cases ho : k = other <;> simp [setEntries, lookupEntries, ho]
    · simp only [setEntries, hk, if_false, lookupEntries, ih]
      by_cases ho : k = other
      · have : key ≠ other := by rintro rfl; exact hk ho
        simp [ho, this]
      · simp [ho]

@[simp] theorem get?_erase (d : Dict κ υ) (key other : κ) :
    (d.erase key).get? other = if key = other then none else d.get? other := by
  simp only [get?, erase]
  induction d.entries with
  | nil => simp [lookupEntries]
  | cons e es ih =>
    obtain ⟨k, v⟩ := e
    by_cases hk : k = key
    · subst hk
      by_cases ho : k = other
      · subst ho
        simpa using ih
      · simp [ho, lookupEntries] at ih ⊢
        exact ih
    · by_cases ho : k = other
      · subst ho
        simp [hk, lookupEntries, Ne.symm hk]
      · simp [hk, ho, lookupEntries] at ih ⊢
        exact ih

theorem get?_eraseAll (d : Dict κ υ) (ks : List κ) (key : κ) :
    (d.eraseAll ks).get? key = if key ∈ ks then none else d.get? key := by
  induction ks generalizing d with
  | nil => simp [eraseAll]
  | cons k ks ih =>
    have hstep : d.eraseAll (k :: ks) = (d.erase k).eraseAll ks := rfl
    rw [hstep, ih, get?_erase]
    by_cases hk : k = key
    · simp [hk]
    · simp [hk, Ne.symm hk]

/-! ### Keys and sizes after an update -/

theorem keys_set (d : Dict κ υ) (key : κ) (value : υ) :
    (d.set key value).keys = if key ∈ d.keys then d.keys else d.keys ++ [key] :=
  setEntries_keys key value d.entries

lemma setEntries_of_not_mem {key : κ} {value : υ} {es : List (κ × υ)}
    (h : key ∉ es.map Prod.fst) : setEntries key value es = es ++ [(key, value)] := by
  induction es with
  | nil => rfl
  | cons e es ih =>
    obtain ⟨other, old⟩ := e
    simp only [List.map_cons, List.mem_cons, not_or] at h
    simp [setEntries, Ne.symm h.1, ih h.2]

theorem entries_set_of_not_mem (d : Dict κ υ) {key : κ} (value : υ) (h : key ∉ d.keys) :
    (d.set key value).entries = d.entries ++ [(key, value)] :=
  setEntries_of_not_mem h

theorem size_set_of_not_mem (d : Dict κ υ) {key : κ} (value : υ) (h : key ∉ d.keys) :
    (d.set key value).size = d.size + 1 := by
  simp [size, entries_set_of_not_mem d value h]

theorem size_set_of_mem (d : Dict κ υ) {key : κ} (value : υ) (h : key ∈ d.keys) :
    (d.set key value).size = d.size := by
  rw [← length_keys, keys_set, if_pos h, length_keys]

theorem keys_erase (d : Dict κ υ) (key : κ) :
    (d.erase key).keys = d.keys.filter (fun k => k ≠ key) := by
  simp only [keys, erase, List.filter_map]
  rfl

theorem erase_of_not_mem (d : Dict κ υ) {key : κ} (h : key ∉ d.keys) : d.erase key = d := by
  apply Dict.ext
  simp only [erase, List.filter_eq_self]
  intro e he
  have hne : e.1 ≠ key := fun heq => h (List.mem_map.mpr ⟨e, he, heq⟩)
  simpa using hne

/-- Deleting the oldest key leaves the other entries as they stand. -/
theorem entries_erase_head (d : Dict κ υ) {key : κ} {value : υ} {es : List (κ × υ)}
    (h : d.entries = (key, value) :: es) : (d.erase key).entries = es := by
  have hn := d.nodupKeys
  rw [h, List.map_cons, List.nodup_cons] at hn
  simp only [erase, h, ne_eq, not_true_eq_false, decide_false, Bool.false_eq_true,
    not_false_eq_true, List.filter_cons_of_neg, List.filter_eq_self]
  intro e he
  have hne : e.1 ≠ key := fun heq => hn.1 (List.mem_map.mpr ⟨e, he, heq⟩)
  simpa using hne

theorem size_erase_of_mem (d : Dict κ υ) {key : κ} (h : key ∈ d.keys) :
    (d.erase key).size + 1 = d.size := by
  have hk : d.keys.filter (fun k => k ≠ key) = d.keys.erase key := by
    rw [d.keys_nodup.erase_eq_filter]
    exact List.filter_congr (fun k _ => by by_cases h : k = key <;> simp [h])
  rw [← length_keys, keys_erase, hk, List.length_erase_of_mem h, length_keys]
  have hpos := List.length_pos_of_mem h
  rw [length_keys] at hpos
  omega

lemma eraseAll_cons (d : Dict κ υ) (key : κ) (ks : List κ) :
    d.eraseAll (key :: ks) = (d.erase key).eraseAll ks := rfl

lemma eraseAll_append (d : Dict κ υ) (ks more : List κ) :
    d.eraseAll (ks ++ more) = (d.eraseAll ks).eraseAll more :=
  List.foldl_append

theorem keys_eraseAll (d : Dict κ υ) (ks : List κ) :
    (d.eraseAll ks).keys = d.keys.filter (fun k => k ∉ ks) := by
  induction ks generalizing d with
  | nil => simp [eraseAll]
  | cons key ks ih =>
    rw [eraseAll_cons, ih, keys_erase, List.filter_filter]
    refine List.filter_congr (fun k _ => ?_)
    by_cases hk : k = key
    · simp [hk]
    · simp [hk]

theorem size_eraseAll (d : Dict κ υ) {ks : List κ} (hnodup : ks.Nodup)
    (hsubset : ∀ key ∈ ks, key ∈ d.keys) : (d.eraseAll ks).size + ks.length = d.size := by
  induction ks generalizing d with
  | nil => rfl
  | cons key ks ih =>
    obtain ⟨hkey, hnodup⟩ := List.nodup_cons.mp hnodup
    have hrest : ∀ k ∈ ks, k ∈ (d.erase key).keys := by
      intro k hk
      rw [keys_erase, List.mem_filter]
      refine ⟨hsubset k (List.mem_cons_of_mem key hk), decide_eq_true ?_⟩
      rintro rfl
      exact hkey hk
    have hstep := ih (d.erase key) hnodup hrest
    have hsize := d.size_erase_of_mem (hsubset key (List.mem_cons_self ..))
    rw [eraseAll_cons, List.length_cons]
    omega

theorem entries_erase_sublist (d : Dict κ υ) (key : κ) : (d.erase key).entries.Sublist d.entries :=
  List.filter_sublist

theorem entries_eraseAll_sublist (d : Dict κ υ) (ks : List κ) :
    (d.eraseAll ks).entries.Sublist d.entries := by
  induction ks generalizing d with
  | nil => exact List.Sublist.refl _
  | cons key ks ih => exact (ih (d.erase key)).trans (d.entries_erase_sublist key)

/-- An entry that goes does not matter. -/
theorem erase_set_self (d : Dict κ υ) (key : κ) (value : υ) :
    (d.set key value).erase key = d.erase key := by
  apply Dict.ext
  change (setEntries key value d.entries).filter (fun e => e.1 ≠ key) =
    d.entries.filter (fun e => e.1 ≠ key)
  induction d.entries with
  | nil => simp [setEntries]
  | cons e es ih =>
    by_cases hk : e.1 = key
    · simp [setEntries, hk]
    · rw [setEntries, if_neg hk, List.filter_cons, List.filter_cons, ih]

/-- A value that is replaced does not matter. -/
theorem set_set_self (d : Dict κ υ) (key : κ) (value new : υ) :
    (d.set key value).set key new = d.set key new := by
  apply Dict.ext
  change setEntries key new (setEntries key value d.entries) = setEntries key new d.entries
  induction d.entries with
  | nil => simp [setEntries]
  | cons e es ih =>
    by_cases hk : e.1 = key
    · simp [setEntries, hk]
    · rw [setEntries, if_neg hk, setEntries, if_neg hk, ih, setEntries, if_neg hk]

/-! ### Keys after an update -/

lemma mem_keys_eraseAll (d : Dict κ υ) (ks : List κ) (key : κ) :
    key ∈ (d.eraseAll ks).keys ↔ key ∈ d.keys ∧ key ∉ ks := by
  rw [keys_eraseAll, List.mem_filter, decide_eq_true_iff]

lemma mem_keys_set (d : Dict κ υ) (new : κ) (value : υ) (key : κ) :
    key ∈ (d.set new value).keys ↔ key ∈ d.keys ∨ key = new := by
  rw [keys_set]
  split
  · rename_i hmem
    constructor
    · exact Or.inl
    · rintro (hkey | rfl)
      · exact hkey
      · exact hmem
  · rw [List.mem_append, List.mem_singleton]

omit [DecidableEq κ] in
/-- Dictionaries with the same keys have the same size. -/
lemma size_eq_of_keys {ω : Type} (d : Dict κ υ) (e : Dict κ ω)
    (h : ∀ key, key ∈ d.keys ↔ key ∈ e.keys) : d.size = e.size := by
  rw [← length_keys, ← length_keys]
  exact ((List.perm_ext_iff_of_nodup d.keys_nodup e.keys_nodup).mpr h).length_eq

/-! ### Dictionaries from lists of pairs -/

lemma entries_foldl_set (es : List (κ × υ)) (d : Dict κ υ)
    (h : (d.keys ++ es.map Prod.fst).Nodup) :
    (es.foldl (fun d e => d.set e.1 e.2) d).entries = d.entries ++ es := by
  induction es generalizing d with
  | nil => simp
  | cons e es ih =>
    have hkey : e.1 ∉ d.keys := fun hmem =>
      (List.nodup_append.mp h).2.2 e.1 hmem e.1 (by simp) rfl
    have hkeys : (d.set e.1 e.2).keys = d.keys ++ [e.1] := by rw [keys_set, if_neg hkey]
    rw [List.foldl_cons, ih _ (by rw [hkeys]; simpa using h), entries_set_of_not_mem d e.2 hkey]
    simp

theorem entries_ofEntries {es : List (κ × υ)} (h : (es.map Prod.fst).Nodup) :
    (ofEntries es).entries = es := by
  rw [ofEntries, entries_foldl_set es empty h]
  rfl

@[simp] theorem get?_mapValues {ω : Type} (f : υ → ω) (d : Dict κ υ) (key : κ) :
    (d.mapValues f).get? key = (d.get? key).map f := by
  simp only [get?, mapValues]
  induction d.entries with
  | nil => rfl
  | cons e es ih =>
    by_cases hk : e.1 = key
    · simp [lookupEntries, hk]
    · simp [lookupEntries, hk, ih]

/-- A dictionary with its entries in another order has the same lookups. -/
theorem get?_of_perm {d e : Dict κ υ} (h : d.entries.Perm e.entries) (key : κ) :
    d.get? key = e.get? key := by
  apply Option.ext
  intro value
  rw [get?_eq_some_iff, get?_eq_some_iff]
  exact h.mem_iff

end Dict

end AisMixer.Library

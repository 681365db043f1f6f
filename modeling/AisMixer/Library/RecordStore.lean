import AisMixer.Library.Dict

/-!
# Stores whose records have one fate each

A `RecordStore` keeps records under keys in the order of their last placement. It counts the
records that were ever added and, for each record that left, the reason. `Retains` is its
invariant: no record is lost from the accounts, the store is not over its bound, and the
records stand in the order of their time stamps.
-/

namespace AisMixer.Library

/-! ### Entries around a key -/

namespace Dict

variable {κ υ : Type} [DecidableEq κ]

/-- A present key splits the entries. -/
lemma exists_split {d : Dict κ υ} {key : κ} {value : υ} (h : d.get? key = some value) :
    ∃ before after, d.entries = before ++ (key, value) :: after ∧
      (∀ v, (d.set key v).entries = before ++ (key, v) :: after) ∧
      (d.erase key).entries = before ++ after := by
  obtain ⟨before, after, hsplit⟩ := List.append_of_mem ((get?_eq_some_iff d key value).mp h)
  have hnodup := d.nodupKeys
  rw [hsplit, List.map_append, List.map_cons, List.nodup_append] at hnodup
  obtain ⟨-, hafter, hdisjoint⟩ := hnodup
  have hbefore : ∀ e ∈ before, e.1 ≠ key := by
    intro e he heq
    exact hdisjoint e.1 (List.mem_map_of_mem he) key (by simp) heq
  have hrest : ∀ e ∈ after, e.1 ≠ key := by
    intro e he heq
    have hmem : e.1 ∈ after.map Prod.fst := List.mem_map_of_mem he
    rw [heq] at hmem
    exact (List.nodup_cons.mp hafter).1 hmem
  refine ⟨before, after, hsplit, ?_, ?_⟩
  · intro v
    change setEntries key v d.entries = _
    rw [hsplit]
    clear hsplit hdisjoint
    induction before with
    | nil => simp [setEntries]
    | cons e before ih =>
      have hne := hbefore e (by simp)
      have htail := ih (fun e' he' => hbefore e' (List.mem_cons_of_mem _ he'))
      simp only [List.cons_append, setEntries, if_neg hne]
      exact congrArg _ htail
  · have hb : before.filter (fun e => e.1 ≠ key) = before :=
      List.filter_eq_self.mpr (fun e he => by simpa using hbefore e he)
    have ha : after.filter (fun e => e.1 ≠ key) = after :=
      List.filter_eq_self.mpr (fun e he => by simpa using hrest e he)
    change d.entries.filter (fun e => e.1 ≠ key) = _
    rw [hsplit, List.filter_append, List.filter_cons, hb, ha]
    simp

end Dict

/-- Why a record left its store. -/
inductive Fate where
  | replaced
  | promoted
  | expired
  | capacity
  deriving DecidableEq

structure RecordStore (κ ρ : Type) where
  records : Dict κ ρ
  created : Nat
  replaced : Nat
  promoted : Nat
  expired : Nat
  capacityEvicted : Nat
  peak : Nat

namespace RecordStore

variable {κ ρ : Type}

def empty : RecordStore κ ρ := ⟨.empty, 0, 0, 0, 0, 0, 0⟩

def size (store : RecordStore κ ρ) : Nat := store.records.size

/-- The sum of a weight over the records. -/
def total (weight : ρ → Nat) (store : RecordStore κ ρ) : Nat :=
  (store.records.entries.map (fun e => weight e.2)).sum

/-- One more record with a given fate. -/
def countFate (store : RecordStore κ ρ) : Fate → RecordStore κ ρ
  | .replaced => { store with replaced := store.replaced + 1 }
  | .promoted => { store with promoted := store.promoted + 1 }
  | .expired => { store with expired := store.expired + 1 }
  | .capacity => { store with capacityEvicted := store.capacityEvicted + 1 }

/-- The records that have left. -/
def departed (store : RecordStore κ ρ) : Nat :=
  store.replaced + store.promoted + store.expired + store.capacityEvicted

variable [DecidableEq κ]

def remove (store : RecordStore κ ρ) (key : κ) (fate : Fate) : RecordStore κ ρ :=
  countFate { store with records := store.records.erase key } fate

/-- A new record under a key that is free. -/
def add (store : RecordStore κ ρ) (key : κ) (record : ρ) : RecordStore κ ρ :=
  let records := store.records.set key record
  { store with records := records, created := store.created + 1, peak := max store.peak records.size }

/-- A changed record in its place. -/
def update (store : RecordStore κ ρ) (key : κ) (record : ρ) : RecordStore κ ρ :=
  { store with records := store.records.set key record }

/-- A changed record at the end. -/
def moveToEnd (store : RecordStore κ ρ) (key : κ) (record : ρ) : RecordStore κ ρ :=
  { store with records := store.records.setAtEnd key record }

/-! ### The invariant -/

omit [DecidableEq κ] in
/-- The accounts of a store with at most `bound` records, stamped in order up to `now`. -/
structure Retains (bound : Nat) (stamp : ρ → ℚ) (now : ℚ) (store : RecordStore κ ρ) : Prop where
  conserved : store.created = store.size + store.departed
  bounded : store.size ≤ bound
  peak : store.size ≤ store.peak
  sorted : store.records.entries.Pairwise (fun a b => stamp a.2 ≤ stamp b.2)
  past : ∀ e ∈ store.records.entries, stamp e.2 ≤ now

section Invariant

variable {bound : Nat} {stamp : ρ → ℚ} {weight : ρ → Nat} {now : ℚ} {store : RecordStore κ ρ}
  {key : κ} {record : ρ}

omit [DecidableEq κ] in
lemma retains_empty : Retains bound stamp now (.empty : RecordStore κ ρ) where
  conserved := rfl
  bounded := Nat.zero_le bound
  peak := Nat.zero_le 0
  sorted := List.Pairwise.nil
  past := by simp [empty, Dict.empty]

omit [DecidableEq κ] in
lemma Retains.mono (h : Retains bound stamp now store) {now' : ℚ} (hle : now ≤ now') :
    Retains bound stamp now' store where
  conserved := h.conserved
  bounded := h.bounded
  peak := h.peak
  sorted := h.sorted
  past := fun e he => le_trans (h.past e he) hle

omit [DecidableEq κ] in
@[simp] lemma countFate_records (store : RecordStore κ ρ) (fate : Fate) :
    (store.countFate fate).records = store.records := by
  cases fate <;> rfl

omit [DecidableEq κ] in
@[simp] lemma countFate_created (store : RecordStore κ ρ) (fate : Fate) :
    (store.countFate fate).created = store.created := by
  cases fate <;> rfl

omit [DecidableEq κ] in
@[simp] lemma countFate_peak (store : RecordStore κ ρ) (fate : Fate) :
    (store.countFate fate).peak = store.peak := by
  cases fate <;> rfl

omit [DecidableEq κ] in
lemma countFate_departed (store : RecordStore κ ρ) (fate : Fate) :
    (store.countFate fate).departed = store.departed + 1 := by
  cases fate <;> simp only [countFate, departed] <;> omega

@[simp] lemma remove_records (store : RecordStore κ ρ) (key : κ) (fate : Fate) :
    (store.remove key fate).records = store.records.erase key := countFate_records _ _

lemma remove_size (h : store.records.get? key = some record) (fate : Fate) :
    (store.remove key fate).size + 1 = store.size := by
  have hmem : key ∈ store.records.keys := (Dict.mem_keys_iff _ _).mpr ⟨record, h⟩
  have hsize := store.records.size_erase_of_mem hmem
  rw [size, remove_records, size]
  omega

lemma remove_total (weight : ρ → Nat) (h : store.records.get? key = some record) (fate : Fate) :
    (store.remove key fate).total weight + weight record = store.total weight := by
  obtain ⟨before, after, hentries, -, herase⟩ := Dict.exists_split h
  rw [total, total, remove_records, herase, hentries]
  simp only [List.map_append, List.map_cons, List.sum_append, List.sum_cons]
  omega

lemma Retains.remove (hstore : Retains bound stamp now store) (h : store.records.get? key = some record)
    (fate : Fate) : Retains bound stamp now (store.remove key fate) := by
  have hsize := remove_size h fate
  obtain ⟨before, after, hentries, -, herase⟩ := Dict.exists_split h
  have hsub : (store.remove key fate).records.entries.Sublist store.records.entries := by
    rw [remove_records, herase, hentries]
    exact (List.Sublist.refl before).append (List.sublist_cons_self _ after)
  refine ⟨?_, ?_, ?_, hstore.sorted.sublist hsub, fun e he => hstore.past e (hsub.subset he)⟩
  · have hconserved := hstore.conserved
    have hdeparted := countFate_departed { store with records := store.records.erase key } fate
    have hcreated := countFate_created { store with records := store.records.erase key } fate
    rw [RecordStore.remove] at hsize ⊢
    rw [hcreated, hdeparted]
    simp only [departed] at hconserved ⊢
    omega
  · have hbounded := hstore.bounded
    omega
  · have hpeak := hstore.peak
    rw [RecordStore.remove, countFate_peak]
    rw [RecordStore.remove] at hsize
    simp only
    omega

lemma Retains.add (hstore : Retains bound stamp now store) (record : ρ) (hfree : store.records.get? key = none)
    (hroom : store.size < bound) (hnow : now ≤ stamp record) :
    Retains bound stamp (stamp record) (store.add key record) := by
  have hkey : key ∉ store.records.keys := (Dict.get?_eq_none_iff _ _).mp hfree
  have hentries := store.records.entries_set_of_not_mem record hkey
  have hsize : (store.add key record).size = store.size + 1 :=
    store.records.size_set_of_not_mem record hkey
  refine ⟨?_, by omega, ?_, ?_, ?_⟩
  · have hconserved := hstore.conserved
    rw [hsize]
    simp only [RecordStore.add, departed] at hconserved ⊢
    omega
  · exact le_max_right _ _
  · simp only [RecordStore.add, hentries]
    rw [List.pairwise_append]
    refine ⟨hstore.sorted, List.pairwise_singleton _ _, ?_⟩
    intro e he e' he'
    rw [List.mem_singleton.mp he']
    exact le_trans (hstore.past e he) hnow
  · intro e he
    simp only [RecordStore.add, hentries, List.mem_append, List.mem_singleton] at he
    rcases he with he | rfl
    · exact le_trans (hstore.past e he) hnow
    · exact le_refl _

lemma add_total (weight : ρ → Nat) (record : ρ) (hfree : store.records.get? key = none) :
    (store.add key record).total weight = store.total weight + weight record := by
  have hkey : key ∉ store.records.keys := (Dict.get?_eq_none_iff _ _).mp hfree
  simp only [total, RecordStore.add, store.records.entries_set_of_not_mem record hkey, List.map_append,
    List.sum_append, List.map_cons, List.map_nil, List.sum_singleton]

lemma Retains.update (hstore : Retains bound stamp now store) {old : ρ}
    (h : store.records.get? key = some old) (hstamp : stamp record = stamp old) :
    Retains bound stamp now (store.update key record) := by
  obtain ⟨before, after, hentries, hset, -⟩ := Dict.exists_split h
  have hsize : (store.update key record).size = store.size := by
    rw [size, size, Dict.size, Dict.size, RecordStore.update, hset record, hentries]
    simp
  have hsorted := hstore.sorted
  have hpast := hstore.past
  rw [hentries, List.pairwise_append, List.pairwise_cons] at hsorted
  rw [hentries] at hpast
  refine ⟨?_, hsize.le.trans hstore.bounded, hsize.le.trans hstore.peak, ?_, ?_⟩
  · rw [hsize]
    exact hstore.conserved
  · rw [RecordStore.update, hset record, List.pairwise_append, List.pairwise_cons]
    refine ⟨hsorted.1, ⟨fun e he => by rw [hstamp]; exact hsorted.2.1.1 e he, hsorted.2.1.2⟩, ?_⟩
    intro e he e' he'
    rcases List.mem_cons.mp he' with rfl | he'
    · rw [hstamp]
      exact hsorted.2.2 e he (key, old) (by simp)
    · exact hsorted.2.2 e he e' (List.mem_cons_of_mem _ he')
  · intro e he
    rw [RecordStore.update, hset record, List.mem_append, List.mem_cons] at he
    rcases he with he | rfl | he
    · exact hpast e (by simp [he])
    · rw [hstamp]
      exact hpast (key, old) (by simp)
    · exact hpast e (by simp [he])

lemma update_total (weight : ρ → Nat) (record : ρ) {old : ρ} (h : store.records.get? key = some old) :
    (store.update key record).total weight + weight old = store.total weight + weight record := by
  obtain ⟨before, after, hentries, hset, -⟩ := Dict.exists_split h
  rw [total, total, RecordStore.update, hset record, hentries]
  simp only [List.map_append, List.map_cons, List.sum_append, List.sum_cons]
  omega

lemma moveToEnd_entries (record : ρ) {old : ρ} (h : store.records.get? key = some old) :
    ∃ before after, store.records.entries = before ++ (key, old) :: after ∧
      (store.moveToEnd key record).records.entries = before ++ after ++ [(key, record)] := by
  obtain ⟨before, after, hentries, -, herase⟩ := Dict.exists_split h
  have hkey : key ∉ (store.records.erase key).keys := by
    rw [← Dict.get?_eq_none_iff, Dict.get?_erase, if_pos rfl]
  refine ⟨before, after, hentries, ?_⟩
  rw [moveToEnd, Dict.setAtEnd, Dict.entries_set_of_not_mem _ _ hkey, herase]

lemma Retains.moveToEnd (hstore : Retains bound stamp now store) (record : ρ) {old : ρ}
    (h : store.records.get? key = some old) (hnow : now ≤ stamp record) :
    Retains bound stamp (stamp record) (store.moveToEnd key record) := by
  obtain ⟨before, after, hentries, hmoved⟩ := moveToEnd_entries record h
  have hsize : (store.moveToEnd key record).size = store.size := by
    rw [size, size, Dict.size, Dict.size, hmoved, hentries]
    simp
  have hsub : (before ++ after).Sublist store.records.entries := by
    rw [hentries]
    exact (List.Sublist.refl before).append (List.sublist_cons_self _ after)
  refine ⟨?_, hsize.le.trans hstore.bounded, hsize.le.trans hstore.peak, ?_, ?_⟩
  · rw [hsize]
    exact hstore.conserved
  · rw [hmoved, List.pairwise_append]
    refine ⟨hstore.sorted.sublist hsub, List.pairwise_singleton _ _, ?_⟩
    intro e he e' he'
    rw [List.mem_singleton.mp he']
    exact le_trans (hstore.past e (hsub.subset he)) hnow
  · intro e he
    rw [hmoved, List.mem_append, List.mem_singleton] at he
    rcases he with he | rfl
    · exact le_trans (hstore.past e (hsub.subset he)) hnow
    · exact le_refl _

lemma moveToEnd_total (weight : ρ → Nat) {old : ρ} (h : store.records.get? key = some old)
    (hweight : weight record = weight old) :
    (store.moveToEnd key record).total weight = store.total weight := by
  obtain ⟨before, after, hentries, hmoved⟩ := moveToEnd_entries record h
  rw [total, total, hmoved, hentries]
  simp only [List.map_append, List.map_cons, List.map_nil, List.sum_append, List.sum_cons, List.sum_nil,
    hweight]
  omega

end Invariant

end RecordStore

end AisMixer.Library

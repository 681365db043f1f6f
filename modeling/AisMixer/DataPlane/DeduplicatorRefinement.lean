import AisMixer.DataPlane.Deduplicator

/-!
# The deduplicator refines a list of admitted records

`TtlList` is the specification: the admitted records in the order of their admission, without
those that have expired and, when a limit is set, without the oldest where a new one would not
fit. `Refines` relates a deduplicator to such a list and carries the account of its counters.
-/

namespace AisMixer
open Library

/-! ### The specification -/

/-- The key and the time of an admitted record. -/
abbrev TtlRecord (σ μ : Type) := (Option σ × μ) × ℚ

namespace TtlList

variable {σ μ : Type} [DecidableEq σ] [DecidableEq μ]

def dropStale (ttl now : ℚ) (log : List (TtlRecord σ μ)) : List (TtlRecord σ μ) :=
  log.filter (fun r => decide (now - r.2 < ttl))

/-- Room for one more record. -/
def dropOldest (maxEntries : Option ℕ+) (log : List (TtlRecord σ μ)) : List (TtlRecord σ μ) :=
  match maxEntries with
  | none => log
  | some limit => if log.length < limit then log else log.tail

def accept (cfg : DedupConfig) (log : List (TtlRecord σ μ)) (now : ℚ) (message : μ)
    (scope : Option σ) : List (TtlRecord σ μ) × Bool :=
  let log := dropStale cfg.ttl now log
  if log.any (fun r => r.1 = (scope, message)) then (log, false)
  else (dropOldest cfg.maxEntries log ++ [((scope, message), now)], true)

omit [DecidableEq σ] [DecidableEq μ] in
lemma dropOldest_sublist (maxEntries : Option ℕ+) (log : List (TtlRecord σ μ)) :
    (dropOldest maxEntries log).Sublist log := by
  unfold dropOldest
  split
  · exact List.Sublist.refl log
  · split
    · exact List.Sublist.refl log
    · exact List.tail_sublist log

/-- A record of the list was there before or is the one admitted now. -/
lemma mem_admit {cfg : DedupConfig} {log : List (TtlRecord σ μ)} {now : ℚ} {message : μ}
    {scope : Option σ} {r : TtlRecord σ μ} (h : r ∈ (accept cfg log now message scope).1) :
    r ∈ log ∨ r.2 = now := by
  rw [accept] at h
  split at h
  · exact Or.inl (List.mem_of_mem_filter h)
  · rcases List.mem_append.mp h with h | h
    · exact Or.inl (List.mem_of_mem_filter ((dropOldest_sublist _ _).subset h))
    · rw [List.mem_singleton.mp h]
      exact Or.inr rfl

end TtlList

/-! ### Runs -/

/-- A call with the clock reading that it uses. -/
inductive DedupCall (σ μ : Type) where
  | isUnique (now : ℚ) (message : μ) (scope : Option σ)
  | cleanupExpired (now : ℚ)
  | reset

inductive DedupAnswer where
  | unique (value : Bool)
  | cleaned
  | discarded (entries : Nat)
  deriving DecidableEq

namespace DedupCall

variable {σ μ : Type} [DecidableEq σ] [DecidableEq μ]

def reading? : DedupCall σ μ → Option ℚ
  | isUnique now _ _ => some now
  | cleanupExpired now => some now
  | reset => none

/-- The call on a deduplicator. -/
def perform (cfg : DedupConfig) (d : Deduplicator σ μ) :
    DedupCall σ μ → Deduplicator σ μ × Except PyException DedupAnswer
  | isUnique now message scope =>
    let (d, unique) := d.isUnique cfg now message scope
    (d, unique.map .unique)
  | cleanupExpired now => (d.cleanupExpired cfg now, .ok .cleaned)
  | reset =>
    let (d, discarded) := d.reset
    (d, .ok (.discarded discarded))

/-- The call on the specification. -/
def expect (cfg : DedupConfig) (log : List (TtlRecord σ μ)) :
    DedupCall σ μ → List (TtlRecord σ μ) × DedupAnswer
  | isUnique now message scope =>
    let (log, unique) := TtlList.accept cfg log now message scope
    (log, .unique unique)
  | cleanupExpired now => (TtlList.dropStale cfg.ttl now log, .cleaned)
  | reset => ([], .discarded log.length)

def performAll (cfg : DedupConfig) : Deduplicator σ μ → List (DedupCall σ μ) →
    Deduplicator σ μ × List (Except PyException DedupAnswer)
  | d, [] => (d, [])
  | d, call :: calls =>
    let (d, answer) := call.perform cfg d
    let (last, answers) := performAll cfg d calls
    (last, answer :: answers)

def expectAll (cfg : DedupConfig) : List (TtlRecord σ μ) → List (DedupCall σ μ) →
    List (TtlRecord σ μ) × List DedupAnswer
  | log, [] => (log, [])
  | log, call :: calls =>
    let (log, answer) := call.expect cfg log
    let (last, answers) := expectAll cfg log calls
    (last, answer :: answers)

end DedupCall

def DedupAnswer.discardedEntries : DedupAnswer → Nat
  | discarded entries => entries
  | _ => 0

namespace Deduplicator

variable {σ μ : Type} [DecidableEq σ] [DecidableEq μ]

/-- The retained records, in the order of the cache. -/
def records (d : Deduplicator σ μ) : List (TtlRecord σ μ) :=
  d.cache.entries.map (fun e => (e.1, e.2.insertedAt))

/-! ### The loops -/

lemma cleanupLoop_count (cfg : DedupConfig) (now : ℚ) (index : List (DedupEntry σ μ)) :
    ∀ (cache : Dict (Option σ × μ) (DedupEntry σ μ)) (expired : Nat), Listed cache index →
      (cleanupLoop cfg now index cache expired).2.2 +
        (cleanupLoop cfg now index cache expired).1.length = expired + index.length := by
  induction index with
  | nil => exact fun cache expired h => rfl
  | cons entry rest ih =>
    intro cache expired h
    rw [cleanupLoop]
    by_cases hlive : now - entry.insertedAt < cfg.ttl
    · rw [if_pos hlive]
    · rw [if_neg hlive, if_pos h.isCurrent, ih _ _ h.tail, List.length_cons]
      omega

/-- Eviction leaves one place free, and takes as many entries as that needs from the front. -/
lemma evictLoop_index {limit : Nat} (index : List (DedupEntry σ μ)) :
    ∀ (cache : Dict (Option σ × μ) (DedupEntry σ μ)) (evicted : Nat), Listed cache index →
      (evictLoop limit index cache evicted).1 = index.drop (index.length + 1 - limit) ∧
        (evictLoop limit index cache evicted).2.2.1 +
          (evictLoop limit index cache evicted).1.length = evicted + index.length := by
  induction index with
  | nil =>
    intro cache evicted h
    exact ⟨by simp [evictLoop], rfl⟩
  | cons entry rest ih =>
    intro cache evicted h
    rw [evictLoop, h.size, List.length_cons]
    by_cases hsize : rest.length + 1 < limit
    · rw [if_pos hsize]
      have hnone : rest.length + 1 + 1 - limit = 0 := by omega
      exact ⟨by rw [hnone, List.drop_zero], rfl⟩
    · rw [if_neg hsize, if_pos h.isCurrent]
      obtain ⟨hindex, hcount⟩ := ih _ (evicted + 1) h.tail
      have hone : rest.length + 1 + 1 - limit = (rest.length + 1 - limit) + 1 := by omega
      refine ⟨by rw [hindex, hone, List.drop_succ_cons], ?_⟩
      rw [hcount]
      omega

/-! ### The refinement -/

/-- The deduplicator retains the records of the list and has counted all others out;
`discarded` is the number of entries that resets have reported. -/
structure Refines (cfg : DedupConfig) (log : List (TtlRecord σ μ)) (discarded : Nat)
    (d : Deduplicator σ μ) : Prop where
  consistent : d.Consistent
  index : d.expiryIndex.map entryRecord = log
  sorted : log.Pairwise (fun r s => r.2 ≤ s.2)
  bounded : ∀ limit, cfg.maxEntries = some limit → log.length ≤ limit
  account : d.accepted = log.length + d.expired + d.capacityEvicted + discarded

omit [DecidableEq σ] [DecidableEq μ] in
lemma init_refines (cfg : DedupConfig) : Refines cfg [] 0 (init : Deduplicator σ μ) where
  consistent := init_consistent
  index := rfl
  sorted := List.Pairwise.nil
  bounded _ _ := Nat.zero_le _
  account := rfl

namespace Refines

variable {cfg : DedupConfig} {log : List (TtlRecord σ μ)} {discarded : Nat} {d : Deduplicator σ μ}

omit [DecidableEq σ] [DecidableEq μ] in
lemma length_index (h : Refines cfg log discarded d) : d.expiryIndex.length = log.length := by
  rw [← h.index, List.length_map]

omit [DecidableEq σ] [DecidableEq μ] in
lemma records_eq (h : Refines cfg log discarded d) : d.records = log := by
  rw [← h.index, records, show d.cache.entries = _ from h.consistent, List.map_map]
  rfl

omit [DecidableEq σ] [DecidableEq μ] in
lemma size_eq (h : Refines cfg log discarded d) : d.cache.size = log.length := by
  rw [Listed.size h.consistent, h.length_index]

lemma contains_iff (h : Refines cfg log discarded d) (key : Option σ × μ) :
    d.cache.contains key = log.any (fun r => r.1 = key) := by
  rw [Bool.eq_iff_iff, Listed.contains_iff h.consistent, List.any_eq_true, ← h.index]
  simp [entryRecord]

/-- The loop drops the expired front, which is all that has expired. -/
lemma cleanupExpired (h : Refines cfg log discarded d) (now : ℚ) :
    Refines cfg (TtlList.dropStale cfg.ttl now log) discarded (d.cleanupExpired cfg now) := by
  obtain ⟨hconsistent, hindex⟩ := cleanupExpired_spec cfg h.consistent now
  have hsorted : d.expiryIndex.Pairwise (fun e f => e.insertedAt ≤ f.insertedAt) := by
    have hlog := h.sorted
    rwa [← h.index, List.pairwise_map] at hlog
  have hrecords : (d.cleanupExpired cfg now).expiryIndex.map entryRecord =
      TtlList.dropStale cfg.ttl now log := by
    rw [hindex, dropExpired_eq_filter hsorted, ← h.index, TtlList.dropStale, List.filter_map]
    rfl
  have hsublist : (TtlList.dropStale cfg.ttl now log).Sublist log := List.filter_sublist
  refine ⟨hconsistent, hrecords, h.sorted.sublist hsublist, ?_, ?_⟩
  · intro limit hlimit
    exact hsublist.length_le.trans (h.bounded limit hlimit)
  · have hcount := cleanupLoop_count cfg now d.expiryIndex d.cache d.expired h.consistent
    have haccount := h.account
    rw [h.length_index] at hcount
    rw [← hrecords, List.length_map]
    change d.accepted = (cleanupLoop cfg now d.expiryIndex d.cache d.expired).1.length +
      (cleanupLoop cfg now d.expiryIndex d.cache d.expired).2.2 + d.capacityEvicted + discarded
    omega

/-- The loop of `is_unique` makes room for one entry without raising. -/
lemma makeRoom (h : Refines cfg log discarded d) :
    ∃ r, d.makeRoom cfg = (r, .ok ()) ∧
      Refines cfg (TtlList.dropOldest cfg.maxEntries log) discarded r ∧
      ∀ limit, cfg.maxEntries = some limit →
        (TtlList.dropOldest cfg.maxEntries log).length < limit := by
  cases hmax : cfg.maxEntries with
  | none => exact ⟨d, by simp [Deduplicator.makeRoom, hmax], h, by simp⟩
  | some limit =>
    have hbounded := h.bounded limit hmax
    have hpos := limit.pos
    obtain ⟨hfound, hlisted, -⟩ :=
      evictLoop_spec limit.pos d.expiryIndex d.cache d.capacityEvicted h.consistent
    obtain ⟨hindex, hcount⟩ :=
      @evictLoop_index _ _ _ _ limit d.expiryIndex d.cache d.capacityEvicted h.consistent
    obtain ⟨⟨index, cache, evicted, found⟩, hloop⟩ :
        ∃ result, evictLoop limit d.expiryIndex d.cache d.capacityEvicted = result := ⟨_, rfl⟩
    rw [hloop] at hfound hlisted hindex hcount
    dsimp only at hfound hlisted hindex hcount
    have hroom : TtlList.dropOldest (some limit) log = log.drop (log.length + 1 - limit) := by
      rw [TtlList.dropOldest]
      split
      · rename_i hless
        have hnone : log.length + 1 - limit = 0 := by omega
        rw [hnone, List.drop_zero]
      · rename_i hfull
        have hone : log.length + 1 - limit = 1 := by omega
        rw [hone, List.drop_one]
    refine ⟨{ d with expiryIndex := index, cache := cache, capacityEvicted := evicted },
      by simp [Deduplicator.makeRoom, hmax, hloop, hfound], ?_, ?_⟩
    · refine ⟨hlisted, ?_, ?_, ?_, ?_⟩
      · rw [hroom, hindex, h.length_index, List.map_drop, h.index]
      · rw [hroom]
        exact h.sorted.sublist (List.drop_sublist _ _)
      · intro other hother
        rw [hroom, List.length_drop]
        have hle := h.bounded other hother
        omega
      · have haccount := h.account
        rw [h.length_index] at hcount
        rw [hroom, ← h.length_index, ← h.index, ← List.map_drop, List.length_map, ← hindex]
        dsimp only
        omega
    · intro other hother
      obtain rfl : limit = other := Option.some.inj hother
      rw [hroom, List.length_drop]
      omega

/-- The new entry of an accepted message. -/
lemma push (h : Refines cfg log discarded d) {now : ℚ} {key : Option σ × μ}
    (hle : ∀ r ∈ log, r.2 ≤ now) (hnew : log.any (fun r => r.1 = key) = false)
    (hroom : ∀ limit, cfg.maxEntries = some limit → log.length < limit) :
    Refines cfg (log ++ [(key, now)]) discarded
      { d with
        cache := d.cache.set key ⟨d.nextNumber, now, key⟩
        expiryIndex := d.expiryIndex ++ [⟨d.nextNumber, now, key⟩]
        accepted := d.accepted + 1
        peakEntries := max d.peakEntries (d.cache.set key ⟨d.nextNumber, now, key⟩).size
        nextNumber := d.nextNumber + 1 } := by
  have hmem : key ∉ d.cache.keys := by
    rw [← Dict.contains_iff, h.contains_iff, hnew]
    exact Bool.false_ne_true
  refine ⟨?_, ?_, ?_, ?_, ?_⟩
  · simp only [Consistent, Listed, Dict.entries_set_of_not_mem _ _ hmem, List.map_append,
      show d.cache.entries = _ from h.consistent]
    rfl
  · rw [List.map_append, h.index]
    rfl
  · refine List.pairwise_append.mpr ⟨h.sorted, List.pairwise_singleton _ _, ?_⟩
    intro r hr s hs
    rw [List.mem_singleton.mp hs]
    exact hle r hr
  · intro limit hlimit
    rw [List.length_append, List.length_singleton]
    exact hroom limit hlimit
  · have haccount := h.account
    rw [List.length_append, List.length_singleton]
    dsimp only
    omega

omit [DecidableEq σ] [DecidableEq μ] in
lemma countDuplicate (h : Refines cfg log discarded d) :
    Refines cfg log discarded { d with duplicates := d.duplicates + 1 } :=
  ⟨h.consistent, h.index, h.sorted, h.bounded, h.account⟩

/-- `is_unique` answers like the list. -/
lemma isUnique (h : Refines cfg log discarded d) {now : ℚ} (hle : ∀ r ∈ log, r.2 ≤ now)
    (message : μ) (scope : Option σ) :
    (d.isUnique cfg now message scope).2 = .ok (TtlList.accept cfg log now message scope).2 ∧
      Refines cfg (TtlList.accept cfg log now message scope).1 discarded
        (d.isUnique cfg now message scope).1 := by
  have hclean := h.cleanupExpired now
  have hcontains := hclean.contains_iff (scope, message)
  rw [Deduplicator.isUnique, TtlList.accept]
  dsimp only
  cases hany : (TtlList.dropStale cfg.ttl now log).any (fun r => r.1 = (scope, message)) with
  | true =>
    rw [hany] at hcontains
    rw [if_pos hcontains, if_pos rfl]
    exact ⟨rfl, hclean.countDuplicate⟩
  | false =>
    rw [hany] at hcontains
    rw [if_neg (by simp [hcontains]), if_neg Bool.false_ne_true]
    obtain ⟨r, hroom, hr, hless⟩ := hclean.makeRoom
    have hsublist := TtlList.dropOldest_sublist cfg.maxEntries (TtlList.dropStale cfg.ttl now log)
    rw [hroom]
    refine ⟨rfl, hr.push ?_ ?_ hless⟩
    · intro s hs
      exact hle s (List.mem_of_mem_filter (hsublist.subset hs))
    · rw [List.any_eq_false] at hany ⊢
      intro s hs
      exact hany s (hsublist.subset hs)

omit [DecidableEq σ] [DecidableEq μ] in
lemma reset (h : Refines cfg log discarded d) :
    d.reset.2 = log.length ∧ Refines cfg [] (discarded + log.length) d.reset.1 := by
  refine ⟨h.size_eq, rfl, rfl, List.Pairwise.nil, fun _ _ => Nat.zero_le _, ?_⟩
  have haccount := h.account
  change d.accepted = 0 + d.expired + d.capacityEvicted + (discarded + log.length)
  omega

end Refines

/-! ### Runs refine runs -/

lemma mem_expect {cfg : DedupConfig} {log : List (TtlRecord σ μ)} {call : DedupCall σ μ}
    {r : TtlRecord σ μ} (h : r ∈ (call.expect cfg log).1) : r ∈ log ∨ call.reading? = some r.2 := by
  cases call with
  | isUnique now message scope =>
    rcases TtlList.mem_admit h with hold | hnow
    · exact Or.inl hold
    · exact Or.inr (congrArg some hnow.symm)
  | cleanupExpired now => exact Or.inl (List.mem_of_mem_filter h)
  | reset => cases h

/-- A call on both sides. -/
theorem Refines.perform {cfg : DedupConfig} {log : List (TtlRecord σ μ)} {discarded : Nat}
    {d : Deduplicator σ μ} (h : Refines cfg log discarded d) (call : DedupCall σ μ)
    (hle : ∀ r ∈ log, ∀ now ∈ call.reading?, r.2 ≤ now) :
    (call.perform cfg d).2 = .ok (call.expect cfg log).2 ∧
      Refines cfg (call.expect cfg log).1 (discarded + (call.expect cfg log).2.discardedEntries)
        (call.perform cfg d).1 := by
  cases call with
  | isUnique now message scope =>
    obtain ⟨hanswer, hnext⟩ := h.isUnique (fun r hr => hle r hr now rfl) message scope
    refine ⟨?_, hnext⟩
    rw [DedupCall.perform]
    dsimp only
    rw [hanswer]
    rfl
  | cleanupExpired now => exact ⟨rfl, h.cleanupExpired now⟩
  | reset =>
    obtain ⟨hanswer, hnext⟩ := h.reset
    refine ⟨?_, hnext⟩
    rw [DedupCall.expect, ← hanswer]
    rfl

/-- Calls in the order of their clock readings, on both sides. -/
theorem Refines.performAll {cfg : DedupConfig} {log : List (TtlRecord σ μ)} {discarded : Nat}
    {d : Deduplicator σ μ} (h : Refines cfg log discarded d) (calls : List (DedupCall σ μ))
    (hclock : (calls.filterMap DedupCall.reading?).Pairwise (fun s t => s ≤ t))
    (hle : ∀ r ∈ log, ∀ now ∈ calls.filterMap DedupCall.reading?, r.2 ≤ now) :
    (DedupCall.performAll cfg d calls).2 = (DedupCall.expectAll cfg log calls).2.map Except.ok ∧
      Refines cfg (DedupCall.expectAll cfg log calls).1
        (discarded +
          ((DedupCall.expectAll cfg log calls).2.map DedupAnswer.discardedEntries).sum)
        (DedupCall.performAll cfg d calls).1 := by
  induction calls generalizing log discarded d with
  | nil => exact ⟨rfl, h⟩
  | cons call calls ih =>
    have hlater : (calls.filterMap DedupCall.reading?).Pairwise (fun s t => s ≤ t) ∧
        ∀ t, call.reading? = some t → ∀ now ∈ calls.filterMap DedupCall.reading?, t ≤ now := by
      cases hreading : call.reading? with
      | none =>
        rw [List.filterMap_cons_none hreading] at hclock
        exact ⟨hclock, by simp⟩
      | some t =>
        rw [List.filterMap_cons_some hreading] at hclock
        obtain ⟨hfirst, hrest⟩ := List.pairwise_cons.mp hclock
        refine ⟨hrest, ?_⟩
        intro t' ht'
        rw [← Option.some.inj ht']
        exact hfirst
    obtain ⟨hanswer, hnext⟩ := h.perform call (by
      intro r hr now hnow
      exact hle r hr now (List.mem_filterMap.mpr ⟨call, List.mem_cons_self .., hnow⟩))
    have hbefore : ∀ r ∈ (call.expect cfg log).1,
        ∀ now ∈ calls.filterMap DedupCall.reading?, r.2 ≤ now := by
      intro r hr now hnow
      rcases mem_expect hr with hold | hcall
      · obtain ⟨other, hother, hreading⟩ := List.mem_filterMap.mp hnow
        exact hle r hold now
          (List.mem_filterMap.mpr ⟨other, List.mem_cons_of_mem call hother, hreading⟩)
      · exact hlater.2 r.2 hcall now hnow
    obtain ⟨hanswers, hlast⟩ := ih hnext hlater.1 hbefore
    refine ⟨?_, ?_⟩
    · simp only [DedupCall.performAll, DedupCall.expectAll, hanswer, hanswers, List.map_cons]
    · simp only [DedupCall.performAll, DedupCall.expectAll, List.map_cons, List.sum_cons]
      rwa [add_assoc] at hlast

/-- A rejected duplicate leaves every record that has not expired as it was. -/
lemma isUnique_false {cfg : DedupConfig} {d : Deduplicator σ μ} (hconsistent : d.Consistent)
    (hsorted : d.expiryIndex.Pairwise (fun e f => e.insertedAt ≤ f.insertedAt)) {now : ℚ}
    {message : μ} {scope : Option σ} (h : (d.isUnique cfg now message scope).2 = .ok false) :
    (d.isUnique cfg now message scope).1.cache.entries =
      d.cache.entries.filter (fun e => decide (now - e.2.insertedAt < cfg.ttl)) := by
  obtain ⟨hclean, hindex⟩ := cleanupExpired_spec cfg hconsistent now
  have hkept : (d.cleanupExpired cfg now).cache.entries =
      d.cache.entries.filter (fun e => decide (now - e.2.insertedAt < cfg.ttl)) := by
    rw [show (d.cleanupExpired cfg now).cache.entries = _ from hclean, hindex,
      dropExpired_eq_filter hsorted, show d.cache.entries = _ from hconsistent, List.filter_map]
    rfl
  rw [isUnique] at h ⊢
  dsimp only at h ⊢
  split at h
  · rename_i hkey
    rw [if_pos hkey]
    exact hkept
  · split at h
    · cases h
    · cases h

/-- On calls in the order of their clock readings the deduplicator answers like the list and
never raises, its cache holds the records of the list, it does not outgrow its limit, and its
counters account for every accepted message. -/
theorem deduplicator_refines_ttl_list (cfg : DedupConfig) (calls : List (DedupCall σ μ))
    (hclock : (calls.filterMap DedupCall.reading?).Pairwise (fun s t => s ≤ t)) :
    let actual := DedupCall.performAll cfg init calls
    let expected := DedupCall.expectAll cfg [] calls
    actual.2 = expected.2.map Except.ok ∧
      actual.1.records = expected.1 ∧
      (∀ limit, cfg.maxEntries = some limit → actual.1.cache.size ≤ limit) ∧
      actual.1.accepted = actual.1.cache.size + actual.1.expired + actual.1.capacityEvicted +
        (expected.2.map DedupAnswer.discardedEntries).sum ∧
      ∀ now message scope, (actual.1.isUnique cfg now message scope).2 = .ok false →
        (actual.1.isUnique cfg now message scope).1.cache.entries =
          actual.1.cache.entries.filter (fun e => decide (now - e.2.insertedAt < cfg.ttl)) := by
  intro actual expected
  obtain ⟨hanswers, hrefines⟩ := (init_refines cfg).performAll calls hclock (by simp)
  refine ⟨hanswers, hrefines.records_eq, ?_, ?_, ?_⟩
  · intro limit hlimit
    rw [hrefines.size_eq]
    exact hrefines.bounded limit hlimit
  · have haccount := hrefines.account
    rwa [Nat.zero_add, ← hrefines.size_eq] at haccount
  · intro now message scope hduplicate
    have hsorted := hrefines.sorted
    rw [← hrefines.index, List.pairwise_map] at hsorted
    exact isUnique_false hrefines.consistent hsorted hduplicate

/-- Two scopes and two messages share a cache of two entries. -/
def sharedCapacityCalls : List (DedupCall Nat Nat) :=
  [.isUnique 0 7 none, .isUnique 1 7 (some 1), .isUnique 2 8 none, .isUnique 3 7 none, .reset]

theorem deduplicator_refines_ttl_list_shared :
    (DedupCall.performAll ⟨30, some 2⟩ init sharedCapacityCalls).2 =
      (DedupCall.expectAll ⟨30, some 2⟩ [] sharedCapacityCalls).2.map Except.ok :=
  (deduplicator_refines_ttl_list ⟨30, some 2⟩ sharedCapacityCalls (by decide +kernel)).1

end Deduplicator

end AisMixer

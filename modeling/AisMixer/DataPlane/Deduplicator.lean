import AisMixer.Library.Dict
import AisMixer.Library.Text
import AisMixer.Library.TtlLog

/-!
# The deduplicator

`Deduplicator` remembers a message in a scope for `ttl` seconds after it was accepted. Its cache
and its expiry index share entries by identity, which an entry number stands for; `Consistent`
says that both list the same entries in the same order. The scope `none` is the global one.
-/

namespace AisMixer
open Library

structure DedupConfig where
  ttl : ℚ
  maxEntries : Option ℕ+

/-- One entry; `number` is its identity. -/
structure DedupEntry (σ μ : Type) where
  number : Nat
  insertedAt : ℚ
  key : Option σ × μ
  deriving DecidableEq

structure Deduplicator (σ μ : Type) where
  cache : Dict (Option σ × μ) (DedupEntry σ μ)
  expiryIndex : List (DedupEntry σ μ)
  accepted : Nat
  duplicates : Nat
  expired : Nat
  capacityEvicted : Nat
  resets : Nat
  peakEntries : Nat
  nextNumber : Nat

namespace Deduplicator

variable {σ μ : Type} [DecidableEq σ] [DecidableEq μ]

def init : Deduplicator σ μ := ⟨.empty, [], 0, 0, 0, 0, 0, 0, 0⟩

/-- `cache.get(key) is entry`. -/
def isCurrent (cache : Dict (Option σ × μ) (DedupEntry σ μ)) (entry : DedupEntry σ μ) : Bool :=
  (cache.get? entry.key).any (fun current => current.number == entry.number)

/-- The loop of `cleanup_expired`, with the number of expired entries. -/
def cleanupLoop (cfg : DedupConfig) (now : ℚ) : List (DedupEntry σ μ) →
    Dict (Option σ × μ) (DedupEntry σ μ) → Nat →
    List (DedupEntry σ μ) × Dict (Option σ × μ) (DedupEntry σ μ) × Nat
  | [], cache, expired => ([], cache, expired)
  | entry :: rest, cache, expired =>
    if now - entry.insertedAt < cfg.ttl then (entry :: rest, cache, expired)
    else if isCurrent cache entry then cleanupLoop cfg now rest (cache.erase entry.key) (expired + 1)
    else cleanupLoop cfg now rest cache expired

def cleanupExpired (cfg : DedupConfig) (d : Deduplicator σ μ) (now : ℚ) : Deduplicator σ μ :=
  let (index, cache, expired) := cleanupLoop cfg now d.expiryIndex d.cache d.expired
  { d with expiryIndex := index, cache := cache, expired := expired }

/-- The loop of `is_unique` around `_evict_oldest_live`; `false` in the last place is the
`RuntimeError` of an index without a live entry. -/
def evictLoop (limit : Nat) : List (DedupEntry σ μ) → Dict (Option σ × μ) (DedupEntry σ μ) → Nat →
    List (DedupEntry σ μ) × Dict (Option σ × μ) (DedupEntry σ μ) × Nat × Bool
  | [], cache, evicted => ([], cache, evicted, cache.size < limit)
  | entry :: rest, cache, evicted =>
    if cache.size < limit then (entry :: rest, cache, evicted, true)
    else if isCurrent cache entry then evictLoop limit rest (cache.erase entry.key) (evicted + 1)
    else evictLoop limit rest cache evicted

def makeRoom (cfg : DedupConfig) (d : Deduplicator σ μ) : Deduplicator σ μ × Except PyException Unit :=
  match cfg.maxEntries with
  | none => (d, .ok ())
  | some limit =>
    let (index, cache, evicted, found) := evictLoop limit d.expiryIndex d.cache d.capacityEvicted
    let d := { d with expiryIndex := index, cache := cache, capacityEvicted := evicted }
    (d, if found then .ok ()
      else .error (.runtimeError (str "deduplication expiry index is inconsistent")))

/-- `is_unique(message, scope)` at the clock reading `now`. -/
def isUnique (cfg : DedupConfig) (d : Deduplicator σ μ) (now : ℚ) (message : μ) (scope : Option σ) :
    Deduplicator σ μ × Except PyException Bool :=
  let d := d.cleanupExpired cfg now
  let key := (scope, message)
  if d.cache.contains key then ({ d with duplicates := d.duplicates + 1 }, .ok false)
  else
    match d.makeRoom cfg with
    | (d, .error e) => (d, .error e)
    | (d, .ok ()) =>
      let entry : DedupEntry σ μ := ⟨d.nextNumber, now, key⟩
      let cache := d.cache.set key entry
      ({ d with
        cache := cache
        expiryIndex := d.expiryIndex ++ [entry]
        accepted := d.accepted + 1
        peakEntries := max d.peakEntries cache.size
        nextNumber := d.nextNumber + 1 }, .ok true)

def reset (d : Deduplicator σ μ) : Deduplicator σ μ × Nat :=
  ({ d with cache := .empty, expiryIndex := [], resets := d.resets + 1 }, d.cache.size)

/-! ### The representation invariant -/

/-- The cache and the index list the same entries in the same order. -/
def Listed (cache : Dict (Option σ × μ) (DedupEntry σ μ)) (index : List (DedupEntry σ μ)) : Prop :=
  cache.entries = index.map (fun e => (e.key, e))

def Consistent (d : Deduplicator σ μ) : Prop := Listed d.cache d.expiryIndex

omit [DecidableEq σ] [DecidableEq μ] in
lemma init_consistent : (init : Deduplicator σ μ).Consistent := rfl

section Listed

variable {cache : Dict (Option σ × μ) (DedupEntry σ μ)} {entry : DedupEntry σ μ}
  {index rest : List (DedupEntry σ μ)}

lemma Listed.isCurrent (h : Listed cache (entry :: rest)) : isCurrent cache entry = true := by
  have hget : cache.get? entry.key = some entry := by
    rw [Dict.get?_eq_some_iff, show cache.entries = _ from h]
    simp
  simp [Deduplicator.isCurrent, hget]

lemma Listed.tail (h : Listed cache (entry :: rest)) : Listed (cache.erase entry.key) rest :=
  cache.entries_erase_head h

omit [DecidableEq σ] [DecidableEq μ] in
lemma Listed.size (h : Listed cache index) : cache.size = index.length := by
  simp [Dict.size, show cache.entries = _ from h]

lemma Listed.contains_iff (h : Listed cache index) (key : Option σ × μ) :
    cache.contains key = true ↔ ∃ e ∈ index, e.key = key := by
  simp [Dict.contains_iff, Dict.keys, show cache.entries = _ from h]

end Listed

/-- Cleanup drops the expired front of the index, and the same entries of the cache. -/
lemma cleanupLoop_spec (cfg : DedupConfig) (now : ℚ) (index : List (DedupEntry σ μ)) :
    ∀ (cache : Dict (Option σ × μ) (DedupEntry σ μ)) (expired : Nat), Listed cache index →
      (cleanupLoop cfg now index cache expired).1 =
          dropExpired DedupEntry.insertedAt cfg.ttl now index ∧
        Listed (cleanupLoop cfg now index cache expired).2.1
          (cleanupLoop cfg now index cache expired).1 := by
  induction index with
  | nil => exact fun cache expired h => ⟨rfl, h⟩
  | cons entry rest ih =>
    intro cache expired h
    rw [cleanupLoop]
    by_cases hlive : now - entry.insertedAt < cfg.ttl
    · rw [if_pos hlive]
      exact ⟨by simp [dropExpired, hlive], h⟩
    · rw [if_neg hlive, if_pos h.isCurrent]
      have hdrop : dropExpired DedupEntry.insertedAt cfg.ttl now (entry :: rest) =
          dropExpired DedupEntry.insertedAt cfg.ttl now rest := by
        simp [dropExpired, not_lt.mp hlive]
      rw [hdrop]
      exact ih _ _ h.tail

lemma cleanupExpired_spec (cfg : DedupConfig) {d : Deduplicator σ μ} (hd : d.Consistent) (now : ℚ) :
    (d.cleanupExpired cfg now).Consistent ∧ (d.cleanupExpired cfg now).expiryIndex =
      dropExpired DedupEntry.insertedAt cfg.ttl now d.expiryIndex := by
  obtain ⟨hindex, hlisted⟩ := cleanupLoop_spec cfg now d.expiryIndex d.cache d.expired hd
  exact ⟨hlisted, hindex⟩

/-- Eviction always finds a live entry, and it takes entries from the front. -/
lemma evictLoop_spec {limit : Nat} (hlimit : 0 < limit) (index : List (DedupEntry σ μ)) :
    ∀ (cache : Dict (Option σ × μ) (DedupEntry σ μ)) (evicted : Nat), Listed cache index →
      (evictLoop limit index cache evicted).2.2.2 = true ∧
        Listed (evictLoop limit index cache evicted).2.1 (evictLoop limit index cache evicted).1 ∧
        (evictLoop limit index cache evicted).1 <:+ index := by
  induction index with
  | nil =>
    intro cache evicted h
    have hsize : cache.size < limit := by rw [h.size]; exact hlimit
    exact ⟨by simp [evictLoop, hsize], h, List.suffix_rfl⟩
  | cons entry rest ih =>
    intro cache evicted h
    rw [evictLoop]
    by_cases hsize : cache.size < limit
    · rw [if_pos hsize]
      exact ⟨rfl, h, List.suffix_rfl⟩
    · rw [if_neg hsize, if_pos h.isCurrent]
      obtain ⟨hfound, hlisted, hsuffix⟩ := ih _ (evicted + 1) h.tail
      exact ⟨hfound, hlisted, hsuffix.trans (List.suffix_cons entry rest)⟩

lemma makeRoom_spec (cfg : DedupConfig) {d : Deduplicator σ μ} (hd : d.Consistent) :
    ∃ d', d.makeRoom cfg = (d', .ok ()) ∧ d'.Consistent ∧ d'.expiryIndex <:+ d.expiryIndex ∧
      (cfg.maxEntries = none → d'.expiryIndex = d.expiryIndex) := by
  cases hmax : cfg.maxEntries with
  | none => exact ⟨d, by simp [makeRoom, hmax], hd, List.suffix_rfl, fun _ => rfl⟩
  | some limit =>
    have hspec := evictLoop_spec limit.pos d.expiryIndex d.cache d.capacityEvicted hd
    obtain ⟨⟨index, cache, evicted, found⟩, hloop⟩ :
        ∃ result, evictLoop limit d.expiryIndex d.cache d.capacityEvicted = result := ⟨_, rfl⟩
    rw [hloop] at hspec
    obtain ⟨hfound, hlisted, hsuffix⟩ := hspec
    refine ⟨{ d with expiryIndex := index, cache := cache, capacityEvicted := evicted }, ?_, hlisted,
      hsuffix, by simp⟩
    have hfound : found = true := hfound
    simp [makeRoom, hmax, hloop, hfound]

/-- What `is_unique` does: it never raises, a message is a duplicate when a live entry has its
key, and a new message gets an entry at the end of the index. -/
theorem isUnique_spec (cfg : DedupConfig) {d : Deduplicator σ μ} (hd : d.Consistent) (now : ℚ)
    (message : μ) (scope : Option σ) :
    ∃ d' unique, d.isUnique cfg now message scope = (d', .ok unique) ∧ d'.Consistent ∧
      (unique = true ↔ ∀ e ∈ dropExpired DedupEntry.insertedAt cfg.ttl now d.expiryIndex,
        e.key ≠ (scope, message)) ∧
      (unique = false → d'.expiryIndex = dropExpired DedupEntry.insertedAt cfg.ttl now d.expiryIndex) ∧
      (unique = true → cfg.maxEntries = none → ∃ number, d'.expiryIndex =
        dropExpired DedupEntry.insertedAt cfg.ttl now d.expiryIndex ++
          [⟨number, now, (scope, message)⟩]) := by
  obtain ⟨hclean, hindex⟩ := cleanupExpired_spec cfg hd now
  obtain ⟨c, hc⟩ : ∃ c, d.cleanupExpired cfg now = c := ⟨_, rfl⟩
  rw [hc] at hclean hindex
  rw [← hindex]
  by_cases hkey : c.cache.contains (scope, message) = true
  · refine ⟨{ c with duplicates := c.duplicates + 1 }, false, by simp [isUnique, hc, hkey], hclean, ?_,
      fun _ => rfl, by simp⟩
    obtain ⟨e, he, hek⟩ := (hclean.contains_iff _).mp hkey
    simp only [Bool.false_eq_true, false_iff, not_forall]
    exact ⟨e, he, fun h => h hek⟩
  · obtain ⟨r, hroom, hr, hsuffix, hnone⟩ := makeRoom_spec cfg hclean
    have hnew : ∀ e ∈ c.expiryIndex, e.key ≠ (scope, message) :=
      fun e he hek => hkey ((hclean.contains_iff _).mpr ⟨e, he, hek⟩)
    have hmem : (scope, message) ∉ r.cache.keys := by
      rw [← Dict.contains_iff, hr.contains_iff]
      rintro ⟨e, he, hek⟩
      exact hnew e (hsuffix.subset he) hek
    obtain ⟨entry, hentry⟩ : ∃ entry : DedupEntry σ μ, entry = ⟨r.nextNumber, now, (scope, message)⟩ :=
      ⟨_, rfl⟩
    refine ⟨{ r with
      cache := r.cache.set (scope, message) entry
      expiryIndex := r.expiryIndex ++ [entry]
      accepted := r.accepted + 1
      peakEntries := max r.peakEntries (r.cache.set (scope, message) entry).size
      nextNumber := r.nextNumber + 1 }, true, by simp [isUnique, hc, hkey, hroom, hentry], ?_,
      by simpa using hnew, by simp, ?_⟩
    · simp only [Consistent, Listed, Dict.entries_set_of_not_mem _ _ hmem, List.map_append,
        show r.cache.entries = _ from hr, hentry]
      rfl
    · intro _ hmax
      exact ⟨r.nextNumber, by rw [hnone hmax, hentry]⟩

/-! ### What an unbounded deduplicator remembers -/

/-- The key of an accepted message and the time when it was accepted. -/
def entryRecord (e : DedupEntry σ μ) : (Option σ × μ) × ℚ := (e.key, e.insertedAt)

/-- No message with the key was accepted less than `ttl` before `now`. -/
def Fresh (ttl : ℚ) (history : List ((Option σ × μ) × ℚ)) (key : Option σ × μ) (now : ℚ) : Prop :=
  ∀ e ∈ history, e.1 = key → ¬now - e.2 < ttl

/-- The deduplicator has lost none of the accepted messages that were live at `last`. -/
structure Remembers (cfg : DedupConfig) (last : ℚ) (history : List ((Option σ × μ) × ℚ))
    (d : Deduplicator σ μ) : Prop where
  consistent : d.Consistent
  keeps : ∃ log, log.map entryRecord = history ∧
    KeepsLive DedupEntry.insertedAt cfg.ttl last log d.expiryIndex

omit [DecidableEq σ] [DecidableEq μ] in
lemma init_remembers (cfg : DedupConfig) (last : ℚ) :
    Remembers cfg last [] (init : Deduplicator σ μ) where
  consistent := init_consistent
  keeps := ⟨[], rfl, .nil _ _ _⟩

omit [DecidableEq σ] [DecidableEq μ] in
lemma Remembers.later {cfg : DedupConfig} {last now : ℚ} {history : List ((Option σ × μ) × ℚ)}
    {d : Deduplicator σ μ} (h : Remembers cfg last history d) (hle : last ≤ now) :
    Remembers cfg now history d where
  consistent := h.consistent
  keeps := by
    obtain ⟨log, hlog, hkeeps⟩ := h.keeps
    exact ⟨log, hlog, hkeeps.later hle⟩

/-- Without a limit, a message is unique exactly when it was not accepted within the time to live. -/
theorem Remembers.isUnique {cfg : DedupConfig} (hunbounded : cfg.maxEntries = none) {last now : ℚ}
    {history : List ((Option σ × μ) × ℚ)} {d : Deduplicator σ μ} (h : Remembers cfg last history d)
    (hle : last ≤ now) (message : μ) (scope : Option σ) :
    ∃ d' unique, d.isUnique cfg now message scope = (d', .ok unique) ∧
      (unique = true ↔ Fresh cfg.ttl history (scope, message) now) ∧
      Remembers cfg now (if unique then history ++ [((scope, message), now)] else history) d' := by
  obtain ⟨d', unique, hrun, hconsistent, hunique, hfalse, htrue⟩ :=
    isUnique_spec cfg h.consistent now message scope
  obtain ⟨log, hlog, hkeeps⟩ := h.keeps
  have hclean := hkeeps.cleanup hle
  refine ⟨d', unique, hrun, ?_, hconsistent, ?_⟩
  · rw [hunique, ← hlog, Fresh]
    constructor
    · intro hall e he hkey hlive
      obtain ⟨entry, hentry, rfl⟩ := List.mem_map.mp he
      exact hall entry ((hkeeps.mem_cleanup_iff hle entry).mpr ⟨hentry, hlive⟩) hkey
    · intro hall entry hentry hkey
      obtain ⟨hmem, hlive⟩ := (hkeeps.mem_cleanup_iff hle entry).mp hentry
      exact hall (entryRecord entry) (List.mem_map_of_mem hmem) hkey hlive
  · cases unique with
    | false =>
      rw [hfalse rfl]
      exact ⟨log, hlog, hclean⟩
    | true =>
      obtain ⟨number, hindex⟩ := htrue rfl hunbounded
      rw [hindex]
      refine ⟨log ++ [⟨number, now, (scope, message)⟩], ?_, hclean.push rfl⟩
      rw [List.map_append, hlog]
      rfl

end Deduplicator

end AisMixer

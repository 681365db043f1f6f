import AisMixer.DataPlane.AssemblerRuns

/-!
# The accounts of the assembler

Every generation that was opened has been completed, has met a conflict, has expired, was evicted
or reset, or is still there. `FeedCase` lists what a feed for a group can do with the keys that it
drops; the counters, the limits and the report of the dropped keys are read off it.
-/

namespace AisMixer
open Library

namespace AssemblyKey

/-- The tuple of a key, in the order of tuples. -/
def rank (k : AssemblyKey) : PyStr ×ₗ PyStr ×ₗ PyStr ×ₗ Nat :=
  toLex (k.sourceIdentity, toLex (k.sequentialId, toLex (k.channel, k.declaredTotal)))

lemma rank_injective : Function.Injective rank := by
  rintro ⟨source, sequential, channel, total⟩ ⟨source', sequential', channel', total'⟩ h
  simpa [rank] using h

lemma le_iff (k l : AssemblyKey) : k.le l ↔ k.rank ≤ l.rank := Iff.rfl

end AssemblyKey

/-- Keys in strictly ascending order. -/
def StrictlySorted (ks : List AssemblyKey) : Prop := ks.Pairwise (fun k l => k.rank < l.rank)

namespace Assembler

lemma sortKeys_perm (ks : List AssemblyKey) : (sortKeys ks).Perm ks := List.perm_insertionSort _ ks

lemma sortKeys_strictlySorted {ks : List AssemblyKey} (h : ks.Nodup) : StrictlySorted (sortKeys ks) := by
  have htotal : Std.Total AssemblyKey.le := ⟨fun k l => le_total k.rank l.rank⟩
  have htrans : IsTrans AssemblyKey AssemblyKey.le := ⟨fun k l m => le_trans (a := k.rank)⟩
  have hsorted : (sortKeys ks).Pairwise AssemblyKey.le := List.pairwise_insertionSort _ ks
  have hnodup : (sortKeys ks).Nodup := (sortKeys_perm ks).nodup_iff.mpr h
  refine (hsorted.and hnodup).imp ?_
  rintro k l ⟨hle, hne⟩
  exact lt_of_le_of_ne hle (fun heq => hne (AssemblyKey.rank_injective heq))

/-! ### Keys that expire -/

/-- The keys of some expired groups are dropped and counted. -/
structure Expires (cfg : AssemblerConfig) (now : ℚ) (s s' : Assembler) (ks : List AssemblyKey) :
    Prop where
  state : s' = { s with groups := s.groups.eraseAll ks, expired := s.expired + ks.length }
  nodup : ks.Nodup
  isExpired : ∀ key ∈ ks, ∃ g, s.groups.get? key = some g ∧ isExpired cfg now g = true

namespace Expires

variable {cfg : AssemblerConfig} {now : ℚ} {s s₁ s₂ : Assembler} {ks more : List AssemblyKey}

lemma refl (cfg : AssemblerConfig) (now : ℚ) (s : Assembler) : Expires cfg now s s [] :=
  ⟨rfl, List.nodup_nil, by simp⟩

lemma mem_keys (h : Expires cfg now s s₁ ks) {key : AssemblyKey} (hkey : key ∈ ks) :
    key ∈ s.groups.keys := by
  obtain ⟨g, hg, -⟩ := h.isExpired key hkey
  exact (Dict.mem_keys_iff _ _).mpr ⟨g, hg⟩

lemma get? (h : Expires cfg now s s₁ ks) (key : AssemblyKey) :
    s₁.groups.get? key = if key ∈ ks then none else s.groups.get? key := by
  rw [h.state, Dict.get?_eraseAll]

lemma size (h : Expires cfg now s s₁ ks) : s₁.groups.size + ks.length = s.groups.size := by
  rw [h.state]
  exact s.groups.size_eraseAll h.nodup (fun key hkey => h.mem_keys hkey)

lemma trans (h₁ : Expires cfg now s s₁ ks) (h₂ : Expires cfg now s₁ s₂ more) :
    Expires cfg now s s₂ (ks ++ more) where
  state := by
    rw [h₂.state, h₁.state, Dict.eraseAll_append, List.length_append]
    simp only [add_assoc]
  nodup := by
    refine List.nodup_append.mpr ⟨h₁.nodup, h₂.nodup, ?_⟩
    rintro key hkey other hother rfl
    obtain ⟨g, hg, -⟩ := h₂.isExpired key hother
    rw [h₁.get?, if_pos hkey] at hg
    cases hg
  isExpired := by
    intro key hkey
    rcases List.mem_append.mp hkey with hkey | hkey
    · exact h₁.isExpired key hkey
    · obtain ⟨g, hg, hexp⟩ := h₂.isExpired key hkey
      rw [h₁.get?] at hg
      split at hg
      · cases hg
      · exact ⟨g, hg, hexp⟩

end Expires

lemma foldl_expireGroup_eq (ks : List AssemblyKey) (s : Assembler) :
    ks.foldl expireGroup s =
      { s with groups := s.groups.eraseAll ks, expired := s.expired + ks.length } := by
  induction ks generalizing s with
  | nil => rfl
  | cons key ks ih =>
    rw [List.foldl_cons, ih, List.length_cons]
    simp only [expireGroup, Dict.eraseAll_cons, add_assoc, add_comm 1]

lemma cleanupExpired_expires (cfg : AssemblerConfig) (s : Assembler) (now : ℚ) :
    Expires cfg now s (cleanupExpired cfg s now).1 (cleanupExpired cfg s now).2 where
  state := foldl_expireGroup_eq _ s
  nodup := by
    have hkeys : ((s.groups.entries.filter (fun e => isExpired cfg now e.2)).map Prod.fst).Nodup :=
      s.groups.nodupKeys.sublist (List.filter_sublist.map Prod.fst)
    exact (sortKeys_perm _).nodup_iff.mpr hkeys
  isExpired key hkey := (mem_expiredKeys cfg s now key).mp hkey

/-- The group of the key is live, or it goes when the feed looks for it. -/
lemma findGroup_cases (cfg : AssemblerConfig) (s : Assembler) (now : ℚ) (key : AssemblyKey) :
    (∃ g, s.groups.get? key = some g ∧ isExpired cfg now g = false ∧
        findGroup cfg s now key = (s, some g, [])) ∨
      ∃ s₁ ks, findGroup cfg s now key = (s₁, none, ks) ∧ Expires cfg now s s₁ ks ∧
        key ∉ s₁.groups.keys ∧ ∀ k ∈ ks, k = key := by
  cases hg : s.groups.get? key with
  | none =>
    refine .inr ⟨s, [], by simp [findGroup, hg], .refl cfg now s, ?_, by simp⟩
    exact (Dict.get?_eq_none_iff _ _).mp hg
  | some g =>
    cases hexp : isExpired cfg now g with
    | false => exact .inl ⟨g, rfl, hexp, by simp [findGroup, hg, hexp]⟩
    | true =>
      refine .inr ⟨s.expireGroup key, [key], by simp [findGroup, hg, hexp], ?_, ?_, by simp⟩
      · exact ⟨rfl, List.nodup_singleton key, by simpa using ⟨g, hg, hexp⟩⟩
      · rw [← Dict.get?_eq_none_iff]
        simp [expireGroup]

/-! ### The victim of the limit -/

/-- The order in which groups are evicted. -/
def victimRank (e : AssemblyKey × AssemblyGroup) : ℚ ×ₗ PyStr ×ₗ PyStr ×ₗ PyStr ×ₗ Nat :=
  toLex (e.2.lastProgressAt, e.1.rank)

lemma victimBefore_iff (e f : AssemblyKey × AssemblyGroup) :
    victimBefore e f = true ↔ victimRank e < victimRank f := by
  have hkey : e.1.le f.1 ∧ e.1 ≠ f.1 ↔ e.1.rank < f.1.rank := by
    rw [lt_iff_le_and_ne, AssemblyKey.le_iff, ne_eq, ne_eq, AssemblyKey.rank_injective.eq_iff]
  rw [victimBefore, decide_eq_true_iff, hkey, victimRank, victimRank, Prod.Lex.toLex_lt_toLex]

/-- `min` returns one of the entries, and none comes before it. -/
lemma victimOf_spec (rest : List (AssemblyKey × AssemblyGroup)) :
    ∀ first : AssemblyKey × AssemblyGroup, victimOf first rest ∈ first :: rest ∧
      ∀ e ∈ first :: rest, victimRank (victimOf first rest) ≤ victimRank e := by
  induction rest with
  | nil => simp [victimOf]
  | cons other rest ih =>
    intro first
    obtain ⟨best, hbest, hbefore⟩ : ∃ best, (if victimBefore other first then other else first) = best ∧
        (best = other ∨ best = first) ∧ victimRank best ≤ victimRank other ∧
        victimRank best ≤ victimRank first := by
      by_cases h : victimBefore other first = true
      · exact ⟨other, if_pos h, .inl rfl, le_rfl, ((victimBefore_iff _ _).mp h).le⟩
      · exact ⟨first, if_neg h, .inr rfl, not_lt.mp (fun hlt => h ((victimBefore_iff _ _).mpr hlt)), le_rfl⟩
    obtain ⟨hmem, hle⟩ := ih best
    have hvictim : victimOf first (other :: rest) = victimOf best rest := by
      rw [← hbest]
      rfl
    have hfirst := hle best (List.mem_cons_self ..)
    rw [hvictim]
    constructor
    · rcases List.mem_cons.mp hmem with heq | hmem
      · rw [heq]
        rcases hbefore.1 with rfl | rfl
        · exact List.mem_cons_of_mem _ (List.mem_cons_self ..)
        · exact List.mem_cons_self ..
      · exact List.mem_cons_of_mem _ (List.mem_cons_of_mem _ hmem)
    · intro e he
      rcases List.mem_cons.mp he with rfl | he
      · exact hfirst.trans hbefore.2.2
      · rcases List.mem_cons.mp he with rfl | he
        · exact hfirst.trans hbefore.2.1
        · exact hle e (List.mem_cons_of_mem _ he)

/-- No group has made its last progress before that of the key, and of those that have made it
at the same time none has a smaller key. -/
def IsOldest (groups : Dict AssemblyKey AssemblyGroup) (key : AssemblyKey) : Prop :=
  ∃ g, groups.get? key = some g ∧ ∀ other h, groups.get? other = some h →
    g.lastProgressAt < h.lastProgressAt ∨
      g.lastProgressAt = h.lastProgressAt ∧ key.rank ≤ other.rank

lemma evictCapacityVictim_oldest {s : Assembler} (hsize : 0 < s.groups.size) :
    ∃ victim, IsOldest s.groups victim ∧
      s.evictCapacityVictim = ({ s with
        groups := s.groups.erase victim, capacityEvicted := s.capacityEvicted + 1 }, .ok victim) := by
  cases hent : s.groups.entries with
  | nil => simp [Dict.size, hent] at hsize
  | cons first rest =>
    obtain ⟨hmem, hle⟩ := victimOf_spec rest first
    refine ⟨(victimOf first rest).1, ⟨(victimOf first rest).2, ?_, ?_⟩, ?_⟩
    · rw [Dict.get?_eq_some_iff, hent]
      exact hmem
    · intro other h hget
      rw [Dict.get?_eq_some_iff, hent] at hget
      have hrank := hle (other, h) hget
      rwa [victimRank, victimRank, Prod.Lex.toLex_le_toLex] at hrank
    · simp [evictCapacityVictim, hent]

/-- There is a place for one more group. -/
def HasRoom (cfg : AssemblerConfig) (s : Assembler) : Prop :=
  ∀ limit, cfg.maxPendingGroups = some limit → s.groups.size < limit

/-- Room is there, or the expired groups go, or all of them and then the oldest of the live ones. -/
lemma makeRoom_cases (cfg : AssemblerConfig) (s : Assembler) (now : ℚ) :
    (∃ s₁ ks cleaned, makeRoom cfg s now = (s₁, .ok (ks, cleaned)) ∧ Expires cfg now s s₁ ks ∧
        HasRoom cfg s₁) ∨
      ∃ s₁ ks victim limit, makeRoom cfg s now = ({ s₁ with
          groups := s₁.groups.erase victim, capacityEvicted := s₁.capacityEvicted + 1 },
          .ok (ks ++ [victim], true)) ∧
        Expires cfg now s s₁ ks ∧
        (∀ key g, s.groups.get? key = some g → isExpired cfg now g = true → key ∈ ks) ∧
        cfg.maxPendingGroups = some limit ∧ limit ≤ s₁.groups.size ∧ IsOldest s₁.groups victim := by
  cases hmax : cfg.maxPendingGroups with
  | none => exact .inl ⟨s, [], false, by simp [makeRoom, hmax], .refl cfg now s, by simp [HasRoom, hmax]⟩
  | some limit =>
    have hroom : ∀ s₁ : Assembler, s₁.groups.size < limit → HasRoom cfg s₁ := by
      intro s₁ hsize other hother
      rw [hmax] at hother
      rwa [← Option.some.inj hother]
    by_cases hsize : s.groups.size < limit
    · exact .inl ⟨s, [], false, by simp [makeRoom, hmax, hsize], .refl cfg now s, hroom s hsize⟩
    · have hclean := cleanupExpired_expires cfg s now
      have hmem := mem_expiredKeys cfg s now
      obtain ⟨s₁, ks, h₁⟩ : ∃ s₁ ks, cleanupExpired cfg s now = (s₁, ks) := ⟨_, _, rfl⟩
      simp only [h₁] at hclean hmem
      by_cases hsize₁ : s₁.groups.size < limit
      · exact .inl ⟨s₁, ks, true, by simp [makeRoom, hmax, hsize, h₁, hsize₁], hclean, hroom s₁ hsize₁⟩
      · have hle := not_lt.mp hsize₁
        obtain ⟨victim, holdest, hevict⟩ := evictCapacityVictim_oldest (lt_of_lt_of_le limit.pos hle)
        refine .inr ⟨s₁, ks, victim, limit, ?_, hclean, ?_, rfl, hle, holdest⟩
        · simp only [makeRoom, hmax, hsize, h₁, hsize₁, hevict, if_false, Except.map]
        · exact fun key g hg hexp => (hmem key).mpr ⟨g, hg, hexp⟩

/-! ### What a feed drops -/

/-- What a feed for a group of the key does to the state, its status and the keys that it drops. -/
inductive FeedCase (cfg : AssemblerConfig) (s : Assembler) (now : ℚ) (key : AssemblyKey) :
    Assembler → AssemblyStatus → List AssemblyKey → Prop where
  | duplicate {s₁ ks} (hkey : key ∈ s.groups.keys) (h : Expires cfg now s s₁ ks) :
      FeedCase cfg s now key (s₁.count .duplicate) .duplicate ks
  | conflict {s₁ ks} (hkey : key ∈ s.groups.keys)
      (h : Expires cfg now { s with groups := s.groups.erase key } s₁ ks) :
      FeedCase cfg s now key (s₁.count .conflict) .conflict (key :: ks)
  | complete (hkey : key ∈ s.groups.keys) :
      FeedCase cfg s now key (({ s with groups := s.groups.erase key } : Assembler).count .complete)
        .complete []
  | progress {g s₁ ks} (hkey : key ∈ s.groups.keys)
      (h : Expires cfg now { s with groups := s.groups.set key g } s₁ ks) (hkeep : key ∉ ks) :
      FeedCase cfg s now key (s₁.updatePeaks.count .pending) .pending ks
  | opened {g s₁ s₂ ks more} (h₁ : Expires cfg now s s₁ ks) (hkey : key ∉ s₁.groups.keys)
      (hroom : HasRoom cfg s₁)
      (h₂ : Expires cfg now { s₁ with
        groups := s₁.groups.set key g, nextGeneration := s₁.nextGeneration + 1 } s₂ more)
      (hkeep : key ∉ more) :
      FeedCase cfg s now key (s₂.updatePeaks.count .pending) .pending (ks ++ more)
  | evicted {g s₁ ks victim limit} (h₁ : Expires cfg now s s₁ ks) (hkey : key ∉ s₁.groups.keys)
      (hswept : ∀ k g, s.groups.get? k = some g → isExpired cfg now g = true → k ∈ ks)
      (hmax : cfg.maxPendingGroups = some limit) (hfull : limit ≤ s₁.groups.size)
      (holdest : IsOldest s₁.groups victim) :
      FeedCase cfg s now key (({ s₁ with
        groups := (s₁.groups.erase victim).set key g
        capacityEvicted := s₁.capacityEvicted + 1
        nextGeneration := s₁.nextGeneration + 1 } : Assembler).updatePeaks.count .pending)
        .pending (ks ++ [victim])

/-- A group that has just made progress is not swept. -/
lemma not_mem_expiredKeys {cfg : AssemblerConfig} (htimeout : 0 < cfg.timeout) {s : Assembler} {now : ℚ}
    {key : AssemblyKey} {g : AssemblyGroup} (hg : s.groups.get? key = some g)
    (hnow : g.lastProgressAt = now) : key ∉ (cleanupExpired cfg s now).2 := by
  rw [mem_expiredKeys, hg]
  rintro ⟨g', hg', hexp⟩
  rw [← Option.some.inj hg', isExpired, decide_eq_true_iff, hnow, sub_self] at hexp
  exact absurd htimeout (not_lt.mpr hexp)

/-- An arrival for a live group. -/
lemma placeFragment_cases {cfg : AssemblerConfig} (htimeout : 0 < cfg.timeout) {s : Assembler} {now : ℚ}
    {key : AssemblyKey} {g : AssemblyGroup} {ordinal : Nat} (text : PyStr)
    (hg : s.groups.get? key = some g)
    (hrange : ∀ o ∈ g.fragmentsByOrdinal.keys, 1 ≤ o ∧ o ≤ key.declaredTotal)
    (ho : 1 ≤ ordinal) (hle : ordinal ≤ key.declaredTotal) :
    ∃ s' out ks, placeFragment cfg s now key g ordinal text [] false = (s', .ok out) ∧
      out.discardedKeys = sortKeys ks ∧ FeedCase cfg s now key s' out.status ks := by
  have hkey : key ∈ s.groups.keys := (Dict.mem_keys_iff _ _).mpr ⟨g, hg⟩
  cases hstored : g.fragmentsByOrdinal.get? ordinal with
  | some stored =>
    by_cases heq : stored = text
    · simp only [placeFragment, hstored, if_pos heq]
      exact ⟨_, _, _, rfl, rfl, .duplicate hkey (cleanupExpired_expires cfg s now)⟩
    · simp only [placeFragment, hstored, if_neg heq]
      exact ⟨_, _, _, rfl, rfl, .conflict hkey (cleanupExpired_expires cfg _ now)⟩
  | none =>
    by_cases hfull : (g.add ordinal text now).receivedCount = key.declaredTotal
    · have hlines := fullLines_ok (AssemblyGroup_add_range text now hrange ho hle) hfull
      simp only [AssemblyGroup.add] at hfull hlines
      simp only [placeFragment, hstored, if_pos hfull, hlines]
      refine ⟨_, _, [], rfl, rfl, ?_⟩
      rw [Dict.erase_set_self]
      exact .complete hkey
    · simp only [AssemblyGroup.add] at hfull
      simp only [placeFragment, hstored, if_neg hfull, Bool.false_eq_true, if_false]
      refine ⟨_, _, _, rfl, rfl, .progress hkey (cleanupExpired_expires cfg _ now) ?_⟩
      rw [List.nil_append]
      exact not_mem_expiredKeys (g := g.add ordinal text now) htimeout
        (by simp [AssemblyGroup.add]) rfl

/-- A fresh group takes its first fragment and waits for the others. -/
lemma placeFragment_fresh {cfg : AssemblerConfig} (s : Assembler) (now : ℚ) {key : AssemblyKey}
    (htotal : key.declaredTotal ≠ 1) (ordinal : Nat) (text : PyStr) (ks : List AssemblyKey)
    (cleaned : Bool) :
    ∃ g out, g.lastProgressAt = now ∧ out.status = .pending ∧
      placeFragment cfg (s.openGroup key now).1 now key (s.openGroup key now).2 ordinal text ks cleaned =
        (let s₁ : Assembler := { s with
          groups := s.groups.set key g, nextGeneration := s.nextGeneration + 1 }
        let swept := if cleaned then (s₁, []) else cleanupExpired cfg s₁ now
        (swept.1.updatePeaks.count .pending, .ok out)) ∧
      out.discardedKeys = sortKeys (ks ++
        (if cleaned then [] else (cleanupExpired cfg { s with
          groups := s.groups.set key g, nextGeneration := s.nextGeneration + 1 } now).2)) := by
  have hone : ¬(1 : Nat) = key.declaredTotal := fun h => htotal h.symm
  have hcount : (AssemblyGroup.mk s.nextGeneration ((Dict.empty).set ordinal text) now).receivedCount = 1 :=
    rfl
  refine ⟨⟨s.nextGeneration, (Dict.empty).set ordinal text, now⟩, ⟨.pending, some key, [], _,
    some s.nextGeneration⟩, rfl, rfl, ?_, rfl⟩
  simp only [placeFragment, openGroup, Dict.get?_empty, Dict.set_set_self, hcount, hone, if_false]
  cases cleaned <;> rfl

/-- Every feed for a group is one of the cases. -/
theorem feed_cases {cfg : AssemblerConfig} (htimeout : 0 < cfg.timeout) {s : Assembler}
    (hs : s.WellFormed) (now : ℚ) (sourceIdentity text : PyStr) {fragment : ParsedFragment}
    (hgrouped : isGrouped cfg fragment = true) :
    ∃ s' out ks, feedValidatedFragment cfg s now sourceIdentity text fragment = (s', .ok out) ∧
      out.discardedKeys = sortKeys ks ∧
      FeedCase cfg s now (keyOf sourceIdentity fragment) s' out.status ks := by
  obtain ⟨key, hkey⟩ : ∃ key, key = keyOf sourceIdentity fragment := ⟨_, rfl⟩
  have htotal : key.declaredTotal = fragment.declaredTotal := by rw [hkey]; rfl
  have ho := fragment.ordinal_pos
  have hle := fragment.ordinal_le
  rw [← htotal] at hle
  simp only [isGrouped, Bool.and_eq_true, bne_iff_ne, ne_eq, Bool.not_eq_true'] at hgrouped
  have hfeed : ∀ {s' group discarded cleaned},
      obtainGroup cfg s now key = (s', .ok (group, discarded, cleaned)) →
        feedValidatedFragment cfg s now sourceIdentity text fragment =
          placeFragment cfg s' now key group fragment.ordinal text discarded cleaned := by
    intro s' group discarded cleaned hobtain
    have hobtain' : obtainGroup cfg s now ⟨sourceIdentity, fragment.sequentialId, fragment.channel,
        fragment.declaredTotal⟩ = (s', .ok (group, discarded, cleaned)) := by
      rw [hkey] at hobtain
      exact hobtain
    simp only [feedValidatedFragment, hgrouped.1, hgrouped.2, if_false, hobtain', hkey]
    rfl
  rw [← hkey]
  rcases findGroup_cases cfg s now key with ⟨g, hg, -, hfind⟩ | ⟨s₁, ks, hfind, h₁, hnone, hown⟩
  · have hobtain : obtainGroup cfg s now key = (s, .ok (g, [], false)) := by
      simp only [obtainGroup, hfind]
    rw [hfeed hobtain]
    exact placeFragment_cases htimeout text hg (hs.groupOk key g hg).ordinals ho hle
  · rcases makeRoom_cases cfg s₁ now with ⟨s₂, ks₂, cleaned, hroom, h₂, hfree⟩ |
      ⟨s₂, ks₂, victim, limit, hroom, h₂, hswept, hmax, hfull, holdest⟩
    · have hobtain : obtainGroup cfg s now key = ((s₂.openGroup key now).1,
          .ok ((s₂.openGroup key now).2, ks ++ ks₂, cleaned)) := by
        simp only [obtainGroup, hfind, hroom]
      obtain ⟨g, out, hnow, hstatus, hplace, hdiscarded⟩ := @placeFragment_fresh cfg s₂ now _
        (by rw [htotal]; exact hgrouped.1) fragment.ordinal text (ks ++ ks₂) cleaned
      have hkey₂ : key ∉ s₂.groups.keys := by
        rw [← Dict.get?_eq_none_iff, h₂.get?]
        split
        · rfl
        · exact (Dict.get?_eq_none_iff _ _).mpr hnone
      rw [hfeed hobtain]
      rw [hplace]
      cases cleaned with
      | true =>
        refine ⟨_, out, ks ++ ks₂ ++ [], rfl, hdiscarded, ?_⟩
        rw [hstatus]
        exact .opened (h₁.trans h₂) hkey₂ hfree (.refl cfg now _) List.not_mem_nil
      | false =>
        refine ⟨_, out, _, rfl, hdiscarded, ?_⟩
        rw [hstatus]
        exact .opened (h₁.trans h₂) hkey₂ hfree (cleanupExpired_expires cfg _ now)
          (not_mem_expiredKeys htimeout (by simp) hnow)
    · obtain ⟨s₃, hs₃⟩ : ∃ s₃, s₃ = { s₂ with
          groups := s₂.groups.erase victim, capacityEvicted := s₂.capacityEvicted + 1 } := ⟨_, rfl⟩
      rw [← hs₃] at hroom
      have hobtain : obtainGroup cfg s now key = ((s₃.openGroup key now).1,
          .ok ((s₃.openGroup key now).2, ks ++ (ks₂ ++ [victim]), true)) := by
        simp only [obtainGroup, hfind, hroom]
      obtain ⟨g, out, hnow, hstatus, hplace, hdiscarded⟩ := @placeFragment_fresh cfg s₃ now _
        (by rw [htotal]; exact hgrouped.1) fragment.ordinal text (ks ++ (ks₂ ++ [victim])) true
      have hkey₂ : key ∉ s₂.groups.keys := by
        rw [← Dict.get?_eq_none_iff, h₂.get?]
        split
        · rfl
        · exact (Dict.get?_eq_none_iff _ _).mpr hnone
      rw [hfeed hobtain]
      rw [hplace]
      rw [if_pos rfl, List.append_nil, ← List.append_assoc] at hdiscarded
      refine ⟨_, out, _, rfl, hdiscarded, ?_⟩
      rw [hstatus, hs₃]
      refine .evicted (h₁.trans h₂) hkey₂ ?_ hmax hfull holdest
      intro k g hg hexp
      rw [List.mem_append]
      by_cases hk : k ∈ ks
      · exact Or.inl hk
      · exact Or.inr (hswept k g (by rw [h₁.get?, if_neg hk, hg]) hexp)

/-! ### The counters -/

/-- The generations that have ended, by what ended them, and those that are still there. -/
def settled (s : Assembler) : Nat :=
  s.outcomeCounts .complete + s.outcomeCounts .conflict + s.expired + s.capacityEvicted +
    s.resetDiscarded + s.groups.size

/-- The limit is kept, every generation opened is accounted for, and the peaks are peaks. -/
structure Accounted (cfg : AssemblerConfig) (s : Assembler) : Prop where
  bounded : ∀ limit, cfg.maxPendingGroups = some limit → s.groups.size ≤ limit
  balanced : s.nextGeneration = s.settled
  peakGroups : s.groups.size ≤ s.peakGroups
  peakFragments : s.currentFragments ≤ s.peakFragments

lemma init_accounted (cfg : AssemblerConfig) : Accounted cfg init where
  bounded _ _ := Nat.zero_le _
  balanced := rfl
  peakGroups := le_rfl
  peakFragments := le_rfl

lemma currentFragments_le {s s' : Assembler} (h : s'.groups.entries.Sublist s.groups.entries) :
    s'.currentFragments ≤ s.currentFragments := by
  unfold currentFragments Dict.values
  exact ((h.map Prod.snd).map AssemblyGroup.receivedCount).sum_le_sum (fun _ _ => Nat.zero_le _)

lemma settled_count (s : Assembler) (status : AssemblyStatus) :
    (s.count status).settled =
      if status = .complete ∨ status = .conflict then s.settled + 1 else s.settled := by
  cases status <;> simp [settled, count] <;> omega

lemma settled_erase {s : Assembler} {key : AssemblyKey} (h : key ∈ s.groups.keys) :
    ({ s with groups := s.groups.erase key } : Assembler).settled + 1 = s.settled := by
  have hsize := s.groups.size_erase_of_mem h
  simp only [settled]
  omega

section Expires

variable {cfg : AssemblerConfig} {now : ℚ} {s s₁ : Assembler} {ks : List AssemblyKey}

lemma Expires.settled (h : Expires cfg now s s₁ ks) : s₁.settled = s.settled := by
  have hsize := h.size
  rw [h.state] at hsize ⊢
  simp only [Assembler.settled] at hsize ⊢
  omega

lemma Expires.nextGeneration (h : Expires cfg now s s₁ ks) : s₁.nextGeneration = s.nextGeneration := by
  rw [h.state]

lemma Expires.size_le (h : Expires cfg now s s₁ ks) : s₁.groups.size ≤ s.groups.size := by
  have hsize := h.size
  omega

lemma Expires.fragments_le (h : Expires cfg now s s₁ ks) : s₁.currentFragments ≤ s.currentFragments := by
  refine currentFragments_le ?_
  rw [h.state]
  exact s.groups.entries_eraseAll_sublist ks

/-- Groups that go spoil no account. -/
lemma Expires.accounted (h : Expires cfg now s s₁ ks) (hs : Accounted cfg s) : Accounted cfg s₁ where
  bounded limit hlimit := h.size_le.trans (hs.bounded limit hlimit)
  balanced := by rw [h.nextGeneration, h.settled, hs.balanced]
  peakGroups := by
    have hpeak := h.size_le.trans hs.peakGroups
    rwa [h.state] at hpeak ⊢
  peakFragments := by
    have hpeak := h.fragments_le.trans hs.peakFragments
    rwa [h.state] at hpeak ⊢

end Expires

/-- A status that ends no generation is only counted. -/
lemma Accounted.count {cfg : AssemblerConfig} {s : Assembler} (h : Accounted cfg s)
    {status : AssemblyStatus} (hcomplete : status ≠ .complete) (hconflict : status ≠ .conflict) :
    Accounted cfg (s.count status) := by
  refine ⟨h.bounded, ?_, h.peakGroups, h.peakFragments⟩
  rw [settled_count, if_neg (by simp [hcomplete, hconflict])]
  exact h.balanced

/-- A generation that is there ends with a status that is counted. -/
lemma Accounted.finish {cfg : AssemblerConfig} {now : ℚ} {s s₁ : Assembler} {key : AssemblyKey}
    {ks : List AssemblyKey} (hs : Accounted cfg s) (hkey : key ∈ s.groups.keys)
    (h : Expires cfg now { s with groups := s.groups.erase key } s₁ ks) {status : AssemblyStatus}
    (hstatus : status = .complete ∨ status = .conflict) : Accounted cfg (s₁.count status) := by
  have herase := settled_erase hkey
  have hsublist := s.groups.entries_erase_sublist key
  have hgroups : s₁.groups.size ≤ s.groups.size := h.size_le.trans hsublist.length_le
  have hfragments : s₁.currentFragments ≤ s.currentFragments :=
    h.fragments_le.trans (currentFragments_le hsublist)
  have hbalanced := hs.balanced
  refine ⟨fun limit hlimit => hgroups.trans (hs.bounded limit hlimit), ?_, ?_, ?_⟩
  · rw [settled_count, if_pos hstatus, h.settled, herase, ← hbalanced]
    exact h.nextGeneration
  · have hpeak := hgroups.trans hs.peakGroups
    rwa [h.state] at hpeak ⊢
  · have hpeak := hfragments.trans hs.peakFragments
    rwa [h.state] at hpeak ⊢

/-- New progress is followed by an update of the peaks. -/
lemma accounted_updatePeaks {cfg : AssemblerConfig} {s : Assembler}
    (hbounded : ∀ limit, cfg.maxPendingGroups = some limit → s.groups.size ≤ limit)
    (hbalanced : s.nextGeneration = s.settled) :
    Accounted cfg (s.updatePeaks.count .pending) := by
  have hpeaks : Accounted cfg s.updatePeaks :=
    ⟨hbounded, hbalanced, le_max_right _ _, le_max_right _ _⟩
  exact hpeaks.count (by simp) (by simp)

theorem FeedCase.accounted {cfg : AssemblerConfig} {s s' : Assembler} {now : ℚ} {key : AssemblyKey}
    {status : AssemblyStatus} {ks : List AssemblyKey} (h : FeedCase cfg s now key s' status ks)
    (hs : Accounted cfg s) : Accounted cfg s' := by
  have hbalanced := hs.balanced
  cases h with
  | duplicate hkey h => exact (h.accounted hs).count (by simp) (by simp)
  | conflict hkey h => exact hs.finish hkey h (.inr rfl)
  | complete hkey => exact hs.finish hkey (.refl cfg now _) (.inl rfl)
  | @progress g s₁ _ hkey h _ =>
    have hsize := s.groups.size_set_of_mem g hkey
    have hset : ({ s with groups := s.groups.set key g } : Assembler).settled = s.settled := by
      simp only [settled, hsize]
    refine accounted_updatePeaks ?_ ?_
    · intro limit hlimit
      exact h.size_le.trans (hsize.le.trans (hs.bounded limit hlimit))
    · rw [h.nextGeneration, h.settled, hset]
      exact hbalanced
  | @opened g s₁ s₂ _ _ h₁ hkey hroom h₂ _ =>
    have hsize := s₁.groups.size_set_of_not_mem g hkey
    have hsettled := h₁.settled
    have hset : ({ s₁ with
        groups := s₁.groups.set key g
        nextGeneration := s₁.nextGeneration + 1 } : Assembler).settled = s₁.settled + 1 := by
      simp only [settled, hsize]
      omega
    refine accounted_updatePeaks ?_ ?_
    · intro limit hlimit
      have hless := hroom limit hlimit
      exact h₂.size_le.trans (hsize.le.trans hless)
    · rw [h₂.nextGeneration, h₂.settled, hset, hsettled, ← hbalanced, ← h₁.nextGeneration]
  | @evicted g s₁ _ victim limit h₁ hkey _ hmax hfull holdest =>
    obtain ⟨gv, hgv, -⟩ := holdest
    have hvictim : victim ∈ s₁.groups.keys := (Dict.mem_keys_iff _ _).mpr ⟨gv, hgv⟩
    have herase := s₁.groups.size_erase_of_mem hvictim
    have hnone : key ∉ (s₁.groups.erase victim).keys := by
      rw [Dict.keys_erase]
      exact fun hmem => hkey (List.mem_of_mem_filter hmem)
    have hsize := (s₁.groups.erase victim).size_set_of_not_mem g hnone
    have hsettled := h₁.settled
    have hnext := h₁.nextGeneration
    refine accounted_updatePeaks ?_ ?_
    · intro other hother
      have hle := h₁.size_le.trans (hs.bounded other hother)
      dsimp only
      omega
    · simp only [settled] at hsettled hbalanced ⊢
      omega

/-! ### The report of a feed -/

/-- The generation that the key had before the call is not there any more. -/
def Dropped (s s' : Assembler) (key : AssemblyKey) : Prop :=
  ∃ g, s.groups.get? key = some g ∧ ∀ g', s'.groups.get? key = some g' → g'.generation ≠ g.generation

/-- The groups that have not expired. -/
def liveEntries (cfg : AssemblerConfig) (now : ℚ) (s : Assembler) :
    List (AssemblyKey × AssemblyGroup) :=
  s.groups.entries.filter (fun e => !isExpired cfg now e.2)

def HasExpired (cfg : AssemblerConfig) (now : ℚ) (s : Assembler) (key : AssemblyKey) : Prop :=
  ∃ g, s.groups.get? key = some g ∧ isExpired cfg now g = true

/-- A live group was evicted: all expired groups went and that did not make room, and no live
group comes before it. -/
structure EvictedOldest (cfg : AssemblerConfig) (now : ℚ) (s : Assembler)
    (discarded : List AssemblyKey) (victim : AssemblyKey) : Prop where
  reported : victim ∈ discarded
  swept : ∀ key, HasExpired cfg now s key → key ∈ discarded
  others : ∀ key ∈ discarded, key ≠ victim → HasExpired cfg now s key
  full : ∃ limit, cfg.maxPendingGroups = some limit ∧ limit ≤ (liveEntries cfg now s).length
  oldest : ∃ g, (victim, g) ∈ liveEntries cfg now s ∧ ∀ e ∈ liveEntries cfg now s,
    g.lastProgressAt < e.2.lastProgressAt ∨
      g.lastProgressAt = e.2.lastProgressAt ∧ victim.rank ≤ e.1.rank

/-- What the outcome of a feed reports of the keys that it dropped. -/
structure Reports (cfg : AssemblerConfig) (now : ℚ) (s s' : Assembler) (out : AssemblyOutcome) :
    Prop where
  sorted : StrictlySorted out.discardedKeys
  exact : ∀ key, key ∈ out.discardedKeys ↔
    Dropped s s' key ∧ ¬(out.status = .complete ∧ out.groupKey = some key)
  silent : out.status ∈ [.complete, .single, .invalid, .limitExceeded] → out.discardedKeys = []
  eviction : (s'.capacityEvicted = s.capacityEvicted ∧ ∀ key ∈ out.discardedKeys,
      HasExpired cfg now s key ∨ out.status = .conflict ∧ out.groupKey = some key) ∨
    (s'.capacityEvicted = s.capacityEvicted + 1 ∧
      ∃ victim, EvictedOldest cfg now s out.discardedKeys victim)

/-- After all expired groups have gone, the live ones are left. -/
lemma entries_of_swept {cfg : AssemblerConfig} {now : ℚ} {s s₁ : Assembler} {ks : List AssemblyKey}
    (h : Expires cfg now s s₁ ks)
    (hswept : ∀ key g, s.groups.get? key = some g → isExpired cfg now g = true → key ∈ ks) :
    s₁.groups.keys = (liveEntries cfg now s).map Prod.fst ∧
      ∀ e, e ∈ liveEntries cfg now s ↔ s₁.groups.get? e.1 = some e.2 := by
  have hlive : ∀ e ∈ s.groups.entries, (decide (e.1 ∉ ks)) = !isExpired cfg now e.2 := by
    intro e he
    have hget : s.groups.get? e.1 = some e.2 := (Dict.get?_eq_some_iff _ _ _).mpr he
    cases hexp : isExpired cfg now e.2 with
    | true => simp [hswept e.1 e.2 hget hexp]
    | false =>
      have hkeep : e.1 ∉ ks := by
        intro hmem
        obtain ⟨g, hg, hg'⟩ := h.isExpired e.1 hmem
        rw [hget] at hg
        rw [← Option.some.inj hg, hexp] at hg'
        cases hg'
      simp [hkeep]
  constructor
  · rw [h.state]
    change (s.groups.eraseAll ks).keys = _
    rw [Dict.keys_eraseAll, Dict.keys, List.filter_map, liveEntries]
    exact congrArg (List.map Prod.fst) (List.filter_congr hlive)
  · intro e
    rw [liveEntries, List.mem_filter, h.get?]
    constructor
    · rintro ⟨he, hexp⟩
      rw [← hlive e he, decide_eq_true_iff] at hexp
      rw [if_neg hexp]
      exact (Dict.get?_eq_some_iff _ _ _).mpr he
    · intro hget
      split at hget
      · cases hget
      · rename_i hkeep
        have he : e ∈ s.groups.entries := (Dict.get?_eq_some_iff _ _ _).mp hget
        exact ⟨he, by rw [← hlive e he]; exact decide_eq_true hkeep⟩

lemma FeedCase.nodup {cfg : AssemblerConfig} {s s' : Assembler} {now : ℚ} {key : AssemblyKey}
    {status : AssemblyStatus} {ks : List AssemblyKey} (h : FeedCase cfg s now key s' status ks) :
    ks.Nodup := by
  cases h with
  | duplicate hkey h => exact h.nodup
  | conflict hkey h =>
    refine List.nodup_cons.mpr ⟨?_, h.nodup⟩
    intro hmem
    obtain ⟨g, hg, -⟩ := h.isExpired key hmem
    simp at hg
  | complete hkey => exact List.nodup_nil
  | progress hkey h hkeep => exact h.nodup
  | opened h₁ hkey hroom h₂ hkeep =>
    refine List.nodup_append.mpr ⟨h₁.nodup, h₂.nodup, ?_⟩
    rintro k hk other hother rfl
    obtain ⟨g, hg, -⟩ := h₂.isExpired k hother
    rw [Dict.get?_set] at hg
    split at hg
    · rename_i heq
      exact hkeep (heq ▸ hother)
    · rw [h₁.get?, if_pos hk] at hg
      cases hg
  | evicted h₁ hkey hswept hmax hfull holdest =>
    obtain ⟨g, hg, -⟩ := holdest
    refine List.nodup_append.mpr ⟨h₁.nodup, List.nodup_singleton _, ?_⟩
    rintro k hk other hother rfl
    rw [List.mem_singleton.mp hother] at hk
    rw [h₁.get?, if_pos hk] at hg
    cases hg

lemma FeedCase.silent {cfg : AssemblerConfig} {s s' : Assembler} {now : ℚ} {key : AssemblyKey}
    {status : AssemblyStatus} {ks : List AssemblyKey} (h : FeedCase cfg s now key s' status ks)
    (hstatus : status ∈ [.complete, .single, .invalid, .limitExceeded]) : ks = [] := by
  cases h with
  | complete hkey => rfl
  | _ => simp at hstatus

lemma FeedCase.eviction {cfg : AssemblerConfig} {s s' : Assembler} {now : ℚ} {key : AssemblyKey}
    {status : AssemblyStatus} {ks : List AssemblyKey} (h : FeedCase cfg s now key s' status ks) :
    (s'.capacityEvicted = s.capacityEvicted ∧
        ∀ k ∈ ks, HasExpired cfg now s k ∨ status = .conflict ∧ k = key) ∨
      (s'.capacityEvicted = s.capacityEvicted + 1 ∧ ∃ victim, EvictedOldest cfg now s ks victim) := by
  cases h with
  | duplicate hkey h =>
    refine .inl ⟨by rw [h.state]; rfl, ?_⟩
    intro k hk
    exact .inl (h.isExpired k hk)
  | conflict hkey h =>
    refine .inl ⟨by rw [h.state]; rfl, ?_⟩
    intro k hk
    rcases List.mem_cons.mp hk with heq | hk
    · exact .inr ⟨rfl, heq⟩
    · obtain ⟨g, hg, hexp⟩ := h.isExpired k hk
      rw [Dict.get?_erase] at hg
      split at hg
      · cases hg
      · exact .inl ⟨g, hg, hexp⟩
  | complete hkey => exact .inl ⟨rfl, by simp⟩
  | progress hkey h hkeep =>
    refine .inl ⟨by rw [h.state]; rfl, ?_⟩
    intro k hk
    obtain ⟨g, hg, hexp⟩ := h.isExpired k hk
    rw [Dict.get?_set] at hg
    split at hg
    · rename_i heq
      exact absurd (heq ▸ hk) hkeep
    · exact .inl ⟨g, hg, hexp⟩
  | opened h₁ hkey hroom h₂ hkeep =>
    refine .inl ⟨by rw [h₂.state, h₁.state]; rfl, ?_⟩
    intro k hk
    rcases List.mem_append.mp hk with hk | hk
    · exact .inl (h₁.isExpired k hk)
    · obtain ⟨g, hg, hexp⟩ := h₂.isExpired k hk
      rw [Dict.get?_set] at hg
      split at hg
      · rename_i heq
        exact absurd (heq ▸ hk) hkeep
      · rw [h₁.get?] at hg
        split at hg
        · cases hg
        · exact .inl ⟨g, hg, hexp⟩
  | @evicted _ s₁ ks victim limit h₁ hkey hswept hmax hfull holdest =>
    obtain ⟨hkeys, hentries⟩ := entries_of_swept h₁ hswept
    obtain ⟨g, hg, hbefore⟩ := holdest
    refine .inr ⟨by rw [h₁.state]; rfl, victim, ?_, ?_, ?_, ⟨limit, hmax, ?_⟩, g,
      (hentries (victim, g)).mpr hg, ?_⟩
    · exact List.mem_append_right _ (List.mem_singleton.mpr rfl)
    · rintro k ⟨g', hg', hexp⟩
      exact List.mem_append_left _ (hswept k g' hg' hexp)
    · intro k hk hne
      rcases List.mem_append.mp hk with hk | hk
      · exact h₁.isExpired k hk
      · exact absurd (List.mem_singleton.mp hk) hne
    · have hlength := congrArg List.length hkeys
      rw [Dict.length_keys, List.length_map] at hlength
      rwa [← hlength]
    · intro e he
      exact hbefore e.1 e.2 ((hentries e).mp he)

lemma EvictedOldest.congr {cfg : AssemblerConfig} {now : ℚ} {s : Assembler} {ks ks' : List AssemblyKey}
    {victim : AssemblyKey} (h : EvictedOldest cfg now s ks victim) (hks : ∀ key, key ∈ ks' ↔ key ∈ ks) :
    EvictedOldest cfg now s ks' victim where
  reported := (hks victim).mpr h.reported
  swept key hkey := (hks key).mpr (h.swept key hkey)
  others key hkey hne := h.others key ((hks key).mp hkey) hne
  full := h.full
  oldest := h.oldest

/-- What an arrival does to the group of its key. -/
lemma placeStep_cases (total : Nat) (now : ℚ) (ordinal : Nat) (text : PyStr) (g : AssemblyGroup) :
    let r := placeStep total now ordinal text g
    (r.status = .conflict ∧ r.group = none ∧ g.fragmentsByOrdinal.get? ordinal ≠ none) ∨
      (r.status = .complete ∧ r.group = none) ∨
      (r.status ≠ .conflict ∧ r.status ≠ .complete ∧
        ∃ g', r.group = some g' ∧ g'.generation = g.generation) := by
  intro r
  cases hstored : g.fragmentsByOrdinal.get? ordinal with
  | some stored =>
    by_cases heq : stored = text
    · exact .inr (.inr (by simp [r, placeStep, hstored, heq]))
    · exact .inl (by simp [r, placeStep, hstored, heq])
  | none =>
    by_cases hfull : (g.add ordinal text now).receivedCount = total
    · exact .inr (.inl (by simp [r, placeStep, hstored, hfull]))
    · refine .inr (.inr ⟨?_, ?_, g.add ordinal text now, ?_, rfl⟩)
      · simp [r, placeStep, hstored, hfull]
      · simp [r, placeStep, hstored, hfull]
      · simp [r, placeStep, hstored, hfull]

/-- The keys reported are those whose generation went in another way than by completion. -/
lemma FeedSpec.exact {cfg : AssemblerConfig} {s s' : Assembler} {now : ℚ} {key : AssemblyKey}
    {ordinal : Nat} {text : PyStr} {out : AssemblyOutcome}
    (h : FeedSpec cfg s now key ordinal text s' out) (hs : s.WellFormed)
    (hsilent : out.status = .complete → out.discardedKeys = []) (k : AssemblyKey) :
    k ∈ out.discardedKeys ↔ Dropped s s' k ∧ ¬(out.status = .complete ∧ out.groupKey = some k) := by
  by_cases hne : k = key
  · subst hne
    have hstep := placeStep_cases k.declaredTotal now ordinal text
      ((liveGroup cfg now (s.groups.get? k)).getD ⟨s.nextGeneration, .empty, now⟩)
    rw [← groupStep] at hstep
    dsimp only at hstep
    rw [h.status, h.group] at hstep
    rw [h.groupKey]
    cases hlive : liveGroup cfg now (s.groups.get? k) with
    | some g =>
      obtain ⟨hg, hexp⟩ := liveGroup_eq_some.mp hlive
      have hown : k ∈ out.discardedKeys ↔ out.status = .conflict := by
        rw [h.own]
        simp [hg, hexp]
      rw [hlive, Option.getD_some] at hstep
      rw [hown]
      rcases hstep with ⟨hstatus, hnone, -⟩ | ⟨hstatus, hnone⟩ | ⟨hconflict, hcomplete, g', hg', hgen⟩
      · simp [hstatus, Dropped, hg, hnone]
      · simp [hstatus]
      · simp [hconflict, Dropped, hg, hg', hgen]
    | none =>
      rw [hlive, Option.getD_none] at hstep
      have hown : k ∈ out.discardedKeys ↔ HasExpired cfg now s k := by
        rw [h.own]
        constructor
        · rintro (hexp | hconflict)
          · exact hexp
          · rcases hstep with ⟨-, -, hne⟩ | ⟨hstatus, -⟩ | ⟨hne, -⟩
            · exact absurd (Dict.get?_empty _) hne
            · rw [hconflict] at hstatus
              cases hstatus
            · exact absurd hconflict hne
        · exact Or.inl
      rw [hown]
      constructor
      · intro hexpired
        have hincomplete : out.status ≠ .complete := by
          intro hcomplete
          have hmem := hown.mpr hexpired
          rw [hsilent hcomplete] at hmem
          cases hmem
        obtain ⟨g, hg, -⟩ := hexpired
        refine ⟨⟨g, hg, ?_⟩, fun hcomplete => hincomplete hcomplete.1⟩
        intro g' hg'
        have hold := hs.number_lt k g hg
        rcases hstep with ⟨-, hnone, -⟩ | ⟨-, hnone⟩ | ⟨-, -, g'', hg'', hgen⟩
        · rw [hnone] at hg'
          cases hg'
        · rw [hnone] at hg'
          cases hg'
        · rw [hg''] at hg'
          rw [← Option.some.inj hg', hgen]
          exact hold.ne'
      · rintro ⟨⟨g, hg, -⟩, -⟩
        refine ⟨g, hg, ?_⟩
        by_contra hexp
        simp [liveGroup, hg, hexp] at hlive
  · have hother : ¬(out.status = .complete ∧ out.groupKey = some k) := by
      rw [h.groupKey]
      rintro ⟨-, heq⟩
      exact hne (Option.some.inj heq).symm
    rcases h.others k hne with ⟨hkept, hmem⟩ | ⟨g, hg, hnone, hmem, -⟩
    · have hstays : ¬Dropped s s' k := by
        rintro ⟨g, hg, hgone⟩
        exact hgone g (by rw [hkept, hg]) rfl
      simp [hmem, hstays]
    · have hgone : Dropped s s' k := ⟨g, hg, by simp [hnone]⟩
      simp [hmem, hgone, hother]

/-! ### Runs -/

/-- A call that feeds no group: it only counts, raises, sweeps or resets. -/
lemma quiet_cases {cfg : AssemblerConfig} {s : Assembler} {now : ℚ} {call : AssemblerCall}
    (h : call.groupFeed cfg = none) :
    (∃ status out, status ∈ [.invalid, .single, .limitExceeded] ∧
        call.apply cfg s now = (s.count status, .outcome out) ∧ out.status = status ∧
        out.discardedKeys = []) ∨
      (∃ e, call.apply cfg s now = (s, .raised e)) ∨
      (∃ ks, call.apply cfg s now = ((cleanupExpired cfg s now).1, .discarded ks)) ∨
      ∃ ks, call.apply cfg s now = (s.reset.1, .discarded ks) := by
  cases hfed : call.fed with
  | some fed =>
    obtain ⟨sourceIdentity, text, fragment⟩ := fed
    have hgrouped : isGrouped cfg fragment = false := by
      simpa [AssemblerCall.groupFeed, hfed] using h
    obtain ⟨status, sentences, hstatus, hrun⟩ := feed_ungrouped sourceIdentity text hgrouped
    refine .inl ⟨status, { status := status, sentences := sentences }, ?_, ?_, rfl, rfl⟩
    · rcases hstatus with ⟨rfl, -⟩ | ⟨rfl, -⟩
      · simp
      · simp
    · rw [apply_of_fed hfed, hrun]
      rfl
  | none =>
    cases call with
    | feedOutcome sourceIdentity line =>
      have hparse : parseFragment line = none := by simpa [AssemblerCall.fed] using hfed
      refine .inl ⟨.invalid, { status := .invalid }, by simp, ?_, rfl, rfl⟩
      simp only [AssemblerCall.apply, feedOutcome_eq, hparse, CallResult.of]
    | feedParsedOutcome parsed =>
      cases hfrag : parsed.fragment with
      | none =>
        refine .inl ⟨.invalid, { status := .invalid }, by simp, ?_, rfl, rfl⟩
        simp only [AssemblerCall.apply, Assembler.feedParsedOutcome, hfrag, CallResult.of]
      | some fragment =>
        cases htext : parsed.text with
        | ok text => simp [AssemblerCall.fed, hfrag, htext, Except.toOption] at hfed
        | error e =>
          refine .inr (.inl ⟨e, ?_⟩)
          simp only [AssemblerCall.apply, Assembler.feedParsedOutcome, hfrag, htext, CallResult.of]
    | cleanupExpired => exact .inr (.inr (.inl ⟨_, rfl⟩))
    | reset => exact .inr (.inr (.inr ⟨_, rfl⟩))

lemma reset_accounted {cfg : AssemblerConfig} {s : Assembler} (hs : Accounted cfg s) :
    Accounted cfg s.reset.1 where
  bounded _ _ := Nat.zero_le _
  balanced := by
    have hbalanced := hs.balanced
    have hlength : (sortKeys s.groups.keys).length = s.groups.size := by
      rw [(sortKeys_perm _).length_eq, Dict.length_keys]
    simp only [settled, reset, hlength, Dict.size_empty] at hbalanced ⊢
    omega
  peakGroups := Nat.zero_le _
  peakFragments := Nat.zero_le _

/-- The call that feeds a group, with what it does and what it reports. -/
lemma apply_grouped {cfg : AssemblerConfig} (htimeout : 0 < cfg.timeout) {s : Assembler}
    (hs : s.WellFormed) (now : ℚ) {call : AssemblerCall} {key : AssemblyKey} {ordinal : Nat}
    {text : PyStr} (h : call.groupFeed cfg = some (key, ordinal, text)) :
    ∃ s' out ks, call.apply cfg s now = (s', .outcome out) ∧
      FeedSpec cfg s now key ordinal text s' out ∧ out.discardedKeys = sortKeys ks ∧
      FeedCase cfg s now key s' out.status ks := by
  cases hfed : call.fed with
  | none => simp [AssemblerCall.groupFeed, hfed] at h
  | some fed =>
    obtain ⟨sourceIdentity, text', fragment⟩ := fed
    simp only [AssemblerCall.groupFeed, hfed] at h
    split at h
    · rename_i hgrouped
      cases h
      obtain ⟨s', out, hrun, hspec⟩ := feed_grouped htimeout hs now sourceIdentity text hgrouped
      obtain ⟨s'', out', ks, hrun', hdiscarded, hcase⟩ :=
        feed_cases htimeout hs now sourceIdentity text hgrouped
      rw [hrun] at hrun'
      cases hrun'
      refine ⟨s', out, ks, ?_, hspec, hdiscarded, hcase⟩
      rw [apply_of_fed hfed, hrun]
      rfl
    · cases h

theorem apply_accounted {cfg : AssemblerConfig} (htimeout : 0 < cfg.timeout) {s : Assembler}
    (hs : s.WellFormed) (h : Accounted cfg s) (now : ℚ) (call : AssemblerCall) :
    Accounted cfg (call.apply cfg s now).1 := by
  cases hfeed : call.groupFeed cfg with
  | some fed =>
    obtain ⟨key, ordinal, text⟩ := fed
    obtain ⟨s', out, ks, hrun, -, -, hcase⟩ := apply_grouped htimeout hs now hfeed
    rw [hrun]
    exact hcase.accounted h
  | none =>
    rcases @quiet_cases _ s now _ hfeed with ⟨status, out, hstatus, hrun, -⟩ | ⟨e, hrun⟩ |
      ⟨ks, hrun⟩ | ⟨ks, hrun⟩
    · rw [hrun]
      refine h.count ?_ ?_
      · rintro rfl
        simp at hstatus
      · rintro rfl
        simp at hstatus
    · rw [hrun]
      exact h
    · rw [hrun]
      exact (cleanupExpired_expires cfg s now).accounted h
    · rw [hrun]
      exact reset_accounted h

lemma finalState_accounted {cfg : AssemblerConfig} (htimeout : 0 < cfg.timeout) {s : Assembler}
    (hs : s.WellFormed) (h : Accounted cfg s) (calls : List (ℚ × AssemblerCall)) :
    (finalState cfg s calls).WellFormed ∧ Accounted cfg (finalState cfg s calls) := by
  induction calls generalizing s with
  | nil => exact ⟨hs, h⟩
  | cons c calls ih =>
    exact ih (apply_wellFormed htimeout hs c.1 c.2) (apply_accounted htimeout hs h c.1 c.2)

/-- The report of a call that feeds, from a state of a run. -/
lemma apply_reports {cfg : AssemblerConfig} (htimeout : 0 < cfg.timeout) {s : Assembler}
    (hs : s.WellFormed) (now : ℚ) (call : AssemblerCall) {out : AssemblyOutcome}
    (hout : (call.apply cfg s now).2 = .outcome out) :
    Reports cfg now s (call.apply cfg s now).1 out := by
  cases hfeed : call.groupFeed cfg with
  | some fed =>
    obtain ⟨key, ordinal, text⟩ := fed
    obtain ⟨s', out', ks, hrun, hspec, hdiscarded, hcase⟩ := apply_grouped htimeout hs now hfeed
    rw [hrun] at hout ⊢
    cases hout
    have hmem : ∀ k, k ∈ out.discardedKeys ↔ k ∈ ks := by
      intro k
      rw [hdiscarded, mem_sortKeys]
    have hsilent : out.status ∈ [.complete, .single, .invalid, .limitExceeded] →
        out.discardedKeys = [] := by
      intro hstatus
      rw [hdiscarded, hcase.silent hstatus]
      rfl
    refine ⟨?_, hspec.exact hs (fun hcomplete => hsilent (by simp [hcomplete])), hsilent, ?_⟩
    · rw [hdiscarded]
      exact sortKeys_strictlySorted hcase.nodup
    · rcases hcase.eviction with ⟨hsame, hall⟩ | ⟨hmore, victim, hvictim⟩
      · refine .inl ⟨hsame, ?_⟩
        intro k hk
        rcases hall k ((hmem k).mp hk) with hexp | ⟨hconflict, heq⟩
        · exact .inl hexp
        · exact .inr ⟨hconflict, by rw [hspec.groupKey, heq]⟩
      · exact .inr ⟨hmore, victim, hvictim.congr hmem⟩
  | none =>
    rcases @quiet_cases _ s now _ hfeed with ⟨status, out', hstatus, hrun, -, hnone⟩ |
      ⟨e, hrun⟩ | ⟨ks, hrun⟩ | ⟨ks, hrun⟩
    · rw [hrun] at hout ⊢
      cases hout
      refine ⟨?_, ?_, fun _ => hnone, .inl ⟨rfl, by simp [hnone]⟩⟩
      · rw [hnone]
        exact List.Pairwise.nil
      · intro k
        have hstays : ¬Dropped s (s.count status) k := by
          rintro ⟨g, hg, hgone⟩
          exact hgone g hg rfl
        simp [hnone, hstays]
    · rw [hrun] at hout
      cases hout
    · rw [hrun] at hout
      cases hout
    · rw [hrun] at hout
      cases hout

/-- After every run the limit is kept, every generation that was opened is accounted for and the
peaks are not below the current values, and the next feed reports exactly the keys whose
generation it drops. -/
theorem assembler_accounts (cfg : AssemblerConfig) (htimeout : 0 < cfg.timeout)
    (calls : List (ℚ × AssemblerCall)) :
    let s := finalState cfg init calls
    ((∀ limit, cfg.maxPendingGroups = some limit → s.groups.size ≤ limit) ∧
      s.nextGeneration = s.outcomeCounts .complete + s.outcomeCounts .conflict + s.expired +
        s.capacityEvicted + s.resetDiscarded + s.groups.size ∧
      s.groups.size ≤ s.peakGroups ∧ s.currentFragments ≤ s.peakFragments) ∧
    ∀ now call out, (AssemblerCall.apply cfg s now call).2 = .outcome out →
      Reports cfg now s (AssemblerCall.apply cfg s now call).1 out := by
  intro s
  obtain ⟨hs, haccounted⟩ := finalState_accounted htimeout init_wellFormed (init_accounted cfg) calls
  refine ⟨⟨haccounted.bounded, haccounted.balanced, haccounted.peakGroups,
    haccounted.peakFragments⟩, ?_⟩
  intro now call out hout
  exact apply_reports htimeout hs now call hout

theorem assembler_accounts_twoSources :
    let s := finalState ⟨60, none, some 1⟩ init twoSources
    s.groups.size ≤ 1 ∧
      s.nextGeneration = s.outcomeCounts .complete + s.outcomeCounts .conflict + s.expired +
        s.capacityEvicted + s.resetDiscarded + s.groups.size := by
  have h := assembler_accounts ⟨60, none, some 1⟩ (by decide +kernel) twoSources
  exact ⟨h.1.1 1 rfl, h.1.2.1⟩

end Assembler

end AisMixer

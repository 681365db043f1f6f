import AisMixer.DataPlane.Assembler

/-!
# What one feed of the assembler can do

`groupStep` is the life of one group on its own. A feed takes the group of its key through
`groupStep`, and leaves the group of any other key alone or drops it because it has expired or
because room was needed.
-/

namespace AisMixer
open Library

/-- A group with one more fragment. -/
def AssemblyGroup.add (g : AssemblyGroup) (ordinal : Nat) (text : PyStr) (now : ℚ) : AssemblyGroup :=
  { g with fragmentsByOrdinal := g.fragmentsByOrdinal.set ordinal text, lastProgressAt := now }

namespace Assembler

/-- The group of a key that has not expired. -/
def liveGroup (cfg : AssemblerConfig) (now : ℚ) (group : Option AssemblyGroup) :
    Option AssemblyGroup :=
  group.filter (fun g => !isExpired cfg now g)

structure GroupResult where
  group : Option AssemblyGroup
  status : AssemblyStatus
  sentences : List PyStr
  generation : Nat

/-- The texts of the ordinals from one to the total. -/
def linesOf (fragments : Dict Nat PyStr) (total : Nat) : List PyStr :=
  (List.range total).filterMap (fun i => fragments.get? (i + 1))

/-- One arrival for a group that is there. -/
def placeStep (total : Nat) (now : ℚ) (ordinal : Nat) (text : PyStr) (g : AssemblyGroup) :
    GroupResult :=
  match g.fragmentsByOrdinal.get? ordinal with
  | some stored =>
    if stored = text then ⟨some g, .duplicate, [], g.generation⟩
    else ⟨none, .conflict, [], g.generation⟩
  | none =>
    let g' := g.add ordinal text now
    if g'.receivedCount = total then
      ⟨none, .complete, linesOf g'.fragmentsByOrdinal total, g.generation⟩
    else ⟨some g', .pending, [], g.generation⟩

/-- One arrival for a key whose group is alone; `number` is the identity of a fresh group. -/
def groupStep (cfg : AssemblerConfig) (total number : Nat) (now : ℚ) (ordinal : Nat) (text : PyStr)
    (group : Option AssemblyGroup) : GroupResult :=
  placeStep total now ordinal text ((liveGroup cfg now group).getD ⟨number, .empty, now⟩)

/-- A group that waits for a fragment: its ordinals are in range and not all there. -/
structure GroupOk (key : AssemblyKey) (g : AssemblyGroup) : Prop where
  ordinals : ∀ o ∈ g.fragmentsByOrdinal.keys, 1 ≤ o ∧ o ≤ key.declaredTotal
  pos : 1 ≤ g.receivedCount
  lt_total : g.receivedCount < key.declaredTotal

structure WellFormed (s : Assembler) : Prop where
  groupOk : ∀ key g, s.groups.get? key = some g → GroupOk key g
  number_lt : ∀ key g, s.groups.get? key = some g → g.generation < s.nextGeneration
  number_inj : ∀ key key' g g', s.groups.get? key = some g → s.groups.get? key' = some g' →
    g.generation = g'.generation → key = key'

lemma init_wellFormed : init.WellFormed := by
  constructor <;> simp [init]

/-- Invariants pass to a state whose groups are among those of another. -/
lemma WellFormed.mono {s s' : Assembler} (hs : s.WellFormed)
    (hgroups : ∀ key g, s'.groups.get? key = some g → s.groups.get? key = some g)
    (hnext : s.nextGeneration ≤ s'.nextGeneration) : s'.WellFormed where
  groupOk key g h := hs.groupOk key g (hgroups key g h)
  number_lt key g h := lt_of_lt_of_le (hs.number_lt key g (hgroups key g h)) hnext
  number_inj key key' g g' h h' heq :=
    hs.number_inj key key' g g' (hgroups key g h) (hgroups key' g' h') heq

/-! ### Cleanup and reset -/

lemma mem_sortKeys {key : AssemblyKey} {ks : List AssemblyKey} : key ∈ sortKeys ks ↔ key ∈ ks :=
  (List.perm_insertionSort _ ks).mem_iff

lemma foldl_expireGroup (ks : List AssemblyKey) (s : Assembler) :
    (ks.foldl expireGroup s).groups = s.groups.eraseAll ks ∧
      (ks.foldl expireGroup s).nextGeneration = s.nextGeneration := by
  induction ks generalizing s with
  | nil => exact ⟨rfl, rfl⟩
  | cons key ks ih => exact ih (s.expireGroup key)

lemma mem_expiredKeys (cfg : AssemblerConfig) (s : Assembler) (now : ℚ) (key : AssemblyKey) :
    key ∈ (cleanupExpired cfg s now).2 ↔
      ∃ g, s.groups.get? key = some g ∧ isExpired cfg now g = true := by
  simp only [cleanupExpired, mem_sortKeys, List.mem_map, List.mem_filter, Dict.get?_eq_some_iff]
  constructor
  · rintro ⟨⟨k, g⟩, ⟨hmem, hexp⟩, rfl⟩
    exact ⟨g, hmem, hexp⟩
  · rintro ⟨g, hmem, hexp⟩
    exact ⟨(key, g), ⟨hmem, hexp⟩, rfl⟩

/-- Cleanup leaves exactly the live groups. -/
lemma cleanupExpired_get? (cfg : AssemblerConfig) (s : Assembler) (now : ℚ) (key : AssemblyKey) :
    (cleanupExpired cfg s now).1.groups.get? key = liveGroup cfg now (s.groups.get? key) := by
  have hmem := mem_expiredKeys cfg s now key
  simp only [cleanupExpired, foldl_expireGroup, Dict.get?_eraseAll] at hmem ⊢
  cases hg : s.groups.get? key with
  | none => simp [liveGroup]
  | some g =>
    simp only [hg, Option.some.injEq, exists_eq_left'] at hmem
    by_cases hexp : isExpired cfg now g = true
    · rw [if_pos (hmem.mpr hexp)]
      simp [liveGroup, Option.filter, hexp]
    · rw [if_neg (fun h => hexp (hmem.mp h))]
      simp [liveGroup, Option.filter, hexp]

lemma cleanupExpired_nextGeneration (cfg : AssemblerConfig) (s : Assembler) (now : ℚ) :
    (cleanupExpired cfg s now).1.nextGeneration = s.nextGeneration :=
  (foldl_expireGroup _ s).2

lemma liveGroup_eq_some {cfg : AssemblerConfig} {now : ℚ} {group : Option AssemblyGroup}
    {g : AssemblyGroup} :
    liveGroup cfg now group = some g ↔ group = some g ∧ isExpired cfg now g = false := by
  simp [liveGroup, Option.filter_eq_some_iff]

/-- What happens to a key that a step is not about: its group stays, or it is reported as
discarded, having expired or made room. -/
def KeptOrDropped (cfg : AssemblerConfig) (now : ℚ) (s s' : Assembler) (discarded : List AssemblyKey)
    (key : AssemblyKey) : Prop :=
  (s'.groups.get? key = s.groups.get? key ∧ key ∉ discarded) ∨
    ∃ g, s.groups.get? key = some g ∧ s'.groups.get? key = none ∧ key ∈ discarded ∧
      (isExpired cfg now g = true ∨ cfg.maxPendingGroups.isSome = true)

lemma KeptOrDropped.trans {cfg : AssemblerConfig} {now : ℚ} {s s₁ s₂ : Assembler}
    {ks₁ ks₂ : List AssemblyKey} {key : AssemblyKey} (h₁ : KeptOrDropped cfg now s s₁ ks₁ key)
    (h₂ : KeptOrDropped cfg now s₁ s₂ ks₂ key) : KeptOrDropped cfg now s s₂ (ks₁ ++ ks₂) key := by
  simp only [KeptOrDropped, List.mem_append] at h₁ h₂ ⊢
  rcases h₁ with ⟨heq, hk₁⟩ | ⟨g, hg, hnone, hk₁, hwhy⟩
  · rw [heq] at h₂
    rcases h₂ with ⟨heq₂, hk₂⟩ | ⟨g, hg, hnone, hk₂, hwhy⟩
    · exact .inl ⟨heq₂, by tauto⟩
    · exact .inr ⟨g, hg, hnone, .inr hk₂, hwhy⟩
  · refine .inr ⟨g, hg, ?_, .inl hk₁, hwhy⟩
    rcases h₂ with ⟨heq₂, -⟩ | ⟨g', -, hnone₂, -, -⟩
    · rw [heq₂, hnone]
    · exact hnone₂

lemma KeptOrDropped.refl {cfg : AssemblerConfig} {now : ℚ} {s s' : Assembler} {key : AssemblyKey}
    (h : s'.groups.get? key = s.groups.get? key) : KeptOrDropped cfg now s s' [] key :=
  .inl ⟨h, by simp⟩

lemma KeptOrDropped.congr {cfg : AssemblerConfig} {now : ℚ} {s s' : Assembler}
    {ks ks' : List AssemblyKey} {key : AssemblyKey} (h : KeptOrDropped cfg now s s' ks key)
    (hks : key ∈ ks' ↔ key ∈ ks) : KeptOrDropped cfg now s s' ks' key := by
  simpa only [KeptOrDropped, hks] using h

lemma KeptOrDropped.sub {cfg : AssemblerConfig} {now : ℚ} {s s' : Assembler}
    {ks : List AssemblyKey} {key : AssemblyKey} (h : KeptOrDropped cfg now s s' ks key)
    {g : AssemblyGroup} (hg : s'.groups.get? key = some g) : s.groups.get? key = some g := by
  rcases h with ⟨heq, -⟩ | ⟨-, -, hnone, -⟩
  · rw [← heq, hg]
  · rw [hnone] at hg
    cases hg

lemma cleanupExpired_keptOrDropped (cfg : AssemblerConfig) (s : Assembler) (now : ℚ)
    (key : AssemblyKey) :
    KeptOrDropped cfg now s (cleanupExpired cfg s now).1 (cleanupExpired cfg s now).2 key := by
  rw [KeptOrDropped, mem_expiredKeys, cleanupExpired_get?]
  cases hg : s.groups.get? key with
  | none => left; simp [liveGroup]
  | some g =>
    by_cases hexp : isExpired cfg now g = true
    · right; simp [liveGroup, hexp]
    · left; simp [liveGroup, hexp]

/-! ### Room for a group -/

lemma evictCapacityVictim_ok {s : Assembler} (hsize : 0 < s.groups.size) :
    ∃ victim, victim ∈ s.groups.keys ∧
      s.evictCapacityVictim = ({ s with
        groups := s.groups.erase victim, capacityEvicted := s.capacityEvicted + 1 }, .ok victim) := by
  have hfold : ∀ (rest : List (AssemblyKey × AssemblyGroup)) (first : AssemblyKey × AssemblyGroup),
      victimOf first rest ∈ first :: rest := by
    intro rest
    induction rest with
    | nil => simp [victimOf]
    | cons e rest ih =>
      intro first
      simp only [victimOf, List.foldl_cons]
      split
      · exact List.mem_cons_of_mem _ (ih e)
      · rcases List.mem_cons.mp (ih first) with h | h
        · exact List.mem_cons.mpr (.inl h)
        · exact List.mem_cons_of_mem _ (List.mem_cons_of_mem _ h)
  cases hent : s.groups.entries with
  | nil => simp [Dict.size, hent] at hsize
  | cons first rest =>
    refine ⟨(victimOf first rest).1, ?_, ?_⟩
    · rw [Dict.keys, hent]
      exact List.mem_map_of_mem (hfold rest first)
    · simp [evictCapacityVictim, hent]

/-- Making room never fails, and it leaves or drops every group. -/
lemma makeRoom_ok (cfg : AssemblerConfig) (s : Assembler) (now : ℚ) :
    ∃ s' ks cleaned, makeRoom cfg s now = (s', .ok (ks, cleaned)) ∧
      s'.nextGeneration = s.nextGeneration ∧ ∀ key, KeptOrDropped cfg now s s' ks key := by
  cases hmax : cfg.maxPendingGroups with
  | none =>
    exact ⟨s, [], false, by simp [makeRoom, hmax], rfl, fun key => .refl rfl⟩
  | some limit =>
    by_cases hroom : s.groups.size < limit
    · exact ⟨s, [], false, by simp [makeRoom, hmax, hroom], rfl, fun key => .refl rfl⟩
    · have hclean := cleanupExpired_keptOrDropped cfg s now
      have hnext := cleanupExpired_nextGeneration cfg s now
      obtain ⟨s₁, ks, h₁⟩ : ∃ s₁ ks, cleanupExpired cfg s now = (s₁, ks) := ⟨_, _, rfl⟩
      simp only [h₁] at hclean hnext
      by_cases hroom₁ : s₁.groups.size < limit
      · exact ⟨s₁, ks, true, by simp [makeRoom, hmax, hroom, h₁, hroom₁], hnext, hclean⟩
      · have hpos : 0 < s₁.groups.size := lt_of_lt_of_le limit.pos (not_lt.mp hroom₁)
        obtain ⟨victim, hvictim, hevict⟩ := evictCapacityVictim_ok hpos
        refine ⟨{ s₁ with
          groups := s₁.groups.erase victim, capacityEvicted := s₁.capacityEvicted + 1 },
          ks ++ [victim], true, by simp only [makeRoom, hmax, hroom, h₁, hroom₁, hevict,
          if_false, Except.map], hnext, fun key => (hclean key).trans ?_⟩
        rw [KeptOrDropped, List.mem_singleton, Dict.get?_erase]
        by_cases hkey : victim = key
        · subst hkey
          obtain ⟨g, hg⟩ := (s₁.groups.mem_keys_iff victim).mp hvictim
          exact .inr ⟨g, hg, by simp, rfl, .inr (by simp [hmax])⟩
        · exact .inl ⟨by simp [hkey], fun h => hkey h.symm⟩

/-- The group that an arrival meets, and what finding or opening it does to the rest. -/
lemma obtainGroup_ok (cfg : AssemblerConfig) (s : Assembler) (now : ℚ) (key : AssemblyKey) :
    ∃ s' g ks cleaned, obtainGroup cfg s now key = (s', .ok (g, ks, cleaned)) ∧
      s'.groups.get? key = some g ∧
      g = (liveGroup cfg now (s.groups.get? key)).getD ⟨s.nextGeneration, .empty, now⟩ ∧
      s'.nextGeneration =
        (if (liveGroup cfg now (s.groups.get? key)).isSome then s.nextGeneration
          else s.nextGeneration + 1) ∧
      (key ∈ ks ↔ ∃ g₀, s.groups.get? key = some g₀ ∧ isExpired cfg now g₀ = true) ∧
      ∀ key' ≠ key, KeptOrDropped cfg now s s' ks key' := by
  cases hlive : liveGroup cfg now (s.groups.get? key) with
  | some g =>
    obtain ⟨hg, hexp⟩ := liveGroup_eq_some.mp hlive
    refine ⟨s, g, [], false, by simp [obtainGroup, findGroup, hg, hexp], hg, rfl, by simp, ?_,
      fun key' _ => .refl rfl⟩
    simp [hg, hexp]
  | none =>
    obtain ⟨s₁, ks₁, hfind, hnone, hnext, hks₁, hkept₁⟩ : ∃ s₁ ks₁,
        findGroup cfg s now key = (s₁, none, ks₁) ∧ s₁.groups.get? key = none ∧
        s₁.nextGeneration = s.nextGeneration ∧
        (key ∈ ks₁ ↔ ∃ g₀, s.groups.get? key = some g₀ ∧ isExpired cfg now g₀ = true) ∧
        ∀ key' ≠ key, KeptOrDropped cfg now s s₁ ks₁ key' := by
      cases hg : s.groups.get? key with
      | none => exact ⟨s, [], by simp [findGroup, hg], hg, rfl, by simp, fun key' _ => .refl rfl⟩
      | some g =>
        have hexp : isExpired cfg now g = true := by
          by_contra h
          simp [liveGroup, hg, h] at hlive
        refine ⟨s.expireGroup key, [key], by simp [findGroup, hg, hexp], by simp [expireGroup], rfl,
          by simp [hexp], fun key' hne => .inl ⟨?_, by simpa using hne⟩⟩
        simp [expireGroup, Ne.symm hne]
    obtain ⟨s₂, ks₂, cleaned, hroom, hnext₂, hkept₂⟩ := makeRoom_ok cfg s₁ now
    have hkey₂ : key ∉ ks₂ := by
      rcases hkept₂ key with ⟨-, h⟩ | ⟨g, hg, -⟩
      · exact h
      · rw [hnone] at hg
        cases hg
    refine ⟨(s₂.openGroup key now).1, (s₂.openGroup key now).2, ks₁ ++ ks₂, cleaned, ?_, ?_, ?_, ?_, ?_,
      fun key' hne => ?_⟩
    · simp [obtainGroup, hfind, hroom]
    · simp [openGroup]
    · simp [openGroup, hnext₂, hnext]
    · simp [openGroup, hnext₂, hnext]
    · simp [hks₁, hkey₂]
    · have hopen : KeptOrDropped cfg now s₂ (s₂.openGroup key now).1 [] key' :=
        .refl (by simp [openGroup, Ne.symm hne])
      simpa using ((hkept₁ key' hne).trans (hkept₂ key')).trans hopen

/-! ### The arrival itself -/

/-- Ordinals in range that are as many as the total are all of them. -/
lemma mem_keys_of_full {fragments : Dict Nat PyStr} {total : Nat}
    (hrange : ∀ o ∈ fragments.keys, 1 ≤ o ∧ o ≤ total) (hsize : fragments.size = total) {o : Nat}
    (ho : 1 ≤ o) (hle : o ≤ total) : o ∈ fragments.keys := by
  have hsub : fragments.keys.toFinset ⊆ Finset.Icc 1 total := by
    intro o ho
    exact Finset.mem_Icc.mpr (hrange o (List.mem_toFinset.mp ho))
  have hcard : (Finset.Icc 1 total).card ≤ fragments.keys.toFinset.card := by
    rw [List.toFinset_card_of_nodup fragments.keys_nodup, Dict.length_keys, hsize]
    simp
  rw [← List.mem_toFinset, Finset.eq_of_subset_of_card_le hsub hcard]
  exact Finset.mem_Icc.mpr ⟨ho, hle⟩

/-- A full group has a line for every ordinal, so completion raises no `KeyError`. -/
lemma fullLines_ok {fragments : Dict Nat PyStr} {total : Nat}
    (hrange : ∀ o ∈ fragments.keys, 1 ≤ o ∧ o ≤ total) (hsize : fragments.size = total) :
    fullLines fragments total = .ok (linesOf fragments total) := by
  refine mapM_orRaise (fun i hi => ?_)
  rw [List.mem_range] at hi
  have hmem := mem_keys_of_full hrange hsize (o := i + 1) (by omega) (by omega)
  obtain ⟨v, hv⟩ := (fragments.mem_keys_iff _).mp hmem
  simp [hv]

lemma AssemblyGroup_add_size {g : AssemblyGroup} {ordinal : Nat} (text : PyStr) (now : ℚ)
    (h : g.fragmentsByOrdinal.get? ordinal = none) :
    (g.add ordinal text now).receivedCount = g.receivedCount + 1 :=
  Dict.size_set_of_not_mem _ _ ((Dict.get?_eq_none_iff _ _).mp h)

lemma AssemblyGroup_add_range {g : AssemblyGroup} {ordinal total : Nat} (text : PyStr) (now : ℚ)
    (hrange : ∀ o ∈ g.fragmentsByOrdinal.keys, 1 ≤ o ∧ o ≤ total) (ho : 1 ≤ ordinal)
    (hle : ordinal ≤ total) :
    ∀ o ∈ (g.add ordinal text now).fragmentsByOrdinal.keys, 1 ≤ o ∧ o ≤ total := by
  intro o hmem
  simp only [AssemblyGroup.add, Dict.keys_set] at hmem
  split at hmem
  · exact hrange o hmem
  · rcases List.mem_append.mp hmem with h | h
    · exact hrange o h
    · rw [List.mem_singleton.mp h]
      exact ⟨ho, hle⟩

/-- What `placeFragment` does, for a group that is there and not expired. -/
lemma placeFragment_ok {cfg : AssemblerConfig} (htimeout : 0 < cfg.timeout) {s : Assembler} {now : ℚ}
    {key : AssemblyKey} {g : AssemblyGroup} {ordinal : Nat} (text : PyStr)
    (discarded : List AssemblyKey) (cleaned : Bool) (hg : s.groups.get? key = some g)
    (hexp : isExpired cfg now g = false)
    (hrange : ∀ o ∈ g.fragmentsByOrdinal.keys, 1 ≤ o ∧ o ≤ key.declaredTotal)
    (ho : 1 ≤ ordinal) (hle : ordinal ≤ key.declaredTotal) :
    ∃ s' out, placeFragment cfg s now key g ordinal text discarded cleaned = (s', .ok out) ∧
      s'.nextGeneration = s.nextGeneration ∧ out.groupKey = some key ∧
      GroupResult.mk (s'.groups.get? key) out.status out.sentences g.generation =
        placeStep key.declaredTotal now ordinal text g ∧ out.generation = some g.generation ∧
      ∃ more, (∀ key' ≠ key, KeptOrDropped cfg now s s' more key') ∧
        (∀ key', key' ∈ out.discardedKeys ↔ key' ∈ discarded ∨ key' ∈ more) ∧
        (key ∈ more ↔ out.status = .conflict) := by
  have hadd : isExpired cfg now (g.add ordinal text now) = false := by
    simpa [isExpired, AssemblyGroup.add] using htimeout
  cases hstored : g.fragmentsByOrdinal.get? ordinal with
  | some stored =>
    by_cases heq : stored = text
    · -- an exact duplicate: only the sweep changes anything
      refine ⟨(cleanupExpired cfg s now).1.count .duplicate,
        ⟨.duplicate, some key, [], sortKeys (discarded ++ (cleanupExpired cfg s now).2),
          some g.generation⟩, by simp [placeFragment, hstored, heq], ?_, rfl, ?_, rfl,
        (cleanupExpired cfg s now).2, ?_, ?_, ?_⟩
      · exact cleanupExpired_nextGeneration cfg s now
      · simp [placeStep, hstored, heq, count, cleanupExpired_get?, hg, liveGroup, Option.filter, hexp]
      · exact fun key' _ => cleanupExpired_keptOrDropped cfg s now key'
      · simp [mem_sortKeys]
      · simp [mem_expiredKeys, hg, hexp]
    · -- a conflict: the group goes before the sweep
      obtain ⟨s₁, hs₁⟩ : ∃ s₁, s₁ = { s with groups := s.groups.erase key } := ⟨_, rfl⟩
      refine ⟨(cleanupExpired cfg s₁ now).1.count .conflict,
        ⟨.conflict, some key, [], sortKeys (discarded ++ [key] ++ (cleanupExpired cfg s₁ now).2),
          some g.generation⟩, by simp [placeFragment, hstored, heq, hs₁], ?_, rfl, ?_, rfl,
        [key] ++ (cleanupExpired cfg s₁ now).2, ?_, ?_, ?_⟩
      · rw [hs₁]
        exact cleanupExpired_nextGeneration cfg _ now
      · simp [placeStep, hstored, heq, count, cleanupExpired_get?, liveGroup, hs₁]
      · intro key' hne
        have h₁ : KeptOrDropped cfg now s s₁ [key] key' :=
          .inl ⟨by simp [hs₁, Ne.symm hne], by simpa using hne⟩
        exact h₁.trans (cleanupExpired_keptOrDropped cfg s₁ now key')
      · simp [mem_sortKeys]
      · simp
  | none =>
    have hset : ∀ key' ≠ key, (s.groups.set key (g.add ordinal text now)).get? key' =
        s.groups.get? key' := fun key' hne => by simp [Ne.symm hne]
    by_cases hfull : (g.add ordinal text now).receivedCount = key.declaredTotal
    · -- the last missing ordinal
      have hlines := fullLines_ok (AssemblyGroup_add_range text now hrange ho hle) hfull
      refine ⟨{ s with groups := (s.groups.set key (g.add ordinal text now)).erase key }.count .complete,
        ⟨.complete, some key, linesOf (g.add ordinal text now).fragmentsByOrdinal key.declaredTotal,
          sortKeys discarded, some g.generation⟩, ?_, rfl, rfl, ?_, rfl, [], ?_, ?_, ?_⟩
      · simp only [AssemblyGroup.add] at hfull hlines
        simp [placeFragment, hstored, AssemblyGroup.add, hfull, hlines]
      · simp [placeStep, hstored, hfull, count]
      · exact fun key' hne => .refl (by simp [count, Ne.symm hne])
      · simp [mem_sortKeys]
      · simp
    · obtain ⟨s₁, hs₁⟩ : ∃ s₁, s₁ =
        { s with groups := s.groups.set key (g.add ordinal text now) } := ⟨_, rfl⟩
      obtain ⟨s₂, more, hsweep, hnext₂, hget₂, hkept₂, hkey₂⟩ : ∃ s₂ more,
          (if cleaned then (s₁, []) else cleanupExpired cfg s₁ now) = (s₂, more) ∧
          s₂.nextGeneration = s.nextGeneration ∧
          s₂.groups.get? key = some (g.add ordinal text now) ∧
          (∀ key', KeptOrDropped cfg now s₁ s₂ more key') ∧ key ∉ more := by
        have hget₁ : s₁.groups.get? key = some (g.add ordinal text now) := by simp [hs₁]
        cases cleaned with
        | true => exact ⟨s₁, [], rfl, by rw [hs₁], hget₁, fun key' => .refl rfl, by simp⟩
        | false =>
          refine ⟨(cleanupExpired cfg s₁ now).1, (cleanupExpired cfg s₁ now).2, rfl, ?_, ?_,
            cleanupExpired_keptOrDropped cfg s₁ now, ?_⟩
          · rw [cleanupExpired_nextGeneration, hs₁]
          · simp [cleanupExpired_get?, hget₁, liveGroup, Option.filter, hadd]
          · simp [mem_expiredKeys, hget₁, hadd]
      refine ⟨s₂.updatePeaks.count .pending,
        ⟨.pending, some key, [], sortKeys (discarded ++ more), some g.generation⟩, ?_, hnext₂, rfl, ?_,
        rfl, more, ?_, ?_, ?_⟩
      · rw [hs₁] at hsweep
        simp only [AssemblyGroup.add] at hsweep hfull
        simp only [placeFragment, hstored, hfull, if_false, hsweep]
      · simp [placeStep, hstored, hfull, count, updatePeaks, hget₂]
      · intro key' hne
        have h₁ : KeptOrDropped cfg now s s₁ [] key' := .refl (by rw [hs₁]; exact hset key' hne)
        exact h₁.trans (hkept₂ key')
      · simp [mem_sortKeys]
      · simp [hkey₂]

/-- The key of a fragment from a source. -/
def keyOf (sourceIdentity : PyStr) (fragment : ParsedFragment) : AssemblyKey :=
  ⟨sourceIdentity, fragment.sequentialId, fragment.channel, fragment.declaredTotal⟩

/-- A fragment that belongs to a group: neither a single sentence nor over the limit. -/
def isGrouped (cfg : AssemblerConfig) (fragment : ParsedFragment) : Bool :=
  fragment.declaredTotal != 1 &&
    !cfg.maxFragmentsPerGroup.any (fun limit => decide ((limit : Nat) < fragment.declaredTotal))

/-- What a feed for a group does to the assembler and what it reports. -/
structure FeedSpec (cfg : AssemblerConfig) (s : Assembler) (now : ℚ) (key : AssemblyKey)
    (ordinal : Nat) (text : PyStr) (s' : Assembler) (out : AssemblyOutcome) : Prop where
  wellFormed : s'.WellFormed
  groupKey : out.groupKey = some key
  generation : out.generation =
    some (groupStep cfg key.declaredTotal s.nextGeneration now ordinal text
      (s.groups.get? key)).generation
  step : GroupResult.mk (s'.groups.get? key) out.status out.sentences
      (groupStep cfg key.declaredTotal s.nextGeneration now ordinal text
        (s.groups.get? key)).generation =
    groupStep cfg key.declaredTotal s.nextGeneration now ordinal text (s.groups.get? key)
  own : key ∈ out.discardedKeys ↔
    (∃ g, s.groups.get? key = some g ∧ isExpired cfg now g = true) ∨ out.status = .conflict
  others : ∀ key' ≠ key, KeptOrDropped cfg now s s' out.discardedKeys key'
  nextGeneration : s'.nextGeneration =
    if (liveGroup cfg now (s.groups.get? key)).isSome then s.nextGeneration else s.nextGeneration + 1

section FeedSpec

variable {cfg : AssemblerConfig} {s s' : Assembler} {now : ℚ} {key : AssemblyKey} {ordinal : Nat}
  {text : PyStr} {out : AssemblyOutcome}

lemma FeedSpec.status (h : FeedSpec cfg s now key ordinal text s' out) :
    (groupStep cfg key.declaredTotal s.nextGeneration now ordinal text
      (s.groups.get? key)).status = out.status :=
  (congrArg GroupResult.status h.step).symm

lemma FeedSpec.sentences (h : FeedSpec cfg s now key ordinal text s' out) :
    (groupStep cfg key.declaredTotal s.nextGeneration now ordinal text
      (s.groups.get? key)).sentences = out.sentences :=
  (congrArg GroupResult.sentences h.step).symm

lemma FeedSpec.group (h : FeedSpec cfg s now key ordinal text s' out) :
    (groupStep cfg key.declaredTotal s.nextGeneration now ordinal text
      (s.groups.get? key)).group = s'.groups.get? key :=
  (congrArg GroupResult.group h.step).symm

end FeedSpec

lemma placeStep_generation (total : Nat) (now : ℚ) (ordinal : Nat) (text : PyStr)
    (g : AssemblyGroup) : (placeStep total now ordinal text g).generation = g.generation := by
  unfold placeStep
  split
  · split <;> rfl
  · simp only
    split <;> rfl

/-- A group that stays after an arrival waits for a fragment, and it is the same object. -/
lemma placeStep_groupOk {key : AssemblyKey} {now : ℚ} {ordinal : Nat} {text : PyStr}
    {g g' : AssemblyGroup} (hrange : ∀ o ∈ g.fragmentsByOrdinal.keys, 1 ≤ o ∧ o ≤ key.declaredTotal)
    (hlt : g.receivedCount < key.declaredTotal) (ho : 1 ≤ ordinal) (hle : ordinal ≤ key.declaredTotal)
    (h : (placeStep key.declaredTotal now ordinal text g).group = some g') :
    GroupOk key g' ∧ g'.generation = g.generation := by
  unfold placeStep at h
  cases hstored : g.fragmentsByOrdinal.get? ordinal with
  | some stored =>
    simp only [hstored] at h
    split at h
    · cases h
      have hmem : ordinal ∈ g.fragmentsByOrdinal.keys := (Dict.mem_keys_iff _ _).mpr ⟨stored, hstored⟩
      have hpos := List.length_pos_of_mem hmem
      rw [Dict.length_keys] at hpos
      exact ⟨⟨hrange, hpos, hlt⟩, rfl⟩
    · cases h
  | none =>
    simp only [hstored] at h
    split at h
    · cases h
    · next hne =>
      cases h
      have hsize := AssemblyGroup_add_size text now hstored
      exact ⟨⟨AssemblyGroup_add_range text now hrange ho hle, by omega, by omega⟩, rfl⟩

/-- A feed for a group succeeds and takes the group of its key through `groupStep`. -/
theorem feed_grouped {cfg : AssemblerConfig} (htimeout : 0 < cfg.timeout) {s : Assembler}
    (hs : s.WellFormed) (now : ℚ) (sourceIdentity text : PyStr) {fragment : ParsedFragment}
    (hgrouped : isGrouped cfg fragment = true) :
    ∃ s' out, feedValidatedFragment cfg s now sourceIdentity text fragment = (s', .ok out) ∧
      FeedSpec cfg s now (keyOf sourceIdentity fragment) fragment.ordinal text s' out := by
  obtain ⟨key, hkey⟩ : ∃ key, key = keyOf sourceIdentity fragment := ⟨_, rfl⟩
  have htotal : key.declaredTotal = fragment.declaredTotal := by rw [hkey]; rfl
  have ho := fragment.ordinal_pos
  have hle := fragment.ordinal_le
  rw [← htotal] at hle
  simp only [isGrouped, Bool.and_eq_true, bne_iff_ne, ne_eq, Bool.not_eq_true'] at hgrouped
  obtain ⟨s₁, g, ks, cleaned, hobtain, hget₁, hg, hnext₁, hks, hkept₁⟩ := obtainGroup_ok cfg s now key
  have hfresh : ∀ g₀, liveGroup cfg now (s.groups.get? key) = some g₀ → GroupOk key g₀ :=
    fun g₀ h => hs.groupOk key g₀ (liveGroup_eq_some.mp h).1
  have hexp : isExpired cfg now g = false := by
    cases hlive : liveGroup cfg now (s.groups.get? key) with
    | some g₀ => rw [hg, hlive]; exact (liveGroup_eq_some.mp hlive).2
    | none => rw [hg, hlive]; simpa [isExpired] using htimeout
  have hrange : ∀ o ∈ g.fragmentsByOrdinal.keys, 1 ≤ o ∧ o ≤ key.declaredTotal := by
    cases hlive : liveGroup cfg now (s.groups.get? key) with
    | some g₀ => rw [hg, hlive]; exact (hfresh g₀ hlive).ordinals
    | none => rw [hg, hlive]; simp
  have hlt : g.receivedCount < key.declaredTotal := by
    cases hlive : liveGroup cfg now (s.groups.get? key) with
    | some g₀ => rw [hg, hlive]; exact (hfresh g₀ hlive).lt_total
    | none =>
      rw [hg, hlive, htotal]
      exact lt_of_lt_of_le ho fragment.ordinal_le
  obtain ⟨s₂, out, hplace, hnext₂, hgk, hstep, hgen, more, hkept₂, hmem, hown⟩ :=
    placeFragment_ok htimeout text ks cleaned hget₁ hexp hrange ho hle
  have hgroupStep : groupStep cfg key.declaredTotal s.nextGeneration now fragment.ordinal text
      (s.groups.get? key) = placeStep key.declaredTotal now fragment.ordinal text g := by
    rw [groupStep, ← hg]
  have hgenEq : (placeStep key.declaredTotal now fragment.ordinal text g).generation = g.generation :=
    placeStep_generation _ _ _ _ _
  have hothers : ∀ key' ≠ key, KeptOrDropped cfg now s s₂ out.discardedKeys key' := fun key' hne =>
    ((hkept₁ key' hne).trans (hkept₂ key' hne)).congr (by rw [hmem, List.mem_append])
  have hgroup : (placeStep key.declaredTotal now fragment.ordinal text g).group =
      s₂.groups.get? key := by rw [← hstep]
  have hnext : s.nextGeneration ≤ s₂.nextGeneration := by
    rw [hnext₂, hnext₁]
    split <;> omega
  -- the group of the key is the one it was, or it has the fresh number
  have hnumber : ∀ g', s₂.groups.get? key = some g' →
      (∃ g₀, s.groups.get? key = some g₀ ∧ g₀.generation = g'.generation) ∨
        g'.generation = s.nextGeneration ∧ s₂.nextGeneration = s.nextGeneration + 1 := by
    intro g' hg'
    have hsame := (placeStep_groupOk hrange hlt ho hle (hgroup.trans hg')).2
    cases hlive : liveGroup cfg now (s.groups.get? key) with
    | some g₀ =>
      left
      refine ⟨g₀, (liveGroup_eq_some.mp hlive).1, ?_⟩
      rw [hsame, hg, hlive]
      rfl
    | none =>
      right
      rw [hsame, hg, hnext₂, hnext₁, hlive]
      exact ⟨rfl, rfl⟩
  refine ⟨s₂, out, ?_, ?_⟩
  · have hkeydef : key = ⟨sourceIdentity, fragment.sequentialId, fragment.channel,
      fragment.declaredTotal⟩ := hkey
    simp only [feedValidatedFragment, hgrouped.1, hgrouped.2, if_false, ← hkeydef, hobtain, hplace]
    rfl
  · rw [← hkey]
    refine ⟨⟨?_, ?_, ?_⟩, hgk, ?_, ?_, ?_, hothers, by rw [hnext₂, hnext₁]⟩
    · intro key' g' hg'
      by_cases hne : key' = key
      · rw [hne] at hg' ⊢
        exact (placeStep_groupOk hrange hlt ho hle (hgroup.trans hg')).1
      · exact hs.groupOk key' g' ((hothers key' hne).sub hg')
    · intro key' g' hg'
      by_cases hne : key' = key
      · rw [hne] at hg'
        rcases hnumber g' hg' with ⟨g₀, hg₀, heq⟩ | ⟨heq, hfreshNext⟩
        · rw [← heq]
          exact lt_of_lt_of_le (hs.number_lt key g₀ hg₀) hnext
        · omega
      · exact lt_of_lt_of_le (hs.number_lt key' g' ((hothers key' hne).sub hg')) hnext
    · intro key' key'' g' g'' hg' hg'' heq
      -- a number of another key is old, so it is not the fresh one
      have hold : ∀ k g₁, k ≠ key → s₂.groups.get? k = some g₁ → ∀ g₂, s₂.groups.get? key = some g₂ →
          g₁.generation ≠ g₂.generation := by
        intro k g₁ hk hg₁ g₂ hg₂ hsame
        have hg₁s := (hothers k hk).sub hg₁
        rcases hnumber g₂ hg₂ with ⟨g₀, hg₀, heq₀⟩ | ⟨heq₀, -⟩
        · exact hk (hs.number_inj k key g₁ g₀ hg₁s hg₀ (by rw [hsame, heq₀]))
        · have := hs.number_lt k g₁ hg₁s
          omega
      by_cases h' : key' = key
      · by_cases h'' : key'' = key
        · rw [h', h'']
        · rw [h'] at hg'
          exact absurd heq.symm (hold key'' g'' h'' hg'' g' hg')
      · by_cases h'' : key'' = key
        · rw [h''] at hg''
          exact absurd heq (hold key' g' h' hg' g'' hg'')
        · exact hs.number_inj key' key'' g' g'' ((hothers key' h').sub hg')
            ((hothers key'' h'').sub hg'') heq
    · rw [hgen, hgroupStep, hgenEq]
    · rw [hgroupStep, hgenEq, hstep]
    · have hone : key ∈ out.discardedKeys ↔ key ∈ ks ∨ key ∈ more := hmem key
      rw [hone, hks, hown]

end Assembler

end AisMixer

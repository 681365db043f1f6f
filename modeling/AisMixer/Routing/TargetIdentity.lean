import AisMixer.Routing.Zones

/-!
# Numeric target identities

`core/target_identity.py`: `freeze_target_id_by_name` checks a mapping of external names to
process-local target ids. What it returns is a `FrozenTargetIds`, whose fields say that no
name is empty and no id has two names.
-/

namespace AisMixer.Routing

open Library

abbrev EgressTargetId := Nat

/-- A validated copy of `target_id_by_name`. -/
structure FrozenTargetIds where
  idByName : Dict PyStr EgressTargetId
  nonempty : ∀ name ∈ idByName.keys, name ≠ []
  injective : ∀ a b id, idByName.get? a = some id → idByName.get? b = some id → a = b

/-- The loop of `freeze_target_id_by_name`. -/
def freezeLoop : List (PyStr × Int) → Dict PyStr EgressTargetId → Dict EgressTargetId PyStr →
    Except RoutingError (Dict PyStr EgressTargetId)
  | [], copied, _ => .ok copied
  | (targetName, targetId) :: rest, copied, nameByTargetId =>
    if targetName = [] then
      .error ⟨.valueError, [lit "target_id_by_name keys must be non-empty strings."]⟩
    else if targetId < 0 then
      .error ⟨.valueError, [lit "target_id_by_name values must be non-negative integers."]⟩
    else
      match nameByTargetId.get? targetId.toNat with
      | some previousName =>
        .error ⟨.valueError, [lit "target_id_by_name must assign each numeric target ID to only ",
          lit "one name; ", .text (intStr targetId), lit " is assigned to both ", .repr previousName,
          lit " and ", .repr targetName, lit "."]⟩
      | none =>
        freezeLoop rest (copied.set targetName targetId.toNat)
          (nameByTargetId.set targetId.toNat targetName)

/-- Each accepted id is recorded under its name and under itself. -/
structure FreezeInvariant (copied : Dict PyStr EgressTargetId)
    (nameByTargetId : Dict EgressTargetId PyStr) : Prop where
  nonempty : ∀ name ∈ copied.keys, name ≠ []
  recorded : ∀ name id, copied.get? name = some id → nameByTargetId.get? id = some name

lemma FreezeInvariant.set {copied : Dict PyStr EgressTargetId}
    {nameByTargetId : Dict EgressTargetId PyStr} (h : FreezeInvariant copied nameByTargetId)
    {name : PyStr} {id : EgressTargetId} (hname : name ≠ []) (hid : nameByTargetId.get? id = none) :
    FreezeInvariant (copied.set name id) (nameByTargetId.set id name) where
  nonempty := by
    intro other hother
    rw [Dict.keys_set] at hother
    by_cases hmem : name ∈ copied.keys
    · rw [if_pos hmem] at hother
      exact h.nonempty other hother
    · rw [if_neg hmem, List.mem_append, List.mem_singleton] at hother
      rcases hother with hother | rfl
      · exact h.nonempty other hother
      · exact hname
  recorded := by
    intro other otherId hget
    rw [Dict.get?_set] at hget ⊢
    by_cases hn : name = other
    · rw [if_pos hn] at hget
      rw [if_pos (Option.some_inj.mp hget), hn]
    · rw [if_neg hn] at hget
      have hrec := h.recorded other otherId hget
      have hne : id ≠ otherId := by
        rintro rfl
        rw [hid] at hrec
        cases hrec
      rw [if_neg hne, hrec]

lemma freezeLoop_ok {es : List (PyStr × Int)} {copied copied' : Dict PyStr EgressTargetId}
    {nameByTargetId : Dict EgressTargetId PyStr} (hinv : FreezeInvariant copied nameByTargetId)
    (h : freezeLoop es copied nameByTargetId = .ok copied') :
    ∃ nameByTargetId', FreezeInvariant copied' nameByTargetId' := by
  induction es generalizing copied nameByTargetId with
  | nil =>
    obtain rfl : copied = copied' := by simpa [freezeLoop] using h
    exact ⟨nameByTargetId, hinv⟩
  | cons e es ih =>
    obtain ⟨targetName, targetId⟩ := e
    rw [freezeLoop] at h
    by_cases hname : targetName = []
    · simp [hname] at h
    by_cases hneg : targetId < 0
    · simp [hname, hneg] at h
    cases hprev : nameByTargetId.get? targetId.toNat with
    | some previousName => simp [hname, hneg, hprev] at h
    | none =>
      simp only [hname, hneg, hprev, if_false] at h
      exact ih (hinv.set hname hprev) h

lemma freezeInvariant_empty : FreezeInvariant .empty .empty where
  nonempty := by simp
  recorded := by simp

/-- The names of a validated mapping are not empty and its ids are not shared. -/
lemma freezeLoop_valid {es : List (PyStr × Int)} {copied : Dict PyStr EgressTargetId}
    (h : freezeLoop es .empty .empty = .ok copied) :
    (∀ name ∈ copied.keys, name ≠ []) ∧
      ∀ a b id, copied.get? a = some id → copied.get? b = some id → a = b := by
  obtain ⟨nameByTargetId, hinv⟩ := freezeLoop_ok freezeInvariant_empty h
  refine ⟨hinv.nonempty, ?_⟩
  intro a b id ha hb
  exact Option.some_inj.mp ((hinv.recorded a id ha).symm.trans (hinv.recorded b id hb))

def freezeTargetIdByName (targetIdByName : Dict PyStr Int) : Except RoutingError FrozenTargetIds :=
  match h : freezeLoop targetIdByName.entries .empty .empty with
  | .ok copied => .ok ⟨copied, (freezeLoop_valid h).1, (freezeLoop_valid h).2⟩
  | .error e => .error e

/-- A frozen mapping as the mapping that it is. -/
def FrozenTargetIds.mapping (frozen : FrozenTargetIds) : Dict PyStr Int :=
  frozen.idByName.mapValues Int.ofNat

/-! ### What is accepted -/

lemma freezeLoop_entries {es : List (PyStr × Int)} {copied copied' : Dict PyStr EgressTargetId}
    {nameByTargetId : Dict EgressTargetId PyStr} (hnodup : (copied.keys ++ es.map Prod.fst).Nodup)
    (h : freezeLoop es copied nameByTargetId = .ok copied') :
    (copied'.mapValues Int.ofNat).entries = (copied.mapValues Int.ofNat).entries ++ es := by
  induction es generalizing copied nameByTargetId with
  | nil =>
    obtain rfl : copied = copied' := by simpa [freezeLoop] using h
    simp
  | cons e es ih =>
    obtain ⟨targetName, targetId⟩ := e
    rw [freezeLoop] at h
    by_cases hname : targetName = []
    · simp [hname] at h
    by_cases hneg : targetId < 0
    · simp [hname, hneg] at h
    cases hprev : nameByTargetId.get? targetId.toNat with
    | some previousName => simp [hname, hneg, hprev] at h
    | none =>
      simp only [hname, hneg, hprev, if_false] at h
      have hnew : targetName ∉ copied.keys := fun hmem =>
        (List.nodup_append.mp hnodup).2.2 targetName hmem targetName (by simp) rfl
      have hkeys : (copied.set targetName targetId.toNat).keys = copied.keys ++ [targetName] := by
        rw [Dict.keys_set, if_neg hnew]
      rw [ih (by rw [hkeys]; simpa using hnodup) h]
      have hid : 0 ≤ targetId := by omega
      simp [Dict.mapValues, Dict.entries_set_of_not_mem copied _ hnew, hid]

lemma freezeLoop_succeeds {es : List (PyStr × Int)} {copied : Dict PyStr EgressTargetId}
    {nameByTargetId : Dict EgressTargetId PyStr}
    (hes : ∀ e ∈ es, e.1 ≠ [] ∧ 0 ≤ e.2 ∧ nameByTargetId.get? e.2.toNat = none)
    (hnodup : (es.map (fun e => e.2.toNat)).Nodup) :
    ∃ copied', freezeLoop es copied nameByTargetId = .ok copied' := by
  induction es generalizing copied nameByTargetId with
  | nil => exact ⟨copied, rfl⟩
  | cons e es ih =>
    obtain ⟨hname, hneg, hprev⟩ := hes e (by simp)
    rw [freezeLoop, if_neg hname, if_neg (by omega), hprev]
    rw [List.map_cons, List.nodup_cons] at hnodup
    apply ih _ hnodup.2
    intro e' he'
    obtain ⟨hname', hneg', hprev'⟩ := hes e' (List.mem_cons_of_mem _ he')
    refine ⟨hname', hneg', ?_⟩
    rw [Dict.get?_set, if_neg, hprev']
    intro heq
    exact hnodup.1 (List.mem_map.mpr ⟨e', he', heq.symm⟩)

lemma FrozenTargetIds.eq_of_mapping {frozen frozen' : FrozenTargetIds}
    (h : frozen.mapping = frozen'.mapping) : frozen = frozen' := by
  have hentries : frozen.idByName.entries = frozen'.idByName.entries := by
    have hmap := congrArg Dict.entries h
    have hinj : Function.Injective (fun e : PyStr × EgressTargetId => (e.1, Int.ofNat e.2)) := by
      rintro ⟨a, i⟩ ⟨b, j⟩ heq
      simpa using heq
    exact List.map_injective_iff.mpr hinj hmap
  cases frozen
  cases frozen'
  simpa using Dict.ext hentries

lemma freeze_eq {targetIdByName : Dict PyStr Int} {frozen : FrozenTargetIds}
    (h : freezeTargetIdByName targetIdByName = .ok frozen) :
    freezeLoop targetIdByName.entries .empty .empty = .ok frozen.idByName := by
  unfold freezeTargetIdByName at h
  split at h
  · next copied hloop =>
    obtain rfl := Except.ok.inj h
    exact hloop
  · cases h

lemma mapping_of_freeze {targetIdByName : Dict PyStr Int} {frozen : FrozenTargetIds}
    (h : freezeTargetIdByName targetIdByName = .ok frozen) : frozen.mapping = targetIdByName := by
  apply Dict.ext
  have hnodup : ((.empty : Dict PyStr EgressTargetId).keys ++ targetIdByName.entries.map Prod.fst).Nodup :=
    targetIdByName.nodupKeys
  rw [FrozenTargetIds.mapping, freezeLoop_entries hnodup (freeze_eq h)]
  rfl

lemma freeze_mapping (frozen : FrozenTargetIds) :
    freezeTargetIdByName frozen.mapping = .ok frozen := by
  have hsuccess : ∃ copied, freezeLoop frozen.mapping.entries .empty .empty = .ok copied := by
    apply freezeLoop_succeeds
    · intro e he
      obtain ⟨⟨name, id⟩, hmem, rfl⟩ := List.mem_map.mp he
      exact ⟨frozen.nonempty name (List.mem_map.mpr ⟨_, hmem, rfl⟩), Int.natCast_nonneg id, rfl⟩
    · have hids : frozen.mapping.entries.map (fun e => e.2.toNat) =
          frozen.idByName.entries.map Prod.snd := by
        simp [FrozenTargetIds.mapping, Dict.mapValues, Function.comp_def]
      rw [hids]
      apply List.Nodup.map_on _ (List.Nodup.of_map Prod.fst frozen.idByName.nodupKeys)
      rintro ⟨a, i⟩ ha ⟨b, j⟩ hb hij
      obtain rfl : i = j := hij
      rw [frozen.injective a b i ((Dict.get?_eq_some_iff _ _ _).mpr ha)
        ((Dict.get?_eq_some_iff _ _ _).mpr hb)]
  obtain ⟨copied, hcopied⟩ := hsuccess
  have hvalid := freezeLoop_valid hcopied
  have hfreeze : freezeTargetIdByName frozen.mapping = .ok ⟨copied, hvalid.1, hvalid.2⟩ := by
    unfold freezeTargetIdByName
    split
    · next copied' hloop =>
      obtain rfl : copied' = copied := Except.ok.inj (hloop.symm.trans hcopied)
      rfl
    · next e hloop => rw [hcopied] at hloop; cases hloop
  rw [hfreeze, FrozenTargetIds.eq_of_mapping (mapping_of_freeze hfreeze)]

/-- Freezing accepts a mapping exactly when it is the mapping of a valid one. -/
theorem freeze_ok_iff {targetIdByName : Dict PyStr Int} {frozen : FrozenTargetIds} :
    freezeTargetIdByName targetIdByName = .ok frozen ↔ frozen.mapping = targetIdByName := by
  constructor
  · exact mapping_of_freeze
  · rintro rfl
    exact freeze_mapping frozen

end AisMixer.Routing

import AisMixer.DataPlane.AssemblerRuns
import AisMixer.Library.Reassembly

/-!
# Generations of a group

The arrivals of the current generation of a key, read off the records of a run, and when the
assembler completes it.
-/

namespace AisMixer
open Library Arrival

namespace Assembler

/-- A feed with the outcome `COMPLETE` for the key. -/
def CallRecord.completes (key : AssemblyKey) (r : CallRecord) : Bool :=
  match r.result with
  | .outcome out => out.status = .complete ∧ out.groupKey = some key
  | _ => false

/-- The sentences of a record. -/
def CallRecord.sentences (r : CallRecord) : List PyStr :=
  match r.result with
  | .outcome out => out.sentences
  | _ => []

/-- The arrival that a record makes for the key. -/
def CallRecord.arrival (cfg : AssemblerConfig) (key : AssemblyKey) (r : CallRecord) :
    Option (Arrival ℚ PyStr) :=
  match r.call.groupFeed cfg with
  | some (k, ordinal, text) => if k = key then some ⟨r.now, ordinal, text⟩ else none
  | none => none

/-- A conflict or a completion, which end the generation that they are about. -/
def CallResult.closes : CallResult → Bool
  | .outcome out => out.status = .conflict ∨ out.status = .complete
  | _ => false

/-- The arrivals of the current generation of the key after one more record: a discarded
generation is gone, and so is one that conflicts or completes. -/
def stepArrivals (cfg : AssemblerConfig) (key : AssemblyKey) (arrivals : List (Arrival ℚ PyStr))
    (r : CallRecord) : List (Arrival ℚ PyStr) :=
  let kept := if key ∈ r.result.discardedKeys then [] else arrivals
  match r.arrival cfg key with
  | none => kept
  | some a => if r.result.closes then [] else kept ++ [a]

/-- The arrivals since the current generation of the key was opened. -/
def liveArrivals (cfg : AssemblerConfig) (key : AssemblyKey) (records : List CallRecord) :
    List (Arrival ℚ PyStr) :=
  records.foldl (stepArrivals cfg key) []

/-- All arrivals for the key. -/
def arrivalsFor (cfg : AssemblerConfig) (key : AssemblyKey) (records : List CallRecord) :
    List (Arrival ℚ PyStr) :=
  records.filterMap (fun r => r.arrival cfg key)

lemma liveArrivals_concat (cfg : AssemblerConfig) (key : AssemblyKey) (records : List CallRecord)
    (r : CallRecord) :
    liveArrivals cfg key (records ++ [r]) = stepArrivals cfg key (liveArrivals cfg key records) r := by
  simp [liveArrivals, List.foldl_append]

/-! ### The group holds the progress of its generation -/

/-- The group of a key, as the arrivals of its generation make it. -/
def Tracks (cfg : AssemblerConfig) (arrivals : List (Arrival ℚ PyStr)) :
    Option AssemblyGroup → Prop
  | none => arrivals = []
  | some g => arrivals ≠ [] ∧
      g.fragmentsByOrdinal.entries = (progress arrivals).map (fun a => (a.ordinal, a.text)) ∧
      (∀ last ∈ (progress arrivals).getLast?, last.time = g.lastProgressAt) ∧
      Steady cfg.timeout arrivals ∧
      ∀ a ∈ arrivals, g.fragmentsByOrdinal.get? a.ordinal = some a.text

lemma Tracks.keys {cfg : AssemblerConfig} {arrivals : List (Arrival ℚ PyStr)} {g : AssemblyGroup}
    (h : Tracks cfg arrivals (some g)) : g.fragmentsByOrdinal.keys = ordinals (progress arrivals) := by
  rw [Dict.keys, h.2.1, List.map_map]
  rfl

lemma Tracks.mem_keys {cfg : AssemblerConfig} {arrivals : List (Arrival ℚ PyStr)} {g : AssemblyGroup}
    (h : Tracks cfg arrivals (some g)) (o : Nat) :
    o ∈ g.fragmentsByOrdinal.keys ↔ o ∈ ordinals arrivals := by
  rw [h.keys, mem_ordinals_progress]

lemma Tracks.get?_eq_none {cfg : AssemblerConfig} {arrivals : List (Arrival ℚ PyStr)}
    {g : AssemblyGroup} (h : Tracks cfg arrivals (some g)) (o : Nat) :
    g.fragmentsByOrdinal.get? o = none ↔ o ∉ ordinals arrivals := by
  rw [Dict.get?_eq_none_iff, h.mem_keys]

/-- A generation that has expired makes the next new ordinal too late. -/
lemma Tracks.not_steady_of_expired {cfg : AssemblerConfig} {arrivals : List (Arrival ℚ PyStr)}
    {g : AssemblyGroup} (h : Tracks cfg arrivals (some g)) {a : Arrival ℚ PyStr}
    (hexp : isExpired cfg a.time g = true) (hnew : a.ordinal ∉ ordinals arrivals) :
    ¬Steady cfg.timeout (arrivals ++ [a]) := by
  intro hsteady
  obtain ⟨hne, -, hlast, -, -⟩ := h
  cases hp : (progress arrivals).getLast? with
  | none => exact hne (progress_eq_nil.mp (List.getLast?_eq_none_iff.mp hp))
  | some last =>
    have hgap := ((steady_concat_of_not_mem hnew).mp hsteady).2 last (by simp [hp])
    rw [hlast last (by simp [hp])] at hgap
    simp only [isExpired, decide_eq_true_eq] at hexp
    linarith

/-- The arrivals of a group that is found or opened. -/
def openArrivals (cfg : AssemblerConfig) (now : ℚ) (arrivals : List (Arrival ℚ PyStr))
    (group : Option AssemblyGroup) : List (Arrival ℚ PyStr) :=
  if (liveGroup cfg now group).isSome then arrivals else []

/-- A new ordinal in a group: the group tracks one arrival more. -/
lemma tracks_add {cfg : AssemblerConfig} {arrivals : List (Arrival ℚ PyStr)} {g : AssemblyGroup}
    {a : Arrival ℚ PyStr} (hnew : a.ordinal ∉ ordinals arrivals)
    (hent : g.fragmentsByOrdinal.entries = (progress arrivals).map (fun a => (a.ordinal, a.text)))
    (hsteady : Steady cfg.timeout (arrivals ++ [a]))
    (htexts : ∀ b ∈ arrivals, g.fragmentsByOrdinal.get? b.ordinal = some b.text) :
    Tracks cfg (arrivals ++ [a]) (some (g.add a.ordinal a.text a.time)) := by
  have hkeys : a.ordinal ∉ g.fragmentsByOrdinal.keys := by
    have hk : g.fragmentsByOrdinal.keys = ordinals (progress arrivals) := by
      rw [Dict.keys, hent, List.map_map]
      rfl
    rw [hk, mem_ordinals_progress]
    exact hnew
  refine ⟨by simp, ?_, ?_, hsteady, ?_⟩
  · simp [AssemblyGroup.add, Dict.entries_set_of_not_mem _ _ hkeys, hent,
      progress_concat_of_not_mem hnew]
  · simp [progress_concat_of_not_mem hnew, AssemblyGroup.add]
  · intro b hb
    simp only [AssemblyGroup.add, Dict.get?_set]
    rcases List.mem_append.mp hb with hb | hb
    · have hne : a.ordinal ≠ b.ordinal := fun heq => hnew (heq ▸ List.mem_map_of_mem hb)
      rw [if_neg hne, htexts b hb]
    · rw [List.mem_singleton.mp hb, if_pos rfl]

/-- A repetition of a text that the group has. -/
lemma tracks_repeat {cfg : AssemblerConfig} {arrivals : List (Arrival ℚ PyStr)} {g : AssemblyGroup}
    {a : Arrival ℚ PyStr} (h : Tracks cfg arrivals (some g)) (hmem : a.ordinal ∈ ordinals arrivals)
    (htext : g.fragmentsByOrdinal.get? a.ordinal = some a.text) :
    Tracks cfg (arrivals ++ [a]) (some g) := by
  obtain ⟨-, hent, hlast, hsteady, htexts⟩ := h
  refine ⟨by simp, ?_, ?_, (steady_concat_of_mem hmem).mpr hsteady, ?_⟩
  · rw [progress_concat_of_mem hmem, hent]
  · rw [progress_concat_of_mem hmem]
    exact hlast
  · intro b hb
    rcases List.mem_append.mp hb with hb | hb
    · exact htexts b hb
    · rw [List.mem_singleton.mp hb, htext]

/-- The size of a group is the total exactly when its arrivals cover the total. -/
lemma covers_iff_size {cfg : AssemblerConfig} {arrivals : List (Arrival ℚ PyStr)} {g : AssemblyGroup}
    {total : Nat} (h : Tracks cfg arrivals (some g))
    (hrange : ∀ o ∈ g.fragmentsByOrdinal.keys, 1 ≤ o ∧ o ≤ total) :
    g.receivedCount = total ↔ Covers total arrivals := by
  constructor
  · intro hsize o ho hle
    exact (h.mem_keys o).mp (mem_keys_of_full hrange hsize ho hle)
  · intro hcovers
    have hperm : g.fragmentsByOrdinal.keys.toFinset = Finset.Icc 1 total := by
      ext o
      rw [List.mem_toFinset, Finset.mem_Icc]
      exact ⟨hrange o, fun ho => (h.mem_keys o).mpr (hcovers o ho.1 ho.2)⟩
    have hcard := List.toFinset_card_of_nodup g.fragmentsByOrdinal.keys_nodup
    rw [hperm, Nat.card_Icc, Dict.length_keys] at hcard
    unfold AssemblyGroup.receivedCount
    omega

/-- The lines of a full group are the texts of the arrivals, each at its ordinal. -/
lemma linesOf_spec {fragments : Dict Nat PyStr} {total : Nat}
    (hrange : ∀ o ∈ fragments.keys, 1 ≤ o ∧ o ≤ total) (hsize : fragments.size = total) :
    (linesOf fragments total).length = total ∧
      ∀ o text, fragments.get? o = some text → (linesOf fragments total)[o - 1]? = some text := by
  obtain ⟨f, hf⟩ : ∃ f : Nat → PyStr, ∀ i < total, fragments.get? (i + 1) = some (f i) := by
    refine ⟨fun i => (fragments.get? (i + 1)).getD [], fun i hi => ?_⟩
    have hmem := mem_keys_of_full hrange hsize (o := i + 1) (by omega) (by omega)
    obtain ⟨v, hv⟩ := (fragments.mem_keys_iff _).mp hmem
    simp [hv]
  have hlines : linesOf fragments total = (List.range total).map f := by
    rw [linesOf, ← List.filterMap_eq_map]
    exact List.filterMap_congr (fun i hi => hf i (List.mem_range.mp hi))
  refine ⟨by simp [hlines], fun o text ho => ?_⟩
  have hmem := hrange o ((fragments.mem_keys_iff o).mpr ⟨text, ho⟩)
  have hget := hf (o - 1) (by omega)
  rw [Nat.sub_add_cancel hmem.1, ho] at hget
  rw [hlines, List.getElem?_map, List.getElem?_range (by omega)]
  simpa using hget.symm

/-- One arrival: the status it gets, and the arrivals that the group tracks after it. -/
lemma groupStep_tracks {cfg : AssemblerConfig} {key : AssemblyKey} (number : Nat)
    {arrivals : List (Arrival ℚ PyStr)} {group : Option AssemblyGroup} (htracks : Tracks cfg arrivals group)
    (hok : ∀ g, group = some g → GroupOk key g) (a : Arrival ℚ PyStr) (ho : 1 ≤ a.ordinal)
    (hle : a.ordinal ≤ key.declaredTotal) (htwo : 2 ≤ key.declaredTotal) :
    let result := groupStep cfg key.declaredTotal number a.time a.ordinal a.text group
    (result.status = .complete ↔ Covers key.declaredTotal (arrivals ++ [a]) ∧
        Steady cfg.timeout (arrivals ++ [a]) ∧ a.ordinal ∉ ordinals arrivals) ∧
      (result.status = .complete → result.sentences.length = key.declaredTotal ∧
        ∀ b ∈ arrivals ++ [a], result.sentences[b.ordinal - 1]? = some b.text) ∧
      Tracks cfg (if result.status = .conflict ∨ result.status = .complete then []
        else openArrivals cfg a.time arrivals group ++ [a]) result.group := by
  intro result
  cases hlive : liveGroup cfg a.time group with
  | none =>
    -- a fresh group takes the arrival
    have hfresh : a.ordinal ∉ ordinals ([] : List (Arrival ℚ PyStr)) := by simp [ordinals]
    have hone : (AssemblyGroup.add ⟨number, .empty, a.time⟩ a.ordinal a.text a.time).receivedCount = 1 :=
      AssemblyGroup_add_size a.text a.time (Dict.get?_empty _)
    have hne : ¬(AssemblyGroup.add ⟨number, .empty, a.time⟩ a.ordinal a.text a.time).receivedCount =
        key.declaredTotal := by omega
    have hresult : result = ⟨some (AssemblyGroup.add ⟨number, .empty, a.time⟩ a.ordinal a.text a.time),
        .pending, [], number⟩ := by
      simp [result, groupStep, hlive, placeStep, hne]
    have hpending : ¬(Covers key.declaredTotal (arrivals ++ [a]) ∧
        Steady cfg.timeout (arrivals ++ [a]) ∧ a.ordinal ∉ ordinals arrivals) := by
      rintro ⟨hcovers, hsteady, hnew⟩
      cases group with
      | none =>
        rw [show arrivals = [] from htracks] at hcovers
        have h₁ := hcovers 1 (by omega) (by omega)
        have h₂ := hcovers 2 (by omega) (by omega)
        simp only [ordinals, List.nil_append, List.map_cons, List.map_nil, List.mem_singleton] at h₁ h₂
        omega
      | some g =>
        have hexp : isExpired cfg a.time g = true := by
          by_contra hexp
          simp [liveGroup, Option.filter, hexp] at hlive
        exact htracks.not_steady_of_expired hexp hnew hsteady
    rw [hresult]
    refine ⟨by simpa using hpending, by simp, ?_⟩
    simp only [openArrivals, hlive]
    exact tracks_add hfresh rfl (by simp [Steady, progress, addProgress, ordinals]) (by simp)
  | some g =>
    obtain ⟨rfl, hexp⟩ := liveGroup_eq_some.mp hlive
    have hopen : openArrivals cfg a.time arrivals (some g) = arrivals := by simp [openArrivals, hlive]
    have hg := hok g rfl
    have hlast : ∀ last ∈ (progress arrivals).getLast?, a.time - last.time < cfg.timeout := by
      intro last hmem
      rw [htracks.2.2.1 last hmem]
      simpa [isExpired] using hexp
    cases hstored : g.fragmentsByOrdinal.get? a.ordinal with
    | some stored =>
      have hmem : a.ordinal ∈ ordinals arrivals := by
        by_contra hnew
        rw [(htracks.get?_eq_none _).mpr hnew] at hstored
        cases hstored
      by_cases heq : stored = a.text
      · have hresult : result = ⟨some g, .duplicate, [], g.generation⟩ := by
          simp [result, groupStep, hlive, placeStep, hstored, heq]
        rw [hresult, hopen]
        refine ⟨by simp [hmem], by simp, ?_⟩
        simpa using tracks_repeat htracks hmem (heq ▸ hstored)
      · have hresult : result = ⟨none, .conflict, [], g.generation⟩ := by
          simp [result, groupStep, hlive, placeStep, hstored, heq]
        rw [hresult]
        exact ⟨by simp [hmem], by simp, rfl⟩
    | none =>
      have hnew := (htracks.get?_eq_none _).mp hstored
      obtain ⟨-, hent, -, hsteady, htexts⟩ := id htracks
      have hsteady' : Steady cfg.timeout (arrivals ++ [a]) :=
        (steady_concat_of_not_mem hnew).mpr ⟨hsteady, hlast⟩
      have htracks' := tracks_add hnew hent hsteady' htexts
      have hrange := AssemblyGroup_add_range a.text a.time hg.ordinals ho hle
      have hcovers := covers_iff_size htracks' hrange
      by_cases hfull : (g.add a.ordinal a.text a.time).receivedCount = key.declaredTotal
      · have hresult : result = ⟨none, .complete,
            linesOf (g.add a.ordinal a.text a.time).fragmentsByOrdinal key.declaredTotal,
            g.generation⟩ := by
          simp [result, groupStep, hlive, placeStep, hstored, hfull]
        obtain ⟨hlen, hlines⟩ := linesOf_spec hrange hfull
        rw [hresult]
        refine ⟨by simp [hcovers.mp hfull, hsteady', hnew], fun _ => ⟨hlen, fun b hb => ?_⟩, ?_⟩
        · exact hlines b.ordinal b.text (htracks'.2.2.2.2 b hb)
        · simp [Tracks]
      · have hresult : result = ⟨some (g.add a.ordinal a.text a.time), .pending, [], g.generation⟩ := by
          simp [result, groupStep, hlive, placeStep, hstored, hfull]
        rw [hresult, hopen]
        refine ⟨by simp [← hcovers, hfull], by simp, ?_⟩
        simpa using htracks'

/-- A conflict is with an earlier arrival of the ordinal that had another text. -/
lemma conflict_text {cfg : AssemblerConfig} {arrivals : List (Arrival ℚ PyStr)}
    {group : Option AssemblyGroup} (htracks : Tracks cfg arrivals group) {total number : Nat}
    {now : ℚ} {ordinal : Nat} {text : PyStr}
    (h : (groupStep cfg total number now ordinal text group).status = .conflict) :
    ∃ b ∈ arrivals, b.ordinal = ordinal ∧ b.text ≠ text := by
  cases hlive : liveGroup cfg now group with
  | none =>
    simp only [groupStep, hlive, Option.getD_none, placeStep, Dict.get?_empty] at h
    split at h <;> cases h
  | some g =>
    obtain ⟨rfl, -⟩ := liveGroup_eq_some.mp hlive
    simp only [groupStep, hlive, Option.getD_some, placeStep] at h
    cases hstored : g.fragmentsByOrdinal.get? ordinal with
    | none =>
      simp only [hstored] at h
      split at h <;> cases h
    | some stored =>
      simp only [hstored] at h
      split at h
      · cases h
      · next hne =>
        have hmem : ordinal ∈ ordinals arrivals := by
          rw [← htracks.mem_keys]
          exact (Dict.mem_keys_iff _ _).mpr ⟨stored, hstored⟩
        obtain ⟨b, hb, hbo⟩ := List.mem_map.mp hmem
        have hbtext := htracks.2.2.2.2 b hb
        rw [hbo, hstored] at hbtext
        exact ⟨b, hb, hbo, fun heq => hne ((Option.some.inj hbtext).trans heq)⟩

/-! ### Every prefix of a run -/

/-- One call keeps the group of a key in step with the arrivals of its generation. -/
lemma tracks_step {cfg : AssemblerConfig} (htimeout : 0 < cfg.timeout) {s : Assembler}
    (hs : s.WellFormed) (now : ℚ) (call : AssemblerCall) {key : AssemblyKey}
    {arrivals : List (Arrival ℚ PyStr)} (htracks : Tracks cfg arrivals (s.groups.get? key)) :
    Tracks cfg (stepArrivals cfg key arrivals (recordOf cfg s now call))
      ((call.apply cfg s now).1.groups.get? key) := by
  have hkept : ∀ s' ks, KeptOrDropped cfg now s s' ks key →
      Tracks cfg (if key ∈ ks then [] else arrivals) (s'.groups.get? key) := by
    rintro s' ks (⟨heq, hmem⟩ | ⟨g, -, hnone, hmem, -⟩)
    · rw [if_neg hmem, heq]
      exact htracks
    · rw [if_pos hmem, hnone]
      rfl
  rcases apply_cases htimeout hs now call with
    ⟨k, ordinal, text, s', out, hgf, happly, hspec⟩ | ⟨hgf, hquiet⟩
  · by_cases hk : k = key
    · subst hk
      obtain ⟨ho, hle, htwo⟩ := groupFeed_bounds hgf
      have hstep := (groupStep_tracks s.nextGeneration htracks (fun g hg => hs.groupOk k g hg)
        ⟨now, ordinal, text⟩ ho hle htwo).2.2
      simp only [hspec.status, hspec.group] at hstep
      have harrival : (recordOf cfg s now call).arrival cfg k = some ⟨now, ordinal, text⟩ := by
        simp [recordOf, CallRecord.arrival, hgf]
      have hresult : (recordOf cfg s now call).result = .outcome out := by simp [recordOf, happly]
      rw [stepArrivals, harrival, hresult, happly]
      simp only [CallResult.closes, CallResult.discardedKeys, decide_eq_true_eq]
      by_cases hclosed : out.status = .conflict ∨ out.status = .complete
      · rw [if_pos hclosed] at hstep ⊢
        exact hstep
      · rw [if_neg hclosed] at hstep ⊢
        have hopen : openArrivals cfg now arrivals (s.groups.get? k) =
            if k ∈ out.discardedKeys then [] else arrivals := by
          have hown := hspec.own
          rw [or_iff_left (fun h => hclosed (.inl h))] at hown
          cases hg : s.groups.get? k with
          | none =>
            rw [hg] at htracks
            rw [show arrivals = [] from htracks]
            simp [openArrivals]
          | some g =>
            cases hexp : isExpired cfg now g <;>
              simp [openArrivals, liveGroup, Option.filter, hown, hg, hexp]
        rw [hopen] at hstep
        exact hstep
    · have harrival : (recordOf cfg s now call).arrival cfg key = none := by
        simp [recordOf, CallRecord.arrival, hgf, hk]
      have hresult : (recordOf cfg s now call).result = .outcome out := by simp [recordOf, happly]
      rw [stepArrivals, harrival, hresult, happly]
      exact hkept s' _ (hspec.others key (Ne.symm hk))
  · have harrival : (recordOf cfg s now call).arrival cfg key = none := by
      simp [recordOf, CallRecord.arrival, hgf]
    rw [stepArrivals, harrival]
    rcases hquiet.kept key with h | ⟨-, hnone, hmem⟩
    · exact hkept _ _ h
    · rw [hnone]
      show (if key ∈ (recordOf cfg s now call).result.discardedKeys then [] else arrivals) = []
      split
      · rfl
      · next hnot =>
        cases hg : s.groups.get? key with
        | none =>
          rw [hg] at htracks
          exact htracks
        | some g => exact absurd (hmem.mpr ⟨g, hg⟩) hnot

/-- In every run, the group of every key holds the progress of its current generation. -/
theorem tracks_run {cfg : AssemblerConfig} (htimeout : 0 < cfg.timeout)
    (calls : List (ℚ × AssemblerCall)) (key : AssemblyKey) :
    (finalState cfg init calls).WellFormed ∧
      Tracks cfg (liveArrivals cfg key (run cfg init calls))
        ((finalState cfg init calls).groups.get? key) := by
  induction calls using List.reverseRecOn with
  | nil => exact ⟨init_wellFormed, rfl⟩
  | append_singleton calls c ih =>
    obtain ⟨now, call⟩ := c
    rw [run_concat, finalState_concat, liveArrivals_concat]
    exact ⟨apply_wellFormed htimeout ih.1 now call, tracks_step htimeout ih.1 now call ih.2⟩

/-- When a record of a run completes a key, and with which sentences. -/
lemma completes_iff {cfg : AssemblerConfig} (htimeout : 0 < cfg.timeout)
    {calls : List (ℚ × AssemblerCall)} {before after : List CallRecord} {r : CallRecord}
    (hrun : run cfg init calls = before ++ r :: after) (key : AssemblyKey) :
    (r.completes key = true ↔ ∃ a, r.arrival cfg key = some a ∧
        Covers key.declaredTotal (liveArrivals cfg key before ++ [a]) ∧
        Steady cfg.timeout (liveArrivals cfg key before ++ [a]) ∧
        a.ordinal ∉ ordinals (liveArrivals cfg key before)) ∧
      (r.completes key = true → r.sentences.length = key.declaredTotal ∧
        ∀ a, r.arrival cfg key = some a → ∀ b ∈ liveArrivals cfg key before ++ [a],
          r.sentences[b.ordinal - 1]? = some b.text) := by
  obtain ⟨earlier, call, later, -, rfl, hr, -⟩ := run_split hrun
  obtain ⟨hs, htracks⟩ := tracks_run htimeout earlier key
  have hresult : r.result = (call.apply cfg (finalState cfg init earlier) r.now).2 := by rw [hr]; rfl
  have hcall : r.call = call := by rw [hr]; rfl
  rcases apply_cases htimeout hs r.now call with
    ⟨k, ordinal, text, s', out, hgf, happly, hspec⟩ | ⟨hgf, hquiet⟩
  · rw [happly] at hresult
    have hcompletes : r.completes key = true ↔ out.status = .complete ∧ k = key := by
      simp [CallRecord.completes, hresult, hspec.groupKey]
    by_cases hk : k = key
    · subst hk
      obtain ⟨ho, hle, htwo⟩ := groupFeed_bounds hgf
      obtain ⟨hiff, hlines, -⟩ := groupStep_tracks (finalState cfg init earlier).nextGeneration htracks
        (fun g hg => hs.groupOk k g hg) ⟨r.now, ordinal, text⟩ ho hle htwo
      simp only [hspec.status, hspec.sentences] at hiff hlines
      have harrival : r.arrival cfg k = some ⟨r.now, ordinal, text⟩ := by
        simp [CallRecord.arrival, hcall, hgf]
      have hsentences : r.sentences = out.sentences := by simp [CallRecord.sentences, hresult]
      rw [hcompletes, harrival, hsentences]
      refine ⟨by simpa using hiff, fun h => ⟨(hlines h.1).1, ?_⟩⟩
      rintro a ⟨⟩
      exact (hlines h.1).2
    · have harrival : r.arrival cfg key = none := by simp [CallRecord.arrival, hcall, hgf, hk]
      rw [hcompletes, harrival]
      simp [hk]
  · have harrival : r.arrival cfg key = none := by simp [CallRecord.arrival, hcall, hgf]
    have hcompletes : r.completes key = false := by
      unfold CallRecord.completes
      split
      · next out hout => simp [(hquiet.noKey out (hresult ▸ hout)).1]
      · rfl
    simp [hcompletes, harrival]

/-! ### A group that is fed as a whole -/

/-- A live generation of the key is discarded by a call that is not for the key: it made room for
another group, or the assembler was reset. -/
def Evicted (cfg : AssemblerConfig) (key : AssemblyKey) (earlier : List CallRecord) (r : CallRecord) :
    Prop :=
  key ∈ r.result.discardedKeys ∧ r.arrival cfg key = none ∧
    ∀ last ∈ (progress (liveArrivals cfg key earlier)).getLast?, r.now - last.time < cfg.timeout

/-- A part of a run that feeds the fragments of one message, in any order and with any exact
duplicates, without a gap of the timeout and without an eviction. -/
structure FedAsGroup (cfg : AssemblerConfig) (key : AssemblyKey) (texts : List PyStr)
    (before window : List CallRecord) : Prop where
  two_le : 2 ≤ texts.length
  total : key.declaredTotal = texts.length
  closed : liveArrivals cfg key before = []
  fragments : ∀ a ∈ arrivalsFor cfg key window, texts[a.ordinal - 1]? = some a.text
  covers : Covers key.declaredTotal (arrivalsFor cfg key window)
  steady : Steady cfg.timeout (arrivalsFor cfg key window)
  notEvicted : ∀ earlier r later, window = earlier ++ r :: later →
    ¬Evicted cfg key (before ++ earlier) r

/-- A group that is fed as a whole completes exactly once, whatever duplicates it has. -/
def CompletesOnce : Prop :=
  ∀ (cfg : AssemblerConfig) (calls : List (ℚ × AssemblerCall)) (before window after : List CallRecord)
    (key : AssemblyKey) (texts : List PyStr), 0 < cfg.timeout →
    (calls.map Prod.fst).Pairwise (· ≤ ·) → run cfg init calls = before ++ window ++ after →
    FedAsGroup cfg key texts before window →
    (window.filter (CallRecord.completes key)).length = 1

lemma arrivalsFor_append (cfg : AssemblerConfig) (key : AssemblyKey) (rs qs : List CallRecord) :
    arrivalsFor cfg key (rs ++ qs) = arrivalsFor cfg key rs ++ arrivalsFor cfg key qs :=
  List.filterMap_append

lemma arrivalsFor_singleton (cfg : AssemblerConfig) (key : AssemblyKey) (r : CallRecord) :
    arrivalsFor cfg key [r] = (r.arrival cfg key).toList := by
  cases h : r.arrival cfg key <;> simp [arrivalsFor, h]

lemma arrival_time {cfg : AssemblerConfig} {key : AssemblyKey} {r : CallRecord}
    {a : Arrival ℚ PyStr} (h : r.arrival cfg key = some a) : a.time = r.now := by
  unfold CallRecord.arrival at h
  split at h
  · split at h
    · cases h
      rfl
    · cases h
  · cases h

/-- Live arrivals are arrivals. -/
lemma liveArrivals_subset (cfg : AssemblerConfig) (key : AssemblyKey) (rs qs : List CallRecord) :
    ∀ a ∈ liveArrivals cfg key (rs ++ qs), a ∈ liveArrivals cfg key rs ∨ a ∈ arrivalsFor cfg key qs := by
  induction qs using List.reverseRecOn with
  | nil =>
    intro a ha
    exact .inl (by simpa using ha)
  | append_singleton qs r ih =>
    intro a ha
    rw [← List.append_assoc, liveArrivals_concat, stepArrivals] at ha
    rw [arrivalsFor_append, arrivalsFor_singleton, List.mem_append]
    have hkept : a ∈ (if key ∈ r.result.discardedKeys then [] else liveArrivals cfg key (rs ++ qs)) →
        a ∈ liveArrivals cfg key rs ∨ a ∈ arrivalsFor cfg key qs := by
      intro h
      split at h
      · cases h
      · exact ih a h
    cases harrival : r.arrival cfg key with
    | none =>
      rw [harrival] at ha
      rcases hkept ha with h | h
      · exact .inl h
      · exact .inr (.inl h)
    | some b =>
      simp only [harrival] at ha
      split at ha
      · cases ha
      · rcases List.mem_append.mp ha with ha | ha
        · rcases hkept ha with h | h
          · exact .inl h
          · exact .inr (.inl h)
        · exact .inr (.inr (by simpa using ha))

/-- An arrival that comes in time and repeats no ordinal with another text joins its generation. -/
lemma liveArrivals_join {cfg : AssemblerConfig} (htimeout : 0 < cfg.timeout)
    {calls : List (ℚ × AssemblerCall)} {before after : List CallRecord} {r : CallRecord}
    (hrun : run cfg init calls = before ++ r :: after) {key : AssemblyKey} {a : Arrival ℚ PyStr}
    (harrival : r.arrival cfg key = some a)
    (hgap : ∀ last ∈ (progress (liveArrivals cfg key before)).getLast?,
      r.now - last.time < cfg.timeout)
    (htexts : ∀ b ∈ liveArrivals cfg key before, b.ordinal = a.ordinal → b.text = a.text) :
    liveArrivals cfg key (before ++ [r]) =
      if r.completes key then [] else liveArrivals cfg key before ++ [a] := by
  obtain ⟨earlier, call, later, -, rfl, hr, -⟩ := run_split hrun
  obtain ⟨hs, htracks⟩ := tracks_run htimeout earlier key
  have hresult : r.result = (call.apply cfg (finalState cfg init earlier) r.now).2 := by rw [hr]; rfl
  have hcall : r.call = call := by rw [hr]; rfl
  rcases apply_cases htimeout hs r.now call with
    ⟨k, ordinal, text, s', out, hgf, happly, hspec⟩ | ⟨hgf, -⟩
  · obtain ⟨rfl, rfl⟩ : k = key ∧ a = ⟨r.now, ordinal, text⟩ := by
      simp only [CallRecord.arrival, hcall, hgf] at harrival
      split at harrival
      · next hk => exact ⟨hk, (Option.some.inj harrival).symm⟩
      · cases harrival
    rw [happly] at hresult
    have halive : ∀ g, (finalState cfg init earlier).groups.get? k = some g →
        isExpired cfg r.now g = false := by
      intro g hg
      rw [hg] at htracks
      obtain ⟨hne, -, hlast, -, -⟩ := htracks
      cases hp : (progress (liveArrivals cfg k (run cfg init earlier))).getLast? with
      | none => exact absurd (progress_eq_nil.mp (List.getLast?_eq_none_iff.mp hp)) hne
      | some last =>
        have h := hgap last (by simp [hp])
        rw [hlast last (by simp [hp])] at h
        simpa [isExpired] using h
    have hconflict : out.status ≠ .conflict := by
      intro h
      rw [← hspec.status] at h
      obtain ⟨b, hb, hbo, hne⟩ := conflict_text htracks h
      exact hne (htexts b hb hbo)
    have hdiscard : k ∉ out.discardedKeys := by
      rw [hspec.own]
      rintro (⟨g, hg, hexp⟩ | h)
      · rw [halive g hg] at hexp
        cases hexp
      · exact hconflict h
    have hcloses : r.result.closes = r.completes k := by
      simp [CallResult.closes, CallRecord.completes, hresult, hspec.groupKey, hconflict]
    have hkeys : r.result.discardedKeys = out.discardedKeys := by rw [hresult]; rfl
    rw [liveArrivals_concat, stepArrivals, harrival, hkeys, if_neg hdiscard, hcloses]
  · simp [CallRecord.arrival, hcall, hgf] at harrival

/-- A property that a list gains has a first place where it does. -/
lemma exists_first {α : Type} {P : List α → Prop} {xs : List α} (hnil : ¬P []) (h : P xs) :
    ∃ ys y zs, xs = ys ++ y :: zs ∧ ¬P ys ∧ P (ys ++ [y]) := by
  induction xs using List.reverseRecOn with
  | nil => exact absurd h hnil
  | append_singleton xs x ih =>
    by_cases hxs : P xs
    · obtain ⟨ys, y, zs, rfl, hys, hy⟩ := ih hxs
      exact ⟨ys, y, zs ++ [x], by simp, hys, hy⟩
    · exact ⟨xs, x, [], rfl, hxs, h⟩

section Window

variable {cfg : AssemblerConfig} {calls : List (ℚ × AssemblerCall)}
  {before window after : List CallRecord} {key : AssemblyKey} {texts : List PyStr}

/-- Arrivals of one ordinal have one text. -/
lemma FedAsGroup.text_eq (h : FedAsGroup cfg key texts before window) {a b : Arrival ℚ PyStr}
    (ha : a ∈ arrivalsFor cfg key window) (hb : b ∈ arrivalsFor cfg key window)
    (heq : b.ordinal = a.ordinal) : b.text = a.text := by
  have h₁ := h.fragments a ha
  have h₂ := h.fragments b hb
  rw [heq, h₁] at h₂
  exact (Option.some.inj h₂).symm

/-- While an ordinal is missing, the next record comes less than the timeout after the last
progress: the missing ordinal comes later, and it comes in time. -/
lemma FedAsGroup.gap (h : FedAsGroup cfg key texts before window)
    (htimes : (window.map CallRecord.now).Pairwise (· ≤ ·)) {earlier later : List CallRecord}
    {r : CallRecord} (hwindow : window = earlier ++ r :: later)
    (hmissing : ¬Covers key.declaredTotal (arrivalsFor cfg key earlier)) :
    ∀ last ∈ (progress (arrivalsFor cfg key earlier)).getLast?, r.now - last.time < cfg.timeout := by
  have hsteady := h.steady
  have hcovers := h.covers
  rw [hwindow, arrivalsFor_append] at hsteady hcovers
  simp only [Covers, not_forall] at hmissing
  obtain ⟨o, ho, hle, hnot⟩ := hmissing
  obtain ⟨a, ha, rfl⟩ := List.mem_map.mp (hcovers o ho hle)
  have hmore : a ∈ arrivalsFor cfg key (r :: later) := by
    rcases List.mem_append.mp ha with ha | ha
    · exact absurd (List.mem_map_of_mem ha) hnot
    · exact ha
  obtain ⟨b, hb, -, hlast⟩ := hsteady.next hmore hnot
  have hnow : r.now ≤ b.time := by
    obtain ⟨q, hq, hbq⟩ := List.mem_filterMap.mp hb
    rw [arrival_time hbq]
    rw [hwindow, List.map_append, List.map_cons] at htimes
    have hafter := (List.pairwise_append.mp htimes).2.1
    rcases List.mem_cons.mp hq with rfl | hq
    · exact le_rfl
    · exact (List.pairwise_cons.mp hafter).1 _ (List.mem_map_of_mem hq)
  intro last hmem
  have hb := hlast last hmem
  linarith

/-- While an ordinal is missing, the generation holds all arrivals of the window. -/
lemma FedAsGroup.open (h : FedAsGroup cfg key texts before window) (htimeout : 0 < cfg.timeout)
    (htimes : (window.map CallRecord.now).Pairwise (· ≤ ·))
    (hrun : run cfg init calls = before ++ window ++ after) (earlier : List CallRecord) :
    ∀ later, window = earlier ++ later → ¬Covers key.declaredTotal (arrivalsFor cfg key earlier) →
      liveArrivals cfg key (before ++ earlier) = arrivalsFor cfg key earlier ∧
        ∀ r ∈ earlier, r.completes key = false := by
  induction earlier using List.reverseRecOn with
  | nil =>
    intro later _ _
    exact ⟨by simpa [arrivalsFor] using h.closed, by simp⟩
  | append_singleton earlier r ih =>
    intro later hwindow hmissing
    have hwindow' : window = earlier ++ r :: later := by rw [hwindow]; simp
    have hmissing' : ¬Covers key.declaredTotal (arrivalsFor cfg key earlier) := by
      intro hcovers
      refine hmissing (hcovers.mono ?_)
      rw [arrivalsFor_append]
      exact fun a ha => List.mem_append_left _ ha
    obtain ⟨hlive, hnone⟩ := ih (r :: later) hwindow' hmissing'
    have hgap := h.gap htimes hwindow' hmissing'
    rw [← hlive] at hgap
    have hrun' : run cfg init calls = (before ++ earlier) ++ r :: (later ++ after) := by
      rw [hrun, hwindow']
      simp
    have hiff := (completes_iff htimeout hrun' key).1
    have hincomplete : r.completes key = false := by
      rw [Bool.eq_false_iff, ne_eq, hiff]
      rintro ⟨a, harrival, hcovers, -⟩
      rw [hlive] at hcovers
      exact hmissing (by rwa [arrivalsFor_append, arrivalsFor_singleton, harrival])
    refine ⟨?_, ?_⟩
    · rw [← List.append_assoc, arrivalsFor_append, arrivalsFor_singleton]
      cases harrival : r.arrival cfg key with
      | none =>
        have hkept : key ∉ r.result.discardedKeys := fun hmem =>
          h.notEvicted earlier r later hwindow' ⟨hmem, harrival, hgap⟩
        rw [liveArrivals_concat, stepArrivals, harrival]
        simpa [hkept] using hlive
      | some a =>
        have ha : a ∈ arrivalsFor cfg key window := by
          rw [hwindow', arrivalsFor_append]
          exact List.mem_append_right _ (List.mem_filterMap.mpr ⟨r, List.mem_cons_self, harrival⟩)
        have htexts : ∀ b ∈ liveArrivals cfg key (before ++ earlier), b.ordinal = a.ordinal →
            b.text = a.text := by
          intro b hb
          rw [hlive] at hb
          refine h.text_eq ha ?_
          rw [hwindow', arrivalsFor_append]
          exact List.mem_append_left _ hb
        rw [liveArrivals_join htimeout hrun' harrival hgap htexts, hincomplete, hlive]
        rfl
    · intro q hq
      rcases List.mem_append.mp hq with hq | hq
      · exact hnone q hq
      · rw [List.mem_singleton.mp hq]
        exact hincomplete

/-- Every completion in the window has the texts of the message. -/
lemma FedAsGroup.sentences (h : FedAsGroup cfg key texts before window) (htimeout : 0 < cfg.timeout)
    (hrun : run cfg init calls = before ++ window ++ after) (earlier later : List CallRecord)
    {r : CallRecord} (hwindow : window = earlier ++ r :: later) (hcompletes : r.completes key = true) :
    r.sentences = texts := by
  have hrun' : run cfg init calls = (before ++ earlier) ++ r :: (later ++ after) := by
    rw [hrun, hwindow]
    simp
  obtain ⟨hiff, hlines⟩ := completes_iff htimeout hrun' key
  obtain ⟨a, harrival, hcovers, -, -⟩ := hiff.mp hcompletes
  obtain ⟨hlen, hget⟩ := hlines hcompletes
  have hsub : ∀ b ∈ liveArrivals cfg key (before ++ earlier) ++ [a],
      b ∈ arrivalsFor cfg key window := by
    intro b hb
    rw [hwindow, arrivalsFor_append, List.mem_append]
    rcases List.mem_append.mp hb with hb | hb
    · rcases liveArrivals_subset cfg key before earlier b hb with hb | hb
      · rw [h.closed] at hb
        cases hb
      · exact .inl hb
    · rw [List.mem_singleton.mp hb]
      exact .inr (List.mem_filterMap.mpr ⟨r, List.mem_cons_self, harrival⟩)
  refine List.ext_getElem? (fun i => ?_)
  by_cases hi : i < key.declaredTotal
  · obtain ⟨b, hb, hbo⟩ := List.mem_map.mp (hcovers (i + 1) (by omega) (by omega))
    have h₁ := hget a harrival b hb
    have h₂ := h.fragments b (hsub b hb)
    rw [hbo, Nat.add_sub_cancel] at h₁ h₂
    rw [h₁, h₂]
  · rw [List.getElem?_eq_none (by omega), List.getElem?_eq_none (by rw [← h.total]; omega)]

/-- A completion needs every ordinal among the arrivals after the completion before it. -/
lemma covers_of_completes (htimeout : 0 < cfg.timeout) {earlier later : List CallRecord} {r : CallRecord}
    (hrun : run cfg init calls = earlier ++ later ++ after) (hclosed : liveArrivals cfg key earlier = [])
    (hr : r ∈ later) (hcompletes : r.completes key = true) :
    Covers key.declaredTotal (arrivalsFor cfg key later) := by
  obtain ⟨front, back, rfl⟩ := List.append_of_mem hr
  have hrun' : run cfg init calls = (earlier ++ front) ++ r :: (back ++ after) := by
    rw [hrun]
    simp
  obtain ⟨a, harrival, hcovers, -, -⟩ := (completes_iff htimeout hrun' key).1.mp hcompletes
  refine hcovers.mono (fun b hb => ?_)
  rw [arrivalsFor_append, List.mem_append]
  rcases List.mem_append.mp hb with hb | hb
  · rcases liveArrivals_subset cfg key earlier front b hb with hb | hb
    · rw [hclosed] at hb
      cases hb
    · exact .inl hb
  · rw [List.mem_singleton.mp hb]
    exact .inr (List.mem_filterMap.mpr ⟨r, List.mem_cons_self, harrival⟩)

/-- A group that is fed as a whole completes with the arrival of the last missing ordinal, with the
texts of the message, and again only if later duplicates supply every ordinal once more. -/
lemma FedAsGroup.completes (h : FedAsGroup cfg key texts before window) (htimeout : 0 < cfg.timeout)
    (htimes : (window.map CallRecord.now).Pairwise (· ≤ ·))
    (hrun : run cfg init calls = before ++ window ++ after) :
    ∃ earlier r later, window = earlier ++ r :: later ∧ r.completes key = true ∧
      r.sentences = texts ∧ (∀ q ∈ earlier, q.completes key = false) ∧
      ¬Covers key.declaredTotal (arrivalsFor cfg key earlier) ∧
      Covers key.declaredTotal (arrivalsFor cfg key (earlier ++ [r])) ∧
      ∀ q ∈ later, q.completes key = true →
        q.sentences = texts ∧ Covers key.declaredTotal (arrivalsFor cfg key later) := by
  have hnil : ¬Covers key.declaredTotal (arrivalsFor cfg key []) := by
    intro hcovers
    have htwo := h.two_le
    rw [← h.total] at htwo
    have hone := hcovers 1 le_rfl (by omega)
    cases hone
  obtain ⟨earlier, r, later, hwindow, hmissing, hfull⟩ := exists_first
    (P := fun rs => Covers key.declaredTotal (arrivalsFor cfg key rs)) hnil h.covers
  obtain ⟨hlive, hnone⟩ := h.open htimeout htimes hrun earlier (r :: later) hwindow hmissing
  have hrun' : run cfg init calls = (before ++ earlier) ++ r :: (later ++ after) := by
    rw [hrun, hwindow]
    simp
  obtain ⟨a, harrival⟩ : ∃ a, r.arrival cfg key = some a := by
    cases harrival : r.arrival cfg key with
    | some a => exact ⟨a, rfl⟩
    | none =>
      rw [arrivalsFor_append, arrivalsFor_singleton, harrival] at hfull
      exact absurd (by simpa using hfull) hmissing
  rw [arrivalsFor_append, arrivalsFor_singleton, harrival] at hfull
  have hnew : a.ordinal ∉ ordinals (arrivalsFor cfg key earlier) := by
    intro hmem
    refine hmissing (fun o ho hle => ?_)
    rcases List.mem_append.mp (by simpa [ordinals] using hfull o ho hle :
      o ∈ ordinals (arrivalsFor cfg key earlier) ++ [a.ordinal]) with h | h
    · exact h
    · rw [List.mem_singleton.mp h]
      exact hmem
  have hsteady : Steady cfg.timeout (arrivalsFor cfg key earlier ++ [a]) := by
    have hs := h.steady
    have hsplit : window = (earlier ++ [r]) ++ later := by rw [hwindow]; simp
    rw [hsplit, arrivalsFor_append, arrivalsFor_append, arrivalsFor_singleton, harrival] at hs
    exact hs.of_append
  have hcompletes : r.completes key = true := by
    rw [(completes_iff htimeout hrun' key).1, hlive]
    exact ⟨a, harrival, hfull, hsteady, hnew⟩
  have hclosed : liveArrivals cfg key (before ++ earlier ++ [r]) = [] := by
    have hgap := h.gap htimes hwindow hmissing
    rw [← hlive] at hgap
    rw [liveArrivals_join htimeout hrun' harrival hgap, if_pos hcompletes]
    intro b hb hbo
    rw [hlive] at hb
    exact absurd (hbo ▸ List.mem_map_of_mem hb) hnew
  refine ⟨earlier, r, later, hwindow, hcompletes, h.sentences htimeout hrun _ _ hwindow hcompletes,
    hnone,
    hmissing, by rwa [arrivalsFor_append, arrivalsFor_singleton, harrival],
    fun q hq hcq => ⟨?_, ?_⟩⟩
  · obtain ⟨front, back, rfl⟩ := List.append_of_mem hq
    exact h.sentences htimeout hrun (earlier ++ r :: front) back (by rw [hwindow]; simp) hcq
  · have hrun'' : run cfg init calls = (before ++ earlier ++ [r]) ++ later ++ after := by
      rw [hrun, hwindow]
      simp
    exact covers_of_completes htimeout hrun'' hclosed hq hcq

end Window

/-- Completion is sound and complete: a record completes a key exactly when it supplies the last
missing ordinal of a steady generation, and then it has the texts in ordinal order. A group that is
fed as a whole completes once, and once more only where later duplicates cover it again. -/
theorem completion_sound_complete {cfg : AssemblerConfig} (htimeout : 0 < cfg.timeout)
    (calls : List (ℚ × AssemblerCall)) (htimes : (calls.map Prod.fst).Pairwise (· ≤ ·)) :
    (∀ before r after, run cfg init calls = before ++ r :: after → ∀ key,
      (r.completes key = true ↔ ∃ a, r.arrival cfg key = some a ∧
          Covers key.declaredTotal (liveArrivals cfg key before ++ [a]) ∧
          Steady cfg.timeout (liveArrivals cfg key before ++ [a]) ∧
          a.ordinal ∉ ordinals (liveArrivals cfg key before)) ∧
        (r.completes key = true → r.sentences.length = key.declaredTotal ∧
          ∀ a, r.arrival cfg key = some a → ∀ b ∈ liveArrivals cfg key before ++ [a],
            r.sentences[b.ordinal - 1]? = some b.text)) ∧
      ∀ before window after, run cfg init calls = before ++ window ++ after → ∀ key texts,
        FedAsGroup cfg key texts before window →
        ∃ earlier r later, window = earlier ++ r :: later ∧ r.completes key = true ∧
          r.sentences = texts ∧ (∀ q ∈ earlier, q.completes key = false) ∧
          ¬Covers key.declaredTotal (arrivalsFor cfg key earlier) ∧
          Covers key.declaredTotal (arrivalsFor cfg key (earlier ++ [r])) ∧
          ∀ q ∈ later, q.completes key = true →
            q.sentences = texts ∧ Covers key.declaredTotal (arrivalsFor cfg key later) := by
  refine ⟨fun before r after hrun key => completes_iff htimeout hrun key, ?_⟩
  intro before window after hrun key texts h
  refine h.completes htimeout ?_ hrun
  have hall := run_times cfg init calls ▸ htimes
  rw [hrun, List.map_append, List.map_append] at hall
  exact (List.pairwise_append.mp (List.pairwise_append.mp hall).1).2.1

/-- Two fragments, the second one first and with a duplicate. -/
def outOfOrder : List (ℚ × AssemblerCall) :=
  [(0, .feedOutcome (str "a") (str "!AIVDM,2,2,3,A,q,0")),
    (1, .feedOutcome (str "a") (str "!AIVDM,2,2,3,A,q,0")),
    (1, .feedOutcome (str "a") (str "!AIVDM,2,1,3,A,p,0"))]

/-- Two fragments and then exact duplicates of both. -/
def fedTwice : List (ℚ × AssemblerCall) :=
  [(0, .feedOutcome (str "a") (str "!AIVDM,2,1,3,A,p,0")),
    (0, .feedOutcome (str "a") (str "!AIVDM,2,2,3,A,q,0")),
    (0, .feedOutcome (str "a") (str "!AIVDM,2,1,3,A,p,0")),
    (0, .feedOutcome (str "a") (str "!AIVDM,2,2,3,A,q,0"))]

/-- The key and the texts of the two fragments. -/
def pairKey : AssemblyKey := ⟨str "a", str "3", str "A", 2⟩

def pairTexts : List PyStr := [str "!AIVDM,2,1,3,A,p,0", str "!AIVDM,2,2,3,A,q,0"]

instance decidableCovers {τ α : Type} (total : Nat) (arrivals : List (Arrival τ α)) :
    Decidable (Covers total arrivals) :=
  decidable_of_iff (∀ o ∈ List.range total, o + 1 ∈ ordinals arrivals) (by
    constructor
    · intro h o ho hle
      have hmem := h (o - 1) (List.mem_range.mpr (by omega))
      rwa [Nat.sub_add_cancel ho] at hmem
    · intro h o ho
      exact h (o + 1) (by omega) (by rw [List.mem_range] at ho; omega))

lemma fedAsGroup_of_kept {cfg : AssemblerConfig} {key : AssemblyKey} {texts : List PyStr}
    {window : List CallRecord} (htwo : 2 ≤ texts.length) (htotal : key.declaredTotal = texts.length)
    (hfragments : ∀ a ∈ arrivalsFor cfg key window, texts[a.ordinal - 1]? = some a.text)
    (hcovers : Covers key.declaredTotal (arrivalsFor cfg key window))
    (hsteady : Steady cfg.timeout (arrivalsFor cfg key window))
    (hkept : ∀ r ∈ window, key ∉ r.result.discardedKeys) :
    FedAsGroup cfg key texts [] window where
  two_le := htwo
  total := htotal
  closed := rfl
  fragments := hfragments
  covers := hcovers
  steady := hsteady
  notEvicted := by
    rintro earlier r later rfl ⟨hmem, -, -⟩
    exact hkept r (by simp) hmem

theorem completion_outOfOrder :
    ∃ earlier r later, run ⟨2, none, none⟩ init outOfOrder = earlier ++ r :: later ∧
      r.completes pairKey = true ∧ r.sentences = pairTexts ∧
      (∀ q ∈ earlier, q.completes pairKey = false) ∧
      ¬Covers pairKey.declaredTotal (arrivalsFor ⟨2, none, none⟩ pairKey earlier) ∧
      Covers pairKey.declaredTotal (arrivalsFor ⟨2, none, none⟩ pairKey (earlier ++ [r])) ∧
      ∀ q ∈ later, q.completes pairKey = true →
        q.sentences = pairTexts ∧
          Covers pairKey.declaredTotal (arrivalsFor ⟨2, none, none⟩ pairKey later) :=
  (@completion_sound_complete ⟨2, none, none⟩ (by decide +kernel) outOfOrder
    (by decide +kernel)).2 [] _ [] (by simp) pairKey pairTexts
    (fedAsGroup_of_kept (by decide) rfl (by decide +kernel) (by decide +kernel)
      (by unfold Steady; decide +kernel) (by decide +kernel))

/-- Exact duplicates of a whole group, after its completion, complete a second time. -/
theorem not_completesOnce : ¬CompletesOnce := by
  intro h
  have hone := h ⟨1, none, none⟩ fedTwice [] (run ⟨1, none, none⟩ init fedTwice) [] pairKey pairTexts
    (by decide +kernel) (by decide +kernel) (by simp)
    (fedAsGroup_of_kept (by decide) rfl (by decide +kernel) (by decide +kernel)
      (by unfold Steady; decide +kernel) (by decide +kernel))
  have htwo : ((run ⟨1, none, none⟩ init fedTwice).filter (CallRecord.completes pairKey)).length = 2 := by
    decide +kernel
  omega

end Assembler

end AisMixer

import AisMixer.DataPlane.ProcessorSteps
import AisMixer.DataPlane.AssemblerGenerations

/-!
# The metadata of multipart groups

The `c` and `g` values that a completed group goes out with come from the arrivals of its own
generation. The contexts of the processor live outside the assembler, so the invariant is that
they describe the generations that are pending there, and nothing else.
-/

namespace AisMixer
open Library Assembler

/-- The arrival brings the text for the ordinal. -/
def SentenceReport.Supplies (r : SentenceReport) (ordinal : Nat) (text : PyStr) : Prop :=
  ∃ fragment, r.parsed.fragment = some fragment ∧ fragment.ordinal = ordinal ∧ r.parsed.text = .ok text

namespace Processor

/-- The arrivals that met the group with the given identity. -/
def arrivalsOf (generation : Nat) (reports : List SentenceReport) : List SentenceReport :=
  reports.filter (fun r => decide (r.outcome.generation = some generation))

lemma arrivalsOf_append (generation : Nat) (reports more : List SentenceReport) :
    arrivalsOf generation (reports ++ more) = arrivalsOf generation reports ++ arrivalsOf generation more :=
  List.filter_append _ _

lemma arrivalsOf_concat_of_eq {generation : Nat} {r : SentenceReport}
    (h : r.outcome.generation = some generation) (reports : List SentenceReport) :
    arrivalsOf generation (reports ++ [r]) = arrivalsOf generation reports ++ [r] := by
  simp [arrivalsOf, h]

lemma arrivalsOf_concat_of_ne {generation : Nat} {r : SentenceReport}
    (h : r.outcome.generation ≠ some generation) (reports : List SentenceReport) :
    arrivalsOf generation (reports ++ [r]) = arrivalsOf generation reports := by
  simp [arrivalsOf, h]

/-- The group id that an arrival offers. -/
def ingressGid (cfg : ProcessingConfig) (parsed : ParsedSentence) : Option PyStr :=
  if cfg.preserveIngressGid then currentIngressGid parsed else none

/-- The least of the valid `c` values of the arrivals, `none` if there are none. -/
def LeastC (cfg : ProcessingConfig) (arrivals : List SentenceReport) : Option Int → Prop
  | none => ∀ a ∈ arrivals, validC cfg a.parsed = none
  | some c => IsLeast {c | ∃ a ∈ arrivals, validC cfg a.parsed = some c} c

/-- The group ids of the arrivals. -/
def OffersGid (cfg : ProcessingConfig) (arrivals : List SentenceReport) (gid : PyStr) : Prop :=
  ∃ a ∈ arrivals, ingressGid cfg a.parsed = some gid

/-- The least value after one more arrival. -/
def leastWith : Option Int → Option Int → Option Int
  | least, none => least
  | none, some c => some c
  | some previous, some c => some (min previous c)

lemma LeastC.concat {cfg : ProcessingConfig} {arrivals : List SentenceReport} {least : Option Int}
    (h : LeastC cfg arrivals least) (r : SentenceReport) :
    LeastC cfg (arrivals ++ [r]) (leastWith least (validC cfg r.parsed)) := by
  cases hc : validC cfg r.parsed with
  | none =>
    cases least with
    | none =>
      intro a ha
      rcases List.mem_append.mp ha with ha | ha
      · exact h a ha
      · rw [List.mem_singleton.mp ha, hc]
    | some previous =>
      obtain ⟨⟨a, ha, hac⟩, hle⟩ := h
      refine ⟨⟨a, List.mem_append_left _ ha, hac⟩, ?_⟩
      rintro c ⟨b, hb, hbc⟩
      rcases List.mem_append.mp hb with hb | hb
      · exact hle ⟨b, hb, hbc⟩
      · rw [List.mem_singleton.mp hb, hc] at hbc
        cases hbc
  | some c =>
    have hmem : r ∈ arrivals ++ [r] := by simp
    cases least with
    | none =>
      refine ⟨⟨r, hmem, hc⟩, ?_⟩
      rintro c' ⟨b, hb, hbc⟩
      rcases List.mem_append.mp hb with hb | hb
      · rw [h b hb] at hbc
        cases hbc
      · rw [List.mem_singleton.mp hb, hc] at hbc
        exact (Option.some.inj hbc).le
    | some previous =>
      obtain ⟨⟨a, ha, hac⟩, hle⟩ := h
      constructor
      · rcases min_choice previous c with hmin | hmin
        · exact ⟨a, List.mem_append_left _ ha, by rw [hmin, hac]⟩
        · exact ⟨r, hmem, by rw [hmin, hc]⟩
      · rintro c' ⟨b, hb, hbc⟩
        rcases List.mem_append.mp hb with hb | hb
        · exact (min_le_left _ _).trans (hle ⟨b, hb, hbc⟩)
        · rw [List.mem_singleton.mp hb, hc] at hbc
          exact (min_le_right _ _).trans (Option.some.inj hbc).le

lemma offersGid_concat {cfg : ProcessingConfig} {arrivals : List SentenceReport} (r : SentenceReport)
    (gid : PyStr) :
    OffersGid cfg (arrivals ++ [r]) gid ↔ OffersGid cfg arrivals gid ∨ ingressGid cfg r.parsed = some gid := by
  simp only [OffersGid, List.mem_append, List.mem_singleton, or_and_right, exists_or, exists_eq_left]

/-! ### What an arrival does to the contexts -/

section Contexts

variable (cfg : ProcessingConfig) (ctx : MultipartContexts) (parsed : ParsedSentence)
  {outcome : AssemblyOutcome} {key : AssemblyKey}

/-- The group ids that the contexts have for a key. -/
def gidsOf (ctx : MultipartContexts) (key : AssemblyKey) : Dict PyStr Unit :=
  (ctx.gid.get? key).getD .empty

lemma observe_quiet (hkey : outcome.groupKey = none) :
    observe cfg ctx parsed outcome = ctx.discard outcome.discardedKeys := by
  simp [observe, hkey]

/-- A conflict leaves no metadata. -/
lemma observe_conflict (hstatus : outcome.status = .conflict) :
    observe cfg ctx parsed outcome = ctx.discard outcome.discardedKeys := by
  unfold observe
  cases outcome.groupKey with
  | none => rfl
  | some key => simp [hstatus]

lemma observe_c (hkey : outcome.groupKey = some key)
    (hstatus : outcome.status = .pending ∨ outcome.status = .duplicate ∨ outcome.status = .complete) :
    (observe cfg ctx parsed outcome).c.get? key =
      leastWith ((ctx.discard outcome.discardedKeys).c.get? key) (validC cfg parsed) := by
  simp only [observe, hkey, if_pos hstatus]
  have hc : ∀ c : MultipartContexts, ((c.observeC key (validC cfg parsed)).observeGid key
      (if cfg.preserveIngressGid then currentIngressGid parsed else none)).c.get? key =
        leastWith (c.c.get? key) (validC cfg parsed) := by
    intro c
    have hgid : ∀ (c : MultipartContexts) (gid : Option PyStr), (c.observeGid key gid).c = c.c := by
      intro c gid
      cases gid <;> rfl
    rw [hgid]
    cases validC cfg parsed with
    | none => simp [MultipartContexts.observeC, leastWith]
    | some v => cases hget : c.c.get? key <;> simp [MultipartContexts.observeC, leastWith, hget]
  have hs : ∀ c : MultipartContexts, (c.observeS key parsed.tag).c = c.c := by
    intro c
    unfold MultipartContexts.observeS
    split <;> rfl
  split
  · exact hc _
  · rw [hs]
    exact hc _

lemma observe_gid (hkey : outcome.groupKey = some key)
    (hstatus : outcome.status = .pending ∨ outcome.status = .duplicate ∨ outcome.status = .complete)
    (gid : PyStr) :
    gid ∈ (gidsOf (observe cfg ctx parsed outcome) key).keys ↔
      gid ∈ (gidsOf (ctx.discard outcome.discardedKeys) key).keys ∨
        ingressGid cfg parsed = some gid := by
  simp only [observe, hkey, if_pos hstatus]
  have hg : ∀ c : MultipartContexts, gid ∈ (gidsOf ((c.observeC key (validC cfg parsed)).observeGid key
      (if cfg.preserveIngressGid then currentIngressGid parsed else none)) key).keys ↔
        gid ∈ (gidsOf c key).keys ∨ ingressGid cfg parsed = some gid := by
    intro c
    have hc : (c.observeC key (validC cfg parsed)).gid = c.gid := by
      cases validC cfg parsed <;> rfl
    rw [← ingressGid]
    cases ingressGid cfg parsed with
    | none => simp [MultipartContexts.observeGid, gidsOf, hc]
    | some value =>
      simp only [MultipartContexts.observeGid, gidsOf, hc, Dict.get?_set, if_true, Option.getD_some,
        Option.some.injEq]
      rw [Dict.mem_keys_iff, Dict.mem_keys_iff]
      by_cases hv : value = gid
      · simp [hv]
      · simp [hv]
  have hs : ∀ c : MultipartContexts, gidsOf (c.observeS key parsed.tag) key = gidsOf c key := by
    intro c
    unfold MultipartContexts.observeS
    split <;> rfl
  split
  · exact hg _
  · rw [hs]
    exact hg _

/-- An arrival for another key only drops what its outcome reports as discarded. -/
lemma observe_other {other : AssemblyKey} (hkey : outcome.groupKey ≠ some other) :
    (observe cfg ctx parsed outcome).c.get? other = (ctx.discard outcome.discardedKeys).c.get? other ∧
      (observe cfg ctx parsed outcome).gid.get? other =
        (ctx.discard outcome.discardedKeys).gid.get? other := by
  unfold observe
  cases hgroup : outcome.groupKey with
  | none => exact ⟨rfl, rfl⟩
  | some key =>
    have hne : key ≠ other := fun h => hkey (h ▸ hgroup)
    have hc : ∀ (c : MultipartContexts) (v : Option Int),
        (c.observeC key v).c.get? other = c.c.get? other ∧ (c.observeC key v).gid = c.gid := by
      intro c v
      cases v <;> simp [MultipartContexts.observeC, hne]
    have hg : ∀ (c : MultipartContexts) (v : Option PyStr),
        (c.observeGid key v).gid.get? other = c.gid.get? other ∧ (c.observeGid key v).c = c.c := by
      intro c v
      cases v <;> simp [MultipartContexts.observeGid, hne]
    have hs : ∀ c : MultipartContexts,
        (c.observeS key parsed.tag).c = c.c ∧ (c.observeS key parsed.tag).gid = c.gid := by
      intro c
      unfold MultipartContexts.observeS
      split <;> exact ⟨rfl, rfl⟩
    simp only
    split
    · split
      · rw [(hg _ _).2, (hc _ _).1, (hg _ _).1, (hc _ _).2]
        exact ⟨rfl, rfl⟩
      · rw [(hs _).1, (hs _).2, (hg _ _).2, (hc _ _).1, (hg _ _).1, (hc _ _).2]
        exact ⟨rfl, rfl⟩
    · exact ⟨rfl, rfl⟩

end Contexts

/-! ### The contexts describe the pending generations -/

@[simp] lemma discard_c (ctx : MultipartContexts) (keys : List AssemblyKey) (key : AssemblyKey) :
    (ctx.discard keys).c.get? key = if key ∈ keys then none else ctx.c.get? key :=
  Dict.get?_eraseAll _ _ _

@[simp] lemma discard_gid (ctx : MultipartContexts) (keys : List AssemblyKey) (key : AssemblyKey) :
    (ctx.discard keys).gid.get? key = if key ∈ keys then none else ctx.gid.get? key :=
  Dict.get?_eraseAll _ _ _

/-- The fragments and the metadata of a key, as the arrivals of its generation make them. -/
structure Describes (cfg : ProcessingConfig) (key : AssemblyKey) (arrivals : List SentenceReport)
    (fragments : Nat → Option PyStr) (ctx : MultipartContexts) : Prop where
  member : ∀ a ∈ arrivals, a.outcome.groupKey = some key
  stored : ∀ ordinal text, fragments ordinal = some text → ∃ a ∈ arrivals, a.Supplies ordinal text
  supplied : ∀ a ∈ arrivals, ∃ ordinal text, a.Supplies ordinal text ∧ fragments ordinal = some text
  c : LeastC cfg arrivals (ctx.c.get? key)
  gid : ∀ gid, gid ∈ (gidsOf ctx key).keys ↔ OffersGid cfg arrivals gid

section Describes

variable {cfg : ProcessingConfig} {key : AssemblyKey} {arrivals : List SentenceReport}
  {fragments : Nat → Option PyStr} {ctx ctx' : MultipartContexts}

lemma Describes.nil (hc : ctx.c.get? key = none) (hgid : ctx.gid.get? key = none) :
    Describes cfg key [] (fun _ => none) ctx where
  member := by simp
  stored := by simp
  supplied := by simp
  c := by simp [hc, LeastC]
  gid := by simp [gidsOf, hgid, OffersGid]

lemma Describes.congr (h : Describes cfg key arrivals fragments ctx)
    (hc : ctx'.c.get? key = ctx.c.get? key) (hgid : ctx'.gid.get? key = ctx.gid.get? key) :
    Describes cfg key arrivals fragments ctx' where
  member := h.member
  stored := h.stored
  supplied := h.supplied
  c := by
    rw [hc]
    exact h.c
  gid := by
    rw [gidsOf, hgid]
    exact h.gid

/-- One more arrival for the group, with a new ordinal or a text that the group has. -/
lemma Describes.arrive {r : SentenceReport} {ordinal : Nat} {text : PyStr}
    (h : Describes cfg key arrivals fragments (ctx.discard r.outcome.discardedKeys))
    (hkey : r.outcome.groupKey = some key)
    (hstatus : r.outcome.status = .pending ∨ r.outcome.status = .duplicate ∨ r.outcome.status = .complete)
    (hsupplies : r.Supplies ordinal text)
    (hstored : fragments ordinal = none ∨ fragments ordinal = some text) :
    Describes cfg key (arrivals ++ [r]) (fun o => if ordinal = o then some text else fragments o)
      (observe cfg ctx r.parsed r.outcome) where
  member := by
    intro a ha
    rcases List.mem_append.mp ha with ha | ha
    · exact h.member a ha
    · rw [List.mem_singleton.mp ha, hkey]
  stored := by
    intro o t ho
    by_cases heq : ordinal = o
    · rw [if_pos heq] at ho
      obtain rfl := Option.some.inj ho
      exact ⟨r, by simp, heq ▸ hsupplies⟩
    · rw [if_neg heq] at ho
      obtain ⟨a, ha, hat⟩ := h.stored o t ho
      exact ⟨a, List.mem_append_left _ ha, hat⟩
  supplied := by
    intro a ha
    rcases List.mem_append.mp ha with ha | ha
    · obtain ⟨o, t, hat, ho⟩ := h.supplied a ha
      refine ⟨o, t, hat, ?_⟩
      by_cases heq : ordinal = o
      · subst heq
        rcases hstored with hnone | hsome
        · rw [hnone] at ho
          cases ho
        · rw [if_pos rfl, ← hsome, ho]
      · rw [if_neg heq, ho]
    · rw [List.mem_singleton.mp ha]
      exact ⟨ordinal, text, hsupplies, if_pos rfl⟩
  c := by
    rw [observe_c cfg ctx r.parsed hkey hstatus]
    exact h.c.concat r
  gid := by
    intro gid
    rw [observe_gid cfg ctx r.parsed hkey hstatus, offersGid_concat, h.gid]

end Describes

/-- What holds of one key: its group is described, or it has no metadata. -/
def KeyTracked (cfg : ProcessingConfig) (reports : List SentenceReport) (ctx : MultipartContexts)
    (key : AssemblyKey) (group : Option AssemblyGroup) : Prop :=
  match group with
  | some g => Describes cfg key (arrivalsOf g.generation reports) g.fragmentsByOrdinal.get? ctx
  | none => ctx.c.get? key = none ∧ ctx.gid.get? key = none

/-- The state of the contexts after the reports of a run. -/
structure Tracked (cfg : ProcessorConfig) (p : Processor) (reports : List SentenceReport) : Prop where
  wellFormed : p.assembler.WellFormed
  old : ∀ r ∈ reports, ∀ n, r.outcome.generation = some n → n < p.assembler.nextGeneration
  keys : ∀ key, KeyTracked cfg.processing reports p.contexts key (p.assembler.groups.get? key)

lemma tracked_start (cfg : ProcessorConfig) (startNs : Int) : Tracked cfg (.init startNs) [] where
  wellFormed := init_wellFormed
  old := by simp
  keys key := ⟨rfl, rfl⟩

section Tracked

variable {cfg : ProcessorConfig} {env : Environment} {p p' : Processor} {reports : List SentenceReport}
  {now : ℚ} {key : AssemblyKey} {ordinal : Nat} {text : PyStr} {s' : Assembler} {out : AssemblyOutcome}

/-- The group that an arrival meets. -/
def metGroup (cfg : AssemblerConfig) (s : Assembler) (now : ℚ) (key : AssemblyKey) : AssemblyGroup :=
  (liveGroup cfg now (s.groups.get? key)).getD ⟨s.nextGeneration, .empty, now⟩

lemma feedSpec_generation (hspec : FeedSpec cfg.assembler p.assembler now key ordinal text s' out) :
    out.generation = some (metGroup cfg.assembler p.assembler now key).generation := by
  rw [hspec.generation, groupStep, placeStep_generation]
  rfl

/-- A live group is not among the discarded ones, unless the arrival conflicts with it. -/
lemma live_kept (hspec : FeedSpec cfg.assembler p.assembler now key ordinal text s' out)
    (hstatus : out.status ≠ .conflict) {g : AssemblyGroup}
    (hlive : liveGroup cfg.assembler now (p.assembler.groups.get? key) = some g) :
    key ∉ out.discardedKeys := by
  obtain ⟨hg, hexp⟩ := liveGroup_eq_some.mp hlive
  rw [hspec.own]
  rintro (⟨g', hg', hexp'⟩ | hconflict)
  · rw [hg] at hg'
    obtain rfl := Option.some.inj hg'
    rw [hexp] at hexp'
    cases hexp'
  · exact hstatus hconflict

/-- Without a live group the key has none, or its group is discarded. -/
lemma expired_discarded (hspec : FeedSpec cfg.assembler p.assembler now key ordinal text s' out)
    (hlive : liveGroup cfg.assembler now (p.assembler.groups.get? key) = none) :
    p.assembler.groups.get? key = none ∨ key ∈ out.discardedKeys := by
  cases hg : p.assembler.groups.get? key with
  | none => exact .inl rfl
  | some g =>
    have hexp : isExpired cfg.assembler now g = true := by
      by_contra hexp
      simp [hg, liveGroup, Option.filter, hexp] at hlive
    exact .inr (hspec.own.mpr (.inl ⟨g, hg, hexp⟩))

/-- No arrival has met the group that will be opened next. -/
lemma Tracked.fresh (h : Tracked cfg p reports) : arrivalsOf p.assembler.nextGeneration reports = [] := by
  refine List.filter_eq_nil_iff.mpr (fun r hr => ?_)
  simp only [decide_eq_true_eq]
  intro heq
  exact absurd (h.old r hr _ heq) (lt_irrefl _)

/-- The group that an arrival meets is described by the arrivals of its generation, once the
discarded generations have lost their metadata. -/
lemma Tracked.met (h : Tracked cfg p reports)
    (hspec : FeedSpec cfg.assembler p.assembler now key ordinal text s' out)
    (hstatus : out.status ≠ .conflict) :
    Describes cfg.processing key
      (arrivalsOf (metGroup cfg.assembler p.assembler now key).generation reports)
      (metGroup cfg.assembler p.assembler now key).fragmentsByOrdinal.get?
      (p.contexts.discard out.discardedKeys) := by
  have hold := h.keys key
  unfold metGroup
  cases hlive : liveGroup cfg.assembler now (p.assembler.groups.get? key) with
  | some g =>
    have hkept := live_kept hspec hstatus hlive
    rw [(liveGroup_eq_some.mp hlive).1] at hold
    exact Describes.congr hold (by simp [hkept]) (by simp [hkept])
  | none =>
    have hgone : (p.contexts.discard out.discardedKeys).c.get? key = none ∧
        (p.contexts.discard out.discardedKeys).gid.get? key = none := by
      rcases expired_discarded hspec hlive with hnone | hmem
      · rw [hnone] at hold
        simp [hold.1, hold.2]
      · simp [hmem]
    simp only [Option.getD_none, h.fresh]
    exact Describes.nil hgone.1 hgone.2

/-- The four ways to place an arrival. -/
lemma placeStep_cases (total : Nat) (now : ℚ) (ordinal : Nat) (text : PyStr) (g : AssemblyGroup) :
    ((placeStep total now ordinal text g).status = .duplicate ∧
        (placeStep total now ordinal text g).group = some g ∧
        g.fragmentsByOrdinal.get? ordinal = some text) ∨
      ((placeStep total now ordinal text g).status = .conflict ∧
        (placeStep total now ordinal text g).group = none) ∨
      ((placeStep total now ordinal text g).status = .complete ∧
        (placeStep total now ordinal text g).group = none ∧
        g.fragmentsByOrdinal.get? ordinal = none ∧
        (placeStep total now ordinal text g).sentences =
          linesOf (g.add ordinal text now).fragmentsByOrdinal total ∧
        (g.add ordinal text now).receivedCount = total) ∨
      ((placeStep total now ordinal text g).status = .pending ∧
        (placeStep total now ordinal text g).group = some (g.add ordinal text now) ∧
        g.fragmentsByOrdinal.get? ordinal = none) := by
  unfold placeStep
  cases hstored : g.fragmentsByOrdinal.get? ordinal with
  | some stored =>
    by_cases heq : stored = text
    · left
      simp [heq]
    · right; left
      simp [heq]
  | none =>
    by_cases hfull : (g.add ordinal text now).receivedCount = total
    · right; right; left
      simp [hfull]
    · right; right; right
      simp [hfull]

/-- A feed for a group, in the terms of the group that it meets. -/
lemma feedSpec_cases (hspec : FeedSpec cfg.assembler p.assembler now key ordinal text s' out) :
    (out.status = .duplicate ∧
        s'.groups.get? key = some (metGroup cfg.assembler p.assembler now key) ∧
        (metGroup cfg.assembler p.assembler now key).fragmentsByOrdinal.get? ordinal = some text) ∨
      (out.status = .conflict ∧ s'.groups.get? key = none) ∨
      (out.status = .complete ∧ s'.groups.get? key = none ∧
        (metGroup cfg.assembler p.assembler now key).fragmentsByOrdinal.get? ordinal = none ∧
        out.sentences = linesOf ((metGroup cfg.assembler p.assembler now key).add ordinal text
          now).fragmentsByOrdinal key.declaredTotal ∧
        ((metGroup cfg.assembler p.assembler now key).add ordinal text now).receivedCount =
          key.declaredTotal) ∨
      (out.status = .pending ∧
        s'.groups.get? key = some ((metGroup cfg.assembler p.assembler now key).add ordinal text now) ∧
        (metGroup cfg.assembler p.assembler now key).fragmentsByOrdinal.get? ordinal = none) := by
  have hcases := placeStep_cases key.declaredTotal now ordinal text
    (metGroup cfg.assembler p.assembler now key)
  have hstep : groupStep cfg.assembler key.declaredTotal p.assembler.nextGeneration now ordinal text
      (p.assembler.groups.get? key) = placeStep key.declaredTotal now ordinal text
        (metGroup cfg.assembler p.assembler now key) := rfl
  rw [← hstep, hspec.status, hspec.group, hspec.sentences] at hcases
  exact hcases

/-- The number of the group that an arrival meets is its own: no other group has it. -/
lemma metGroup_generation_ne (hwf : p.assembler.WellFormed) {other : AssemblyKey} (hne : other ≠ key)
    {g : AssemblyGroup} (hg : p.assembler.groups.get? other = some g) :
    (metGroup cfg.assembler p.assembler now key).generation ≠ g.generation := by
  intro heq
  unfold metGroup at heq
  cases hlive : liveGroup cfg.assembler now (p.assembler.groups.get? key) with
  | some g₀ =>
    rw [hlive] at heq
    exact hne (hwf.number_inj other key g g₀ hg (liveGroup_eq_some.mp hlive).1 heq.symm)
  | none =>
    rw [hlive] at heq
    have hlt := hwf.number_lt other g hg
    simp only [Option.getD_none] at heq
    omega

lemma metGroup_generation_lt (hwf : p.assembler.WellFormed)
    (hspec : FeedSpec cfg.assembler p.assembler now key ordinal text s' out) :
    (metGroup cfg.assembler p.assembler now key).generation < s'.nextGeneration ∧
      p.assembler.nextGeneration ≤ s'.nextGeneration := by
  rw [hspec.nextGeneration, metGroup]
  cases hlive : liveGroup cfg.assembler now (p.assembler.groups.get? key) with
  | some g => exact ⟨hwf.number_lt key g (liveGroup_eq_some.mp hlive).1, le_rfl⟩
  | none => exact ⟨Nat.lt_succ_self _, Nat.le_succ _⟩

/-- The contexts after an arrival for another key. -/
lemma contextsAfter_other (cfg : ProcessingConfig) (ctx : MultipartContexts) (parsed : ParsedSentence)
    (hkey : out.groupKey = some key) {other : AssemblyKey} (hne : other ≠ key) :
    (contextsAfter cfg ctx parsed out).c.get? other =
        (ctx.discard out.discardedKeys).c.get? other ∧
      (contextsAfter cfg ctx parsed out).gid.get? other =
        (ctx.discard out.discardedKeys).gid.get? other := by
  have hother := observe_other cfg ctx parsed
    (show out.groupKey ≠ some other by simp [hkey, Ne.symm hne])
  unfold contextsAfter
  split
  · rw [discard_c, discard_gid, hkey, if_neg (by simpa using hne), if_neg (by simpa using hne)]
    exact hother
  · exact hother

lemma KeyTracked.congr {ctx ctx' : MultipartContexts} {group : Option AssemblyGroup}
    (h : KeyTracked cfg.processing reports ctx key group) (hc : ctx'.c.get? key = ctx.c.get? key)
    (hgid : ctx'.gid.get? key = ctx.gid.get? key) : KeyTracked cfg.processing reports ctx' key group := by
  cases group with
  | some g => exact Describes.congr h hc hgid
  | none => exact ⟨hc.trans h.1, hgid.trans h.2⟩

/-- A report that met another group, or none. -/
lemma KeyTracked.more {ctx : MultipartContexts} {group : Option AssemblyGroup} {r : SentenceReport}
    (h : KeyTracked cfg.processing reports ctx key group)
    (hgen : ∀ g, group = some g → r.outcome.generation ≠ some g.generation) :
    KeyTracked cfg.processing (reports ++ [r]) ctx key group := by
  cases group with
  | none => exact h
  | some g =>
    rw [KeyTracked, arrivalsOf_concat_of_ne (hgen g rfl)]
    exact h

/-- The key of the arrival. -/
lemma Tracked.own {r : SentenceReport} (h : Tracked cfg p reports)
    (hspec : FeedSpec cfg.assembler p.assembler now key ordinal text s' r.outcome)
    (hsupplies : r.Supplies ordinal text) :
    KeyTracked cfg.processing (reports ++ [r])
      (contextsAfter cfg.processing p.contexts r.parsed r.outcome) key (s'.groups.get? key) := by
  have hgen := feedSpec_generation hspec
  have hcases := feedSpec_cases hspec
  have hmet := h.met hspec
  obtain ⟨g, hg⟩ : ∃ g, metGroup cfg.assembler p.assembler now key = g := ⟨_, rfl⟩
  rw [hg] at hgen hcases hmet
  rcases hcases with ⟨hstatus, hgroup, hstored⟩ | ⟨hstatus, hgroup⟩ | ⟨hstatus, hgroup, -⟩ |
    ⟨hstatus, hgroup, hstored⟩
  · -- a duplicate: the fragments stay
    have harrive := (hmet (by simp [hstatus])).arrive hspec.groupKey (.inr (.inl hstatus)) hsupplies
      (.inr hstored)
    have hsame : (fun o => if ordinal = o then some text else g.fragmentsByOrdinal.get? o) =
        g.fragmentsByOrdinal.get? := by
      funext o
      by_cases heq : ordinal = o
      · rw [if_pos heq, ← heq, hstored]
      · rw [if_neg heq]
    rw [hsame] at harrive
    rw [hgroup, KeyTracked, arrivalsOf_concat_of_eq hgen, contextsAfter, if_neg (by simp [hstatus])]
    exact harrive
  · -- a conflict: the assembler reports its own group as discarded
    have hmem := hspec.own.mpr (.inr hstatus)
    rw [hgroup, contextsAfter, if_neg (by simp [hstatus]), observe_conflict _ _ _ hstatus]
    simp [KeyTracked, hmem]
  · -- a completion: the metadata is consumed
    rw [hgroup, contextsAfter, if_pos hstatus, hspec.groupKey]
    simp [KeyTracked]
  · have harrive := (hmet (by simp [hstatus])).arrive hspec.groupKey (.inl hstatus) hsupplies
      (.inl hstored)
    have hadd : (fun o => if ordinal = o then some text else g.fragmentsByOrdinal.get? o) =
        (g.add ordinal text now).fragmentsByOrdinal.get? := by
      funext o
      simp [AssemblyGroup.add]
    have hsame : (g.add ordinal text now).generation = g.generation := rfl
    rw [hadd] at harrive
    rw [hgroup, KeyTracked, hsame, arrivalsOf_concat_of_eq hgen, contextsAfter,
      if_neg (by simp [hstatus])]
    exact harrive

/-- A key that the arrival is not for. -/
lemma Tracked.other {r : SentenceReport} (h : Tracked cfg p reports)
    (hspec : FeedSpec cfg.assembler p.assembler now key ordinal text s' r.outcome)
    {other : AssemblyKey} (hne : other ≠ key) :
    KeyTracked cfg.processing (reports ++ [r])
      (contextsAfter cfg.processing p.contexts r.parsed r.outcome) other (s'.groups.get? other) := by
  obtain ⟨hc, hgid⟩ := contextsAfter_other cfg.processing p.contexts r.parsed hspec.groupKey hne
  rcases hspec.others other hne with ⟨hsame, hkept⟩ | ⟨-, -, hnone, hmem, -⟩
  · rw [discard_c, if_neg hkept] at hc
    rw [discard_gid, if_neg hkept] at hgid
    rw [hsame]
    refine ((h.keys other).congr hc hgid).more (fun g hg => ?_)
    rw [feedSpec_generation hspec]
    exact fun heq => metGroup_generation_ne h.wellFormed hne hg (Option.some.inj heq)
  · rw [hnone]
    exact ⟨by simp [hc, hmem], by simp [hgid, hmem]⟩

/-- One sentence keeps the contexts in step with the assembler. -/
theorem Tracked.sentence (htimeout : 0 < cfg.assembler.timeout) (h : Tracked cfg p reports)
    {r : SentenceReport} (hspec : SentenceSpec cfg env p p' r) (htext : r.parsed.text = .ok text) :
    Tracked cfg p' (reports ++ [r]) := by
  obtain ⟨s', out, hfeed, hcases⟩ := feedParsedOutcome_spec htimeout h.wellFormed
    (env.assemblerClock p.readings.assembler) htext
  rw [hspec.fed] at hfeed
  obtain ⟨rfl, hout⟩ := Prod.mk.inj hfeed
  obtain rfl := Except.ok.inj hout
  rcases hcases with ⟨fragment, hfrag, -, hfed⟩ | hquiet
  · obtain ⟨hlt, hnext⟩ := metGroup_generation_lt h.wellFormed hfed
    refine ⟨hfed.wellFormed, fun a ha n hn => ?_, fun other => ?_⟩
    · rcases List.mem_append.mp ha with ha | ha
      · exact lt_of_lt_of_le (h.old a ha n hn) hnext
      · rw [List.mem_singleton.mp ha, feedSpec_generation hfed] at hn
        rw [← Option.some.inj hn]
        exact hlt
    · rw [hspec.contexts]
      by_cases hne : other = keyOf r.parsed.frame.assemblerKey fragment
      · rw [hne]
        exact h.own hfed ⟨fragment, hfrag, rfl, htext⟩
      · exact h.other hfed hne
  · -- no group, no metadata
    obtain ⟨hstate, hout, hstatus⟩ := hquiet
    have hkey : r.outcome.groupKey = none := by rw [hout]
    have hgen : r.outcome.generation = none := by rw [hout]
    have hcomplete : r.outcome.status ≠ .complete := by
      rcases hstatus with ⟨h, -⟩ | ⟨h | h, -⟩ <;> simp [h]
    have hsame : p'.contexts = p.contexts := by
      rw [hspec.contexts, contextsAfter, if_neg hcomplete, observe_quiet _ _ _ hkey, hout]
      rfl
    refine ⟨?_, fun a ha n hn => ?_, fun other => ?_⟩
    · rw [hstate]
      exact count_wellFormed h.wellFormed _
    · rw [hstate]
      rcases List.mem_append.mp ha with ha | ha
      · exact h.old a ha n hn
      · rw [List.mem_singleton.mp ha, hgen] at hn
        cases hn
    · rw [hstate, hsame]
      exact (h.keys other).more (by simp [hgen])

/-- In every run the contexts describe the pending generations. -/
theorem tracked_of_run {startNs : Int} (htimeout : 0 < cfg.assembler.timeout)
    (h : Run cfg env startNs p reports) : Tracked cfg p reports := by
  induction h with
  | start => exact tracked_start cfg startNs
  | counters c h ih => exact ⟨ih.wellFormed, ih.old, ih.keys⟩
  | sentence h hparse hmem hstep ih =>
    obtain ⟨text, htext, -⟩ := parsed_text hparse hmem
    rw [← (processSentence_ok hstep).1] at htext
    exact ih.sentence htimeout (processSentence_spec hstep) htext

end Tracked

/-! ### A generation is over when it completes -/

/-- No group has the number, and no group will. -/
structure Gone (generation : Nat) (s : Assembler) : Prop where
  used : generation < s.nextGeneration
  noGroup : ∀ key g, s.groups.get? key = some g → g.generation ≠ generation

section Gone

variable {cfg : ProcessorConfig} {env : Environment} {p p' : Processor} {reports : List SentenceReport}
  {r : SentenceReport} {text : PyStr} {generation : Nat}

/-- The groups after a feed have numbers of groups before it, or the number of the met group. -/
lemma feedSpec_groups {now : ℚ} {key : AssemblyKey} {ordinal : Nat} {s' : Assembler}
    {out : AssemblyOutcome}
    (hspec : FeedSpec cfg.assembler p.assembler now key ordinal text s' out) {other : AssemblyKey}
    {g : AssemblyGroup} (hg : s'.groups.get? other = some g) :
    (other = key ∧ g.generation = (metGroup cfg.assembler p.assembler now key).generation ∧
        out.status ≠ .complete) ∨
      (other ≠ key ∧ p.assembler.groups.get? other = some g) := by
  by_cases hne : other = key
  · left
    rw [hne] at hg
    rcases feedSpec_cases hspec with ⟨hstatus, hgroup, -⟩ | ⟨-, hgroup⟩ | ⟨-, hgroup, -⟩ |
      ⟨hstatus, hgroup, -⟩
    · rw [hgroup] at hg
      obtain rfl := Option.some.inj hg
      exact ⟨hne, rfl, by simp [hstatus]⟩
    · rw [hgroup] at hg
      cases hg
    · rw [hgroup] at hg
      cases hg
    · rw [hgroup] at hg
      obtain rfl := Option.some.inj hg
      exact ⟨hne, rfl, by simp [hstatus]⟩
  · exact .inr ⟨hne, (hspec.others other hne).sub hg⟩

/-- The generation that a sentence completes is gone. -/
lemma gone_of_complete (htimeout : 0 < cfg.assembler.timeout) (h : Tracked cfg p reports)
    (hspec : SentenceSpec cfg env p p' r) (htext : r.parsed.text = .ok text)
    (hcomplete : r.outcome.status = .complete) (hgen : r.outcome.generation = some generation) :
    Gone generation p'.assembler := by
  obtain ⟨s', out, hfeed, hcases⟩ := feedParsedOutcome_spec htimeout h.wellFormed
    (env.assemblerClock p.readings.assembler) htext
  rw [hspec.fed] at hfeed
  obtain ⟨rfl, hout⟩ := Prod.mk.inj hfeed
  obtain rfl := Except.ok.inj hout
  rcases hcases with ⟨fragment, -, -, hfed⟩ | hquiet
  · rw [feedSpec_generation hfed] at hgen
    obtain rfl := Option.some.inj hgen
    refine ⟨(metGroup_generation_lt h.wellFormed hfed).1, fun key g hg => ?_⟩
    rcases feedSpec_groups hfed hg with ⟨-, -, hne⟩ | ⟨hne, hold⟩
    · exact absurd hcomplete hne
    · exact (metGroup_generation_ne h.wellFormed hne hold).symm
  · rcases hquiet.status with ⟨hs, -⟩ | ⟨hs | hs, -⟩ <;> simp [hs] at hcomplete

/-- A generation that is gone has no more arrivals. -/
lemma Gone.sentence (hgone : Gone generation p.assembler) (htimeout : 0 < cfg.assembler.timeout)
    (h : Tracked cfg p reports) (hspec : SentenceSpec cfg env p p' r)
    (htext : r.parsed.text = .ok text) :
    Gone generation p'.assembler ∧ r.outcome.generation ≠ some generation := by
  obtain ⟨s', out, hfeed, hcases⟩ := feedParsedOutcome_spec htimeout h.wellFormed
    (env.assemblerClock p.readings.assembler) htext
  rw [hspec.fed] at hfeed
  obtain ⟨rfl, hout⟩ := Prod.mk.inj hfeed
  obtain rfl := Except.ok.inj hout
  rcases hcases with ⟨fragment, -, -, hfed⟩ | hquiet
  · have hmet : (metGroup cfg.assembler p.assembler (env.assemblerClock p.readings.assembler)
        (keyOf r.parsed.frame.assemblerKey fragment)).generation ≠ generation := by
      unfold metGroup
      cases hlive : liveGroup cfg.assembler (env.assemblerClock p.readings.assembler)
          (p.assembler.groups.get? (keyOf r.parsed.frame.assemblerKey fragment)) with
      | some g => exact hgone.noGroup _ g (liveGroup_eq_some.mp hlive).1
      | none => exact hgone.used.ne'
    refine ⟨⟨lt_of_lt_of_le hgone.used (metGroup_generation_lt h.wellFormed hfed).2,
      fun key g hg => ?_⟩, ?_⟩
    · rcases feedSpec_groups hfed hg with ⟨-, heq, -⟩ | ⟨-, hold⟩
      · rw [heq]
        exact hmet
      · exact hgone.noGroup key g hold
    · rw [feedSpec_generation hfed]
      exact fun heq => hmet (Option.some.inj heq)
  · obtain ⟨hstate, hout, -⟩ := hquiet
    rw [hstate]
    exact ⟨⟨hgone.used, hgone.noGroup⟩, by rw [hout]; simp⟩

/-- After a completion its generation has no arrivals in the rest of the run. -/
theorem no_arrivals_after {startNs : Int} (htimeout : 0 < cfg.assembler.timeout)
    (h : Run cfg env startNs p reports) :
    ∀ {before after : List SentenceReport} {r : SentenceReport}, reports = before ++ r :: after →
      r.outcome.status = .complete → r.outcome.generation = some generation →
      Gone generation p.assembler ∧ arrivalsOf generation after = [] := by
  induction h with
  | start => simp
  | counters c h ih => exact ih
  | sentence h hparse hmem hstep ih =>
    intro before after r' heq hcomplete hgen
    obtain ⟨text, htext, -⟩ := parsed_text hparse hmem
    rw [← (processSentence_ok hstep).1] at htext
    have htracked := tracked_of_run htimeout h
    have hspec := processSentence_spec hstep
    rcases List.eq_nil_or_concat after with rfl | ⟨init, last, rfl⟩
    · obtain ⟨-, hr⟩ := List.append_inj' heq rfl
      rw [List.cons.injEq] at hr
      rw [← hr.1] at hcomplete hgen
      exact ⟨gone_of_complete htimeout htracked hspec htext hcomplete hgen, rfl⟩
    · rw [List.concat_eq_append] at heq ⊢
      rw [← List.cons_append, ← List.append_assoc] at heq
      obtain ⟨hreports, hr⟩ := List.append_inj' heq rfl
      rw [List.cons.injEq] at hr
      obtain ⟨hgone, hnone⟩ := ih hreports hcomplete hgen
      obtain ⟨hgone', hne⟩ := hgone.sentence htimeout htracked hspec htext
      refine ⟨hgone', ?_⟩
      rw [← hr.1, arrivalsOf_concat_of_ne hne, hnone]

end Gone

/-! ### What a group goes out with -/

/-- The text of the `c` field: the least valid value of the arrivals, else the server time. -/
def SelectsC (cfg : ProcessingConfig) (arrivals : List SentenceReport) (wall : ℚ) (text : PyStr) : Prop :=
  (∃ c, IsLeast {c | ∃ a ∈ arrivals, validC cfg a.parsed = some c} c ∧ text = intStr c) ∨
    (∀ a ∈ arrivals, validC cfg a.parsed = none) ∧ text = intStr (truncate wall)

/-- The group id: the only one that the arrivals offer, else one reading of the generator, which
`before` and `after` count. -/
def SelectsGid (cfg : ProcessingConfig) (env : Environment) (arrivals : List SentenceReport)
    (before after : Nat) (gid : PyStr) : Prop :=
  (∀ other, OffersGid cfg arrivals other ↔ other = gid) ∧ after = before ∨
    (¬∃ g, ∀ other, OffersGid cfg arrivals other ↔ other = g) ∧
      gid = env.gidGenerator cfg.gidDigits before ∧ after = before + 1

/-- The TAG block of a line of a group. -/
def groupHeader (timestampText sValue gid : PyStr) (total index : Nat) : PyStr :=
  let g := natStr (index + 1) ++ str "-" ++ natStr total ++ str "-" ++ gid
  formatHeader (headerContent sValue timestampText (index == 0) (some g))

lemma selectTimestamp_selectsC {cfg : ProcessingConfig} {ctx : MultipartContexts}
    (parsed : ParsedSentence) {outcome : AssemblyOutcome} {key : AssemblyKey}
    {arrivals : List SentenceReport} (hcomplete : outcome.status = .complete)
    (hkey : outcome.groupKey = some key) (hc : LeastC cfg arrivals (ctx.c.get? key)) (wall : ℚ) :
    SelectsC cfg arrivals wall (headerTime (selectTimestamp cfg ctx parsed outcome) wall) := by
  cases hget : ctx.c.get? key with
  | none =>
    rw [hget] at hc
    refine .inr ⟨hc, ?_⟩
    simp [headerTime, selectTimestamp, hcomplete, hkey, hget, HeaderTimestamp.truthy]
  | some c =>
    rw [hget] at hc
    refine .inl ⟨c, hc, ?_⟩
    have hpreserve : cfg.preserveIngressC = true := by
      obtain ⟨⟨a, -, ha⟩, -⟩ := hc
      by_contra hno
      simp [validC, hno] at ha
    by_cases hzero : c = 0
    · subst hzero
      simp only [headerTime, selectTimestamp, hcomplete, hkey, hget, hpreserve, if_true]
      rfl
    · simp [headerTime, selectTimestamp, hcomplete, hkey, hget, hpreserve, hzero,
        HeaderTimestamp.truthy]

/-- The keys of a set with one member. -/
lemma keys_eq_singleton_iff {ids : Dict PyStr Unit} {gid : PyStr} :
    ids.keys = [gid] ↔ ∀ other, other ∈ ids.keys ↔ other = gid := by
  constructor
  · intro h other
    rw [h, List.mem_singleton]
  · intro h
    refine List.perm_singleton.mp ((List.perm_ext_iff_of_nodup ids.keys_nodup
      (List.nodup_singleton gid)).mpr (fun other => ?_))
    rw [h other, List.mem_singleton]

lemma selectGid_selectsGid {cfg : ProcessingConfig} (env : Environment) {ctx : MultipartContexts}
    (parsed : ParsedSentence) {outcome : AssemblyOutcome} {key : AssemblyKey}
    {arrivals : List SentenceReport} (hcomplete : outcome.status = .complete)
    (hkey : outcome.groupKey = some key)
    (hgid : ∀ gid, gid ∈ (gidsOf ctx key).keys ↔ OffersGid cfg arrivals gid) (n : Nat) :
    SelectsGid cfg env arrivals n (if (selectGid cfg ctx parsed outcome).isSome then n else n + 1)
      ((selectGid cfg ctx parsed outcome).getD (env.gidGenerator cfg.gidDigits n)) := by
  by_cases hone : ∃ g, (gidsOf ctx key).keys = [g]
  · obtain ⟨g, hg⟩ := hone
    have honly := keys_eq_singleton_iff.mp hg
    have hoffer : OffersGid cfg arrivals g := (hgid g).mp ((honly g).mpr rfl)
    have hpreserve : cfg.preserveIngressGid = true := by
      obtain ⟨a, -, ha⟩ := hoffer
      by_contra hno
      simp [ingressGid, hno] at ha
    have hselect : selectGid cfg ctx parsed outcome = some g := by
      rw [gidsOf] at hg
      simp [selectGid, hcomplete, hkey, hg, hpreserve]
    rw [hselect]
    exact .inl ⟨fun other => (hgid other).symm.trans (honly other), rfl⟩
  · have hselect : selectGid cfg ctx parsed outcome = none := by
      simp only [selectGid, hcomplete, hkey]
      split
      · next g hg => exact absurd ⟨g, hg⟩ hone
      · rfl
    rw [hselect]
    refine .inr ⟨?_, rfl, rfl⟩
    rintro ⟨g, hg⟩
    exact hone ⟨g, keys_eq_singleton_iff.mpr (fun other => (hgid other).trans (hg other))⟩

/-- The octets of a line of a group, for a line that a fragment was read from. -/
lemma buildOutputBytes_group {fmt : LineFormat} (htagged : fmt.tagged = true) {line : PyStr}
    (hfields : 4 ≤ (split 0x2C line).length) (index : Nat) (wall : ℚ) (message : Bytes) :
    buildOutputBytes line fmt.sValue fmt.timestamp (index == 0) (gTriplet fmt index) wall = .ok message ↔
      encodeUtf8 (groupHeader (headerTime fmt.timestamp wall) fmt.sValue fmt.gid fmt.total index ++
        line ++ [0x0D, 0x0A]) = some message := by
  have hg : gTriplet fmt index =
      some (natStr (index + 1) ++ str "-" ++ natStr fmt.total ++ str "-" ++ fmt.gid) := if_pos htagged
  have hne : gTriplet fmt index ≠ some [] := by
    rw [hg]
    simp [str]
  rw [buildOutputBytes_ok_iff, wrapWithMeta_header hfields _ _ _ hne, hg]
  rfl

lemma mem_linesOf {fragments : Dict Nat PyStr} {total : Nat} {line : PyStr}
    (h : line ∈ linesOf fragments total) : ∃ ordinal, fragments.get? ordinal = some line := by
  obtain ⟨i, -, hi⟩ := List.mem_filterMap.mp h
  exact ⟨i + 1, hi⟩

/-- A sentence that completes a group: its arrivals describe the lines and the contexts. -/
lemma completion_described {cfg : ProcessorConfig} {env : Environment} {p p' : Processor}
    {reports : List SentenceReport} {r : SentenceReport} {text : PyStr}
    (htimeout : 0 < cfg.assembler.timeout) (h : Tracked cfg p reports)
    (hspec : SentenceSpec cfg env p p' r) (htext : r.parsed.text = .ok text)
    (hcomplete : r.outcome.status = .complete) :
    ∃ key generation fragments, r.outcome.groupKey = some key ∧
      r.outcome.generation = some generation ∧ 2 ≤ key.declaredTotal ∧
      r.outcome.sentences = linesOf fragments key.declaredTotal ∧
      fragments.size = key.declaredTotal ∧
      (∀ o ∈ fragments.keys, 1 ≤ o ∧ o ≤ key.declaredTotal) ∧
      Describes cfg.processing key (arrivalsOf generation reports ++ [r]) fragments.get?
        (observe cfg.processing p.contexts r.parsed r.outcome) := by
  obtain ⟨s', out, hfeed, hcases⟩ := feedParsedOutcome_spec htimeout h.wellFormed
    (env.assemblerClock p.readings.assembler) htext
  rw [hspec.fed] at hfeed
  obtain ⟨rfl, hout⟩ := Prod.mk.inj hfeed
  obtain rfl := Except.ok.inj hout
  rcases hcases with ⟨fragment, hfrag, hgrouped, hfed⟩ | hquiet
  · have hgen := feedSpec_generation hfed
    have hcases := feedSpec_cases hfed
    have hmet := h.met hfed (by simp [hcomplete])
    obtain ⟨key, hkey⟩ : ∃ key, keyOf r.parsed.frame.assemblerKey fragment = key := ⟨_, rfl⟩
    have hle : fragment.ordinal ≤ key.declaredTotal := by
      rw [← hkey]
      exact fragment.ordinal_le
    have htwo : 2 ≤ key.declaredTotal := by
      have hone : fragment.declaredTotal ≠ 1 := by
        simp only [isGrouped, Bool.and_eq_true, bne_iff_ne, ne_eq] at hgrouped
        exact hgrouped.1
      have hpos := fragment.ordinal_pos
      have htotal := fragment.ordinal_le
      rw [← hkey]
      simp only [keyOf]
      omega
    rw [hkey] at hgen hcases hmet hfed
    obtain ⟨g, hg⟩ : ∃ g, metGroup cfg.assembler p.assembler (env.assemblerClock p.readings.assembler)
      key = g := ⟨_, rfl⟩
    have hrange : ∀ o ∈ g.fragmentsByOrdinal.keys, 1 ≤ o ∧ o ≤ key.declaredTotal := by
      rw [← hg, metGroup]
      cases hlive : liveGroup cfg.assembler (env.assemblerClock p.readings.assembler)
          (p.assembler.groups.get? key) with
      | some g₀ => exact (h.wellFormed.groupOk key g₀ (liveGroup_eq_some.mp hlive).1).ordinals
      | none => simp
    rw [hg] at hgen hcases hmet
    rcases hcases with ⟨hstatus, -⟩ | ⟨hstatus, -⟩ | ⟨-, -, hstored, hlines, hfull⟩ | ⟨hstatus, -⟩
    · simp [hcomplete] at hstatus
    · simp [hcomplete] at hstatus
    · have harrive := hmet.arrive hfed.groupKey (.inr (.inr hcomplete)) ⟨fragment, hfrag, rfl, htext⟩
        (.inl hstored)
      refine ⟨key, g.generation, (g.add fragment.ordinal text
        (env.assemblerClock p.readings.assembler)).fragmentsByOrdinal, hfed.groupKey, hgen, htwo, hlines,
        hfull, AssemblyGroup_add_range text _ hrange fragment.ordinal_pos hle, ?_⟩
      have hadd : (fun o => if fragment.ordinal = o then some text else g.fragmentsByOrdinal.get? o) =
          (g.add fragment.ordinal text (env.assemblerClock p.readings.assembler)).fragmentsByOrdinal.get? := by
        funext o
        simp [AssemblyGroup.add]
      rw [← hadd]
      exact harrive
    · simp [hcomplete] at hstatus
  · rcases hquiet.status with ⟨hs, -⟩ | ⟨hs | hs, -⟩ <;> simp [hs] at hcomplete

/-- The lines of a completed group are the texts of its arrivals in the order of the ordinals. -/
lemma Describes.lines {cfg : ProcessingConfig} {key : AssemblyKey} {arrivals : List SentenceReport}
    {fragments : Dict Nat PyStr} {ctx : MultipartContexts}
    (h : Describes cfg key arrivals fragments.get? ctx) (hsize : fragments.size = key.declaredTotal)
    (hrange : ∀ o ∈ fragments.keys, 1 ≤ o ∧ o ≤ key.declaredTotal) {ordinal : Nat} (ho : 1 ≤ ordinal)
    (hle : ordinal ≤ key.declaredTotal) (text : PyStr) :
    (linesOf fragments key.declaredTotal)[ordinal - 1]? = some text ↔
      ∃ a ∈ arrivals, a.Supplies ordinal text := by
  obtain ⟨-, hat⟩ := linesOf_spec hrange hsize
  constructor
  · intro hget
    obtain ⟨stored, hstored⟩ :=
      (fragments.mem_keys_iff ordinal).mp (mem_keys_of_full hrange hsize ho hle)
    rw [hat ordinal stored hstored] at hget
    obtain rfl := Option.some.inj hget
    exact h.stored ordinal stored hstored
  · rintro ⟨a, ha, f, hf, rfl, ht⟩
    obtain ⟨o, t, ⟨f', hf', rfl, ht'⟩, hstored⟩ := h.supplied a ha
    rw [hf] at hf'
    obtain rfl := Option.some.inj hf'
    rw [ht] at ht'
    obtain rfl := Except.ok.inj ht'
    exact hat _ _ hstored

/-- All arrivals of a generation that completes come before the completion, which is the last. -/
lemma arrivalsOf_completed {cfg : ProcessorConfig} {env : Environment} {startNs : Int} {p : Processor}
    {reports before after : List SentenceReport} {r : SentenceReport} {generation : Nat}
    (htimeout : 0 < cfg.assembler.timeout) (h : Run cfg env startNs p reports)
    (hsplit : reports = before ++ r :: after) (hcomplete : r.outcome.status = .complete)
    (hgen : r.outcome.generation = some generation) :
    arrivalsOf generation reports = arrivalsOf generation before ++ [r] := by
  have hnone := (no_arrivals_after htimeout h hsplit hcomplete hgen).2
  rw [hsplit, List.append_cons, arrivalsOf_append, arrivalsOf_concat_of_eq hgen, hnone, List.append_nil]

/-- The emission of a completed group, in the terms of its arrivals. -/
lemma emit_group {cfg : ProcessorConfig} {env : Environment} {frame : IngressFrame}
    {snapshot : ProcessingSnapshot} {leadingS : Option PyStr} {q q' : Processor} {r : SentenceReport}
    {e : Emission} {key : AssemblyKey} {arrivals : List SentenceReport} {fragments : Dict Nat PyStr}
    (hemit : emit cfg env frame snapshot leadingS q r.parsed r.outcome = (q', .ok e))
    (hcomplete : r.outcome.status = .complete) (hkey : r.outcome.groupKey = some key)
    (htwo : 2 ≤ key.declaredTotal) (hlines : r.outcome.sentences = linesOf fragments key.declaredTotal)
    (hsize : fragments.size = key.declaredTotal)
    (hrange : ∀ o ∈ fragments.keys, 1 ≤ o ∧ o ≤ key.declaredTotal)
    (hdesc : Describes cfg.processing key arrivals fragments.get? q.contexts)
    (hfields : ∀ a ∈ arrivals, ∀ ordinal text, a.Supplies ordinal text →
      4 ≤ (split 0x2C text).length) :
    SelectsGid cfg.processing env arrivals q.readings.gid q'.readings.gid e.gid ∧
      (e.emitted = true → ∃ c s, SelectsC cfg.processing arrivals (env.wallClock q.readings.output) c ∧
        e.outputs.length = key.declaredTotal ∧
        ∀ i line, e.lines[i]? = some line → ∃ message, e.outputs[i]? = some ⟨message, e.targetIds⟩ ∧
          encodeUtf8 (groupHeader c s e.gid key.declaredTotal i ++ line ++ [0x0D, 0x0A]) =
            some message) := by
  obtain ⟨hsentences, htime, hgid, q₁, hdedup, q₂, hout, -⟩ := emit_ok hemit
  obtain ⟨d, n, sourceState, m, hq'⟩ := emit_frame hemit
  obtain ⟨d', n', hframe⟩ := deduplicate_frame cfg env (withGid q (selectGid cfg.processing q.contexts
    r.parsed r.outcome)) snapshot (logicalKey r.outcome.sentences)
  rw [hdedup] at hframe
  have hq₁ : q₁ = _ := hframe
  constructor
  · have hselect := selectGid_selectsGid env r.parsed hcomplete hkey hdesc.gid
      q.readings.gid
    have hcount : q'.readings.gid = if (selectGid cfg.processing q.contexts r.parsed r.outcome).isSome
        then q.readings.gid else q.readings.gid + 1 := by
      rw [hq']
      simp only [withOutput, withDedup, withGid]
      split <;> rfl
    rw [hcount, hgid]
    exact hselect
  · intro hemitted
    have hlength : r.outcome.sentences.length = key.declaredTotal := by
      rw [hlines]
      exact (linesOf_spec hrange hsize).1
    have hoctx : q₁.contexts = q.contexts := by rw [hq₁]; simp
    have horead : q₁.readings.output = q.readings.output := by
      rw [hq₁]
      simp only [withDedup, withGid]
      split <;> rfl
    rw [if_pos hemitted] at hout
    obtain ⟨hlen, houtput⟩ := emitLines_ok hout
    obtain ⟨fmt, hfmt⟩ : ∃ fmt, formatOf cfg frame leadingS q₁.contexts r.parsed r.outcome e.gid
      e.targetIds = fmt := ⟨_, rfl⟩
    rw [hfmt] at houtput
    have htagged : fmt.tagged = true := by
      rw [← hfmt]
      simp only [formatOf, hlength, Bool.or_eq_true, decide_eq_true_eq]
      exact .inl (by omega)
    have htotal : fmt.total = key.declaredTotal := by rw [← hfmt, ← hlength]; rfl
    have hfgid : fmt.gid = e.gid := by rw [← hfmt]; rfl
    have hftargets : fmt.targetIds = e.targetIds := by rw [← hfmt]; rfl
    have hftime : fmt.timestamp = selectTimestamp cfg.processing q.contexts r.parsed r.outcome := by
      rw [← hfmt, ← hoctx]
      rfl
    have hselects := selectTimestamp_selectsC r.parsed hcomplete hkey hdesc.c
      (env.wallClock q.readings.output)
    refine ⟨_, fmt.sValue, hselects, by rw [hlen, hlength], fun i line hi => ?_⟩
    rw [hsentences] at hi
    obtain ⟨message, hget, hbuild⟩ := houtput i line hi
    rw [hftargets] at hget
    refine ⟨message, hget, ?_⟩
    have hmem : line ∈ linesOf fragments key.declaredTotal := by
      rw [← hlines]
      exact List.mem_of_getElem? hi
    obtain ⟨ordinal, hordinal⟩ := mem_linesOf hmem
    obtain ⟨a, ha, hsupplies⟩ := hdesc.stored ordinal line hordinal
    rw [Nat.zero_add] at hbuild
    have hoctets := (buildOutputBytes_group htagged (hfields a ha ordinal line hsupplies) i _ message).mp
      hbuild
    rw [htotal, hfgid, hftime] at hoctets
    rw [← hoctets]
    by_cases hi : i = 0
    · rw [hi, horead, Nat.add_zero]
    · have hlater : (i == 0) = false := beq_false_of_ne hi
      simp only [groupHeader, headerContent, hlater, Bool.false_eq_true, if_false]

/-- The metadata of a group that completes in a run without exceptions: the `c` value and the group
id are those of all the arrivals of its generation in the run, in whatever order, and every line
goes out with them. -/
theorem multipart_metadata {cfg : ProcessorConfig} {env : Environment} {startNs : Int}
    (htimeout : 0 < cfg.assembler.timeout) {calls : List (IngressFrame × ProcessingSnapshot)}
    {p : Processor} {batches : List (List SentenceReport)}
    (hrun : processAll cfg env calls (.init startNs) = (p, batches.map .ok))
    {before after : List SentenceReport} {r : SentenceReport}
    (hsplit : batches.flatten = before ++ r :: after) (hcomplete : r.outcome.status = .complete) :
    ∃ q q' key generation e, Run cfg env startNs q before ∧
      (∃ frame snapshot leadingS,
        processSentence cfg env frame snapshot leadingS q r.parsed = (q', .ok r)) ∧
      r.outcome.groupKey = some key ∧ r.outcome.generation = some generation ∧ r.emission = some e ∧
      (∀ a ∈ arrivalsOf generation batches.flatten, a.outcome.groupKey = some key) ∧
      (∀ ordinal text, 1 ≤ ordinal → ordinal ≤ key.declaredTotal →
        (e.lines[ordinal - 1]? = some text ↔
          ∃ a ∈ arrivalsOf generation batches.flatten, a.Supplies ordinal text)) ∧
      SelectsGid cfg.processing env (arrivalsOf generation batches.flatten) q.readings.gid
        q'.readings.gid e.gid ∧
      (e.emitted = true → ∃ c s,
        SelectsC cfg.processing (arrivalsOf generation batches.flatten)
          (env.wallClock q.readings.output) c ∧
        e.outputs.length = key.declaredTotal ∧
        ∀ i line, e.lines[i]? = some line → ∃ message, e.outputs[i]? = some ⟨message, e.targetIds⟩ ∧
          encodeUtf8 (groupHeader c s e.gid key.declaredTotal i ++ line ++ [0x0D, 0x0A]) =
            some message) := by
  have hall : Run cfg env startNs p batches.flatten := by
    simpa using (@Run.start cfg env startNs).processAll hrun
  obtain ⟨q, q', frame, snapshot, leadingS, sentences, parsed, hbefore, hparse, hmem, hstep⟩ :=
    hall.split hsplit
  have htracked := tracked_of_run htimeout hbefore
  have hspec := processSentence_spec hstep
  obtain ⟨text, htext, -⟩ := parsed_text hparse hmem
  obtain ⟨rfl, -, assembler, -, hcases⟩ := processSentence_ok hstep
  obtain ⟨key, generation, fragments, hkey, hgen, htwo, hlines, hsize, hrange, hdesc⟩ :=
    completion_described htimeout htracked hspec htext hcomplete
  rw [← arrivalsOf_completed htimeout hall hsplit hcomplete hgen] at hdesc
  rcases hcases with ⟨-, e, he, hemit⟩ | ⟨hstatus, -⟩
  · have hfields : ∀ a ∈ arrivalsOf generation batches.flatten, ∀ ordinal text,
        a.Supplies ordinal text → 4 ≤ (split 0x2C text).length := by
      rintro a ha ordinal text ⟨fragment, hfrag, -, hatext⟩
      have hmem : a ∈ batches.flatten := (List.mem_filter.mp ha).1
      obtain ⟨text', htext', hparsed⟩ := hall.text a hmem
      rw [hatext] at htext'
      obtain rfl := Except.ok.inj htext'
      exact length_split_of_fragment (by rw [← hparsed, hfrag]; rfl)
    obtain ⟨hgid, houtputs⟩ := emit_group hemit hcomplete hkey htwo hlines hsize hrange hdesc hfields
    refine ⟨q, q', key, generation, e, hbefore, ⟨frame, snapshot, leadingS, hstep⟩, hkey, hgen, he,
      hdesc.member, ?_, hgid, houtputs⟩
    intro ordinal text ho hle
    rw [(emit_ok hemit).1, hlines]
    exact hdesc.lines hsize hrange ho hle text
  · exact absurd (.inr hcomplete) hstatus

/-- A snapshot with one target and the global deduplication. -/
def oneTarget : ProcessingSnapshot := ⟨0, .global, [1], by decide⟩

/-- Two fragments, the second one first, with different `c` values and the same group id. -/
def taggedCalls : List (IngressFrame × ProcessingSnapshot) :=
  let frame (payload : Bytes) : IngressFrame :=
    ⟨str "udp", str "a", none, some (str "10.0.0.1"), str "a", payload, .utf8Ignore⟩
  [(frame (ascii "\\g:2-2-77,c:30*00\\!AIVDM,2,2,3,A,q,0*00"), oneTarget),
    (frame (ascii "\\g:1-2-77,c:20*00\\!AIVDM,2,1,3,A,p,0*00"), oneTarget)]

def taggedConfig : ProcessorConfig where
  processing := ⟨none, true, true, false, 4⟩
  assembler := ⟨30, none, none⟩
  dedup := ⟨30, none⟩
  source := ⟨60, 10, 5, 100⟩

/-- Clocks that stand still, and a generator that counts. -/
def stillEnvironment : Environment where
  assemblerClock _ := 0
  dedupClock _ := 0
  sourceClock _ := 0
  wallClock _ := 1000
  gidGenerator _ n := natStr n

def taggedBatches : List (List SentenceReport) :=
  (processAll taggedConfig stillEnvironment taggedCalls (.init 0)).2.filterMap Except.toOption

lemma taggedCalls_return : processAll taggedConfig stillEnvironment taggedCalls (.init 0) =
    ((processAll taggedConfig stillEnvironment taggedCalls (.init 0)).1, taggedBatches.map .ok) := by
  have hresults : (processAll taggedConfig stillEnvironment taggedCalls (.init 0)).2 =
    taggedBatches.map .ok := by decide +kernel
  rw [← hresults]

lemma taggedBatches_ne_nil : taggedBatches.flatten ≠ [] := by decide +kernel

/-- The report of the sentence that completes the group. -/
def taggedCompletion : SentenceReport := taggedBatches.flatten.getLast taggedBatches_ne_nil

theorem multipart_metadata_tagged : ∃ e c s, taggedCompletion.emission = some e ∧
    SelectsC taggedConfig.processing (arrivalsOf 0 taggedBatches.flatten) 1000 c ∧
    (∀ other, OffersGid taggedConfig.processing (arrivalsOf 0 taggedBatches.flatten) other ↔
      other = e.gid) ∧
    ∀ i line, e.lines[i]? = some line → ∃ message, e.outputs[i]? = some ⟨message, [1]⟩ ∧
      encodeUtf8 (groupHeader c s (str "77") 2 i ++ line ++ [0x0D, 0x0A]) = some message := by
  obtain ⟨q, q', key, generation, e, -, -, hkey, hgen, he, -, -, hgid, houtputs⟩ :=
    @multipart_metadata taggedConfig stillEnvironment 0 (by decide +kernel) taggedCalls _ taggedBatches
      taggedCalls_return taggedBatches.flatten.dropLast [] taggedCompletion
      (List.dropLast_append_getLast taggedBatches_ne_nil).symm (by decide +kernel)
  have hgen' : taggedCompletion.outcome.generation = some 0 := by decide +kernel
  have hkey' : taggedCompletion.outcome.groupKey = some ⟨str "a", str "3", str "A", 2⟩ := by decide +kernel
  have hemission : taggedCompletion.emission.map (fun e => (e.emitted, e.gid, e.targetIds)) =
      some (true, str "77", [1]) := by decide +kernel
  rw [hgen] at hgen'
  rw [hkey] at hkey'
  rw [he] at hemission
  obtain rfl := Option.some.inj hgen'
  obtain rfl := Option.some.inj hkey'
  simp only [Option.map_some, Option.some.injEq, Prod.mk.injEq] at hemission
  obtain ⟨hemitted, heg, htargets⟩ := hemission
  obtain ⟨c, s, hc, -, hmessages⟩ := houtputs hemitted
  refine ⟨e, c, s, he, hc, ?_, ?_⟩
  · rcases hgid with ⟨hone, -⟩ | ⟨hnot, -, -⟩
    · exact hone
    · have hone : ∀ other, OffersGid taggedConfig.processing (arrivalsOf 0 taggedBatches.flatten) other ↔
          other = str "77" := by
        have hoffered : (arrivalsOf 0 taggedBatches.flatten).map
            (fun a => ingressGid taggedConfig.processing a.parsed) = [some (str "77"), some (str "77")] := by
          decide +kernel
        intro other
        rw [OffersGid, ← List.mem_map, hoffered]
        simp
      exact absurd ⟨_, hone⟩ hnot
  · rw [htargets, heg] at hmessages
    exact hmessages

end Processor

end AisMixer

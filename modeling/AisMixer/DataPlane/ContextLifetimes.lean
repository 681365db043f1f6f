import AisMixer.DataPlane.MultipartMetadata

/-!
# The lifetime of multipart metadata

A key has metadata only while its group is pending. The assembler and the three dictionaries are
updated in different places, so the invariant speaks of both: what a feed takes from the groups it
reports, and what it reports is discarded before the arrival leaves metadata of its own.
-/

namespace AisMixer
open Library

namespace MultipartContexts

/-- One of the dictionaries has the key. -/
def HasKey (ctx : MultipartContexts) (key : AssemblyKey) : Prop :=
  key ∈ ctx.s.keys ∨ key ∈ ctx.c.keys ∨ key ∈ ctx.gid.keys

lemma not_hasKey_empty (key : AssemblyKey) : ¬empty.HasKey key := by
  simp [HasKey, empty]

lemma hasKey_discard (ctx : MultipartContexts) (keys : List AssemblyKey) (key : AssemblyKey) :
    (ctx.discard keys).HasKey key ↔ ctx.HasKey key ∧ key ∉ keys := by
  unfold HasKey discard
  rw [Dict.mem_keys_eraseAll, Dict.mem_keys_eraseAll, Dict.mem_keys_eraseAll]
  tauto

lemma HasKey.observeC {ctx : MultipartContexts} {own key : AssemblyKey} {validC : Option Int}
    (h : (ctx.observeC own validC).HasKey key) : ctx.HasKey key ∨ key = own := by
  unfold MultipartContexts.observeC at h
  split at h
  · exact .inl h
  · unfold HasKey at h ⊢
    rw [Dict.mem_keys_set] at h
    tauto

lemma HasKey.observeGid {ctx : MultipartContexts} {own key : AssemblyKey} {gid : Option PyStr}
    (h : (ctx.observeGid own gid).HasKey key) : ctx.HasKey key ∨ key = own := by
  unfold MultipartContexts.observeGid at h
  split at h
  · exact .inl h
  · unfold HasKey at h ⊢
    rw [Dict.mem_keys_set] at h
    tauto

lemma HasKey.observeS {ctx : MultipartContexts} {own key : AssemblyKey} {tag : ParsedTagMetadata}
    (h : (ctx.observeS own tag).HasKey key) : ctx.HasKey key ∨ key = own := by
  unfold MultipartContexts.observeS at h
  split at h
  · unfold HasKey at h ⊢
    rw [Dict.mem_keys_set] at h
    tauto
  · exact .inl h

/-- The three dictionaries have no more keys than a collection that has all their keys. -/
lemma size_le {υ : Type} {ctx : MultipartContexts} {groups : Dict AssemblyKey υ}
    (h : ∀ key, ctx.HasKey key → key ∈ groups.keys) :
    ctx.s.size ≤ groups.size ∧ ctx.c.size ≤ groups.size ∧ ctx.gid.size ≤ groups.size := by
  have hbound : ∀ {ω : Type} (d : Dict AssemblyKey ω), (∀ key ∈ d.keys, ctx.HasKey key) →
      d.size ≤ groups.size := by
    intro ω d hd
    rw [← Dict.length_keys, ← Dict.length_keys]
    exact (d.keys_nodup.subperm (fun key hkey => h key (hd key hkey))).length_le
  exact ⟨hbound ctx.s (fun key hkey => .inl hkey), hbound ctx.c (fun key hkey => .inr (.inl hkey)),
    hbound ctx.gid (fun key hkey => .inr (.inr hkey))⟩

end MultipartContexts

namespace Processor

section Lifetime

variable {cfg : ProcessorConfig} {env : Environment} {startNs : Int} {p p' : Processor}

/-- A key after an arrival had metadata that was not discarded, or it is the key of the arrival. -/
lemma hasKey_observe {processing : ProcessingConfig} {ctx : MultipartContexts} {parsed : ParsedSentence}
    {outcome : AssemblyOutcome} {key : AssemblyKey}
    (h : (observe processing ctx parsed outcome).HasKey key) :
    ctx.HasKey key ∧ key ∉ outcome.discardedKeys ∨ outcome.groupKey = some key ∧
      (outcome.status = .pending ∨ outcome.status = .duplicate ∨ outcome.status = .complete) := by
  unfold observe at h
  cases hgroup : outcome.groupKey with
  | none =>
    simp only [hgroup] at h
    exact .inl ((MultipartContexts.hasKey_discard _ _ _).mp h)
  | some own =>
    simp only [hgroup] at h
    split at h
    · next hstatus =>
      have hctx : (ctx.discard outcome.discardedKeys).HasKey key ∨ key = own := by
        split at h
        · rcases h.observeGid with h | hown
          · exact h.observeC
          · exact .inr hown
        · rcases h.observeS with h | hown
          · rcases h.observeGid with h | hown
            · exact h.observeC
            · exact .inr hown
          · exact .inr hown
      rcases hctx with hctx | rfl
      · exact .inl ((MultipartContexts.hasKey_discard _ _ _).mp hctx)
      · exact .inr ⟨rfl, hstatus⟩
    · exact .inl ((MultipartContexts.hasKey_discard _ _ _).mp h)

/-- The key of a completed group has no metadata left. -/
lemma hasKey_contextsAfter {processing : ProcessingConfig} {ctx : MultipartContexts}
    {parsed : ParsedSentence} {outcome : AssemblyOutcome} {key : AssemblyKey}
    (h : (contextsAfter processing ctx parsed outcome).HasKey key) :
    ctx.HasKey key ∧ key ∉ outcome.discardedKeys ∧
        (outcome.status = .complete → outcome.groupKey ≠ some key) ∨
      outcome.groupKey = some key ∧ (outcome.status = .pending ∨ outcome.status = .duplicate) := by
  unfold contextsAfter at h
  split at h
  · rw [MultipartContexts.hasKey_discard, Option.mem_toList] at h
    rcases hasKey_observe h.1 with ⟨hold, hkept⟩ | ⟨hown, -⟩
    · exact .inl ⟨hold, hkept, fun _ => h.2⟩
    · exact absurd hown h.2
  · next hcomplete =>
    rcases hasKey_observe h with ⟨hold, hkept⟩ | ⟨hown, hstatus⟩
    · exact .inl ⟨hold, hkept, fun h => absurd h hcomplete⟩
    · exact .inr ⟨hown, by tauto⟩

/-- Metadata belongs to groups that are pending. -/
structure Attached (p : Processor) : Prop where
  wellFormed : p.assembler.WellFormed
  pending : ∀ key, p.contexts.HasKey key → key ∈ p.assembler.groups.keys

lemma attached_start : (init startNs).Attached where
  wellFormed := Assembler.init_wellFormed
  pending key h := absurd h (MultipartContexts.not_hasKey_empty key)

/-- A group that an arrival does not conflict with or complete is pending afterwards. -/
lemma pending_of_status {now : ℚ} {key : AssemblyKey} {ordinal : Nat} {text : PyStr} {s' : Assembler}
    {out : AssemblyOutcome}
    (hspec : Assembler.FeedSpec cfg.assembler p.assembler now key ordinal text s' out)
    (hconflict : out.status ≠ .conflict) (hcomplete : out.status ≠ .complete) :
    key ∈ s'.groups.keys := by
  apply (Dict.mem_keys_iff _ _).mpr
  rcases feedSpec_cases hspec with ⟨-, hgroup, -⟩ | ⟨hstatus, -⟩ | ⟨hstatus, -⟩ | ⟨-, hgroup, -⟩
  · exact ⟨_, hgroup⟩
  · exact absurd hstatus hconflict
  · exact absurd hstatus hcomplete
  · exact ⟨_, hgroup⟩

/-- A feed for a group: what it takes away it reports, and the contexts follow the reports. -/
lemma Attached.feed {now : ℚ} {own : AssemblyKey} {ordinal : Nat} {text : PyStr} {s' : Assembler}
    {out : AssemblyOutcome} {parsed : ParsedSentence} (h : p.Attached)
    (hspec : Assembler.FeedSpec cfg.assembler p.assembler now own ordinal text s' out)
    {key : AssemblyKey} (hkey : (contextsAfter cfg.processing p.contexts parsed out).HasKey key) :
    key ∈ s'.groups.keys := by
  have hown := hspec.groupKey
  by_cases hne : key = own
  · subst hne
    apply pending_of_status hspec
    · intro hconflict
      rcases hasKey_contextsAfter hkey with ⟨-, hkept, -⟩ | ⟨-, hstatus⟩
      · exact hkept (hspec.own.mpr (.inr hconflict))
      · rw [hconflict] at hstatus
        simp at hstatus
    · intro hcomplete
      rcases hasKey_contextsAfter hkey with ⟨-, -, hother⟩ | ⟨-, hstatus⟩
      · exact hother hcomplete hown
      · rw [hcomplete] at hstatus
        simp at hstatus
  · rcases hasKey_contextsAfter hkey with ⟨hold, hkept, -⟩ | ⟨hgroup, -⟩
    · have hpending := h.pending key hold
      rcases hspec.others key hne with ⟨hsame, -⟩ | ⟨-, -, -, hdropped, -⟩
      · rw [Dict.mem_keys_iff] at hpending ⊢
        rw [hsame]
        exact hpending
      · exact absurd hdropped hkept
    · rw [hown] at hgroup
      exact absurd (Option.some.inj hgroup).symm hne

/-- One sentence keeps metadata attached to pending groups. -/
lemma Attached.sentence (htimeout : 0 < cfg.assembler.timeout) (h : p.Attached) {r : SentenceReport}
    (hspec : SentenceSpec cfg env p p' r) {text : PyStr} (htext : r.parsed.text = .ok text) :
    p'.Attached := by
  obtain ⟨s', out, hfeed, hcases⟩ := feedParsedOutcome_spec htimeout h.wellFormed
    (env.assemblerClock p.readings.assembler) htext
  rw [hspec.fed] at hfeed
  obtain ⟨rfl, hout⟩ := Prod.mk.inj hfeed
  obtain rfl := Except.ok.inj hout
  rcases hcases with ⟨fragment, -, -, hfed⟩ | ⟨hstate, hquiet, -⟩
  · refine ⟨hfed.wellFormed, fun key hkey => ?_⟩
    rw [hspec.contexts] at hkey
    exact h.feed hfed hkey
  · -- an arrival without a group discards nothing and leaves nothing
    refine ⟨?_, fun key hkey => ?_⟩
    · rw [hstate]
      exact Assembler.count_wellFormed h.wellFormed _
    · rw [hspec.contexts, hquiet] at hkey
      rw [hstate]
      rcases hasKey_contextsAfter hkey with ⟨hold, -, -⟩ | ⟨hgroup, -⟩
      · exact h.pending key hold
      · cases hgroup

lemma Attached.sentences (htimeout : 0 < cfg.assembler.timeout) {frame : IngressFrame}
    {snapshot : ProcessingSnapshot} {leadingS : Option PyStr} {all : List ParsedSentence}
    (hparse : parseFrameSentences frame true = .ok all) (sentences : List ParsedSentence) :
    ∀ {p p' : Processor} {reports : List SentenceReport}, p.Attached → sentences ⊆ all →
      processSentences cfg env frame snapshot leadingS sentences p = (p', .ok reports) →
      p'.Attached := by
  induction sentences with
  | nil =>
    intro p p' reports h _ hrun
    obtain ⟨rfl, -⟩ := Prod.mk.inj hrun
    exact h
  | cons parsed rest ih =>
    intro p p' reports h hsub hrun
    obtain ⟨q, result, hstep⟩ : ∃ q result,
      processSentence cfg env frame snapshot leadingS p parsed = (q, result) := ⟨_, _, rfl⟩
    simp only [processSentences, hstep] at hrun
    cases result with
    | error e => simp at hrun
    | ok r =>
      obtain ⟨text, htext, -⟩ := parsed_text hparse (hsub List.mem_cons_self)
      rw [← (processSentence_ok hstep).1] at htext
      have hq := h.sentence htimeout (processSentence_spec hstep) htext
      obtain ⟨q', results, hrest⟩ : ∃ q' results,
        processSentences cfg env frame snapshot leadingS rest q = (q', results) := ⟨_, _, rfl⟩
      simp only [hrest] at hrun
      cases results with
      | error e => simp at hrun
      | ok tail =>
        obtain ⟨rfl, -⟩ := Prod.mk.inj hrun
        exact ih hq (fun x hx => hsub (List.mem_cons_of_mem _ hx)) hrest

/-! ### Runs of calls -/

/-- A call of the processor. -/
inductive ProcessorCall where
  | process (frame : IngressFrame) (snapshot : ProcessingSnapshot)
  | reset

/-- The processor after a call, if the call returns. -/
def ProcessorCall.run (cfg : ProcessorConfig) (env : Environment) (p : Processor) :
    ProcessorCall → Option Processor
  | .process frame snapshot =>
    match Processor.process cfg env p frame snapshot with
    | (p, .ok _) => some p
    | (_, .error _) => none
  | .reset => some (Processor.reset env p).1

/-- The processor after calls all of which return. -/
def returningCalls (cfg : ProcessorConfig) (env : Environment) :
    List ProcessorCall → Processor → Option Processor
  | [], p => some p
  | call :: rest, p => (call.run cfg env p).bind (returningCalls cfg env rest)

lemma Attached.call (htimeout : 0 < cfg.assembler.timeout) (h : p.Attached) {call : ProcessorCall}
    (hcall : call.run cfg env p = some p') : p'.Attached := by
  cases call with
  | process frame snapshot =>
    obtain ⟨q, result, hrun⟩ : ∃ q result, Processor.process cfg env p frame snapshot = (q, result) :=
      ⟨_, _, rfl⟩
    simp only [ProcessorCall.run, hrun] at hcall
    cases result with
    | error e => simp at hcall
    | ok reports =>
      obtain rfl := Option.some.inj hcall
      obtain ⟨leadingS, sentences, q', -, hparse, hsentences, rfl⟩ := process_ok hrun
      have hcalled : (called p).Attached := ⟨h.wellFormed, h.pending⟩
      have hq' := hcalled.sentences htimeout hparse sentences (List.Subset.refl _) hsentences
      exact ⟨hq'.wellFormed, hq'.pending⟩
  | reset =>
    obtain rfl := Option.some.inj hcall
    refine ⟨h.wellFormed.mono ?_ le_rfl, fun key hkey => ?_⟩
    · intro key g hg
      simp [Processor.reset, Assembler.reset] at hg
    · exact absurd hkey (MultipartContexts.not_hasKey_empty key)

lemma Attached.calls (htimeout : 0 < cfg.assembler.timeout) (calls : List ProcessorCall) :
    ∀ {p p' : Processor}, p.Attached → returningCalls cfg env calls p = some p' → p'.Attached := by
  induction calls with
  | nil =>
    intro p p' h hrun
    obtain rfl := Option.some.inj hrun
    exact h
  | cons call rest ih =>
    intro p p' h hrun
    obtain ⟨q, hcall, hrest⟩ := Option.bind_eq_some_iff.mp hrun
    exact ih (h.call htimeout hcall) hrest

/-- After any calls that return, every key with metadata is the key of a pending group: without
groups there is no metadata, and no dictionary has more keys than there are groups. -/
theorem metadata_of_pending (htimeout : 0 < cfg.assembler.timeout) {calls : List ProcessorCall}
    (hrun : returningCalls cfg env calls (init startNs) = some p) :
    (∀ key, p.contexts.HasKey key → key ∈ p.assembler.groups.keys) ∧
      (p.assembler.groups.size = 0 →
        p.contexts.s.size = 0 ∧ p.contexts.c.size = 0 ∧ p.contexts.gid.size = 0) ∧
      p.contexts.s.size ≤ p.assembler.groups.size ∧ p.contexts.c.size ≤ p.assembler.groups.size ∧
      p.contexts.gid.size ≤ p.assembler.groups.size := by
  have hattached : p.Attached := attached_start.calls htimeout calls hrun
  obtain ⟨hs, hc, hgid⟩ := MultipartContexts.size_le hattached.pending
  exact ⟨hattached.pending, fun hempty => by omega, hs, hc, hgid⟩

/-- The first fragment of a group with a `c` value and a group id, then a reset. -/
def pendingCalls : List ProcessorCall :=
  (taggedCalls.take 1).map (fun call => .process call.1 call.2) ++ [.reset] ++
    (taggedCalls.take 1).map (fun call => .process call.1 call.2)

theorem metadata_of_pending_tagged : ∃ p,
    returningCalls taggedConfig stillEnvironment pendingCalls (init 0) = some p ∧
      p.contexts.c.keys = [⟨str "a", str "3", str "A", 2⟩] ∧
      ∀ key, p.contexts.HasKey key → key ∈ p.assembler.groups.keys := by
  have hreturns : (returningCalls taggedConfig stillEnvironment pendingCalls (init 0)).map
      (fun p => p.contexts.c.keys) = some [⟨str "a", str "3", str "A", 2⟩] := by decide +kernel
  obtain ⟨p, hrun, hkeys⟩ := Option.map_eq_some_iff.mp hreturns
  exact ⟨p, hrun, hkeys, (metadata_of_pending (by decide +kernel) hrun).1⟩

end Lifetime

end Processor

end AisMixer

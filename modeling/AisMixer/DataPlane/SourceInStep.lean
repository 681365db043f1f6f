import AisMixer.DataPlane.OutputBuilder
import AisMixer.DataPlane.TouchOrder

/-!
# The two maps of the source activity

`SourceState` makes the state of a source after the touch of its key has returned. The maps have
the same keys exactly as long as no touch drops the key that it records.
-/

namespace AisMixer
open Library

/-- The constructor of `TTLMap`, whose periods are given in seconds. -/
def TTLMapConfig.ofSeconds (ttlSeconds : ℚ) (maxEntries : Int) (sweepEverySeconds : ℚ)
    (opsPerSweep : Int) : TTLMapConfig :=
  ⟨truncate (ttlSeconds * 10 ^ 9), maxEntries, truncate (sweepEverySeconds * 10 ^ 9), opsPerSweep⟩

namespace TTLMap

variable {κ : Type} [DecidableEq κ]

/-- `_maybe_sweep` goes on to sweep. -/
def sweepDue (cfg : TTLMapConfig) (m : TTLMap κ) (now : Int) : Prop :=
  cfg.opsPerSweep ≤ m.ops + 1 ∨ cfg.sweepEveryNs ≤ now - m.lastSweepNs

/-- A touch keeps the key that it records: the record is not over at once in a sweep, and where
the limit is exceeded the first live record is one of another key. -/
def KeepsTouched (cfg : TTLMapConfig) (m : TTLMap κ) (key : κ) (now : Int) : Prop :=
  (sweepDue cfg m now → 0 < cfg.ttlNs) ∧
    (cfg.maxEntries < (m.swept cfg key now).1.d.size →
      ∀ r ∈ ((m.swept cfg key now).1.q.dropWhile
        (fun r => !(m.swept cfg key now).1.d.contains r.2)).head?, r.2 ≠ key)

lemma sweepLoop_all {nowNs : Int} (q : List (Int × κ)) : ∀ (d : Dict κ Int) (evicted : List κ),
    (∀ r ∈ q, r.1 ≤ nowNs) → (sweepLoop nowNs q d evicted).1 = [] := by
  induction q with
  | nil => exact fun d evicted h => rfl
  | cons r rest ih =>
    obtain ⟨exp, key⟩ := r
    intro d evicted h
    have hover := h (exp, key) (List.mem_cons_self ..)
    have hrest := fun r hr => h r (List.mem_cons_of_mem _ hr)
    rw [sweepLoop, if_neg (not_lt.mpr hover)]
    split
    · exact ih _ _ hrest
    · exact ih _ _ hrest

section Touch

variable {cfg : TTLMapConfig} {m : TTLMap κ} {log : List (Int × κ)} {key : κ} {now : Int}

/-- The sweep of a touch drops the key exactly when it is due and the time to live is nothing. -/
lemma mem_swept_evicted_iff (h : Recorded m.q m.d) (hle : ∀ r ∈ m.q, r.1 ≤ now + cfg.ttlNs)
    (httl : 0 ≤ cfg.ttlNs) :
    key ∈ (m.swept cfg key now).2 ↔ sweepDue cfg m now ∧ ¬0 < cfg.ttlNs := by
  obtain ⟨-, hdict, hrecorded, hover⟩ := @swept_spec _ _ cfg _ h key now
  constructor
  · intro hmem
    obtain ⟨exp, hget, hexp⟩ := hover key hmem
    rw [Dict.get?_set, if_pos rfl] at hget
    have hexp' := Option.some.inj hget
    refine ⟨?_, by omega⟩
    by_contra hdue
    rw [swept, maybeSweep] at hmem
    dsimp only at hmem
    rw [if_neg (by simpa [sweepDue] using hdue)] at hmem
    cases hmem
  · rintro ⟨hdue, hzero⟩
    -- every record is over, so the sweep empties the queue and nothing is left to be live
    have hempty : (m.swept cfg key now).1.q = [] := by
      rw [swept, maybeSweep]
      dsimp only
      rw [if_pos (by simpa [sweepDue] using hdue)]
      refine sweepLoop_all _ _ _ ?_
      intro r hr
      rcases List.mem_append.mp hr with hr | hr
      · have hbound := hle r hr
        omega
      · rw [List.mem_singleton.mp hr]
        dsimp only
        omega
    by_contra hmem
    have hget : (m.swept cfg key now).1.d.get? key = some (now + cfg.ttlNs) := by
      rw [hdict, Dict.get?_eraseAll, if_neg hmem, Dict.get?_set, if_pos rfl]
    have hqueue := hrecorded key _ hget
    rw [hempty] at hqueue
    cases hqueue

/-- A touch reports the key that it records exactly when it does not keep it. -/
lemma not_mem_touch_iff (h : Tracks cfg log m) (hle : ∀ r ∈ m.q, r.1 ≤ now + cfg.ttlNs)
    (httl : 0 ≤ cfg.ttlNs) (hmax : 0 ≤ cfg.maxEntries) :
    key ∉ (m.touch cfg key now).2 ↔ KeepsTouched cfg m key now := by
  obtain ⟨-, -, -, -, hreported⟩ := @touch_spec _ _ cfg _ hmax h.recorded key now
  have hswept := @mem_swept_evicted_iff _ _ _ _ key _ h.recorded hle httl
  have hoverflow : key ∉ m.overflowEvicted cfg key now ↔
      (cfg.maxEntries < (m.swept cfg key now).1.d.size →
        ∀ r ∈ ((m.swept cfg key now).1.q.dropWhile
          (fun r => !(m.swept cfg key now).1.d.contains r.2)).head?, r.2 ≠ key) := by
    by_cases hfull : cfg.maxEntries < (m.swept cfg key now).1.d.size
    · obtain ⟨r, rest, hdrop, hevicted, -⟩ := @overflow_cases _ _ _ _ _ key _ h hmax hfull
      rw [hdrop, hevicted]
      simp [hfull, eq_comm]
    · simp [overflowEvicted, hfull]
  rw [hreported, List.mem_append, not_or, hswept, hoverflow, KeepsTouched, not_and, not_not]

end Touch

end TTLMap

/-! ### The two maps -/

inductive SourceCall where
  | touchS (sValue : Option PyStr)
  | reset
  deriving DecidableEq

namespace SourceState

def perform (cfg : TTLMapConfig) (s : SourceState) (now : Int) : SourceCall → SourceState
  | .touchS sValue => s.touchS cfg (sValue.getD []) now
  | .reset => (s.reset now).1

/-- The state after a run of timed calls. -/
def after (cfg : TTLMapConfig) : SourceState → List (Int × SourceCall) → SourceState
  | s, [] => s
  | s, (now, call) :: calls => after cfg (s.perform cfg now call) calls

/-- The maps have the same keys, and no more than the limit. -/
structure InStep (cfg : TTLMapConfig) (s : SourceState) : Prop where
  keys : ∀ key, key ∈ s.perSState.keys ↔ key ∈ s.sCache.d.keys
  bounded : (s.perSState.size : Int) ≤ cfg.maxEntries

lemma after_append (cfg : TTLMapConfig) (s : SourceState) (calls more : List (Int × SourceCall)) :
    after cfg s (calls ++ more) = after cfg (after cfg s calls) more := by
  induction calls generalizing s with
  | nil => rfl
  | cons c calls ih => exact ih (s.perform cfg c.1 c.2)

/-- The cache keeps the records of touches that were made up to a time. -/
def Tracked (cfg : TTLMapConfig) (last : Int) (s : SourceState) : Prop :=
  ∃ log, s.sCache.Tracks cfg log ∧ ∀ r ∈ log, r.1 ≤ last

section Step

variable {cfg : TTLMapConfig} {s : SourceState} {last now : Int}

lemma Tracked.later (h : Tracked cfg last s) (hle : last ≤ now) : Tracked cfg now s := by
  obtain ⟨log, htracks, hbound⟩ := h
  exact ⟨log, htracks, fun r hr => (hbound r hr).trans hle⟩

lemma Tracked.queue_le (h : Tracked cfg now s) : ∀ r ∈ s.sCache.q, r.1 ≤ now + cfg.ttlNs := by
  obtain ⟨log, htracks, hbound⟩ := h
  intro r hr
  obtain ⟨t, ht, rfl⟩ := List.mem_map.mp (htracks.queue.subset hr)
  have hle := hbound t ht
  dsimp only
  omega

lemma Tracked.perform (h : Tracked cfg now s) (hmax : 0 ≤ cfg.maxEntries) (call : SourceCall) :
    Tracked cfg now (s.perform cfg now call) := by
  obtain ⟨log, htracks, hbound⟩ := h
  cases call with
  | touchS sValue =>
    rw [SourceState.perform, touchS]
    split
    · exact ⟨log, htracks, hbound⟩
    · refine ⟨log ++ [(now, sValue.getD [])], htracks.touch hmax _ now, ?_⟩
      intro r hr
      rcases List.mem_append.mp hr with hr | hr
      · exact hbound r hr
      · rw [List.mem_singleton.mp hr]
  | reset => exact ⟨[], TTLMap.tracks_clear hmax [] s.sCache now, by simp⟩

/-- The maps stay in step in a touch exactly when the touch keeps the key. -/
theorem touchS_inStep_iff (h : Tracked cfg now s) (httl : 0 ≤ cfg.ttlNs) (hmax : 0 ≤ cfg.maxEntries)
    (hstep : InStep cfg s) {value : PyStr} (hvalue : value ≠ []) :
    InStep cfg (s.touchS cfg value now) ↔ s.sCache.KeepsTouched cfg value now := by
  obtain ⟨log, htracks, -⟩ := id h
  obtain ⟨-, hdict, -, hsize, -⟩ := @TTLMap.touch_spec _ _ cfg _ hmax htracks.recorded value now
  rw [← TTLMap.not_mem_touch_iff htracks h.queue_le httl hmax]
  obtain ⟨evicted, hevicted⟩ : ∃ evicted, evicted = (s.sCache.touch cfg value now).2 := ⟨_, rfl⟩
  rw [← hevicted] at hdict ⊢
  have hstate : s.touchS cfg value now = ⟨(s.sCache.touch cfg value now).1,
      if (s.perSState.eraseAll evicted).contains value then s.perSState.eraseAll evicted
      else (s.perSState.eraseAll evicted).set value ()⟩ := by
    rw [touchS, if_neg hvalue, hevicted]
  have hstates : ∀ key, key ∈ (s.touchS cfg value now).perSState.keys ↔
      (key ∈ s.perSState.keys ∧ key ∉ evicted) ∨ key = value := by
    intro key
    rw [hstate]
    dsimp only
    split
    · rename_i hcontains
      rw [Dict.contains_iff] at hcontains
      rw [Dict.mem_keys_eraseAll] at hcontains ⊢
      constructor
      · exact Or.inl
      · rintro (hmem | rfl)
        · exact hmem
        · exact hcontains
    · rw [Dict.mem_keys_set, Dict.mem_keys_eraseAll]
  have htouched : ∀ key, key ∈ (s.touchS cfg value now).sCache.d.keys ↔
      (key ∈ s.sCache.d.keys ∨ key = value) ∧ key ∉ evicted := by
    intro key
    rw [hstate]
    dsimp only
    rw [hdict, Dict.mem_keys_eraseAll, Dict.mem_keys_set]
  constructor
  · intro hnext
    have hkey := (hnext.keys value).mp ((hstates value).mpr (Or.inr rfl))
    exact ((htouched value).mp hkey).2
  · intro hkeep
    have hkeys : ∀ key, key ∈ (s.touchS cfg value now).perSState.keys ↔
        key ∈ (s.touchS cfg value now).sCache.d.keys := by
      intro key
      rw [hstates, htouched, hstep.keys]
      constructor
      · rintro (⟨hmem, hnot⟩ | rfl)
        · exact ⟨Or.inl hmem, hnot⟩
        · exact ⟨Or.inr rfl, hkeep⟩
      · rintro ⟨hmem | rfl, hnot⟩
        · exact Or.inl ⟨hmem, hnot⟩
        · exact Or.inr rfl
    refine ⟨hkeys, ?_⟩
    rw [Dict.size_eq_of_keys _ _ hkeys, hstate]
    exact hsize

lemma perform_inStep (h : Tracked cfg now s) (httl : 0 ≤ cfg.ttlNs) (hmax : 0 ≤ cfg.maxEntries)
    (hstep : InStep cfg s) {call : SourceCall}
    (hkeeps : ∀ value, call = .touchS (some value) → value ≠ [] →
      s.sCache.KeepsTouched cfg value now) : InStep cfg (s.perform cfg now call) := by
  cases call with
  | touchS sValue =>
    cases sValue with
    | none => exact hstep
    | some value =>
      by_cases hvalue : value = []
      · rw [SourceState.perform, hvalue]
        exact hstep
      · exact (touchS_inStep_iff h httl hmax hstep hvalue).mpr (hkeeps value rfl hvalue)
  | reset => exact ⟨fun key => Iff.rfl, hmax⟩

end Step

lemma init_inStep {cfg : TTLMapConfig} (hmax : 0 ≤ cfg.maxEntries) (start : Int) :
    InStep cfg (init start) :=
  ⟨fun _ => Iff.rfl, hmax⟩

lemma init_tracked {cfg : TTLMapConfig} (hmax : 0 ≤ cfg.maxEntries) (start last : Int) :
    Tracked cfg last (init start) :=
  ⟨[], TTLMap.init_tracks hmax start, by simp⟩

lemma after_tracked {cfg : TTLMapConfig} (hmax : 0 ≤ cfg.maxEntries) (start : Int)
    (calls : List (Int × SourceCall)) (hclock : (calls.map Prod.fst).Pairwise (fun s t => s ≤ t)) :
    ∀ last, (∀ c ∈ calls, c.1 ≤ last) → Tracked cfg last (after cfg (init start) calls) := by
  induction calls using List.reverseRecOn with
  | nil => exact fun last _ => init_tracked hmax start last
  | append_singleton calls c ih =>
    intro last hlast
    rw [List.map_append, List.pairwise_append] at hclock
    have hbefore : ∀ d ∈ calls, d.1 ≤ c.1 := by
      intro d hd
      exact hclock.2.2 d.1 (List.mem_map_of_mem hd) c.1 (by simp)
    have hnext := (ih hclock.1 c.1 hbefore).perform hmax c.2
    rw [after_append]
    exact hnext.later (hlast c (by simp))

/-- The source state after a run is in step at every moment exactly when every touch of the run
keeps the key that it records. -/
theorem in_step_iff (ttlSeconds sweepEverySeconds : ℚ) (maxEntries opsPerSweep start : Int)
    (httl : 0 < ttlSeconds) (hmax : 1 ≤ maxEntries) (calls : List (Int × SourceCall))
    (hclock : (calls.map Prod.fst).Pairwise (fun s t => s ≤ t)) :
    let cfg := TTLMapConfig.ofSeconds ttlSeconds maxEntries sweepEverySeconds opsPerSweep
    (∀ earlier later, calls = earlier ++ later → InStep cfg (after cfg (init start) earlier)) ↔
      ∀ earlier now value later, calls = earlier ++ (now, SourceCall.touchS (some value)) :: later →
        value ≠ [] → (after cfg (init start) earlier).sCache.KeepsTouched cfg value now := by
  intro cfg
  have hzero : (0 : Int) ≤ cfg.maxEntries := le_trans zero_le_one hmax
  have hnonneg : 0 ≤ cfg.ttlNs := by
    have hpos : 0 ≤ ttlSeconds * 10 ^ 9 := by positivity
    change 0 ≤ truncate (ttlSeconds * 10 ^ 9)
    rw [truncate, if_pos hpos]
    exact Int.floor_nonneg.mpr hpos
  have htracked : ∀ earlier now call later, calls = earlier ++ (now, call) :: later →
      Tracked cfg now (after cfg (init start) earlier) := by
    intro earlier now call later hcalls
    rw [hcalls, List.map_append, List.map_cons, List.pairwise_append] at hclock
    refine after_tracked hzero start earlier hclock.1 now ?_
    intro c hc
    exact hclock.2.2 c.1 (List.mem_map_of_mem hc) now (List.mem_cons_self ..)
  constructor
  · intro hall earlier now value later hcalls hvalue
    have hnext := hall (earlier ++ [(now, .touchS (some value))]) later (by simp [hcalls])
    rw [after_append] at hnext
    exact (touchS_inStep_iff (htracked earlier now _ later hcalls) hnonneg hzero
      (hall earlier _ hcalls) hvalue).mp hnext
  · intro hkeeps earlier
    induction earlier using List.reverseRecOn with
    | nil => exact fun _ _ => init_inStep hzero start
    | append_singleton earlier c ih =>
      intro later hcalls
      have hsplit : calls = earlier ++ (c.1, c.2) :: later := by rw [hcalls, List.append_assoc]; rfl
      rw [after_append]
      refine perform_inStep (htracked earlier c.1 c.2 later hsplit) hnonneg hzero
        (ih _ hsplit) ?_
      intro value hvalue hne
      exact hkeeps earlier c.1 value later (by rw [hsplit, hvalue]) hne

/-- One source may stay. The first one is touched twice, then the second one and the first again. -/
def retouchedSource : List (Int × SourceCall) :=
  [(0, .touchS (some (str "a"))), (1, .touchS (some (str "a"))), (2, .touchS (some (str "b"))),
    (3, .touchS (some (str "a")))]

theorem in_step_iff_retouchedSource :
    let cfg := TTLMapConfig.ofSeconds 900 1 1 2048
    (∀ earlier later, retouchedSource = earlier ++ later → InStep cfg (after cfg (init 0) earlier)) ↔
      ∀ earlier now value later,
        retouchedSource = earlier ++ (now, SourceCall.touchS (some value)) :: later →
        value ≠ [] → (after cfg (init 0) earlier).sCache.KeepsTouched cfg value now :=
  in_step_iff 900 1 1 2048 0 (by norm_num) (by norm_num) retouchedSource (by decide)

/-- The last touch evicts its own key, and the state of the source is made after that. -/
theorem not_inStep_retouchedSource :
    (retouchedSource.map Prod.fst).Pairwise (fun s t => s ≤ t) ∧
      ¬∀ key, key ∈ (after (.ofSeconds 900 1 1 2048) (init 0) retouchedSource).perSState.keys ↔
        key ∈ (after (.ofSeconds 900 1 1 2048) (init 0) retouchedSource).sCache.d.keys := by
  refine ⟨by decide, ?_⟩
  intro h
  have hstate : str "a" ∈ (after (.ofSeconds 900 1 1 2048) (init 0) retouchedSource).perSState.keys := by
    decide +kernel
  exact absurd ((h (str "a")).mp hstate) (by decide +kernel)

end SourceState

end AisMixer

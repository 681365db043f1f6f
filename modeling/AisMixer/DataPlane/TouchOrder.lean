import AisMixer.DataPlane.SourceState
import AisMixer.Library.Recency

/-!
# Which key the capacity limit evicts

The expiry queue keeps one record for each touch. `Tracks` relates it to the log of all touches:
it is the end of the log, and every key that is still there has its latest record in it. The key
of the first record of a live key is evicted; it is the least recently touched one when that
record is the latest of its key.
-/

namespace AisMixer
open Library

inductive TTLCall (κ : Type) where
  | touch (key : κ)
  | contains (key : κ)
  | clear
  deriving DecidableEq

/-- The touches among timed calls. -/
def touchLog {κ : Type} (calls : List (Int × TTLCall κ)) : List (Int × κ) :=
  calls.filterMap (fun c =>
    match c.2 with
    | .touch key => some (c.1, key)
    | _ => none)

namespace TTLMap

variable {κ : Type} [DecidableEq κ]

def perform (cfg : TTLMapConfig) (m : TTLMap κ) (now : Int) : TTLCall κ → TTLMap κ
  | .touch key => (m.touch cfg key now).1
  | .contains key => (m.contains cfg key now).1
  | .clear => (m.clear now).1

/-- The map after a run of timed calls. -/
def after (cfg : TTLMapConfig) : TTLMap κ → List (Int × TTLCall κ) → TTLMap κ
  | m, [] => m
  | m, (now, call) :: calls => after cfg (m.perform cfg now call) calls

/-- The map in a call of `touch` when the key has been recorded and the sweep is over. -/
def swept (cfg : TTLMapConfig) (m : TTLMap κ) (key : κ) (now : Int) : TTLMap κ × List κ :=
  maybeSweep cfg { m with
    d := m.d.set key (now + cfg.ttlNs), q := m.q ++ [(now + cfg.ttlNs, key)] } now

/-- The keys that a touch evicts because there are too many. -/
def overflowEvicted (cfg : TTLMapConfig) (m : TTLMap κ) (key : κ) (now : Int) : List κ :=
  let m := (m.swept cfg key now).1
  if cfg.maxEntries < m.d.size then (evictLoop cfg.maxEntries m.q m.d []).2.2 else []

/-- The first record of a live key is the latest record of its key. -/
def frontIsLatest (m : TTLMap κ) : Bool :=
  match m.q.dropWhile (fun r => !m.d.contains r.2) with
  | [] => true
  | r :: rest => rest.all (fun s => s.2 ≠ r.2)

/-! ### The loops -/

/-- Every live key has the record of its latest touch in the queue. -/
def Recorded (q : List (Int × κ)) (d : Dict κ Int) : Prop :=
  ∀ key exp, d.get? key = some exp → (exp, key) ∈ q

lemma Recorded.erase {q : List (Int × κ)} {d : Dict κ Int} {r : Int × κ}
    (h : Recorded (r :: q) d) : Recorded q (d.erase r.2) := by
  intro key exp hget
  rw [Dict.get?_erase] at hget
  split at hget
  · cases hget
  · rename_i hne
    rcases List.mem_cons.mp (h key exp hget) with heq | hmem
    · exact absurd (congrArg Prod.snd heq).symm hne
    · exact hmem

/-- A record that is not the latest of a live key can go. -/
lemma Recorded.tail {q : List (Int × κ)} {d : Dict κ Int} {r : Int × κ} (h : Recorded (r :: q) d)
    (hstale : d.get? r.2 ≠ some r.1) : Recorded q d := by
  intro key exp hget
  rcases List.mem_cons.mp (h key exp hget) with heq | hmem
  · rw [← heq] at hstale
    exact absurd hget hstale
  · exact hmem

lemma Recorded.eraseAll {q : List (Int × κ)} {d : Dict κ Int} (h : Recorded q d) (ks : List κ) :
    Recorded q (d.eraseAll ks) := by
  intro key exp hget
  rw [Dict.get?_eraseAll] at hget
  split at hget
  · cases hget
  · exact h key exp hget

/-- A sweep takes records from the front and drops the keys whose time is over. -/
lemma sweepLoop_spec (nowNs : Int) (q : List (Int × κ)) : ∀ (d : Dict κ Int) (evicted : List κ),
    Recorded q d → ∃ q' removed, sweepLoop nowNs q d evicted = (q', d.eraseAll removed, evicted ++ removed) ∧
      q' <:+ q ∧ Recorded q' (d.eraseAll removed) ∧
      ∀ key ∈ removed, ∃ exp, d.get? key = some exp ∧ exp ≤ nowNs := by
  induction q with
  | nil =>
    intro d evicted h
    exact ⟨[], [], by simp [sweepLoop, Dict.eraseAll], List.suffix_rfl, h, by simp⟩
  | cons r rest ih =>
    obtain ⟨exp, key⟩ := r
    intro d evicted h
    rw [sweepLoop]
    by_cases hlater : nowNs < exp
    · rw [if_pos hlater]
      exact ⟨_, [], by simp [Dict.eraseAll], List.suffix_rfl, h, by simp⟩
    · rw [if_neg hlater]
      by_cases hcurrent : d.get? key = some exp
      · rw [if_pos hcurrent]
        obtain ⟨q', removed, hloop, hsuffix, hrecorded, hover⟩ := ih (d.erase key) (evicted ++ [key]) h.erase
        refine ⟨q', key :: removed, ?_, hsuffix.trans (List.suffix_cons _ _), hrecorded, ?_⟩
        · rw [hloop, Dict.eraseAll_cons, List.append_assoc, List.singleton_append]
        · intro k hk
          rcases List.mem_cons.mp hk with rfl | hk
          · exact ⟨exp, hcurrent, not_lt.mp hlater⟩
          · obtain ⟨e, hget, hle⟩ := hover k hk
            rw [Dict.get?_erase] at hget
            split at hget
            · cases hget
            · exact ⟨e, hget, hle⟩
      · rw [if_neg hcurrent]
        obtain ⟨q', removed, hloop, hsuffix, hrecorded, hover⟩ := ih d evicted (h.tail hcurrent)
        exact ⟨q', removed, hloop, hsuffix.trans (List.suffix_cons _ _), hrecorded, hover⟩

/-- Eviction takes records from the front until there is room. -/
lemma evictLoop_spec {target : Int} (htarget : 0 ≤ target) (q : List (Int × κ)) :
    ∀ (d : Dict κ Int) (evicted : List κ), Recorded q d →
      ∃ q' removed, evictLoop target q d evicted = (q', d.eraseAll removed, evicted ++ removed) ∧
        q' <:+ q ∧ Recorded q' (d.eraseAll removed) ∧ ((d.eraseAll removed).size : Int) ≤ target := by
  induction q with
  | nil =>
    intro d evicted h
    refine ⟨[], [], by simp [evictLoop, Dict.eraseAll], List.suffix_rfl, h, ?_⟩
    have hempty : d.entries = [] := by
      rw [List.eq_nil_iff_forall_not_mem]
      intro e he
      exact List.not_mem_nil (h e.1 e.2 ((Dict.get?_eq_some_iff _ _ _).mpr he))
    simp [Dict.eraseAll, Dict.size, hempty, htarget]
  | cons r rest ih =>
    obtain ⟨exp, key⟩ := r
    intro d evicted h
    rw [evictLoop]
    by_cases hroom : (d.size : Int) ≤ target
    · rw [if_pos hroom]
      exact ⟨_, [], by simp [Dict.eraseAll], List.suffix_rfl, h, hroom⟩
    · rw [if_neg hroom]
      by_cases hlive : d.contains key = true
      · rw [if_pos hlive]
        obtain ⟨q', removed, hloop, hsuffix, hrecorded, hsize⟩ := ih (d.erase key) (evicted ++ [key]) h.erase
        refine ⟨q', key :: removed, ?_, hsuffix.trans (List.suffix_cons _ _), hrecorded, hsize⟩
        rw [hloop, Dict.eraseAll_cons, List.append_assoc, List.singleton_append]
      · rw [if_neg hlive]
        have hdead : d.get? key ≠ some exp := by
          intro hget
          exact hlive (by simp [Dict.contains, hget])
        obtain ⟨q', removed, hloop, hsuffix, hrecorded, hsize⟩ := ih d evicted (h.tail hdead)
        exact ⟨q', removed, hloop, hsuffix.trans (List.suffix_cons _ _), hrecorded, hsize⟩

/-- Of one key too many, the key of the first live record goes. -/
lemma evictLoop_one {target : Int} {r : Int × κ} {rest : List (Int × κ)} (q : List (Int × κ)) :
    ∀ (d : Dict κ Int) (evicted : List κ), (d.size : Int) = target + 1 →
      q.dropWhile (fun r => !d.contains r.2) = r :: rest →
      evictLoop target q d evicted = (rest, d.erase r.2, evicted ++ [r.2]) := by
  induction q with
  | nil =>
    intro d evicted hsize hq
    cases hq
  | cons head tail ih =>
    obtain ⟨exp, key⟩ := head
    intro d evicted hsize hq
    have hfull : ¬(d.size : Int) ≤ target := by omega
    rw [evictLoop, if_neg hfull]
    by_cases hlive : d.contains key = true
    · rw [List.dropWhile_cons_of_neg (by simp [hlive])] at hq
      obtain ⟨rfl, rfl⟩ := List.cons.inj hq
      have hless := d.size_erase_of_mem ((d.contains_iff key).mp hlive)
      have hroom : ((d.erase key).size : Int) ≤ target := by omega
      rw [if_pos hlive]
      cases tail with
      | nil => rfl
      | cons next tail => rw [evictLoop, if_pos hroom]
    · rw [List.dropWhile_cons_of_pos (by simp [hlive])] at hq
      rw [if_neg hlive]
      exact ih d evicted hsize hq

/-! ### Calls -/

/-- The queue is the end of the log of touches, and the latest records of the live keys are in it. -/
structure Tracks (cfg : TTLMapConfig) (log : List (Int × κ)) (m : TTLMap κ) : Prop where
  queue : m.q <:+ log.map (fun r => (r.1 + cfg.ttlNs, r.2))
  recorded : Recorded m.q m.d
  bounded : (m.d.size : Int) ≤ cfg.maxEntries

lemma maybeSweep_spec (cfg : TTLMapConfig) {m : TTLMap κ} (now : Int) (h : Recorded m.q m.d) :
    (m.maybeSweep cfg now).1.q <:+ m.q ∧
      (m.maybeSweep cfg now).1.d = m.d.eraseAll (m.maybeSweep cfg now).2 ∧
      Recorded (m.maybeSweep cfg now).1.q (m.maybeSweep cfg now).1.d ∧
      ∀ key ∈ (m.maybeSweep cfg now).2, ∃ exp, m.d.get? key = some exp ∧ exp ≤ now := by
  rw [maybeSweep]
  dsimp only
  split
  · obtain ⟨q', removed, hloop, hsuffix, hrecorded, hover⟩ := sweepLoop_spec now m.q m.d [] h
    simp only [sweep, hloop, List.nil_append]
    exact ⟨hsuffix, trivial, hrecorded, hover⟩
  · exact ⟨List.suffix_rfl, rfl, h, by simp⟩

lemma recorded_push {q : List (Int × κ)} {d : Dict κ Int} (h : Recorded q d) (key : κ) (exp : Int) :
    Recorded (q ++ [(exp, key)]) (d.set key exp) := by
  intro k e hget
  rw [Dict.get?_set] at hget
  rw [List.mem_append, List.mem_singleton]
  split at hget
  · rename_i heq
    right
    rw [← heq, Option.some.inj hget]
  · exact Or.inl (h k e hget)

section Touch

variable {cfg : TTLMapConfig} {m : TTLMap κ} {log : List (Int × κ)}

lemma swept_spec (h : Recorded m.q m.d) (key : κ) (now : Int) :
    (m.swept cfg key now).1.q <:+ m.q ++ [(now + cfg.ttlNs, key)] ∧
      (m.swept cfg key now).1.d =
        (m.d.set key (now + cfg.ttlNs)).eraseAll (m.swept cfg key now).2 ∧
      Recorded (m.swept cfg key now).1.q (m.swept cfg key now).1.d ∧
      ∀ k ∈ (m.swept cfg key now).2, ∃ exp,
        (m.d.set key (now + cfg.ttlNs)).get? k = some exp ∧ exp ≤ now :=
  maybeSweep_spec cfg (m := { m with
    d := m.d.set key (now + cfg.ttlNs), q := m.q ++ [(now + cfg.ttlNs, key)] }) now
    (recorded_push h key (now + cfg.ttlNs))

lemma touch_eq (key : κ) (now : Int) :
    m.touch cfg key now =
      if cfg.maxEntries < (m.swept cfg key now).1.d.size then
        ({ (m.swept cfg key now).1 with
            q := (evictLoop cfg.maxEntries (m.swept cfg key now).1.q (m.swept cfg key now).1.d []).1
            d := (evictLoop cfg.maxEntries (m.swept cfg key now).1.q (m.swept cfg key now).1.d []).2.1 },
          (m.swept cfg key now).2 ++ m.overflowEvicted cfg key now)
      else m.swept cfg key now := by
  unfold touch overflowEvicted swept
  dsimp only
  split <;> rfl

/-- A touch records the key and drops the keys that it reports, which leaves at most the limit. -/
lemma touch_spec (hmax : 0 ≤ cfg.maxEntries) (h : Recorded m.q m.d) (key : κ) (now : Int) :
    (m.touch cfg key now).1.q <:+ m.q ++ [(now + cfg.ttlNs, key)] ∧
      (m.touch cfg key now).1.d =
        (m.d.set key (now + cfg.ttlNs)).eraseAll (m.touch cfg key now).2 ∧
      Recorded (m.touch cfg key now).1.q (m.touch cfg key now).1.d ∧
      ((m.touch cfg key now).1.d.size : Int) ≤ cfg.maxEntries ∧
      (m.touch cfg key now).2 = (m.swept cfg key now).2 ++ m.overflowEvicted cfg key now := by
  obtain ⟨hsuffix, hdict, hrecorded, -⟩ := @swept_spec _ _ cfg _ h key now
  rw [touch_eq]
  split
  · rename_i hfull
    obtain ⟨q', removed, hloop, hsuffix', hrecorded', hsize⟩ :=
      evictLoop_spec hmax (m.swept cfg key now).1.q (m.swept cfg key now).1.d [] hrecorded
    have hover : m.overflowEvicted cfg key now = removed := by
      rw [overflowEvicted, if_pos hfull, hloop, List.nil_append]
    rw [hloop, hover]
    refine ⟨hsuffix'.trans hsuffix, ?_, hrecorded', hsize, rfl⟩
    dsimp only
    rw [hdict, Dict.eraseAll_append]
  · rename_i hroom
    have hover : m.overflowEvicted cfg key now = [] := if_neg hroom
    rw [hover, List.append_nil]
    exact ⟨hsuffix, hdict, hrecorded, not_lt.mp hroom, rfl⟩

lemma Tracks.touch (h : Tracks cfg log m) (hmax : 0 ≤ cfg.maxEntries) (key : κ) (now : Int) :
    Tracks cfg (log ++ [(now, key)]) (m.touch cfg key now).1 := by
  obtain ⟨hsuffix, -, hrecorded, hsize, -⟩ := @touch_spec _ _ cfg _ hmax h.recorded key now
  refine ⟨hsuffix.trans ?_, hrecorded, hsize⟩
  rw [List.map_append]
  obtain ⟨front, hfront⟩ := h.queue
  exact ⟨front, by rw [← hfront, List.append_assoc]; rfl⟩

lemma Tracks.contains (h : Tracks cfg log m) (key : κ) (now : Int) :
    Tracks cfg log (m.contains cfg key now).1 := by
  obtain ⟨hsuffix, hdict, hrecorded, -⟩ := maybeSweep_spec cfg now h.recorded
  have hsweep : Tracks cfg log (m.maybeSweep cfg now).1 := by
    refine ⟨hsuffix.trans h.queue, hrecorded, ?_⟩
    have hle := (m.d.entries_eraseAll_sublist (m.maybeSweep cfg now).2).length_le
    rw [hdict]
    exact le_trans (Int.ofNat_le.mpr hle) h.bounded
  unfold TTLMap.contains
  split
  · exact hsweep
  · split
    · refine ⟨h.queue, h.recorded.eraseAll [key], ?_⟩
      have hle := (m.d.entries_erase_sublist key).length_le
      exact le_trans (Int.ofNat_le.mpr hle) h.bounded
    · exact hsweep

lemma tracks_clear (hmax : 0 ≤ cfg.maxEntries) (log : List (Int × κ)) (m : TTLMap κ) (now : Int) :
    Tracks cfg log (m.clear now).1 :=
  ⟨List.nil_suffix, fun _ _ hget => by simp [clear] at hget, hmax⟩

end Touch

lemma after_tracks {cfg : TTLMapConfig} (hmax : 0 ≤ cfg.maxEntries) {log : List (Int × κ)} {m : TTLMap κ}
    (h : Tracks cfg log m) (calls : List (Int × TTLCall κ)) :
    Tracks cfg (log ++ touchLog calls) (after cfg m calls) := by
  induction calls generalizing log m with
  | nil =>
    rw [touchLog, List.filterMap_nil, List.append_nil]
    exact h
  | cons c calls ih =>
    obtain ⟨now, call⟩ := c
    cases call with
    | touch key =>
      have hnext := ih (h.touch hmax key now)
      rwa [List.append_assoc] at hnext
    | contains key => exact ih (h.contains key now)
    | clear => exact ih (tracks_clear hmax log m now)

/-! ### The evicted key -/

section Eviction

variable {cfg : TTLMapConfig} {m : TTLMap κ} {log : List (Int × κ)} {key : κ} {now : Int}

/-- A key that is touched with a positive time to live is not swept. -/
lemma mem_swept (h : Recorded m.q m.d) (httl : 0 < cfg.ttlNs) :
    key ∈ (m.swept cfg key now).1.d.keys := by
  obtain ⟨-, hdict, -, hover⟩ := @swept_spec _ _ cfg _ h key now
  have hkeep : key ∉ (m.swept cfg key now).2 := by
    intro hmem
    obtain ⟨exp, hget, hle⟩ := hover key hmem
    rw [Dict.get?_set, if_pos rfl] at hget
    have hexp := Option.some.inj hget
    omega
  rw [hdict, Dict.keys_eraseAll, List.mem_filter, Dict.keys_set]
  refine ⟨?_, decide_eq_true hkeep⟩
  split
  · assumption
  · exact List.mem_append_right _ (List.mem_singleton.mpr rfl)

lemma size_set_le (d : Dict κ Int) (key : κ) (value : Int) : (d.set key value).size ≤ d.size + 1 := by
  by_cases hmem : key ∈ d.keys
  · rw [d.size_set_of_mem value hmem]
    exact Nat.le_succ _
  · rw [d.size_set_of_not_mem value hmem]

/-- A touch that overflows evicts one key, that of the first live record. -/
lemma overflow_cases (h : Tracks cfg log m) (hmax : 0 ≤ cfg.maxEntries)
    (hfull : cfg.maxEntries < (m.swept cfg key now).1.d.size) :
    ∃ r rest, (m.swept cfg key now).1.q.dropWhile
        (fun r => !(m.swept cfg key now).1.d.contains r.2) = r :: rest ∧
      m.overflowEvicted cfg key now = [r.2] ∧
      (m.touch cfg key now).1.d = (m.swept cfg key now).1.d.erase r.2 ∧
      ((m.swept cfg key now).1.d.size : Int) = cfg.maxEntries + 1 := by
  obtain ⟨-, hdict, hrecorded, -⟩ := @swept_spec _ _ cfg _ h.recorded key now
  obtain ⟨s, hs⟩ : ∃ s, s = (m.swept cfg key now).1 := ⟨_, rfl⟩
  have hsize : (s.d.size : Int) = cfg.maxEntries + 1 := by
    have hle := ((m.d.set key (now + cfg.ttlNs)).entries_eraseAll_sublist (m.swept cfg key now).2).length_le
    have hset := size_set_le m.d key (now + cfg.ttlNs)
    have hbounded := h.bounded
    rw [← hs] at hfull hdict
    rw [hdict] at hfull ⊢
    change ((m.d.set key (now + cfg.ttlNs)).eraseAll (m.swept cfg key now).2).size ≤
      (m.d.set key (now + cfg.ttlNs)).size at hle
    omega
  rw [← hs] at hfull hrecorded ⊢
  have hlive : ∃ k exp, s.d.get? k = some exp := by
    have hpos : 0 < s.d.keys.length := by
      rw [Dict.length_keys]
      omega
    obtain ⟨k, hk⟩ := List.exists_mem_of_length_pos hpos
    obtain ⟨exp, hexp⟩ := (Dict.mem_keys_iff _ _).mp hk
    exact ⟨k, exp, hexp⟩
  cases hdrop : s.q.dropWhile (fun r => !s.d.contains r.2) with
  | nil =>
    obtain ⟨k, exp, hexp⟩ := hlive
    have hdead := List.dropWhile_eq_nil_iff.mp hdrop (exp, k) (hrecorded k exp hexp)
    simp [Dict.contains, hexp] at hdead
  | cons r rest =>
    have hloop := evictLoop_one s.q s.d [] hsize hdrop
    refine ⟨r, rest, rfl, ?_, ?_, hsize⟩
    · rw [overflowEvicted, ← hs, if_pos hfull, hloop, List.nil_append]
    · rw [touch_eq, ← hs, if_pos hfull, hloop]

/-- When the first live record is the latest of its key, every key that stays has been touched
after the last touch of the evicted one. -/
lemma touched_after (h : Tracks cfg log m) (hmax : 0 ≤ cfg.maxEntries)
    (hfull : cfg.maxEntries < (m.swept cfg key now).1.d.size)
    (hfront : (m.swept cfg key now).1.frontIsLatest = true) :
    ∃ victim before time after, m.overflowEvicted cfg key now = [victim] ∧
      log ++ [(now, key)] = before ++ (time, victim) :: after ∧ (∀ r ∈ after, r.2 ≠ victim) ∧
      ∀ other ∈ (m.touch cfg key now).1.d.keys, ∃ r ∈ after, r.2 = other := by
  obtain ⟨r, rest, hdrop, hevicted, hdict, hsize⟩ := overflow_cases h hmax hfull
  obtain ⟨hsuffix, -, hrecorded, -⟩ := @swept_spec _ _ cfg _ h.recorded key now
  rw [frontIsLatest, hdrop] at hfront
  dsimp only at hfront
  rw [List.all_eq_true] at hfront
  obtain ⟨front, hlog⟩ : m.q ++ [(now + cfg.ttlNs, key)] <:+
      (log ++ [(now, key)]).map (fun r => (r.1 + cfg.ttlNs, r.2)) := by
    obtain ⟨front, hfront⟩ := h.queue
    exact ⟨front, by rw [List.map_append, ← hfront, List.append_assoc]; rfl⟩
  obtain ⟨gone, hgone⟩ := hsuffix
  have hsplit := (List.takeWhile_append_dropWhile
    (p := fun r => !(m.swept cfg key now).1.d.contains r.2) (l := (m.swept cfg key now).1.q)).symm
  rw [hdrop] at hsplit
  have hcut : (log ++ [(now, key)]).map (fun r => (r.1 + cfg.ttlNs, r.2)) =
      (front ++ gone ++ (m.swept cfg key now).1.q.takeWhile
        (fun r => !(m.swept cfg key now).1.d.contains r.2)) ++ r :: rest := by
    rw [← hlog, ← hgone, List.append_assoc, List.append_assoc, ← hsplit]
  obtain ⟨before, tail, hlist, -, htail⟩ := List.map_eq_append_iff.mp hcut
  obtain ⟨last, after, rfl, hlast, hafter⟩ := List.map_eq_cons_iff.mp htail
  have hvictim : last.2 = r.2 := by rw [← hlast]
  refine ⟨last.2, before, last.1, after, by rw [hvictim]; exact hevicted, hlist, ?_, ?_⟩
  · intro s hs
    have hmem : (s.1 + cfg.ttlNs, s.2) ∈ rest := by
      rw [← hafter]
      exact List.mem_map_of_mem hs
    rw [hvictim]
    exact of_decide_eq_true (hfront (s.1 + cfg.ttlNs, s.2) hmem)
  · intro other hother
    rw [hdict, Dict.keys_erase, List.mem_filter, decide_eq_true_iff] at hother
    obtain ⟨hlive, hne⟩ := hother
    obtain ⟨exp, hexp⟩ := (Dict.mem_keys_iff _ _).mp hlive
    have hmem := hrecorded other exp hexp
    rw [hsplit] at hmem
    rcases List.mem_append.mp hmem with hdead | hmem
    · have hcontains := List.mem_takeWhile_imp hdead
      simp [Dict.contains, hexp] at hcontains
    · rcases List.mem_cons.mp hmem with heq | hmem
      · exact absurd (congrArg Prod.snd heq) hne
      · rw [← hafter] at hmem
        obtain ⟨s, hs, heq⟩ := List.mem_map.mp hmem
        exact ⟨s, hs, congrArg Prod.snd heq⟩

/-- The key that is touched stays. -/
lemma mem_touch (h : Tracks cfg log m) (httl : 0 < cfg.ttlNs) (hmax : 1 ≤ cfg.maxEntries)
    (hlatest : cfg.maxEntries < (m.swept cfg key now).1.d.size → (m.swept cfg key now).1.frontIsLatest = true) :
    key ∈ (m.touch cfg key now).1.d.keys := by
  have hmem := @mem_swept _ _ _ _ key now h.recorded httl
  by_cases hfull : cfg.maxEntries < (m.swept cfg key now).1.d.size
  · have hzero : (0 : Int) ≤ cfg.maxEntries := by omega
    obtain ⟨r, rest, -, hevicted, hdict, hsize⟩ := overflow_cases h hzero hfull
    obtain ⟨victim, before, time, after, hvictim, hlog, hlast, hothers⟩ :=
      touched_after h hzero hfull (hlatest hfull)
    have hr : r.2 = victim := by
      rw [hevicted] at hvictim
      exact List.singleton_inj.mp hvictim
    -- some key stays, so the last touch is not that of the victim
    have hne : after ≠ [] := by
      rintro rfl
      have hpos : 0 < (m.touch cfg key now).1.d.keys.length := by
        have hless := (m.swept cfg key now).1.d.entries_erase_sublist r.2
        have hcount : (m.swept cfg key now).1.d.size ≤ ((m.swept cfg key now).1.d.erase r.2).size + 1 := by
          by_cases hin : r.2 ∈ (m.swept cfg key now).1.d.keys
          · rw [Dict.size_erase_of_mem _ hin]
          · rw [Dict.erase_of_not_mem _ hin]
            exact Nat.le_succ _
        rw [Dict.length_keys, hdict]
        omega
      obtain ⟨other, hother⟩ := List.exists_mem_of_length_pos hpos
      obtain ⟨s, hs, -⟩ := hothers other hother
      cases hs
    have hkey : key ≠ victim := by
      have hend := congrArg List.getLast? hlog
      rw [List.getLast?_append, List.getLast?_append, List.getLast?_singleton, Option.some_or,
        List.getLast?_cons, List.getLast?_eq_some_getLast hne, Option.getD_some, Option.some_or] at hend
      have hnot := hlast (after.getLast hne) (List.getLast_mem hne)
      rw [← Option.some.inj hend] at hnot
      exact hnot
    rw [hdict, Dict.keys_erase, List.mem_filter, hr]
    exact ⟨hmem, decide_eq_true hkey⟩
  · rw [touch_eq, if_neg hfull]
    exact hmem

end Eviction

lemma init_tracks {cfg : TTLMapConfig} (hmax : 0 ≤ cfg.maxEntries) (start : Int) :
    Tracks cfg [] (init start : TTLMap κ) :=
  ⟨List.suffix_rfl, fun _ _ hget => by simp [init] at hget, hmax⟩

omit [DecidableEq κ] in
lemma touchLog_sublist (calls : List (Int × TTLCall κ)) :
    ((touchLog calls).map Prod.fst).Sublist (calls.map Prod.fst) := by
  induction calls with
  | nil => exact List.Sublist.refl _
  | cons c calls ih =>
    obtain ⟨now, call⟩ := c
    cases call with
    | touch key => exact ih.cons_cons now
    | contains key => exact ih.cons now
    | clear => exact ih.cons now

/-- In a touch of a run the key stays, and the keys evicted for the limit are less recent and
not younger than those that stay. -/
def EvictsLeastRecent (cfg : TTLMapConfig) (start : Int) (calls : List (Int × TTLCall κ)) : Prop :=
  ∀ earlier now key later, calls = earlier ++ (now, TTLCall.touch key) :: later →
    let m := after cfg (init start) earlier
    let log := touchLog earlier ++ [(now, key)]
    key ∈ (m.touch cfg key now).1.d.keys ∧
      ∀ victim ∈ m.overflowEvicted cfg key now, ∀ other ∈ (m.touch cfg key now).1.d.keys,
        recency log other < recency log victim ∧
          ∀ s t, lastTime log victim = some s → lastTime log other = some t → s ≤ t

/-- No touch of a run that overflows finds an outdated record of a live key at the front. -/
def OverflowsOnLatest (cfg : TTLMapConfig) (start : Int) (calls : List (Int × TTLCall κ)) : Prop :=
  ∀ earlier now key later, calls = earlier ++ (now, TTLCall.touch key) :: later →
    cfg.maxEntries < ((after cfg (init start) earlier).swept cfg key now).1.d.size →
      ((after cfg (init start) earlier).swept cfg key now).1.frontIsLatest = true

/-- In a run whose overflows meet the latest record of the first live key, the limit evicts the
least recently touched key. -/
theorem evicts_least_recent {cfg : TTLMapConfig} (httl : 0 < cfg.ttlNs) (hmax : 1 ≤ cfg.maxEntries)
    (start : Int) (calls : List (Int × TTLCall κ))
    (hclock : (calls.map Prod.fst).Pairwise (fun s t => s ≤ t))
    (hlatest : OverflowsOnLatest cfg start calls) : EvictsLeastRecent cfg start calls := by
  intro earlier now key later hcalls m log
  have hzero : (0 : Int) ≤ cfg.maxEntries := by omega
  have htracks : Tracks cfg (touchLog earlier) m := after_tracks hzero (init_tracks hzero start) earlier
  have hcondition := hlatest earlier now key later hcalls
  refine ⟨mem_touch htracks httl hmax hcondition, ?_⟩
  intro victim hvictim other hother
  have hfull : cfg.maxEntries < (m.swept cfg key now).1.d.size := by
    by_contra hroom
    rw [overflowEvicted, if_neg hroom] at hvictim
    cases hvictim
  obtain ⟨evicted, before, time, after, hevicted, hlog, hlast, hothers⟩ :=
    touched_after htracks hzero hfull (hcondition hfull)
  rw [hevicted, List.mem_singleton] at hvictim
  have hsorted : log.Pairwise (fun r s => r.1 ≤ s.1) := by
    have hall := hclock.sublist (touchLog_sublist calls)
    have hfrontPart : touchLog calls = log ++ touchLog later := by
      rw [hcalls, touchLog, List.filterMap_append]
      exact List.append_cons _ _ _
    rw [hfrontPart, List.pairwise_map] at hall
    exact (List.pairwise_append.mp hall).1
  have hafter := hothers other hother
  rw [show log = before ++ (time, evicted) :: after from hlog] at hsorted ⊢
  rw [hvictim]
  exact ⟨more_recent hlast hafter, fun s t hs ht => not_older hlast hafter hsorted hs ht⟩

/-- Two keys may stay. -/
def twoEntries : TTLMapConfig := ⟨1000, 2, 1000, 1000⟩

/-- Three keys, one after the other. -/
def touchedOnce : List (Int × TTLCall Nat) := [(0, .touch 1), (1, .touch 2), (2, .touch 3)]

lemma overflowsOnLatest_touchedOnce : OverflowsOnLatest twoEntries 0 touchedOnce := by
  intro earlier now key later hcalls
  rcases earlier with _ | ⟨c₁, _ | ⟨c₂, _ | ⟨c₃, earlier⟩⟩⟩
  · cases hcalls
    decide
  · cases hcalls
    decide
  · cases hcalls
    decide
  · simp [touchedOnce] at hcalls

theorem evicts_least_recent_touchedOnce : EvictsLeastRecent twoEntries 0 touchedOnce :=
  evicts_least_recent (by decide) (by decide) 0 touchedOnce (by decide) overflowsOnLatest_touchedOnce

/-- The first key is touched again before the third one comes. -/
def touchedAgain : List (Int × TTLCall Nat) :=
  [(0, .touch 1), (1, .touch 2), (2, .touch 1), (3, .touch 3)]

/-- The outdated record of the first key is taken for its latest one. -/
theorem not_evictsLeastRecent :
    0 < twoEntries.ttlNs ∧ 1 ≤ twoEntries.maxEntries ∧
      (touchedAgain.map Prod.fst).Pairwise (fun s t => s ≤ t) ∧
      ¬EvictsLeastRecent twoEntries 0 touchedAgain := by
  refine ⟨by decide, by decide, by decide, ?_⟩
  intro h
  have hlast := (h [(0, .touch 1), (1, .touch 2), (2, .touch 1)] 3 3 [] rfl).2 1 (by decide) 2 (by decide)
  exact absurd (hlast.2 2 1 (by decide) (by decide)) (by decide)

end TTLMap

end AisMixer

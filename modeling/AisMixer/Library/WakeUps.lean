import AisMixer.Library.Asyncio
import Mathlib.Data.List.Nodup

/-!
# Wake-ups that are not lost

A semaphore and a queue with one consumer while nobody is cancelled: every waiter has its own task, and
a task that can go on is found.
-/

namespace AisMixer.Library.Asyncio

/-! ### Waiters -/

lemma findTask_of_mem {ws : List Waiter} (hnodup : (ws.map Waiter.task).Nodup) {w : Waiter} (hw : w ∈ ws) :
    findTask w.task ws = some w := by
  induction ws with
  | nil => cases hw
  | cons v vs ih =>
    rw [List.map_cons, List.nodup_cons] at hnodup
    rw [findTask, List.find?_cons]
    rcases List.mem_cons.mp hw with rfl | hw
    · simp
    · have hne : v.task ≠ w.task := by
        intro heq
        apply hnodup.1
        rw [heq]
        exact List.mem_map_of_mem hw
      have hbeq : (v.task == w.task) = false := by simpa using hne
      rw [hbeq]
      exact ih hnodup.2 hw

lemma map_removeTask (task : Nat) (ws : List Waiter) :
    (removeTask task ws).map Waiter.task = (ws.map Waiter.task).erase task := by
  induction ws with
  | nil => rfl
  | cons w ws ih =>
    rw [removeTask, List.eraseP_cons, List.map_cons, List.erase_cons]
    cases htask : w.task == task with
    | true => rfl
    | false =>
      rw [removeTask] at ih
      simp only [cond_false, List.map_cons, ih]
      rfl

namespace BoundedSemaphore

/-- The tasks that wait in `acquire`. -/
def tasks (s : BoundedSemaphore) : List Nat := s.waiters.map Waiter.task

/-- Nobody was cancelled, and nobody waits twice. -/
structure Calm (s : BoundedSemaphore) : Prop where
  futures : ∀ w ∈ s.waiters, w.future ≠ .cancelled ∧ w.mustCancel = false
  nodup : s.tasks.Nodup

/-- Somebody waits without a permit. -/
def Awaits (s : BoundedSemaphore) : Prop := ∃ w ∈ s.waiters, w.future = .pending

/-- Somebody has a permit and has not gone on yet. -/
def Grants (s : BoundedSemaphore) : Prop := ∃ w ∈ s.waiters, w.future = .done

lemma wakeFirst_some {ws woken : List Waiter} (h : wakeFirst ws = some woken) :
    woken.map Waiter.task = ws.map Waiter.task ∧ (∃ w ∈ woken, w.future = .done) ∧
      ∀ w ∈ woken, w ∈ ws ∨ w.future = .done ∧ ∃ v ∈ ws, w.mustCancel = v.mustCancel := by
  induction ws generalizing woken with
  | nil => cases h
  | cons v vs ih =>
    rw [wakeFirst] at h
    split at h
    · obtain rfl := Option.some.inj h
      refine ⟨rfl, ⟨_, List.mem_cons_self, rfl⟩, ?_⟩
      intro w hw
      rcases List.mem_cons.mp hw with rfl | hw
      · exact .inr ⟨rfl, v, List.mem_cons_self, rfl⟩
      · exact .inl (List.mem_cons_of_mem _ hw)
    · obtain ⟨rest, hrest, rfl⟩ := Option.map_eq_some_iff.mp h
      obtain ⟨htasks, ⟨u, hu, hdone⟩, hfrom⟩ := ih hrest
      refine ⟨by rw [List.map_cons, List.map_cons, htasks], ⟨u, List.mem_cons_of_mem _ hu, hdone⟩, ?_⟩
      intro w hw
      rcases List.mem_cons.mp hw with rfl | hw
      · exact .inl List.mem_cons_self
      · rcases hfrom w hw with hin | ⟨hdone, x, hx, hmust⟩
        · exact .inl (List.mem_cons_of_mem _ hin)
        · exact .inr ⟨hdone, x, List.mem_cons_of_mem _ hx, hmust⟩

lemma wakeFirst_none {ws : List Waiter} (h : wakeFirst ws = none) : ∀ w ∈ ws, w.future ≠ .pending := by
  induction ws with
  | nil => simp
  | cons v vs ih =>
    rw [wakeFirst] at h
    split at h
    · cases h
    · next hpending =>
      intro w hw
      rcases List.mem_cons.mp hw with rfl | hw
      · exact hpending
      · exact ih (Option.map_eq_none_iff.mp h) w hw

/-- What waking somebody changes. -/
structure Wakes (s s' : BoundedSemaphore) : Prop where
  tasks : s'.tasks = s.tasks
  calm : s.Calm → s'.Calm
  awaits : s'.Awaits → s.Awaits
  grants : s.Grants → s'.Grants

lemma Wakes.refl (s : BoundedSemaphore) : Wakes s s := ⟨rfl, id, id, id⟩

lemma Wakes.trans {s s' s'' : BoundedSemaphore} (h : Wakes s s') (h' : Wakes s' s'') : Wakes s s'' where
  tasks := h'.tasks.trans h.tasks
  calm := fun hcalm => h'.calm (h.calm hcalm)
  awaits := fun hawaits => h.awaits (h'.awaits hawaits)
  grants := fun hgrants => h'.grants (h.grants hgrants)

/-- After a wake-up nobody waits for a permit, or somebody has one. -/
lemma wakeUpNext_wakes (s : BoundedSemaphore) :
    Wakes s s.wakeUpNext ∧ (s.wakeUpNext.Awaits → s.wakeUpNext.Grants) := by
  unfold wakeUpNext
  split
  · next waiters hwake =>
    obtain ⟨htasks, hgrants, hfrom⟩ := wakeFirst_some hwake
    refine ⟨⟨htasks, ?_, ?_, fun _ => hgrants⟩, fun _ => hgrants⟩
    · intro hcalm
      constructor
      · intro w hw
        rcases hfrom w hw with hin | ⟨hdone, v, hv, hmust⟩
        · exact hcalm.futures w hin
        · refine ⟨by rw [hdone]; simp, ?_⟩
          rw [hmust]
          exact (hcalm.futures v hv).2
      · have hnodup := hcalm.nodup
        rwa [BoundedSemaphore.tasks, ← htasks] at hnodup
    · rintro ⟨w, hw, hpending⟩
      rcases hfrom w hw with hin | ⟨hdone, -⟩
      · exact ⟨w, hin, hpending⟩
      · rw [hdone] at hpending
        cases hpending
  · next hwake =>
    refine ⟨.refl s, ?_⟩
    rintro ⟨w, hw, hpending⟩
    exact absurd hpending (wakeFirst_none hwake w hw)

lemma wakeWhileFree_wakes (wakes : Nat) (s : BoundedSemaphore) : Wakes s (wakeWhileFree wakes s) := by
  induction wakes generalizing s with
  | zero => exact .refl s
  | succ wakes ih =>
    rw [wakeWhileFree]
    split
    · exact (wakeUpNext_wakes s).1.trans (ih s.wakeUpNext)
    · exact .refl s

lemma release_wakes {s s' : BoundedSemaphore} (h : s.release = some s') :
    Wakes s s' ∧ (s'.Awaits → s'.Grants) := by
  unfold release at h
  split at h
  · cases h
  · obtain rfl := Option.some.inj h
    obtain ⟨hwakes, hgrants⟩ := wakeUpNext_wakes { s with value := s.value + 1 }
    have hraised : Wakes s { s with value := s.value + 1 } :=
      ⟨rfl, fun hcalm => ⟨hcalm.futures, hcalm.nodup⟩, id, id⟩
    exact ⟨hraised.trans hwakes, hgrants⟩

/-- A task that waits from now on, and why. -/
lemma acquire_waits {s s' : BoundedSemaphore} {task : Nat} (hcalm : s.Calm) (htask : task ∉ s.tasks)
    (h : s.acquire task = (s', false)) :
    s'.Calm ∧ s'.tasks = s.tasks ++ [task] ∧ s'.value = s.value ∧
      (s.value = 0 ∨ s.Awaits ∨ s.Grants) ∧ (s.Grants → s'.Grants) := by
  unfold acquire at h
  cases hlocked : s.locked with
  | false => simp [hlocked] at h
  | true =>
    simp only [hlocked, Bool.not_true, Bool.false_eq_true, if_false, Prod.mk.injEq, and_true] at h
    subst h
    have htasks : (s.waiters ++ [Waiter.mk task .pending false]).map Waiter.task = s.tasks ++ [task] := by
      rw [List.map_append]
      rfl
    refine ⟨⟨?_, ?_⟩, htasks, rfl, ?_, ?_⟩
    · intro w hw
      rcases List.mem_append.mp hw with hw | hw
      · exact hcalm.futures w hw
      · rw [List.mem_singleton] at hw
        simp [hw]
    · rw [BoundedSemaphore.tasks, htasks, List.nodup_append]
      refine ⟨hcalm.nodup, List.nodup_singleton _, ?_⟩
      intro other hother last hlast heq
      rw [List.mem_singleton] at hlast
      rw [heq, hlast] at hother
      exact htask hother
    · rw [locked, Bool.or_eq_true, beq_iff_eq, List.any_eq_true] at hlocked
      rcases hlocked with hzero | ⟨w, hw, hlive⟩
      · exact .inl hzero
      · right
        cases hfuture : w.future with
        | pending => exact .inl ⟨w, hw, hfuture⟩
        | done => exact .inr ⟨w, hw, hfuture⟩
        | cancelled => exact absurd hfuture (hcalm.futures w hw).1
    · rintro ⟨w, hw, hdone⟩
      exact ⟨w, List.mem_append_left _ hw, hdone⟩

lemma acquire_takes {s s' : BoundedSemaphore} {task : Nat} (h : s.acquire task = (s', true)) :
    s'.waiters = s.waiters := by
  unfold acquire at h
  cases hlocked : s.locked with
  | false =>
    simp only [hlocked, Bool.not_false, if_true, Prod.mk.injEq, and_true] at h
    rw [← h]
  | true => simp [hlocked] at h

lemma Calm.of_waiters {s s' : BoundedSemaphore} (h : s.Calm) (hwaiters : s'.waiters = s.waiters) :
    s'.Calm ∧ s'.tasks = s.tasks := by
  have htasks : s'.tasks = s.tasks := by rw [BoundedSemaphore.tasks, hwaiters, BoundedSemaphore.tasks]
  refine ⟨⟨?_, ?_⟩, htasks⟩
  · rw [hwaiters]
    exact h.futures
  · rw [htasks]
    exact h.nodup

/-- A task with a permit can go on. -/
lemma resume_granted {s : BoundedSemaphore} (hcalm : s.Calm) {w : Waiter} (hw : w ∈ s.waiters)
    (hdone : w.future = .done) (wakes : Nat) :
    s.resume w.task wakes =
      some (({ s with waiters := removeTask w.task s.waiters }).wakeWhileFree wakes, true) := by
  have hfind := findTask_of_mem hcalm.nodup hw
  have hmust := (hcalm.futures w hw).2
  unfold resume
  rw [hfind, Option.bind_some]
  simp only [hdone, hmust]

/-- A task that goes on has its permit and waits no more. -/
lemma resume_calm {s s' : BoundedSemaphore} {task wakes : Nat} {acquired : Bool} (hcalm : s.Calm)
    (h : s.resume task wakes = some (s', acquired)) :
    acquired = true ∧ s'.tasks = s.tasks.erase task ∧ s'.Calm := by
  obtain ⟨w, hfind, -⟩ := Option.bind_eq_some_iff.mp h
  have hw : w ∈ s.waiters := List.mem_of_find?_eq_some hfind
  have htask : w.task = task := by simpa using List.find?_some hfind
  subst htask
  have hrest : Calm { s with waiters := removeTask w.task s.waiters } := by
    constructor
    · intro v hv
      exact hcalm.futures v (List.mem_of_mem_eraseP hv)
    · rw [BoundedSemaphore.tasks, map_removeTask]
      exact hcalm.nodup.erase _
  cases hfuture : w.future with
  | pending =>
    unfold resume at h
    rw [hfind, Option.bind_some] at h
    simp [hfuture] at h
  | cancelled => exact absurd hfuture (hcalm.futures w hw).1
  | done =>
    rw [resume_granted hcalm hw hfuture wakes] at h
    obtain ⟨rfl, rfl⟩ := Prod.mk.inj (Option.some.inj h)
    have hwakes := wakeWhileFree_wakes wakes { s with waiters := removeTask w.task s.waiters }
    refine ⟨rfl, ?_, hwakes.calm hrest⟩
    rw [hwakes.tasks, BoundedSemaphore.tasks, map_removeTask]
    rfl

end BoundedSemaphore

/-! ### A queue with one consumer -/

namespace Queue

variable {α : Type} {q q' : Queue α} {task : Nat}

/-- Nobody waits in `get`. -/
structure Idle (q : Queue α) : Prop where
  waiting : q.waiting = []
  getters : q.getters = []

/-- The consumer waits; it was woken if there is an item. -/
inductive Parked (task : Nat) (q : Queue α) : Prop
  | asleep (waiting : q.waiting = [⟨task, .pending, false⟩]) (getters : q.getters = [task]) (items : q.items = [])
  | woken (waiting : q.waiting = [⟨task, .done, false⟩]) (getters : q.getters = []) (items : q.items ≠ [])

lemma putNowait_items {item : α} (hput : q.putNowait item = some q') : q'.items = q.items ++ [item] := by
  unfold putNowait at hput
  split at hput
  · cases hput
  · obtain rfl := Option.some.inj hput
    rw [wakeupNext_items]

lemma putNowait_idle (h : q.Idle) {item : α} (hput : q.putNowait item = some q') : q'.Idle := by
  unfold putNowait at hput
  split at hput
  · cases hput
  · obtain rfl := Option.some.inj hput
    unfold wakeupNext
    simp only [h.getters, List.dropWhile_nil]
    exact ⟨h.waiting, rfl⟩

lemma putNowait_parked (h : q.Parked task) {item : α} (hput : q.putNowait item = some q') : q'.Parked task := by
  unfold putNowait at hput
  split at hput
  · cases hput
  · obtain rfl := Option.some.inj hput
    cases h with
    | asleep hwaiting hgetters hitems =>
      have hwoken : ({ q with items := q.items ++ [item] } : Queue α).wakeupNext =
          { q with items := q.items ++ [item], getters := [], waiting := [⟨task, .done, false⟩] } := by
        unfold wakeupNext
        simp [hgetters, hwaiting, findTask, finishFuture]
      rw [hwoken]
      exact .woken rfl rfl (by simp)
    | woken hwaiting hgetters hitems =>
      unfold wakeupNext
      simp only [hgetters, List.dropWhile_nil]
      exact .woken hwaiting rfl (by simp)

lemma takeOrWait_idle (h : q.Idle) (task : Nat) :
    (q.items = [] ∧ (q.takeOrWait task).1.Parked task ∧ (q.takeOrWait task).2 = .waiting) ∨
      ∃ item, (q.takeOrWait task).1.Idle ∧ (q.takeOrWait task).2 = .item item := by
  unfold takeOrWait
  split
  · next item items hitems => exact .inr ⟨item, ⟨h.waiting, h.getters⟩, rfl⟩
  · next hitems =>
    refine .inl ⟨hitems, .asleep ?_ ?_ hitems, rfl⟩
    · simp [h.waiting]
    · simp [h.getters]

/-- A consumer that waits goes on with an item or not at all. -/
lemma resume_parked (h : q.Parked task) :
    (q.items = [] ∧ q.resume task = none) ∨
      ∃ item q', q.resume task = some (q', .item item) ∧ q'.Idle := by
  cases h with
  | asleep hwaiting hgetters hitems =>
    left
    refine ⟨hitems, ?_⟩
    unfold resume
    simp [hwaiting, findTask]
  | woken hwaiting hgetters hitems =>
    right
    obtain ⟨item, rest, hcons⟩ := List.exists_cons_of_ne_nil hitems
    refine ⟨item, { q with waiting := [], items := rest }, ?_, ⟨rfl, hgetters⟩⟩
    unfold resume
    simp [hwaiting, findTask, removeTask, takeOrWait, hcons]

end Queue

end AisMixer.Library.Asyncio

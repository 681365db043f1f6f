import Mathlib.Data.List.Basic
import Mathlib.Data.PNat.Basic

/-!
# Semaphores and queues of an event loop

`asyncio.BoundedSemaphore` and `asyncio.Queue` between the points where tasks wait. A waiting task
owns a future; it goes on when the schedule resumes it after the future is done, and it may be
cancelled before or after that. The tasks are numbers.
-/

namespace AisMixer.Library.Asyncio

inductive FutureState where
  | pending
  | done
  | cancelled
  deriving DecidableEq

/-- A waiting task with its future; `mustCancel` is a cancellation that came after the future was done. -/
structure Waiter where
  task : Nat
  future : FutureState
  mustCancel : Bool
  deriving DecidableEq

/-- `task.cancel()` of a waiting task. -/
def Waiter.cancel (w : Waiter) : Waiter :=
  match w.future with
  | .pending => { w with future := .cancelled }
  | _ => { w with mustCancel := true }

def cancelTask (task : Nat) : List Waiter → List Waiter :=
  List.map (fun w => if w.task = task then w.cancel else w)

def findTask (task : Nat) (ws : List Waiter) : Option Waiter := ws.find? (fun w => w.task == task)

def removeTask (task : Nat) (ws : List Waiter) : List Waiter := ws.eraseP (fun w => w.task == task)

/-! ### The semaphore -/

structure BoundedSemaphore where
  bound : ℕ+
  value : Int
  waiters : List Waiter
  deriving DecidableEq

namespace BoundedSemaphore

def new (bound : ℕ+) : BoundedSemaphore := ⟨bound, bound, []⟩

def locked (s : BoundedSemaphore) : Bool :=
  s.value == 0 || s.waiters.any (fun w => w.future != .cancelled)

/-- The result is set on the first future that is not done; `none` if there is none. -/
def wakeFirst : List Waiter → Option (List Waiter)
  | [] => none
  | w :: ws =>
    if w.future = .pending then some ({ w with future := .done } :: ws)
    else (wakeFirst ws).map (w :: ·)

/-- `_wake_up_next`. -/
def wakeUpNext (s : BoundedSemaphore) : BoundedSemaphore :=
  match wakeFirst s.waiters with
  | some waiters => { s with value := s.value - 1, waiters := waiters }
  | none => s

/-- Waiters are woken while permits are free, at most a number of them. -/
def wakeWhileFree : Nat → BoundedSemaphore → BoundedSemaphore
  | 0, s => s
  | n + 1, s => if 0 < s.value then wakeWhileFree n s.wakeUpNext else s

/-- `release`; `none` is its `ValueError`. -/
def release (s : BoundedSemaphore) : Option BoundedSemaphore :=
  if (s.bound : Int) ≤ s.value then none else some { s with value := s.value + 1 }.wakeUpNext

/-- `acquire` up to its first wait: `true` if it does not wait. -/
def acquire (s : BoundedSemaphore) (task : Nat) : BoundedSemaphore × Bool :=
  if !s.locked then ({ s with value := s.value - 1 }, true)
  else ({ s with waiters := s.waiters ++ [⟨task, .pending, false⟩] }, false)

/-- `acquire` after its wait: `true` if it returns, `false` if it raises `CancelledError`. The releases
of the language differ in how many others are then woken, so the schedule says it. -/
def resume (s : BoundedSemaphore) (task wakes : Nat) : Option (BoundedSemaphore × Bool) :=
  (findTask task s.waiters).bind (fun w =>
    let rest := { s with waiters := removeTask task s.waiters }
    match w.future, w.mustCancel with
    | .pending, _ => none
    | .cancelled, _ => some (rest.wakeWhileFree wakes, false)
    | .done, true => some ({ rest with value := rest.value + 1 }.wakeWhileFree wakes, false)
    | .done, false => some (rest.wakeWhileFree wakes, true))

def cancel (s : BoundedSemaphore) (task : Nat) : BoundedSemaphore :=
  { s with waiters := cancelTask task s.waiters }

/-- The permits that are held for waiters that have not gone on yet. -/
def granted (s : BoundedSemaphore) : Nat := s.waiters.countP (fun w => w.future == .done)

/-- The permits that nobody has taken away: the free ones and those that wait for their task. -/
def permits (s : BoundedSemaphore) : Int := s.value + s.granted

end BoundedSemaphore

/-! ### The queue -/

structure Queue (α : Type) where
  maxsize : ℕ+
  items : List α
  /-- The tasks whose futures are in `_getters`. -/
  getters : List Nat
  /-- The tasks that wait in `get`. -/
  waiting : List Waiter
  deriving DecidableEq

namespace Queue

variable {α : Type}

def new (maxsize : ℕ+) : Queue α := ⟨maxsize, [], [], []⟩

def full (q : Queue α) : Bool := decide ((q.maxsize : Nat) ≤ q.items.length)

def finishFuture (task : Nat) : List Waiter → List Waiter :=
  List.map (fun w => if w.task = task ∧ w.future = .pending then { w with future := .done } else w)

/-- `_wakeup_next(self._getters)`: futures are popped up to the first that is not done. -/
def wakeupNext (q : Queue α) : Queue α :=
  match q.getters.dropWhile (fun task => !(findTask task q.waiting).any (fun w => w.future == .pending)) with
  | [] => { q with getters := [] }
  | task :: getters => { q with getters := getters, waiting := finishFuture task q.waiting }

/-- `put_nowait`; `none` is `QueueFull`. -/
def putNowait (q : Queue α) (item : α) : Option (Queue α) :=
  if q.full then none else some { q with items := q.items ++ [item] }.wakeupNext

inductive GetResult (α : Type) where
  | item (item : α)
  | waiting
  | cancelledError
  deriving DecidableEq

/-- The loop of `get`: an item if there is one, else a new future. -/
def takeOrWait (q : Queue α) (task : Nat) : Queue α × GetResult α :=
  match q.items with
  | item :: items => ({ q with items := items }, .item item)
  | [] =>
    ({ q with getters := q.getters ++ [task], waiting := q.waiting ++ [⟨task, .pending, false⟩] }, .waiting)

/-- `get` after a wait. -/
def resume (q : Queue α) (task : Nat) : Option (Queue α × GetResult α) :=
  (findTask task q.waiting).bind (fun w =>
    let rest := { q with waiting := removeTask task q.waiting }
    match w.future, w.mustCancel with
    | .pending, _ => none
    | .cancelled, _ => some ({ rest with getters := rest.getters.erase task }, .cancelledError)
    | .done, true =>
      let rest := { rest with getters := rest.getters.erase task }
      some (if rest.items.isEmpty then rest else rest.wakeupNext, .cancelledError)
    | .done, false => some (rest.takeOrWait task))

def cancel (q : Queue α) (task : Nat) : Queue α := { q with waiting := cancelTask task q.waiting }

end Queue

/-! ### What the semaphore keeps -/

namespace BoundedSemaphore

lemma countP_removeTask {ws : List Waiter} {task : Nat} {w : Waiter} (h : findTask task ws = some w)
    (q : Waiter → Bool) : ws.countP q = (removeTask task ws).countP q + if q w then 1 else 0 := by
  induction ws with
  | nil => cases h
  | cons v vs ih =>
    rw [findTask, List.find?_cons] at h
    rw [removeTask, List.eraseP_cons]
    cases htask : v.task == task with
    | true =>
      rw [htask] at h
      obtain rfl := Option.some.inj h
      rw [List.countP_cons]
      rfl
    | false =>
      rw [htask] at h
      have hrest := ih h
      rw [removeTask] at hrest
      simp only [List.countP_cons, cond_false, hrest]
      omega

lemma length_removeTask {ws : List Waiter} {task : Nat} {w : Waiter} (h : findTask task ws = some w) :
    ws.length = (removeTask task ws).length + 1 := by
  have hcount := countP_removeTask h (fun _ => true)
  simpa using hcount

lemma wakeFirst_spec {ws woken : List Waiter} (h : wakeFirst ws = some woken) :
    woken.countP (fun w => w.future == .done) = ws.countP (fun w => w.future == .done) + 1 ∧
      woken.length = ws.length := by
  induction ws generalizing woken with
  | nil => cases h
  | cons w ws ih =>
    rw [wakeFirst] at h
    split at h
    · next hpending =>
      obtain rfl := Option.some.inj h
      simp [hpending]
    · obtain ⟨rest, hrest, rfl⟩ := Option.map_eq_some_iff.mp h
      obtain ⟨hcount, hlength⟩ := ih hrest
      constructor
      · rw [List.countP_cons, List.countP_cons, hcount]
        omega
      · rw [List.length_cons, List.length_cons, hlength]

lemma wakeUpNext_permits (s : BoundedSemaphore) : s.wakeUpNext.permits = s.permits := by
  unfold wakeUpNext
  split
  · next waiters hwake =>
    have hcount := (wakeFirst_spec hwake).1
    simp only [permits, granted, hcount]
    omega
  · rfl

lemma wakeUpNext_length (s : BoundedSemaphore) : s.wakeUpNext.waiters.length = s.waiters.length := by
  unfold wakeUpNext
  split
  · next waiters hwake => exact (wakeFirst_spec hwake).2
  · rfl

lemma wakeUpNext_bound (s : BoundedSemaphore) : s.wakeUpNext.bound = s.bound := by
  unfold wakeUpNext
  split <;> rfl

lemma wakeUpNext_nonneg {s : BoundedSemaphore} (h : 0 < s.value) : 0 ≤ s.wakeUpNext.value := by
  unfold wakeUpNext
  split
  · simp only
    omega
  · exact h.le

/-- What waking others leaves as it is. -/
structure Woken (s s' : BoundedSemaphore) : Prop where
  permits : s'.permits = s.permits
  length : s'.waiters.length = s.waiters.length
  bound : s'.bound = s.bound
  nonneg : 0 ≤ s.value → 0 ≤ s'.value

lemma wakeWhileFree_woken (wakes : Nat) (s : BoundedSemaphore) : Woken s (wakeWhileFree wakes s) := by
  induction wakes generalizing s with
  | zero => exact ⟨rfl, rfl, rfl, id⟩
  | succ wakes ih =>
    rw [wakeWhileFree]
    split
    · next hfree =>
      have hrest := ih s.wakeUpNext
      constructor
      · exact hrest.permits.trans s.wakeUpNext_permits
      · exact hrest.length.trans s.wakeUpNext_length
      · exact hrest.bound.trans s.wakeUpNext_bound
      · exact fun _ => hrest.nonneg (wakeUpNext_nonneg hfree)
    · exact ⟨rfl, rfl, rfl, id⟩

/-- A permit that is given back below the bound. -/
lemma release_spec {s : BoundedSemaphore} (h : s.value < s.bound) (hnonneg : 0 ≤ s.value) :
    ∃ s', s.release = some s' ∧ s'.permits = s.permits + 1 ∧ s'.waiters.length = s.waiters.length ∧
      s'.bound = s.bound ∧ 0 ≤ s'.value := by
  refine ⟨{ s with value := s.value + 1 }.wakeUpNext, ?_, ?_, ?_, ?_, ?_⟩
  · rw [release, if_neg (by omega)]
  · rw [wakeUpNext_permits]
    simp only [permits, granted]
    omega
  · exact wakeUpNext_length _
  · exact wakeUpNext_bound _
  · apply wakeUpNext_nonneg
    simp only
    omega

/-- `acquire` takes a free permit or waits. -/
lemma acquire_spec {s : BoundedSemaphore} (hnonneg : 0 ≤ s.value) (task : Nat) :
    (∃ s', s.acquire task = (s', true) ∧ s.locked = false ∧ s'.permits + 1 = s.permits ∧
      s'.waiters.length = s.waiters.length ∧ s'.bound = s.bound ∧ 0 ≤ s'.value) ∨
    (∃ s', s.acquire task = (s', false) ∧ s.locked = true ∧ s'.permits = s.permits ∧
      s'.waiters.length = s.waiters.length + 1 ∧ s'.bound = s.bound ∧ 0 ≤ s'.value) := by
  unfold acquire
  cases hlocked : s.locked with
  | false =>
    left
    have hne : s.value ≠ 0 := by
      intro hzero
      rw [locked, hzero] at hlocked
      simp at hlocked
    refine ⟨_, rfl, rfl, ?_, rfl, rfl, ?_⟩
    · simp only [permits, granted]
      omega
    · simp only
      omega
  | true =>
    right
    refine ⟨_, rfl, rfl, ?_, ?_, rfl, hnonneg⟩
    · simp [permits, granted]
    · simp

/-- A resumed waiter takes the permit that was held for it, or leaves and gives it back. -/
lemma resume_spec {s s' : BoundedSemaphore} {task wakes : Nat} {acquired : Bool}
    (hnonneg : 0 ≤ s.value) (h : s.resume task wakes = some (s', acquired)) :
    s'.permits + (if acquired then 1 else 0) = s.permits ∧ s'.waiters.length + 1 = s.waiters.length ∧
      s'.bound = s.bound ∧ 0 ≤ s'.value := by
  obtain ⟨w, hfind, h⟩ := Option.bind_eq_some_iff.mp h
  have hcount := countP_removeTask hfind (fun w => w.future == .done)
  have hlength := length_removeTask hfind
  cases hfuture : w.future with
  | pending => simp [hfuture] at h
  | cancelled =>
    simp only [hfuture, Option.some.injEq, Prod.mk.injEq] at h
    obtain ⟨rfl, rfl⟩ := h
    have hwoken := wakeWhileFree_woken wakes { s with waiters := removeTask task s.waiters }
    refine ⟨?_, ?_, hwoken.bound, hwoken.nonneg hnonneg⟩
    · rw [hwoken.permits]
      simp [permits, granted, hcount, hfuture]
    · rw [hwoken.length]
      exact hlength.symm
  | done =>
    cases hmust : w.mustCancel with
    | true =>
      simp only [hfuture, hmust, Option.some.injEq, Prod.mk.injEq] at h
      obtain ⟨rfl, rfl⟩ := h
      have hwoken := wakeWhileFree_woken wakes
        { s with value := s.value + 1, waiters := removeTask task s.waiters }
      refine ⟨?_, ?_, hwoken.bound, hwoken.nonneg (by simp only; omega)⟩
      · rw [hwoken.permits]
        simp [permits, granted, hcount, hfuture]
        omega
      · rw [hwoken.length]
        exact hlength.symm
    | false =>
      simp only [hfuture, hmust, Option.some.injEq, Prod.mk.injEq] at h
      obtain ⟨rfl, rfl⟩ := h
      have hwoken := wakeWhileFree_woken wakes { s with waiters := removeTask task s.waiters }
      refine ⟨?_, ?_, hwoken.bound, hwoken.nonneg hnonneg⟩
      · rw [hwoken.permits]
        simp [permits, granted, hcount, hfuture]
        omega
      · rw [hwoken.length]
        exact hlength.symm

lemma cancelTask_countP (task : Nat) (ws : List Waiter) :
    (cancelTask task ws).countP (fun w => w.future == .done) = ws.countP (fun w => w.future == .done) := by
  induction ws with
  | nil => rfl
  | cons w ws ih =>
    have hsame : ((if w.task = task then w.cancel else w).future == FutureState.done) =
        (w.future == .done) := by
      split
      · unfold Waiter.cancel
        split
        · next hpending => rw [hpending]; rfl
        · rfl
      · rfl
    rw [cancelTask, List.map_cons, List.countP_cons, List.countP_cons, hsame]
    exact congrArg (· + _) ih

lemma cancel_permits (s : BoundedSemaphore) (task : Nat) : (s.cancel task).permits = s.permits := by
  simp only [permits, granted, cancel, cancelTask_countP]

lemma cancel_length (s : BoundedSemaphore) (task : Nat) :
    (s.cancel task).waiters.length = s.waiters.length := by
  simp [cancel, cancelTask]

end BoundedSemaphore

/-! ### What the queue keeps -/

namespace Queue

variable {α : Type}

@[simp] lemma wakeupNext_items (q : Queue α) : q.wakeupNext.items = q.items := by
  unfold wakeupNext
  split <;> rfl

@[simp] lemma wakeupNext_maxsize (q : Queue α) : q.wakeupNext.maxsize = q.maxsize := by
  unfold wakeupNext
  split <;> rfl

lemma putNowait_spec {q : Queue α} (h : q.items.length < q.maxsize) (item : α) :
    ∃ q', q.putNowait item = some q' ∧ q'.items = q.items ++ [item] ∧ q'.maxsize = q.maxsize := by
  have hfull : q.full = false := by
    rw [full, decide_eq_false_iff_not]
    omega
  refine ⟨{ q with items := q.items ++ [item] }.wakeupNext, ?_, ?_, ?_⟩
  · rw [putNowait, hfull]
    rfl
  · rw [wakeupNext_items]
  · rw [wakeupNext_maxsize]

/-- A `get` takes the first item, or it takes none. -/
structure Gets (q q' : Queue α) (result : GetResult α) : Prop where
  maxsize : q'.maxsize = q.maxsize
  items : (∃ item, result = .item item ∧ q.items = item :: q'.items) ∨
    (∀ item, result ≠ .item item) ∧ q'.items = q.items

lemma takeOrWait_gets (q : Queue α) (task : Nat) :
    Gets q (q.takeOrWait task).1 (q.takeOrWait task).2 := by
  unfold takeOrWait
  split
  · next item items hitems => exact ⟨rfl, .inl ⟨item, rfl, hitems⟩⟩
  · next hitems => exact ⟨rfl, .inr ⟨by simp, rfl⟩⟩

lemma resume_gets {q q' : Queue α} {task : Nat} {result : GetResult α}
    (h : q.resume task = some (q', result)) : Gets q q' result := by
  obtain ⟨w, -, h⟩ := Option.bind_eq_some_iff.mp h
  cases hfuture : w.future with
  | pending => simp [hfuture] at h
  | cancelled =>
    simp only [hfuture, Option.some.injEq, Prod.mk.injEq] at h
    obtain ⟨rfl, rfl⟩ := h
    exact ⟨rfl, .inr ⟨by simp, rfl⟩⟩
  | done =>
    cases hmust : w.mustCancel with
    | true =>
      simp only [hfuture, hmust, Option.some.injEq, Prod.mk.injEq] at h
      obtain ⟨rfl, rfl⟩ := h
      constructor
      · split <;> simp
      · right
        refine ⟨by simp, ?_⟩
        split <;> simp
    | false =>
      simp only [hfuture, hmust, Option.some.injEq] at h
      have htake := takeOrWait_gets { q with waiting := removeTask task q.waiting } task
      rw [h] at htake
      exact ⟨htake.maxsize, htake.items⟩

end Queue

end AisMixer.Library.Asyncio

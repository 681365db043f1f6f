import AisMixer.Library.Asyncio
import AisMixer.Runtime.Metrics
import AisMixer.Runtime.WorkItems

/-!
# The processing queue

`_BoundedProcessingQueue` of `aismixer.py` keeps a semaphore of admission permits beside its bounded
queue. Between two waits a task runs alone, so an action is what one task does up to its next wait, and
a schedule is any list of actions.
-/

namespace AisMixer.Runtime

open AisMixer.Library AisMixer.Library.Asyncio

/-! ### Snapshots -/

/-- The counters that `__post_init__` looks at, by name. -/
def counterFields (capacity depth peakDepth enqueued dequeued putWaits currentPutWaiters : Int) :
    List (PyStr × Int) :=
  [(str "capacity", capacity), (str "depth", depth), (str "peak_depth", peakDepth),
    (str "enqueued", enqueued), (str "dequeued", dequeued), (str "put_waits", putWaits),
    (str "current_put_waiters", currentPutWaiters)]

section Checks

variable {name : PyStr} {capacity depth peakDepth enqueued dequeued putWaits currentPutWaiters : Int}

/-- The checks of `__post_init__` behind the signs of the counters. -/
def countersError (capacity depth peakDepth enqueued dequeued putWaits currentPutWaiters : Int) :
    Option PyStr :=
  if capacity < 1 then some (str "capacity must be at least 1.")
  else if capacity < depth then some (str "depth must not exceed capacity.")
  else if peakDepth < depth then some (str "peak_depth must not be below depth.")
  else if capacity < peakDepth then some (str "peak_depth must not exceed capacity.")
  else if enqueued < dequeued then some (str "enqueued must not be below dequeued.")
  else if enqueued - dequeued ≠ depth then some (str "enqueued minus dequeued must equal depth.")
  else if putWaits < currentPutWaiters then
    some (str "put_waits must not be below current_put_waiters.")
  else none

lemma countersError_eq_none_iff :
    countersError capacity depth peakDepth enqueued dequeued putWaits currentPutWaiters = none ↔
      1 ≤ capacity ∧ depth ≤ peakDepth ∧ peakDepth ≤ capacity ∧ dequeued ≤ enqueued ∧
        enqueued - dequeued = depth ∧ currentPutWaiters ≤ putWaits := by
  unfold countersError
  constructor
  · intro h
    split_ifs at h
    omega
  · rintro ⟨hcapacity, hdepth, hpeak, hle, hbalance, hwaits⟩
    rw [if_neg (by omega), if_neg (by omega), if_neg (by omega), if_neg (by omega), if_neg (by omega),
      if_neg (by omega), if_neg (by omega)]

lemma capacity_pos_of_checks
    (h : countersError capacity depth peakDepth enqueued dequeued putWaits currentPutWaiters = none) :
    1 ≤ capacity.toNat := by
  have hchecks := countersError_eq_none_iff.mp h
  omega

lemma depth_le_of_checks
    (h : countersError capacity depth peakDepth enqueued dequeued putWaits currentPutWaiters = none) :
    depth.toNat ≤ peakDepth.toNat := by
  have hchecks := countersError_eq_none_iff.mp h
  omega

lemma peak_le_of_checks
    (h : countersError capacity depth peakDepth enqueued dequeued putWaits currentPutWaiters = none) :
    peakDepth.toNat ≤ capacity.toNat := by
  have hchecks := countersError_eq_none_iff.mp h
  omega

lemma balance_of_checks
    (hsigns : ∀ field ∈ counterFields capacity depth peakDepth enqueued dequeued putWaits
      currentPutWaiters, 0 ≤ field.2)
    (h : countersError capacity depth peakDepth enqueued dequeued putWaits currentPutWaiters = none) :
    enqueued.toNat = dequeued.toNat + depth.toNat := by
  have hchecks := countersError_eq_none_iff.mp h
  simp only [counterFields, List.forall_mem_cons] at hsigns
  omega

lemma waiters_le_of_checks
    (h : countersError capacity depth peakDepth enqueued dequeued putWaits currentPutWaiters = none) :
    currentPutWaiters.toNat ≤ putWaits.toNat := by
  have hchecks := countersError_eq_none_iff.mp h
  omega

end Checks

/-- The constructor `QueueMetricsSnapshot(…)` with its `__post_init__`. -/
def makeQueueMetricsSnapshot (name : PyStr)
    (capacity depth peakDepth enqueued dequeued putWaits currentPutWaiters : Int) :
    Except PyException QueueMetricsSnapshot :=
  let fields := counterFields capacity depth peakDepth enqueued dequeued putWaits currentPutWaiters
  if hname : name = [] then .error (.valueError (str "name must be a non-empty string."))
  else if hsigns : ∀ field ∈ fields, 0 ≤ field.2 then
    match h : countersError capacity depth peakDepth enqueued dequeued putWaits currentPutWaiters with
    | some message => .error (.valueError message)
    | none => .ok
      { name := name
        capacity := capacity.toNat
        depth := depth.toNat
        peakDepth := peakDepth.toNat
        enqueued := enqueued.toNat
        dequeued := dequeued.toNat
        putWaits := putWaits.toNat
        currentPutWaiters := currentPutWaiters.toNat
        name_nonempty := hname
        capacity_pos := capacity_pos_of_checks h
        depth_le_peak := depth_le_of_checks h
        peak_le_capacity := peak_le_of_checks h
        balance := balance_of_checks hsigns h
        waiters_le := waiters_le_of_checks h }
  else
    .error (.valueError (((fields.find? (fun field => decide (field.2 < 0))).elim [] Prod.fst) ++
      str " must be non-negative."))

/-! ### The queue -/

/-- What a `work_item_factory` does. -/
inductive FactoryResult where
  | item (item : ProcessingWorkItem)
  | notAWorkItem
  | raises
  deriving DecidableEq

inductive QueueError where
  | queueFull
  | releasedTooManyTimes
  | factory
  | typeError
  | cancelled
  deriving DecidableEq

/-- What a task does at the end of an action. -/
inductive QueueOutcome where
  | waits
  | admitted (item : ProcessingWorkItem)
  | got (item : ProcessingWorkItem)
  | raised (error : QueueError)
  deriving DecidableEq

structure BoundedProcessingQueue where
  slots : BoundedSemaphore
  workQueue : Asyncio.Queue ProcessingWorkItem
  peakDepth : Nat
  enqueued : Nat
  dequeued : Nat
  putWaits : Nat
  currentPutWaiters : Int

namespace BoundedProcessingQueue

def new (maxsize : ℕ+) : BoundedProcessingQueue := ⟨.new maxsize, .new maxsize, 0, 0, 0, 0, 0⟩

def qsize (q : BoundedProcessingQueue) : Nat := q.workQueue.items.length

/-- The permit is released and the exception raised again. -/
def releaseAndRaise (q : BoundedProcessingQueue) (error : QueueError) :
    BoundedProcessingQueue × QueueOutcome :=
  match q.slots.release with
  | some slots => ({ q with slots := slots }, .raised error)
  | none => (q, .raised .releasedTooManyTimes)

/-- `admit` with its permit. -/
def bindAndEnqueue (q : BoundedProcessingQueue) (factory : FactoryResult) :
    BoundedProcessingQueue × QueueOutcome :=
  match factory with
  | .raises => q.releaseAndRaise .factory
  | .notAWorkItem => q.releaseAndRaise .typeError
  | .item item =>
    match q.workQueue.putNowait item with
    | none => q.releaseAndRaise .queueFull
    | some workQueue =>
      ({ q with
        workQueue := workQueue
        enqueued := q.enqueued + 1
        peakDepth := max q.peakDepth workQueue.items.length }, .admitted item)

/-- `admit` up to its first wait. -/
def beginAdmit (q : BoundedProcessingQueue) (task : Nat) (factory : FactoryResult) :
    BoundedProcessingQueue × QueueOutcome :=
  let waitedForCapacity := q.slots.locked
  let q :=
    if waitedForCapacity then
      { q with putWaits := q.putWaits + 1, currentPutWaiters := q.currentPutWaiters + 1 }
    else q
  let (slots, acquired) := q.slots.acquire task
  let q := { q with slots := slots }
  if acquired then
    let q := if waitedForCapacity then { q with currentPutWaiters := q.currentPutWaiters - 1 } else q
    q.bindAndEnqueue factory
  else (q, .waits)

/-- `admit` after its wait; it has waited for capacity. -/
def resumeAdmit (q : BoundedProcessingQueue) (task wakes : Nat) (factory : FactoryResult) :
    Option (BoundedProcessingQueue × QueueOutcome) :=
  (q.slots.resume task wakes).map (fun (slots, acquired) =>
    let q := { q with slots := slots, currentPutWaiters := q.currentPutWaiters - 1 }
    if acquired then q.bindAndEnqueue factory else (q, .raised .cancelled))

/-- `get` with what the queue returned. -/
def deliver (q : BoundedProcessingQueue) (workQueue : Asyncio.Queue ProcessingWorkItem) :
    Queue.GetResult ProcessingWorkItem → BoundedProcessingQueue × QueueOutcome
  | .waiting => ({ q with workQueue := workQueue }, .waits)
  | .cancelledError => ({ q with workQueue := workQueue }, .raised .cancelled)
  | .item item =>
    let q := { q with workQueue := workQueue, dequeued := q.dequeued + 1 }
    match q.slots.release with
    | some slots => ({ q with slots := slots }, .got item)
    | none => (q, .raised .releasedTooManyTimes)

def get (q : BoundedProcessingQueue) (task : Nat) : BoundedProcessingQueue × QueueOutcome :=
  let (workQueue, result) := q.workQueue.takeOrWait task
  q.deliver workQueue result

def resumeGet (q : BoundedProcessingQueue) (task : Nat) :
    Option (BoundedProcessingQueue × QueueOutcome) :=
  (q.workQueue.resume task).map (fun (workQueue, result) => q.deliver workQueue result)

def metricsSnapshot (q : BoundedProcessingQueue) : Except PyException QueueMetricsSnapshot :=
  makeQueueMetricsSnapshot (str "processing") (q.workQueue.maxsize : Nat) q.qsize q.peakDepth q.enqueued
    q.dequeued q.putWaits q.currentPutWaiters

end BoundedProcessingQueue

/-! ### Schedules -/

/-- What a schedule lets happen next. A new task runs up to its first wait. -/
inductive QueueAction where
  | beginAdmit (factory : FactoryResult)
  | resumeAdmit (task wakes : Nat) (factory : FactoryResult)
  | cancelAdmit (task : Nat)
  | get
  | resumeGet (task : Nat)
  | cancelGet (task : Nat)
  deriving DecidableEq

/-- The queue with the number of the next task. -/
structure QueueSystem where
  queue : BoundedProcessingQueue
  nextTask : Nat

namespace QueueSystem

def new (maxsize : ℕ+) : QueueSystem := ⟨.new maxsize, 0⟩

/-- One action; a task that is not ready to go on does nothing. -/
def step (s : QueueSystem) : QueueAction → QueueSystem × Option QueueOutcome
  | .beginAdmit factory =>
    let (queue, outcome) := s.queue.beginAdmit s.nextTask factory
    (⟨queue, s.nextTask + 1⟩, some outcome)
  | .resumeAdmit task wakes factory =>
    match s.queue.resumeAdmit task wakes factory with
    | some (queue, outcome) => ({ s with queue := queue }, some outcome)
    | none => (s, none)
  | .cancelAdmit task =>
    ({ s with queue := { s.queue with slots := s.queue.slots.cancel task } }, none)
  | .get =>
    let (queue, outcome) := s.queue.get s.nextTask
    (⟨queue, s.nextTask + 1⟩, some outcome)
  | .resumeGet task =>
    match s.queue.resumeGet task with
    | some (queue, outcome) => ({ s with queue := queue }, some outcome)
    | none => (s, none)
  | .cancelGet task =>
    ({ s with queue := { s.queue with workQueue := s.queue.workQueue.cancel task } }, none)

def run (s : QueueSystem) : List QueueAction → QueueSystem × List QueueOutcome
  | [] => (s, [])
  | action :: actions =>
    let (next, outcome) := s.step action
    let (last, outcomes) := next.run actions
    (last, outcome.toList ++ outcomes)

end QueueSystem

/-! ### The accounts of the permits -/

namespace BoundedProcessingQueue

/-- The queue between two waits, or within an action whose task holds permits in its hands. -/
structure Balanced (q : BoundedProcessingQueue) (capacity : ℕ+) (held : Nat) : Prop where
  nonneg : 0 ≤ q.slots.value
  permits : q.slots.permits + q.qsize + held = capacity
  bound : q.slots.bound = capacity
  maxsize : q.workQueue.maxsize = capacity
  waiters : q.currentPutWaiters = q.slots.waiters.length
  waits : q.currentPutWaiters ≤ q.putWaits
  balance : q.enqueued = q.dequeued + q.qsize
  depth_le : q.qsize ≤ q.peakDepth
  peak_le : q.peakDepth ≤ capacity

/-- What an outcome says about the items, and the exceptions that it is not. -/
def Follows (q q' : BoundedProcessingQueue) : QueueOutcome → Prop
  | .waits => q'.workQueue.items = q.workQueue.items
  | .admitted item => q'.workQueue.items = q.workQueue.items ++ [item]
  | .got item => q.workQueue.items = item :: q'.workQueue.items
  | .raised error => q'.workQueue.items = q.workQueue.items ∧ error ≠ .queueFull ∧
      error ≠ .releasedTooManyTimes

def FollowsStep (q q' : BoundedProcessingQueue) : Option QueueOutcome → Prop
  | some outcome => Follows q q' outcome
  | none => q'.workQueue.items = q.workQueue.items

lemma balanced_new (maxsize : ℕ+) : (new maxsize).Balanced maxsize 0 where
  nonneg := by simp [new, BoundedSemaphore.new]
  permits := by simp [new, BoundedSemaphore.new, BoundedSemaphore.permits, BoundedSemaphore.granted, qsize,
    Asyncio.Queue.new]
  bound := rfl
  maxsize := rfl
  waiters := rfl
  waits := le_rfl
  balance := rfl
  depth_le := le_rfl
  peak_le := Nat.zero_le _

section Actions

variable {q : BoundedProcessingQueue} {capacity : ℕ+}

/-- A permit in hand can be released. -/
lemma Balanced.release (h : q.Balanced capacity 1) :
    ∃ slots, q.slots.release = some slots ∧
      ({ q with slots := slots } : BoundedProcessingQueue).Balanced capacity 0 := by
  have hpermits := h.permits
  have hbelow : q.slots.value < q.slots.bound := by
    rw [h.bound]
    simp only [BoundedSemaphore.permits] at hpermits
    omega
  obtain ⟨slots, hrelease, htotal, hlength, hbound, hnonneg⟩ :=
    BoundedSemaphore.release_spec hbelow h.nonneg
  refine ⟨slots, hrelease, ?_⟩
  constructor
  · exact hnonneg
  · simp only [qsize, htotal] at hpermits ⊢
    omega
  · exact hbound.trans h.bound
  · exact h.maxsize
  · simp only [hlength]
    exact h.waiters
  · exact h.waits
  · exact h.balance
  · exact h.depth_le
  · exact h.peak_le

lemma releaseAndRaise_spec (h : q.Balanced capacity 1) {error : QueueError} (hfull : error ≠ .queueFull)
    (hmany : error ≠ .releasedTooManyTimes) :
    (q.releaseAndRaise error).1.Balanced capacity 0 ∧
      Follows q (q.releaseAndRaise error).1 (q.releaseAndRaise error).2 := by
  obtain ⟨slots, hrelease, hbalanced⟩ := h.release
  unfold releaseAndRaise
  rw [hrelease]
  exact ⟨hbalanced, rfl, hfull, hmany⟩

/-- A task with a permit finds room in the queue. -/
lemma bindAndEnqueue_spec (h : q.Balanced capacity 1) (factory : FactoryResult) :
    (q.bindAndEnqueue factory).1.Balanced capacity 0 ∧
      Follows q (q.bindAndEnqueue factory).1 (q.bindAndEnqueue factory).2 := by
  cases factory with
  | raises => exact releaseAndRaise_spec h (by decide) (by decide)
  | notAWorkItem => exact releaseAndRaise_spec h (by decide) (by decide)
  | item item =>
    have hpermits := h.permits
    have hnonneg := h.nonneg
    have hbalance := h.balance
    have hdepth := h.depth_le
    have hpeak := h.peak_le
    have hroom : q.workQueue.items.length < q.workQueue.maxsize := by
      rw [h.maxsize]
      simp only [BoundedSemaphore.permits, qsize] at hpermits
      omega
    obtain ⟨workQueue, hput, hitems, hmaxsize⟩ := Asyncio.Queue.putNowait_spec hroom item
    have hlength : workQueue.items.length = q.workQueue.items.length + 1 := by
      rw [hitems, List.length_append, List.length_singleton]
    simp only [bindAndEnqueue, hput]
    refine ⟨?_, hitems⟩
    simp only [qsize] at hpermits hbalance hdepth
    rw [h.maxsize] at hroom
    constructor
    · exact hnonneg
    · simp only [qsize, hlength]
      omega
    · exact h.bound
    · exact hmaxsize.trans h.maxsize
    · exact h.waiters
    · exact h.waits
    · simp only [qsize, hlength]
      omega
    · exact le_max_right _ _
    · simp only [hlength]
      omega

lemma admit_spec (h : q.Balanced capacity 0) (task : Nat) (factory : FactoryResult) :
    (q.beginAdmit task factory).1.Balanced capacity 0 ∧
      Follows q (q.beginAdmit task factory).1 (q.beginAdmit task factory).2 := by
  have hpermits := h.permits
  have hwaiters := h.waiters
  have hwaits := h.waits
  unfold beginAdmit
  rcases BoundedSemaphore.acquire_spec h.nonneg task with
    ⟨slots, hacquire, hlocked, htotal, hlength, hbound, hnonneg⟩ |
    ⟨slots, hacquire, hlocked, htotal, hlength, hbound, hnonneg⟩
  · simp only [hlocked, Bool.false_eq_true, if_false, hacquire, if_true]
    apply bindAndEnqueue_spec
    constructor
    · exact hnonneg
    · simp only [qsize] at hpermits ⊢
      omega
    · exact hbound.trans h.bound
    · exact h.maxsize
    · simp only [hlength]
      exact hwaiters
    · exact hwaits
    · exact h.balance
    · exact h.depth_le
    · exact h.peak_le
  · simp only [hlocked, if_true, hacquire, Bool.false_eq_true, if_false]
    refine ⟨?_, rfl⟩
    constructor
    · exact hnonneg
    · simp only [qsize, htotal] at hpermits ⊢
      exact hpermits
    · exact hbound.trans h.bound
    · exact h.maxsize
    · simp only [hlength, hwaiters]
      omega
    · simp only
      omega
    · exact h.balance
    · exact h.depth_le
    · exact h.peak_le

/-- A waiter goes on with its permit, or it has given the permit back. -/
lemma resumeAdmit_spec (h : q.Balanced capacity 0) {task wakes : Nat} {factory : FactoryResult}
    {result : BoundedProcessingQueue × QueueOutcome}
    (hresume : q.resumeAdmit task wakes factory = some result) :
    result.1.Balanced capacity 0 ∧ Follows q result.1 result.2 := by
  obtain ⟨⟨slots, acquired⟩, hslots, rfl⟩ := Option.map_eq_some_iff.mp hresume
  obtain ⟨htotal, hlength, hbound, hnonneg⟩ := BoundedSemaphore.resume_spec h.nonneg hslots
  have hpermits := h.permits
  have hwaiters := h.waiters
  have hwaits := h.waits
  have hbalanced : ({ q with slots := slots, currentPutWaiters := q.currentPutWaiters - 1 } :
      BoundedProcessingQueue).Balanced capacity (if acquired then 1 else 0) := by
    constructor
    · exact hnonneg
    · simp only [qsize] at hpermits ⊢
      rw [← hpermits, ← htotal]
      cases acquired with
      | true =>
        simp
        omega
      | false => simp
    · exact hbound.trans h.bound
    · exact h.maxsize
    · simp only
      omega
    · simp only
      omega
    · exact h.balance
    · exact h.depth_le
    · exact h.peak_le
  cases acquired with
  | true => exact bindAndEnqueue_spec hbalanced factory
  | false => exact ⟨hbalanced, rfl, by decide, by decide⟩

/-- A task that got an item releases its permit. -/
lemma deliver_spec (h : q.Balanced capacity 0) {workQueue : Asyncio.Queue ProcessingWorkItem}
    {result : Queue.GetResult ProcessingWorkItem} (hgets : Queue.Gets q.workQueue workQueue result) :
    (q.deliver workQueue result).1.Balanced capacity 0 ∧
      Follows q (q.deliver workQueue result).1 (q.deliver workQueue result).2 := by
  have hsame (hitems : workQueue.items = q.workQueue.items) :
      ({ q with workQueue := workQueue } : BoundedProcessingQueue).Balanced capacity 0 := by
    constructor
    · exact h.nonneg
    · simp only [qsize, hitems]
      exact h.permits
    · exact h.bound
    · exact hgets.maxsize.trans h.maxsize
    · exact h.waiters
    · exact h.waits
    · simp only [qsize, hitems]
      exact h.balance
    · simp only [qsize, hitems]
      exact h.depth_le
    · exact h.peak_le
  rcases hgets.items with ⟨item, rfl, hitems⟩ | ⟨hnone, hitems⟩
  · have hlength : q.workQueue.items.length = workQueue.items.length + 1 := by
      rw [hitems, List.length_cons]
    have hpermits := h.permits
    have hbalance := h.balance
    have hdepth := h.depth_le
    simp only [qsize, hlength] at hpermits hbalance hdepth
    have htaken : ({ q with workQueue := workQueue, dequeued := q.dequeued + 1 } :
        BoundedProcessingQueue).Balanced capacity 1 := by
      constructor
      · exact h.nonneg
      · simp only [qsize]
        omega
      · exact h.bound
      · exact hgets.maxsize.trans h.maxsize
      · exact h.waiters
      · exact h.waits
      · simp only [qsize]
        omega
      · simp only [qsize]
        omega
      · exact h.peak_le
    obtain ⟨slots, hrelease, hbalanced⟩ := htaken.release
    simp only at hrelease
    simp only [deliver, hrelease]
    exact ⟨hbalanced, hitems⟩
  · cases result with
    | item item => exact absurd rfl (hnone item)
    | waiting => exact ⟨hsame hitems, hitems⟩
    | cancelledError => exact ⟨hsame hitems, hitems, by decide, by decide⟩

/-- The counters pass the checks of their snapshot. -/
lemma Balanced.metricsSnapshot (h : q.Balanced capacity 0) : ∃ snapshot, q.metricsSnapshot = .ok snapshot := by
  have hwaiters := h.waiters
  have hwaits := h.waits
  have hbalance := h.balance
  have hdepth := h.depth_le
  have hpeak := h.peak_le
  have hmaxsize := h.maxsize
  have hpos := capacity.pos
  have hname : str "processing" ≠ [] := by decide
  have hsigns : ∀ field ∈ counterFields (q.workQueue.maxsize : Nat) q.qsize q.peakDepth q.enqueued
      q.dequeued q.putWaits q.currentPutWaiters, 0 ≤ field.2 := by
    intro field hfield
    simp only [counterFields, List.mem_cons, List.not_mem_nil, or_false] at hfield
    rcases hfield with rfl | rfl | rfl | rfl | rfl | rfl | rfl <;> simp only <;> omega
  have hchecks : countersError (q.workQueue.maxsize : Nat) q.qsize q.peakDepth q.enqueued q.dequeued
      q.putWaits q.currentPutWaiters = none := by
    rw [countersError_eq_none_iff, hmaxsize]
    omega
  unfold BoundedProcessingQueue.metricsSnapshot makeQueueMetricsSnapshot
  rw [dif_neg hname, dif_pos hsigns]
  split
  · next message hmessage =>
    rw [hchecks] at hmessage
    cases hmessage
  · exact ⟨_, rfl⟩

end Actions

end BoundedProcessingQueue

/-! ### Every schedule -/

namespace QueueSystem

open BoundedProcessingQueue

def admittedItems (outcomes : List QueueOutcome) : List ProcessingWorkItem :=
  outcomes.filterMap (fun | .admitted item => some item | _ => none)

def gotItems (outcomes : List QueueOutcome) : List ProcessingWorkItem :=
  outcomes.filterMap (fun | .got item => some item | _ => none)

/-- The errors that say that permits and items do not match. -/
def IsMismatch (outcome : QueueOutcome) : Prop :=
  outcome = .raised .queueFull ∨ outcome = .raised .releasedTooManyTimes

/-- What an action keeps, and what its outcome says. -/
lemma step_spec {s : QueueSystem} {capacity : ℕ+} (h : s.queue.Balanced capacity 0) (action : QueueAction) :
    (s.step action).1.queue.Balanced capacity 0 ∧
      FollowsStep s.queue (s.step action).1.queue (s.step action).2 := by
  cases action with
  | beginAdmit factory => exact admit_spec h s.nextTask factory
  | resumeAdmit task wakes factory =>
    simp only [step]
    cases hresume : s.queue.resumeAdmit task wakes factory with
    | none => exact ⟨h, rfl⟩
    | some result => exact resumeAdmit_spec h hresume
  | cancelAdmit task =>
    refine ⟨?_, rfl⟩
    have hpermits := BoundedSemaphore.cancel_permits s.queue.slots task
    have hlength := BoundedSemaphore.cancel_length s.queue.slots task
    constructor
    · exact h.nonneg
    · simp only [step, qsize, hpermits]
      exact h.permits
    · exact h.bound
    · exact h.maxsize
    · simp only [step, hlength]
      exact h.waiters
    · exact h.waits
    · exact h.balance
    · exact h.depth_le
    · exact h.peak_le
  | get => exact deliver_spec h (Queue.takeOrWait_gets s.queue.workQueue s.nextTask)
  | resumeGet task =>
    simp only [step]
    cases hresume : s.queue.resumeGet task with
    | none => exact ⟨h, rfl⟩
    | some result =>
      obtain ⟨⟨workQueue, taken⟩, hqueue, rfl⟩ := Option.map_eq_some_iff.mp hresume
      exact deliver_spec h (Queue.resume_gets hqueue)
  | cancelGet task => exact ⟨⟨h.nonneg, h.permits, h.bound, h.maxsize, h.waiters, h.waits, h.balance,
      h.depth_le, h.peak_le⟩, rfl⟩

/-- The items of a run: what was there or admitted was got, in that order, or is there. -/
lemma run_spec {s : QueueSystem} {capacity : ℕ+} (h : s.queue.Balanced capacity 0) (actions : List QueueAction) :
    (s.run actions).1.queue.Balanced capacity 0 ∧
      s.queue.workQueue.items ++ admittedItems (s.run actions).2 =
        gotItems (s.run actions).2 ++ (s.run actions).1.queue.workQueue.items ∧
      ∀ outcome ∈ (s.run actions).2, ¬ IsMismatch outcome := by
  induction actions generalizing s with
  | nil => exact ⟨h, by simp [run, admittedItems, gotItems], by simp [run]⟩
  | cons action actions ih =>
    obtain ⟨hnext, hfollows⟩ := step_spec h action
    obtain ⟨hlast, hitems, hclean⟩ := ih hnext
    simp only [run]
    refine ⟨hlast, ?_, ?_⟩
    · cases houtcome : (s.step action).2 with
      | none =>
        rw [houtcome] at hfollows
        have hsame : (s.step action).1.queue.workQueue.items = s.queue.workQueue.items := hfollows
        rw [Option.toList_none, List.nil_append, ← hsame]
        exact hitems
      | some outcome =>
        rw [houtcome] at hfollows
        cases outcome with
        | waits =>
          have hsame : (s.step action).1.queue.workQueue.items = s.queue.workQueue.items := hfollows
          rw [hsame] at hitems
          simpa [admittedItems, gotItems] using hitems
        | admitted item =>
          have hadded : (s.step action).1.queue.workQueue.items = s.queue.workQueue.items ++ [item] := hfollows
          rw [hadded] at hitems
          simpa [admittedItems, gotItems] using hitems
        | got item =>
          have htaken : s.queue.workQueue.items = item :: (s.step action).1.queue.workQueue.items := hfollows
          rw [htaken]
          simpa [admittedItems, gotItems] using hitems
        | raised error =>
          have hsame : (s.step action).1.queue.workQueue.items = s.queue.workQueue.items := hfollows.1
          rw [hsame] at hitems
          simpa [admittedItems, gotItems] using hitems
    · intro outcome hmem
      rcases List.mem_append.mp hmem with hmem | hmem
      · rw [Option.mem_toList] at hmem
        rw [hmem] at hfollows
        rintro (rfl | rfl)
        · exact hfollows.2.1 rfl
        · exact hfollows.2.2 rfl
      · exact hclean outcome hmem

/-- In every schedule no permit is lost or duplicated: the free ones, the items and the permits held for
waiters are as many as the capacity, no put finds the queue full and no release is one too many. Items
leave in the order in which they were admitted, and the counters always make a snapshot. -/
theorem processing_queue_permits (maxsize : ℕ+) (actions : List QueueAction) :
    let s := ((new maxsize).run actions).1
    let outcomes := ((new maxsize).run actions).2
    s.queue.slots.value + s.queue.qsize + s.queue.slots.granted = maxsize ∧ 0 ≤ s.queue.slots.value ∧
      (∀ outcome ∈ outcomes, ¬ IsMismatch outcome) ∧
      admittedItems outcomes = gotItems outcomes ++ s.queue.workQueue.items ∧
      s.queue.enqueued - s.queue.dequeued = (s.queue.qsize : Int) ∧ s.queue.qsize ≤ s.queue.peakDepth ∧
      s.queue.peakDepth ≤ maxsize ∧ s.queue.currentPutWaiters ≤ s.queue.putWaits ∧
      ∃ snapshot, s.queue.metricsSnapshot = .ok snapshot := by
  obtain ⟨hbalanced, hitems, hclean⟩ := @run_spec (new maxsize) maxsize (balanced_new maxsize) actions
  have hpermits := hbalanced.permits
  have hbalance := hbalanced.balance
  refine ⟨?_, hbalanced.nonneg, hclean, ?_, ?_, hbalanced.depth_le, hbalanced.peak_le, hbalanced.waits,
    hbalanced.metricsSnapshot⟩
  · simp only [BoundedSemaphore.permits] at hpermits
    omega
  · rw [← hitems]
    rfl
  · omega

end QueueSystem

end AisMixer.Runtime

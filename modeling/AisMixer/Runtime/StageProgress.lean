import AisMixer.Library.WakeUps
import AisMixer.Runtime.StageRuns

/-!
# The stages come to an end

While nobody is cancelled and no call fails, no wake-up is lost: from every state that a schedule reaches
the tasks can go on until everything that arrived is processed and sent, or the processor has raised.
-/

namespace AisMixer.Runtime

open AisMixer.Library AisMixer.Library.Asyncio AisMixer.Routing

/-! ### The processing queue while nobody is cancelled -/

namespace BoundedProcessingQueue

/-- Who waits for a permit will be woken: by a task that has one, or when an item leaves. -/
def NoLostWakeUp (q : BoundedProcessingQueue) : Prop :=
  q.slots.Awaits → q.slots.Grants ∨ q.workQueue.items ≠ []

variable {q : BoundedProcessingQueue} {capacity : ℕ+}

lemma bindAndEnqueue_item (q : BoundedProcessingQueue) (item : ProcessingWorkItem) :
    ((q.bindAndEnqueue (.item item)).2 = .admitted item ∧ (q.bindAndEnqueue (.item item)).1.slots = q.slots ∧
      q.workQueue.putNowait item = some (q.bindAndEnqueue (.item item)).1.workQueue) ∨
    (q.bindAndEnqueue (.item item)).2 = .raised .queueFull ∨
      (q.bindAndEnqueue (.item item)).2 = .raised .releasedTooManyTimes := by
  cases hput : q.workQueue.putNowait item with
  | some workQueue =>
    left
    simp only [bindAndEnqueue, hput]
    exact ⟨trivial, trivial, trivial⟩
  | none =>
    right
    simp only [bindAndEnqueue, hput, releaseAndRaise]
    cases q.slots.release with
    | none => exact .inr rfl
    | some slots => exact .inl rfl

lemma Follows.not_raised {q' : BoundedProcessingQueue} {outcome : QueueOutcome} (h : Follows q q' outcome) :
    ¬ (outcome = .raised .queueFull ∨ outcome = .raised .releasedTooManyTimes) := by
  rintro (rfl | rfl)
  · exact h.2.1 rfl
  · exact h.2.2 rfl

/-- `admit` with an item up to its first wait. -/
lemma beginAdmit_calm (hbalanced : q.Balanced capacity 0) (hcalm : q.slots.Calm) {task : Nat}
    (htask : task ∉ q.slots.tasks) (item : ProcessingWorkItem) :
    ((q.beginAdmit task (.item item)).2 = .admitted item ∧
      (q.beginAdmit task (.item item)).1.slots.Calm ∧
      (q.beginAdmit task (.item item)).1.slots.tasks = q.slots.tasks ∧
      q.workQueue.putNowait item = some (q.beginAdmit task (.item item)).1.workQueue) ∨
    ((q.beginAdmit task (.item item)).2 = .waits ∧
      (q.beginAdmit task (.item item)).1.slots.Calm ∧
      (q.beginAdmit task (.item item)).1.slots.tasks = q.slots.tasks ++ [task] ∧
      (q.beginAdmit task (.item item)).1.workQueue = q.workQueue ∧
      (q.NoLostWakeUp → (q.beginAdmit task (.item item)).1.NoLostWakeUp)) := by
  have hnone := (admit_spec hbalanced task (.item item)).2.not_raised
  have hpermits := hbalanced.permits
  unfold beginAdmit at hnone ⊢
  rcases hacquire : q.slots.acquire task with ⟨slots, acquired⟩
  cases acquired with
  | true =>
    left
    obtain ⟨hslots, htasks⟩ := hcalm.of_waiters (BoundedSemaphore.acquire_takes hacquire)
    cases hlocked : q.slots.locked with
    | false =>
      simp only [hlocked, Bool.false_eq_true, if_false, hacquire, if_true] at hnone ⊢
      rcases bindAndEnqueue_item _ item with ⟨houtcome, hsame, hput⟩ | hraised
      · rw [hsame]
        exact ⟨houtcome, hslots, htasks, hput⟩
      · exact absurd hraised hnone
    | true =>
      simp only [hlocked, if_true, hacquire] at hnone ⊢
      rcases bindAndEnqueue_item _ item with ⟨houtcome, hsame, hput⟩ | hraised
      · rw [hsame]
        exact ⟨houtcome, hslots, htasks, hput⟩
      · exact absurd hraised hnone
  | false =>
    right
    obtain ⟨hslots, htasks, hvalue, hwhy, hgrants⟩ := BoundedSemaphore.acquire_waits hcalm htask hacquire
    have hlost : q.NoLostWakeUp → slots.Awaits → slots.Grants ∨ q.workQueue.items ≠ [] := by
      intro hbefore _
      rcases hwhy with hzero | hawaits | hgranted
      · simp only [BoundedSemaphore.permits, qsize, hzero] at hpermits
        have hcapacity := capacity.pos
        by_cases hitems : q.workQueue.items = []
        · left
          apply hgrants
          rw [hitems] at hpermits
          have hcount : 0 < q.slots.granted := by
            simp only [List.length_nil] at hpermits
            omega
          obtain ⟨w, hw, hdone⟩ := List.countP_pos_iff.mp hcount
          exact ⟨w, hw, by simpa using hdone⟩
        · exact .inr hitems
      · rcases hbefore hawaits with hgranted | hitems
        · exact .inl (hgrants hgranted)
        · exact .inr hitems
      · exact .inl (hgrants hgranted)
    cases hlocked : q.slots.locked with
    | false =>
      simp only [hacquire, Bool.false_eq_true, if_false]
      exact ⟨trivial, hslots, htasks, trivial, hlost⟩
    | true =>
      simp only [hacquire, if_true, Bool.false_eq_true, if_false]
      exact ⟨trivial, hslots, htasks, trivial, hlost⟩

/-- `admit` with an item after its wait. -/
lemma resumeAdmit_calm (hbalanced : q.Balanced capacity 0) (hcalm : q.slots.Calm) {task wakes : Nat}
    {item : ProcessingWorkItem} {result : BoundedProcessingQueue × QueueOutcome}
    (hresume : q.resumeAdmit task wakes (.item item) = some result) :
    result.2 = .admitted item ∧ result.1.slots.Calm ∧ result.1.slots.tasks = q.slots.tasks.erase task ∧
      q.workQueue.putNowait item = some result.1.workQueue := by
  have hnone := (resumeAdmit_spec hbalanced hresume).2.not_raised
  obtain ⟨⟨slots, acquired⟩, hslots, rfl⟩ := Option.map_eq_some_iff.mp hresume
  obtain ⟨rfl, htasks, hrest⟩ := BoundedSemaphore.resume_calm hcalm hslots
  simp only [if_true] at hnone ⊢
  rcases bindAndEnqueue_item { q with slots := slots, currentPutWaiters := q.currentPutWaiters - 1 } item with
    ⟨houtcome, hsame, hput⟩ | hraised
  · rw [hsame]
    exact ⟨houtcome, hrest, htasks, hput⟩
  · exact absurd hraised hnone

/-- `get` with an item. -/
lemma deliver_calm (hcalm : q.slots.Calm) {workQueue : Asyncio.Queue ProcessingWorkItem}
    {item : ProcessingWorkItem}
    (hfollows : Follows q (q.deliver workQueue (.item item)).1 (q.deliver workQueue (.item item)).2) :
    (q.deliver workQueue (.item item)).2 = .got item ∧ (q.deliver workQueue (.item item)).1.slots.Calm ∧
      (q.deliver workQueue (.item item)).1.slots.tasks = q.slots.tasks ∧
      (q.deliver workQueue (.item item)).1.workQueue = workQueue ∧
      (q.deliver workQueue (.item item)).1.NoLostWakeUp := by
  have hnone := hfollows.not_raised
  cases hrelease : q.slots.release with
  | none =>
    simp [deliver, hrelease] at hnone
  | some slots =>
    obtain ⟨hwakes, hgrants⟩ := BoundedSemaphore.release_wakes hrelease
    simp only [deliver, hrelease]
    exact ⟨trivial, hwakes.calm hcalm, hwakes.tasks, trivial, fun hawaits => .inl (hgrants hawaits)⟩

end BoundedProcessingQueue

namespace Stages

open BoundedProcessingQueue

variable {σ : Type}

/-! ### Binding -/

/-- Binding to a routing that was installed does not fail. -/
lemma bindFactory_ok (s : Stages σ) {legacyTargetIds : List Nat} (hlegacy : legacyTargetIds.Nodup)
    (frame : IngressFrame) : ∃ item, s.bindFactory legacyTargetIds frame = .item item := by
  have hbind : ∃ item, bindProcessingWorkItem frame s.routing legacyTargetIds = .ok item := by
    cases hrouting : s.routing with
    | none =>
      simp only [bindProcessingWorkItem, makeProcessingSnapshot_ok hlegacy]
      exact ⟨_, rfl⟩
    | some state =>
      cases htable : state.snapshot.table with
      | none =>
        simp only [bindProcessingWorkItem, htable, makeProcessingSnapshot_ok hlegacy]
        exact ⟨_, rfl⟩
      | some table =>
        have hcompiled : table.hasCompiledTargetPlan = true := by
          have hvalid := state.valid
          rw [htable] at hvalid
          exact hvalid
        obtain ⟨routes, hroutes⟩ := Option.isSome_iff_exists.mp hcompiled
        have hloop := matchTargetsLoop_eq frame.sourceId routes collected_nil
        have hnodup : (matchTargetsLoop frame.sourceId routes ([], ∅)).Nodup := by
          rw [hloop]
          exact nodup_firstOccurrences _
        simp only [bindProcessingWorkItem, htable, RoutingTable.matchTargetIds, hroutes, Bind.bind, Except.bind,
          makeProcessingSnapshot_ok hnodup]
        exact ⟨_, rfl⟩
  obtain ⟨item, hitem⟩ := hbind
  refine ⟨item, ?_⟩
  unfold bindFactory
  rw [hitem]

/-! ### What holds while nobody is cancelled and no call fails -/

/-- An action that is no cancellation and no failure. -/
def IsCalm : StageAction → Prop
  | .reader _ .cancel => False
  | .processor .cancel => False
  | .egress .cancel => False
  | .egress .sendRaises => False
  | _ => True

/-- Everybody who waits can be woken, and only an exception of the processor ends a task. -/
structure Lively (process : σ → ProcessingWorkItem → σ × Except PyException (List ProcessorOutput)) (start : σ)
    (s : Stages σ) (past : List StageEvent) : Prop where
  slots : s.processing.slots.Calm
  admitting : ∀ index : Nat, index ∈ s.processing.slots.tasks ↔
    ∃ inbox frame, s.readers[index]? = some (Reader.mk inbox (.holding frame true))
  reading : ∀ (index : Nat) inbox lost, s.readers[index]? ≠ some (Reader.mk inbox (.ended lost))
  woken : s.processing.NoLostWakeUp
  parked : s.processor = .taking → s.processing.workQueue.Parked processorTask
  idle : s.processor ≠ .taking → s.processing.workQueue.Idle
  egress : ∀ lost, s.egress ≠ .ended lost
  processor : ∀ lost, s.processor = .ended lost →
    serialState process start (processedItems past) = none ∧ s.pending = []
  completions : ∀ number completion, s.completions.get? number = some completion → completion = .result

section Lively

variable {process : σ → ProcessingWorkItem → σ × Except PyException (List ProcessorOutput)} {start : σ}
  {s : Stages σ} {past : List StageEvent} {capacity : ℕ+} {legacyTargetIds : List Nat}

lemma lively_new (readers : Nat) (routing : Option RoutingState) (processingMaxsize egressMaxsize : ℕ+) :
    Lively process start (new readers routing processingMaxsize egressMaxsize start) [] where
  slots := ⟨by simp [new, BoundedProcessingQueue.new, BoundedSemaphore.new],
    by simp [new, BoundedProcessingQueue.new, BoundedSemaphore.new, BoundedSemaphore.tasks]⟩
  admitting := by
    intro index
    simp [new, BoundedProcessingQueue.new, BoundedSemaphore.new, BoundedSemaphore.tasks, List.getElem?_replicate]
  reading := by simp [new, List.getElem?_replicate]
  woken := by
    rintro ⟨w, hw, -⟩
    cases hw
  parked := by simp [new]
  idle := fun _ => ⟨rfl, rfl⟩
  egress := by simp [new]
  processor := by simp [new]
  completions := by simp [new]

/-- A step of one reader. -/
lemma Lively.setReader (h : Lively process start s past) {index : Nat} {reader reader' : Reader}
    (hreader : s.readers[index]? = some reader) {processing : BoundedProcessingQueue}
    (hslots : processing.slots.Calm)
    (hothers : ∀ other, other ≠ index → (other ∈ processing.slots.tasks ↔ other ∈ s.processing.slots.tasks))
    (hown : index ∈ processing.slots.tasks ↔ ∃ frame, reader'.state = .holding frame true)
    (hlive : ∀ lost, reader'.state ≠ .ended lost) (hwoken : processing.NoLostWakeUp)
    (hparked : s.processing.workQueue.Parked processorTask → processing.workQueue.Parked processorTask)
    (hidle : s.processing.workQueue.Idle → processing.workQueue.Idle) {events : List StageEvent}
    (hprocessed : processedItems events = []) :
    Lively process start ({ s with processing := processing }.setReader index reader') (past ++ events) := by
  have hlength : index < s.readers.length := (List.getElem?_eq_some_iff.mp hreader).1
  have hset : ({ s with processing := processing }.setReader index reader').readers[index]? = some reader' :=
    List.getElem?_set_self hlength
  have hother (other : Nat) (hne : other ≠ index) :
      ({ s with processing := processing }.setReader index reader').readers[other]? = s.readers[other]? :=
    List.getElem?_set_ne (Ne.symm hne)
  constructor
  · exact hslots
  · intro other
    by_cases heq : other = index
    · subst heq
      rw [hset]
      constructor
      · intro hin
        obtain ⟨frame, hstate⟩ := hown.mp hin
        exact ⟨reader'.inbox, frame, by rw [← hstate]⟩
      · rintro ⟨inbox, frame, hreader'⟩
        obtain rfl := Option.some.inj hreader'
        exact hown.mpr ⟨frame, rfl⟩
    · rw [hother other heq]
      exact (hothers other heq).trans (h.admitting other)
  · intro other inbox lost heq
    by_cases hsame : other = index
    · subst hsame
      rw [hset] at heq
      obtain rfl := Option.some.inj heq
      exact hlive lost rfl
    · rw [hother other hsame] at heq
      exact h.reading other inbox lost heq
  · exact hwoken
  · exact fun htaking => hparked (h.parked htaking)
  · exact fun htaking => hidle (h.idle htaking)
  · exact h.egress
  · rw [processedItems_append, hprocessed, List.append_nil]
    exact h.processor
  · exact h.completions

lemma Lively.not_admitting (h : Lively process start s past) {index : Nat} {reader : Reader}
    (hreader : s.readers[index]? = some reader) (hstate : ∀ frame, reader.state ≠ .holding frame true) :
    index ∉ s.processing.slots.tasks := by
  intro hin
  obtain ⟨inbox, frame, hfound⟩ := (h.admitting index).mp hin
  rw [hreader] at hfound
  obtain rfl := Option.some.inj hfound
  exact hstate frame rfl

/-- A reader that neither begins nor ends to wait for a permit. -/
lemma Lively.moveReader (h : Lively process start s past) {index : Nat} {reader reader' : Reader}
    (hreader : s.readers[index]? = some reader)
    (hown : (∃ frame, reader.state = .holding frame true) ↔ ∃ frame, reader'.state = .holding frame true)
    (hlive : ∀ lost, reader'.state ≠ .ended lost) {events : List StageEvent}
    (hprocessed : processedItems events = []) :
    Lively process start (s.setReader index reader') (past ++ events) := by
  have htask : index ∈ s.processing.slots.tasks ↔ ∃ frame, reader'.state = .holding frame true := by
    rw [← hown, h.admitting index, hreader]
    constructor
    · rintro ⟨inbox, frame, heq⟩
      obtain rfl := Option.some.inj heq
      exact ⟨frame, rfl⟩
    · rintro ⟨frame, hstate⟩
      exact ⟨reader.inbox, frame, by rw [← hstate]⟩
  exact h.setReader hreader h.slots (fun _ _ => Iff.rfl) htask hlive h.woken id id hprocessed

/-- A reader whose item has entered the queue. -/
lemma Lively.admitted (h : Lively process start s past) {index : Nat} {reader : Reader} {inbox : List IngressItem}
    (hreader : s.readers[index]? = some reader) {processing : BoundedProcessingQueue} {item : ProcessingWorkItem}
    (hslots : processing.slots.Calm)
    (hothers : ∀ other, other ≠ index → (other ∈ processing.slots.tasks ↔ other ∈ s.processing.slots.tasks))
    (hown : index ∉ processing.slots.tasks)
    (hput : s.processing.workQueue.putNowait item = some processing.workQueue) :
    Lively process start ({ s with processing := processing }.setReader index ⟨inbox, .waiting⟩)
      (past ++ [.bound index item]) := by
  have hitems : processing.workQueue.items ≠ [] := by
    rw [Queue.putNowait_items hput]
    simp
  have hwaiting : index ∈ processing.slots.tasks ↔ ∃ frame, ReaderState.waiting = .holding frame true := by
    simp [hown]
  exact h.setReader hreader hslots hothers hwaiting (by simp) (fun _ => .inr hitems)
    (fun hparked => Queue.putNowait_parked hparked hput) (fun hidle => Queue.putNowait_idle hidle hput) rfl

lemma readerStep_lively (h : Lively process start s past) (hbalanced : s.processing.Balanced capacity 0)
    (hlegacy : legacyTargetIds.Nodup) {index : Nat} {reader : Reader} (hreader : s.readers[index]? = some reader)
    {action : ReaderAction} (hcalm : action ≠ .cancel) :
    Lively process start (s.readerStep legacyTargetIds index reader action).1
      (past ++ (s.readerStep legacyTargetIds index reader action).2) := by
  have hstay : Lively process start s (past ++ []) := by
    rw [List.append_nil]
    exact h
  have hended : ∀ lost, reader.state ≠ .ended lost := by
    intro lost heq
    apply h.reading index reader.inbox lost
    rw [hreader, ← heq]
  rcases reader with ⟨inbox, state⟩
  cases action with
  | arrive item =>
    apply h.moveReader hreader
    · exact Iff.rfl
    · exact hended
    · rfl
  | read =>
    cases inbox with
    | nil => exact hstay
    | cons item inbox =>
      cases state with
      | waiting =>
        simp only [readerStep]
        cases coerceIngressFrame item with
        | none =>
          apply h.moveReader hreader
          · exact Iff.rfl
          · simp
          · rfl
        | some frame =>
          apply h.moveReader hreader
          · simp
          · simp
          · rfl
      | holding frame admitting => exact hstay
      | ended lost => exact hstay
  | beginAdmit =>
    rcases state with _ | ⟨frame, _ | _⟩ | lost
    · exact hstay
    · have htask := h.not_admitting hreader (by simp)
      obtain ⟨item, hitem⟩ := bindFactory_ok s hlegacy frame
      simp only [readerStep, hitem]
      rcases beginAdmit_calm hbalanced h.slots htask item with
        ⟨houtcome, hslots, htasks, hput⟩ | ⟨houtcome, hslots, htasks, hqueue, hwoken⟩
      · simp only [afterAdmit, houtcome]
        rw [← htasks] at htask
        exact h.admitted hreader hslots (fun _ _ => by rw [htasks]) htask hput
      · simp only [afterAdmit, houtcome]
        refine h.setReader hreader hslots ?_ ?_ (by simp) (hwoken h.woken) ?_ ?_ rfl
        · intro other hne
          rw [htasks, List.mem_append, List.mem_singleton]
          exact or_iff_left hne
        · rw [htasks]
          simp
        · rw [hqueue]
          exact id
        · rw [hqueue]
          exact id
    · exact hstay
    · exact hstay
  | resumeAdmit wakes =>
    rcases state with _ | ⟨frame, _ | _⟩ | lost
    · exact hstay
    · exact hstay
    · obtain ⟨item, hitem⟩ := bindFactory_ok s hlegacy frame
      simp only [readerStep, hitem]
      cases hresume : s.processing.resumeAdmit index wakes (.item item) with
      | none => exact hstay
      | some result =>
        obtain ⟨houtcome, hslots, htasks, hput⟩ := resumeAdmit_calm hbalanced h.slots hresume
        have hnodup := h.slots.nodup
        simp only [afterAdmit, houtcome]
        apply h.admitted hreader hslots ?_ ?_ hput
        · intro other hne
          rw [htasks]
          exact List.mem_erase_of_ne hne
        · rw [htasks]
          exact hnodup.not_mem_erase
    · exact hstay
  | cancel => exact absurd rfl hcalm

/-- A step of the processor stage. -/
lemma Lively.moveProcessor (h : Lively process start s past) {t : Stages σ} {events : List StageEvent}
    (hreaders : t.readers = s.readers) (hslots : t.processing.slots.Calm)
    (htasks : t.processing.slots.tasks = s.processing.slots.tasks) (hwoken : t.processing.NoLostWakeUp)
    (hparked : t.processor = .taking → t.processing.workQueue.Parked processorTask)
    (hidle : t.processor ≠ .taking → t.processing.workQueue.Idle) (hegress : t.egress = s.egress)
    (hcompletions : t.completions = s.completions)
    (hended : ∀ lost, t.processor = .ended lost →
      serialState process start (processedItems (past ++ events)) = none ∧ t.pending = []) :
    Lively process start t (past ++ events) where
  slots := hslots
  admitting := by
    rw [htasks, hreaders]
    exact h.admitting
  reading := by
    rw [hreaders]
    exact h.reading
  woken := hwoken
  parked := hparked
  idle := hidle
  egress := by
    rw [hegress]
    exact h.egress
  processor := hended
  completions := by
    rw [hcompletions]
    exact h.completions

lemma handleItem_lively (h : Lively process start s past) (haccount : PipelineAccount process start s past)
    (hprocessor : s.processor = .idle ∨ s.processor = .taking) {processing : BoundedProcessingQueue}
    (hslots : processing.slots.Calm) (htasks : processing.slots.tasks = s.processing.slots.tasks)
    (hwoken : processing.NoLostWakeUp) (hidle : processing.workQueue.Idle) (item : ProcessingWorkItem) :
    Lively process start ({ s with processing := processing }.handleItem process item).1
      (past ++ ({ s with processing := processing }.handleItem process item).2) := by
  obtain ⟨hqueue, hegress⟩ := haccount.free hprocessor
  have hlive : ∀ lost, s.processor ≠ .ended lost := by
    intro lost heq
    rw [heq] at hprocessor
    simp at hprocessor
  have hstate := serialState_append (haccount.alive hlive) [item]
  unfold handleItem
  rcases hprocess : process s.processorState item with ⟨processorState, result⟩
  rw [serialState, hprocess] at hstate
  cases result with
  | error e =>
    apply h.moveProcessor
    · rfl
    · exact hslots
    · exact htasks
    · exact hwoken
    · simp
    · exact fun _ => hidle
    · rfl
    · rfl
    · intro lost hended
      rw [processedItems_append, processedItems_processed, hstate]
      refine ⟨rfl, ?_⟩
      simp [pending, hqueue, hegress, processorPending, sends]
  | ok outputs =>
    by_cases hempty : outputs = []
    · dsimp only
      rw [if_pos hempty]
      apply h.moveProcessor
      · rfl
      · exact hslots
      · exact htasks
      · exact hwoken
      · simp
      · exact fun _ => hidle
      · rfl
      · rfl
      · simp
    · dsimp only
      rw [if_neg hempty]
      have hput := tryPut_empty
        { s with
          processing := processing
          processorState := processorState
          processor := .putting ⟨s.nextBatch, outputs⟩
          nextBatch := s.nextBatch + 1 } ⟨s.nextBatch, outputs⟩ rfl hqueue
      rw [hput]
      apply h.moveProcessor
      · rfl
      · exact hslots
      · exact htasks
      · exact hwoken
      · simp
      · exact fun _ => hidle
      · rfl
      · rfl
      · simp

/-- A stage that gets an item, or waits for one. -/
lemma deliver_lively (h : Lively process start s past) (haccount : PipelineAccount process start s past)
    (hprocessor : s.processor = .idle ∨ s.processor = .taking) {workQueue : Asyncio.Queue ProcessingWorkItem}
    {item : ProcessingWorkItem}
    (hfollows : Follows s.processing (s.processing.deliver workQueue (.item item)).1
      (s.processing.deliver workQueue (.item item)).2) (hidle : workQueue.Idle) :
    Lively process start (s.afterGet process (s.processing.deliver workQueue (.item item))).1
      (past ++ (s.afterGet process (s.processing.deliver workQueue (.item item))).2) := by
  obtain ⟨houtcome, hslots, htasks, hqueue, hwoken⟩ := deliver_calm h.slots hfollows
  simp only [afterGet, houtcome]
  rw [← hqueue] at hidle
  exact handleItem_lively h haccount hprocessor hslots htasks hwoken hidle item

lemma processorStep_lively (h : Lively process start s past) (haccount : PipelineAccount process start s past)
    (hbalanced : s.processing.Balanced capacity 0) {action : ProcessorAction} (hcalm : action ≠ .cancel) :
    Lively process start (s.processorStep process action).1 (past ++ (s.processorStep process action).2) := by
  have hstay : Lively process start s (past ++ []) := by
    rw [List.append_nil]
    exact h
  cases action with
  | take =>
    cases hprocessor : s.processor with
    | idle =>
      have hidle := h.idle (by rw [hprocessor]; simp)
      have hfollows := (deliver_spec hbalanced (Queue.takeOrWait_gets s.processing.workQueue processorTask)).2
      simp only [processorStep, hprocessor, BoundedProcessingQueue.get]
      rcases Queue.takeOrWait_idle hidle processorTask with ⟨hitems, hparked, hresult⟩ | ⟨item, hrest, hresult⟩
      · rw [hresult]
        apply h.moveProcessor
        · rfl
        · exact h.slots
        · rfl
        · intro hawaits
          rcases h.woken hawaits with hgranted | hne
          · exact .inl hgranted
          · exact absurd hitems hne
        · exact fun _ => hparked
        · intro hne
          exact absurd rfl hne
        · rfl
        · rfl
        · intro lost heq
          cases heq
      · rw [hresult] at hfollows ⊢
        exact deliver_lively h haccount (.inl hprocessor) hfollows hrest
    | _ =>
      simp only [processorStep, hprocessor]
      exact hstay
  | resumeTake =>
    cases hprocessor : s.processor with
    | taking =>
      have hparked := h.parked hprocessor
      simp only [processorStep, hprocessor, resumeGet]
      rcases Queue.resume_parked hparked with ⟨hitems, hnone⟩ | ⟨item, workQueue, hresume, hidle⟩
      · rw [hnone]
        exact hstay
      · have hfollows := (deliver_spec hbalanced (Queue.resume_gets hresume)).2
        rw [hresume]
        exact deliver_lively h haccount (.inr hprocessor) hfollows hidle
    | _ =>
      simp only [processorStep, hprocessor]
      exact hstay
  | put =>
    have hnothing : s.tryPut = s := by
      have hphase := haccount.phase
      unfold tryPut
      split
      · next batch hprocessor =>
        cases hphase with
        | free hwaits =>
          rw [hprocessor] at hwaits
          simp at hwaits
        | queued number outputs hawaiting =>
          rw [hprocessor] at hawaiting
          cases hawaiting
        | sending number output rest hawaiting =>
          rw [hprocessor] at hawaiting
          cases hawaiting
        | settled number completion hawaiting =>
          rw [hprocessor] at hawaiting
          cases hawaiting
        | ended lost hended =>
          rw [hprocessor] at hended
          cases hended
      · rfl
    simp only [processorStep, hnothing]
    exact hstay
  | resume =>
    cases hprocessor : s.processor with
    | awaiting number =>
      have hidle := h.idle (by rw [hprocessor]; simp)
      simp only [processorStep, hprocessor]
      cases hcompletion : s.completions.get? number with
      | none => exact hstay
      | some completion =>
        obtain rfl := h.completions number completion hcompletion
        apply h.moveProcessor
        · rfl
        · exact h.slots
        · rfl
        · exact h.woken
        · simp
        · exact fun _ => hidle
        · rfl
        · rfl
        · simp
    | _ =>
      simp only [processorStep, hprocessor]
      exact hstay
  | cancel => exact absurd rfl hcalm

lemma sendNext_lively (s : Stages σ) (number : Nat) (outputs : List ProcessorOutput) :
    (∀ lost, (s.sendNext number outputs).1.egress ≠ .ended lost) ∧
      ((∀ number completion, s.completions.get? number = some completion → completion = .result) →
        ∀ number' completion, (s.sendNext number outputs).1.completions.get? number' = some completion →
          completion = .result) := by
  cases outputs with
  | nil =>
    refine ⟨by simp [sendNext], ?_⟩
    intro hresults number' completion hcompletion
    simp only [sendNext, settle_get?] at hcompletion
    split at hcompletion
    · cases hold : s.completions.get? number with
      | none =>
        rw [hold] at hcompletion
        exact (Option.some.inj hcompletion).symm
      | some old =>
        rw [hold] at hcompletion
        obtain rfl := Option.some.inj hcompletion
        exact hresults number old hold
    · exact hresults number' completion hcompletion
  | cons output rest => exact ⟨by simp [sendNext], id⟩

lemma egressStep_lively (h : Lively process start s past) {action : EgressAction} (hcancel : action ≠ .cancel)
    (hraises : action ≠ .sendRaises) :
    Lively process start (s.egressStep action).1 (past ++ (s.egressStep action).2) := by
  have hsame := egressStep_same s action
  have hpending := egressStep_account s action
  have hprocessed := processedItems_sends (egressStep_sends s action)
  have hegress : (∀ lost, (s.egressStep action).1.egress ≠ .ended lost) ∧
      ∀ number completion, (s.egressStep action).1.completions.get? number = some completion →
        completion = .result := by
    cases action with
    | fetch =>
      simp only [egressStep]
      split
      · next batch rest _ _ =>
        obtain ⟨hlive, hresults⟩ := sendNext_lively
          { s with egressQueue := rest, metrics := s.metrics.batchStarted } batch.number batch.outputs
        exact ⟨hlive, hresults h.completions⟩
      · exact ⟨h.egress, h.completions⟩
    | sendReturns =>
      simp only [egressStep]
      split
      · next number output rest _ =>
        obtain ⟨hlive, hresults⟩ := sendNext_lively { s with metrics := s.metrics.outputCompleted } number rest
        exact ⟨hlive, hresults h.completions⟩
      · exact ⟨h.egress, h.completions⟩
    | sendRaises => exact absurd rfl hraises
    | cancel => exact absurd rfl hcancel
  constructor
  · rw [hsame.processing]
    exact h.slots
  · rw [hsame.processing, hsame.readers]
    exact h.admitting
  · rw [hsame.readers]
    exact h.reading
  · rw [hsame.processing]
    exact h.woken
  · rw [hsame.processing, hsame.processor]
    exact h.parked
  · rw [hsame.processing, hsame.processor]
    exact h.idle
  · exact hegress.1
  · rw [hsame.processor, processedItems_append, hprocessed, List.append_nil]
    intro lost hended
    obtain ⟨hstate, hnone⟩ := h.processor lost hended
    rw [hnone] at hpending
    exact ⟨hstate, (List.append_eq_nil_iff.mp hpending).2⟩
  · exact hegress.2

lemma Lively.step {initialRouting : Option RoutingState} (h : Lively process start s past)
    (haccount : StagesAccount process legacyTargetIds capacity start initialRouting s past)
    (hlegacy : legacyTargetIds.Nodup) {action : StageAction} (hcalm : IsCalm action) :
    Lively process start (s.step process legacyTargetIds action).1
      (past ++ (s.step process legacyTargetIds action).2) := by
  have hstay : Lively process start s (past ++ []) := by
    rw [List.append_nil]
    exact h
  have hbalanced := haccount.ingress.balanced
  cases action with
  | reader index action =>
    have hcancel : action ≠ .cancel := by
      rintro rfl
      exact hcalm
    simp only [Stages.step]
    cases hreader : s.readers[index]? with
    | none => exact hstay
    | some reader => exact readerStep_lively h hbalanced hlegacy hreader hcancel
  | replace table expectedGeneration =>
    cases hrouting : s.routing with
    | none =>
      simp only [Stages.step, hrouting]
      exact hstay
    | some state =>
      cases hreplace : state.replace table expectedGeneration with
      | error e =>
        simp only [Stages.step, hrouting, hreplace]
        exact hstay
      | ok next =>
        simp only [Stages.step, hrouting, hreplace]
        refine ⟨h.slots, h.admitting, h.reading, h.woken, h.parked, h.idle, h.egress, ?_, h.completions⟩
        rw [processedItems_append]
        simpa [processedItems, pending] using h.processor
  | processor action =>
    have hcancel : action ≠ .cancel := by
      rintro rfl
      exact hcalm
    exact processorStep_lively h haccount.pipeline hbalanced hcancel
  | egress action =>
    have hcancel : action ≠ .cancel := by
      rintro rfl
      exact hcalm
    have hraises : action ≠ .sendRaises := by
      rintro rfl
      exact hcalm
    exact egressStep_lively h hcancel hraises

lemma Lively.run {initialRouting : Option RoutingState} (h : Lively process start s past)
    (haccount : StagesAccount process legacyTargetIds capacity start initialRouting s past)
    (hlegacy : legacyTargetIds.Nodup) {actions : List StageAction} (hcalm : ∀ action ∈ actions, IsCalm action) :
    Lively process start (s.run process legacyTargetIds actions).1
      (past ++ (s.run process legacyTargetIds actions).2) := by
  induction actions generalizing s past with
  | nil =>
    simp only [Stages.run, List.append_nil]
    exact h
  | cons action actions ih =>
    have hnext := h.step haccount hlegacy (hcalm action List.mem_cons_self)
    have hrest := ih hnext (haccount.step action)
      (fun other hother => hcalm other (List.mem_cons_of_mem _ hother))
    rw [List.append_assoc] at hrest
    exact hrest

end Lively

/-! ### What is left to do -/

def readerStateWeight : ReaderState → Nat
  | .waiting => 0
  | .holding _ false => 3
  | .holding _ true => 2
  | .ended _ => 0

def readerWeight (reader : Reader) : Nat := 4 * reader.inbox.length + readerStateWeight reader.state

/-- The steps that frames are away from the processor. -/
def ingressWeight (s : Stages σ) : Nat := (s.readers.map readerWeight).sum + s.processing.workQueue.items.length

def processorWeight : ProcessorStage → Nat
  | .awaiting _ => 2
  | .idle => 1
  | _ => 0

def egressWeight : EgressStage → Nat
  | .sending _ _ rest => rest.length + 1
  | _ => 0

/-- The steps behind the processor. -/
def pipelineWeight (s : Stages σ) : Nat :=
  processorWeight s.processor + (s.egressQueue.map (fun batch => batch.outputs.length + 1)).sum +
    egressWeight s.egress

def Lowers (t s : Stages σ) : Prop :=
  ingressWeight t < ingressWeight s ∨ ingressWeight t = ingressWeight s ∧ pipelineWeight t < pipelineWeight s

/-- What a task does by itself; a resumed `acquire` wakes a given number of others. -/
def IsTaskStep (wakes : Nat) : StageAction → Prop
  | .reader _ .read | .reader _ .beginAdmit => True
  | .reader _ (.resumeAdmit woken) => woken = wakes
  | .processor .take | .processor .resumeTake | .processor .resume => True
  | .egress .fetch | .egress .sendReturns => True
  | _ => False

lemma IsTaskStep.isCalm {wakes : Nat} {action : StageAction} (h : IsTaskStep wakes action) : IsCalm action := by
  rcases action with ⟨index, action⟩ | _ | action | action
  · cases action <;> trivial
  · trivial
  · cases action <;> trivial
  · cases action <;> trivial

lemma sum_map_set {α : Type} (f : α → Nat) {xs : List α} {index : Nat} {x : α} (h : xs[index]? = some x) (y : α) :
    ((xs.set index y).map f).sum + f x = (xs.map f).sum + f y := by
  induction xs generalizing index with
  | nil => simp at h
  | cons z zs ih =>
    cases index with
    | zero =>
      obtain rfl : z = x := by simpa using h
      simp only [List.set_cons_zero, List.map_cons, List.sum_cons]
      omega
    | succ index =>
      have hrest := ih (by simpa using h)
      simp only [List.set_cons_succ, List.map_cons, List.sum_cons]
      omega

section Progress

variable {process : σ → ProcessingWorkItem → σ × Except PyException (List ProcessorOutput)} {start : σ}
  {s : Stages σ} {past : List StageEvent} {capacity : ℕ+} {legacyTargetIds : List Nat}
  {initialRouting : Option RoutingState}

lemma setReader_lowers {index : Nat} {reader reader' : Reader} (hreader : s.readers[index]? = some reader)
    {processing : BoundedProcessingQueue}
    (hless : readerWeight reader' + processing.workQueue.items.length <
      readerWeight reader + s.processing.workQueue.items.length) :
    Lowers ({ s with processing := processing }.setReader index reader') s := by
  have hsum := sum_map_set readerWeight hreader reader'
  left
  simp only [ingressWeight, setReader]
  omega

lemma sendNext_weight (s : Stages σ) (number : Nat) (outputs : List ProcessorOutput) :
    ingressWeight (s.sendNext number outputs).1 = ingressWeight s ∧
      pipelineWeight (s.sendNext number outputs).1 =
        processorWeight s.processor + (s.egressQueue.map (fun batch => batch.outputs.length + 1)).sum +
          outputs.length := by
  have hsame := sendNext_same s number outputs
  have hqueue := (sendNext_account s number outputs).2
  refine ⟨by rw [ingressWeight, hsame.readers, hsame.processing, ingressWeight], ?_⟩
  rw [pipelineWeight, hsame.processor, hqueue]
  cases outputs with
  | nil => rfl
  | cons output rest => rfl

/-- What is left to do when nothing is left, or the processor has raised. -/
def Finished (s : Stages σ) : Prop :=
  (∃ lost, s.processor = .ended lost) ∨
    (∀ (index : Nat) reader, s.readers[index]? = some reader → reader.inbox = [] ∧ reader.state = .waiting) ∧
      s.processing.workQueue.items = [] ∧ s.pending = []

/-- A reader with a frame or an item can go on, itself or behind another one. -/
lemma reader_progress (h : Lively process start s past) (hbalanced : s.processing.Balanced capacity 0)
    (hlegacy : legacyTargetIds.Nodup) (hitems : s.processing.workQueue.items = []) {index : Nat} {reader : Reader}
    (hreader : s.readers[index]? = some reader) (hbusy : ¬ (reader.inbox = [] ∧ reader.state = .waiting))
    (wakes : Nat) :
    ∃ action, IsTaskStep wakes action ∧ Lowers (s.step process legacyTargetIds action).1 s := by
  have hgranted {other : Nat} {inbox : List IngressItem} {frame : IngressFrame}
      (hother : s.readers[other]? = some (Reader.mk inbox (.holding frame true))) {w : Waiter}
      (hw : w ∈ s.processing.slots.waiters) (htask : w.task = other) (hdone : w.future = .done) :
      ∃ action, IsTaskStep wakes action ∧ Lowers (s.step process legacyTargetIds action).1 s := by
    refine ⟨.reader other (.resumeAdmit wakes), rfl, ?_⟩
    obtain ⟨item, hitem⟩ := bindFactory_ok s hlegacy frame
    have hslots := BoundedSemaphore.resume_granted h.slots hw hdone wakes
    rw [htask] at hslots
    have hresume : ∃ result, s.processing.resumeAdmit other wakes (.item item) = some result := by
      unfold resumeAdmit
      rw [hslots]
      exact ⟨_, rfl⟩
    obtain ⟨result, hresult⟩ := hresume
    obtain ⟨houtcome, -, -, hput⟩ := resumeAdmit_calm hbalanced h.slots hresult
    have hafter := Queue.putNowait_items hput
    simp only [Stages.step, hother, readerStep, hitem, hresult, afterAdmit, houtcome]
    apply setReader_lowers hother
    simp [readerWeight, readerStateWeight, hafter, hitems]
  rcases reader with ⟨inbox, state⟩
  cases state with
  | ended lost => exact absurd hreader (h.reading index inbox lost)
  | waiting =>
    cases inbox with
    | nil => exact absurd ⟨rfl, rfl⟩ hbusy
    | cons item inbox =>
      refine ⟨.reader index .read, trivial, ?_⟩
      simp only [Stages.step, hreader, readerStep]
      cases coerceIngressFrame item with
      | none =>
        apply setReader_lowers hreader
        simp only [readerWeight, readerStateWeight, List.length_cons]
        omega
      | some frame =>
        apply setReader_lowers hreader
        simp only [readerWeight, readerStateWeight, List.length_cons]
        omega
  | holding frame admitting =>
    cases admitting with
    | false =>
      refine ⟨.reader index .beginAdmit, trivial, ?_⟩
      have htask := h.not_admitting hreader (by simp)
      obtain ⟨item, hitem⟩ := bindFactory_ok s hlegacy frame
      simp only [Stages.step, hreader, readerStep, hitem]
      rcases beginAdmit_calm hbalanced h.slots htask item with
        ⟨houtcome, -, -, hput⟩ | ⟨houtcome, -, -, hqueue, -⟩
      · have hafter := Queue.putNowait_items hput
        simp only [afterAdmit, houtcome]
        apply setReader_lowers hreader
        simp [readerWeight, readerStateWeight, hafter, hitems]
      · simp only [afterAdmit, houtcome]
        apply setReader_lowers hreader
        simp [readerWeight, readerStateWeight, hqueue]
    | true =>
      have hin := (h.admitting index).mpr ⟨inbox, frame, hreader⟩
      obtain ⟨w, hw, htask⟩ := List.mem_map.mp hin
      cases hfuture : w.future with
      | done => exact hgranted hreader hw htask hfuture
      | cancelled => exact absurd hfuture (h.slots.futures w hw).1
      | pending =>
        -- Somebody waits and the queue is empty, so somebody else has a permit.
        rcases h.woken ⟨w, hw, hfuture⟩ with ⟨v, hv, hdone⟩ | hne
        · have hvin : v.task ∈ s.processing.slots.tasks := List.mem_map_of_mem hv
          obtain ⟨inbox', frame', hother⟩ := (h.admitting v.task).mp hvin
          exact hgranted hother hv rfl hdone
        · exact absurd hitems hne

/-- A `get` that finds an item. -/
lemma afterGet_lowers {result : BoundedProcessingQueue × QueueOutcome} {item : ProcessingWorkItem}
    (houtcome : result.2 = .got item) (hfollows : Follows s.processing result.1 result.2) :
    Lowers (s.afterGet process result).1 s := by
  rw [houtcome] at hfollows
  have htaken : s.processing.workQueue.items = item :: result.1.workQueue.items := hfollows
  have hbeside := handleItem_beside process { s with processing := result.1 } item
  left
  simp only [afterGet, houtcome, ingressWeight]
  rw [hbeside.1.readers, hbeside.2.1, htaken]
  simp

lemma step_progress (h : Lively process start s past)
    (haccount : StagesAccount process legacyTargetIds capacity start initialRouting s past)
    (hlegacy : legacyTargetIds.Nodup) (hbusy : ¬ Finished s) (wakes : Nat) :
    ∃ action, IsTaskStep wakes action ∧ Lowers (s.step process legacyTargetIds action).1 s := by
  have hbalanced := haccount.ingress.balanced
  have hphase := haccount.pipeline.phase
  cases hphase with
  | ended lost hended => exact absurd (.inl ⟨lost, hended⟩) hbusy
  | settled number completion hprocessor hsettled hresult =>
    obtain rfl := h.completions number completion hsettled
    refine ⟨.processor .resume, trivial, .inr ?_⟩
    simp only [Stages.step, processorStep, hprocessor, hsettled]
    refine ⟨rfl, ?_⟩
    simp only [pipelineWeight, hprocessor, processorWeight]
    omega
  | sending number output rest hprocessor hqueue hegress hopen =>
    refine ⟨.egress .sendReturns, trivial, .inr ?_⟩
    have hstep : (s.egressStep .sendReturns).1 =
        ({ s with metrics := s.metrics.outputCompleted }.sendNext number rest).1 := by
      simp only [egressStep, hegress]
    obtain ⟨hingress, hpipeline⟩ := sendNext_weight { s with metrics := s.metrics.outputCompleted } number rest
    rw [Stages.step, hstep, hpipeline]
    refine ⟨hingress, ?_⟩
    simp only [pipelineWeight, hegress, egressWeight]
    omega
  | queued number outputs hprocessor hqueue hegress hopen =>
    refine ⟨.egress .fetch, trivial, .inr ?_⟩
    have hidle : s.egress = .idle := by
      cases hstage : s.egress with
      | idle => rfl
      | sending number output rest =>
        rw [hstage] at hegress
        cases hegress
      | ended lost => exact absurd hstage (h.egress lost)
    have hstep : (s.egressStep .fetch).1 =
        ({ s with egressQueue := [], metrics := s.metrics.batchStarted }.sendNext number outputs).1 := by
      simp only [egressStep, hidle, hqueue]
    obtain ⟨hingress, hpipeline⟩ :=
      sendNext_weight { s with egressQueue := [], metrics := s.metrics.batchStarted } number outputs
    rw [Stages.step, hstep, hpipeline]
    refine ⟨hingress, ?_⟩
    simp [pipelineWeight, hidle, egressWeight, hqueue]
  | free hprocessor hqueue hegress =>
    rcases hprocessor with hidle | htaking
    · refine ⟨.processor .take, trivial, ?_⟩
      have hgets := Queue.takeOrWait_gets s.processing.workQueue processorTask
      have hfollows := (deliver_spec hbalanced hgets).2
      simp only [Stages.step, processorStep, hidle, BoundedProcessingQueue.get]
      rcases Queue.takeOrWait_idle (h.idle (by rw [hidle]; simp)) processorTask with
        ⟨hitems, -, hresult⟩ | ⟨item, -, hresult⟩
      · have hafter :
            (s.processing.workQueue.takeOrWait processorTask).1.items = s.processing.workQueue.items := by
          rw [hresult] at hfollows
          exact hfollows
        rw [hresult]
        simp only [deliver, afterGet]
        right
        refine ⟨by simp only [ingressWeight, hafter], ?_⟩
        simp only [pipelineWeight, hidle, processorWeight]
        omega
      · rw [hresult] at hfollows ⊢
        exact afterGet_lowers (deliver_calm h.slots hfollows).1 hfollows
    · rcases Queue.resume_parked (h.parked htaking) with ⟨hitems, -⟩ | ⟨item, workQueue, hresume, -⟩
      · have hreaders : ∃ (index : Nat) (reader : Reader), s.readers[index]? = some reader ∧
            ¬ (reader.inbox = [] ∧ reader.state = .waiting) := by
          by_contra hnone
          apply hbusy
          right
          refine ⟨?_, hitems, ?_⟩
          · intro index reader hreader
            by_contra hother
            exact hnone ⟨index, reader, hreader, hother⟩
          · simp [pending, hqueue, hegress, htaking, processorPending]
        obtain ⟨index, reader, hreader, hother⟩ := hreaders
        exact reader_progress h hbalanced hlegacy hitems hreader hother wakes
      · refine ⟨.processor .resumeTake, trivial, ?_⟩
        have hfollows := (deliver_spec hbalanced (Queue.resume_gets hresume)).2
        simp only [Stages.step, processorStep, htaking, resumeGet, hresume, Option.map_some]
        exact afterGet_lowers (deliver_calm h.slots hfollows).1 hfollows

lemma drain (h : Lively process start s past)
    (haccount : StagesAccount process legacyTargetIds capacity start initialRouting s past)
    (hlegacy : legacyTargetIds.Nodup) (wakes : Nat) :
    ∃ more, (∀ action ∈ more, IsTaskStep wakes action) ∧ Finished (s.run process legacyTargetIds more).1 := by
  -- The frames on their way come first, then the outputs: an item makes any number of them.
  induction hingress : ingressWeight s using Nat.strong_induction_on generalizing s past with
  | _ ingress ihIngress =>
    induction hpipeline : pipelineWeight s using Nat.strong_induction_on generalizing s past with
    | _ pipeline ihPipeline =>
      by_cases hdone : Finished s
      · exact ⟨[], by simp, hdone⟩
      · obtain ⟨action, hstep, hlowers⟩ := step_progress h haccount hlegacy hdone wakes
        have hnext := h.step haccount hlegacy hstep.isCalm
        have hrest : ∃ more, (∀ action ∈ more, IsTaskStep wakes action) ∧
            Finished ((s.step process legacyTargetIds action).1.run process legacyTargetIds more).1 := by
          rcases hlowers with hless | ⟨hsame, hless⟩
          · exact ihIngress _ (hingress ▸ hless) hnext (haccount.step action) rfl
          · exact ihPipeline _ (hpipeline ▸ hless) hnext (haccount.step action) (hsame.trans hingress) rfl
        obtain ⟨more, hmore, hfinished⟩ := hrest
        refine ⟨action :: more, ?_, hfinished⟩
        intro other hother
        rcases List.mem_cons.mp hother with rfl | hother
        · exact hstep
        · exact hmore other hother

/-- What the events tell when nothing is left to do. -/
lemma finished_events (h : Lively process start s past)
    (haccount : StagesAccount process legacyTargetIds capacity start initialRouting s past)
    (hfinished : Finished s) :
    pipelineEvents past = serialRun process start (processedItems past) ∧
      (serialState process start (processedItems past) = none ∨
        boundItems past = processedItems past ∧
          ∀ index reader, s.readers[index]? = some reader →
            (arrivedAt index past).filterMap coerceIngressFrame =
              (boundBy index past).map ProcessingWorkItem.frame) := by
  have hsent := haccount.pipeline.account
  rcases hfinished with ⟨lost, hended⟩ | ⟨hreaders, hitems, hpending⟩
  · obtain ⟨hraised, hpending⟩ := h.processor lost hended
    rw [hpending, List.append_nil] at hsent
    exact ⟨hsent, .inl hraised⟩
  · rw [hpending, List.append_nil] at hsent
    have hqueued := haccount.ingress.queued
    rw [hitems, List.append_nil] at hqueued
    refine ⟨hsent, .inr ⟨hqueued, ?_⟩⟩
    intro index reader hreader
    obtain ⟨hinbox, hstate⟩ := hreaders index reader hreader
    have hframes := haccount.ingress.readers index reader hreader
    rw [hinbox, hstate, heldFrames, List.append_nil, List.filterMap_nil, List.append_nil] at hframes
    exact hframes

variable (process legacyTargetIds) (readers : Nat) (routing : Option RoutingState)
  (processingMaxsize egressMaxsize : ℕ+) (start : σ)

/-- From every state that a schedule without cancellations and failed sends reaches, the tasks can go on by
themselves, whatever the number of waiters that a resumed `acquire` wakes, until every frame that arrived is
bound, every bound item is processed and every output is sent, or the processor has raised, with every
output before that sent. -/
theorem stages_drain (hlegacy : legacyTargetIds.Nodup) (actions : List StageAction)
    (hcalm : ∀ action ∈ actions, IsCalm action) (wakes : Nat) :
    ∃ more, (∀ action ∈ more, IsTaskStep wakes action) ∧
      let events := ((new readers routing processingMaxsize egressMaxsize start).run process legacyTargetIds
        (actions ++ more)).2
      pipelineEvents events = serialRun process start (processedItems events) ∧
        (serialState process start (processedItems events) = none ∨
          boundItems events = processedItems events ∧
            ∀ index < readers, (arrivedAt index events).filterMap coerceIngressFrame =
              (boundBy index events).map ProcessingWorkItem.frame) := by
  have haccount := stagesAccount_run process legacyTargetIds readers routing processingMaxsize egressMaxsize
    start actions
  have hlively : Lively process start _ _ :=
    (lively_new readers routing processingMaxsize egressMaxsize).run
      (stagesAccount_new readers routing processingMaxsize egressMaxsize start) hlegacy hcalm
  obtain ⟨more, hmore, hfinished⟩ := drain hlively haccount hlegacy wakes
  refine ⟨more, hmore, ?_⟩
  have hlast := haccount.run more
  have hend := hlively.run haccount hlegacy (fun action haction => (hmore action haction).isCalm)
  have hreader (index : Nat) (hindex : index < readers) := exists_reader process legacyTargetIds readers routing
    processingMaxsize egressMaxsize start (actions ++ more) hindex
  rw [run_append] at hreader ⊢
  simp only [List.nil_append] at hend
  intro events
  obtain ⟨hsent, hall⟩ := finished_events hend hlast hfinished
  refine ⟨hsent, ?_⟩
  rcases hall with hraised | ⟨hbound, hframes⟩
  · exact .inl hraised
  · refine .inr ⟨hbound, ?_⟩
    intro index hindex
    obtain ⟨reader, hfound⟩ := hreader index hindex
    exact hframes index reader hfound

/-- A processor that hands every frame on and counts them. -/
def relay (calls : Nat) (item : ProcessingWorkItem) : Nat × Except PyException (List ProcessorOutput) :=
  (calls + 1, .ok [⟨item.frame.payload, item.snapshot.targetIds⟩])

/-- Two readers that compete for the one place of the processing queue. -/
def rivals : List StageAction :=
  let frame (source : PyStr) : IngressFrame :=
    ⟨str "udp", source, none, none, source, ascii "!AIVDM", .utf8Ignore⟩
  [.reader 0 (.arrive (.frame (frame (str "a")))), .reader 1 (.arrive (.frame (frame (str "b")))),
    .reader 0 .read, .reader 1 .read, .reader 1 .beginAdmit, .reader 0 .beginAdmit]

theorem stages_drain_rivals :
    ∃ more, (∀ action ∈ more, IsTaskStep 0 action) ∧
      let events := ((new 2 none 1 1 0).run relay [0] (rivals ++ more)).2
      pipelineEvents events = serialRun relay 0 (processedItems events) ∧
        (serialState relay 0 (processedItems events) = none ∨
          boundItems events = processedItems events ∧
            ∀ index < 2, (arrivedAt index events).filterMap coerceIngressFrame =
              (boundBy index events).map ProcessingWorkItem.frame) :=
  stages_drain relay [0] 2 none 1 1 0 (by decide) rivals (by simp [rivals, IsCalm]) 0

end Progress

end Stages

end AisMixer.Runtime

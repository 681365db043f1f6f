import AisMixer.Runtime.StageProgress

/-!
# The stages as one pipeline

Every frame of an input queue is processed once and in the order of its queue, and no item is processed
before all outputs of the items before it are sent. When nobody is cancelled and no send fails, the tasks
come to rest only when that is done for all frames, or the processor has raised.
-/

namespace AisMixer.Runtime.Stages

open AisMixer.Library AisMixer.Library.Asyncio AisMixer.Routing

variable {σ : Type}

/-! ### What was handed on -/

section Handed

/-- The bound items, each with the reader that bound it. -/
def bindings (events : List StageEvent) : List (Nat × ProcessingWorkItem) :=
  events.filterMap (fun | .bound index item => some (index, item) | _ => none)

/-- The items that were processed, each with its reader. -/
def handed (events : List StageEvent) : List (Nat × ProcessingWorkItem) :=
  (bindings events).take (processedItems events).length

/-- The processed frames of one reader. -/
def handedBy (index : Nat) (events : List StageEvent) : List IngressFrame :=
  (handed events).filterMap (fun b => if b.1 = index then some b.2.frame else none)

/-- What the calls of the processor returned. -/
def processedOutputs (events : List StageEvent) : List ProcessorOutput :=
  events.flatMap (fun | .processed _ outputs => outputs | _ => [])

variable {events later : List StageEvent} {waiting : List ProcessingWorkItem}

lemma boundItems_eq (events : List StageEvent) : boundItems events = (bindings events).map Prod.snd := by
  unfold boundItems bindings
  rw [List.map_filterMap]
  congr 1
  funext event
  cases event <;> rfl

lemma boundBy_eq (index : Nat) (events : List StageEvent) :
    boundBy index events = (bindings events).filterMap (fun b => if b.1 = index then some b.2 else none) := by
  unfold boundBy bindings
  rw [List.filterMap_filterMap]
  congr 1
  funext event
  cases event <;> rfl

/-- The processing queue keeps the order, so the processed items are the first ones that were bound. -/
lemma handed_items (h : boundItems events = processedItems events ++ waiting) :
    (handed events).map Prod.snd = processedItems events := by
  rw [handed, List.map_take, ← boundItems_eq, h, List.take_left]

lemma handed_all (h : boundItems events = processedItems events) : handed events = bindings events := by
  have hlength : (processedItems events).length = (bindings events).length := by
    rw [← h, boundItems_eq, List.length_map]
  rw [handed, hlength, List.take_length]

lemma boundBy_frames (index : Nat) (events : List StageEvent) :
    (boundBy index events).map ProcessingWorkItem.frame =
      (bindings events).filterMap (fun b => if b.1 = index then some b.2.frame else none) := by
  rw [boundBy_eq, List.map_filterMap]
  congr 1
  funext b
  by_cases hindex : b.1 = index
  · simp [hindex]
  · simp [hindex]

lemma handedBy_initial (index : Nat) (events : List StageEvent) :
    handedBy index events <+: (boundBy index events).map ProcessingWorkItem.frame := by
  rw [boundBy_frames, handedBy, handed]
  exact (List.take_prefix _ _).filterMap _

@[simp] lemma processedOutputs_append (events later : List StageEvent) :
    processedOutputs (events ++ later) = processedOutputs events ++ processedOutputs later :=
  List.flatMap_append

@[simp] lemma processedOutputs_sends (outputs : List ProcessorOutput) :
    processedOutputs (sends outputs) = [] := by
  induction outputs with
  | nil => rfl
  | cons output rest ih => exact ih

lemma processedOutputs_pipeline (events : List StageEvent) :
    processedOutputs (pipelineEvents events) = processedOutputs events := by
  induction events with
  | nil => rfl
  | cons event events ih =>
    cases event with
    | processed item outputs => exact congrArg (outputs ++ ·) ih
    | _ => exact ih

end Handed

/-! ### One item at a time -/

section OneByOne

variable {process : σ → ProcessingWorkItem → σ × Except PyException (List ProcessorOutput)}

/-- At each call of the processor all outputs of the calls before it are sent, and nothing else. -/
def OneByOne (events : List StageEvent) : Prop :=
  ∀ before item outputs after, events = before ++ .processed item outputs :: after →
    sendingOutputs before = processedOutputs before ∧ sentOutputs before = processedOutputs before

/-- The one task sends all that it is given. -/
lemma serialRun_sends (state : σ) (items : List ProcessingWorkItem) :
    sendingOutputs (serialRun process state items) = processedOutputs (serialRun process state items) ∧
      sentOutputs (serialRun process state items) = processedOutputs (serialRun process state items) := by
  induction items generalizing state with
  | nil => exact ⟨rfl, rfl⟩
  | cons item items ih =>
    rw [serialRun]
    rcases process state item with ⟨next, result⟩
    cases result with
    | error e => exact ⟨rfl, rfl⟩
    | ok outputs =>
      obtain ⟨hsending, hsent⟩ := ih next
      have hcons : (.processed item outputs :: sends outputs ++ serialRun process next items) =
          [.processed item outputs] ++ sends outputs ++ serialRun process next items := rfl
      have hfirst : processedOutputs [.processed item outputs] = outputs := List.append_nil outputs
      have hnosending : sendingOutputs [.processed item outputs] = [] := rfl
      have hnosent : sentOutputs [.processed item outputs] = [] := rfl
      constructor
      · simp only [hcons, sendingOutputs_append, processedOutputs_append, sendingOutputs_sends,
          processedOutputs_sends, hfirst, hnosending, hsending, List.nil_append, List.append_nil]
      · simp only [hcons, sentOutputs_append, processedOutputs_append, sentOutputs_sends,
          processedOutputs_sends, hfirst, hnosent, hsent, List.nil_append, List.append_nil]

lemma processed_not_mem_sends (item : ProcessingWorkItem) (outputs made : List ProcessorOutput) :
    StageEvent.processed item made ∉ sends outputs := by
  intro hmem
  obtain ⟨output, -, hevent⟩ := List.mem_flatMap.mp hmem
  simp at hevent

/-- The one task does one item at a time. -/
lemma serialRun_oneByOne (state : σ) (items : List ProcessingWorkItem) :
    OneByOne (serialRun process state items) := by
  induction items generalizing state with
  | nil =>
    intro before item outputs after h
    simp [serialRun] at h
  | cons item items ih =>
    intro before item' outputs' after h
    rw [serialRun] at h
    rcases hprocess : process state item with ⟨next, result⟩
    rw [hprocess] at h
    cases before with
    | nil => exact ⟨rfl, rfl⟩
    | cons first before =>
      cases result with
      | error e =>
        have hrest := (List.cons.inj h).2
        simp at hrest
      | ok outputs =>
        obtain ⟨rfl, hrest⟩ := List.cons.inj h
        have hbatch : ∃ done, before = sends outputs ++ done ∧
            serialRun process next items = done ++ .processed item' outputs' :: after := by
          rcases List.append_eq_append_iff.mp hrest with ⟨done, hbefore, hlater⟩ | ⟨left, hsends, hlater⟩
          · exact ⟨done, hbefore, hlater⟩
          · cases left with
            | nil => exact ⟨[], by rw [hsends, List.append_nil, List.append_nil], hlater.symm⟩
            | cons event left =>
              obtain ⟨rfl, -⟩ := List.cons.inj hlater
              apply absurd _ (processed_not_mem_sends item' outputs outputs')
              rw [hsends]
              simp
        obtain ⟨done, rfl, hlater⟩ := hbatch
        obtain ⟨hsending, hsent⟩ := ih next done item' outputs' after hlater
        have hcons : (.processed item outputs :: (sends outputs ++ done)) =
            [.processed item outputs] ++ sends outputs ++ done := rfl
        have hfirst : processedOutputs [.processed item outputs] = outputs := List.append_nil outputs
        have hnosending : sendingOutputs [.processed item outputs] = [] := rfl
        have hnosent : sentOutputs [.processed item outputs] = [] := rfl
        constructor
        · simp only [hcons, sendingOutputs_append, processedOutputs_append, sendingOutputs_sends,
            processedOutputs_sends, hfirst, hnosending, hsending, List.nil_append, List.append_nil]
        · simp only [hcons, sentOutputs_append, processedOutputs_append, sentOutputs_sends,
            processedOutputs_sends, hfirst, hnosent, hsent, List.nil_append, List.append_nil]

lemma processedOutputs_pending (s : Stages σ) : processedOutputs s.pending = [] := by
  have hegress : processedOutputs (egressPending s.egress) = [] := by
    cases s.egress with
    | idle => rfl
    | sending number output rest => exact processedOutputs_sends rest
    | ended lost =>
      cases lost with
      | nil => rfl
      | cons output rest => exact processedOutputs_sends rest
  have hqueue : processedOutputs (s.egressQueue.flatMap (fun batch => sends batch.outputs)) = [] := by
    induction s.egressQueue with
    | nil => rfl
    | cons batch batches ih => rw [List.flatMap_cons, processedOutputs_append, processedOutputs_sends, ih]; rfl
  have hprocessor : processedOutputs (processorPending s.processor) = [] := by
    cases s.processor with
    | putting batch => exact processedOutputs_sends batch.outputs
    | ended lost => exact processedOutputs_sends lost
    | _ => rfl
  rw [pending, processedOutputs_append, processedOutputs_append, hegress, hqueue, hprocessor]
  rfl

lemma OneByOne.of_pipeline {all events : List StageEvent} (h : OneByOne all)
    (hbegun : pipelineEvents events <+: all) : OneByOne events := by
  intro before item outputs after hsplit
  obtain ⟨rest, hrest⟩ := hbegun
  have hpipeline : pipelineEvents (.processed item outputs :: after) =
      .processed item outputs :: pipelineEvents after := rfl
  rw [hsplit, pipelineEvents_append, hpipeline, List.append_assoc, List.cons_append] at hrest
  have hbefore := h _ item outputs _ hrest.symm
  rw [sendingOutputs_pipeline, sentOutputs_pipeline, processedOutputs_pipeline] at hbefore
  exact hbefore

end OneByOne

/-! ### The hand-off -/

section Handoff

variable (process : σ → ProcessingWorkItem → σ × Except PyException (List ProcessorOutput))
  (legacyTargetIds : List Nat) (readers : Nat) (routing : Option RoutingState) (start : σ)

/-- What the events of a schedule tell: the calls of the processor are for the frames of each queue in their
order, each when the outputs before it are sent, and with the routing at the moment of the binding. -/
structure InOrder (events : List StageEvent) : Prop where
  calls : pipelineEvents events <+: serialRun process start (processedItems events)
  handed : (handed events).map Prod.snd = processedItems events
  queues : ∀ index < readers, handedBy index events <+: (arrivedAt index events).filterMap coerceIngressFrame
  oneByOne : OneByOne events
  sends : sendingOutputs events <+: processedOutputs events
  bound : ∀ before after index item, events = before ++ .bound index item :: after →
    IsBoundTo legacyTargetIds (routingAfter routing before) item
  generations : (processedItems events).Pairwise (fun item later =>
    item.snapshot.routingGeneration ≤ later.snapshot.routingGeneration)

/-- Every frame is processed and every output sent, or the processor has raised, with every output before
that sent. -/
structure AllDone (events : List StageEvent) : Prop where
  sending : sendingOutputs events = processedOutputs events
  sent : sentOutputs events = processedOutputs events
  frames : serialState process start (processedItems events) = none ∨
    ∀ index < readers, handedBy index events = (arrivedAt index events).filterMap coerceIngressFrame

variable {process legacyTargetIds readers routing start} {s : Stages σ} {past : List StageEvent} {capacity : ℕ+}

lemma StagesAccount.inOrder (h : StagesAccount process legacyTargetIds capacity start routing s past)
    (hlength : s.readers.length = readers) : InOrder process legacyTargetIds readers routing start past where
  calls := ⟨_, h.pipeline.account⟩
  handed := handed_items h.ingress.queued
  queues := by
    intro index hindex
    have hreader : s.readers[index]? = some s.readers[index] := List.getElem?_eq_getElem (hlength ▸ hindex)
    rw [h.ingress.readers index _ hreader, List.append_assoc]
    exact (handedBy_initial index past).trans (List.prefix_append _ _)
  oneByOne := (serialRun_oneByOne start (processedItems past)).of_pipeline ⟨_, h.pipeline.account⟩
  sends := by
    have hserial := (@serialRun_sends _ process start (processedItems past)).1
    rw [← h.pipeline.account, sendingOutputs_append, sendingOutputs_pipeline, processedOutputs_append,
      processedOutputs_pipeline, processedOutputs_pending, List.append_nil] at hserial
    exact ⟨_, hserial⟩
  bound := fun before after index item hsplit => h.trace.bound hsplit
  generations := by
    have hpairwise := h.trace.generations.2
    rw [h.ingress.queued, List.pairwise_append] at hpairwise
    exact hpairwise.1

lemma StagesAccount.allDone (h : StagesAccount process legacyTargetIds capacity start routing s past)
    (hlively : Lively process start s past) (hlength : s.readers.length = readers) (hfinished : Finished s) :
    AllDone process readers start past := by
  obtain ⟨hsent, hall⟩ := finished_events hlively h hfinished
  have hserial := @serialRun_sends _ process start (processedItems past)
  rw [← hsent, sendingOutputs_pipeline, sentOutputs_pipeline, processedOutputs_pipeline] at hserial
  refine ⟨hserial.1, hserial.2, ?_⟩
  rcases hall with hraised | ⟨hbound, hframes⟩
  · exact .inl hraised
  · right
    intro index hindex
    have hreader : s.readers[index]? = some s.readers[index] := List.getElem?_eq_getElem (hlength ▸ hindex)
    rw [hframes index _ hreader, boundBy_frames, handedBy, handed_all hbound]

variable (process legacyTargetIds readers routing start) (processingMaxsize egressMaxsize : ℕ+)

/-- In every schedule without cancellations and failed sends the frames of each queue are processed in their
order and one after another with all their sends between. When no task can do anything, all of it is done, or
the processor has raised; and the tasks can always get there by themselves. -/
theorem ordered_handoff (hlegacy : legacyTargetIds.Nodup) (actions : List StageAction)
    (hcalm : ∀ action ∈ actions, IsCalm action) (wakes : Nat) :
    let first := new readers routing processingMaxsize egressMaxsize start
    let last := first.run process legacyTargetIds actions
    InOrder process legacyTargetIds readers routing start last.2 ∧
      ((∀ action, IsTaskStep wakes action → (last.1.step process legacyTargetIds action).1 = last.1) →
        AllDone process readers start last.2) ∧
      ∃ more, (∀ action ∈ more, IsTaskStep wakes action) ∧
        AllDone process readers start (first.run process legacyTargetIds (actions ++ more)).2 := by
  intro first last
  have hnew : StagesAccount process legacyTargetIds processingMaxsize start routing first [] :=
    stagesAccount_new readers routing processingMaxsize egressMaxsize start
  have haccount : StagesAccount process legacyTargetIds processingMaxsize start routing last.1 last.2 :=
    hnew.run actions
  have hlively : Lively process start last.1 last.2 :=
    (lively_new readers routing processingMaxsize egressMaxsize).run hnew hlegacy hcalm
  have hfirst : first.readers.length = readers := List.length_replicate
  have hlength : last.1.readers.length = readers := (hnew.run_length actions).trans hfirst
  refine ⟨haccount.inOrder hlength, ?_, ?_⟩
  · intro hrest
    apply haccount.allDone hlively hlength
    by_contra hbusy
    obtain ⟨action, htask, hlowers⟩ := step_progress hlively haccount hlegacy hbusy wakes
    rw [hrest action htask] at hlowers
    rcases hlowers with hless | ⟨-, hless⟩
    · exact lt_irrefl _ hless
    · exact lt_irrefl _ hless
  · obtain ⟨more, hmore, hfinished⟩ := drain hlively haccount hlegacy wakes
    refine ⟨more, hmore, ?_⟩
    have hend := hlively.run haccount hlegacy (fun action haction => (hmore action haction).isCalm)
    have hlater := (haccount.run_length more).trans hlength
    rw [run_append]
    exact (haccount.run more).allDone hend hlater hfinished

/-- Both rivals are served. -/
theorem ordered_handoff_rivals :
    let first := new 2 none 1 1 0
    InOrder relay [0] 2 none 0 (first.run relay [0] rivals).2 ∧
      ∃ more, (∀ action ∈ more, IsTaskStep 0 action) ∧
        AllDone relay 2 0 (first.run relay [0] (rivals ++ more)).2 := by
  obtain ⟨horder, -, hdone⟩ :=
    ordered_handoff relay [0] 2 none 0 1 1 (by decide) rivals (by simp [rivals, IsCalm]) 0
  exact ⟨horder, hdone⟩

end Handoff

end AisMixer.Runtime.Stages

import AisMixer.Runtime.Pipeline

/-!
# Every schedule of the stages

Frames, routing and counters over whole runs: no frame is lost or taken twice, every work item has the
routing of the moment in which it entered the processing queue, and no schedule shows in what is sent.
-/

namespace AisMixer.Runtime.Stages

open AisMixer.Library AisMixer.Library.Asyncio AisMixer.Routing BoundedProcessingQueue

variable {σ : Type}

/-! ### The readers and the processing queue -/

/-- The frames that a reader has taken from its queue and not handed on. -/
def heldFrames : ReaderState → List IngressFrame
  | .waiting => []
  | .holding frame _ => [frame]
  | .ended lost => lost.toList

/-- Every frame that arrived is with its reader, in the processing queue or processed. -/
structure IngressAccount (capacity : ℕ+) (s : Stages σ) (past : List StageEvent) : Prop where
  balanced : s.processing.Balanced capacity 0
  queued : boundItems past = processedItems past ++ s.processing.workQueue.items
  readers : ∀ index reader, s.readers[index]? = some reader →
    (arrivedAt index past).filterMap coerceIngressFrame =
      (boundBy index past).map ProcessingWorkItem.frame ++ heldFrames reader.state ++
        reader.inbox.filterMap coerceIngressFrame

/-- What an outcome of `admit` says about the factory. -/
def IsAdmission (factory : FactoryResult) : QueueOutcome → Prop
  | .waits => True
  | .admitted item => factory = .item item
  | .got _ => False
  | .raised _ => True

section Admission

variable {q : BoundedProcessingQueue} {factory : FactoryResult}

lemma releaseAndRaise_isAdmission (error : QueueError) :
    IsAdmission factory (q.releaseAndRaise error).2 := by
  unfold releaseAndRaise
  split <;> trivial

lemma bindAndEnqueue_isAdmission : IsAdmission factory (q.bindAndEnqueue factory).2 := by
  cases factory with
  | raises => exact releaseAndRaise_isAdmission .factory
  | notAWorkItem => exact releaseAndRaise_isAdmission .typeError
  | item item =>
    simp only [bindAndEnqueue]
    cases q.workQueue.putNowait item with
    | none => exact releaseAndRaise_isAdmission .queueFull
    | some workQueue => exact rfl

lemma beginAdmit_isAdmission (task : Nat) : IsAdmission factory (q.beginAdmit task factory).2 := by
  unfold beginAdmit
  cases q.slots.locked with
  | false =>
    simp only [Bool.false_eq_true, if_false]
    split
    · exact bindAndEnqueue_isAdmission
    · trivial
  | true =>
    simp only [if_true]
    split
    · exact bindAndEnqueue_isAdmission
    · trivial

lemma resumeAdmit_isAdmission {task wakes : Nat} {result : BoundedProcessingQueue × QueueOutcome}
    (h : q.resumeAdmit task wakes factory = some result) : IsAdmission factory result.2 := by
  obtain ⟨⟨slots, acquired⟩, -, rfl⟩ := Option.map_eq_some_iff.mp h
  cases acquired with
  | true => exact bindAndEnqueue_isAdmission
  | false => trivial

end Admission

/-- What the routing of the moment says about a work item. -/
structure IsBoundTo (legacyTargetIds : List Nat) (routing : Option RoutingState) (item : ProcessingWorkItem) :
    Prop where
  generation : item.snapshot.routingGeneration = routing.elim 0 (fun state => state.snapshot.generation)
  unrouted : routing.bind (fun state => state.snapshot.table) = none →
    item.snapshot.deduplicationMode = .global ∧ item.snapshot.targetIds = legacyTargetIds
  routed : ∀ table, routing.bind (fun state => state.snapshot.table) = some table →
    item.snapshot.deduplicationMode = .perTarget ∧
      table.matchTargetIds item.frame.sourceId = .ok item.snapshot.targetIds

lemma makeProcessingSnapshot_eq_ok {generation : Nat} {mode : DeduplicationMode} {targetIds : List Nat}
    {snapshot : ProcessingSnapshot} (h : makeProcessingSnapshot generation mode targetIds = .ok snapshot) :
    snapshot.routingGeneration = generation ∧ snapshot.deduplicationMode = mode ∧
      snapshot.targetIds = targetIds := by
  unfold makeProcessingSnapshot at h
  split at h
  · obtain rfl := Except.ok.inj h
    exact ⟨rfl, rfl, rfl⟩
  · cases h

lemma bind_spec {frame : IngressFrame} {routing : Option RoutingState} {legacyTargetIds : List Nat}
    {item : ProcessingWorkItem} (h : bindProcessingWorkItem frame routing legacyTargetIds = .ok item) :
    item.frame = frame ∧ IsBoundTo legacyTargetIds routing item := by
  have hmade {generation : Nat} {mode : DeduplicationMode} {ids : List Nat}
      (hmake : (makeProcessingSnapshot generation mode ids >>= fun snapshot => pure ⟨frame, snapshot⟩) =
        .ok item) :
      item.frame = frame ∧ item.snapshot.routingGeneration = generation ∧
        item.snapshot.deduplicationMode = mode ∧ item.snapshot.targetIds = ids := by
    obtain ⟨snapshot, hsnapshot, hitem⟩ := bind_eq_ok_iff.mp hmake
    obtain rfl := Except.ok.inj hitem
    exact ⟨rfl, makeProcessingSnapshot_eq_ok hsnapshot⟩
  cases routing with
  | none =>
    obtain ⟨hframe, hgeneration, hmode, hids⟩ := hmade h
    exact ⟨hframe, hgeneration, fun _ => ⟨hmode, hids⟩, by simp⟩
  | some state =>
    simp only [bindProcessingWorkItem] at h
    cases htable : state.snapshot.table with
    | none =>
      rw [htable] at h
      obtain ⟨hframe, hgeneration, hmode, hids⟩ := hmade h
      exact ⟨hframe, hgeneration, fun _ => ⟨hmode, hids⟩, by simp [htable]⟩
    | some table =>
      rw [htable] at h
      obtain ⟨ids, hmatch, hmake⟩ := bind_eq_ok_iff.mp h
      obtain ⟨hframe, hgeneration, hmode, hids⟩ := hmade hmake
      refine ⟨hframe, hgeneration, by simp [htable], ?_⟩
      intro other heq
      have hsame : table = other := by simpa [htable] using heq
      rw [← hsame, hframe, hids]
      exact ⟨hmode, hmatch⟩

lemma bindFactory_item {s : Stages σ} {legacyTargetIds : List Nat} {frame : IngressFrame}
    {item : ProcessingWorkItem} (h : s.bindFactory legacyTargetIds frame = .item item) :
    bindProcessingWorkItem frame s.routing legacyTargetIds = .ok item := by
  unfold bindFactory at h
  split at h
  · cases h
  · next bound hbind =>
    obtain rfl := FactoryResult.item.inj h
    exact hbind

section Ingress

variable {s : Stages σ} {capacity : ℕ+} {past : List StageEvent} {legacyTargetIds : List Nat}

lemma IngressAccount.setReader (h : IngressAccount capacity s past) {index : Nat} {reader reader' : Reader}
    {events : List StageEvent} {processing : BoundedProcessingQueue} (hreader : s.readers[index]? = some reader)
    (hbalanced : processing.Balanced capacity 0)
    (hqueued : s.processing.workQueue.items ++ boundItems events = processing.workQueue.items)
    (hprocessed : processedItems events = [])
    (hothers : ∀ other, other ≠ index → arrivedAt other events = [] ∧ boundBy other events = [])
    (hown : heldFrames reader.state ++ reader.inbox.filterMap coerceIngressFrame ++
        (arrivedAt index events).filterMap coerceIngressFrame =
      (boundBy index events).map ProcessingWorkItem.frame ++ heldFrames reader'.state ++
        reader'.inbox.filterMap coerceIngressFrame) :
    IngressAccount capacity ({ s with processing := processing }.setReader index reader') (past ++ events) where
  balanced := hbalanced
  queued := by
    rw [boundItems_append, processedItems_append, hprocessed, List.append_nil, h.queued, List.append_assoc,
      hqueued]
    rfl
  readers := by
    intro other found hfound
    have hlength : index < s.readers.length := (List.getElem?_eq_some_iff.mp hreader).1
    by_cases heq : other = index
    · subst heq
      have hset : ({ s with processing := processing }.setReader other reader').readers[other]? = some reader' :=
        List.getElem?_set_self hlength
      rw [hset] at hfound
      obtain rfl := Option.some.inj hfound
      have hbefore := h.readers other reader hreader
      rw [arrivedAt_append, List.filterMap_append, hbefore, boundBy_append, List.map_append]
      simp only [List.append_assoc] at hown ⊢
      rw [hown]
    · obtain ⟨harrived, hbound⟩ := hothers other heq
      have hset : ({ s with processing := processing }.setReader index reader').readers[other]? =
          s.readers[other]? := List.getElem?_set_ne (Ne.symm heq)
      rw [hset] at hfound
      rw [arrivedAt_append, boundBy_append, harrived, hbound, List.append_nil, List.append_nil]
      exact h.readers other found hfound

lemma IngressAccount.setProcessing (h : IngressAccount capacity s past) {processing : BoundedProcessingQueue}
    (hbalanced : processing.Balanced capacity 0)
    (hitems : processing.workQueue.items = s.processing.workQueue.items) :
    IngressAccount capacity { s with processing := processing } past where
  balanced := hbalanced
  queued := by
    rw [hitems]
    exact h.queued
  readers := h.readers

lemma afterAdmit_ingress (h : IngressAccount capacity s past) {index : Nat} {inbox : List IngressItem}
    {frame : IngressFrame} {admitting : Bool}
    (hreader : s.readers[index]? = some ⟨inbox, .holding frame admitting⟩)
    {admission : BoundedProcessingQueue × QueueOutcome} (hbalanced : admission.1.Balanced capacity 0)
    (hfollows : Follows s.processing admission.1 admission.2)
    (hadmission : IsAdmission (s.bindFactory legacyTargetIds frame) admission.2) :
    IngressAccount capacity (s.afterAdmit index inbox frame admission).1
      (past ++ (s.afterAdmit index inbox frame admission).2) := by
  rcases admission with ⟨processing, outcome⟩
  cases outcome with
  | waits =>
    have hitems : processing.workQueue.items = s.processing.workQueue.items := hfollows
    exact h.setReader hreader hbalanced ((List.append_nil _).trans hitems.symm) rfl
      (fun _ _ => ⟨rfl, rfl⟩) (List.append_nil _)
  | admitted item =>
    have hitems : processing.workQueue.items = s.processing.workQueue.items ++ [item] := hfollows
    have hframe : item.frame = frame := (bind_spec (bindFactory_item hadmission)).1
    have hothers (other : Nat) (hne : other ≠ index) :
        arrivedAt other [.bound index item] = [] ∧ boundBy other [.bound index item] = [] := by
      simp [arrivedAt, boundBy, hne.symm]
    refine h.setReader hreader hbalanced hitems.symm rfl hothers ?_
    simp [arrivedAt, boundBy, heldFrames, afterAdmit, hframe]
  | got item => exact hadmission.elim
  | raised error =>
    have hitems : processing.workQueue.items = s.processing.workQueue.items := hfollows.1
    exact h.setReader hreader hbalanced ((List.append_nil _).trans hitems.symm) rfl
      (fun _ _ => ⟨rfl, rfl⟩) (List.append_nil _)

lemma readerStep_ingress (h : IngressAccount capacity s past) {index : Nat} {reader : Reader}
    (hreader : s.readers[index]? = some reader) (action : ReaderAction) :
    IngressAccount capacity (s.readerStep legacyTargetIds index reader action).1
      (past ++ (s.readerStep legacyTargetIds index reader action).2) := by
  have hstay : IngressAccount capacity s (past ++ []) := by
    rw [List.append_nil]
    exact h
  rcases reader with ⟨inbox, state⟩
  cases action with
  | arrive item =>
    have hothers (other : Nat) (hne : other ≠ index) :
        arrivedAt other [.arrived index item] = [] ∧ boundBy other [.arrived index item] = [] := by
      simp [arrivedAt, boundBy, hne.symm]
    refine h.setReader hreader h.balanced (List.append_nil _) rfl hothers ?_
    simp [arrivedAt, boundBy, readerStep]
  | read =>
    cases inbox with
    | nil => exact hstay
    | cons item inbox =>
      cases state with
      | waiting =>
        simp only [readerStep]
        cases hcoerce : coerceIngressFrame item with
        | none =>
          refine h.setReader hreader h.balanced (List.append_nil _) rfl (fun _ _ => ⟨rfl, rfl⟩) ?_
          simp [arrivedAt, boundBy, heldFrames, hcoerce]
        | some frame =>
          refine h.setReader hreader h.balanced (List.append_nil _) rfl (fun _ _ => ⟨rfl, rfl⟩) ?_
          simp [arrivedAt, boundBy, heldFrames, hcoerce]
      | holding frame admitting => exact hstay
      | ended lost => exact hstay
  | beginAdmit =>
    rcases state with _ | ⟨frame, _ | _⟩ | lost
    · exact hstay
    · obtain ⟨hbalanced, hfollows⟩ := admit_spec h.balanced index (s.bindFactory legacyTargetIds frame)
      exact afterAdmit_ingress h hreader hbalanced hfollows (beginAdmit_isAdmission index)
    · exact hstay
    · exact hstay
  | resumeAdmit wakes =>
    rcases state with _ | ⟨frame, _ | _⟩ | lost
    · exact hstay
    · exact hstay
    · simp only [readerStep]
      cases hresume : s.processing.resumeAdmit index wakes (s.bindFactory legacyTargetIds frame) with
      | none => exact hstay
      | some admission =>
        obtain ⟨hbalanced, hfollows⟩ := resumeAdmit_spec h.balanced hresume
        exact afterAdmit_ingress h hreader hbalanced hfollows (resumeAdmit_isAdmission hresume)
    · exact hstay
  | cancel =>
    rcases state with _ | ⟨frame, _ | _⟩ | lost
    · exact h.setReader hreader h.balanced (List.append_nil _) rfl (fun _ _ => ⟨rfl, rfl⟩) (List.append_nil _)
    · exact hstay
    · have hcancel := QueueSystem.step_spec (s := ⟨s.processing, 0⟩) h.balanced (.cancelAdmit index)
      simp only [readerStep, List.append_nil]
      exact h.setProcessing hcancel.1 rfl
    · exact hstay

end Ingress

/-! ### Events of the pipeline -/

section PipelineEvents

/-- What the processor and the egress stage can do. -/
def IsPipeline : StageEvent → Prop
  | .processed .. | .sending _ | .sent _ => True
  | _ => False

def IsSend : StageEvent → Prop
  | .sending _ | .sent _ => True
  | _ => False

lemma IsSend.isPipeline {event : StageEvent} (h : IsSend event) : IsPipeline event := by
  cases event with
  | sending output => trivial
  | sent output => trivial
  | _ => exact h.elim

variable {events : List StageEvent}

lemma filterMap_pipeline {α : Type} {f : StageEvent → Option α} (h : ∀ event ∈ events, IsPipeline event)
    (hprocessed : ∀ item outputs, f (.processed item outputs) = none)
    (hsending : ∀ output, f (.sending output) = none) (hsent : ∀ output, f (.sent output) = none) :
    events.filterMap f = [] := by
  apply List.filterMap_eq_nil_iff.mpr
  intro event hevent
  have hpipeline := h event hevent
  cases event with
  | processed item outputs => exact hprocessed item outputs
  | sending output => exact hsending output
  | sent output => exact hsent output
  | _ => exact hpipeline.elim

lemma arrivedAt_pipeline (h : ∀ event ∈ events, IsPipeline event) (index : Nat) : arrivedAt index events = [] :=
  filterMap_pipeline h (fun _ _ => rfl) (fun _ => rfl) (fun _ => rfl)

lemma boundBy_pipeline (h : ∀ event ∈ events, IsPipeline event) (index : Nat) : boundBy index events = [] :=
  filterMap_pipeline h (fun _ _ => rfl) (fun _ => rfl) (fun _ => rfl)

lemma boundItems_pipeline (h : ∀ event ∈ events, IsPipeline event) : boundItems events = [] :=
  filterMap_pipeline h (fun _ _ => rfl) (fun _ => rfl) (fun _ => rfl)

lemma processedItems_sends (h : ∀ event ∈ events, IsSend event) : processedItems events = [] := by
  apply List.filterMap_eq_nil_iff.mpr
  intro event hevent
  have hsend := h event hevent
  cases event with
  | sending output => rfl
  | sent output => rfl
  | _ => exact hsend.elim

lemma pipelineEvents_sends (h : ∀ event ∈ events, IsSend event) : pipelineEvents events = events := by
  apply List.filter_eq_self.mpr
  intro event hevent
  have hsend := h event hevent
  cases event with
  | sending output => rfl
  | sent output => rfl
  | _ => exact hsend.elim

lemma sendNext_sends (s : Stages σ) (number : Nat) (outputs : List ProcessorOutput) :
    ∀ event ∈ (s.sendNext number outputs).2, IsSend event := by
  cases outputs with
  | nil => simp [sendNext]
  | cons output rest => simp [sendNext, IsSend]

lemma egressStep_sends (s : Stages σ) (action : EgressAction) :
    ∀ event ∈ (s.egressStep action).2, IsSend event := by
  cases action with
  | fetch =>
    simp only [egressStep]
    split
    · exact sendNext_sends _ _ _
    · simp
  | sendReturns =>
    simp only [egressStep]
    split
    · intro event hevent
      rcases List.mem_cons.mp hevent with rfl | hevent
      · trivial
      · exact sendNext_sends _ _ _ event hevent
    · simp
  | sendRaises =>
    simp only [egressStep]
    split <;> simp
  | cancel =>
    simp only [egressStep]
    split <;> simp

end PipelineEvents

/-! ### What the other tasks leave alone -/

section Beside

/-- A step that does nothing that a reader does. -/
structure BesideReaders (s s' : Stages σ) (events : List StageEvent) : Prop where
  readers : s'.readers = s.readers
  routing : s'.routing = s.routing
  events : ∀ event ∈ events, IsPipeline event

variable {s : Stages σ} {capacity : ℕ+} {past : List StageEvent}
  {process : σ → ProcessingWorkItem → σ × Except PyException (List ProcessorOutput)}

lemma besideReaders_nil {s s' : Stages σ} (hreaders : s'.readers = s.readers)
    (hrouting : s'.routing = s.routing) : BesideReaders s s' [] := ⟨hreaders, hrouting, by simp⟩

lemma tryPut_beside (s : Stages σ) :
    s.tryPut.readers = s.readers ∧ s.tryPut.routing = s.routing ∧ s.tryPut.processing = s.processing := by
  unfold tryPut
  split
  · split <;> exact ⟨rfl, rfl, rfl⟩
  · exact ⟨rfl, rfl, rfl⟩

variable (process) in
lemma handleItem_beside (s : Stages σ) (item : ProcessingWorkItem) :
    BesideReaders s (s.handleItem process item).1 (s.handleItem process item).2 ∧
      (s.handleItem process item).1.processing = s.processing ∧
      processedItems (s.handleItem process item).2 = [item] := by
  have hbeside (s' : Stages σ) (outputs : List ProcessorOutput) (hreaders : s'.readers = s.readers)
      (hrouting : s'.routing = s.routing) : BesideReaders s s' [.processed item outputs] :=
    ⟨hreaders, hrouting, by simp [IsPipeline]⟩
  unfold handleItem
  rcases process s.processorState item with ⟨processorState, result⟩
  cases result with
  | error e => exact ⟨hbeside _ [] rfl rfl, rfl, rfl⟩
  | ok outputs =>
    by_cases hempty : outputs = []
    · dsimp only
      rw [if_pos hempty]
      exact ⟨hbeside _ [] rfl rfl, rfl, rfl⟩
    · dsimp only
      rw [if_neg hempty]
      obtain ⟨hreaders, hrouting, hprocessing⟩ := tryPut_beside
        { s with
          processorState := processorState
          processor := .putting ⟨s.nextBatch, outputs⟩
          nextBatch := s.nextBatch + 1 }
      exact ⟨hbeside _ outputs hreaders hrouting, hprocessing, rfl⟩

/-- What a `get` does, that is not an admission. -/
def IsDelivery : QueueOutcome → Prop
  | .admitted _ => False
  | _ => True

lemma deliver_isDelivery {q : BoundedProcessingQueue} {workQueue : Asyncio.Queue ProcessingWorkItem}
    (result : Queue.GetResult ProcessingWorkItem) : IsDelivery (q.deliver workQueue result).2 := by
  cases result with
  | waiting => trivial
  | cancelledError => trivial
  | item item =>
    simp only [deliver]
    cases q.slots.release with
    | none => trivial
    | some slots => trivial

lemma afterGet_ingress (h : IngressAccount capacity s past) {result : BoundedProcessingQueue × QueueOutcome}
    (hbalanced : result.1.Balanced capacity 0) (hfollows : Follows s.processing result.1 result.2)
    (hdelivery : IsDelivery result.2) :
    BesideReaders s (s.afterGet process result).1 (s.afterGet process result).2 ∧
      IngressAccount capacity (s.afterGet process result).1 (past ++ (s.afterGet process result).2) := by
  rcases result with ⟨processing, outcome⟩
  have hends {processor : ProcessorStage} (hitems : processing.workQueue.items = s.processing.workQueue.items) :
      IngressAccount capacity { s with processing := processing, processor := processor } (past ++ []) := by
    have hset := h.setProcessing hbalanced hitems
    rw [List.append_nil]
    exact ⟨hset.balanced, hset.queued, hset.readers⟩
  cases outcome with
  | waits => exact ⟨besideReaders_nil rfl rfl, hends hfollows⟩
  | admitted item => exact hdelivery.elim
  | raised error => exact ⟨besideReaders_nil rfl rfl, hends hfollows.1⟩
  | got item =>
    have htaken : s.processing.workQueue.items = item :: processing.workQueue.items := hfollows
    obtain ⟨hbeside, hprocessing, hprocessed⟩ :=
      handleItem_beside process { s with processing := processing } item
    refine ⟨⟨hbeside.readers, hbeside.routing, hbeside.events⟩, ?_⟩
    simp only [afterGet]
    constructor
    · rw [hprocessing]
      exact hbalanced
    · rw [hprocessing, boundItems_append, processedItems_append, boundItems_pipeline hbeside.events,
        hprocessed, h.queued, htaken]
      simp
    · intro index reader hreader
      rw [hbeside.readers] at hreader
      rw [arrivedAt_append, boundBy_append, arrivedAt_pipeline hbeside.events, boundBy_pipeline hbeside.events,
        List.append_nil, List.append_nil]
      exact h.readers index reader hreader

variable (process) in
lemma processorStep_ingress (h : IngressAccount capacity s past) (action : ProcessorAction) :
    BesideReaders s (s.processorStep process action).1 (s.processorStep process action).2 ∧
      IngressAccount capacity (s.processorStep process action).1
        (past ++ (s.processorStep process action).2) := by
  have hmove (s' : Stages σ) (hreaders : s'.readers = s.readers) (hrouting : s'.routing = s.routing)
      (hprocessing : s'.processing = s.processing) :
      BesideReaders s s' [] ∧ IngressAccount capacity s' (past ++ []) := by
    refine ⟨besideReaders_nil hreaders hrouting, ?_⟩
    rw [List.append_nil]
    constructor
    · rw [hprocessing]
      exact h.balanced
    · rw [hprocessing]
      exact h.queued
    · rw [hreaders]
      exact h.readers
  cases action with
  | take =>
    simp only [processorStep]
    split
    · have hgets := Queue.takeOrWait_gets s.processing.workQueue processorTask
      obtain ⟨hbalanced, hfollows⟩ := deliver_spec h.balanced hgets
      exact afterGet_ingress h hbalanced hfollows (deliver_isDelivery _)
    · exact hmove s rfl rfl rfl
  | resumeTake =>
    simp only [processorStep]
    split
    · cases hresume : s.processing.resumeGet processorTask with
      | none => exact hmove s rfl rfl rfl
      | some result =>
        obtain ⟨⟨workQueue, taken⟩, hqueue, rfl⟩ := Option.map_eq_some_iff.mp hresume
        obtain ⟨hbalanced, hfollows⟩ := deliver_spec h.balanced (Queue.resume_gets hqueue)
        exact afterGet_ingress h hbalanced hfollows (deliver_isDelivery _)
    · exact hmove s rfl rfl rfl
  | put =>
    obtain ⟨hreaders, hrouting, hprocessing⟩ := tryPut_beside s
    exact hmove s.tryPut hreaders hrouting hprocessing
  | resume =>
    simp only [processorStep]
    split
    · split
      · exact hmove s rfl rfl rfl
      · exact hmove _ rfl rfl rfl
      · exact hmove _ rfl rfl rfl
    · exact hmove s rfl rfl rfl
  | cancel =>
    simp only [processorStep]
    split
    · have hcancel := QueueSystem.step_spec (s := ⟨s.processing, 0⟩) h.balanced (.cancelGet processorTask)
      refine ⟨besideReaders_nil rfl rfl, ?_⟩
      rw [List.append_nil]
      exact h.setProcessing hcancel.1 rfl
    · next batch _ =>
      have hsame := settle_same s batch.number .cancelled
      exact hmove _ hsame.readers hsame.routing hsame.processing
    · next number _ =>
      have hsame := settle_same s number .cancelled
      exact hmove _ hsame.readers hsame.routing hsame.processing
    · exact hmove s rfl rfl rfl

end Beside

/-! ### The routing of the moment -/

section Routing

variable (legacyTargetIds : List Nat)

/-- A record in which every work item has the routing of its moment and replacements count up. -/
def RoutingTrace : Option RoutingState → List StageEvent → Prop
  | _, [] => True
  | routing, .bound _ item :: events =>
    IsBoundTo legacyTargetIds routing item ∧ RoutingTrace routing events
  | routing, .replaced next :: events =>
    (∃ state, routing = some state ∧ next.snapshot.generation = state.snapshot.generation + 1) ∧
      RoutingTrace (some next) events
  | routing, _ :: events => RoutingTrace routing events

variable {legacyTargetIds} {routing : Option RoutingState} {events later : List StageEvent}

lemma RoutingTrace.append (h : RoutingTrace legacyTargetIds routing events)
    (hlater : RoutingTrace legacyTargetIds (routingAfter routing events) later) :
    RoutingTrace legacyTargetIds routing (events ++ later) := by
  induction events generalizing routing with
  | nil => exact hlater
  | cons event events ih =>
    cases event with
    | bound index item => exact ⟨h.1, ih h.2 hlater⟩
    | replaced next => exact ⟨h.1, ih h.2 hlater⟩
    | arrived index item => exact ih h hlater
    | processed item outputs => exact ih h hlater
    | sending output => exact ih h hlater
    | sent output => exact ih h hlater

lemma RoutingTrace.bound (h : RoutingTrace legacyTargetIds routing events) {before after : List StageEvent}
    {index : Nat} {item : ProcessingWorkItem} (hsplit : events = before ++ .bound index item :: after) :
    IsBoundTo legacyTargetIds (routingAfter routing before) item := by
  subst hsplit
  induction before generalizing routing with
  | nil => exact h.1
  | cons event before ih =>
    cases event with
    | bound index item => exact ih h.2
    | replaced next => exact ih h.2
    | arrived index item => exact ih h
    | processed item outputs => exact ih h
    | sending output => exact ih h
    | sent output => exact ih h

variable (legacyTargetIds routing) in
lemma RoutingTrace.of_pipeline (h : ∀ event ∈ events, IsPipeline event) :
    RoutingTrace legacyTargetIds routing events ∧ routingAfter routing events = routing := by
  induction events with
  | nil => exact ⟨trivial, rfl⟩
  | cons event events ih =>
    have hrest := ih (fun other hother => h other (List.mem_cons_of_mem _ hother))
    have hpipeline := h event List.mem_cons_self
    cases event with
    | processed item outputs => exact hrest
    | sending output => exact hrest
    | sent output => exact hrest
    | _ => exact hpipeline.elim

/-- The generation of the moment. -/
def generationOf (routing : Option RoutingState) : Nat := routing.elim 0 (fun state => state.snapshot.generation)

/-- Generations never go back. -/
lemma RoutingTrace.generations (h : RoutingTrace legacyTargetIds routing events) :
    (∀ item ∈ boundItems events, generationOf routing ≤ item.snapshot.routingGeneration) ∧
      (boundItems events).Pairwise (fun item later =>
        item.snapshot.routingGeneration ≤ later.snapshot.routingGeneration) := by
  induction events generalizing routing with
  | nil => simp [boundItems]
  | cons event events ih =>
    cases event with
    | bound index item =>
      obtain ⟨hfrom, hpairwise⟩ := ih h.2
      have hgeneration : item.snapshot.routingGeneration = generationOf routing := h.1.generation
      have hitems : boundItems (.bound index item :: events) = item :: boundItems events := rfl
      rw [hitems]
      constructor
      · intro other hother
        rcases List.mem_cons.mp hother with rfl | hother
        · exact hgeneration.ge
        · exact hfrom other hother
      · rw [List.pairwise_cons]
        refine ⟨?_, hpairwise⟩
        intro other hother
        rw [hgeneration]
        exact hfrom other hother
    | replaced next =>
      obtain ⟨⟨state, rfl, hnext⟩, hrest⟩ := h
      obtain ⟨hfrom, hpairwise⟩ := ih hrest
      refine ⟨?_, hpairwise⟩
      intro item hitem
      have hbelow : next.snapshot.generation ≤ item.snapshot.routingGeneration := hfrom item hitem
      have hstate : generationOf (some state) = state.snapshot.generation := rfl
      omega
    | arrived index item => exact ih h
    | processed item outputs => exact ih h
    | sending output => exact ih h
    | sent output => exact ih h

end Routing

/-! ### The counters of the egress stage -/

section Metrics

def sendingOutputs (events : List StageEvent) : List ProcessorOutput :=
  events.filterMap (fun | .sending output => some output | _ => none)

def sentOutputs (events : List StageEvent) : List ProcessorOutput :=
  events.filterMap (fun | .sent output => some output | _ => none)

section Sends

variable (outputs : List ProcessorOutput) (events later : List StageEvent)

@[simp] lemma sendingOutputs_append :
    sendingOutputs (events ++ later) = sendingOutputs events ++ sendingOutputs later :=
  List.filterMap_append

@[simp] lemma sentOutputs_append : sentOutputs (events ++ later) = sentOutputs events ++ sentOutputs later :=
  List.filterMap_append

@[simp] lemma sendingOutputs_sends : sendingOutputs (sends outputs) = outputs := by
  induction outputs with
  | nil => rfl
  | cons output rest ih => exact congrArg (output :: ·) ih

@[simp] lemma sentOutputs_sends : sentOutputs (sends outputs) = outputs := by
  induction outputs with
  | nil => rfl
  | cons output rest ih => exact congrArg (output :: ·) ih

@[simp] lemma processedItems_sent : processedItems (sends outputs) = [] := by
  induction outputs with
  | nil => rfl
  | cons output rest ih => exact ih

lemma sendingOutputs_pipeline : sendingOutputs (pipelineEvents events) = sendingOutputs events := by
  induction events with
  | nil => rfl
  | cons event events ih =>
    cases event with
    | sending output => exact congrArg (output :: ·) ih
    | _ => exact ih

lemma sentOutputs_pipeline : sentOutputs (pipelineEvents events) = sentOutputs events := by
  induction events with
  | nil => rfl
  | cons event events ih =>
    cases event with
    | sent output => exact congrArg (output :: ·) ih
    | _ => exact ih

lemma processedItems_pipeline : processedItems (pipelineEvents events) = processedItems events := by
  induction events with
  | nil => rfl
  | cons event events ih =>
    cases event with
    | processed item outputs => exact congrArg (item :: ·) ih
    | _ => exact ih

end Sends

/-- The calls of `send_to_ids` under way. -/
def underWay : EgressStage → Nat
  | .sending .. => 1
  | _ => 0

/-- The counters tell what the events tell. -/
structure MetricsAccount (metrics : EgressMetrics) (egress : EgressStage) (past : List StageEvent) : Prop where
  batches : metrics.batches.Counts (underWay egress)
  outputs : metrics.outputs.Counts (underWay egress)
  started : metrics.outputs.started = (sendingOutputs past).length
  completed : metrics.outputs.completed = (sentOutputs past).length

variable {past events : List StageEvent}

lemma MetricsAccount.of_none {metrics : EgressMetrics} {egress : EgressStage}
    (h : MetricsAccount metrics egress past) (hsending : sendingOutputs events = [])
    (hsent : sentOutputs events = []) : MetricsAccount metrics egress (past ++ events) where
  batches := h.batches
  outputs := h.outputs
  started := by
    have hstarted := h.started
    rw [sendingOutputs] at hstarted hsending ⊢
    rw [List.filterMap_append, hsending, List.append_nil]
    exact hstarted
  completed := by
    have hcompleted := h.completed
    rw [sentOutputs] at hcompleted hsent ⊢
    rw [List.filterMap_append, hsent, List.append_nil]
    exact hcompleted

/-- What the stage does with the counters between two outputs. -/
lemma sendNext_metrics (past : List StageEvent) (s : Stages σ) (number : Nat) (outputs : List ProcessorOutput)
    (hbatches : s.metrics.batches.Counts 1) (houtputs : s.metrics.outputs.Counts 0)
    (hstarted : s.metrics.outputs.started = (sendingOutputs past).length)
    (hcompleted : s.metrics.outputs.completed = (sentOutputs past).length) :
    MetricsAccount (s.sendNext number outputs).1.metrics (s.sendNext number outputs).1.egress
      (past ++ (s.sendNext number outputs).2) := by
  cases outputs with
  | nil =>
    simp only [sendNext, List.append_nil]
    exact ⟨hbatches.finish .completed, houtputs, hstarted, hcompleted⟩
  | cons output rest =>
    refine ⟨hbatches, houtputs.start, ?_, ?_⟩
    · simp [sendNext, EgressMetrics.outputStarted, Tally.start, hstarted, sendingOutputs]
    · simp [sendNext, EgressMetrics.outputStarted, Tally.start, hcompleted, sentOutputs]

lemma egressStep_metrics {s : Stages σ} (h : MetricsAccount s.metrics s.egress past) (action : EgressAction) :
    MetricsAccount (s.egressStep action).1.metrics (s.egressStep action).1.egress
      (past ++ (s.egressStep action).2) := by
  have hstay : MetricsAccount s.metrics s.egress (past ++ []) := by
    rw [List.append_nil]
    exact h
  cases hegress : s.egress with
  | idle =>
    rw [hegress] at h
    cases action with
    | fetch =>
      cases hqueue : s.egressQueue with
      | nil =>
        simp only [egressStep, hegress, hqueue]
        rw [hegress] at hstay
        exact hstay
      | cons batch rest =>
        simp only [egressStep, hegress, hqueue]
        exact sendNext_metrics past _ batch.number batch.outputs h.batches.start h.outputs h.started h.completed
    | sendReturns =>
      simp only [egressStep, hegress]
      rw [hegress] at hstay
      exact hstay
    | sendRaises =>
      simp only [egressStep, hegress]
      rw [hegress] at hstay
      exact hstay
    | cancel =>
      simp only [egressStep, hegress, List.append_nil]
      exact ⟨h.batches, h.outputs, h.started, h.completed⟩
  | sending number output rest =>
    rw [hegress] at h
    cases action with
    | fetch =>
      simp only [egressStep, hegress]
      rw [hegress] at hstay
      exact hstay
    | sendReturns =>
      have hstarted : s.metrics.outputs.started = (sendingOutputs (past ++ [.sent output])).length := by
        simpa [sendingOutputs] using h.started
      have hcompleted : s.metrics.outputs.completed + 1 = (sentOutputs (past ++ [.sent output])).length := by
        simpa [sentOutputs] using h.completed
      have hstep : s.egressStep .sendReturns =
          (({ s with metrics := s.metrics.outputCompleted }.sendNext number rest).1,
            .sent output :: ({ s with metrics := s.metrics.outputCompleted }.sendNext number rest).2) := by
        simp only [egressStep, hegress]
      have hnext := sendNext_metrics (past ++ [StageEvent.sent output])
        { s with metrics := s.metrics.outputCompleted } number rest h.batches (h.outputs.finish .completed)
        hstarted hcompleted
      rw [List.append_assoc] at hnext
      rw [hstep]
      exact hnext
    | sendRaises =>
      simp only [egressStep, hegress, List.append_nil]
      exact ⟨h.batches.finish .failed, h.outputs.finish .failed, h.started, h.completed⟩
    | cancel =>
      simp only [egressStep, hegress, List.append_nil]
      exact ⟨h.batches.finish .cancelled, h.outputs.finish .cancelled, h.started, h.completed⟩
  | ended lost =>
    have hnothing : s.egressStep action = (s, []) := by
      cases action <;> simp only [egressStep, hegress]
    rw [hnothing]
    exact hstay

lemma sends_nil (h : pipelineEvents events = []) : sendingOutputs events = [] ∧ sentOutputs events = [] := by
  have hnone := List.filter_eq_nil_iff.mp h
  constructor
  · apply List.filterMap_eq_nil_iff.mpr
    intro event hevent
    have hother := hnone event hevent
    cases event with
    | sending output => simp at hother
    | _ => rfl
  · apply List.filterMap_eq_nil_iff.mpr
    intro event hevent
    have hother := hnone event hevent
    cases event with
    | sent output => simp at hother
    | _ => rfl

/-- What the processor stage leaves to the egress stage. -/
structure BesideEgress (s s' : Stages σ) (events : List StageEvent) : Prop where
  egress : s'.egress = s.egress
  metrics : s'.metrics = s.metrics
  sending : sendingOutputs events = []
  sent : sentOutputs events = []

variable {process : σ → ProcessingWorkItem → σ × Except PyException (List ProcessorOutput)}

lemma tryPut_besideEgress (s : Stages σ) : BesideEgress s s.tryPut [] := by
  unfold tryPut
  split
  · split <;> exact ⟨rfl, rfl, rfl, rfl⟩
  · exact ⟨rfl, rfl, rfl, rfl⟩

lemma afterGet_besideEgress (s : Stages σ) (result : BoundedProcessingQueue × QueueOutcome) :
    BesideEgress s (s.afterGet process result).1 (s.afterGet process result).2 := by
  rcases result with ⟨processing, outcome⟩
  cases outcome with
  | waits => exact ⟨rfl, rfl, rfl, rfl⟩
  | admitted item => exact ⟨rfl, rfl, rfl, rfl⟩
  | raised error => exact ⟨rfl, rfl, rfl, rfl⟩
  | got item =>
    simp only [afterGet, handleItem]
    rcases process s.processorState item with ⟨processorState, result⟩
    cases result with
    | error e => exact ⟨rfl, rfl, rfl, rfl⟩
    | ok outputs =>
      by_cases hempty : outputs = []
      · dsimp only
        rw [if_pos hempty]
        exact ⟨rfl, rfl, rfl, rfl⟩
      · dsimp only
        rw [if_neg hempty]
        have hput := tryPut_besideEgress
          { s with
            processing := processing
            processorState := processorState
            processor := .putting ⟨s.nextBatch, outputs⟩
            nextBatch := s.nextBatch + 1 }
        exact ⟨hput.egress, hput.metrics, rfl, rfl⟩

lemma settle_besideEgress (s : Stages σ) (number : Nat) (completion : Completion) (processor : ProcessorStage) :
    BesideEgress s { s.settle number completion with processor := processor } [] := by
  rw [settle_eq]
  exact ⟨rfl, rfl, rfl, rfl⟩

variable (process) in
lemma processorStep_besideEgress (s : Stages σ) (action : ProcessorAction) :
    BesideEgress s (s.processorStep process action).1 (s.processorStep process action).2 := by
  have hstay : BesideEgress s s [] := ⟨rfl, rfl, rfl, rfl⟩
  cases action with
  | take =>
    simp only [processorStep]
    split
    · exact afterGet_besideEgress s _
    · exact hstay
  | resumeTake =>
    simp only [processorStep]
    split
    · split
      · exact hstay
      · exact afterGet_besideEgress s _
    · exact hstay
  | put => exact tryPut_besideEgress s
  | resume =>
    simp only [processorStep]
    split
    · split
      · exact hstay
      · exact ⟨rfl, rfl, rfl, rfl⟩
      · exact ⟨rfl, rfl, rfl, rfl⟩
    · exact hstay
  | cancel =>
    simp only [processorStep]
    split
    · exact ⟨rfl, rfl, rfl, rfl⟩
    · exact settle_besideEgress s _ _ _
    · exact settle_besideEgress s _ _ _
    · exact hstay

end Metrics

/-! ### All together -/

section Runs

variable {process : σ → ProcessingWorkItem → σ × Except PyException (List ProcessorOutput)}
  {legacyTargetIds : List Nat} {capacity : ℕ+} {initial : σ} {initialRouting : Option RoutingState}
  {s : Stages σ} {past : List StageEvent}

/-- What the events of a run say about the state behind it. -/
structure StagesAccount (process : σ → ProcessingWorkItem → σ × Except PyException (List ProcessorOutput))
    (legacyTargetIds : List Nat) (capacity : ℕ+) (initial : σ) (initialRouting : Option RoutingState)
    (s : Stages σ) (past : List StageEvent) : Prop where
  ingress : IngressAccount capacity s past
  pipeline : PipelineAccount process initial s past
  routing : s.routing = routingAfter initialRouting past
  trace : RoutingTrace legacyTargetIds initialRouting past
  metrics : MetricsAccount s.metrics s.egress past

lemma stagesAccount_new (readers : Nat) (routing : Option RoutingState) (processingMaxsize egressMaxsize : ℕ+)
    (initial : σ) :
    StagesAccount process legacyTargetIds processingMaxsize initial routing
      (Stages.new readers routing processingMaxsize egressMaxsize initial) [] where
  ingress := by
    refine ⟨balanced_new processingMaxsize, rfl, ?_⟩
    intro index reader hreader
    obtain ⟨-, rfl⟩ := List.mem_replicate.mp (List.mem_of_getElem? hreader)
    rfl
  pipeline := by
    refine ⟨rfl, fun _ => rfl, .free (.inl rfl) rfl rfl, ?_⟩
    exact ⟨fun _ _ => rfl, by simp [Stages.new], by simp [Stages.new], by simp [Stages.new], by simp [Stages.new]⟩
  routing := rfl
  trace := trivial
  metrics := ⟨Tally.counts_new, Tally.counts_new, rfl, rfl⟩

lemma replace_generation {state next : RoutingState} {table : Option RoutingTable}
    {expectedGeneration : Option Int} (h : state.replace table expectedGeneration = .ok next) :
    next.snapshot.generation = state.snapshot.generation + 1 := by
  unfold RoutingState.replace at h
  split at h
  · split at h
    · split at h
      · cases h
      · obtain rfl := Except.ok.inj h
        rfl
    · obtain rfl := Except.ok.inj h
      rfl
  · cases h

lemma IngressAccount.egressStep (h : IngressAccount capacity s past) (action : EgressAction) :
    IngressAccount capacity (s.egressStep action).1 (past ++ (s.egressStep action).2) := by
  have hsends := egressStep_sends s action
  have hsame := egressStep_same s action
  have hpipeline : ∀ event ∈ (s.egressStep action).2, IsPipeline event :=
    fun event hevent => (hsends event hevent).isPipeline
  constructor
  · rw [hsame.processing]
    exact h.balanced
  · rw [boundItems_append, processedItems_append, boundItems_pipeline hpipeline, processedItems_sends hsends,
      List.append_nil, List.append_nil, hsame.processing]
    exact h.queued
  · rw [hsame.readers]
    intro index reader hreader
    rw [arrivedAt_append, boundBy_append, arrivedAt_pipeline hpipeline, boundBy_pipeline hpipeline,
      List.append_nil, List.append_nil]
    exact h.readers index reader hreader

lemma PipelineAccount.egressStep (h : PipelineAccount process initial s past) (action : EgressAction) :
    PipelineAccount process initial (s.egressStep action).1 (past ++ (s.egressStep action).2) := by
  have hsends := egressStep_sends s action
  have hsame := egressStep_same s action
  constructor
  · rw [pipelineEvents_append, processedItems_append, pipelineEvents_sends hsends, processedItems_sends hsends,
      List.append_nil, List.append_assoc, egressStep_account]
    exact h.account
  · rw [processedItems_append, processedItems_sends hsends, List.append_nil, hsame.processor,
      hsame.processorState]
    exact h.alive
  · exact egressStep_phase s h.phase action
  · exact egressStep_numbered s h.numbered action

/-- A reader binds to the routing of the moment. -/
lemma afterAdmit_trace (s : Stages σ) (index : Nat) (inbox : List IngressItem) (frame : IngressFrame)
    {admission : BoundedProcessingQueue × QueueOutcome}
    (hadmission : IsAdmission (s.bindFactory legacyTargetIds frame) admission.2) :
    RoutingTrace legacyTargetIds s.routing (s.afterAdmit index inbox frame admission).2 ∧
      (s.afterAdmit index inbox frame admission).1.routing =
        routingAfter s.routing (s.afterAdmit index inbox frame admission).2 := by
  rcases admission with ⟨processing, outcome⟩
  cases outcome with
  | waits => exact ⟨trivial, rfl⟩
  | admitted item => exact ⟨⟨(bind_spec (bindFactory_item hadmission)).2, trivial⟩, rfl⟩
  | got item => exact hadmission.elim
  | raised error => exact ⟨trivial, rfl⟩

lemma readerStep_trace (s : Stages σ) (index : Nat) (reader : Reader) (action : ReaderAction) :
    RoutingTrace legacyTargetIds s.routing (s.readerStep legacyTargetIds index reader action).2 ∧
      (s.readerStep legacyTargetIds index reader action).1.routing =
        routingAfter s.routing (s.readerStep legacyTargetIds index reader action).2 := by
  cases action with
  | arrive item => exact ⟨trivial, rfl⟩
  | read =>
    simp only [readerStep]
    split
    · split <;> exact ⟨trivial, rfl⟩
    · exact ⟨trivial, rfl⟩
  | beginAdmit =>
    simp only [readerStep]
    split
    · exact afterAdmit_trace s index _ _ (beginAdmit_isAdmission index)
    · exact ⟨trivial, rfl⟩
  | resumeAdmit wakes =>
    simp only [readerStep]
    split
    · next frame _ =>
      cases hresume : s.processing.resumeAdmit index wakes (s.bindFactory legacyTargetIds frame) with
      | none => exact ⟨trivial, rfl⟩
      | some admission => exact afterAdmit_trace s index _ _ (resumeAdmit_isAdmission hresume)
    · exact ⟨trivial, rfl⟩
  | cancel =>
    simp only [readerStep]
    split <;> exact ⟨trivial, rfl⟩

lemma StagesAccount.step (h : StagesAccount process legacyTargetIds capacity initial initialRouting s past)
    (action : StageAction) :
    StagesAccount process legacyTargetIds capacity initial initialRouting
      (s.step process legacyTargetIds action).1 (past ++ (s.step process legacyTargetIds action).2) := by
  have hstay : StagesAccount process legacyTargetIds capacity initial initialRouting s (past ++ []) := by
    rw [List.append_nil]
    exact h
  have htrace {s' : Stages σ} {events : List StageEvent}
      (hevents : RoutingTrace legacyTargetIds s.routing events ∧ s'.routing = routingAfter s.routing events) :
      s'.routing = routingAfter initialRouting (past ++ events) ∧
        RoutingTrace legacyTargetIds initialRouting (past ++ events) := by
    have hrouting := h.routing
    rw [hrouting] at hevents
    rw [routingAfter_append]
    exact ⟨hevents.2, h.trace.append hevents.1⟩
  have hbeside {s' : Stages σ} {events : List StageEvent} (hbeside : BesideReaders s s' events) :
      s'.routing = routingAfter initialRouting (past ++ events) ∧
        RoutingTrace legacyTargetIds initialRouting (past ++ events) := by
    obtain ⟨hevents, hafter⟩ := RoutingTrace.of_pipeline legacyTargetIds s.routing hbeside.events
    exact htrace ⟨hevents, hbeside.routing.trans hafter.symm⟩
  cases action with
  | reader index action =>
    simp only [Stages.step]
    cases hreader : s.readers[index]? with
    | none => exact hstay
    | some reader =>
      obtain ⟨hsame, hevents, hitems⟩ := readerStep_same legacyTargetIds s index reader action
      obtain ⟨hrouting, hrecord⟩ := htrace (readerStep_trace s index reader action)
      obtain ⟨hsending, hsent⟩ := sends_nil hevents
      have hmetrics := h.metrics.of_none hsending hsent
      rw [← hsame.egress, ← hsame.metrics] at hmetrics
      exact ⟨readerStep_ingress h.ingress hreader action, h.pipeline.of_same hsame hevents hitems, hrouting,
        hrecord, hmetrics⟩
  | replace table expectedGeneration =>
    cases hrouting : s.routing with
    | none =>
      simp only [Stages.step, hrouting]
      exact hstay
    | some state =>
      cases hreplace : state.replace table expectedGeneration with
      | error e =>
        simp only [Stages.step, hrouting, hreplace]
        exact hstay
      | ok next =>
        have hnext : RoutingTrace legacyTargetIds s.routing [.replaced next] :=
          ⟨⟨state, hrouting, replace_generation hreplace⟩, trivial⟩
        obtain ⟨hafter, hrecord⟩ := @htrace { s with routing := some next } _ ⟨hnext, rfl⟩
        have hingress : IngressAccount capacity { s with routing := some next } (past ++ [.replaced next]) := by
          refine ⟨h.ingress.balanced, ?_, ?_⟩
          · rw [boundItems_append, processedItems_append]
            simpa [boundItems, processedItems] using h.ingress.queued
          · intro index reader hreader
            rw [arrivedAt_append, boundBy_append]
            simpa [arrivedAt, boundBy] using h.ingress.readers index reader hreader
        have hsame : SamePipeline s { s with routing := some next } := ⟨rfl, rfl, rfl, rfl, rfl, rfl, rfl, rfl⟩
        simp only [Stages.step, hrouting, hreplace]
        exact ⟨hingress, h.pipeline.of_same hsame rfl rfl, hafter, hrecord, h.metrics.of_none rfl rfl⟩
  | processor action =>
    obtain ⟨hbesides, hingress⟩ := processorStep_ingress process h.ingress action
    obtain ⟨hrouting, hrecord⟩ := hbeside hbesides
    have hegress := processorStep_besideEgress process s action
    have hmetrics := h.metrics.of_none hegress.sending hegress.sent
    rw [← hegress.egress, ← hegress.metrics] at hmetrics
    exact ⟨hingress, processorStep_pipeline h.pipeline action, hrouting, hrecord, hmetrics⟩
  | egress action =>
    have hsends := egressStep_sends s action
    have hsame := egressStep_same s action
    have hpipeline : ∀ event ∈ (s.egressStep action).2, IsPipeline event :=
      fun event hevent => (hsends event hevent).isPipeline
    obtain ⟨hrouting, hrecord⟩ := hbeside ⟨hsame.readers, hsame.routing, hpipeline⟩
    exact ⟨h.ingress.egressStep action, h.pipeline.egressStep action, hrouting, hrecord,
      egressStep_metrics h.metrics action⟩

lemma StagesAccount.run (h : StagesAccount process legacyTargetIds capacity initial initialRouting s past)
    (actions : List StageAction) :
    StagesAccount process legacyTargetIds capacity initial initialRouting
      (s.run process legacyTargetIds actions).1 (past ++ (s.run process legacyTargetIds actions).2) := by
  induction actions generalizing s past with
  | nil =>
    simp only [Stages.run, List.append_nil]
    exact h
  | cons action actions ih =>
    have hrest := ih (h.step action)
    rw [List.append_assoc] at hrest
    exact hrest

/-! #### No reader disappears -/

lemma afterAdmit_length (s : Stages σ) (index : Nat) (inbox : List IngressItem) (frame : IngressFrame)
    (admission : BoundedProcessingQueue × QueueOutcome) :
    (s.afterAdmit index inbox frame admission).1.readers.length = s.readers.length := by
  rcases admission with ⟨processing, outcome⟩
  cases outcome <;> exact List.length_set

lemma readerStep_length (s : Stages σ) (index : Nat) (reader : Reader) (action : ReaderAction) :
    (s.readerStep legacyTargetIds index reader action).1.readers.length = s.readers.length := by
  cases action with
  | arrive item => exact List.length_set
  | read =>
    simp only [readerStep]
    split
    · split <;> exact List.length_set
    · rfl
  | beginAdmit =>
    simp only [readerStep]
    split
    · exact afterAdmit_length s index _ _ _
    · rfl
  | resumeAdmit wakes =>
    simp only [readerStep]
    split
    · split
      · rfl
      · exact afterAdmit_length s index _ _ _
    · rfl
  | cancel =>
    simp only [readerStep]
    split
    · exact List.length_set
    · rfl
    · rfl

lemma step_length (h : IngressAccount capacity s past) (action : StageAction) :
    (s.step process legacyTargetIds action).1.readers.length = s.readers.length := by
  cases action with
  | reader index action =>
    simp only [Stages.step]
    split
    · rfl
    · exact readerStep_length s index _ action
  | replace table expectedGeneration =>
    simp only [Stages.step]
    split
    · rfl
    · split <;> rfl
  | processor action => exact congrArg List.length (processorStep_ingress process h action).1.readers
  | egress action => exact congrArg List.length (egressStep_same s action).readers

lemma StagesAccount.run_length
    (h : StagesAccount process legacyTargetIds capacity initial initialRouting s past)
    (actions : List StageAction) :
    (s.run process legacyTargetIds actions).1.readers.length = s.readers.length := by
  induction actions generalizing s past with
  | nil => rfl
  | cons action actions ih => exact (ih (h.step action)).trans (step_length h.ingress action)

lemma run_append (s : Stages σ) (actions more : List StageAction) :
    s.run process legacyTargetIds (actions ++ more) =
      (((s.run process legacyTargetIds actions).1.run process legacyTargetIds more).1,
        (s.run process legacyTargetIds actions).2 ++
          ((s.run process legacyTargetIds actions).1.run process legacyTargetIds more).2) := by
  induction actions generalizing s with
  | nil => rfl
  | cons action actions ih => simp only [List.cons_append, Stages.run, ih, List.append_assoc]

/-! #### The results -/

variable (process legacyTargetIds) (readers : Nat) (routing : Option RoutingState)
  (processingMaxsize egressMaxsize : ℕ+) (start : σ)

/-- Every reader has its place. -/
lemma exists_reader (actions : List StageAction) {index : Nat} (hindex : index < readers) :
    ∃ reader, ((new readers routing processingMaxsize egressMaxsize start).run process legacyTargetIds
      actions).1.readers[index]? = some reader := by
  have hnew : StagesAccount process legacyTargetIds processingMaxsize start routing
      (new readers routing processingMaxsize egressMaxsize start) [] :=
    stagesAccount_new readers routing processingMaxsize egressMaxsize start
  have hlength := hnew.run_length actions
  have hreaders : (new readers routing processingMaxsize egressMaxsize start).readers.length = readers :=
    List.length_replicate
  rw [hreaders] at hlength
  rw [← hlength] at hindex
  exact ⟨_, List.getElem?_eq_getElem hindex⟩

lemma stagesAccount_run (actions : List StageAction) :
    StagesAccount process legacyTargetIds processingMaxsize start routing
      ((new readers routing processingMaxsize egressMaxsize start).run process legacyTargetIds actions).1
      ((new readers routing processingMaxsize egressMaxsize start).run process legacyTargetIds actions).2 :=
  (stagesAccount_new readers routing processingMaxsize egressMaxsize start).run actions

/-- In every schedule, with failures and cancellations anywhere, what the processor and the egress stage
do is a beginning of what one task does that processes the work items in the order in which they entered
the queue, and sends the outputs of each before it goes on. -/
theorem stages_refine_serial (actions : List StageAction) :
    let events :=
      ((new readers routing processingMaxsize egressMaxsize start).run process legacyTargetIds actions).2
    pipelineEvents events <+: serialRun process start (boundItems events) := by
  have haccount := stagesAccount_run process legacyTargetIds readers routing processingMaxsize egressMaxsize
    start actions
  intro events
  have hqueued : boundItems events = processedItems events ++ _ := haccount.ingress.queued
  have hprocessed : pipelineEvents events ++ _ = serialRun process start (processedItems events) :=
    haccount.pipeline.account
  have hbegun : pipelineEvents events <+: serialRun process start (processedItems events) :=
    ⟨_, hprocessed⟩
  rw [hqueued]
  exact hbegun.trans (serialRun_mono start _ _)

/-- In every schedule every frame of an input queue is, in the order of the queue, bound once, with its
reader, or still in the queue; every bound item is processed once, in the order of binding, or waits in
the processing queue, which never holds more than its capacity. -/
theorem no_frame_lost (actions : List StageAction) :
    let last := (new readers routing processingMaxsize egressMaxsize start).run process legacyTargetIds actions
    (∀ index < readers, ∃ reader, last.1.readers[index]? = some reader ∧
      (arrivedAt index last.2).filterMap coerceIngressFrame =
        (boundBy index last.2).map ProcessingWorkItem.frame ++ heldFrames reader.state ++
          reader.inbox.filterMap coerceIngressFrame) ∧
      boundItems last.2 = processedItems last.2 ++ last.1.processing.workQueue.items ∧
      last.1.processing.qsize ≤ processingMaxsize ∧
      ∃ snapshot, last.1.processing.metricsSnapshot = .ok snapshot := by
  have haccount := (stagesAccount_run process legacyTargetIds readers routing processingMaxsize egressMaxsize
    start actions).ingress
  have hbalanced := haccount.balanced
  refine ⟨?_, haccount.queued, hbalanced.depth_le.trans hbalanced.peak_le, hbalanced.metricsSnapshot⟩
  intro index hindex
  obtain ⟨reader, hreader⟩ := exists_reader process legacyTargetIds readers routing processingMaxsize
    egressMaxsize start actions hindex
  exact ⟨reader, hreader, haccount.readers index reader hreader⟩

/-- In every schedule a work item has the generation, the mode and the targets of the routing that was
installed when it entered the processing queue, and the generations of processed items never go back. -/
theorem bound_to_the_routing_of_the_moment (actions : List StageAction) :
    let events :=
      ((new readers routing processingMaxsize egressMaxsize start).run process legacyTargetIds actions).2
    (∀ before after index item, events = before ++ .bound index item :: after →
      IsBoundTo legacyTargetIds (routingAfter routing before) item) ∧
      (processedItems events).Pairwise (fun item later =>
        item.snapshot.routingGeneration ≤ later.snapshot.routingGeneration) := by
  have haccount := stagesAccount_run process legacyTargetIds readers routing processingMaxsize egressMaxsize
    start actions
  constructor
  · intro before after index item hsplit
    exact haccount.trace.bound hsplit
  · have hpairwise := haccount.trace.generations.2
    rw [haccount.ingress.queued, List.pairwise_append] at hpairwise
    exact hpairwise.1

/-- In every schedule the counters of the egress stage make a snapshot that tells the calls of
`send_to_ids` begun and returned, and at most one batch and one call are under way. -/
theorem egress_metrics_tell_the_sends (actions : List StageAction) :
    let last := (new readers routing processingMaxsize egressMaxsize start).run process legacyTargetIds actions
    ∃ snapshot, last.1.metrics.metricsSnapshot = .ok snapshot ∧
      snapshot.outputsStarted = (sendingOutputs last.2).length ∧
      snapshot.outputsCompleted = (sentOutputs last.2).length ∧
      snapshot.activeBatches = snapshot.activeOutputs ∧ snapshot.activeOutputs ≤ 1 := by
  have haccount := (stagesAccount_run process legacyTargetIds readers routing processingMaxsize egressMaxsize
    start actions).metrics
  intro last
  obtain ⟨snapshot, hsnapshot, hstarted, hcompleted, hbatches, houtputs⟩ :=
    EgressMetrics.metricsSnapshot_ok haccount.batches haccount.outputs
  refine ⟨snapshot, hsnapshot, hstarted.trans haccount.started, hcompleted.trans haccount.completed,
    hbatches.trans houtputs.symm, ?_⟩
  rw [houtputs]
  unfold underWay
  split
  · exact le_rfl
  · exact Nat.zero_le 1

end Runs

end AisMixer.Runtime.Stages

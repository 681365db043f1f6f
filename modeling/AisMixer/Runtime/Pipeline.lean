import AisMixer.Runtime.Stages

/-!
# The pipeline behind the processing queue

What the stages did is a list of events. Together the processor and the egress stage do what one task
would do that processes an item, sends its outputs and only then goes on.
-/

namespace AisMixer.Runtime.Stages

open AisMixer.Library AisMixer.Library.Asyncio AisMixer.Routing BoundedProcessingQueue

variable {σ : Type}

/-! ### What happened -/

section Events

def arrivedAt (index : Nat) (events : List StageEvent) : List IngressItem :=
  events.filterMap (fun | .arrived i item => if i = index then some item else none | _ => none)

def boundBy (index : Nat) (events : List StageEvent) : List ProcessingWorkItem :=
  events.filterMap (fun | .bound i item => if i = index then some item else none | _ => none)

def boundItems (events : List StageEvent) : List ProcessingWorkItem :=
  events.filterMap (fun | .bound _ item => some item | _ => none)

def processedItems (events : List StageEvent) : List ProcessingWorkItem :=
  events.filterMap (fun | .processed item _ => some item | _ => none)

/-- What the processor and the egress stage did. -/
def pipelineEvents (events : List StageEvent) : List StageEvent :=
  events.filter (fun | .processed .. | .sending _ | .sent _ => true | _ => false)

/-- The routing that the last replacement installed. -/
def routingAfter (initial : Option RoutingState) (events : List StageEvent) : Option RoutingState :=
  events.foldl (fun routing event => match event with | .replaced next => some next | _ => routing) initial

variable (events later : List StageEvent) (index : Nat)

@[simp] lemma arrivedAt_append :
    arrivedAt index (events ++ later) = arrivedAt index events ++ arrivedAt index later :=
  List.filterMap_append

@[simp] lemma boundBy_append : boundBy index (events ++ later) = boundBy index events ++ boundBy index later :=
  List.filterMap_append

@[simp] lemma boundItems_append : boundItems (events ++ later) = boundItems events ++ boundItems later :=
  List.filterMap_append

@[simp] lemma processedItems_append :
    processedItems (events ++ later) = processedItems events ++ processedItems later :=
  List.filterMap_append

@[simp] lemma pipelineEvents_append :
    pipelineEvents (events ++ later) = pipelineEvents events ++ pipelineEvents later :=
  List.filter_append _ _

@[simp] lemma pipelineEvents_processed (item : ProcessingWorkItem) (outputs : List ProcessorOutput) :
    pipelineEvents [.processed item outputs] = [.processed item outputs] := rfl

@[simp] lemma processedItems_processed (item : ProcessingWorkItem) (outputs : List ProcessorOutput) :
    processedItems [.processed item outputs] = [item] := rfl

lemma routingAfter_append (initial : Option RoutingState) :
    routingAfter initial (events ++ later) = routingAfter (routingAfter initial events) later :=
  List.foldl_append

end Events

/-! ### One task in the place of two -/

section Serial

variable (process : σ → ProcessingWorkItem → σ × Except PyException (List ProcessorOutput))

/-- The calls of `send_to_ids` for the outputs of a batch. -/
def sends (outputs : List ProcessorOutput) : List StageEvent :=
  outputs.flatMap (fun output => [.sending output, .sent output])

/-- A task that processes an item, sends its outputs and only then goes on. -/
def serialRun : σ → List ProcessingWorkItem → List StageEvent
  | _, [] => []
  | state, item :: items =>
    match process state item with
    | (_, .error _) => [.processed item []]
    | (next, .ok outputs) => .processed item outputs :: sends outputs ++ serialRun next items

/-- The state of the processor behind the items; `none` if it raised. -/
def serialState : σ → List ProcessingWorkItem → Option σ
  | state, [] => some state
  | state, item :: items =>
    match process state item with
    | (_, .error _) => none
    | (next, .ok _) => serialState next items

variable {process} {state last : σ} {items : List ProcessingWorkItem}

lemma serialRun_append (h : serialState process state items = some last) (more : List ProcessingWorkItem) :
    serialRun process state (items ++ more) = serialRun process state items ++ serialRun process last more := by
  induction items generalizing state with
  | nil =>
    obtain rfl := Option.some.inj h
    rfl
  | cons item items ih =>
    rw [List.cons_append, serialRun, serialRun]
    rw [serialState] at h
    rcases hprocess : process state item with ⟨next, result⟩
    rw [hprocess] at h
    cases result with
    | error e => cases h
    | ok outputs =>
      simp only [ih h, List.append_assoc, List.cons_append]

lemma serialState_append (h : serialState process state items = some last) (more : List ProcessingWorkItem) :
    serialState process state (items ++ more) = serialState process last more := by
  induction items generalizing state with
  | nil =>
    obtain rfl := Option.some.inj h
    rfl
  | cons item items ih =>
    rw [List.cons_append, serialState]
    rw [serialState] at h
    rcases hprocess : process state item with ⟨next, result⟩
    rw [hprocess] at h
    cases result with
    | error e => cases h
    | ok outputs => exact ih h

lemma serialRun_mono (state : σ) (items more : List ProcessingWorkItem) :
    serialRun process state items <+: serialRun process state (items ++ more) := by
  induction items generalizing state with
  | nil => exact List.nil_prefix
  | cons item items ih =>
    rw [List.cons_append, serialRun, serialRun]
    rcases process state item with ⟨next, result⟩
    cases result with
    | error e => exact List.prefix_rfl
    | ok outputs =>
      have hrest := ih next
      exact (List.prefix_append_right_inj _).mpr hrest

end Serial

/-! ### The batches on their way -/

/-- What is still to come of the outputs that a stage has. -/
def egressPending : EgressStage → List StageEvent
  | .idle => []
  | .sending _ output rest => .sent output :: sends rest
  | .ended [] => []
  | .ended (output :: rest) => .sent output :: sends rest

def processorPending : ProcessorStage → List StageEvent
  | .putting batch => sends batch.outputs
  | .ended lost => sends lost
  | _ => []

def pending (s : Stages σ) : List StageEvent :=
  egressPending s.egress ++ s.egressQueue.flatMap (fun batch => sends batch.outputs) ++
    processorPending s.processor

/-- The numbers in use are those that were given out. -/
structure Numbered (s : Stages σ) : Prop where
  completions : ∀ number, s.nextBatch ≤ number → s.completions.get? number = none
  queue : ∀ batch ∈ s.egressQueue, batch.number < s.nextBatch
  egress : ∀ number output rest, s.egress = .sending number output rest → number < s.nextBatch
  putting : ∀ batch, s.processor = .putting batch → batch.number < s.nextBatch
  awaiting : ∀ number, s.processor = .awaiting number → number < s.nextBatch

/-- The place where the batch of the processor stage is. -/
inductive Phase (s : Stages σ) : Prop
  | free (hprocessor : s.processor = .idle ∨ s.processor = .taking) (hqueue : s.egressQueue = [])
      (hegress : egressPending s.egress = [])
  | queued (number : Nat) (outputs : List ProcessorOutput) (hprocessor : s.processor = .awaiting number)
      (hqueue : s.egressQueue = [⟨number, outputs⟩]) (hegress : egressPending s.egress = [])
      (hopen : s.completions.get? number = none)
  | sending (number : Nat) (output : ProcessorOutput) (rest : List ProcessorOutput)
      (hprocessor : s.processor = .awaiting number) (hqueue : s.egressQueue = [])
      (hegress : s.egress = .sending number output rest) (hopen : s.completions.get? number = none)
  | settled (number : Nat) (completion : Completion) (hprocessor : s.processor = .awaiting number)
      (hsettled : s.completions.get? number = some completion)
      (hresult : completion = .result → s.egressQueue = [] ∧ egressPending s.egress = [])
  | ended (lost : List ProcessorOutput) (hprocessor : s.processor = .ended lost)

/-- What happened with what is still to come is what one task does. -/
structure PipelineAccount (process : σ → ProcessingWorkItem → σ × Except PyException (List ProcessorOutput))
    (initial : σ) (s : Stages σ) (past : List StageEvent) : Prop where
  account : pipelineEvents past ++ s.pending = serialRun process initial (processedItems past)
  alive : (∀ lost, s.processor ≠ .ended lost) →
    serialState process initial (processedItems past) = some s.processorState
  phase : Phase s
  numbered : Numbered s

/-! ### What each task leaves alone -/

/-- The parts that belong to the processor and the egress stage. -/
structure SamePipeline (s s' : Stages σ) : Prop where
  processorState : s'.processorState = s.processorState
  processor : s'.processor = s.processor
  egressMaxsize : s'.egressMaxsize = s.egressMaxsize
  egressQueue : s'.egressQueue = s.egressQueue
  egress : s'.egress = s.egress
  metrics : s'.metrics = s.metrics
  completions : s'.completions = s.completions
  nextBatch : s'.nextBatch = s.nextBatch

lemma SamePipeline.refl (s : Stages σ) : SamePipeline s s := ⟨rfl, rfl, rfl, rfl, rfl, rfl, rfl, rfl⟩

section Readers

variable (legacyTargetIds : List Nat) (s : Stages σ) (index : Nat)

lemma setReader_same (processing : BoundedProcessingQueue) (reader : Reader) :
    SamePipeline s ({ s with processing := processing }.setReader index reader) :=
  ⟨rfl, rfl, rfl, rfl, rfl, rfl, rfl, rfl⟩

lemma afterAdmit_same (inbox : List IngressItem) (frame : IngressFrame)
    (admission : BoundedProcessingQueue × QueueOutcome) :
    SamePipeline s (s.afterAdmit index inbox frame admission).1 ∧
      pipelineEvents (s.afterAdmit index inbox frame admission).2 = [] ∧
      processedItems (s.afterAdmit index inbox frame admission).2 = [] := by
  rcases admission with ⟨processing, outcome⟩
  cases outcome with
  | waits => exact ⟨setReader_same s index processing _, rfl, rfl⟩
  | admitted item => exact ⟨setReader_same s index processing _, rfl, rfl⟩
  | got item => exact ⟨setReader_same s index processing _, rfl, rfl⟩
  | raised error => exact ⟨setReader_same s index processing _, rfl, rfl⟩

lemma readerStep_same (reader : Reader) (action : ReaderAction) :
    SamePipeline s (s.readerStep legacyTargetIds index reader action).1 ∧
      pipelineEvents (s.readerStep legacyTargetIds index reader action).2 = [] ∧
      processedItems (s.readerStep legacyTargetIds index reader action).2 = [] := by
  have hset (reader : Reader) : SamePipeline s (s.setReader index reader) :=
    setReader_same s index s.processing reader
  rcases reader with ⟨inbox, state⟩
  cases action with
  | arrive item => exact ⟨hset _, rfl, rfl⟩
  | read =>
    cases inbox with
    | nil => exact ⟨.refl s, rfl, rfl⟩
    | cons item inbox =>
      cases state with
      | waiting =>
        simp only [readerStep]
        cases coerceIngressFrame item with
        | none => exact ⟨hset _, rfl, rfl⟩
        | some frame => exact ⟨hset _, rfl, rfl⟩
      | holding frame admitting => exact ⟨.refl s, rfl, rfl⟩
      | ended lost => exact ⟨.refl s, rfl, rfl⟩
  | beginAdmit =>
    rcases state with _ | ⟨frame, _ | _⟩ | lost
    · exact ⟨.refl s, rfl, rfl⟩
    · exact afterAdmit_same s index inbox frame _
    · exact ⟨.refl s, rfl, rfl⟩
    · exact ⟨.refl s, rfl, rfl⟩
  | resumeAdmit wakes =>
    rcases state with _ | ⟨frame, _ | _⟩ | lost
    · exact ⟨.refl s, rfl, rfl⟩
    · exact ⟨.refl s, rfl, rfl⟩
    · simp only [readerStep]
      cases s.processing.resumeAdmit index wakes (s.bindFactory legacyTargetIds frame) with
      | none => exact ⟨.refl s, rfl, rfl⟩
      | some admission => exact afterAdmit_same s index inbox frame admission
    · exact ⟨.refl s, rfl, rfl⟩
  | cancel =>
    rcases state with _ | ⟨frame, _ | _⟩ | lost
    · exact ⟨hset _, rfl, rfl⟩
    · exact ⟨.refl s, rfl, rfl⟩
    · exact ⟨⟨rfl, rfl, rfl, rfl, rfl, rfl, rfl, rfl⟩, rfl, rfl⟩
    · exact ⟨.refl s, rfl, rfl⟩

end Readers

/-! ### The steps of the egress stage -/

section Egress

variable (s : Stages σ) (number : Nat)

lemma settle_eq (completion : Completion) : s.settle number completion =
    { s with completions := (s.settle number completion).completions } := by
  unfold settle
  split <;> rfl

lemma settle_get? (completion : Completion) (other : Nat) :
    (s.settle number completion).completions.get? other =
      if other = number then some ((s.completions.get? number).getD completion)
      else s.completions.get? other := by
  unfold settle Dict.contains
  cases hget : s.completions.get? number with
  | none =>
    simp only [Option.isSome_none, Bool.false_eq_true, if_false, Dict.get?_set, Option.getD_none]
    simp only [eq_comm]
  | some old =>
    simp only [Option.isSome_some, if_true, Option.getD_some]
    split
    · next heq => rw [heq, hget]
    · rfl

/-- What the egress stage leaves alone. -/
structure SameProcessor (s s' : Stages σ) : Prop where
  readers : s'.readers = s.readers
  routing : s'.routing = s.routing
  processing : s'.processing = s.processing
  processorState : s'.processorState = s.processorState
  processor : s'.processor = s.processor
  egressMaxsize : s'.egressMaxsize = s.egressMaxsize
  nextBatch : s'.nextBatch = s.nextBatch

lemma SameProcessor.trans {s s' s'' : Stages σ} (h : SameProcessor s s') (h' : SameProcessor s' s'') :
    SameProcessor s s'' where
  readers := h'.readers.trans h.readers
  routing := h'.routing.trans h.routing
  processing := h'.processing.trans h.processing
  processorState := h'.processorState.trans h.processorState
  processor := h'.processor.trans h.processor
  egressMaxsize := h'.egressMaxsize.trans h.egressMaxsize
  nextBatch := h'.nextBatch.trans h.nextBatch

lemma settle_same (completion : Completion) : SameProcessor s (s.settle number completion) := by
  rw [settle_eq]
  exact ⟨rfl, rfl, rfl, rfl, rfl, rfl, rfl⟩

lemma sendNext_same (outputs : List ProcessorOutput) : SameProcessor s (s.sendNext number outputs).1 := by
  cases outputs with
  | nil =>
    have hsettle := settle_same s number .result
    exact hsettle.trans ⟨rfl, rfl, rfl, rfl, rfl, rfl, rfl⟩
  | cons output rest => exact ⟨rfl, rfl, rfl, rfl, rfl, rfl, rfl⟩

lemma egressStep_same (action : EgressAction) : SameProcessor s (s.egressStep action).1 := by
  have hself : SameProcessor s s := ⟨rfl, rfl, rfl, rfl, rfl, rfl, rfl⟩
  cases action with
  | fetch =>
    simp only [egressStep]
    split
    · have hnext (t : Stages σ) (batch : EgressBatch) (ht : SameProcessor s t) :=
        ht.trans (sendNext_same t batch.number batch.outputs)
      exact hnext _ _ ⟨rfl, rfl, rfl, rfl, rfl, rfl, rfl⟩
    · exact hself
  | sendReturns =>
    simp only [egressStep]
    split
    · next number output rest _ =>
      have hnext (t : Stages σ) (ht : SameProcessor s t) := ht.trans (sendNext_same t number rest)
      exact hnext _ ⟨rfl, rfl, rfl, rfl, rfl, rfl, rfl⟩
    · exact hself
  | sendRaises =>
    simp only [egressStep]
    split
    · next number output rest _ =>
      have hsettle := settle_same s number .exception
      exact hsettle.trans ⟨rfl, rfl, rfl, rfl, rfl, rfl, rfl⟩
    · exact hself
  | cancel =>
    simp only [egressStep]
    split
    · exact ⟨rfl, rfl, rfl, rfl, rfl, rfl, rfl⟩
    · next number output rest _ =>
      have hsettle := settle_same s number .cancelled
      exact hsettle.trans ⟨rfl, rfl, rfl, rfl, rfl, rfl, rfl⟩
    · exact hself

/-- The stage begins with the next output of a batch, or is idle again. -/
lemma sendNext_account (outputs : List ProcessorOutput) :
    (s.sendNext number outputs).2 ++ egressPending (s.sendNext number outputs).1.egress = sends outputs ∧
      (s.sendNext number outputs).1.egressQueue = s.egressQueue := by
  cases outputs with
  | nil =>
    rw [sendNext, settle_eq]
    exact ⟨rfl, rfl⟩
  | cons output rest => exact ⟨rfl, rfl⟩

lemma egressStep_account (action : EgressAction) :
    (s.egressStep action).2 ++ (s.egressStep action).1.pending = s.pending := by
  have hsame := egressStep_same s action
  rw [pending, pending, hsame.processor, ← List.append_assoc, ← List.append_assoc]
  congr 1
  cases action with
  | fetch =>
    simp only [egressStep]
    split
    · next batch rest hegress hqueue =>
      have hnext := sendNext_account { s with egressQueue := rest, metrics := s.metrics.batchStarted }
        batch.number batch.outputs
      rw [hnext.1, hnext.2, hegress, hqueue]
      rfl
    · rfl
  | sendReturns =>
    simp only [egressStep]
    split
    · next number output rest hegress =>
      have hnext := sendNext_account { s with metrics := s.metrics.outputCompleted } number rest
      rw [List.cons_append, List.cons_append, hnext.1, hnext.2, hegress]
      rfl
    · rfl
  | sendRaises =>
    simp only [egressStep]
    split
    · next number output rest hegress =>
      rw [settle_eq, hegress]
      rfl
    · rfl
  | cancel =>
    simp only [egressStep]
    split
    · next hegress =>
      rw [hegress]
      rfl
    · next number output rest hegress =>
      rw [settle_eq, hegress]
      rfl
    · next lost hegress => rfl

/-- A stage without a batch can only end. -/
lemma egressStep_quiet (hqueue : s.egressQueue = []) (hegress : egressPending s.egress = [])
    (action : EgressAction) :
    (s.egressStep action).1 = s ∨ (s.egressStep action).1 = { s with egress := .ended [] } := by
  cases hstage : s.egress with
  | idle =>
    cases action with
    | fetch =>
      left
      simp only [egressStep, hstage, hqueue]
    | sendReturns =>
      left
      simp only [egressStep, hstage]
    | sendRaises =>
      left
      simp only [egressStep, hstage]
    | cancel =>
      right
      simp only [egressStep, hstage]
  | sending number output rest =>
    rw [hstage] at hegress
    cases hegress
  | ended lost =>
    left
    cases action <;> simp only [egressStep, hstage]

lemma sendNext_completions (outputs : List ProcessorOutput) (other : Nat) (completion : Completion)
    (h : s.completions.get? other = some completion) :
    (s.sendNext number outputs).1.completions.get? other = some completion := by
  cases outputs with
  | nil =>
    simp only [sendNext, settle_get?]
    split
    · next heq =>
      rw [← heq, h]
      rfl
    · exact h
  | cons output rest => exact h

/-- A completion that is settled stays so. -/
lemma settle_completions (new : Completion) {other : Nat} {completion : Completion}
    (h : s.completions.get? other = some completion) :
    (s.settle number new).completions.get? other = some completion := by
  rw [settle_get?]
  split
  · next heq =>
    rw [← heq, h]
    rfl
  · exact h

lemma egressStep_completions (action : EgressAction) {other : Nat} {completion : Completion}
    (h : s.completions.get? other = some completion) :
    (s.egressStep action).1.completions.get? other = some completion := by
  cases action with
  | fetch =>
    simp only [egressStep]
    split
    · exact sendNext_completions _ _ _ other completion h
    · exact h
  | sendReturns =>
    simp only [egressStep]
    split
    · exact sendNext_completions _ _ _ other completion h
    · exact h
  | sendRaises =>
    simp only [egressStep]
    split
    · exact settle_completions s _ _ h
    · exact h
  | cancel =>
    simp only [egressStep]
    split
    · exact h
    · exact settle_completions s _ _ h
    · exact h

/-- Where the batch is when the stage goes on with it. -/
lemma sendNext_phase (outputs : List ProcessorOutput) (hprocessor : s.processor = .awaiting number)
    (hqueue : s.egressQueue = []) (hopen : s.completions.get? number = none) :
    Phase (s.sendNext number outputs).1 := by
  have hsame := sendNext_same s number outputs
  cases outputs with
  | nil =>
    have hsettled : (s.settle number .result).completions.get? number = some .result := by
      rw [settle_get?, if_pos rfl, hopen]
      rfl
    have hstays : (s.settle number .result).egressQueue = [] := by
      rw [settle_eq]
      exact hqueue
    exact .settled number .result (hsame.processor.trans hprocessor) hsettled (fun _ => ⟨hstays, rfl⟩)
  | cons output rest => exact .sending number output rest hprocessor hqueue rfl hopen

lemma egressStep_phase (h : Phase s) (action : EgressAction) : Phase (s.egressStep action).1 := by
  have hsame := egressStep_same s action
  cases h with
  | free hprocessor hqueue hegress =>
    rcases egressStep_quiet s hqueue hegress action with hstep | hstep
    · rw [hstep]
      exact .free hprocessor hqueue hegress
    · rw [hstep]
      exact .free hprocessor hqueue rfl
  | queued number outputs hprocessor hqueue hegress hopen =>
    cases hstage : s.egress with
    | idle =>
      cases action with
      | fetch =>
        simp only [egressStep, hstage, hqueue]
        exact sendNext_phase _ number outputs hprocessor rfl hopen
      | sendReturns =>
        simp only [egressStep, hstage]
        exact .queued number outputs hprocessor hqueue hegress hopen
      | sendRaises =>
        simp only [egressStep, hstage]
        exact .queued number outputs hprocessor hqueue hegress hopen
      | cancel =>
        simp only [egressStep, hstage]
        exact .queued number outputs hprocessor hqueue rfl hopen
    | sending number output rest =>
      rw [hstage] at hegress
      cases hegress
    | ended lost =>
      have hstays : (s.egressStep action).1 = s := by
        cases action <;> simp only [egressStep, hstage]
      rw [hstays]
      exact .queued number outputs hprocessor hqueue hegress hopen
  | sending number output rest hprocessor hqueue hegress hopen =>
    cases action with
    | fetch =>
      simp only [egressStep, hegress]
      exact .sending number output rest hprocessor hqueue hegress hopen
    | sendReturns =>
      simp only [egressStep, hegress]
      exact sendNext_phase _ number rest hprocessor hqueue hopen
    | sendRaises =>
      have hsettled := settle_get? s number .exception number
      rw [if_pos rfl, hopen] at hsettled
      refine .settled number .exception (hsame.processor.trans hprocessor) ?_ (by simp)
      simp only [egressStep, hegress]
      exact hsettled
    | cancel =>
      have hsettled := settle_get? s number .cancelled number
      rw [if_pos rfl, hopen] at hsettled
      refine .settled number .cancelled (hsame.processor.trans hprocessor) ?_ (by simp)
      simp only [egressStep, hegress]
      exact hsettled
  | settled number completion hprocessor hsettled hresult =>
    have hstays := egressStep_completions s action hsettled
    refine .settled number completion (hsame.processor.trans hprocessor) hstays ?_
    intro heq
    obtain ⟨hqueue, hegress⟩ := hresult heq
    rcases egressStep_quiet s hqueue hegress action with hstep | hstep
    · rw [hstep]
      exact ⟨hqueue, hegress⟩
    · rw [hstep]
      exact ⟨hqueue, rfl⟩
  | ended lost hprocessor => exact .ended lost (hsame.processor.trans hprocessor)

lemma settle_numbered (h : Numbered s) (hnumber : number < s.nextBatch) (completion : Completion) :
    Numbered (s.settle number completion) := by
  have hcompletions := settle_get? s number completion
  rw [settle_eq]
  constructor
  · intro other hother
    have hne : other ≠ number := by
      have hbound : s.nextBatch ≤ other := hother
      omega
    rw [← settle_eq, hcompletions, if_neg hne]
    exact h.completions other hother
  · exact h.queue
  · exact h.egress
  · exact h.putting
  · exact h.awaiting

lemma sendNext_numbered (h : Numbered s) (hnumber : number < s.nextBatch) (outputs : List ProcessorOutput) :
    Numbered (s.sendNext number outputs).1 := by
  cases outputs with
  | nil =>
    have hsettled := settle_numbered s number h hnumber .result
    exact ⟨hsettled.completions, hsettled.queue, by simp [sendNext], hsettled.putting, hsettled.awaiting⟩
  | cons output rest =>
    refine ⟨h.completions, h.queue, ?_, h.putting, h.awaiting⟩
    intro other output' rest' heq
    obtain ⟨rfl, -, -⟩ := EgressStage.sending.inj heq
    exact hnumber

lemma egressStep_numbered (h : Numbered s) (action : EgressAction) : Numbered (s.egressStep action).1 := by
  have hends (t : Stages σ) (ht : Numbered t) (metrics : EgressMetrics) (lost : List ProcessorOutput) :
      Numbered { t with metrics := metrics, egress := .ended lost } :=
    ⟨ht.completions, ht.queue, by simp, ht.putting, ht.awaiting⟩
  cases action with
  | fetch =>
    simp only [egressStep]
    split
    · next batch rest hegress hqueue =>
      have hmem : batch ∈ s.egressQueue := by
        rw [hqueue]
        exact List.mem_cons_self
      apply sendNext_numbered
      · refine ⟨h.completions, ?_, h.egress, h.putting, h.awaiting⟩
        intro other hother
        apply h.queue
        rw [hqueue]
        exact List.mem_cons_of_mem _ hother
      · exact h.queue batch hmem
    · exact h
  | sendReturns =>
    simp only [egressStep]
    split
    · next number output rest hegress =>
      apply sendNext_numbered
      · exact ⟨h.completions, h.queue, h.egress, h.putting, h.awaiting⟩
      · exact h.egress number output rest hegress
    · exact h
  | sendRaises =>
    simp only [egressStep]
    split
    · next number output rest hegress =>
      have hsettled := settle_numbered s number h (h.egress number output rest hegress) .exception
      exact hends _ hsettled _ _
    · exact h
  | cancel =>
    simp only [egressStep]
    split
    · exact hends s h s.metrics []
    · next number output rest hegress =>
      have hsettled := settle_numbered s number h (h.egress number output rest hegress) .cancelled
      exact hends _ hsettled _ _
    · exact h

end Egress

/-! ### The steps of the processor stage -/

section Processor

variable {process : σ → ProcessingWorkItem → σ × Except PyException (List ProcessorOutput)} {initial : σ}
  {s : Stages σ} {past : List StageEvent}

/-- A stage that waits for work has nothing on its way. -/
lemma PipelineAccount.free (h : PipelineAccount process initial s past)
    (hprocessor : s.processor = .idle ∨ s.processor = .taking) :
    s.egressQueue = [] ∧ egressPending s.egress = [] := by
  have hphase := h.phase
  cases hphase with
  | free _ hqueue hegress => exact ⟨hqueue, hegress⟩
  | queued number outputs hawaiting =>
    rw [hawaiting] at hprocessor
    simp at hprocessor
  | sending number output rest hawaiting =>
    rw [hawaiting] at hprocessor
    simp at hprocessor
  | settled number completion hawaiting =>
    rw [hawaiting] at hprocessor
    simp at hprocessor
  | ended lost hended =>
    rw [hended] at hprocessor
    simp at hprocessor

/-- The account of a state in which only the place of the processor stage is another one. -/
lemma PipelineAccount.move (h : PipelineAccount process initial s past) {processor : ProcessorStage}
    (hpending : processorPending processor = processorPending s.processor)
    (halive : (∀ lost, processor ≠ .ended lost) → ∀ lost, s.processor ≠ .ended lost)
    (hphase : Phase { s with processor := processor })
    (hputting : ∀ batch, processor ≠ .putting batch) (hawaiting : ∀ number, processor ≠ .awaiting number) :
    PipelineAccount process initial { s with processor := processor } past where
  account := by
    have haccount := h.account
    simp only [pending] at haccount ⊢
    rw [hpending]
    exact haccount
  alive := fun hlive => h.alive (halive hlive)
  phase := hphase
  numbered := ⟨h.numbered.completions, h.numbered.queue, h.numbered.egress,
    fun batch heq => absurd heq (hputting batch), fun number heq => absurd heq (hawaiting number)⟩

/-- A batch on its way to an empty queue is in the queue at once. -/
lemma tryPut_empty (s : Stages σ) (batch : EgressBatch) (hprocessor : s.processor = .putting batch)
    (hqueue : s.egressQueue = []) :
    s.tryPut = { s with egressQueue := [batch], processor := .awaiting batch.number } := by
  unfold tryPut
  rw [hprocessor]
  simp only [hqueue, List.length_nil]
  rw [if_pos s.egressMaxsize.pos]
  rfl

lemma Phase.of_same {s' : Stages σ} (h : Phase s) (hsame : SamePipeline s s') : Phase s' := by
  have hprocessor' := hsame.processor
  have hqueue' := hsame.egressQueue
  have hegress' := hsame.egress
  have hcompletions' := hsame.completions
  cases h with
  | free hprocessor hqueue hegress =>
    exact .free (by rwa [hprocessor']) (by rwa [hqueue']) (by rwa [hegress'])
  | queued number outputs hprocessor hqueue hegress hopen =>
    exact .queued number outputs (by rwa [hprocessor']) (by rwa [hqueue']) (by rwa [hegress'])
      (by rwa [hcompletions'])
  | sending number output rest hprocessor hqueue hegress hopen =>
    exact .sending number output rest (by rwa [hprocessor']) (by rwa [hqueue']) (by rwa [hegress'])
      (by rwa [hcompletions'])
  | settled number completion hprocessor hsettled hresult =>
    exact .settled number completion (by rwa [hprocessor']) (by rwa [hcompletions']) (by rwa [hqueue', hegress'])
  | ended lost hprocessor => exact .ended lost (by rwa [hprocessor'])

/-- A step that the pipeline does not see. -/
lemma PipelineAccount.of_same {s' : Stages σ} {events : List StageEvent}
    (h : PipelineAccount process initial s past) (hsame : SamePipeline s s')
    (hevents : pipelineEvents events = []) (hitems : processedItems events = []) :
    PipelineAccount process initial s' (past ++ events) where
  account := by
    have haccount := h.account
    rw [pending] at haccount ⊢
    rw [hsame.egress, hsame.egressQueue, hsame.processor, pipelineEvents_append, processedItems_append, hevents,
      hitems, List.append_nil, List.append_nil]
    exact haccount
  alive := by
    rw [processedItems_append, hitems, List.append_nil, hsame.processor, hsame.processorState]
    exact h.alive
  phase := h.phase.of_same hsame
  numbered := by
    have hnumbered := h.numbered
    constructor
    · rw [hsame.completions, hsame.nextBatch]
      exact hnumbered.completions
    · rw [hsame.egressQueue, hsame.nextBatch]
      exact hnumbered.queue
    · rw [hsame.egress, hsame.nextBatch]
      exact hnumbered.egress
    · rw [hsame.processor, hsame.nextBatch]
      exact hnumbered.putting
    · rw [hsame.processor, hsame.nextBatch]
      exact hnumbered.awaiting

lemma PipelineAccount.setProcessing (h : PipelineAccount process initial s past)
    (processing : BoundedProcessingQueue) :
    PipelineAccount process initial { s with processing := processing } past := by
  have hsame : SamePipeline s { s with processing := processing } := ⟨rfl, rfl, rfl, rfl, rfl, rfl, rfl, rfl⟩
  have hnil : past = past ++ [] := (List.append_nil past).symm
  rw [hnil]
  exact h.of_same hsame rfl rfl

/-- What a call of the processor adds to the account. -/
lemma handleItem_pipeline (h : PipelineAccount process initial s past)
    (hprocessor : s.processor = .idle ∨ s.processor = .taking) (item : ProcessingWorkItem) :
    PipelineAccount process initial (s.handleItem process item).1 (past ++ (s.handleItem process item).2) := by
  obtain ⟨hqueue, hegress⟩ := h.free hprocessor
  have hlive : ∀ lost, s.processor ≠ .ended lost := by
    intro lost heq
    rw [heq] at hprocessor
    simp at hprocessor
  have hstate := h.alive hlive
  have hpending : s.pending = [] := by
    rcases hprocessor with hidle | htaking
    · simp [pending, hqueue, hegress, hidle, processorPending]
    · simp [pending, hqueue, hegress, htaking, processorPending]
  have haccount := h.account
  rw [hpending, List.append_nil] at haccount
  have hrun := serialRun_append hstate [item]
  have hnext := serialState_append hstate [item]
  have hnumbered := h.numbered
  have hfresh := hnumbered.completions s.nextBatch le_rfl
  unfold handleItem
  rcases hprocess : process s.processorState item with ⟨processorState, result⟩
  rw [serialRun, hprocess] at hrun
  rw [serialState, hprocess] at hnext
  cases result with
  | error e =>
    simp only at hrun
    constructor
    · simp [haccount, hrun, pending, hqueue, hegress, processorPending, sends]
    · intro hended
      exact absurd rfl (hended [])
    · exact .ended [] rfl
    · exact ⟨hnumbered.completions, hnumbered.queue, hnumbered.egress, by simp, by simp⟩
  | ok outputs =>
    by_cases hempty : outputs = []
    · subst hempty
      simp only [if_true]
      simp only [serialRun, sends, List.flatMap_nil, List.append_nil] at hrun
      constructor
      · simp [haccount, hrun, pending, hqueue, hegress, processorPending]
      · intro _
        rw [processedItems_append, processedItems_processed, hnext]
        rfl
      · exact .free (.inl rfl) hqueue hegress
      · exact ⟨hnumbered.completions, hnumbered.queue, hnumbered.egress, by simp, by simp⟩
    · simp only [if_neg hempty]
      have hput := tryPut_empty
        { s with
          processorState := processorState
          processor := .putting ⟨s.nextBatch, outputs⟩
          nextBatch := s.nextBatch + 1 } ⟨s.nextBatch, outputs⟩ rfl hqueue
      rw [hput]
      simp only [serialRun, List.append_nil] at hrun
      constructor
      · simp [haccount, hrun, pending, hegress, processorPending]
      · intro _
        rw [processedItems_append, processedItems_processed, hnext]
        rfl
      · exact .queued s.nextBatch outputs rfl rfl hegress hfresh
      · constructor
        · intro number hnumber
          apply hnumbered.completions
          have hbound : s.nextBatch + 1 ≤ number := hnumber
          omega
        · intro batch hbatch
          obtain rfl := List.mem_singleton.mp hbatch
          exact Nat.lt_succ_self _
        · intro number output rest heq
          have hbelow := hnumbered.egress number output rest heq
          exact Nat.lt_succ_of_lt hbelow
        · simp
        · intro number heq
          obtain rfl := ProcessorStage.awaiting.inj heq
          exact Nat.lt_succ_self _

lemma afterGet_pipeline (h : PipelineAccount process initial s past)
    (hprocessor : s.processor = .idle ∨ s.processor = .taking) (result : BoundedProcessingQueue × QueueOutcome) :
    PipelineAccount process initial (s.afterGet process result).1 (past ++ (s.afterGet process result).2) := by
  obtain ⟨hqueue, hegress⟩ := h.free hprocessor
  rcases result with ⟨processing, outcome⟩
  have hgot := h.setProcessing processing
  have hlive : ∀ lost, s.processor ≠ .ended lost := by
    intro lost heq
    rw [heq] at hprocessor
    simp at hprocessor
  have hpending : [] = processorPending s.processor := by
    rcases hprocessor with hidle | htaking
    · rw [hidle]
      rfl
    · rw [htaking]
      rfl
  have hends : PipelineAccount process initial
      { s with processing := processing, processor := .ended [] } (past ++ []) := by
    rw [List.append_nil]
    exact hgot.move hpending (fun _ => hlive) (.ended [] rfl) (by simp) (by simp)
  cases outcome with
  | waits =>
    simp only [afterGet, List.append_nil]
    exact hgot.move hpending (fun _ => hlive) (.free (.inr rfl) hqueue hegress) (by simp) (by simp)
  | got item => exact handleItem_pipeline hgot hprocessor item
  | admitted item => exact hends
  | raised error => exact hends

/-- The account of a state with another completion, in which the processor stage has ended. -/
lemma PipelineAccount.abandon (h : PipelineAccount process initial s past) {number : Nat}
    (hnumber : number < s.nextBatch) {lost : List ProcessorOutput}
    (hpending : processorPending (.ended lost) = processorPending s.processor) :
    PipelineAccount process initial { s.settle number .cancelled with processor := .ended lost } past where
  account := by
    have haccount := h.account
    rw [settle_eq]
    simp only [pending] at haccount ⊢
    rw [hpending]
    exact haccount
  alive := fun hlive => absurd rfl (hlive lost)
  phase := .ended lost rfl
  numbered := by
    have hsettled := settle_numbered s number h.numbered hnumber .cancelled
    exact ⟨hsettled.completions, hsettled.queue, hsettled.egress, by simp, by simp⟩

lemma processorStep_pipeline (h : PipelineAccount process initial s past) (action : ProcessorAction) :
    PipelineAccount process initial (s.processorStep process action).1
      (past ++ (s.processorStep process action).2) := by
  have hstay : PipelineAccount process initial s (past ++ []) := by
    rw [List.append_nil]
    exact h
  have hnone : s.processor = .idle ∨ s.processor = .taking → [] = processorPending s.processor := by
    rintro (hidle | htaking)
    · rw [hidle]
      rfl
    · rw [htaking]
      rfl
  cases hprocessor : s.processor with
  | idle =>
    cases action with
    | take =>
      simp only [processorStep, hprocessor]
      exact afterGet_pipeline h (.inl hprocessor) _
    | put =>
      simp only [processorStep, tryPut, hprocessor]
      exact hstay
    | resumeTake =>
      simp only [processorStep, hprocessor]
      exact hstay
    | resume =>
      simp only [processorStep, hprocessor]
      exact hstay
    | cancel =>
      simp only [processorStep, hprocessor]
      exact hstay
  | taking =>
    cases action with
    | take =>
      simp only [processorStep, hprocessor]
      exact hstay
    | put =>
      simp only [processorStep, tryPut, hprocessor]
      exact hstay
    | resumeTake =>
      simp only [processorStep, hprocessor]
      cases s.processing.resumeGet processorTask with
      | none => exact hstay
      | some result => exact afterGet_pipeline h (.inr hprocessor) result
    | resume =>
      simp only [processorStep, hprocessor]
      exact hstay
    | cancel =>
      have hstep : s.processorStep process .cancel =
          ({ s with processing := { s.processing with
            workQueue := s.processing.workQueue.cancel processorTask } }, []) := by
        simp only [processorStep, hprocessor]
      rw [hstep, List.append_nil]
      exact h.setProcessing _
  | putting batch =>
    have hphase := h.phase
    cases hphase with
    | free hwaits =>
      rw [hprocessor] at hwaits
      simp at hwaits
    | queued number outputs hawaiting =>
      rw [hprocessor] at hawaiting
      cases hawaiting
    | sending number output rest hawaiting =>
      rw [hprocessor] at hawaiting
      cases hawaiting
    | settled number completion hawaiting =>
      rw [hprocessor] at hawaiting
      cases hawaiting
    | ended lost hended =>
      rw [hprocessor] at hended
      cases hended
  | awaiting number =>
    cases action with
    | take =>
      simp only [processorStep, hprocessor]
      exact hstay
    | put =>
      simp only [processorStep, tryPut, hprocessor]
      exact hstay
    | resumeTake =>
      simp only [processorStep, hprocessor]
      exact hstay
    | resume =>
      have hlive : ∀ lost, s.processor ≠ .ended lost := by
        intro lost
        rw [hprocessor]
        simp
      have hpending : [] = processorPending s.processor := by
        rw [hprocessor]
        rfl
      simp only [processorStep, hprocessor]
      cases hcompletion : s.completions.get? number with
      | none => exact hstay
      | some completion =>
        cases completion with
        | result =>
          have hfree : s.egressQueue = [] ∧ egressPending s.egress = [] := by
            have hphase := h.phase
            cases hphase with
            | free hwaits =>
              rw [hprocessor] at hwaits
              simp at hwaits
            | queued other outputs hawaiting hqueue hegress hopen =>
              rw [hprocessor] at hawaiting
              obtain rfl := ProcessorStage.awaiting.inj hawaiting
              rw [hopen] at hcompletion
              cases hcompletion
            | sending other output rest hawaiting hqueue hegress hopen =>
              rw [hprocessor] at hawaiting
              obtain rfl := ProcessorStage.awaiting.inj hawaiting
              rw [hopen] at hcompletion
              cases hcompletion
            | settled other completion hawaiting hsettled hresult =>
              rw [hprocessor] at hawaiting
              obtain rfl := ProcessorStage.awaiting.inj hawaiting
              rw [hcompletion] at hsettled
              exact hresult (Option.some.inj hsettled).symm
            | ended lost hended =>
              rw [hprocessor] at hended
              cases hended
          simp only [List.append_nil]
          exact h.move hpending (fun _ => hlive) (.free (.inl rfl) hfree.1 hfree.2) (by simp) (by simp)
        | exception =>
          simp only [List.append_nil]
          exact h.move hpending (fun _ => hlive) (.ended [] rfl) (by simp) (by simp)
        | cancelled =>
          simp only [List.append_nil]
          exact h.move hpending (fun _ => hlive) (.ended [] rfl) (by simp) (by simp)
    | cancel =>
      have hpending : processorPending (.ended []) = processorPending s.processor := by
        rw [hprocessor]
        rfl
      simp only [processorStep, hprocessor, List.append_nil]
      exact h.abandon (h.numbered.awaiting number hprocessor) hpending
  | ended lost =>
    cases action with
    | take =>
      simp only [processorStep, hprocessor]
      exact hstay
    | put =>
      simp only [processorStep, tryPut, hprocessor]
      exact hstay
    | resumeTake =>
      simp only [processorStep, hprocessor]
      exact hstay
    | resume =>
      simp only [processorStep, hprocessor]
      exact hstay
    | cancel =>
      simp only [processorStep, hprocessor]
      exact hstay

end Processor

end AisMixer.Runtime.Stages

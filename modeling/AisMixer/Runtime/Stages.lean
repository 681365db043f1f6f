import AisMixer.Runtime.EgressMetrics
import AisMixer.Runtime.ProcessingQueue

/-!
# The stages of the runtime

`ingress_fan_in_loop`, `processor_stage_loop` and `egress_stage_loop` of `aismixer.py` between their
queues, with replacements of the routing at any time. An action is what one task does up to its next
wait, or a part of that: a schedule of smaller parts can do all that the event loop does.
-/

namespace AisMixer.Runtime

open AisMixer.Library AisMixer.Library.Asyncio AisMixer.Routing

/-! ### The parties -/

/-- What stands on an input queue; an event without a text makes no frame. -/
inductive IngressItem where
  | frame (frame : IngressFrame)
  | event (origin : IngressOrigin) (rawLine : Option PyStr)
  | other
  deriving DecidableEq

def coerceIngressFrame : IngressItem → Option IngressFrame
  | .frame frame => some frame
  | .event origin rawLine => rawLine.map (frameFromTextPayload origin)
  | .other => none

/-- A reader waits for its queue, holds a frame for which it has or has not begun to wait for a permit,
or has ended, perhaps with the frame that it held. -/
inductive ReaderState where
  | waiting
  | holding (frame : IngressFrame) (admitting : Bool)
  | ended (lost : Option IngressFrame)
  deriving DecidableEq

structure Reader where
  inbox : List IngressItem
  state : ReaderState
  deriving DecidableEq

/-- `_EgressBatch`; the number is the identity of its completion. -/
structure EgressBatch where
  number : Nat
  outputs : List ProcessorOutput
  deriving DecidableEq

inductive Completion where
  | result
  | exception
  | cancelled
  deriving DecidableEq

inductive ProcessorStage where
  | idle
  | taking
  | putting (batch : EgressBatch)
  | awaiting (number : Nat)
  | ended (lost : List ProcessorOutput)
  deriving DecidableEq

/-- While a call of `send_to_ids` is under way, the outputs of its batch behind it are still to come. -/
inductive EgressStage where
  | idle
  | sending (number : Nat) (output : ProcessorOutput) (rest : List ProcessorOutput)
  | ended (lost : List ProcessorOutput)
  deriving DecidableEq

structure Stages (σ : Type) where
  readers : List Reader
  routing : Option RoutingState
  processing : BoundedProcessingQueue
  processorState : σ
  processor : ProcessorStage
  egressMaxsize : ℕ+
  egressQueue : List EgressBatch
  egress : EgressStage
  metrics : EgressMetrics
  completions : Dict Nat Completion
  nextBatch : Nat

/-- What happened, for the record. -/
inductive StageEvent where
  | arrived (reader : Nat) (item : IngressItem)
  | bound (reader : Nat) (item : ProcessingWorkItem)
  | replaced (routing : RoutingState)
  | processed (item : ProcessingWorkItem) (outputs : List ProcessorOutput)
  | sending (output : ProcessorOutput)
  | sent (output : ProcessorOutput)

inductive ReaderAction where
  | arrive (item : IngressItem)
  | read
  | beginAdmit
  | resumeAdmit (wakes : Nat)
  | cancel
  deriving DecidableEq

inductive ProcessorAction where
  | take
  | resumeTake
  | put
  | resume
  | cancel
  deriving DecidableEq

inductive EgressAction where
  | fetch
  | sendReturns
  | sendRaises
  | cancel
  deriving DecidableEq

inductive StageAction where
  | reader (index : Nat) (action : ReaderAction)
  | replace (table : Option RoutingTable) (expectedGeneration : Option Int)
  | processor (action : ProcessorAction)
  | egress (action : EgressAction)

namespace Stages

variable {σ : Type}

/-- The start of a number of readers. -/
def new (readers : Nat) (routing : Option RoutingState) (processingMaxsize egressMaxsize : ℕ+)
    (processorState : σ) : Stages σ where
  readers := List.replicate readers ⟨[], .waiting⟩
  routing := routing
  processing := .new processingMaxsize
  processorState := processorState
  processor := .idle
  egressMaxsize := egressMaxsize
  egressQueue := []
  egress := .idle
  metrics := .new
  completions := .empty
  nextBatch := 0

def setReader (s : Stages σ) (index : Nat) (reader : Reader) : Stages σ :=
  { s with readers := s.readers.set index reader }

/-- A future that is settled stays as it is. -/
def settle (s : Stages σ) (number : Nat) (completion : Completion) : Stages σ :=
  if s.completions.contains number then s
  else { s with completions := s.completions.set number completion }

/-! ### The readers -/

/-- The factory of a frame: what it makes depends on the routing when it is called. -/
def bindFactory (legacyTargetIds : List Nat) (s : Stages σ) (frame : IngressFrame) : FactoryResult :=
  match bindProcessingWorkItem frame s.routing legacyTargetIds with
  | .error _ => .raises
  | .ok item => .item item

def afterAdmit (s : Stages σ) (index : Nat) (inbox : List IngressItem) (frame : IngressFrame)
    (admission : BoundedProcessingQueue × QueueOutcome) : Stages σ × List StageEvent :=
  let s := { s with processing := admission.1 }
  match admission.2 with
  | .waits => (s.setReader index ⟨inbox, .holding frame true⟩, [])
  | .admitted item => (s.setReader index ⟨inbox, .waiting⟩, [.bound index item])
  | _ => (s.setReader index ⟨inbox, .ended (some frame)⟩, [])

def readerStep (legacyTargetIds : List Nat) (s : Stages σ) (index : Nat) (reader : Reader) :
    ReaderAction → Stages σ × List StageEvent
  | .arrive item =>
    (s.setReader index { reader with inbox := reader.inbox ++ [item] }, [.arrived index item])
  | .read =>
    match reader.inbox, reader.state with
    | item :: inbox, .waiting =>
      match coerceIngressFrame item with
      | none => (s.setReader index ⟨inbox, .waiting⟩, [])
      | some frame => (s.setReader index ⟨inbox, .holding frame false⟩, [])
    | _, _ => (s, [])
  | .beginAdmit =>
    match reader.state with
    | .holding frame false => s.afterAdmit index reader.inbox frame
        (s.processing.beginAdmit index (s.bindFactory legacyTargetIds frame))
    | _ => (s, [])
  | .resumeAdmit wakes =>
    match reader.state with
    | .holding frame true =>
      match s.processing.resumeAdmit index wakes (s.bindFactory legacyTargetIds frame) with
      | none => (s, [])
      | some admission => s.afterAdmit index reader.inbox frame admission
    | _ => (s, [])
  | .cancel =>
    match reader.state with
    | .waiting => (s.setReader index { reader with state := .ended none }, [])
    | .holding _ true =>
      ({ s with processing := { s.processing with slots := s.processing.slots.cancel index } }, [])
    | _ => (s, [])

/-! ### The processor stage -/

/-- `await egress_queue.put(batch)`: a full queue makes it wait. -/
def tryPut (s : Stages σ) : Stages σ :=
  match s.processor with
  | .putting batch =>
    if s.egressQueue.length < s.egressMaxsize then
      { s with egressQueue := s.egressQueue ++ [batch], processor := .awaiting batch.number }
    else s
  | _ => s

/-- A work item of the queue; a batch without outputs is not handed on. -/
def handleItem (process : σ → ProcessingWorkItem → σ × Except PyException (List ProcessorOutput))
    (s : Stages σ) (item : ProcessingWorkItem) : Stages σ × List StageEvent :=
  match process s.processorState item with
  | (processorState, .error _) =>
    ({ s with processorState := processorState, processor := .ended [] }, [.processed item []])
  | (processorState, .ok outputs) =>
    let s := { s with processorState := processorState }
    if outputs = [] then ({ s with processor := .idle }, [.processed item []])
    else
      ({ s with processor := .putting ⟨s.nextBatch, outputs⟩, nextBatch := s.nextBatch + 1 }.tryPut,
        [.processed item outputs])

def afterGet (process : σ → ProcessingWorkItem → σ × Except PyException (List ProcessorOutput))
    (s : Stages σ) (result : BoundedProcessingQueue × QueueOutcome) : Stages σ × List StageEvent :=
  let s := { s with processing := result.1 }
  match result.2 with
  | .waits => ({ s with processor := .taking }, [])
  | .got item => s.handleItem process item
  | _ => ({ s with processor := .ended [] }, [])

/-- The number of the task of the processor stage among those that wait for work items. -/
def processorTask : Nat := 0

def processorStep (process : σ → ProcessingWorkItem → σ × Except PyException (List ProcessorOutput))
    (s : Stages σ) : ProcessorAction → Stages σ × List StageEvent
  | .take =>
    match s.processor with
    | .idle => s.afterGet process (s.processing.get processorTask)
    | _ => (s, [])
  | .resumeTake =>
    match s.processor with
    | .taking =>
      match s.processing.resumeGet processorTask with
      | none => (s, [])
      | some result => s.afterGet process result
    | _ => (s, [])
  | .put => (s.tryPut, [])
  | .resume =>
    match s.processor with
    | .awaiting number =>
      match s.completions.get? number with
      | none => (s, [])
      | some .result => ({ s with processor := .idle }, [])
      | some _ => ({ s with processor := .ended [] }, [])
    | _ => (s, [])
  | .cancel =>
    match s.processor with
    | .taking =>
      ({ s with processing := { s.processing with
        workQueue := s.processing.workQueue.cancel processorTask } }, [])
    | .putting batch => ({ s.settle batch.number .cancelled with processor := .ended batch.outputs }, [])
    | .awaiting number => ({ s.settle number .cancelled with processor := .ended [] }, [])
    | _ => (s, [])

/-! ### The egress stage -/

/-- The next output of a batch, or its end. -/
def sendNext (s : Stages σ) (number : Nat) : List ProcessorOutput → Stages σ × List StageEvent
  | [] => ({ s.settle number .result with metrics := s.metrics.batchCompleted, egress := .idle }, [])
  | output :: rest =>
    ({ s with metrics := s.metrics.outputStarted, egress := .sending number output rest }, [.sending output])

def egressStep (s : Stages σ) : EgressAction → Stages σ × List StageEvent
  | .fetch =>
    match s.egress, s.egressQueue with
    | .idle, batch :: rest =>
      { s with egressQueue := rest, metrics := s.metrics.batchStarted }.sendNext batch.number batch.outputs
    | _, _ => (s, [])
  | .sendReturns =>
    match s.egress with
    | .sending number output rest =>
      let (s, events) := { s with metrics := s.metrics.outputCompleted }.sendNext number rest
      (s, .sent output :: events)
    | _ => (s, [])
  | .sendRaises =>
    match s.egress with
    | .sending number output rest =>
      ({ s.settle number .exception with
        metrics := s.metrics.outputFailed.batchFailed
        egress := .ended (output :: rest) }, [])
    | _ => (s, [])
  | .cancel =>
    match s.egress with
    | .idle => ({ s with egress := .ended [] }, [])
    | .sending number output rest =>
      ({ s.settle number .cancelled with
        metrics := s.metrics.outputCancelled.batchCancelled
        egress := .ended (output :: rest) }, [])
    | .ended _ => (s, [])

/-! ### Schedules -/

section Schedules

variable (process : σ → ProcessingWorkItem → σ × Except PyException (List ProcessorOutput))
  (legacyTargetIds : List Nat)

/-- One action; a task that is not ready for it does nothing. -/
def step (s : Stages σ) : StageAction → Stages σ × List StageEvent
  | .reader index action =>
    match s.readers[index]? with
    | none => (s, [])
    | some reader => s.readerStep legacyTargetIds index reader action
  | .replace table expectedGeneration =>
    match s.routing with
    | none => (s, [])
    | some state =>
      match state.replace table expectedGeneration with
      | .error _ => (s, [])
      | .ok next => ({ s with routing := some next }, [.replaced next])
  | .processor action => s.processorStep process action
  | .egress action => s.egressStep action

def run (s : Stages σ) : List StageAction → Stages σ × List StageEvent
  | [] => (s, [])
  | action :: actions =>
    let (next, events) := s.step process legacyTargetIds action
    let (last, later) := next.run actions
    (last, events ++ later)

end Schedules

end Stages

end AisMixer.Runtime

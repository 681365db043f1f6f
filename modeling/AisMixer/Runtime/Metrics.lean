import AisMixer.Library.Text

/-!
# Metrics snapshots

`core/metrics.py`: immutable snapshots of the runtime's counters. The checks of each
`__post_init__` are fields, so a snapshot whose counters do not add up cannot be built.
-/

namespace AisMixer.Runtime

open Library

/-- One bounded item queue. -/
structure QueueMetricsSnapshot where
  name : PyStr
  capacity : Nat
  depth : Nat
  peakDepth : Nat
  enqueued : Nat
  dequeued : Nat
  putWaits : Nat
  currentPutWaiters : Nat
  name_nonempty : name ≠ []
  capacity_pos : 1 ≤ capacity
  depth_le_peak : depth ≤ peakDepth
  peak_le_capacity : peakDepth ≤ capacity
  balance : enqueued = dequeued + depth
  waiters_le : currentPutWaiters ≤ putWaits

/-- Calls and outputs of one processor. -/
structure ProcessorMetricsSnapshot where
  processCalls : Nat
  processCompleted : Nat
  processFailed : Nat
  processInFlight : Nat
  outputlessCalls : Nat
  outputBatches : Nat
  outputMessages : Nat
  resetCalls : Nat
  resetCompleted : Nat
  resetFailed : Nat
  resetInFlight : Nat
  calls_balance : processCalls = processCompleted + processFailed + processInFlight
  completed_balance : processCompleted = outputlessCalls + outputBatches
  messages_ge : outputBatches ≤ outputMessages
  resets_balance : resetCalls = resetCompleted + resetFailed + resetInFlight

/-- Local operations of one egress stage. -/
structure EgressMetricsSnapshot where
  batchesStarted : Nat
  batchesCompleted : Nat
  batchesFailed : Nat
  batchesCancelled : Nat
  activeBatches : Nat
  outputsStarted : Nat
  outputsCompleted : Nat
  outputsFailed : Nat
  outputsCancelled : Nat
  activeOutputs : Nat
  batches_balance :
    batchesStarted = batchesCompleted + batchesFailed + batchesCancelled + activeBatches
  outputs_balance :
    outputsStarted = outputsCompleted + outputsFailed + outputsCancelled + activeOutputs

inductive InputKind where
  | udp
  | udpsec
  deriving DecidableEq

/-- Transport and admitted-payload counters of one input. -/
structure InputTrafficMetricsSnapshot where
  name : PyStr
  kind : InputKind
  transportPackets : Nat
  transportBytes : Nat
  acceptedFrames : Nat
  payloadBytes : Nat
  name_nonempty : name ≠ []

/-- Local dispatch counters of one output target. -/
structure OutputTrafficMetricsSnapshot where
  targetId : Nat
  name : Option PyStr
  dispatchAttempts : Nat
  dispatchCompleted : Nat
  dispatchFailed : Nat
  messages : Nat
  bytes : Nat
  name_nonempty : ∀ n, name = some n → n ≠ []

/-- One pull of the existing metric owners. -/
structure RuntimeStatisticsSnapshot where
  ingressQueues : List QueueMetricsSnapshot
  processingQueue : QueueMetricsSnapshot
  processor : ProcessorMetricsSnapshot
  egressQueue : QueueMetricsSnapshot
  egressOperations : EgressMetricsSnapshot

/-- What a statistics source answers when it is asked. -/
structure RuntimeStatistics where
  runtime : RuntimeStatisticsSnapshot
  inputs : List InputTrafficMetricsSnapshot
  outputs : List OutputTrafficMetricsSnapshot

end AisMixer.Runtime

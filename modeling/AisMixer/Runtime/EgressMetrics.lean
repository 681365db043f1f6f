import AisMixer.Runtime.Metrics

/-!
# The counters of the egress stage

`_EgressMetrics` of `aismixer.py` with the constructor of its snapshot from `core/metrics.py`. The
counters of the batches and those of the outputs are two tallies of one kind.
-/

namespace AisMixer.Runtime

open AisMixer.Library

/-- How an operation ends. -/
inductive Ending where
  | completed
  | failed
  | cancelled
  deriving DecidableEq

/-- The counters of one kind of operation; what is active is counted up and down. -/
structure Tally where
  started : Nat
  completed : Nat
  failed : Nat
  cancelled : Nat
  active : Int
  deriving DecidableEq

namespace Tally

def new : Tally := ⟨0, 0, 0, 0, 0⟩

def start (t : Tally) : Tally := { t with started := t.started + 1, active := t.active + 1 }

def finish (t : Tally) : Ending → Tally
  | .completed => { t with completed := t.completed + 1, active := t.active - 1 }
  | .failed => { t with failed := t.failed + 1, active := t.active - 1 }
  | .cancelled => { t with cancelled := t.cancelled + 1, active := t.active - 1 }

/-- The equation that a snapshot asks for. -/
def Balances (t : Tally) : Prop := t.started = t.completed + t.failed + t.cancelled + t.active.toNat

instance (t : Tally) : Decidable t.Balances := inferInstanceAs (Decidable (_ = _))

/-- The counters while a number of operations is under way. -/
structure Counts (t : Tally) (underWay : Nat) : Prop where
  active : t.active = underWay
  balance : t.started = t.completed + t.failed + t.cancelled + underWay

lemma counts_new : new.Counts 0 := ⟨rfl, rfl⟩

variable {t : Tally} {underWay : Nat}

lemma Counts.start (h : t.Counts underWay) : t.start.Counts (underWay + 1) where
  active := by simp [Tally.start, h.active]
  balance := by
    have hbalance := h.balance
    simp only [Tally.start]
    omega

lemma Counts.finish (h : t.Counts (underWay + 1)) (ending : Ending) : (t.finish ending).Counts underWay := by
  have hactive := h.active
  have hbalance := h.balance
  cases ending with
  | completed =>
    constructor
    · simp [Tally.finish, hactive]
    · simp only [Tally.finish]
      omega
  | failed =>
    constructor
    · simp [Tally.finish, hactive]
    · simp only [Tally.finish]
      omega
  | cancelled =>
    constructor
    · simp [Tally.finish, hactive]
    · simp only [Tally.finish]
      omega

lemma Counts.balances (h : t.Counts underWay) : t.Balances := by
  rw [Balances, h.active, Int.toNat_natCast]
  exact h.balance

end Tally

/-- `_EgressMetrics`. -/
structure EgressMetrics where
  batches : Tally
  outputs : Tally
  deriving DecidableEq

namespace EgressMetrics

def new : EgressMetrics := ⟨.new, .new⟩

def batchStarted (m : EgressMetrics) : EgressMetrics := { m with batches := m.batches.start }
def batchCompleted (m : EgressMetrics) : EgressMetrics := { m with batches := m.batches.finish .completed }
def batchFailed (m : EgressMetrics) : EgressMetrics := { m with batches := m.batches.finish .failed }
def batchCancelled (m : EgressMetrics) : EgressMetrics := { m with batches := m.batches.finish .cancelled }
def outputStarted (m : EgressMetrics) : EgressMetrics := { m with outputs := m.outputs.start }
def outputCompleted (m : EgressMetrics) : EgressMetrics := { m with outputs := m.outputs.finish .completed }
def outputFailed (m : EgressMetrics) : EgressMetrics := { m with outputs := m.outputs.finish .failed }
def outputCancelled (m : EgressMetrics) : EgressMetrics := { m with outputs := m.outputs.finish .cancelled }

/-- The constructor `EgressMetricsSnapshot(…)` with its `__post_init__`. -/
def metricsSnapshot (m : EgressMetrics) : Except PyException EgressMetricsSnapshot :=
  if m.batches.active < 0 then .error (.valueError (str "active_batches must be non-negative."))
  else if m.outputs.active < 0 then .error (.valueError (str "active_outputs must be non-negative."))
  else if hbatches : m.batches.Balances then
    if houtputs : m.outputs.Balances then
      .ok
        { batchesStarted := m.batches.started
          batchesCompleted := m.batches.completed
          batchesFailed := m.batches.failed
          batchesCancelled := m.batches.cancelled
          activeBatches := m.batches.active.toNat
          outputsStarted := m.outputs.started
          outputsCompleted := m.outputs.completed
          outputsFailed := m.outputs.failed
          outputsCancelled := m.outputs.cancelled
          activeOutputs := m.outputs.active.toNat
          batches_balance := hbatches
          outputs_balance := houtputs }
    else .error (.valueError
      (str "outputs_started must equal completed, failed, cancelled, and active outputs."))
  else .error (.valueError
    (str "batches_started must equal completed, failed, cancelled, and active batches."))

/-- Counters of operations under way pass the checks of their snapshot, which shows them. -/
lemma metricsSnapshot_ok {m : EgressMetrics} {batches outputs : Nat} (hbatches : m.batches.Counts batches)
    (houtputs : m.outputs.Counts outputs) :
    ∃ snapshot, m.metricsSnapshot = .ok snapshot ∧ snapshot.outputsStarted = m.outputs.started ∧
      snapshot.outputsCompleted = m.outputs.completed ∧ snapshot.activeBatches = batches ∧
      snapshot.activeOutputs = outputs := by
  have hactiveBatches : m.batches.active.toNat = batches := by
    rw [hbatches.active, Int.toNat_natCast]
  have hactiveOutputs : m.outputs.active.toNat = outputs := by
    rw [houtputs.active, Int.toNat_natCast]
  unfold metricsSnapshot
  rw [if_neg (by rw [hbatches.active]; omega), if_neg (by rw [houtputs.active]; omega),
    dif_pos hbatches.balances, dif_pos houtputs.balances]
  exact ⟨_, rfl, rfl, rfl, hactiveBatches, hactiveOutputs⟩

end EgressMetrics

end AisMixer.Runtime

import AisMixer.Library.Dict
import AisMixer.Library.Text

/-!
# Source activity

`TTLMap` remembers when a key was last touched, with lazy sweeps of a queue of expiry records,
and `SourceState` keeps one entry of associated state for each key of it. The eviction callback
is the list of evicted keys that an operation returns, in the order of the calls.
-/

namespace AisMixer
open Library

structure TTLMapConfig where
  ttlNs : Int
  maxEntries : Int
  sweepEveryNs : Int
  opsPerSweep : Int

structure TTLMap (κ : Type) where
  d : Dict κ Int
  q : List (Int × κ)
  lastSweepNs : Int
  ops : Nat

namespace TTLMap

variable {κ : Type} [DecidableEq κ]

/-- The constructor reads the clock once. -/
def init (nowNs : Int) : TTLMap κ := ⟨.empty, [], nowNs, 0⟩

/-- The loop of `_sweep`. -/
def sweepLoop (nowNs : Int) : List (Int × κ) → Dict κ Int → List κ → List (Int × κ) × Dict κ Int × List κ
  | [], d, evicted => ([], d, evicted)
  | (exp, key) :: rest, d, evicted =>
    if nowNs < exp then ((exp, key) :: rest, d, evicted)
    else if d.get? key = some exp then sweepLoop nowNs rest (d.erase key) (evicted ++ [key])
    else sweepLoop nowNs rest d evicted

def sweep (m : TTLMap κ) (nowNs : Int) : TTLMap κ × List κ :=
  let (q, d, evicted) := sweepLoop nowNs m.q m.d []
  ({ m with q := q, d := d }, evicted)

def maybeSweep (cfg : TTLMapConfig) (m : TTLMap κ) (nowNs : Int) : TTLMap κ × List κ :=
  let m := { m with ops := m.ops + 1 }
  if cfg.opsPerSweep ≤ m.ops ∨ cfg.sweepEveryNs ≤ nowNs - m.lastSweepNs then
    let (m, evicted) := m.sweep nowNs
    ({ m with ops := 0, lastSweepNs := nowNs }, evicted)
  else (m, [])

/-- The loop of `_evict_oldest` with `hard`, which evicts the key of the oldest record. -/
def evictLoop (target : Int) : List (Int × κ) → Dict κ Int → List κ → List (Int × κ) × Dict κ Int × List κ
  | [], d, evicted => ([], d, evicted)
  | (exp, key) :: rest, d, evicted =>
    if (d.size : Int) ≤ target then ((exp, key) :: rest, d, evicted)
    else if d.contains key then evictLoop target rest (d.erase key) (evicted ++ [key])
    else evictLoop target rest d evicted

def touch (cfg : TTLMapConfig) (m : TTLMap κ) (key : κ) (nowNs : Int) : TTLMap κ × List κ :=
  let exp := nowNs + cfg.ttlNs
  let m := { m with d := m.d.set key exp, q := m.q ++ [(exp, key)] }
  let (m, swept) := m.maybeSweep cfg nowNs
  if cfg.maxEntries < m.d.size then
    let (q, d, evicted) := evictLoop cfg.maxEntries m.q m.d []
    ({ m with q := q, d := d }, swept ++ evicted)
  else (m, swept)

def contains (cfg : TTLMapConfig) (m : TTLMap κ) (key : κ) (nowNs : Int) : TTLMap κ × Bool × List κ :=
  match m.d.get? key with
  | none =>
    let (m, evicted) := m.maybeSweep cfg nowNs
    (m, false, evicted)
  | some exp =>
    if exp ≤ nowNs then ({ m with d := m.d.erase key }, false, [key])
    else
      let (m, evicted) := m.maybeSweep cfg nowNs
      (m, true, evicted)

def clear (m : TTLMap κ) (nowNs : Int) : TTLMap κ × List κ :=
  ({ m with d := .empty, q := [], ops := 0, lastSweepNs := nowNs }, m.d.keys)

end TTLMap

/-- The state that belongs to a source is never looked into. -/
structure SourceState where
  sCache : TTLMap PyStr
  perSState : Dict PyStr Unit

namespace SourceState

def init (nowNs : Int) : SourceState := ⟨.init nowNs, .empty⟩

def touchS (cfg : TTLMapConfig) (s : SourceState) (sValue : PyStr) (nowNs : Int) : SourceState :=
  if sValue = [] then s
  else
    let (sCache, evicted) := s.sCache.touch cfg sValue nowNs
    let perSState := s.perSState.eraseAll evicted
    ⟨sCache, if perSState.contains sValue then perSState else perSState.set sValue ()⟩

def reset (s : SourceState) (nowNs : Int) : SourceState × Nat :=
  let (sCache, evicted) := s.sCache.clear nowNs
  (⟨sCache, .empty⟩, evicted.length)

end SourceState

end AisMixer

import AisMixer.Sproxy.SerialLineFramer
import AisMixer.Library.Numerals

/-!
# The queue of the serial adapter

The reader thread of `SerialInputAdapter` puts framed lines into a bounded queue that the forwarding
loop empties. Between two operations on the queue the other thread may run, so a call of
`_enqueue_line` is a state of the reader and `step` is one operation of one of the threads.
-/

namespace AisMixer.Sproxy

open AisMixer.Library

/-- Where the reader stands in `_enqueue_line`. -/
inductive EnqueueLine where
  | put (line : Bytes)
  | dropOldest (line : Bytes)
  | countDrop (line : Bytes)
  | putAgain (line : Bytes)
  | dropOldestAgain
  | countDropAgain
  deriving DecidableEq

structure SerialInputAdapter where
  maxsize : ℕ+
  queue : List Bytes
  droppedQueueLines : Nat
  logged : List PyStr
  /-- The call of `_enqueue_line` in progress. -/
  enqueueLine : Option EnqueueLine
  /-- The lines of the call of `read_pending` in progress. -/
  readPending : Option (List Bytes)
  /-- What `read_pending` returned. -/
  returned : List (List Bytes)
  deriving DecidableEq

namespace SerialInputAdapter

def new (maxsize : ℕ+) : SerialInputAdapter := ⟨maxsize, [], 0, [], none, none, []⟩

/-- `queue.Queue.put_nowait`; `none` is `queue.Full`. -/
def putNowait (adapter : SerialInputAdapter) (line : Bytes) : Option (List Bytes) :=
  if adapter.queue.length < adapter.maxsize then some (adapter.queue ++ [line]) else none

/-- `_should_log_drop`. -/
def shouldLogDrop (count : Nat) : Bool := count = 1 || count % 100 = 0

/-- The end of `_drop_oldest_queued_line`, behind the operation on the queue. -/
def countDrop (adapter : SerialInputAdapter) : SerialInputAdapter :=
  let count := adapter.droppedQueueLines + 1
  { adapter with
    droppedQueueLines := count
    logged :=
      if shouldLogDrop count then
        adapter.logged ++ [str "Serial input queue full; dropped oldest queued line (" ++
          natStr count ++ str " total)."]
      else adapter.logged }

/-- The reader calls `_enqueue_line`. -/
def callEnqueueLine (adapter : SerialInputAdapter) (line : Bytes) : SerialInputAdapter :=
  { adapter with enqueueLine := some (.put line) }

/-- The reader goes on in its call of `_enqueue_line`. The `get_nowait` of a drop may find the queue
empty and is then passed over. -/
def readerStep (adapter : SerialInputAdapter) : SerialInputAdapter :=
  match adapter.enqueueLine with
  | none => adapter
  | some (.put line) =>
    match adapter.putNowait line with
    | some queue => { adapter with queue := queue, enqueueLine := none }
    | none => { adapter with enqueueLine := some (.dropOldest line) }
  | some (.dropOldest line) =>
    { adapter with queue := adapter.queue.tail, enqueueLine := some (.countDrop line) }
  | some (.countDrop line) => { adapter.countDrop with enqueueLine := some (.putAgain line) }
  | some (.putAgain line) =>
    match adapter.putNowait line with
    | some queue => { adapter with queue := queue, enqueueLine := none }
    | none => { adapter with enqueueLine := some .dropOldestAgain }
  | some .dropOldestAgain =>
    { adapter with queue := adapter.queue.tail, enqueueLine := some .countDropAgain }
  | some .countDropAgain => { adapter.countDrop with enqueueLine := none }

/-- The forwarding loop calls `read_pending` or goes on in it. -/
def consumerStep (adapter : SerialInputAdapter) : SerialInputAdapter :=
  match adapter.readPending with
  | none => { adapter with readPending := some [] }
  | some lines =>
    match adapter.queue with
    | line :: queue => { adapter with queue := queue, readPending := some (lines ++ [line]) }
    | [] => { adapter with readPending := none, returned := adapter.returned ++ [lines] }

/-- The lines that `read_pending` took off the queue. -/
def delivered (adapter : SerialInputAdapter) : List Bytes :=
  adapter.returned.flatten ++ adapter.readPending.getD []

/-- The line of the call in progress, until it is in the queue. -/
def inFlight (adapter : SerialInputAdapter) : List Bytes :=
  match adapter.enqueueLine with
  | some (.put line) | some (.dropOldest line) | some (.countDrop line) | some (.putAgain line) => [line]
  | _ => []

end SerialInputAdapter

/-! ### Interleavings -/

inductive SerialAction where
  | enqueueLine (line : Bytes)
  | reader
  | consumer
  deriving DecidableEq

/-- The adapter with the lines that were framed. -/
structure SerialSystem where
  adapter : SerialInputAdapter
  framed : List Bytes

namespace SerialSystem

open SerialInputAdapter

def new (maxsize : ℕ+) : SerialSystem := ⟨.new maxsize, []⟩

/-- One operation. The reader frames the next line after its call has returned. -/
def step (system : SerialSystem) : SerialAction → SerialSystem
  | .enqueueLine line =>
    if system.adapter.enqueueLine = none then
      ⟨system.adapter.callEnqueueLine line, system.framed ++ [line]⟩
    else system
  | .reader => { system with adapter := system.adapter.readerStep }
  | .consumer => { system with adapter := system.adapter.consumerStep }

def run (system : SerialSystem) (actions : List SerialAction) : SerialSystem :=
  actions.foldl step system

/-- A drop for which the consumer has left nothing. -/
def EmptyDrop (system : SerialSystem) (action : SerialAction) : Prop :=
  action = .reader ∧ system.adapter.queue = [] ∧
    ∃ line, system.adapter.enqueueLine = some (.dropOldest line)

/-- Every drop of the run takes a line off the queue. -/
def DropsFindLines : SerialSystem → List SerialAction → Prop
  | _, [] => True
  | system, action :: actions => ¬ EmptyDrop system action ∧ DropsFindLines (system.step action) actions

/-- The drops that are not counted yet. -/
def uncounted (system : SerialSystem) : Nat :=
  match system.adapter.enqueueLine with
  | some (.countDrop _) => 1
  | _ => 0

/-- What holds after the drops of which a number found the queue empty. The lines that are gone were
delivered or dropped, and they are older than the lines in the queue. -/
structure Accounted (system : SerialSystem) (emptyDrops : Nat) (gone : List Bytes) : Prop where
  framed : system.framed = gone ++ system.adapter.queue ++ system.adapter.inFlight
  delivered : system.adapter.delivered.Sublist gone
  counted : gone.length + emptyDrops =
    system.adapter.delivered.length + system.adapter.droppedQueueLines + system.uncounted
  bounded : system.adapter.queue.length ≤ system.adapter.maxsize
  room : ∀ line, system.adapter.enqueueLine = some (.countDrop line) ∨
    system.adapter.enqueueLine = some (.putAgain line) →
      system.adapter.queue.length < system.adapter.maxsize
  once : system.adapter.enqueueLine ≠ some .dropOldestAgain ∧
    system.adapter.enqueueLine ≠ some .countDropAgain

lemma accounted_new (maxsize : ℕ+) : Accounted (new maxsize) 0 [] where
  framed := rfl
  delivered := .slnil
  counted := rfl
  bounded := Nat.zero_le _
  room := by
    intro line h
    rcases h with h | h <;> cases h
  once := ⟨nofun, nofun⟩

/-! ### One operation -/

section Step

variable {system : SerialSystem} {emptyDrops : Nat} {gone : List Bytes}

lemma Accounted.enqueueLine (h : Accounted system emptyDrops gone) (line : Bytes) :
    Accounted (system.step (.enqueueLine line)) emptyDrops gone := by
  by_cases hidle : system.adapter.enqueueLine = none
  · simp only [step, hidle, if_true]
    have hframed := h.framed
    have hcounted := h.counted
    simp only [inFlight, hidle, List.append_nil] at hframed
    simp only [uncounted, hidle] at hcounted
    constructor
    · simp [hframed, callEnqueueLine, inFlight]
    · exact h.delivered
    · exact hcounted
    · exact h.bounded
    · intro other hother
      rcases hother with hother | hother <;> cases hother
    · exact ⟨nofun, nofun⟩
  · simpa only [step, hidle, if_false] using h

/-- A line comes into the queue if there is room. -/
lemma putNowait_eq_some {adapter : SerialInputAdapter} {line : Bytes} {queue : List Bytes}
    (h : adapter.putNowait line = some queue) :
    queue = adapter.queue ++ [line] ∧ adapter.queue.length < adapter.maxsize := by
  unfold putNowait at h
  split at h
  · next hroom => exact ⟨(Option.some.inj h).symm, hroom⟩
  · cases h

lemma putNowait_eq_none {adapter : SerialInputAdapter} {line : Bytes}
    (h : adapter.putNowait line = none) : ¬ adapter.queue.length < adapter.maxsize := by
  unfold putNowait at h
  split at h
  · cases h
  · next hfull => exact hfull

/-- The line of the call is put. -/
lemma Accounted.put (h : Accounted system emptyDrops gone) {line : Bytes} {queue : List Bytes}
    (hline : system.adapter.inFlight = [line]) (huncounted : system.uncounted = 0)
    (hput : system.adapter.putNowait line = some queue) :
    Accounted { system with adapter := { system.adapter with queue := queue, enqueueLine := none } }
      emptyDrops gone := by
  obtain ⟨rfl, hroom⟩ := putNowait_eq_some hput
  have hframed := h.framed
  have hcounted := h.counted
  rw [hline] at hframed
  rw [huncounted] at hcounted
  constructor
  · simp [hframed, inFlight]
  · exact h.delivered
  · exact hcounted
  · simp only [List.length_append, List.length_singleton]
    omega
  · intro other hother
    rcases hother with hother | hother <;> cases hother
  · exact ⟨nofun, nofun⟩

/-- The oldest line of the queue is dropped, if the consumer has left one. -/
lemma Accounted.dropOldest (h : Accounted system emptyDrops gone) {line : Bytes}
    (hpc : system.adapter.enqueueLine = some (.dropOldest line)) :
    Accounted (system.step .reader) (emptyDrops + if system.adapter.queue = [] then 1 else 0)
      (gone ++ system.adapter.queue.head?.toList) := by
  have hframed := h.framed
  have hcounted := h.counted
  have hbounded := h.bounded
  have hsize := system.adapter.maxsize.pos
  simp only [inFlight, hpc] at hframed
  simp only [uncounted, hpc] at hcounted
  have hstep : system.step .reader = { system with
      adapter := { system.adapter with
        queue := system.adapter.queue.tail, enqueueLine := some (.countDrop line) } } := by
    simp only [step, readerStep, hpc]
  rw [hstep]
  cases hqueue : system.adapter.queue with
  | nil =>
    rw [hqueue] at hframed
    constructor
    · simp [hframed, inFlight]
    · rw [List.head?_nil, Option.toList_none, List.append_nil]
      exact h.delivered
    · simp only [uncounted, List.head?_nil, Option.toList_none, List.append_nil, if_pos,
        SerialInputAdapter.delivered]
      simp only [SerialInputAdapter.delivered] at hcounted
      omega
    · exact Nat.zero_le _
    · intro _ _
      exact hsize
    · exact ⟨nofun, nofun⟩
  | cons oldest queue =>
    rw [hqueue] at hframed
    rw [hqueue, List.length_cons] at hbounded
    constructor
    · simp [hframed, inFlight]
    · exact h.delivered.trans (List.sublist_append_left _ _)
    · simp only [uncounted, List.head?_cons, Option.toList_some, List.length_append,
        List.length_singleton, reduceCtorEq, if_false, SerialInputAdapter.delivered]
      simp only [SerialInputAdapter.delivered, List.length_append] at hcounted
      omega
    · simp only [List.tail_cons]
      omega
    · intro _ _
      simp only [List.tail_cons]
      omega
    · exact ⟨nofun, nofun⟩

/-- An operation of the reader that is not a drop. -/
lemma Accounted.reader (h : Accounted system emptyDrops gone)
    (hpc : ∀ line, system.adapter.enqueueLine ≠ some (.dropOldest line)) :
    Accounted (system.step .reader) emptyDrops gone := by
  cases hcall : system.adapter.enqueueLine with
  | none => simpa only [step, readerStep, hcall] using h
  | some call =>
    cases call with
    | put line =>
      cases hput : system.adapter.putNowait line with
      | some queue =>
        have hafter := h.put (by simp only [inFlight, hcall]) (by simp only [uncounted, hcall]) hput
        simpa only [step, readerStep, hcall, hput] using hafter
      | none =>
        have hframed := h.framed
        have hcounted := h.counted
        simp only [inFlight, hcall] at hframed
        simp only [uncounted, hcall] at hcounted
        simp only [step, readerStep, hcall, hput]
        constructor
        · exact hframed
        · exact h.delivered
        · exact hcounted
        · exact h.bounded
        · intro other hother
          rcases hother with hother | hother <;> cases hother
        · exact ⟨nofun, nofun⟩
    | dropOldest line => exact absurd hcall (hpc line)
    | countDrop line =>
      have hframed := h.framed
      have hcounted := h.counted
      have hroom := h.room line (.inl hcall)
      simp only [inFlight, hcall] at hframed
      simp only [uncounted, hcall] at hcounted
      simp only [step, readerStep, hcall]
      constructor
      · exact hframed
      · exact h.delivered
      · simp only [uncounted, SerialInputAdapter.countDrop, SerialInputAdapter.delivered]
        simp only [SerialInputAdapter.delivered] at hcounted
        omega
      · exact h.bounded
      · intro _ _
        exact hroom
      · exact ⟨nofun, nofun⟩
    | putAgain line =>
      -- the consumer only makes more room
      have hroom := h.room line (.inr hcall)
      cases hput : system.adapter.putNowait line with
      | some queue =>
        have hafter := h.put (by simp only [inFlight, hcall]) (by simp only [uncounted, hcall]) hput
        simpa only [step, readerStep, hcall, hput] using hafter
      | none => exact absurd hroom (putNowait_eq_none hput)
    | dropOldestAgain => exact absurd hcall h.once.1
    | countDropAgain => exact absurd hcall h.once.2

/-- The consumer takes the oldest line of the queue. -/
lemma Accounted.consumer (h : Accounted system emptyDrops gone) :
    ∃ gone, Accounted (system.step .consumer) emptyDrops gone := by
  have hframed := h.framed
  have hdelivered := h.delivered
  have hcounted := h.counted
  have hbounded := h.bounded
  have hroom := h.room
  simp only [step, consumerStep]
  cases hpending : system.adapter.readPending with
  | none =>
    simp only [SerialInputAdapter.delivered, hpending, Option.getD_none] at hdelivered hcounted
    exact ⟨gone, hframed, hdelivered, hcounted, hbounded, hroom, h.once⟩
  | some lines =>
    simp only [SerialInputAdapter.delivered, hpending, Option.getD_some] at hdelivered hcounted
    cases hqueue : system.adapter.queue with
    | nil =>
      rw [hqueue] at hframed hbounded hroom
      refine ⟨gone, ?_, ?_, ?_, hbounded, hroom, h.once⟩
      · simpa [inFlight] using hframed
      · simpa [SerialInputAdapter.delivered] using hdelivered
      · simpa [SerialInputAdapter.delivered, uncounted] using hcounted
    | cons line queue =>
      rw [hqueue] at hframed hbounded hroom
      rw [List.length_cons] at hbounded hroom
      refine ⟨gone ++ [line], ?_, ?_, ?_, ?_, ?_, h.once⟩
      · simpa [inFlight] using hframed
      · simp only [SerialInputAdapter.delivered, Option.getD_some]
        rw [← List.append_assoc]
        exact hdelivered.append_right [line]
      · simp only [SerialInputAdapter.delivered, Option.getD_some, uncounted, List.length_append,
          List.length_singleton] at hcounted ⊢
        omega
      · simp only
        omega
      · intro other hother
        have hless := hroom other hother
        simp only
        omega

end Step

/-! ### Whole runs -/

/-- The number of empty drops grows by the empty drops. -/
lemma Accounted.step {system : SerialSystem} {emptyDrops : Nat} {gone : List Bytes}
    (h : Accounted system emptyDrops gone) (action : SerialAction) :
    ∃ after gone, Accounted (system.step action) after gone ∧ emptyDrops ≤ after ∧
      (after = emptyDrops ↔ ¬ EmptyDrop system action) := by
  cases action with
  | enqueueLine line =>
    refine ⟨emptyDrops, gone, h.enqueueLine line, le_rfl, ?_⟩
    simp [EmptyDrop]
  | consumer =>
    obtain ⟨gone, hafter⟩ := h.consumer
    refine ⟨emptyDrops, gone, hafter, le_rfl, ?_⟩
    simp [EmptyDrop]
  | reader =>
    by_cases hpc : ∃ line, system.adapter.enqueueLine = some (.dropOldest line)
    · obtain ⟨line, hline⟩ := hpc
      refine ⟨_, _, h.dropOldest hline, Nat.le_add_right _ _, ?_⟩
      by_cases hqueue : system.adapter.queue = []
      · simp [EmptyDrop, hqueue, hline]
      · simp [EmptyDrop, hqueue]
    · have hother : ∀ line, system.adapter.enqueueLine ≠ some (.dropOldest line) :=
        fun line hline => hpc ⟨line, hline⟩
      refine ⟨emptyDrops, gone, h.reader hother, le_rfl, ?_⟩
      simp [EmptyDrop, hpc]

lemma Accounted.run {system : SerialSystem} {emptyDrops : Nat} {gone : List Bytes}
    (h : Accounted system emptyDrops gone) (actions : List SerialAction) :
    ∃ after gone, Accounted (system.run actions) after gone ∧ emptyDrops ≤ after ∧
      (after = emptyDrops ↔ DropsFindLines system actions) := by
  induction actions generalizing system emptyDrops gone with
  | nil => exact ⟨emptyDrops, gone, h, le_rfl, by simp [DropsFindLines]⟩
  | cons action actions ih =>
    obtain ⟨next, goneNext, hnext, hle, hiff⟩ := h.step action
    obtain ⟨after, goneAfter, hafter, hleAfter, hiffAfter⟩ := ih hnext
    refine ⟨after, goneAfter, hafter, hle.trans hleAfter, ?_⟩
    rw [DropsFindLines, ← hiff, ← hiffAfter]
    constructor
    · intro heq
      omega
    · rintro ⟨hfirst, hrest⟩
      omega

/-- In every interleaving the delivered lines are framed lines in their order, and the lines that are
kept are the newest ones: what was lost is older. When no call of `_enqueue_line` is in progress the
counter accounts for the lost lines exactly if every drop of the run found a line. -/
theorem serial_queue_accounting (maxsize : ℕ+) (actions : List SerialAction) :
    (∃ gone, ((new maxsize).run actions).framed =
        gone ++ ((new maxsize).run actions).adapter.queue ++ ((new maxsize).run actions).adapter.inFlight ∧
      ((new maxsize).run actions).adapter.delivered.Sublist gone) ∧
    ((new maxsize).run actions).adapter.delivered.Sublist ((new maxsize).run actions).framed ∧
    (((new maxsize).run actions).adapter.enqueueLine = none →
      (((new maxsize).run actions).framed.length =
          ((new maxsize).run actions).adapter.delivered.length +
          ((new maxsize).run actions).adapter.queue.length +
          ((new maxsize).run actions).adapter.droppedQueueLines ↔
        DropsFindLines (new maxsize) actions)) := by
  obtain ⟨emptyDrops, gone, h, -, hiff⟩ := (accounted_new maxsize).run actions
  have hframed := h.framed
  refine ⟨⟨gone, hframed, h.delivered⟩, ?_, ?_⟩
  · rw [hframed, List.append_assoc]
    exact h.delivered.trans (List.sublist_append_left _ _)
  · intro hidle
    have hcounted := h.counted
    have hlength := congrArg List.length hframed
    simp only [uncounted, hidle] at hcounted
    simp only [inFlight, hidle, List.append_nil, List.length_append] at hlength
    rw [← hiff]
    omega

/-- The consumer takes the only line between the failed `put_nowait` and the drop: two lines are
framed, one is delivered, one is queued, and a drop is counted. -/
theorem serial_queue_empty_drop :
    let actions : List SerialAction :=
      [.enqueueLine [0x61], .reader, .enqueueLine [0x62], .reader, .consumer, .consumer, .reader, .reader,
        .reader]
    let system := (new 1).run actions
    system.adapter.enqueueLine = none ∧ system.framed = [[0x61], [0x62]] ∧
      system.adapter.delivered = [[0x61]] ∧ system.adapter.queue = [[0x62]] ∧
      system.adapter.droppedQueueLines = 1 ∧
      system.framed.length ≠ system.adapter.delivered.length + system.adapter.queue.length +
        system.adapter.droppedQueueLines := by
  decide

end SerialSystem

end AisMixer.Sproxy

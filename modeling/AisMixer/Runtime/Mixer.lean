import AisMixer.DataPlane.Emission
import AisMixer.DataPlane.MultipartMetadata
import AisMixer.Egress.Dispatch
import AisMixer.Egress.TargetSafety
import AisMixer.Runtime.StageRuns

/-!
# The mixer

The stages with the data plane of `core/python_data_plane.py` as their processor: what leaves the process
in any schedule is deduplicated and goes to targets that the forwarder knows.
-/

namespace AisMixer.Runtime.Mixer

open AisMixer.Library AisMixer.Routing AisMixer.Egress Stages

/-- `processor.process(work_item.frame, work_item.snapshot)` with the outputs of its batch. -/
def process (cfg : ProcessorConfig) (env : Environment) (p : Processor) (item : ProcessingWorkItem) :
    Processor × Except PyException (List ProcessorOutput) :=
  let (p, result) := Processor.process cfg env p item.frame item.snapshot
  (p, result.map Processor.batch)

variable {cfg : ProcessorConfig} {env : Environment} {startNs : Int}

/-! ### What the data plane does for the one task -/

/-- A call that returns, with its reports. -/
lemma process_ok {p p' : Processor} {item : ProcessingWorkItem} {outputs : List ProcessorOutput}
    (h : process cfg env p item = (p', .ok outputs)) :
    ∃ reports, Processor.process cfg env p item.frame item.snapshot = (p', .ok reports) ∧
      outputs = Processor.batch reports := by
  unfold process at h
  rcases hcall : Processor.process cfg env p item.frame item.snapshot with ⟨q, result⟩
  rw [hcall] at h
  cases result with
  | error e => cases (Prod.mk.inj h).2
  | ok reports =>
    obtain ⟨rfl, houtputs⟩ := Prod.mk.inj h
    exact ⟨reports, rfl, (Except.ok.inj houtputs).symm⟩

/-- The frame and the routing that an item is processed with. -/
def workCall (item : ProcessingWorkItem) : IngressFrame × ProcessingSnapshot := (item.frame, item.snapshot)

/-- The outputs of the one task are those of the batches that the calls of the data plane return, up to the
first item for which it raises. -/
lemma serialRun_calls (items : List ProcessingWorkItem) (p : Processor) :
    ∃ (done raised : List ProcessingWorkItem) (p' : Processor) (batches : List (List SentenceReport)),
      items = done ++ raised ∧
      Processor.processAll cfg env (done.map workCall) p = (p', batches.map .ok) ∧
      sendingOutputs (serialRun (process cfg env) p items) = batches.flatMap Processor.batch ∧
      (processedItems (serialRun (process cfg env) p items)).length ≤ done.length + 1 ∧
      (raised = [] ∨ ∃ item more e, raised = item :: more ∧
        (Processor.process cfg env p' item.frame item.snapshot).2 = .error e) := by
  induction items generalizing p with
  | nil => exact ⟨[], [], p, [], rfl, rfl, rfl, Nat.zero_le 1, .inl rfl⟩
  | cons item items ih =>
    rw [serialRun]
    rcases hprocess : process cfg env p item with ⟨q, result⟩
    cases result with
    | error e =>
      refine ⟨[], item :: items, p, [], rfl, rfl, rfl, by simp, .inr ⟨item, items, e, rfl, ?_⟩⟩
      unfold process at hprocess
      rcases hcall : Processor.process cfg env p item.frame item.snapshot with ⟨q', result⟩
      rw [hcall] at hprocess
      cases result with
      | error e' =>
        obtain rfl : e' = e := Except.error.inj (Prod.mk.inj hprocess).2
        rfl
      | ok reports => cases (Prod.mk.inj hprocess).2
    | ok outputs =>
      obtain ⟨reports, hcall, rfl⟩ := process_ok hprocess
      obtain ⟨done, raised, p', batches, hitems, hcalls, hsends, hcount, hraised⟩ := ih q
      refine ⟨item :: done, raised, p', reports :: batches, by rw [hitems, List.cons_append], ?_, ?_, ?_,
        hraised⟩
      · have hfirst : Processor.processAll cfg env (workCall item :: done.map workCall) p =
            ((Processor.processAll cfg env (done.map workCall) q).1,
              .ok reports :: (Processor.processAll cfg env (done.map workCall) q).2) := by
          simp only [workCall, Processor.processAll, hcall]
        rw [List.map_cons, hfirst, hcalls, List.map_cons]
      · have hsplit : sendingOutputs (sends (Processor.batch reports) ++ serialRun (process cfg env) q items) =
            (reports :: batches).flatMap Processor.batch := by
          rw [sendingOutputs_append, sendingOutputs_sends, hsends, List.flatMap_cons]
        exact hsplit
      · have hcons : processedItems (.processed item (Processor.batch reports) ::
            sends (Processor.batch reports) ++ serialRun (process cfg env) q items) =
            item :: processedItems (serialRun (process cfg env) q items) := by
          rw [List.cons_append, ← List.singleton_append, processedItems_append, processedItems_append,
            processedItems_processed, processedItems_sent, List.nil_append, List.singleton_append]
        rw [hcons, List.length_cons, List.length_cons]
        omega

/-- The calls of `process` for the items: all of them return their batches, of which every report is about a
sentence of the item's frame, except that the call for the last item may raise. -/
structure ItemCalls (cfg : ProcessorConfig) (env : Environment) (startNs : Int)
    (items done raised : List ProcessingWorkItem) (p : Processor) (batches : List (List SentenceReport)) :
    Prop where
  split : items = done ++ raised
  calls : Processor.processAll cfg env (done.map workCall) (.init startNs) = (p, batches.map .ok)
  answers : List.Forall₂ Processor.Answers (done.map workCall) batches
  raises : raised = [] ∨ ∃ item e, raised = [item] ∧
    (Processor.process cfg env p item.frame item.snapshot).2 = .error e

lemma answers_of_mem {calls : List (IngressFrame × ProcessingSnapshot)}
    {batches : List (List SentenceReport)} {reports : List SentenceReport}
    (h : List.Forall₂ Processor.Answers calls batches) (hmem : reports ∈ batches) :
    ∃ call ∈ calls, Processor.Answers call reports := by
  induction h with
  | nil => cases hmem
  | @cons call first calls batches hfirst hrest ih =>
    rcases List.mem_cons.mp hmem with rfl | hmem
    · exact ⟨call, List.mem_cons_self, hfirst⟩
    · obtain ⟨other, hother, hanswers⟩ := ih hmem
      exact ⟨other, List.mem_cons_of_mem _ hother, hanswers⟩

/-- Every report has the routing of an item. -/
lemma ItemCalls.snapshots {items done raised : List ProcessingWorkItem} {p : Processor}
    {batches : List (List SentenceReport)} (h : ItemCalls cfg env startNs items done raised p batches) :
    ∀ r ∈ batches.flatten, ∃ item ∈ items, r.snapshot = item.snapshot := by
  rw [h.split]
  intro r hr
  obtain ⟨reports, hreports, hmem⟩ := List.mem_flatten.mp hr
  obtain ⟨call, hcall, hanswer⟩ := answers_of_mem h.answers hreports
  obtain ⟨item, hitem, rfl⟩ := List.mem_map.mp hcall
  exact ⟨item, List.mem_append_left _ hitem, hanswer.snapshot r hmem⟩

section Schedules

variable (readers : Nat) (routing : Option RoutingState) (processingMaxsize egressMaxsize : ℕ+)
  (legacyTargetIds : List Nat) (actions : List StageAction)

/-- In every schedule the calls of `send_to_ids` begin in the order of the batches that the data plane
returns for the processed items, which are the first ones that were bound. -/
lemma sends_of_calls :
    let events := ((new readers routing processingMaxsize egressMaxsize (.init startNs)).run (process cfg env)
      legacyTargetIds actions).2
    ∃ done raised p batches, ItemCalls cfg env startNs (processedItems events) done raised p batches ∧
      processedItems events <+: boundItems events ∧
      sendingOutputs events <+: batches.flatMap Processor.batch := by
  intro events
  have haccount := stagesAccount_run (process cfg env) legacyTargetIds readers routing processingMaxsize
    egressMaxsize (.init startNs) actions
  have hqueued : boundItems events = processedItems events ++ _ := haccount.ingress.queued
  have hserial : pipelineEvents events ++ _ =
      serialRun (process cfg env) (.init startNs) (processedItems events) := haccount.pipeline.account
  obtain ⟨done, raised, p, batches, hitems, hcalls, hsends, hcount, hraised⟩ :=
    @serialRun_calls cfg env (processedItems events) (.init startNs)
  refine ⟨done, raised, p, batches, ⟨hitems, hcalls, Processor.answers_of_processAll hcalls, ?_⟩, ?_, ?_⟩
  · have hall : (processedItems events).length ≤ done.length + 1 := by
      refine le_trans ?_ hcount
      rw [← hserial, processedItems_append, processedItems_pipeline, List.length_append]
      exact Nat.le_add_right _ _
    rcases hraised with hnone | ⟨item, more, e, hmore, herror⟩
    · exact .inl hnone
    · have hlength := congrArg List.length hitems
      rw [hmore, List.length_append, List.length_cons] at hlength
      have hlast : more = [] := List.eq_nil_of_length_eq_zero (by omega)
      exact .inr ⟨item, e, by rw [hmore, hlast], herror⟩
  · rw [hqueued]
    exact List.prefix_append _ _
  · rw [← hsends, ← hserial, sendingOutputs_append, sendingOutputs_pipeline]
    exact List.prefix_append _ _

/-- In every schedule, with an unbounded deduplicator, the outputs that `send_to_ids` is called with are, in
order, those of the batches that the data plane returns for the processed items: of whole messages, of which
only the last may be cut short, each for the targets of its snapshot that did not get it within the time to
live by the clock of the deduplicator. -/
theorem mixer_sends_deduplicated (hclock : Monotone env.dedupClock) (hunbounded : cfg.dedup.maxEntries = none) :
    let events := ((new readers routing processingMaxsize egressMaxsize (.init startNs)).run (process cfg env)
      legacyTargetIds actions).2
    ∃ done raised p batches, ItemCalls cfg env startNs (processedItems events) done raised p batches ∧
      processedItems events <+: boundItems events ∧
      sendingOutputs events <+: batches.flatMap Processor.batch ∧
      (∀ r ∈ batches.flatten, ∃ item ∈ boundItems events, r.snapshot = item.snapshot) ∧
      (∀ before r after, batches.flatten = before ++ r :: after →
        Processor.Reported cfg env batches.flatten before r) ∧
      ∀ i d, (batches.flatten.flatMap Processor.decisionsOf)[i]? = some d → d.time = env.dedupClock i := by
  intro events
  obtain ⟨done, raised, p, batches, hitems, hbound, hsends⟩ := @sends_of_calls cfg env startNs readers routing
    processingMaxsize egressMaxsize legacyTargetIds actions
  have hrun : Processor.Run cfg env startNs p batches.flatten := by
    simpa using (@Processor.Run.start cfg env startNs).processAll hitems.calls
  refine ⟨done, raised, p, batches, hitems, hbound, hsends, ?_, ?_, ?_⟩
  · intro r hr
    obtain ⟨item, hitem, hsame⟩ := hitems.snapshots r hr
    exact ⟨item, hbound.subset hitem, hsame⟩
  · intro before r after hsplit
    exact Processor.reported_of_run hclock hunbounded hrun hsplit
  · exact (Processor.deduped_of_run hclock hunbounded hrun).times

/-- A frame that arrives twice, with the second copy processed when the first one has been sent. -/
def repeatedSchedule : List StageAction :=
  let frame : IngressFrame := ⟨str "udp", str "a", none, some (str "10.0.0.1"), str "a",
    ascii "!AIVDM,1,1,,A,p,0*00", .utf8Ignore⟩
  [.reader 0 (.arrive (.frame frame)), .reader 0 (.arrive (.frame frame)), .reader 0 .read, .reader 0 .beginAdmit,
    .reader 0 .read, .reader 0 .beginAdmit, .processor .take, .egress .fetch, .egress .sendReturns,
    .processor .resume, .processor .take]

def repeatedEvents : List StageEvent :=
  ((new 1 none 2 1 (.init 0)).run (process Processor.taggedConfig Processor.stillEnvironment) [0, 3]
    repeatedSchedule).2

theorem mixer_sends_deduplicated_repeated :
    (processedItems repeatedEvents).length = 2 ∧
      (sendingOutputs repeatedEvents).map ProcessorOutput.targetIds = [[0, 3]] ∧
      ∃ done raised p batches,
        ItemCalls Processor.taggedConfig Processor.stillEnvironment 0 (processedItems repeatedEvents) done raised
          p batches ∧
        processedItems repeatedEvents <+: boundItems repeatedEvents ∧
        sendingOutputs repeatedEvents <+: batches.flatMap Processor.batch ∧
        (∀ r ∈ batches.flatten, ∃ item ∈ boundItems repeatedEvents, r.snapshot = item.snapshot) ∧
        (∀ before r after, batches.flatten = before ++ r :: after →
          Processor.Reported Processor.taggedConfig Processor.stillEnvironment batches.flatten before r) ∧
        ∀ i d, (batches.flatten.flatMap Processor.decisionsOf)[i]? = some d →
          d.time = Processor.stillEnvironment.dedupClock i :=
  ⟨by decide +kernel, by decide +kernel,
    @mixer_sends_deduplicated Processor.taggedConfig Processor.stillEnvironment 0 1 none 2 1 [0, 3]
      repeatedSchedule monotone_const rfl⟩

/-! ### Known targets -/

lemma routingAfter_cases (routing : Option RoutingState) (events : List StageEvent) :
    routingAfter routing events = routing ∨
      ∃ next, StageEvent.replaced next ∈ events ∧ routingAfter routing events = some next := by
  induction events generalizing routing with
  | nil => exact .inl rfl
  | cons event events ih =>
    cases event with
    | replaced next =>
      right
      rcases ih (some next) with hsame | ⟨later, hlater, hafter⟩
      · exact ⟨next, List.mem_cons_self, hsame⟩
      · exact ⟨later, List.mem_cons_of_mem _ hlater, hafter⟩
    | _ =>
      rcases ih routing with hsame | ⟨later, hlater, hafter⟩
      · exact .inl hsame
      · exact .inr ⟨later, List.mem_cons_of_mem _ hlater, hafter⟩

section Replacements

variable {σ : Type} {step : σ → ProcessingWorkItem → σ × Except PyException (List ProcessorOutput)}
  {s : Stages σ} {next : RoutingState}

lemma afterAdmit_replaced (index : Nat) (inbox : List IngressItem) (frame : IngressFrame)
    (admission : BoundedProcessingQueue × QueueOutcome) :
    StageEvent.replaced next ∉ (s.afterAdmit index inbox frame admission).2 := by
  rcases admission with ⟨processing, outcome⟩
  cases outcome <;> simp [Stages.afterAdmit]

lemma readerStep_replaced (index : Nat) (reader : Reader) (action : ReaderAction) :
    StageEvent.replaced next ∉ (s.readerStep legacyTargetIds index reader action).2 := by
  cases action with
  | arrive item => simp [readerStep]
  | read =>
    simp only [readerStep]
    split
    · split <;> simp
    · simp
  | beginAdmit =>
    simp only [readerStep]
    split
    · exact afterAdmit_replaced index _ _ _
    · simp
  | resumeAdmit wakes =>
    simp only [readerStep]
    split
    · split
      · simp
      · exact afterAdmit_replaced index _ _ _
    · simp
  | cancel =>
    simp only [readerStep]
    split <;> simp

/-- A routing that is installed comes from a replacement. -/
lemma run_replaced {capacity : ℕ+} {initial : σ} {past : List StageEvent} {actions : List StageAction}
    (haccount : StagesAccount step legacyTargetIds capacity initial routing s past)
    (h : StageEvent.replaced next ∈ (s.run step legacyTargetIds actions).2) :
    ∃ table expectedGeneration, StageAction.replace table expectedGeneration ∈ actions ∧
      next.snapshot.table = table := by
  induction actions generalizing s past with
  | nil => cases h
  | cons action actions ih =>
    rw [Stages.run, List.mem_append] at h
    rcases h with h | h
    · cases action with
      | reader index action =>
        simp only [Stages.step] at h
        split at h
        · cases h
        · exact absurd h (readerStep_replaced legacyTargetIds index _ action)
      | replace table expectedGeneration =>
        refine ⟨table, expectedGeneration, List.mem_cons_self, ?_⟩
        simp only [Stages.step] at h
        split at h
        · cases h
        · split at h
          · cases h
          · next state _ _ hreplace =>
            rw [List.mem_singleton] at h
            rw [StageEvent.replaced.inj h, (RoutingState.replace_ok hreplace).1]
      | processor action =>
        exact ((processorStep_ingress step haccount.ingress action).1.events _ h).elim
      | egress action => exact (egressStep_sends s action _ h).elim
    · obtain ⟨table, expectedGeneration, hmem, htable⟩ := ih (haccount.step action) h
      exact ⟨table, expectedGeneration, List.mem_cons_of_mem _ hmem, htable⟩

end Replacements

/-- The tables that a schedule installs are compiled for the targets of a forwarder. -/
def CompiledFor (forwarder : Forwarder) (actions : List StageAction) : Prop :=
  ∀ table expectedGeneration, StageAction.replace (some table) expectedGeneration ∈ actions →
    ∃ budget routingConfig, compileRoutingSection budget routingConfig forwarder.mapping = .ok table

section Targets

variable (forwarder : Forwarder) {state : RoutingState}

/-- Every work item is bound to targets of the forwarder. -/
lemma bound_below (hstate : TargetsBelow forwarder.destinations.length state)
    (hactions : CompiledFor forwarder actions) :
    ∀ item ∈ boundItems ((new readers (some state) processingMaxsize egressMaxsize (.init startNs)).run
        (process cfg env) forwarder.allTargetIds actions).2,
      ∀ id ∈ item.snapshot.targetIds, id < forwarder.destinations.length := by
  have haccount := stagesAccount_run (process cfg env) forwarder.allTargetIds readers (some state)
    processingMaxsize egressMaxsize (.init startNs) actions
  have hnew : StagesAccount (process cfg env) forwarder.allTargetIds processingMaxsize (.init startNs)
      (some state) (new readers (some state) processingMaxsize egressMaxsize (.init startNs)) [] :=
    stagesAccount_new readers (some state) processingMaxsize egressMaxsize (Processor.init startNs)
  intro item hitem
  obtain ⟨event, hevent, hbound⟩ := List.mem_filterMap.mp hitem
  cases event with
  | bound index other =>
    obtain rfl := Option.some.inj hbound
    obtain ⟨before, after, hsplit⟩ := List.append_of_mem hevent
    have hto := haccount.trace.bound hsplit
    have hrouting : ∃ current, routingAfter (some state) before = some current ∧
        TargetsBelow forwarder.destinations.length current := by
      rcases routingAfter_cases (some state) before with hsame | ⟨next, hnext, hafter⟩
      · exact ⟨state, hsame, hstate⟩
      · refine ⟨next, hafter, ?_⟩
        have hmem := List.mem_append_left (.bound index other :: after) hnext
        rw [← hsplit] at hmem
        obtain ⟨table, expectedGeneration, haction, rfl⟩ := run_replaced (some state) _ hnew hmem
        intro compiled hcompiled
        rw [hcompiled] at haction
        obtain ⟨budget, routingConfig, hcompile⟩ := hactions compiled expectedGeneration haction
        exact compile_below forwarder.mapping_below hcompile
    obtain ⟨current, hcurrent, hbelow⟩ := hrouting
    rw [hcurrent] at hto
    cases htable : current.snapshot.table with
    | none =>
      intro id hid
      rw [(hto.unrouted htable).2] at hid
      exact List.mem_range.mp hid
    | some table =>
      have hvalid := current.valid
      rw [htable] at hvalid
      obtain ⟨ids, hids, -, hall⟩ := matchTargetIds_ok hvalid (hbelow table htable) other.frame.sourceId
      have hmatch := (hto.routed table htable).2
      rw [hids] at hmatch
      rw [← Except.ok.inj hmatch]
      exact hall
  | _ => cases hbound

/-- In every schedule of a mixer whose routing tables are compiled for its forwarder, every call of
`send_to_ids` passes the check of the ids and, whatever the forwarder did before and whatever the transports
do now, hands the message to each target of the output once and in order, or to the first ones of them and
raises. -/
theorem mixer_sends_to_known_targets (config : Json) (initialBudget : Nat) (initialTable : Option RoutingTable)
    (htable : loadOptionalRoutingTable initialBudget config forwarder.mapping = .ok initialTable)
    (hactions : CompiledFor forwarder actions) :
    ∃ state, RoutingState.init initialTable = .ok state ∧
      ∀ output ∈ sendingOutputs ((new readers (some state) processingMaxsize egressMaxsize (.init startNs)).run
          (process cfg env) forwarder.allTargetIds actions).2,
        ∀ (world : Nat → DispatchWorld) (calls : List DispatchCall),
          let before := ((Dispatcher.init forwarder).run world calls).1
          let call := DispatchCall.sendToIds (output.targetIds.map Int.ofNat) output.message
          ¬ call.Rejected forwarder ∧
            Dispatched forwarder ((Dispatcher.init forwarder).run world calls).2
              (output.targetIds.map some) output.message (before.call world call) := by
  obtain ⟨state, hstate, hbelow⟩ := loadOptional_state forwarder.mapping_below htable
  refine ⟨state, hstate, ?_⟩
  intro output houtput world calls before call
  obtain ⟨done, raised, p, batches, hcalls, hbound, hsends⟩ := @sends_of_calls cfg env startNs readers
    (some state) processingMaxsize egressMaxsize forwarder.allTargetIds actions
  have hrun : Processor.Run cfg env startNs p batches.flatten := by
    simpa using (@Processor.Run.start cfg env startNs).processAll hcalls.calls
  obtain ⟨reports, hreports, hbatch⟩ := List.mem_flatMap.mp (hsends.subset houtput)
  obtain ⟨r, hmem, hof⟩ := List.mem_flatMap.mp hbatch
  have hr : r ∈ batches.flatten := List.mem_flatten.mpr ⟨reports, hreports, hmem⟩
  obtain ⟨earlier, later, hsplit⟩ := List.append_of_mem hr
  obtain ⟨q, q', frame, snapshot, leadingS, sentences, parsed, -, -, -, hstep⟩ := hrun.split hsplit
  have hsublist := processSentence_targets hstep output hof
  rw [← (Processor.processSentence_ok hstep).2.1] at hsublist
  obtain ⟨item, hitem, hsame⟩ := hcalls.snapshots r hr
  have hids := bound_below readers processingMaxsize egressMaxsize actions forwarder hbelow hactions item
    (hbound.subset hitem)
  rw [hsame] at hsublist
  have hnodup : output.targetIds.Nodup := hsublist.nodup item.snapshot.nodup
  have hvalid : validateNumericTargetIds (output.targetIds.map Int.ofNat) forwarder.destinations.length =
      .ok (output.targetIds.map Int.ofNat) := by
    apply validate_unchanged
    · exact hnodup.map Int.ofNat_injective
    · intro id hid
      obtain ⟨id', hid', rfl⟩ := List.mem_map.mp hid
      exact ⟨Int.natCast_nonneg id', Int.ofNat_lt.mpr (hids id' (hsublist.subset hid'))⟩
  have haccepted : ¬ call.Rejected forwarder := by
    rintro ⟨e, he⟩
    rw [hvalid] at he
    cases he
  have hdispatched := (call_spec world (run_account world (accounted_init forwarder) calls) call).2.2 haccepted
  have hasked : call.asked forwarder = output.targetIds.map some := by
    have hfirst : firstOccurrences (output.targetIds.map Int.ofNat) = output.targetIds.map Int.ofNat :=
      (validate_ok hvalid).1.symm
    simp only [call, DispatchCall.asked, hfirst, List.map_map]
    rfl
  rw [hasked] at hdispatched
  exact ⟨haccepted, hdispatched⟩

end Targets

end Schedules

/-- A table is installed before a frame is bound. -/
def harbourSchedule (table : RoutingTable) : List StageAction :=
  [.replace (some table) (some 0), .reader 0 (.arrive (.frame harbourFrame)), .reader 0 .read,
    .reader 0 .beginAdmit, .processor .take, .egress .fetch]

def harbourEvents (forwarder : Forwarder) (state : RoutingState) (table : RoutingTable) : List StageEvent :=
  ((new 1 (some state) 1 1 (.init 0)).run (process Processor.taggedConfig Processor.stillEnvironment)
    forwarder.allTargetIds (harbourSchedule table)).2

theorem mixer_sends_to_known_targets_harbour :
    ∃ forwarder table state, Forwarder.init (fun _ => none) harbourEntries = .ok forwarder ∧
      compileRoutingSection 1000 harbourSection forwarder.mapping = .ok table ∧
      RoutingState.init none = .ok state ∧
      (sendingOutputs (harbourEvents forwarder state table)).map ProcessorOutput.targetIds = [[0, 1, 2]] ∧
      ∀ output ∈ sendingOutputs (harbourEvents forwarder state table),
        ∀ (world : Nat → DispatchWorld) (calls : List DispatchCall),
          let before := ((Dispatcher.init forwarder).run world calls).1
          let call := DispatchCall.sendToIds (output.targetIds.map Int.ofNat) output.message
          ¬ call.Rejected forwarder ∧
            Dispatched forwarder ((Dispatcher.init forwarder).run world calls).2
              (output.targetIds.map some) output.message (before.call world call) := by
  have hsends : ((Forwarder.init (fun _ => none) harbourEntries).toOption.bind (fun forwarder =>
      (compileRoutingSection 1000 harbourSection forwarder.mapping).toOption.bind (fun table =>
        (RoutingState.init none).toOption.map (fun state =>
          (sendingOutputs (harbourEvents forwarder state table)).map ProcessorOutput.targetIds)))) =
      some [[0, 1, 2]] := by decide +kernel
  cases hforwarder : Forwarder.init (fun _ => none) harbourEntries with
  | error e => simp [hforwarder, Except.toOption] at hsends
  | ok forwarder =>
    cases hcompile : compileRoutingSection 1000 harbourSection forwarder.mapping with
    | error e => simp [hforwarder, hcompile, Except.toOption] at hsends
    | ok table =>
      have hload : loadOptionalRoutingTable 1000 (.obj []) forwarder.mapping = .ok none := by
        have hfreeze : freezeTargetIdByName forwarder.mapping = .ok forwarder.frozen :=
          freeze_ok_iff.mpr rfl
        simp only [loadOptionalRoutingTable, hfreeze, Bind.bind, Except.bind]
        rfl
      have hactions : CompiledFor forwarder (harbourSchedule table) := by
        intro other expectedGeneration hmem
        simp only [harbourSchedule, List.mem_cons, StageAction.replace.injEq, Option.some.injEq, reduceCtorEq,
          List.not_mem_nil, or_false] at hmem
        exact ⟨1000, harbourSection, by rw [hmem.1, hcompile]⟩
      obtain ⟨state, hstate, hall⟩ := @mixer_sends_to_known_targets Processor.taggedConfig
        Processor.stillEnvironment 0 1 1 1 (harbourSchedule table) forwarder (.obj []) 1000 none hload hactions
      have hsent : (sendingOutputs (harbourEvents forwarder state table)).map ProcessorOutput.targetIds =
          [[0, 1, 2]] := by
        simpa only [hforwarder, hcompile, hstate, Except.toOption, Option.bind_some, Option.map_some,
          Option.some.injEq] using hsends
      exact ⟨forwarder, table, state, rfl, hcompile, hstate, hsent, hall⟩

end AisMixer.Runtime.Mixer

import AisMixer.Sproxy.ForwardLoop

/-!
# Signs of life

What the trace of the proxy's loop says about the packets that it has taken as signs of life: each
answers the last ping that was sent, no ping is answered twice, and no packet is taken twice.
-/

namespace AisMixer.Sproxy

open AisMixer.Library AisMixer.Udpsec

/-! ### Traces -/

/-- Neither a ping nor an answer. -/
def LoopEvent.quiet : LoopEvent → Bool
  | .pinged _ _ => false
  | .authenticated _ _ _ => false
  | _ => true

/-- The ping with the number was the last that was sent, and nothing has been taken as its answer. -/
def Awaits (trace : List LoopEvent) (n : Int) : Prop :=
  ∃ before packet after, trace = before ++ .pinged n packet :: after ∧ ∀ e ∈ after, e.quiet = true

/-- The numbers of the pings. -/
def pings (trace : List LoopEvent) : List Int :=
  trace.filterMap (fun | .pinged n _ => some n | _ => none)

/-- The packets that were taken as signs of life. -/
def accepted (trace : List LoopEvent) : List Bytes :=
  trace.filterMap (fun | .authenticated data _ _ => some data | _ => none)

/-- The readings at which the peer was last seen. -/
def refreshes (trace : List LoopEvent) : List ℚ :=
  trace.filterMap (fun | .authenticated _ _ now => some now | _ => none)

/-- When the peer was last seen. -/
def lastSeen (start : ℚ) (trace : List LoopEvent) : ℚ := (refreshes trace).getLast?.getD start

lemma quiet_projections {events : List LoopEvent} (h : ∀ e ∈ events, e.quiet = true) :
    pings events = [] ∧ accepted events = [] ∧ refreshes events = [] := by
  refine ⟨?_, ?_, ?_⟩ <;>
  · rw [List.eq_nil_iff_forall_not_mem]
    intro x hx
    obtain ⟨e, he, hproj⟩ := List.mem_filterMap.mp hx
    have hquiet := h e he
    cases e <;> first | exact absurd hquiet Bool.false_ne_true | cases hproj

lemma Awaits.append {trace events : List LoopEvent} {n : Int} (h : Awaits trace n)
    (hquiet : ∀ e ∈ events, e.quiet = true) : Awaits (trace ++ events) n := by
  obtain ⟨before, packet, after, rfl, hafter⟩ := h
  refine ⟨before, packet, after ++ events, by simp, ?_⟩
  intro e he
  rcases List.mem_append.mp he with he | he
  · exact hafter e he
  · exact hquiet e he

section Liveness

variable {Private Public : Type} (p : Primitives Private Public) (config : ProxyConfig)
  (keys : SessionKeyMaterial) (remoteAddr : Address)

/-! ### Answers -/

/-- The number that a packet answers: it decrypts to a pong with the station's id. -/
def pongSequence (data : Bytes) : Option Int :=
  match decryptSecureJsonMessage p data keys.serverToClientKey with
  | .error _ => none
  | .ok message =>
    match message.get? (str "seq") with
    | some (.int sequence) =>
      if isText (str "pong") (message.get? (str "type")) &&
          isText config.stationId (message.get? (str "source_id")) then
        some sequence
      else none
    | _ => none

/-- What is taken as a sign of life. -/
lemma handleServerPacket_authenticated {data : Bytes} {addr : Address} {expected : Option Int}
    (h : handleServerPacket p data addr remoteAddr keys.serverToClientKey config.stationId expected =
      .authenticated) :
    remoteAddressesMatch addr remoteAddr = true ∧
      ∃ n, expected = some n ∧ pongSequence p config keys data = some n := by
  unfold handleServerPacket at h
  split at h
  · cases h
  · next hmatch =>
    split at h
    · cases h
    · cases hdecrypt : decryptSecureJsonMessage p data keys.serverToClientKey with
      | error e =>
        rw [hdecrypt] at h
        cases h
      | ok message =>
        simp only [hdecrypt, checkPong] at h
        cases hseq : message.get? (str "seq") with
        | none =>
          rw [hseq] at h
          cases h
        | some value =>
          rw [hseq] at h
          cases value with
          | int sequence =>
            simp only at h
            split at h
            · next hcheck =>
              rw [Bool.and_eq_true, Bool.and_eq_true, beq_iff_eq] at hcheck
              obtain ⟨⟨htype, hsource⟩, hexpected⟩ := hcheck
              refine ⟨by simpa using hmatch, sequence, hexpected.symm, ?_⟩
              simp [pongSequence, hdecrypt, hseq, htype, hsource]
            · cases h
          | _ => cases h

/-! ### What every turn keeps -/

/-- The state of the loop after a trace. -/
structure Traced (start : ℚ) (s : LoopState) (trace : List LoopEvent) : Prop where
  next_pos : 1 ≤ s.nextPingSeq
  pings_sorted : (pings trace).Pairwise (· < ·)
  pings_lt : ∀ n ∈ pings trace, 1 ≤ n ∧ n < s.nextPingSeq
  awaited : ∀ n, s.expectedPingSeq = some n → 1 ≤ n ∧ n < s.nextPingSeq ∧ Awaits trace n
  answers : ∀ before data addr now after, trace = before ++ .authenticated data addr now :: after →
    remoteAddressesMatch addr remoteAddr = true ∧
      ∃ n, pongSequence p config keys data = some n ∧ Awaits before n
  accepted_sorted : (accepted trace).Pairwise (fun d d' => ∃ n n',
    pongSequence p config keys d = some n ∧ pongSequence p config keys d' = some n' ∧ n < n')
  accepted_lt : ∀ data ∈ accepted trace, ∃ n, pongSequence p config keys data = some n ∧ 1 ≤ n ∧
    n < s.nextPingSeq ∧ ∀ m, s.expectedPingSeq = some m → n < m
  seen : s.lastAuthenticatedPeer = lastSeen start trace

variable {p config keys remoteAddr} {start : ℚ} {s : LoopState} {trace : List LoopEvent}

lemma traced_start : Traced p config keys remoteAddr start (.start start) [] where
  next_pos := le_rfl
  pings_sorted := .nil
  pings_lt := by simp [pings]
  awaited := by simp [LoopState.start]
  answers := by simp
  accepted_sorted := .nil
  accepted_lt := by simp [accepted]
  seen := rfl

/-- A split of a trace at an answer lies in its first part, if the second has no answer. -/
lemma split_of_quiet {events before after : List LoopEvent} {data : Bytes} {addr : Address} {now : ℚ}
    (hquiet : ∀ e ∈ events, e.quiet = true)
    (h : trace ++ events = before ++ .authenticated data addr now :: after) :
    ∃ rest, trace = before ++ .authenticated data addr now :: rest := by
  rcases List.append_eq_append_iff.mp h with ⟨middle, rfl, hevents⟩ | ⟨middle, rfl, hmiddle⟩
  · have hmem : LoopEvent.authenticated data addr now ∈ events := by
      rw [hevents]
      simp
    cases hquiet _ hmem
  · cases middle with
    | nil =>
      have hmem : LoopEvent.authenticated data addr now ∈ events := by
        rw [List.nil_append] at hmiddle
        rw [← hmiddle]
        exact List.mem_cons_self
      cases hquiet _ hmem
    | cons e middle =>
      obtain ⟨rfl, -⟩ := List.cons.inj hmiddle
      exact ⟨middle, rfl⟩

/-- Events that are neither pings nor answers change nothing. -/
lemma Traced.quiet (h : Traced p config keys remoteAddr start s trace) {events : List LoopEvent}
    (hquiet : ∀ e ∈ events, e.quiet = true) :
    Traced p config keys remoteAddr start s (trace ++ events) := by
  obtain ⟨hpings, haccepted, hrefreshes⟩ := quiet_projections hquiet
  have hpingsAppend : pings (trace ++ events) = pings trace := by
    rw [pings, List.filterMap_append]
    exact (congrArg _ hpings).trans (List.append_nil _)
  have hacceptedAppend : accepted (trace ++ events) = accepted trace := by
    rw [accepted, List.filterMap_append]
    exact (congrArg _ haccepted).trans (List.append_nil _)
  have hrefreshesAppend : refreshes (trace ++ events) = refreshes trace := by
    rw [refreshes, List.filterMap_append]
    exact (congrArg _ hrefreshes).trans (List.append_nil _)
  constructor
  · exact h.next_pos
  · rw [hpingsAppend]
    exact h.pings_sorted
  · rw [hpingsAppend]
    exact h.pings_lt
  · intro n hn
    obtain ⟨hpos, hlt, hawaits⟩ := h.awaited n hn
    exact ⟨hpos, hlt, hawaits.append hquiet⟩
  · intro before data addr now after hsplit
    obtain ⟨rest, hrest⟩ := split_of_quiet hquiet hsplit
    exact h.answers before data addr now rest hrest
  · rw [hacceptedAppend]
    exact h.accepted_sorted
  · rw [hacceptedAppend]
    exact h.accepted_lt
  · rw [lastSeen, hrefreshesAppend]
    exact h.seen

/-- The answer to the awaited ping. -/
lemma Traced.answer (h : Traced p config keys remoteAddr start s trace) {data : Bytes} {addr : Address}
    {n : Int} (now : ℚ) (hmatch : remoteAddressesMatch addr remoteAddr = true)
    (hexpected : s.expectedPingSeq = some n) (hpong : pongSequence p config keys data = some n) :
    Traced p config keys remoteAddr start
      { s with lastAuthenticatedPeer := now, expectedPingSeq := none }
      (trace ++ [.authenticated data addr now]) := by
  obtain ⟨hpos, hlt, hawaits⟩ := h.awaited n hexpected
  constructor
  · exact h.next_pos
  · simpa [pings] using h.pings_sorted
  · simpa [pings] using h.pings_lt
  · intro m hm
    cases hm
  · intro before other from_ seen after hsplit
    rcases List.append_eq_append_iff.mp hsplit with ⟨middle, hbefore, hevents⟩ | ⟨middle, hbefore, hmiddle⟩
    · cases middle with
      | nil =>
        obtain ⟨heq, -⟩ := List.cons.inj hevents
        obtain ⟨rfl, rfl, rfl⟩ := LoopEvent.authenticated.inj heq
        rw [hbefore, List.append_nil]
        exact ⟨hmatch, n, hpong, hawaits⟩
      | cons e middle =>
        have hlength := congrArg List.length hevents
        simp at hlength
    · cases middle with
      | nil =>
        rw [List.nil_append] at hmiddle
        obtain ⟨heq, -⟩ := List.cons.inj hmiddle
        obtain ⟨rfl, rfl, rfl⟩ := LoopEvent.authenticated.inj heq
        rw [List.append_nil] at hbefore
        rw [← hbefore]
        exact ⟨hmatch, n, hpong, hawaits⟩
      | cons e middle =>
        obtain ⟨rfl, -⟩ := List.cons.inj hmiddle
        exact h.answers before other from_ seen middle hbefore
  · have happend : accepted (trace ++ [.authenticated data addr now]) = accepted trace ++ [data] := by
      simp [accepted]
    rw [happend, List.pairwise_append]
    refine ⟨h.accepted_sorted, List.pairwise_singleton _ _, ?_⟩
    intro d hd d' hd'
    obtain rfl := List.mem_singleton.mp hd'
    obtain ⟨m, hm, -, -, hless⟩ := h.accepted_lt d hd
    exact ⟨m, n, hm, hpong, hless n hexpected⟩
  · intro d hd
    have happend : accepted (trace ++ [.authenticated data addr now]) = accepted trace ++ [data] := by
      simp [accepted]
    rw [happend, List.mem_append, List.mem_singleton] at hd
    rcases hd with hd | rfl
    · obtain ⟨m, hm, hposM, hltM, -⟩ := h.accepted_lt d hd
      exact ⟨m, hm, hposM, hltM, by simp⟩
    · exact ⟨n, hpong, hpos, hlt, by simp⟩
  · simp [lastSeen, refreshes]

/-- The next ping. -/
lemma Traced.ping (h : Traced p config keys remoteAddr start s trace) (packet : Bytes) (now : ℚ) :
    Traced p config keys remoteAddr start
      { s with
        expectedPingSeq := some s.nextPingSeq
        nextPingSeq := s.nextPingSeq + 1
        lastPingAt := now }
      (trace ++ [.pinged s.nextPingSeq packet]) := by
  have hpos := h.next_pos
  have happend : pings (trace ++ [.pinged s.nextPingSeq packet]) = pings trace ++ [s.nextPingSeq] := by
    simp [pings]
  constructor
  · simp only
    omega
  · rw [happend, List.pairwise_append]
    refine ⟨h.pings_sorted, List.pairwise_singleton _ _, ?_⟩
    intro n hn m hm
    rw [List.mem_singleton.mp hm]
    exact (h.pings_lt n hn).2
  · intro n hn
    rw [happend, List.mem_append, List.mem_singleton] at hn
    simp only
    rcases hn with hn | rfl
    · have hbounds := h.pings_lt n hn
      omega
    · omega
  · intro n hn
    obtain rfl := Option.some.inj hn
    refine ⟨hpos, by simp, trace, packet, [], rfl, by simp⟩
  · intro before data addr seen after hsplit
    rcases List.append_eq_append_iff.mp hsplit with ⟨middle, hbefore, hevents⟩ | ⟨middle, hbefore, hmiddle⟩
    · have hmem : LoopEvent.authenticated data addr seen ∈
          [LoopEvent.pinged s.nextPingSeq packet] := by
        rw [hevents]
        simp
      cases List.mem_singleton.mp hmem
    · cases middle with
      | nil => cases hmiddle
      | cons e middle =>
        obtain ⟨rfl, -⟩ := List.cons.inj hmiddle
        exact h.answers before data addr seen middle hbefore
  · simpa [accepted] using h.accepted_sorted
  · intro data hdata
    have hmem : data ∈ accepted trace := by simpa [accepted] using hdata
    obtain ⟨n, hn, hposN, hltN, -⟩ := h.accepted_lt data hmem
    refine ⟨n, hn, hposN, ?_, ?_⟩
    · simp only
      omega
    · intro m hm
      obtain rfl := Option.some.inj hm
      exact hltN
  · simpa [lastSeen, refreshes] using h.seen

/-! ### Turns -/

/-- The steps so far, behind a trace. -/
def Kept (p : Primitives Private Public) (config : ProxyConfig) (keys : SessionKeyMaterial)
    (remoteAddr : Address) (start : ℚ) (trace : List LoopEvent) (progress : Progress) : Prop :=
  Traced p config keys remoteAddr start progress.state (trace ++ progress.events)

lemma Traced.unchanged (h : Traced p config keys remoteAddr start s trace) (ended : Option SessionEnd) :
    Kept p config keys remoteAddr start trace ⟨s, [], ended⟩ := by
  unfold Kept
  rw [List.append_nil]
  exact h

lemma Kept.andThen {progress : Progress} {step : LoopState → Progress}
    (h : Kept p config keys remoteAddr start trace progress)
    (hstep : ∀ s trace, Traced p config keys remoteAddr start s trace →
      Kept p config keys remoteAddr start trace (step s)) :
    Kept p config keys remoteAddr start trace (progress.andThen step) := by
  unfold Progress.andThen
  split
  · exact h
  · have hnext := hstep progress.state (trace ++ progress.events) h
    unfold Kept at hnext ⊢
    rw [List.append_assoc] at hnext
    exact hnext

lemma forwardInput_kept (input : Forwarded) (h : Traced p config keys remoteAddr start s trace) :
    Kept p config keys remoteAddr start trace (forwardInput input s) := by
  apply h.quiet
  intro e he
  obtain ⟨cleanLine, -, rfl⟩ := List.mem_map.mp he
  rfl

lemma forwardInputs_kept (inputs : List Forwarded) (h : Traced p config keys remoteAddr start s trace) :
    Kept p config keys remoteAddr start trace (forwardInputs inputs s) := by
  induction inputs generalizing s trace with
  | nil => exact h.unchanged _
  | cons input inputs ih => exact (forwardInput_kept input h).andThen (fun _ _ hs => ih hs)

lemma receivePacket_kept (ready : Ready) (h : Traced p config keys remoteAddr start s trace) :
    Kept p config keys remoteAddr start trace (receivePacket p config keys remoteAddr ready s) := by
  unfold receivePacket
  cases ready.received with
  | nothing => exact h.unchanged _
  | failed => exact h.unchanged _
  | datagram data addr =>
    cases hresult : handleServerPacket p data addr remoteAddr keys.serverToClientKey config.stationId
        s.expectedPingSeq with
    | ignored =>
      simp only [hresult]
      exact h.quiet (by simp [LoopEvent.quiet])
    | noSession =>
      simp only [hresult]
      exact h.quiet (by simp [LoopEvent.quiet])
    | authenticated =>
      simp only [hresult]
      obtain ⟨hmatch, n, hexpected, hpong⟩ :=
        handleServerPacket_authenticated p config keys remoteAddr hresult
      exact h.answer ready.authenticatedAt hmatch hexpected hpong

lemma keepalive_kept (ready : Ready) (h : Traced p config keys remoteAddr start s trace) :
    Kept p config keys remoteAddr start trace (keepalive p config keys ready s) := by
  unfold keepalive
  split
  · split
    · exact h.unchanged _
    · next packet _ =>
      split
      · exact h.unchanged _
      · exact h.ping packet ready.pingNow
  · exact h.unchanged _

lemma forwardTurn_kept (turn : Turn) (h : Traced p config keys remoteAddr start s trace) :
    Kept p config keys remoteAddr start trace (forwardTurn p config keys remoteAddr turn s) := by
  have hchecked : Kept p config keys remoteAddr start trace (checkExpiration config turn s) :=
    h.unchanged _
  unfold forwardTurn
  refine ((hchecked.andThen (fun _ _ hs => forwardInput_kept turn.pending hs)).andThen ?_).andThen ?_
  · intro s trace hs
    exact hs.quiet (by simp [selectSockets, LoopEvent.quiet])
  · intro s trace hs
    cases turn.ready with
    | none => exact hs.unchanged _
    | some ready =>
      exact ((receivePacket_kept ready hs).andThen (fun _ _ hs => forwardInputs_kept ready.inputs hs)).andThen
        (fun _ _ hs => keepalive_kept ready hs)

lemma forwardFrom_kept (turns : List Turn) (h : Traced p config keys remoteAddr start s trace) :
    Kept p config keys remoteAddr start trace (forwardFrom p config keys remoteAddr turns s) := by
  induction turns generalizing s trace with
  | nil => exact h.unchanged _
  | cons turn turns ih => exact (forwardTurn_kept turn h).andThen (fun _ _ hs => ih hs)

/-! ### Expiry -/

/-- The step does not end the loop for a silent peer. -/
def NoTimeout (progress : Progress) : Prop := progress.ended ≠ some .peerTimeout

lemma NoTimeout.andThen {progress : Progress} {step : LoopState → Progress} (h : NoTimeout progress)
    (hstep : ∀ s, NoTimeout (step s)) : NoTimeout (progress.andThen step) := by
  unfold Progress.andThen
  split
  · exact h
  · exact hstep progress.state

lemma forwardInput_noTimeout (input : Forwarded) (s : LoopState) : NoTimeout (forwardInput input s) := by
  unfold NoTimeout forwardInput
  cases input.raised <;> simp

lemma forwardInputs_noTimeout (inputs : List Forwarded) (s : LoopState) :
    NoTimeout (forwardInputs inputs s) := by
  induction inputs generalizing s with
  | nil => exact nofun
  | cons input inputs ih => exact (forwardInput_noTimeout input s).andThen ih

lemma handleReady_noTimeout (ready : Option Ready) (s : LoopState) :
    NoTimeout (handleReady p config keys remoteAddr ready s) := by
  cases ready with
  | none => exact nofun
  | some ready =>
    refine (NoTimeout.andThen ?_ (fun s => forwardInputs_noTimeout ready.inputs s)).andThen ?_
    · unfold NoTimeout receivePacket
      split
      · exact nofun
      · exact nofun
      · split <;> exact nofun
    · intro s
      unfold NoTimeout keepalive
      split
      · split
        · exact nofun
        · split <;> exact nofun
      · exact nofun

/-- A turn ends the loop for a silent peer exactly if the peer was last seen too long ago. -/
theorem forwardTurn_peerTimeout_iff (turn : Turn) (s : LoopState) :
    (forwardTurn p config keys remoteAddr turn s).ended = some .peerTimeout ↔
      config.peerTimeout ≤ turn.now - s.lastAuthenticatedPeer := by
  unfold forwardTurn
  by_cases hsilent : config.peerTimeout ≤ turn.now - s.lastAuthenticatedPeer
  · have hended : (checkExpiration config turn s).ended = some .peerTimeout := by
      simp only [checkExpiration, sessionExpirationReason, hsilent, if_true]
    have hkept : ∀ step : LoopState → Progress,
        (checkExpiration config turn s).andThen step = checkExpiration config turn s := by
      intro step
      unfold Progress.andThen
      rw [hended]
    rw [hkept, hkept, hkept, hended]
    exact ⟨fun _ => hsilent, fun _ => rfl⟩
  · have hchecked : NoTimeout (checkExpiration config turn s) := by
      unfold NoTimeout checkExpiration sessionExpirationReason
      rw [if_neg hsilent]
      split <;> simp
    have hselect : ∀ s, NoTimeout (selectSockets config turn s) := by
      intro s
      unfold NoTimeout selectSockets
      cases turn.ready <;> simp
    have hready : ∀ s, NoTimeout (handleReady p config keys remoteAddr turn.ready s) :=
      handleReady_noTimeout turn.ready
    have hturn := ((hchecked.andThen (forwardInput_noTimeout turn.pending)).andThen hselect).andThen hready
    exact ⟨fun h => absurd h hturn, fun h => absurd h hsilent⟩

end Liveness

/-! ### Sessions -/

/-- What holds of a run of the loop: of the trace, and of when the peer counts as last seen. -/
structure SessionLive {Private Public : Type} (p : Primitives Private Public) (config : ProxyConfig)
    (keys : SessionKeyMaterial) (remoteAddr : Address) (start : ℚ) (progress : Progress) : Prop where
  /-- Only the answer to the last ping, if it is still unanswered, refreshes the session. -/
  answers : ∀ before data addr now after,
    progress.events = before ++ .authenticated data addr now :: after →
      remoteAddressesMatch addr remoteAddr = true ∧
        ∃ n, pongSequence p config keys data = some n ∧ Awaits before n
  seen : progress.state.lastAuthenticatedPeer = lastSeen start progress.events
  /-- The pings have different numbers, and a number is answered once at most. -/
  pings_distinct : (pings progress.events).Nodup
  answered_once : ∀ n, ((accepted progress.events).filter
    (fun data => decide (pongSequence p config keys data = some n))).length ≤ 1
  /-- No packet is taken twice, nor one that confirmed the session. -/
  accepted_once : (accepted progress.events).Nodup
  not_confirmation : ∀ data ∈ accepted progress.events, ∀ addr,
    handleServerPacket p data addr remoteAddr keys.serverToClientKey config.stationId
      (some sessionConfirmationSequence) ≠ .authenticated
  /-- The next turn ends the session for a silent peer by these signs of life alone. -/
  timeout : ∀ turn, (forwardTurn p config keys remoteAddr turn progress.state).ended = some .peerTimeout ↔
    config.peerTimeout ≤ turn.now - lastSeen start progress.events

/-- Over every sequence of turns the session lives by answers: a packet keeps it alive only if it is the
authenticated answer to the last ping and none came before it, and the loop gives the peer up exactly when
such an answer, or the start, is as long ago as the timeout. -/
theorem session_live_by_answers {Private Public : Type} (p : Primitives Private Public)
    (config : ProxyConfig) (keys : SessionKeyMaterial) (remoteAddr : Address) (start : ℚ)
    (turns : List Turn) :
    SessionLive p config keys remoteAddr start (forwardLoop p config keys remoteAddr start turns) := by
  have h : Traced p config keys remoteAddr start (forwardLoop p config keys remoteAddr start turns).state
      (forwardLoop p config keys remoteAddr start turns).events :=
    forwardFrom_kept turns traced_start
  constructor
  · exact h.answers
  · exact h.seen
  · exact h.pings_sorted.imp (fun hlt => hlt.ne)
  · intro n
    by_contra hmany
    have hsorted := h.accepted_sorted.filter
      (fun data => decide (pongSequence p config keys data = some n))
    obtain ⟨d, d', rest, hlist⟩ : ∃ d d' rest, (accepted (forwardLoop p config keys remoteAddr start
        turns).events).filter (fun data => decide (pongSequence p config keys data = some n)) =
          d :: d' :: rest := by
      rcases hfilter : (accepted (forwardLoop p config keys remoteAddr start turns).events).filter
        (fun data => decide (pongSequence p config keys data = some n)) with _ | ⟨d, _ | ⟨d', rest⟩⟩
      · simp [hfilter] at hmany
      · simp [hfilter] at hmany
      · exact ⟨d, d', rest, rfl⟩
    have hmem : ∀ x ∈ d :: d' :: rest, pongSequence p config keys x = some n := by
      intro x hx
      rw [← hlist] at hx
      exact of_decide_eq_true (List.mem_filter.mp hx).2
    rw [hlist] at hsorted
    obtain ⟨m, m', hm, hm', hlt⟩ := (List.pairwise_cons.mp hsorted).1 d' List.mem_cons_self
    rw [hmem d List.mem_cons_self] at hm
    rw [hmem d' (List.mem_cons_of_mem _ List.mem_cons_self)] at hm'
    rw [← Option.some.inj hm, ← Option.some.inj hm'] at hlt
    exact lt_irrefl _ hlt
  · refine h.accepted_sorted.imp ?_
    rintro d d' ⟨n, n', hn, hn', hlt⟩ rfl
    rw [hn] at hn'
    rw [Option.some.inj hn'] at hlt
    exact lt_irrefl _ hlt
  · intro data hdata addr hresult
    obtain ⟨n, hn, hpos, -, -⟩ := h.accepted_lt data hdata
    obtain ⟨-, m, hm, hpong⟩ := handleServerPacket_authenticated p config keys remoteAddr hresult
    rw [hn, ← hm] at hpong
    rw [Option.some.inj hpong] at hpos
    exact absurd hpos (by decide)
  · intro turn
    rw [forwardTurn_peerTimeout_iff, h.seen]

end AisMixer.Sproxy

import AisMixer.Egress.Forwarder
import AisMixer.Library.FirstOccurrence
import AisMixer.Runtime.Metrics

/-!
# Dispatch of messages

The sending half of `forwarder.py`: transports are opened when they are first needed and kept for their
destination, and every target counts its dispatches. What the event loop and the transports do in a
dispatch is a parameter, by the number of the dispatch. Calls do not overlap: each one has ended, and with it
the `await` of `_ensure_transport`, before the next one begins. The `close` of a transport returns.
-/

namespace AisMixer.Egress

open AisMixer.Library AisMixer.Runtime

/-! ### Counters -/

/-- `_OutputTrafficMetrics`. -/
structure OutputTrafficMetrics where
  targetId : Nat
  name : Option PyStr
  attempts : Nat
  completed : Nat
  failed : Nat
  messages : Nat
  bytes : Nat
  deriving DecidableEq

namespace OutputTrafficMetrics

def new (targetId : Nat) (name : Option PyStr) : OutputTrafficMetrics := ⟨targetId, name, 0, 0, 0, 0, 0⟩

def dispatchStarted (m : OutputTrafficMetrics) : OutputTrafficMetrics := { m with attempts := m.attempts + 1 }

def dispatchCompleted (message : Bytes) (m : OutputTrafficMetrics) : OutputTrafficMetrics :=
  { m with completed := m.completed + 1, messages := m.messages + 1, bytes := m.bytes + message.length }

def dispatchFailed (m : OutputTrafficMetrics) : OutputTrafficMetrics := { m with failed := m.failed + 1 }

/-- The constructor `OutputTrafficMetricsSnapshot(…)` with its `__post_init__`. -/
def snapshot (m : OutputTrafficMetrics) : Except PyException OutputTrafficMetricsSnapshot :=
  if h : ∀ name, m.name = some name → name ≠ [] then
    .ok ⟨m.targetId, m.name, m.attempts, m.completed, m.failed, m.messages, m.bytes, h⟩
  else .error (.valueError (str "name must be a non-empty string or None."))

end OutputTrafficMetrics

/-! ### Transports -/

/-- `_transport_cache_key`. -/
structure TransportKey where
  host : PyStr
  port : Int
  sourceIp : Option PyStr
  deriving DecidableEq

def transportCacheKey (destination : UdpDestination) : TransportKey :=
  ⟨destination.host, destination.port, destination.sourceIp⟩

/-- How `create_datagram_endpoint` ends. -/
inductive EndpointResult where
  | opened
  | osError
  | raises
  deriving DecidableEq

/-- What a dispatch meets, if it asks for it. -/
structure DispatchWorld where
  endpoint : EndpointResult
  sendReturns : Bool

inductive DispatchError where
  | forwarder (e : ForwarderError)
  | raised
  deriving DecidableEq

/-- What the forwarder does with its transports; a transport is known by a number. -/
inductive DispatchEvent where
  | opened (key : TransportKey) (transport : Nat)
  | sent (transport : Nat) (targetId : Nat) (message : Bytes)
  | closed (transport : Nat)
  deriving DecidableEq

/-- A forwarder with what changes when it sends. -/
structure Dispatcher where
  forwarder : Forwarder
  outputTraffic : List OutputTrafficMetrics
  transports : Dict TransportKey Nat
  openedTransports : Nat
  dispatches : Nat

def couldNotCreate (destination : UdpDestination) : ForwarderError :=
  ⟨.forwarderConfigError,
    [.text (str "Could not create UDP forwarder transport for "), .text destination.host, .text (str ":"),
      .text (intStr destination.port)] ++
    match destination.sourceIp with
    | none => []
    | some sourceIp => if sourceIp = [] then [] else [.text (str " from source_ip "), .text sourceIp]⟩

namespace Dispatcher

/-- The name of a target, if it has one. -/
def targetName (forwarder : Forwarder) (targetId : Nat) : Option PyStr :=
  forwarder.targetIdByName.entries.find? (fun entry => entry.2 == targetId) |>.map Prod.fst

def init (forwarder : Forwarder) : Dispatcher where
  forwarder := forwarder
  outputTraffic := forwarder.allTargetIds.map (fun targetId => .new targetId (targetName forwarder targetId))
  transports := .empty
  openedTransports := 0
  dispatches := 0

def count (d : Dispatcher) (targetId : Nat) (f : OutputTrafficMetrics → OutputTrafficMetrics) : Dispatcher :=
  { d with outputTraffic := d.outputTraffic.modify targetId f }

def ensureTransport (d : Dispatcher) (destination : UdpDestination) (endpoint : EndpointResult) :
    Dispatcher × List DispatchEvent × Except DispatchError Nat :=
  match d.transports.get? (transportCacheKey destination) with
  | some transport => (d, [], .ok transport)
  | none =>
    match endpoint with
    | .opened =>
      ({ d with
        transports := d.transports.set (transportCacheKey destination) d.openedTransports
        openedTransports := d.openedTransports + 1 },
        [.opened (transportCacheKey destination) d.openedTransports], .ok d.openedTransports)
    | .osError => (d, [], .error (.forwarder (couldNotCreate destination)))
    | .raises => (d, [], .error .raised)

section Sending

variable (world : Nat → DispatchWorld)

/-- `_dispatch_to_id`; a number without a destination is an `IndexError`. -/
def dispatchToId (d : Dispatcher) (targetId : Nat) (message : Bytes) :
    Dispatcher × List DispatchEvent × Except DispatchError Unit :=
  match d.forwarder.destinations[targetId]? with
  | none => (d, [], .error .raised)
  | some destination =>
    let here := world d.dispatches
    let d := { d with dispatches := d.dispatches + 1 }.count targetId .dispatchStarted
    match d.ensureTransport destination here.endpoint with
    | (d, events, .error e) => (d.count targetId .dispatchFailed, events, .error e)
    | (d, events, .ok transport) =>
      if here.sendReturns then
        (d.count targetId (.dispatchCompleted message), events ++ [.sent transport targetId message], .ok ())
      else (d.count targetId .dispatchFailed, events, .error .raised)

/-- `_dispatch_to_ids`. -/
def dispatchToIds (d : Dispatcher) (message : Bytes) :
    List Nat → Dispatcher × List DispatchEvent × Except DispatchError Unit
  | [] => (d, [], .ok ())
  | targetId :: targetIds =>
    match d.dispatchToId world targetId message with
    | (d, events, .error e) => (d, events, .error e)
    | (d, events, .ok ()) =>
      let (d, later, result) := d.dispatchToIds message targetIds
      (d, events ++ later, result)

def send (d : Dispatcher) (message : Bytes) : Dispatcher × List DispatchEvent × Except DispatchError Unit :=
  d.dispatchToIds world message d.forwarder.allTargetIds

def sendToIds (d : Dispatcher) (targetIds : List Int) (message : Bytes) :
    Dispatcher × List DispatchEvent × Except DispatchError Unit :=
  match validateNumericTargetIds targetIds d.forwarder.destinations.length with
  | .error e => (d, [], .error (.forwarder e))
  | .ok validated => d.dispatchToIds world message (validated.map Int.toNat)

def unknownTargetName (targetName : PyStr) : ForwarderError :=
  ⟨.unknownForwarderTargetError, [.text (str "Unknown UDP forwarder target ID: "), .text targetName]⟩

/-- The loop of `send_to`: a name is looked up when it is its turn. -/
def sendToNames (d : Dispatcher) (message : Bytes) :
    List PyStr → Dispatcher × List DispatchEvent × Except DispatchError Unit
  | [] => (d, [], .ok ())
  | targetName :: targetNames =>
    match d.forwarder.targetIdByName.get? targetName with
    | none => (d, [], .error (.forwarder (unknownTargetName targetName)))
    | some targetId =>
      match d.dispatchToId world targetId message with
      | (d, events, .error e) => (d, events, .error e)
      | (d, events, .ok ()) =>
        let (d, later, result) := d.sendToNames message targetNames
        (d, events ++ later, result)

def dedupeTargetIds (targetNames : List PyStr) : List PyStr := (appendUnseen targetNames ([], ∅)).1

def sendTo (d : Dispatcher) (targetNames : List PyStr) (message : Bytes) :
    Dispatcher × List DispatchEvent × Except DispatchError Unit :=
  d.sendToNames world message (dedupeTargetIds targetNames)

end Sending

/-- `close`, with transports whose own `close` returns. -/
def close (d : Dispatcher) : Dispatcher × List DispatchEvent :=
  ({ d with transports := .empty }, d.transports.values.map .closed)

end Dispatcher

/-- A call from outside. -/
inductive DispatchCall where
  | send (message : Bytes)
  | sendToIds (targetIds : List Int) (message : Bytes)
  | sendTo (targetNames : List PyStr) (message : Bytes)
  | close

namespace Dispatcher

def call (world : Nat → DispatchWorld) (d : Dispatcher) :
    DispatchCall → Dispatcher × List DispatchEvent × Except DispatchError Unit
  | .send message => d.send world message
  | .sendToIds targetIds message => d.sendToIds world targetIds message
  | .sendTo targetNames message => d.sendTo world targetNames message
  | .close => (d.close.1, d.close.2, .ok ())

/-- The calls one after another. -/
def run (world : Nat → DispatchWorld) (d : Dispatcher) : List DispatchCall → Dispatcher × List DispatchEvent
  | [] => (d, [])
  | call :: calls =>
    let (next, events, _) := d.call world call
    let (last, later) := next.run world calls
    (last, events ++ later)

end Dispatcher

/-! ### Transports in use -/

/-- Which transport a key has, after an event. -/
def DispatchEvent.apply (live : TransportKey → Option Nat) : DispatchEvent → TransportKey → Option Nat
  | .opened key transport => Function.update live key (some transport)
  | .sent _ _ _ => live
  | .closed transport => fun key => (live key).filter (fun other => other ≠ transport)

/-- A transport is opened for a key that has none, used for its key only, and closed once. -/
def DispatchEvent.Allowed (destinations : List UdpDestination) (live : TransportKey → Option Nat) :
    DispatchEvent → Prop
  | .opened key transport => live key = none ∧ ∀ other, live other ≠ some transport
  | .sent transport targetId _ => ∃ destination, destinations[targetId]? = some destination ∧
      live (transportCacheKey destination) = some transport
  | .closed transport => ∃ key, live key = some transport

def TransportTrace (destinations : List UdpDestination) :
    (TransportKey → Option Nat) → List DispatchEvent → Prop
  | _, [] => True
  | live, event :: events =>
    event.Allowed destinations live ∧ TransportTrace destinations (event.apply live) events

def liveAfter (live : TransportKey → Option Nat) (events : List DispatchEvent) : TransportKey → Option Nat :=
  events.foldl DispatchEvent.apply live

section Traces

variable {destinations : List UdpDestination} {live : TransportKey → Option Nat}
  {events later : List DispatchEvent}

lemma liveAfter_append : liveAfter live (events ++ later) = liveAfter (liveAfter live events) later :=
  List.foldl_append

lemma TransportTrace.append (h : TransportTrace destinations live events)
    (hlater : TransportTrace destinations (liveAfter live events) later) :
    TransportTrace destinations live (events ++ later) := by
  induction events generalizing live with
  | nil => exact hlater
  | cons event events ih => exact ⟨h.1, ih h.2 hlater⟩

/-- Distinct transports in use can all be closed. -/
lemma trace_closed {transports : List Nat} (hnodup : transports.Nodup)
    (hlive : ∀ transport ∈ transports, ∃ key, live key = some transport) :
    TransportTrace destinations live (transports.map .closed) ∧
      ∀ key, liveAfter live (transports.map .closed) key =
        (live key).filter (fun transport => transport ∉ transports) := by
  induction transports generalizing live with
  | nil =>
    refine ⟨trivial, ?_⟩
    intro key
    cases hkey : live key with
    | none => simp [liveAfter, hkey]
    | some transport => exact hkey
  | cons transport rest ih =>
    rw [List.nodup_cons] at hnodup
    have hrest : ∀ other ∈ rest, ∃ key, DispatchEvent.apply live (.closed transport) key = some other := by
      intro other hother
      obtain ⟨key, hkey⟩ := hlive other (List.mem_cons_of_mem _ hother)
      have hne : other ≠ transport := by
        rintro rfl
        exact hnodup.1 hother
      refine ⟨key, ?_⟩
      simp [DispatchEvent.apply, hkey, hne]
    obtain ⟨htrace, hafter⟩ := ih hnodup.2 hrest
    refine ⟨⟨hlive transport List.mem_cons_self, htrace⟩, ?_⟩
    intro key
    rw [List.map_cons, liveAfter, List.foldl_cons, ← liveAfter, hafter]
    simp only [DispatchEvent.apply, Option.filter_filter]
    congr 1
    funext other
    simp

end Traces

/-! ### Accounts -/

/-- The messages that were handed to a transport for a target. -/
def messagesTo (targetId : Nat) (events : List DispatchEvent) : List Bytes :=
  events.filterMap (fun | .sent _ id message => if id = targetId then some message else none | _ => none)

/-- The dispatches that were handed to a transport. -/
def sentMessages (events : List DispatchEvent) : List (Nat × Bytes) :=
  events.filterMap (fun | .sent _ id message => some (id, message) | _ => none)

/-- The counters of a target tell what was sent to it; a dispatch may be under way. -/
structure Tells (m : OutputTrafficMetrics) (underWay : Nat) (sent : List Bytes) : Prop where
  attempts : m.attempts = m.completed + m.failed + underWay
  completed : m.completed = sent.length
  messages : m.messages = sent.length
  bytes : m.bytes = (sent.map List.length).sum

/-- What the events tell about the state; the target of the dispatch under way is named. -/
structure Accounted (forwarder : Forwarder) (underWay : Option Nat) (d : Dispatcher) (past : List DispatchEvent) :
    Prop where
  configured : d.forwarder = forwarder
  targets : d.outputTraffic.map (fun m => (m.targetId, m.name)) =
    forwarder.allTargetIds.map (fun targetId => (targetId, Dispatcher.targetName forwarder targetId))
  traffic : ∀ (targetId : Nat) (m : OutputTrafficMetrics), d.outputTraffic[targetId]? = some m →
    Tells m (if underWay = some targetId then 1 else 0) (messagesTo targetId past)
  live : ∀ key, d.transports.get? key = liveAfter (fun _ => none) past key
  below : ∀ key transport, d.transports.get? key = some transport → transport < d.openedTransports
  injective : ∀ key other transport, d.transports.get? key = some transport →
    d.transports.get? other = some transport → key = other
  trace : TransportTrace forwarder.destinations (fun _ => none) past

section Accounts

open Dispatcher

variable {forwarder : Forwarder} {underWay : Option Nat} {d : Dispatcher}
  {past : List DispatchEvent} {targetId : Nat}

lemma accounted_init (forwarder : Forwarder) : Accounted forwarder none (Dispatcher.init forwarder) [] where
  configured := rfl
  targets := by simp [Dispatcher.init, OutputTrafficMetrics.new]
  traffic := by
    intro targetId m hm
    obtain ⟨id, -, rfl⟩ := List.mem_map.mp (List.mem_of_getElem? hm)
    exact ⟨rfl, rfl, rfl, rfl⟩
  live := fun _ => rfl
  below := by simp [Dispatcher.init]
  injective := by simp [Dispatcher.init]
  trace := trivial

/-- Counting at one target, with events that concern no other. -/
lemma Accounted.count (h : Accounted forwarder underWay d past) (targetId : Nat)
    (f : OutputTrafficMetrics → OutputTrafficMetrics) {after : Option Nat} {events : List DispatchEvent}
    (hsame : ∀ m, (f m).targetId = m.targetId ∧ (f m).name = m.name)
    (hown : ∀ m, Tells m (if underWay = some targetId then 1 else 0) (messagesTo targetId past) →
      Tells (f m) (if after = some targetId then 1 else 0) (messagesTo targetId (past ++ events)))
    (hothers : ∀ other, other ≠ targetId → (underWay = some other ↔ after = some other) ∧
      messagesTo other events = [])
    (hlive : liveAfter (liveAfter (fun _ => none) past) events = liveAfter (fun _ => none) past)
    (htrace : TransportTrace forwarder.destinations (liveAfter (fun _ => none) past) events) :
    Accounted forwarder after (d.count targetId f) (past ++ events) where
  configured := h.configured
  targets := by
    rw [← h.targets]
    apply List.ext_getElem?
    intro index
    simp only [Dispatcher.count, List.getElem?_map, List.getElem?_modify]
    cases d.outputTraffic[index]? with
    | none => simp
    | some m =>
      by_cases heq : targetId = index
      · simp [heq, hsame m]
      · simp [heq]
  traffic := by
    intro other m hm
    simp only [Dispatcher.count, List.getElem?_modify] at hm
    obtain ⟨old, hold, rfl⟩ := Option.map_eq_some_iff.mp hm
    have hbefore := h.traffic other old hold
    by_cases heq : targetId = other
    · subst heq
      simp only [if_true]
      exact hown old hbefore
    · obtain ⟨hsameWay, hnone⟩ := hothers other (Ne.symm heq)
      have hmessages : messagesTo other (past ++ events) = messagesTo other past := by
        rw [messagesTo, List.filterMap_append, ← messagesTo, ← messagesTo, hnone, List.append_nil]
      rw [if_neg heq, hmessages]
      simpa only [hsameWay] using hbefore
  live := by
    intro key
    rw [liveAfter_append, hlive]
    exact h.live key
  below := h.below
  injective := h.injective
  trace := h.trace.append htrace

@[simp] lemma sentMessages_append (events later : List DispatchEvent) :
    sentMessages (events ++ later) = sentMessages events ++ sentMessages later :=
  List.filterMap_append

lemma messagesTo_append (events later : List DispatchEvent) :
    messagesTo targetId (events ++ later) = messagesTo targetId events ++ messagesTo targetId later :=
  List.filterMap_append

/-- A transport that is opened, or the one that the destination has. -/
lemma ensureTransport_spec (h : Accounted forwarder underWay d past) (destination : UdpDestination)
    (endpoint : EndpointResult) :
    Accounted forwarder underWay (d.ensureTransport destination endpoint).1
        (past ++ (d.ensureTransport destination endpoint).2.1) ∧
      sentMessages (d.ensureTransport destination endpoint).2.1 = [] ∧
      ∀ transport, (d.ensureTransport destination endpoint).2.2 = .ok transport →
        (d.ensureTransport destination endpoint).1.transports.get? (transportCacheKey destination) =
          some transport := by
  have hstay : Accounted forwarder underWay d (past ++ []) := by
    rw [List.append_nil]
    exact h
  unfold ensureTransport
  cases hget : d.transports.get? (transportCacheKey destination) with
  | some transport =>
    refine ⟨hstay, rfl, ?_⟩
    intro other hother
    rw [← Except.ok.inj hother]
    exact hget
  | none =>
    cases endpoint with
    | osError => exact ⟨hstay, rfl, by simp⟩
    | raises => exact ⟨hstay, rfl, by simp⟩
    | opened =>
      refine ⟨?_, rfl, ?_⟩
      · have hfree : ∀ other, liveAfter (fun _ => none) past other ≠ some d.openedTransports := by
          intro other hother
          rw [← h.live other] at hother
          exact absurd (h.below other _ hother) (lt_irrefl _)
        have hnone : liveAfter (fun _ => none) past (transportCacheKey destination) = none := by
          rw [← h.live, hget]
        constructor
        · exact h.configured
        · exact h.targets
        · intro id m hm
          have hbefore := h.traffic id m hm
          rw [messagesTo_append]
          simpa [messagesTo] using hbefore
        · intro key
          rw [liveAfter_append, Dict.get?_set, h.live key]
          simp only [liveAfter, List.foldl_cons, List.foldl_nil, DispatchEvent.apply,
            Function.update_apply, eq_comm]
        · intro key transport hkey
          rw [Dict.get?_set] at hkey
          split at hkey
          · rw [← Option.some.inj hkey]
            exact Nat.lt_succ_self _
          · exact Nat.lt_succ_of_lt (h.below key transport hkey)
        · intro key other transport hkey hother
          rw [Dict.get?_set] at hkey hother
          split at hkey
          · next hsame =>
            split at hother
            · next hsame' => exact hsame.symm.trans hsame'
            · have hbelow := h.below other transport hother
              rw [← Option.some.inj hkey] at hbelow
              exact absurd hbelow (lt_irrefl _)
          · split at hother
            · have hbelow := h.below key transport hkey
              rw [← Option.some.inj hother] at hbelow
              exact absurd hbelow (lt_irrefl _)
            · exact h.injective key other transport hkey hother
        · exact h.trace.append ⟨⟨hnone, hfree⟩, trivial⟩
      · intro transport htransport
        rw [Dict.get?_set, if_pos rfl, ← Except.ok.inj htransport]

/-- What a sending call does: the account goes on, and what was sent is what was asked for, or less if an
exception is raised. -/
structure Dispatched (forwarder : Forwarder) (past : List DispatchEvent) (asked : List (Option Nat))
    (message : Bytes) (out : Dispatcher × List DispatchEvent × Except DispatchError Unit) : Prop where
  account : Accounted forwarder none out.1 (past ++ out.2.1)
  message : ∀ sent ∈ sentMessages out.2.1, sent.2 = message
  returns : out.2.2 = .ok () → (sentMessages out.2.1).map (fun sent => some sent.1) = asked
  raises : ∀ e, out.2.2 = .error e →
    ∃ rest, rest ≠ [] ∧ (sentMessages out.2.1).map (fun sent => some sent.1) ++ rest = asked

lemma Accounted.started (h : Accounted forwarder none d past) :
    Accounted forwarder (some targetId)
      ({ d with dispatches := d.dispatches + 1 }.count targetId .dispatchStarted) past := by
  have hnext : Accounted forwarder none { d with dispatches := d.dispatches + 1 } past :=
    ⟨h.configured, h.targets, h.traffic, h.live, h.below, h.injective, h.trace⟩
  rw [← List.append_nil past]
  refine hnext.count targetId .dispatchStarted (fun _ => ⟨rfl, rfl⟩) ?_ ?_ rfl trivial
  · intro m hm
    have hattempts := hm.attempts
    rw [List.append_nil]
    refine ⟨?_, hm.completed, hm.messages, hm.bytes⟩
    simp only [OutputTrafficMetrics.dispatchStarted, reduceCtorEq, if_false, if_true] at hattempts ⊢
    omega
  · intro other hne
    exact ⟨by simp [hne.symm], rfl⟩

lemma Accounted.failed (h : Accounted forwarder (some targetId) d past) :
    Accounted forwarder none (d.count targetId .dispatchFailed) past := by
  rw [← List.append_nil past]
  refine h.count targetId .dispatchFailed (fun _ => ⟨rfl, rfl⟩) ?_ ?_ rfl trivial
  · intro m hm
    have hattempts := hm.attempts
    rw [List.append_nil]
    refine ⟨?_, hm.completed, hm.messages, hm.bytes⟩
    simp only [OutputTrafficMetrics.dispatchFailed, reduceCtorEq, if_false, if_true] at hattempts ⊢
    omega
  · intro other hne
    exact ⟨by simp [hne.symm], rfl⟩

lemma Accounted.sent (h : Accounted forwarder (some targetId) d past) {destination : UdpDestination}
    (hdestination : forwarder.destinations[targetId]? = some destination) {transport : Nat}
    (htransport : d.transports.get? (transportCacheKey destination) = some transport) (message : Bytes) :
    Accounted forwarder none (d.count targetId (.dispatchCompleted message))
      (past ++ [.sent transport targetId message]) := by
  apply h.count targetId (.dispatchCompleted message)
  · exact fun _ => ⟨rfl, rfl⟩
  · intro m hm
    have hattempts := hm.attempts
    have hcompleted := hm.completed
    have hmessages := hm.messages
    have hbytes := hm.bytes
    have hsent : messagesTo targetId [.sent transport targetId message] = [message] := by simp [messagesTo]
    rw [messagesTo_append, hsent]
    simp only [if_true] at hattempts
    constructor
    · simp only [OutputTrafficMetrics.dispatchCompleted, reduceCtorEq, if_false]
      omega
    · simp [OutputTrafficMetrics.dispatchCompleted, hcompleted]
    · simp [OutputTrafficMetrics.dispatchCompleted, hmessages]
    · simp [OutputTrafficMetrics.dispatchCompleted, hbytes]
  · intro other hne
    exact ⟨by simp [hne.symm], by simp [messagesTo, hne.symm]⟩
  · rfl
  · refine ⟨⟨destination, hdestination, ?_⟩, trivial⟩
    rw [← h.live]
    exact htransport

lemma dispatchToId_spec (world : Nat → DispatchWorld) (h : Accounted forwarder none d past)
    (htarget : targetId < forwarder.destinations.length) (message : Bytes) :
    Dispatched forwarder past [some targetId] message (d.dispatchToId world targetId message) := by
  have hdestination := List.getElem?_eq_getElem htarget
  obtain ⟨haccount, hnone, htransport⟩ := ensureTransport_spec (@Accounted.started _ _ _ targetId h)
    forwarder.destinations[targetId] (world d.dispatches).endpoint
  have hhere : d.forwarder.destinations[targetId]? = some forwarder.destinations[targetId] := by
    rw [h.configured]
    exact hdestination
  rcases hensure : ({ d with dispatches := d.dispatches + 1 }.count targetId .dispatchStarted).ensureTransport
    forwarder.destinations[targetId] (world d.dispatches).endpoint with ⟨ensured, events, result⟩
  rw [hensure] at haccount hnone htransport
  unfold dispatchToId
  simp only [hhere, hensure]
  have hraises (e : DispatchError) :
      Dispatched forwarder past [some targetId] message
        (ensured.count targetId .dispatchFailed, events, .error e) := by
    refine ⟨haccount.failed, by simp [hnone], by simp, ?_⟩
    intro _ _
    exact ⟨[some targetId], by simp, by simp [hnone]⟩
  cases result with
  | error e => exact hraises e
  | ok transport =>
    cases hreturns : (world d.dispatches).sendReturns with
    | false => exact hraises .raised
    | true =>
      simp only [if_true]
      have hsent := haccount.sent hdestination (htransport transport rfl) message
      rw [List.append_assoc] at hsent
      have hall : sentMessages (events ++ [.sent transport targetId message]) = [(targetId, message)] := by
        rw [sentMessages_append, hnone]
        rfl
      exact ⟨hsent, by simp [hall], fun _ => by simp [hall], by simp⟩

/-- One dispatch and then the others. -/
lemma Dispatched.andThen {asked : List (Option Nat)} {message : Bytes} {events later : List DispatchEvent}
    {result : Except DispatchError Unit} {next last : Dispatcher}
    (hfirst : Dispatched forwarder past [some targetId] message (next, events, .ok ()))
    (hrest : Dispatched forwarder (past ++ events) asked message (last, later, result)) :
    Dispatched forwarder past (some targetId :: asked) message (last, events ++ later, result) where
  account := by
    have haccount := hrest.account
    rwa [List.append_assoc] at haccount
  message := by
    intro sent hsent
    rw [sentMessages_append, List.mem_append] at hsent
    rcases hsent with hsent | hsent
    · exact hfirst.message sent hsent
    · exact hrest.message sent hsent
  returns := by
    intro hok
    rw [sentMessages_append, List.map_append, hfirst.returns rfl, hrest.returns hok]
    rfl
  raises := by
    intro e he
    obtain ⟨rest, hne, hall⟩ := hrest.raises e he
    refine ⟨rest, hne, ?_⟩
    rw [sentMessages_append, List.map_append, hfirst.returns rfl, List.append_assoc, hall]
    rfl

/-- A dispatch that raises, before others that are not begun. -/
lemma Dispatched.stops {asked : List (Option Nat)} {message : Bytes}
    {out : Dispatcher × List DispatchEvent × Except DispatchError Unit} {e : DispatchError}
    (h : Dispatched forwarder past [some targetId] message out) (he : out.2.2 = .error e) :
    Dispatched forwarder past (some targetId :: asked) message out where
  account := h.account
  message := h.message
  returns := by simp [he]
  raises := by
    intro e' he'
    obtain ⟨rest, hne, hall⟩ := h.raises e' he'
    refine ⟨rest ++ asked, by simp [hne], ?_⟩
    rw [← List.append_assoc, hall]
    rfl

lemma dispatchToIds_spec (world : Nat → DispatchWorld) {targetIds : List Nat}
    (h : Accounted forwarder none d past)
    (htargets : ∀ targetId ∈ targetIds, targetId < forwarder.destinations.length) (message : Bytes) :
    Dispatched forwarder past (targetIds.map some) message (d.dispatchToIds world message targetIds) := by
  induction targetIds generalizing d past with
  | nil =>
    refine ⟨?_, by simp [dispatchToIds, sentMessages], fun _ => rfl, by simp [dispatchToIds]⟩
    simp only [dispatchToIds, List.append_nil]
    exact h
  | cons targetId targetIds ih =>
    have hfirst := dispatchToId_spec world h (htargets targetId List.mem_cons_self) message
    rw [dispatchToIds]
    rcases hdispatch : d.dispatchToId world targetId message with ⟨next, events, result⟩
    rw [hdispatch] at hfirst
    cases result with
    | error e => exact hfirst.stops rfl
    | ok _ =>
      exact hfirst.andThen (ih hfirst.account (fun id hid => htargets id (List.mem_cons_of_mem _ hid)))

lemma sendToNames_spec (world : Nat → DispatchWorld) {targetNames : List PyStr}
    (h : Accounted forwarder none d past) (message : Bytes) :
    Dispatched forwarder past (targetNames.map forwarder.targetIdByName.get?) message
      (d.sendToNames world message targetNames) := by
  induction targetNames generalizing d past with
  | nil =>
    refine ⟨?_, by simp [sendToNames, sentMessages], fun _ => rfl, by simp [sendToNames]⟩
    simp only [sendToNames, List.append_nil]
    exact h
  | cons targetName targetNames ih =>
    rw [sendToNames, h.configured, List.map_cons]
    cases hname : forwarder.targetIdByName.get? targetName with
    | none =>
      refine ⟨?_, by simp [sentMessages], by simp, ?_⟩
      · simp only [List.append_nil]
        exact h
      · intro _ _
        exact ⟨_, by simp, rfl⟩
    | some targetId =>
      have hfirst := dispatchToId_spec world h (forwarder.registered.below _ _ hname) message
      simp only
      rcases hdispatch : d.dispatchToId world targetId message with ⟨next, events, result⟩
      rw [hdispatch] at hfirst
      cases result with
      | error e => exact hfirst.stops rfl
      | ok _ => exact hfirst.andThen (ih hfirst.account)

lemma validateLoop_ok {destinationCount : Nat} {targetIds ordered validated : List Int} {seen : Finset Int}
    (h : validateLoop destinationCount targetIds ordered seen = .ok validated) :
    (∀ id ∈ targetIds, 0 ≤ id ∧ id < destinationCount) ∧
      validated = (appendUnseen targetIds (ordered, seen)).1 := by
  induction targetIds generalizing ordered seen with
  | nil => exact ⟨by simp, (Except.ok.inj h).symm⟩
  | cons targetId targetIds ih =>
    rw [validateLoop] at h
    split at h
    · cases h
    · next hrange =>
      have hbounds : 0 ≤ targetId ∧ targetId < destinationCount := by omega
      split at h
      · next hseen =>
        obtain ⟨hrest, hvalidated⟩ := ih h
        refine ⟨by simpa using ⟨hbounds, hrest⟩, ?_⟩
        rw [appendUnseen, if_pos hseen]
        exact hvalidated
      · next hseen =>
        obtain ⟨hrest, hvalidated⟩ := ih h
        refine ⟨by simpa using ⟨hbounds, hrest⟩, ?_⟩
        rw [appendUnseen, if_neg hseen]
        exact hvalidated

lemma validate_ok {destinationCount : Nat} {targetIds validated : List Int}
    (h : validateNumericTargetIds targetIds destinationCount = .ok validated) :
    validated = firstOccurrences targetIds ∧ ∀ id ∈ validated, 0 ≤ id ∧ id < destinationCount := by
  obtain ⟨hrange, hvalidated⟩ := validateLoop_ok h
  have hcollected := (collected_nil.append targetIds).1
  rw [List.nil_append, ← hvalidated] at hcollected
  refine ⟨hcollected, ?_⟩
  intro id hid
  rw [hcollected, mem_firstOccurrences] at hid
  exact hrange id hid

/-- What a call asks for, if its ids pass the check. -/
def DispatchCall.asked (forwarder : Forwarder) : DispatchCall → List (Option Nat)
  | .send _ => forwarder.allTargetIds.map some
  | .sendToIds targetIds _ => ((firstOccurrences targetIds).map Int.toNat).map some
  | .sendTo targetNames _ => (firstOccurrences targetNames).map forwarder.targetIdByName.get?
  | .close => []

def DispatchCall.message : DispatchCall → Bytes
  | .send message | .sendToIds _ message | .sendTo _ message => message
  | .close => []

/-- A call whose ids do not pass the check of `send_to_ids`. -/
def DispatchCall.Rejected (forwarder : Forwarder) : DispatchCall → Prop
  | .sendToIds targetIds _ =>
    ∃ e, validateNumericTargetIds targetIds forwarder.destinations.length = .error e
  | _ => False

lemma sentMessages_closed (transports : List Nat) : sentMessages (transports.map .closed) = [] := by
  simp [sentMessages]

lemma messagesTo_closed (targetId : Nat) (transports : List Nat) :
    messagesTo targetId (transports.map .closed) = [] := by
  simp [messagesTo]

lemma Accounted.values_nodup (h : Accounted forwarder underWay d past) : d.transports.values.Nodup := by
  have hentries : d.transports.entries.Nodup := List.Nodup.of_map Prod.fst d.transports.nodupKeys
  apply hentries.map_on
  rintro ⟨key, transport⟩ hentry ⟨other, transport'⟩ hentry' heq
  obtain rfl : transport = transport' := heq
  have hkey := h.injective key other transport ((Dict.get?_eq_some_iff _ _ _).mpr hentry)
    ((Dict.get?_eq_some_iff _ _ _).mpr hentry')
  rw [hkey]

lemma close_spec (h : Accounted forwarder none d past) :
    Accounted forwarder none d.close.1 (past ++ d.close.2) ∧ sentMessages d.close.2 = [] := by
  have hlive : ∀ transport ∈ d.transports.values,
      ∃ key, liveAfter (fun _ => none) past key = some transport := by
    intro transport htransport
    obtain ⟨⟨key, other⟩, hentry, rfl⟩ := List.mem_map.mp htransport
    refine ⟨key, ?_⟩
    rw [← h.live]
    exact (Dict.get?_eq_some_iff _ _ _).mpr hentry
  obtain ⟨htrace, hafter⟩ := @trace_closed forwarder.destinations _ _ h.values_nodup hlive
  refine ⟨?_, sentMessages_closed _⟩
  constructor
  · exact h.configured
  · exact h.targets
  · intro targetId m hm
    have hbefore := h.traffic targetId m hm
    rw [messagesTo_append, Dispatcher.close, messagesTo_closed, List.append_nil]
    exact hbefore
  · intro key
    simp only [Dispatcher.close]
    rw [liveAfter_append, hafter, ← h.live, Dict.get?_empty]
    cases hkey : d.transports.get? key with
    | none => rfl
    | some transport =>
      have hmem : transport ∈ d.transports.values :=
        List.mem_map.mpr ⟨_, (Dict.get?_eq_some_iff _ _ _).mp hkey, rfl⟩
      rw [Option.filter_some, if_neg (by simpa using hmem)]
  · simp [Dispatcher.close]
  · simp [Dispatcher.close]
  · exact h.trace.append htrace

/-- What a call does. -/
lemma call_spec (world : Nat → DispatchWorld) (h : Accounted forwarder none d past) (call : DispatchCall) :
    Accounted forwarder none (d.call world call).1 (past ++ (d.call world call).2.1) ∧
      (call.Rejected forwarder → (d.call world call).1 = d ∧ (d.call world call).2.1 = [] ∧
        ∃ e, (d.call world call).2.2 = .error (.forwarder e)) ∧
      (¬ call.Rejected forwarder →
        Dispatched forwarder past (call.asked forwarder) call.message (d.call world call)) := by
  cases call with
  | send message =>
    have hsend : Dispatched forwarder past (forwarder.allTargetIds.map some) message (d.send world message) := by
      unfold Dispatcher.send
      rw [h.configured]
      exact dispatchToIds_spec world h (fun id hid => List.mem_range.mp hid) message
    exact ⟨hsend.account, False.elim, fun _ => hsend⟩
  | sendTo targetNames message =>
    have hnames : dedupeTargetIds targetNames = firstOccurrences targetNames := by
      have hcollected := (collected_nil.append targetNames).1
      rwa [List.nil_append] at hcollected
    have hsend : Dispatched forwarder past ((firstOccurrences targetNames).map forwarder.targetIdByName.get?)
        message (d.sendTo world targetNames message) := by
      unfold Dispatcher.sendTo
      rw [hnames]
      exact sendToNames_spec world h message
    exact ⟨hsend.account, False.elim, fun _ => hsend⟩
  | sendToIds targetIds message =>
    cases hvalidate : validateNumericTargetIds targetIds forwarder.destinations.length with
    | error e =>
      have hcall : d.call world (.sendToIds targetIds message) = (d, [], .error (.forwarder e)) := by
        simp only [Dispatcher.call, Dispatcher.sendToIds, h.configured, hvalidate]
      rw [hcall]
      refine ⟨by simpa using h, fun _ => ⟨rfl, rfl, e, rfl⟩, ?_⟩
      intro hnot
      exact absurd ⟨e, hvalidate⟩ hnot
    | ok validated =>
      obtain ⟨rfl, hrange⟩ := validate_ok hvalidate
      have hcall : d.call world (.sendToIds targetIds message) =
          d.dispatchToIds world message ((firstOccurrences targetIds).map Int.toNat) := by
        simp only [Dispatcher.call, Dispatcher.sendToIds, h.configured, hvalidate]
      have hbelow : ∀ targetId ∈ (firstOccurrences targetIds).map Int.toNat,
          targetId < forwarder.destinations.length := by
        intro targetId hid
        obtain ⟨id, hin, rfl⟩ := List.mem_map.mp hid
        have hbounds := hrange id hin
        omega
      have hsend := dispatchToIds_spec world h hbelow message
      rw [hcall]
      refine ⟨hsend.account, ?_, fun _ => hsend⟩
      rintro ⟨e, he⟩
      rw [hvalidate] at he
      cases he
  | close =>
    obtain ⟨haccount, hnone⟩ := close_spec h
    refine ⟨haccount, False.elim, fun _ => ⟨haccount, ?_, ?_, by simp [Dispatcher.call]⟩⟩
    · simp [Dispatcher.call, hnone]
    · intro _
      simp [Dispatcher.call, hnone, DispatchCall.asked]

lemma run_account (world : Nat → DispatchWorld) (h : Accounted forwarder none d past)
    (calls : List DispatchCall) :
    Accounted forwarder none (d.run world calls).1 (past ++ (d.run world calls).2) := by
  induction calls generalizing d past with
  | nil =>
    simp only [Dispatcher.run, List.append_nil]
    exact h
  | cons call calls ih =>
    have hrest := ih (call_spec world h call).1
    rw [List.append_assoc] at hrest
    exact hrest

lemma targetName_ne_nil (forwarder : Forwarder) {targetId : Nat} {name : PyStr}
    (h : targetName forwarder targetId = some name) : name ≠ [] := by
  obtain ⟨entry, hentry, rfl⟩ := Option.map_eq_some_iff.mp h
  apply forwarder.registered.nonempty
  exact List.mem_map_of_mem (List.mem_of_find?_eq_some hentry)

/-- After any calls that do not overlap, whatever the event loop does and whatever `sendto` does, as long as
every `close` of a transport returns: every target's counters tell the messages that were handed over for it
and make a snapshot, no key ever has two transports, every message leaves through the transport of its
destination, and every transport is closed once at most. -/
theorem dispatch_accounts (world : Nat → DispatchWorld) (forwarder : Forwarder) (calls : List DispatchCall) :
    let last := (Dispatcher.init forwarder).run world calls
    (∀ targetId < forwarder.destinations.length, ∃ m snapshot, last.1.outputTraffic[targetId]? = some m ∧
      m.targetId = targetId ∧ m.name = targetName forwarder targetId ∧
      Tells m 0 (messagesTo targetId last.2) ∧ m.snapshot = .ok snapshot) ∧
      TransportTrace forwarder.destinations (fun _ => none) last.2 := by
  intro last
  have haccount : Accounted forwarder none last.1 last.2 := run_account world (accounted_init forwarder) calls
  refine ⟨?_, haccount.trace⟩
  intro targetId htarget
  have hlength : last.1.outputTraffic.length = forwarder.destinations.length := by
    have hboth := congrArg List.length haccount.targets
    simpa [Forwarder.allTargetIds] using hboth
  obtain ⟨m, hget⟩ : ∃ m, last.1.outputTraffic[targetId]? = some m :=
    ⟨_, List.getElem?_eq_getElem (hlength ▸ htarget)⟩
  have hnames := congrArg (fun targets => targets[targetId]?) haccount.targets
  simp only [List.getElem?_map, hget, Option.map_some, Forwarder.allTargetIds,
    List.getElem?_range htarget, Option.some.injEq, Prod.mk.injEq] at hnames
  have hnonempty : ∀ name, m.name = some name → name ≠ [] := by
    intro name hname
    rw [hnames.2] at hname
    exact targetName_ne_nil forwarder hname
  have hsnapshot : m.snapshot = .ok ⟨_, _, _, _, _, _, _, hnonempty⟩ := dif_pos hnonempty
  exact ⟨m, _, hget, hnames.1, hnames.2, haccount.traffic targetId m hget, hsnapshot⟩

/-- After any calls, one after another, a call whose ids do not pass the check does nothing; any other one
hands its message over to each of the targets that it asks for, once and in order of first mention, or to
the first ones of these and raises. -/
theorem calls_dispatch_in_order (world : Nat → DispatchWorld) (forwarder : Forwarder)
    (calls : List DispatchCall) (call : DispatchCall) :
    let before := ((Dispatcher.init forwarder).run world calls).1
    let out := before.call world call
    (call.Rejected forwarder → out.1 = before ∧ out.2.1 = [] ∧ ∃ e, out.2.2 = .error (.forwarder e)) ∧
      (¬ call.Rejected forwarder →
        (∀ sent ∈ sentMessages out.2.1, sent.2 = call.message) ∧
        (out.2.2 = .ok () → (sentMessages out.2.1).map (fun sent => some sent.1) = call.asked forwarder) ∧
        ∀ e, out.2.2 = .error e → ∃ rest, rest ≠ [] ∧
          (sentMessages out.2.1).map (fun sent => some sent.1) ++ rest = call.asked forwarder) := by
  intro before out
  have haccount : Accounted forwarder none before _ := run_account world (accounted_init forwarder) calls
  obtain ⟨-, hrejected, hsends⟩ := call_spec world haccount call
  refine ⟨hrejected, ?_⟩
  intro hnot
  have hdispatched := hsends hnot
  exact ⟨hdispatched.message, hdispatched.returns, hdispatched.raises⟩

end Accounts

end AisMixer.Egress

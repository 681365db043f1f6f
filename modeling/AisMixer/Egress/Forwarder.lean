import AisMixer.Library.Repr
import AisMixer.Library.Dict
import AisMixer.Library.Fallible

/-!
# The UDP forwarder

`forwarder.py` up to the hand-over of a message to its transports: the destinations and the
names of the targets from the configured entries, and the check of the numeric target ids of
an output. `ipaddress.ip_address` is a parameter, as its version and its canonical text.
-/

namespace AisMixer.Egress

open AisMixer.Library

inductive AddressFamily where
  | unspec
  | inet
  | inet6
  deriving DecidableEq

/-- What `ipaddress.ip_address` makes of a text that it accepts. -/
structure IpAddress where
  isV6 : Bool
  text : PyStr

structure UdpDestination where
  host : PyStr
  port : Int
  sourceIp : Option PyStr
  family : AddressFamily
  deriving DecidableEq

/-- One configured entry of the forwarders. -/
structure TargetEntry where
  host : PyStr
  port : Int
  id : Option PyStr
  sourceIp : Option PyStr

inductive ForwarderErrorKind where
  | valueError
  | forwarderConfigError
  | unknownForwarderTargetError
  deriving DecidableEq

structure ForwarderError where
  kind : ForwarderErrorKind
  message : Message
  deriving DecidableEq

def targetContext (entry : TargetEntry) : Message :=
  match entry.id with
  | some id => [.text (str "forwarder "), .repr id]
  | none => [.text (str "forwarder "), .repr entry.host, .text (str ":"), .text (intStr entry.port)]

/-! ### Destinations -/

section Destinations

variable (ipAddress : PyStr → Option IpAddress)

def normalizeSourceIp (value : PyStr) (entry : TargetEntry) : Except ForwarderError PyStr :=
  if strip value = [] then
    .error ⟨.forwarderConfigError,
      targetContext entry ++ [.text (str ": source_ip must be a literal IPv4 or IPv6 address")]⟩
  else
    match ipAddress (strip value) with
    | some address => .ok address.text
    | none =>
      .error ⟨.forwarderConfigError,
        targetContext entry ++ [.text (str ": invalid source_ip "), .repr value]⟩

def copyTargetEntry (entry : TargetEntry) : Except ForwarderError TargetEntry :=
  match entry.sourceIp with
  | none => .ok entry
  | some value =>
    (normalizeSourceIp ipAddress value entry).map (fun sourceIp => { entry with sourceIp := some sourceIp })

def versionText (address : IpAddress) : PyStr := if address.isV6 then str "6" else str "4"

def destinationFromEntry (entry : TargetEntry) : Except ForwarderError UdpDestination :=
  match entry.sourceIp with
  | none => .ok ⟨entry.host, entry.port, none, .unspec⟩
  | some sourceIp =>
    match ipAddress sourceIp with
    | none =>
      .error ⟨.valueError,
        [.repr sourceIp, .text (str " does not appear to be an IPv4 or IPv6 address")]⟩
    | some sourceAddress =>
      match (ipAddress entry.host).filter (fun host => host.isV6 != sourceAddress.isV6) with
      | some hostAddress =>
        .error ⟨.forwarderConfigError, targetContext entry ++ [.text (str ": source_ip "),
          .repr sourceIp, .text (str " is IPv"), .text (versionText sourceAddress),
          .text (str " but host "), .repr entry.host, .text (str " is IPv"),
          .text (versionText hostAddress)]⟩
      | none =>
        .ok ⟨entry.host, entry.port, some sourceAddress.text,
          if sourceAddress.isV6 then .inet6 else .inet⟩

end Destinations

/-! ### Names of the targets -/

def buildUdpTargetId (configuredId : PyStr) : Except ForwarderError PyStr :=
  if strip configuredId = [] then
    .error ⟨.valueError, [.text (str "UDP target identity requires a non-empty configured_id.")]⟩
  else if 0x3A ∈ configuredId then
    .error ⟨.valueError,
      [.text (str "UDP target configured_id must be unnamespaced; use values like 'aishub'.")]⟩
  else .ok (str "udp:" ++ configuredId)

/-- The loop of `Forwarder.__init__` over the entries and their positions. -/
def registerTargets : List TargetEntry → Nat → Dict PyStr Nat → Except ForwarderError (Dict PyStr Nat)
  | [], _, targetIdByName => .ok targetIdByName
  | entry :: entries, targetId, targetIdByName =>
    match entry.id with
    | none => registerTargets entries (targetId + 1) targetIdByName
    | some configuredId =>
      match buildUdpTargetId configuredId with
      | .error e => .error e
      | .ok targetName =>
        if targetIdByName.contains targetName then
          .error ⟨.forwarderConfigError,
            [.text (str "Duplicate UDP forwarder target ID: "), .text targetName]⟩
        else registerTargets entries (targetId + 1) (targetIdByName.set targetName targetId)

/-- Names are not empty, ids are below `count`, and no id has two names. -/
structure Registered (count : Nat) (targetIdByName : Dict PyStr Nat) : Prop where
  nonempty : ∀ name ∈ targetIdByName.keys, name ≠ []
  below : ∀ name id, targetIdByName.get? name = some id → id < count
  injective : ∀ a b id, targetIdByName.get? a = some id → targetIdByName.get? b = some id → a = b

lemma registered_empty : Registered 0 .empty where
  nonempty := by simp
  below := by simp
  injective := by simp

lemma Registered.mono {count count' : Nat} {targetIdByName : Dict PyStr Nat}
    (h : Registered count targetIdByName) (hle : count ≤ count') : Registered count' targetIdByName where
  nonempty := h.nonempty
  below := fun name id hget => lt_of_lt_of_le (h.below name id hget) hle
  injective := h.injective

lemma Registered.set {count : Nat} {targetIdByName : Dict PyStr Nat} (h : Registered count targetIdByName)
    {name : PyStr} (hname : name ≠ []) : Registered (count + 1) (targetIdByName.set name count) where
  nonempty := by
    intro other hother
    rw [Dict.keys_set] at hother
    split at hother
    · exact h.nonempty other hother
    · rcases List.mem_append.mp hother with hother | hother
      · exact h.nonempty other hother
      · rw [List.mem_singleton.mp hother]
        exact hname
  below := by
    intro other id hget
    rw [Dict.get?_set] at hget
    split at hget
    · rw [← Option.some_inj.mp hget]
      exact Nat.lt_succ_self count
    · exact Nat.lt_succ_of_lt (h.below other id hget)
  injective := by
    intro a b id ha hb
    rw [Dict.get?_set] at ha hb
    by_cases hna : name = a
    · by_cases hnb : name = b
      · rw [← hna, ← hnb]
      · rw [if_pos hna] at ha
        rw [if_neg hnb] at hb
        have hlt := h.below b id hb
        rw [← Option.some_inj.mp ha] at hlt
        exact (lt_irrefl _ hlt).elim
    · by_cases hnb : name = b
      · rw [if_neg hna] at ha
        rw [if_pos hnb] at hb
        have hlt := h.below a id ha
        rw [← Option.some_inj.mp hb] at hlt
        exact (lt_irrefl _ hlt).elim
      · rw [if_neg hna] at ha
        rw [if_neg hnb] at hb
        exact h.injective a b id ha hb

lemma buildUdpTargetId_ne_nil {configuredId name : PyStr} (h : buildUdpTargetId configuredId = .ok name) :
    name ≠ [] := by
  unfold buildUdpTargetId at h
  split at h
  · cases h
  · split at h
    · cases h
    · obtain rfl := Except.ok.inj h
      simp [str]

lemma registerTargets_ok {entries : List TargetEntry} {targetId : Nat}
    {targetIdByName targetIdByName' : Dict PyStr Nat} (hinv : Registered targetId targetIdByName)
    (h : registerTargets entries targetId targetIdByName = .ok targetIdByName') :
    Registered (targetId + entries.length) targetIdByName' := by
  induction entries generalizing targetId targetIdByName with
  | nil =>
    obtain rfl := Except.ok.inj h
    exact hinv
  | cons entry entries ih =>
    have hlength : targetId + (entry :: entries).length = targetId + 1 + entries.length := by
      rw [List.length_cons]
      omega
    rw [hlength]
    rw [registerTargets] at h
    split at h
    · exact ih (hinv.mono (Nat.le_succ targetId)) h
    · split at h
      · cases h
      · next hname =>
        split at h
        · cases h
        · exact ih (hinv.set (buildUdpTargetId_ne_nil hname)) h

/-- A configured forwarder: its destinations in numeric order, and the names of the targets
that have one. -/
structure Forwarder where
  destinations : List UdpDestination
  targetIdByName : Dict PyStr Nat
  registered : Registered destinations.length targetIdByName

lemma registered_of_init {ipAddress : PyStr → Option IpAddress} {targets : List TargetEntry}
    {destinations : List UdpDestination} {targetIdByName : Dict PyStr Nat}
    (hdestinations : targets.mapM (destinationFromEntry ipAddress) = .ok destinations)
    (hregister : registerTargets targets 0 .empty = .ok targetIdByName) :
    Registered destinations.length targetIdByName := by
  have h := registerTargets_ok registered_empty hregister
  rw [Nat.zero_add] at h
  rw [length_of_mapM_ok hdestinations]
  exact h

namespace Forwarder

def init (ipAddress : PyStr → Option IpAddress) (entries : List TargetEntry) :
    Except ForwarderError Forwarder :=
  match entries.mapM (copyTargetEntry ipAddress) with
  | .error e => .error e
  | .ok targets =>
    match hdestinations : targets.mapM (destinationFromEntry ipAddress) with
    | .error e => .error e
    | .ok destinations =>
      match hregister : registerTargets targets 0 .empty with
      | .error e => .error e
      | .ok targetIdByName =>
        .ok ⟨destinations, targetIdByName, registered_of_init hdestinations hregister⟩

def allTargetIds (forwarder : Forwarder) : List Nat := List.range forwarder.destinations.length

end Forwarder

/-! ### Numeric target ids of an output -/

def unknownTarget (targetId : Int) : ForwarderError :=
  ⟨.unknownForwarderTargetError,
    [.text (str "Unknown UDP forwarder target ID: "), .text (intStr targetId)]⟩

/-- The loop of `_validate_numeric_target_ids`. -/
def validateLoop (destinationCount : Nat) :
    List Int → List Int → Finset Int → Except ForwarderError (List Int)
  | [], ordered, _ => .ok ordered
  | targetId :: targetIds, ordered, seen =>
    if targetId < 0 ∨ destinationCount ≤ targetId then .error (unknownTarget targetId)
    else if targetId ∈ seen then validateLoop destinationCount targetIds ordered seen
    else validateLoop destinationCount targetIds (ordered ++ [targetId]) (insert targetId seen)

def validateNumericTargetIds (targetIds : List Int) (destinationCount : Nat) :
    Except ForwarderError (List Int) :=
  validateLoop destinationCount targetIds [] ∅

lemma validateLoop_eq {destinationCount : Nat} {targetIds : List Int}
    (hvalid : ∀ id ∈ targetIds, 0 ≤ id ∧ id < destinationCount) :
    ∀ {ordered : List Int} {seen : Finset Int}, targetIds.Nodup → (∀ id ∈ targetIds, id ∉ seen) →
      validateLoop destinationCount targetIds ordered seen = .ok (ordered ++ targetIds) := by
  induction targetIds with
  | nil =>
    intro ordered seen _ _
    simp [validateLoop]
  | cons targetId targetIds ih =>
    intro ordered seen hnodup hunseen
    rw [List.nodup_cons] at hnodup
    obtain ⟨hnonneg, hbelow⟩ := hvalid targetId (by simp)
    have hunseen' : ∀ id ∈ targetIds, id ∉ insert targetId seen := by
      intro id hid hmem
      rcases Finset.mem_insert.mp hmem with rfl | hmem
      · exact hnodup.1 hid
      · exact hunseen id (List.mem_cons_of_mem _ hid) hmem
    rw [validateLoop, if_neg (by omega), if_neg (hunseen targetId (by simp)),
      ih (fun id hid => hvalid id (List.mem_cons_of_mem _ hid)) hnodup.2 hunseen']
    simp

/-- Distinct ids of destinations pass the check as they are. -/
theorem validate_unchanged {destinationCount : Nat} {targetIds : List Int} (hnodup : targetIds.Nodup)
    (hvalid : ∀ id ∈ targetIds, 0 ≤ id ∧ id < destinationCount) :
    validateNumericTargetIds targetIds destinationCount = .ok targetIds := by
  rw [validateNumericTargetIds, validateLoop_eq hvalid hnodup (by simp), List.nil_append]

end AisMixer.Egress

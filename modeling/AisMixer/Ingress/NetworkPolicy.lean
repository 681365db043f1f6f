import AisMixer.Library.IpAddress
import AisMixer.Library.Repr

/-!
# Source-address allow-lists

`NetworkPolicy` of `core/network_policy.py`: the entries of `allow_from` and the decision about a
peer. A peer in an IPv4-mapped spelling is looked up as its IPv4 address, an entry is not.
-/

namespace AisMixer.Ingress

open AisMixer.Library

/-- An entry of the configuration; one that is not a text is known by its `repr`. -/
inductive AllowEntry where
  | text (s : PyStr)
  | other (shown : PyStr)
  deriving DecidableEq

/-- The value of `allow_from`. -/
inductive AllowFrom where
  | entries (entries : List AllowEntry)
  | other
  deriving DecidableEq

structure NetworkPolicyConfigError where
  message : Message
  deriving DecidableEq

structure NetworkPolicy where
  networks : Option (List IPNetwork)
  deriving DecidableEq

def invalidEntry (context : PyStr) (shown : MessagePart) : NetworkPolicyConfigError :=
  ⟨[.text context, .text (str ": invalid allow_from entry "), shown]⟩

def notAList (context : PyStr) : NetworkPolicyConfigError :=
  ⟨[.text context, .text (str ": allow_from must be a list of IP addresses or CIDR networks")]⟩

/-- A literal with a `/` is a network, any other an address. -/
def readNetwork (value : PyStr) : Option IPNetwork :=
  if 0x2F ∈ value then ipNetwork value else (ipAddress value).map IPAddress.network

/-- `_compile_network_entry`. -/
def compileNetworkEntry (context : PyStr) : AllowEntry → Except NetworkPolicyConfigError IPNetwork
  | .other shown => .error (invalidEntry context (.text shown))
  | .text entry =>
    if strip entry = [] then .error (invalidEntry context (.repr entry))
    else orRaise (invalidEntry context (.repr (strip entry))) (readNetwork (strip entry))

namespace NetworkPolicy

def unrestricted : NetworkPolicy := ⟨none⟩

def denyAll : NetworkPolicy := ⟨some []⟩

def fromEntries (context : PyStr) : AllowFrom → Except NetworkPolicyConfigError NetworkPolicy
  | .other => .error (notAList context)
  | .entries [] => .ok denyAll
  | .entries entries => (entries.mapM (compileNetworkEntry context)).map (fun networks => ⟨some networks⟩)

/-- `compile_ingress_policy`; `None` where the entry has no `allow_from`. -/
def compileIngressPolicy (context : PyStr) (allowFrom : Option AllowFrom) :
    Except NetworkPolicyConfigError NetworkPolicy :=
  match allowFrom with
  | none => .ok unrestricted
  | some allowFrom => fromEntries (context ++ str ".allow_from") allowFrom

/-- The address that is looked up for a peer. -/
def lookupAddress : IPAddress → IPAddress
  | .v4 a => .v4 a
  | .v6 m =>
    match m.ipv4Mapped with
    | some a => .v4 a
    | none => .v6 m

def allows (policy : NetworkPolicy) (peerIp : PyStr) : Bool :=
  match policy.networks with
  | none => true
  | some networks =>
    match ipAddress peerIp with
    | none => false
    | some address =>
      networks.any (fun network =>
        (lookupAddress address).version == network.version && network.contains (lookupAddress address))

end NetworkPolicy

/-! ### Compiled entries -/

open NetworkPolicy

lemma mem_of_mapM_ok {α β ε : Type} {f : α → Except ε β} {xs : List α} {ys : List β}
    (h : xs.mapM f = .ok ys) (y : β) : y ∈ ys ↔ ∃ x ∈ xs, f x = .ok y := by
  induction xs generalizing ys with
  | nil =>
    obtain rfl : [] = ys := by simpa [Pure.pure, Except.pure] using h
    simp
  | cons x xs ih =>
    rw [List.mapM_cons] at h
    obtain ⟨z, hz, h⟩ := bind_eq_ok_iff.mp h
    obtain ⟨zs, hzs, h⟩ := bind_eq_ok_iff.mp h
    obtain rfl : z :: zs = ys := by simpa [Pure.pure, Except.pure] using h
    rw [List.mem_cons, ih hzs, List.exists_mem_cons_iff, hz, Except.ok.injEq, eq_comm]

/-- The networks of a policy are those of its entries. -/
theorem fromEntries_networks {context : PyStr} {entries : List AllowEntry} {policy : NetworkPolicy}
    (h : fromEntries context (.entries entries) = .ok policy) :
    ∃ networks, policy = ⟨some networks⟩ ∧
      ∀ network, network ∈ networks ↔ ∃ entry ∈ entries, compileNetworkEntry context entry = .ok network := by
  cases entries with
  | nil =>
    have hdeny : denyAll = policy := Except.ok.inj h
    exact ⟨[], hdeny.symm, by simp⟩
  | cons entry entries =>
    obtain ⟨networks, hnetworks, hpolicy⟩ := map_eq_ok_iff.mp h
    exact ⟨networks, hpolicy.symm, mem_of_mapM_ok hnetworks⟩

lemma version_eq_of_contains {network : IPNetwork} {address : IPAddress}
    (h : network.contains address = true) : address.version = network.version := by
  cases network <;> cases address <;> first | rfl | cases h

/-- The decision of a restricted policy about an address. -/
lemma allows_iff {networks : List IPNetwork} {peerIp : PyStr} {address : IPAddress}
    (h : ipAddress peerIp = some address) :
    allows ⟨some networks⟩ peerIp = true ↔
      ∃ network ∈ networks, network.contains (lookupAddress address) = true := by
  simp only [allows, h, List.any_eq_true, Bool.and_eq_true, beq_iff_eq]
  constructor
  · rintro ⟨network, hmem, -, hcontains⟩
    exact ⟨network, hmem, hcontains⟩
  · rintro ⟨network, hmem, hcontains⟩
    exact ⟨network, hmem, version_eq_of_contains hcontains, hcontains⟩

/-! ### Entries as sets of addresses -/

/-- The addresses of a network. -/
def addressesOf (network : IPNetwork) : Set IPAddress := {address | network.contains address = true}

/-- An address of a network, where an IPv4-mapped address is its IPv4 address. -/
def Admits (context : PyStr) (entry : AllowEntry) (address : IPAddress) : Prop :=
  ∃ network, compileNetworkEntry context entry = .ok network ∧
    address ∈ lookupAddress '' addressesOf network

/-- A version 4 entry with the address. -/
def ContainsV4 (context : PyStr) (entry : AllowEntry) (a : IPv4Address) : Prop :=
  ∃ network, compileNetworkEntry context entry = .ok (.v4 network) ∧ a ∈ network.addresses

/-- A version 6 entry with the value of an address. -/
def ContainsV6 (context : PyStr) (entry : AllowEntry) (m : Fin (2 ^ 128)) : Prop :=
  ∃ network, compileNetworkEntry context entry = .ok (.v6 network) ∧ m ∈ network.addresses

/-- The texts for an IPv4 address and for its IPv4-mapped addresses. -/
def Spells (peerIp : PyStr) (a : IPv4Address) : Prop :=
  ∃ address, ipAddress peerIp = some address ∧ lookupAddress address = .v4 a

lemma ipv4Mapped_eq_some_iff {m : IPv6Address} {a : IPv4Address} :
    m.ipv4Mapped = some a ↔ m.value = (IPv6Address.ofIPv4 a).value := by
  have hm := m.value.isLt
  have ha := a.isLt
  rw [Fin.ext_iff, IPv6Address.ofIPv4, IPv6Address.ipv4Mapped, Nat.shiftRight_eq_div_pow]
  constructor
  · intro h
    split at h
    · next hmapped =>
      have hvalue := congrArg Fin.val (Option.some.inj h)
      simp only [Fin.ofNat] at hvalue
      simp only
      omega
    · cases h
  · intro h
    simp only at h
    rw [if_pos (by omega), Option.some.injEq, Fin.ext_iff]
    simp only [Fin.ofNat]
    omega

lemma lookupAddress_eq_v4_iff {address : IPAddress} {a : IPv4Address} :
    lookupAddress address = .v4 a ↔
      address = .v4 a ∨ ∃ m, address = .v6 m ∧ m.value = (IPv6Address.ofIPv4 a).value := by
  cases address with
  | v4 b => simp [lookupAddress]
  | v6 m =>
    simp only [lookupAddress, IPAddress.v6.injEq, reduceCtorEq, false_or, exists_eq_left']
    rw [← ipv4Mapped_eq_some_iff]
    cases m.ipv4Mapped with
    | none => simp
    | some b => simp

theorem spells_formatIPv4 (a : IPv4Address) : Spells (formatIPv4 a) a :=
  ⟨.v4 a, ipAddress_formatIPv4 a, rfl⟩

theorem spells_formatMapped (a : IPv4Address) : Spells (formatMapped a) a :=
  ⟨.v6 (.ofIPv4 a), ipAddress_formatMapped a, lookupAddress_eq_v4_iff.mpr (.inr ⟨_, rfl, rfl⟩)⟩

/-- What an entry admits for an IPv4 address, by the version of its network. -/
lemma admits_iff (context : PyStr) (entry : AllowEntry) (a : IPv4Address) :
    Admits context entry (.v4 a) ↔
      ContainsV4 context entry a ∨ ContainsV6 context entry (IPv6Address.ofIPv4 a).value := by
  constructor
  · rintro ⟨network, hnetwork, address, hcontains, hlookup⟩
    rcases lookupAddress_eq_v4_iff.mp hlookup with rfl | ⟨m, rfl, hm⟩
    · cases network with
      | v4 network => exact .inl ⟨network, hnetwork, (network.contains_iff a).mp hcontains⟩
      | v6 network => cases hcontains
    · cases network with
      | v4 network => cases hcontains
      | v6 network =>
        rw [← hm]
        exact .inr ⟨network, hnetwork, (network.contains_iff m.value).mp hcontains⟩
  · rintro (⟨network, hnetwork, ha⟩ | ⟨network, hnetwork, hm⟩)
    · exact ⟨.v4 network, hnetwork, .v4 a, (network.contains_iff a).mpr ha, rfl⟩
    · exact ⟨.v6 network, hnetwork, .v6 (.ofIPv4 a), (network.contains_iff _).mpr hm,
        lookupAddress_eq_v4_iff.mpr (.inr ⟨_, rfl, rfl⟩)⟩

/-! ### Decisions -/

section Decisions

variable {context : PyStr} {entries : List AllowEntry} {policy : NetworkPolicy}
  (h : fromEntries context (.entries entries) = .ok policy)
include h

/-- Of an IPv4 address in any spelling, only the version 4 entries decide. -/
theorem allows_of_spells {peerIp : PyStr} {a : IPv4Address} (hspells : Spells peerIp a) :
    policy.allows peerIp = true ↔ ∃ entry ∈ entries, ContainsV4 context entry a := by
  obtain ⟨networks, rfl, hnetworks⟩ := fromEntries_networks h
  obtain ⟨address, haddress, hlookup⟩ := hspells
  rw [allows_iff haddress, hlookup]
  constructor
  · rintro ⟨network, hmem, hcontains⟩
    obtain ⟨entry, hentry, hcompile⟩ := (hnetworks network).mp hmem
    cases network with
    | v4 network => exact ⟨entry, hentry, network, hcompile, (network.contains_iff a).mp hcontains⟩
    | v6 network => cases hcontains
  · rintro ⟨entry, hentry, network, hcompile, ha⟩
    exact ⟨.v4 network, (hnetworks _).mpr ⟨entry, hentry, hcompile⟩, (network.contains_iff a).mpr ha⟩

/-- The version 6 entries decide of every other address. -/
theorem allows_of_v6 {peerIp : PyStr} {m : IPv6Address} (hpeer : ipAddress peerIp = some (.v6 m))
    (hmapped : m.ipv4Mapped = none) :
    policy.allows peerIp = true ↔ ∃ entry ∈ entries, ContainsV6 context entry m.value := by
  obtain ⟨networks, rfl, hnetworks⟩ := fromEntries_networks h
  have hlookup : lookupAddress (.v6 m) = .v6 m := by rw [lookupAddress, hmapped]
  rw [allows_iff hpeer, hlookup]
  constructor
  · rintro ⟨network, hmem, hcontains⟩
    obtain ⟨entry, hentry, hcompile⟩ := (hnetworks network).mp hmem
    cases network with
    | v4 network => cases hcontains
    | v6 network =>
      exact ⟨entry, hentry, network, hcompile, (network.contains_iff m.value).mp hcontains⟩
  · rintro ⟨entry, hentry, network, hcompile, hm⟩
    exact ⟨.v6 network, (hnetworks _).mpr ⟨entry, hentry, hcompile⟩,
      (network.contains_iff m.value).mpr hm⟩

theorem allows_of_no_address {peerIp : PyStr} (hpeer : ipAddress peerIp = none) :
    policy.allows peerIp = false := by
  obtain ⟨networks, rfl, -⟩ := fromEntries_networks h
  simp only [allows, hpeer]

end Decisions

/-- Every spelling of an IPv4 address gets one decision, and it is whether some entry admits the
address. -/
structure SpellingInsensitive (context : PyStr) (entries : List AllowEntry) (policy : NetworkPolicy)
    (a : IPv4Address) : Prop where
  same : ∀ p q, Spells p a → Spells q a → policy.allows p = policy.allows q
  decision : ∀ p, Spells p a →
    (policy.allows p = true ↔ ∃ entry ∈ entries, Admits context entry (.v4 a))

/-- For an IPv4 address the decision is whether some entry admits it exactly if a version 4 entry
contains it or no version 6 entry contains its mapped address. Of any other IPv6 address the version 6
entries decide, and what is no address is denied. -/
theorem spelling_insensitive_iff {context : PyStr} {entries : List AllowEntry} {policy : NetworkPolicy}
    (h : fromEntries context (.entries entries) = .ok policy) :
    (∀ a, SpellingInsensitive context entries policy a ↔
      (∃ entry ∈ entries, ContainsV4 context entry a) ∨
        ∀ entry ∈ entries, ¬ ContainsV6 context entry (IPv6Address.ofIPv4 a).value) ∧
    (∀ a, Spells (formatIPv4 a) a ∧ Spells (formatMapped a) a) ∧
    (∀ peerIp m, ipAddress peerIp = some (.v6 m) → m.ipv4Mapped = none →
      (policy.allows peerIp = true ↔ ∃ entry ∈ entries, ContainsV6 context entry m.value)) ∧
    (∀ peerIp, ipAddress peerIp = none → policy.allows peerIp = false) := by
  refine ⟨fun a => ⟨?_, ?_⟩, fun a => ⟨spells_formatIPv4 a, spells_formatMapped a⟩,
    fun _ _ => allows_of_v6 h, fun _ => allows_of_no_address h⟩
  · intro hspelling
    have hdecision := hspelling.decision _ (spells_formatIPv4 a)
    rw [allows_of_spells h (spells_formatIPv4 a)] at hdecision
    by_cases hv4 : ∃ entry ∈ entries, ContainsV4 context entry a
    · exact .inl hv4
    · right
      intro entry hentry hv6
      apply hv4
      rw [hdecision]
      exact ⟨entry, hentry, (admits_iff context entry a).mpr (.inr hv6)⟩
  · intro hcondition
    constructor
    · intro p q hp hq
      rw [Bool.eq_iff_iff, allows_of_spells h hp, allows_of_spells h hq]
    · intro p hp
      rw [allows_of_spells h hp]
      constructor
      · rintro ⟨entry, hentry, hv4⟩
        exact ⟨entry, hentry, (admits_iff context entry a).mpr (.inl hv4)⟩
      · rintro ⟨entry, hentry, hadmits⟩
        rcases (admits_iff context entry a).mp hadmits with hv4 | hv6
        · exact ⟨entry, hentry, hv4⟩
        · exact hcondition.resolve_right (fun hnone => hnone entry hentry hv6)

theorem spelling_insensitive_iff_mixed :
    ∃ policy, fromEntries (str "allow_from")
        (.entries [.text (str "192.0.2.0/24"), .text (str " ::ffff:198.51.100.0/120 ")]) = .ok policy ∧
      (∀ a, SpellingInsensitive (str "allow_from")
          [.text (str "192.0.2.0/24"), .text (str " ::ffff:198.51.100.0/120 ")] policy a ↔
        (∃ entry ∈ [.text (str "192.0.2.0/24"), .text (str " ::ffff:198.51.100.0/120 ")],
          ContainsV4 (str "allow_from") entry a) ∨
        ∀ entry ∈ [.text (str "192.0.2.0/24"), .text (str " ::ffff:198.51.100.0/120 ")],
          ¬ ContainsV6 (str "allow_from") entry (IPv6Address.ofIPv4 a).value) := by
  have hok : (fromEntries (str "allow_from")
      (.entries [.text (str "192.0.2.0/24"), .text (str " ::ffff:198.51.100.0/120 ")])).isOk = true := by
    decide +kernel
  cases hpolicy : fromEntries (str "allow_from")
      (.entries [.text (str "192.0.2.0/24"), .text (str " ::ffff:198.51.100.0/120 ")]) with
  | error e =>
    rw [hpolicy] at hok
    cases hok
  | ok policy => exact ⟨policy, rfl, (spelling_insensitive_iff hpolicy).1⟩

/-- An entry in the mapped spelling admits the address, and no spelling of the address is allowed. -/
theorem mapped_entry_denies :
    ∃ policy, fromEntries (str "allow_from") (.entries [.text (str "::ffff:192.0.2.15")]) = .ok policy ∧
      policy.allows (str "192.0.2.15") = false ∧ policy.allows (str "::ffff:192.0.2.15") = false ∧
      Admits (str "allow_from") (.text (str "::ffff:192.0.2.15")) (.v4 (ofOctets 192 0 2 15)) ∧
      ¬ SpellingInsensitive (str "allow_from") [.text (str "::ffff:192.0.2.15")] policy
        (ofOctets 192 0 2 15) := by
  have hcompile : compileNetworkEntry (str "allow_from") (.text (str "::ffff:192.0.2.15")) =
      .ok (IPAddress.v6 (.ofIPv4 (ofOctets 192 0 2 15))).network := by
    decide +kernel
  have hadmits : Admits (str "allow_from") (.text (str "::ffff:192.0.2.15"))
      (.v4 (ofOctets 192 0 2 15)) :=
    ⟨_, hcompile, .v6 (.ofIPv4 (ofOctets 192 0 2 15)),
      (by decide +kernel : IPNetwork.contains _ _ = true), by decide +kernel⟩
  have hdenied : allows ⟨some [(IPAddress.v6 (.ofIPv4 (ofOctets 192 0 2 15))).network]⟩
      (str "192.0.2.15") = false := by
    decide +kernel
  have hpolicy : fromEntries (str "allow_from") (.entries [.text (str "::ffff:192.0.2.15")]) =
      .ok ⟨some [(IPAddress.v6 (.ofIPv4 (ofOctets 192 0 2 15))).network]⟩ := by
    decide +kernel
  refine ⟨_, hpolicy, hdenied, by decide +kernel, hadmits, fun hspelling => ?_⟩
  have hallowed := (hspelling.decision (str "192.0.2.15") ⟨.v4 _, by decide +kernel, rfl⟩).mpr
    ⟨_, List.mem_singleton_self _, hadmits⟩
  rw [hdenied] at hallowed
  cases hallowed

end AisMixer.Ingress

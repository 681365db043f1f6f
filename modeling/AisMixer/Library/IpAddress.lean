import AisMixer.Library.Fallible
import AisMixer.Library.Json
import AisMixer.Library.Numerals
import AisMixer.Library.PrefixBlocks

/-!
# IP addresses and networks

The module `ipaddress` of the language: the textual forms of addresses and networks that it reads,
and membership of an address in a network.
-/

namespace AisMixer.Library

abbrev IPv4Address := Fin (2 ^ 32)

structure IPv6Address where
  value : Fin (2 ^ 128)
  scopeId : Option PyStr
  deriving DecidableEq

inductive IPAddress where
  | v4 (address : IPv4Address)
  | v6 (address : IPv6Address)
  deriving DecidableEq

/-- `AddressValueError`, `NetmaskValueError`, and the `ValueError` of set host bits. -/
inductive IPError where
  | address
  | netmask
  | hostBits
  deriving DecidableEq

/-! ### Version 4 -/

/-- The characters of an ASCII text of digits. -/
def isAsciiDigits (s : PyStr) : Bool := s.all (fun c => decide (c.val < 0x80)) && isDigit s

/-- `_parse_octet`. -/
def parseOctet (octet : PyStr) : Option (Fin 256) :=
  if octet = [] || !isAsciiDigits octet || 3 < octet.length then none
  else if octet ≠ [0x30] ∧ octet.head? = some 0x30 then none
  else match pyInt octet with
    | some n => if h : n.toNat < 256 then some ⟨n.toNat, h⟩ else none
    | none => none

lemma octets_lt (a b c d : Fin 256) :
    ((a.val * 256 + b.val) * 256 + c.val) * 256 + d.val < 2 ^ 32 := by
  omega

def ofOctets (a b c d : Fin 256) : IPv4Address :=
  ⟨((a.val * 256 + b.val) * 256 + c.val) * 256 + d.val, octets_lt a b c d⟩

/-- `IPv4Address(address)`. -/
def parseIPv4Address (address : PyStr) : Option IPv4Address :=
  if 0x2F ∈ address then none
  else match (address.splitOn 0x2E).mapM parseOctet with
    | some [a, b, c, d] => some (ofOctets a b c d)
    | _ => none

/-! ### Version 6 -/

/-- `'%x' % n`. -/
def hexStr (n : Nat) : PyStr :=
  if n = 0 then [0x30] else (Nat.digits 16 n).reverse.map Json.hexDigit

/-- `_parse_hextet`; the empty text fails in `int`. -/
def parseHextet (hextet : PyStr) : Option (Fin 0x10000) :=
  if hextet = [] || 4 < hextet.length then none
  else (hextet.mapM Json.hexValue).map (fun ds => Fin.ofNat _ (ds.foldl (fun v d => v * 16 + d) 0))

/-- The parts of an address with an IPv4-style suffix in hexadecimal. -/
def expandSuffix (parts : List PyStr) : Option (List PyStr) :=
  match parts.getLast? with
  | some suffix =>
    if 0x2E ∈ suffix then
      (parseIPv4Address suffix).map (fun v =>
        parts.dropLast ++ [hexStr (v.val / 0x10000 % 0x10000), hexStr (v.val % 0x10000)])
    else some parts
  | none => some parts

/-- The parts on one side of the `::`; an empty endpoint stands next to it and does not count. -/
def sideParts (endpoint : Option PyStr) (count : Nat) : Option Nat :=
  if endpoint = some [] then if count - 1 = 0 then some 0 else none else some count

/-- How many parts stand before and behind the `::`, which is at the index. -/
def partsAround (parts : List PyStr) (skip : Nat) : Option (Nat × Nat) := do
  let hi ← sideParts parts.head? skip
  let lo ← sideParts parts.getLast? (parts.length - skip - 1)
  if 8 < hi + lo + 1 then none else some (hi, lo)

/-- The indices of the empty parts between the endpoints. -/
def skipIndices (parts : List PyStr) : List Nat :=
  (List.range parts.length).filter (fun i =>
    0 < i && i + 1 < parts.length && parts[i]? == some [])

/-- The eight hextets of the parts. -/
def assembleHextets (parts : List PyStr) : Option (List (Fin 0x10000)) :=
  match skipIndices parts with
  | [] =>
    if parts.length ≠ 8 ∨ parts.head? = some [] ∨ parts.getLast? = some [] then none
    else parts.mapM parseHextet
  | [skip] => do
    let (hi, lo) ← partsAround parts skip
    let high ← (parts.take hi).mapM parseHextet
    let low ← (parts.drop (parts.length - lo)).mapM parseHextet
    some (high ++ List.replicate (8 - (hi + lo)) 0 ++ low)
  | _ => none

def hextetsValue (hextets : List (Fin 0x10000)) : Nat :=
  hextets.foldl (fun v hextet => v * 0x10000 + hextet.val) 0

lemma hextetsValue_append (hextets : List (Fin 0x10000)) (hextet : Fin 0x10000) :
    hextetsValue (hextets ++ [hextet]) = hextetsValue hextets * 0x10000 + hextet.val := by
  rw [hextetsValue, List.foldl_append]
  rfl

lemma hextetsValue_lt (hextets : List (Fin 0x10000)) :
    hextetsValue hextets < 0x10000 ^ hextets.length := by
  induction hextets using List.reverseRecOn with
  | nil => decide
  | append_singleton hextets hextet ih =>
    rw [hextetsValue_append, List.length_append, List.length_singleton, pow_succ]
    have hlt := hextet.isLt
    omega

lemma hextetsValue_lt_of_eight {hextets : List (Fin 0x10000)} (h : hextets.length = 8) :
    hextetsValue hextets < 2 ^ 128 := by
  have hlt := hextetsValue_lt hextets
  rw [h] at hlt
  exact lt_of_lt_of_eq hlt (by norm_num)

/-- `_ip_int_from_string`. There are always eight hextets (`length_assembleHextets`). -/
def parseIPv6Value (address : PyStr) : Option (Fin (2 ^ 128)) := do
  let parts := address.splitOn 0x3A
  if address = [] ∨ parts.length < 3 then none
  let parts ← expandSuffix parts
  if 9 < parts.length then none
  let hextets ← assembleHextets parts
  if h : hextets.length = 8 then some ⟨hextetsValue hextets, hextetsValue_lt_of_eight h⟩ else none

/-- `_split_scope_id`. -/
def splitScopeId (address : PyStr) : Option (PyStr × Option PyStr) :=
  match partition 0x25 address with
  | (address, false, _) => some (address, none)
  | (address, true, scopeId) => if scopeId = [] ∨ 0x25 ∈ scopeId then none else some (address, some scopeId)

/-- `IPv6Address(address)`. -/
def parseIPv6Address (address : PyStr) : Option IPv6Address := do
  if 0x2F ∈ address then none
  let (address, scopeId) ← splitScopeId address
  let value ← parseIPv6Value address
  some ⟨value, scopeId⟩

/-- `ipaddress.ip_address(address)`; `none` is its `ValueError`. -/
def ipAddress (address : PyStr) : Option IPAddress :=
  match parseIPv4Address address with
  | some v => some (.v4 v)
  | none => (parseIPv6Address address).map .v6

/-- `ipv4_mapped`. -/
def IPv6Address.ipv4Mapped (address : IPv6Address) : Option IPv4Address :=
  if address.value.val >>> 32 = 0xFFFF then some (Fin.ofNat _ (address.value.val % 2 ^ 32)) else none

/-! ### Networks -/

/-- A network of addresses of a width: a block without host bits. -/
@[ext]
structure PrefixNetwork (width : Nat) where
  networkAddress : Fin (2 ^ width)
  prefixLength : Nat
  length_le : prefixLength ≤ width
  noHostBits : networkAddress.val &&& prefixMask width prefixLength = networkAddress.val

instance decidableEq_prefixNetwork {width : Nat} : DecidableEq (PrefixNetwork width) :=
  fun _ _ => decidable_of_iff _ PrefixNetwork.ext_iff.symm

inductive IPNetwork where
  | v4 (network : PrefixNetwork 32)
  | v6 (network : PrefixNetwork 128)
  deriving DecidableEq

/-- The check of the constructors with `strict=True`. -/
def makeNetwork {width : Nat} (address : Fin (2 ^ width)) (length : Nat) (hlength : length ≤ width) :
    Except IPError (PrefixNetwork width) :=
  if h : address.val &&& prefixMask width length = address.val then .ok ⟨address, length, hlength, h⟩
  else .error .hostBits

/-- `_prefix_from_prefix_string`. -/
def prefixFromPrefixString (width : Nat) (text : PyStr) : Except IPError Nat :=
  if !isAsciiDigits text then .error .netmask
  else match pyInt text with
    | some n => if n.toNat ≤ width then .ok n.toNat else .error .netmask
    | none => .error .netmask

/-- `_count_righthand_zero_bits(number, 32)`. -/
def countRighthandZeroBits (number : Nat) : Nat :=
  ((List.range 32).takeWhile (fun i => !number.testBit i)).length

/-- `_prefix_from_ip_int`; `none` is a `ValueError`. -/
def prefixFromIpInt (number : Nat) : Option Nat :=
  let zeros := countRighthandZeroBits number
  if number >>> zeros = 2 ^ (32 - zeros) - 1 then some (32 - zeros) else none

/-- `_prefix_from_ip_string`: a netmask, else a hostmask. -/
def prefixFromIpString (text : PyStr) : Except IPError Nat :=
  match parseIPv4Address text with
  | none => .error .netmask
  | some number =>
    match prefixFromIpInt number.val with
    | some length => .ok length
    | none =>
      match prefixFromIpInt (number.val ^^^ allOnes 32) with
      | some length => .ok length
      | none => .error .netmask

/-- `_make_netmask` of version 4. -/
def makeNetmask4 (text : PyStr) : Except IPError Nat :=
  match prefixFromPrefixString 32 text with
  | .ok length => .ok length
  | .error _ => prefixFromIpString text

/-- A length that a mask reader returns fits the width. -/
def checkedLength {width : Nat} (address : Fin (2 ^ width)) (length : Nat) :
    Except IPError (PrefixNetwork width) :=
  if h : length ≤ width then makeNetwork address length h else .error .netmask

/-- `_split_optional_netmask` and `_split_addr_prefix`. -/
def splitNetmask (text : PyStr) : Except IPError (PyStr × Option PyStr) :=
  match text.splitOn 0x2F with
  | [address] => .ok (address, none)
  | [address, mask] => .ok (address, some mask)
  | _ => .error .address

/-- `IPv4Network(text)`. -/
def parseIPv4Network (text : PyStr) : Except IPError (PrefixNetwork 32) := do
  let (address, mask) ← splitNetmask text
  let address ← orRaise .address (parseIPv4Address address)
  let length ← match mask with
    | none => .ok 32
    | some mask => makeNetmask4 mask
  checkedLength address length

/-- `IPv6Network(text)`. -/
def parseIPv6Network (text : PyStr) : Except IPError (PrefixNetwork 128) := do
  let (address, mask) ← splitNetmask text
  let address ← orRaise .address (parseIPv6Address address)
  let length ← match mask with
    | none => .ok 128
    | some mask => prefixFromPrefixString 128 mask
  checkedLength address.value length

/-- `ipaddress.ip_network(text)`; `none` is its `ValueError`. -/
def ipNetwork (text : PyStr) : Option IPNetwork :=
  match parseIPv4Network text with
  | .ok network => some (.v4 network)
  | .error .hostBits => none
  | .error _ =>
    match parseIPv6Network text with
    | .ok network => some (.v6 network)
    | .error _ => none

/-! ### The eight hextets -/

/-! ### Membership -/

def IPAddress.version : IPAddress → Nat
  | v4 _ => 4
  | v6 _ => 6

def IPNetwork.version : IPNetwork → Nat
  | v4 _ => 4
  | v6 _ => 6

namespace PrefixNetwork

variable {width : Nat}

def contains (network : PrefixNetwork width) (address : Fin (2 ^ width)) : Bool :=
  address.val &&& prefixMask width network.prefixLength == network.networkAddress.val

/-- The addresses of a network are an interval. -/
def addresses (network : PrefixNetwork width) : Set (Fin (2 ^ width)) :=
  {address | network.networkAddress.val ≤ address.val ∧
    address.val < network.networkAddress.val + 2 ^ (width - network.prefixLength)}

theorem contains_iff (network : PrefixNetwork width) (address : Fin (2 ^ width)) :
    network.contains address = true ↔ address ∈ network.addresses := by
  rw [contains, beq_iff_eq]
  exact land_prefixMask_eq_iff network.length_le network.noHostBits network.networkAddress.isLt
    address.isLt

end PrefixNetwork

/-- `address in network`. -/
def IPNetwork.contains : IPNetwork → IPAddress → Bool
  | v4 network, .v4 address => network.contains address
  | v6 network, .v6 address => network.contains address.value
  | _, _ => false

lemma full_noHostBits {width : Nat} (address : Fin (2 ^ width)) :
    address.val &&& prefixMask width width = address.val := by
  rw [land_prefixMask le_rfl address.isLt, Nat.sub_self, pow_zero, Nat.div_one, Nat.mul_one]

/-- `ipaddress.ip_network(address)`. -/
def IPAddress.network : IPAddress → IPNetwork
  | v4 address => .v4 ⟨address, 32, le_rfl, full_noHostBits address⟩
  | v6 address => .v6 ⟨address.value, 128, le_rfl, full_noHostBits address.value⟩

/-! ### The usual spellings -/

/-- `str(address)` of version 4. -/
def formatIPv4 (address : IPv4Address) : PyStr :=
  join (str ".") [natStr (address.val / 2 ^ 24), natStr (address.val / 2 ^ 16 % 256),
    natStr (address.val / 2 ^ 8 % 256), natStr (address.val % 256)]

/-- `"::ffff:" + str(address)`. -/
def formatMapped (address : IPv4Address) : PyStr := str "::ffff:" ++ formatIPv4 address

lemma mapped_lt (address : IPv4Address) : 0xFFFF * 2 ^ 32 + address.val < 2 ^ 128 := by
  have hlt := address.isLt
  omega

/-- The IPv4-mapped address of version 6. -/
def IPv6Address.ofIPv4 (address : IPv4Address) : IPv6Address where
  value := ⟨0xFFFF * 2 ^ 32 + address.val, mapped_lt address⟩
  scopeId := none

lemma parseOctet_natStr : ∀ n : Fin 256, parseOctet (natStr n.val) = some n := by
  decide +kernel

lemma natStr_octet : ∀ n : Fin 256, (natStr n.val).all (fun c => c ≠ 0x2E ∧ c ≠ 0x2F ∧ c ≠ 0x3A ∧
    c ≠ 0x25) = true := by
  decide +kernel

lemma not_mem_natStr_octet (n : Fin 256) {c : CodePoint} (hc : c = 0x2E ∨ c = 0x2F ∨ c = 0x3A ∨ c = 0x25) :
    c ∉ natStr n.val := by
  intro hmem
  have hplain := of_decide_eq_true (List.all_eq_true.mp (natStr_octet n) c hmem)
  tauto

/-- An address of version 4 has four octets. -/
lemma exists_octets (address : IPv4Address) : ∃ a b c d : Fin 256, address = ofOctets a b c d ∧
    formatIPv4 address = join (str ".") [natStr a.val, natStr b.val, natStr c.val, natStr d.val] := by
  refine ⟨⟨address.val / 2 ^ 24, by omega⟩, ⟨address.val / 2 ^ 16 % 256, by omega⟩,
    ⟨address.val / 2 ^ 8 % 256, by omega⟩, ⟨address.val % 256, by omega⟩, ?_, rfl⟩
  apply Fin.ext
  simp only [ofOctets]
  omega

lemma mem_join {c : CodePoint} {sep : PyStr} {parts : List PyStr} (h : c ∈ sep.intercalate parts) :
    c ∈ sep ∨ ∃ part ∈ parts, c ∈ part := by
  induction parts with
  | nil => cases h
  | cons part parts ih =>
    cases parts with
    | nil =>
      have hpart : c ∈ part := by simpa [List.intercalate] using h
      exact .inr ⟨part, List.mem_cons_self, hpart⟩
    | cons next parts =>
      rw [List.intercalate_cons_cons, List.mem_append, List.mem_append] at h
      rcases h with (h | h) | h
      · exact .inr ⟨part, List.mem_cons_self, h⟩
      · exact .inl h
      · apply (ih h).imp_right
        rintro ⟨found, hfound, hmem⟩
        exact ⟨found, List.mem_cons_of_mem _ hfound, hmem⟩

lemma not_mem_formatIPv4 (address : IPv4Address) {c : CodePoint} (hc : c = 0x2F ∨ c = 0x3A ∨ c = 0x25) :
    c ∉ formatIPv4 address := by
  obtain ⟨a, b, c', d, -, hformat⟩ := exists_octets address
  rw [hformat]
  intro hmem
  rcases mem_join hmem with hdot | ⟨part, hpart, hmem⟩
  · rw [List.mem_singleton.mp hdot] at hc
    revert hc
    decide
  · simp only [List.mem_cons, List.not_mem_nil, or_false] at hpart
    rcases hpart with rfl | rfl | rfl | rfl <;> exact not_mem_natStr_octet _ (by tauto) hmem

theorem parseIPv4Address_formatIPv4 (address : IPv4Address) :
    parseIPv4Address (formatIPv4 address) = some address := by
  have hslash := @not_mem_formatIPv4 address 0x2F (by tauto)
  obtain ⟨a, b, c, d, haddress, hformat⟩ := exists_octets address
  have hsplit : (formatIPv4 address).splitOn 0x2E =
      [natStr a.val, natStr b.val, natStr c.val, natStr d.val] := by
    rw [hformat]
    apply List.splitOn_intercalate
    · intro part hpart
      simp only [List.mem_cons, List.not_mem_nil, or_false] at hpart
      rcases hpart with rfl | rfl | rfl | rfl <;> exact not_mem_natStr_octet _ (by tauto)
    · simp
  rw [parseIPv4Address, if_neg hslash, hsplit]
  simp [List.mapM_cons, parseOctet_natStr, haddress]

/-! ### The mapped spelling -/

lemma hexValue_hexDigit : ∀ d < 16, Json.hexValue (Json.hexDigit d) = some d := by
  decide

lemma parseHextet_hexStr {n : Nat} (h : n < 0x10000) : parseHextet (hexStr n) = some ⟨n, h⟩ := by
  by_cases hzero : n = 0
  · subst hzero
    exact (by decide +kernel : parseHextet (hexStr 0) = some 0)
  · have hne : Nat.digits 16 n ≠ [] := Nat.digits_ne_nil_iff_ne_zero.mpr hzero
    have hlength : (Nat.digits 16 n).length ≤ 4 :=
      (Nat.digits_length_le_iff (by norm_num) n).mpr (by norm_num; exact h)
    have hvalues : ((Nat.digits 16 n).reverse.map Json.hexDigit).mapM Json.hexValue =
        some (Nat.digits 16 n).reverse := by
      rw [List.mapM_map]
      have hall : ∀ ds : List Nat, (∀ d ∈ ds, d < 16) →
          ds.mapM (fun d => Json.hexValue (Json.hexDigit d)) = some ds := by
        intro ds
        induction ds with
        | nil => intro _; rfl
        | cons d ds ih =>
          intro hds
          rw [List.mapM_cons, hexValue_hexDigit d (hds d (by simp)),
            ih (fun e he => hds e (List.mem_cons_of_mem _ he))]
          rfl
      apply hall
      intro d hd
      exact Nat.digits_lt_base (by norm_num) (List.mem_reverse.mp hd)
    have hvalue : (Nat.digits 16 n).reverse.foldl (fun v d => v * 16 + d) 0 = n := by
      rw [List.foldl_reverse]
      have hdigits := Nat.ofDigits_digits 16 n
      rw [Nat.ofDigits_eq_foldr] at hdigits
      conv_rhs => rw [← hdigits]
      congr 1
      funext d v
      push_cast
      ring
    have hshape : ((Nat.digits 16 n).reverse.map Json.hexDigit = [] ||
        4 < ((Nat.digits 16 n).reverse.map Json.hexDigit).length) = false := by
      simp [hne, hlength]
    rw [parseHextet, hexStr, if_neg hzero, hshape, if_neg Bool.false_ne_true, hvalues, Option.map_some,
      hvalue]
    congr 1
    apply Fin.ext
    simp only [Fin.ofNat, Nat.mod_eq_of_lt h]

lemma hexStr_ne_nil (n : Nat) : hexStr n ≠ [] := by
  unfold hexStr
  split
  · simp
  · next hzero => simpa [Nat.digits_eq_nil_iff_eq_zero] using hzero

theorem ipAddress_formatIPv4 (address : IPv4Address) : ipAddress (formatIPv4 address) = some (.v4 address) := by
  rw [ipAddress, parseIPv4Address_formatIPv4]

/-- No octet has a colon. -/
lemma parseOctet_colon {part : PyStr} (h : 0x3A ∈ part) : parseOctet part = none := by
  have hcolon : isDigitChar 0x3A = false := by decide
  have hdigits : isAsciiDigits part = false := by
    rw [isAsciiDigits, isDigit, Bool.and_eq_false_iff, Bool.and_eq_false_iff]
    right
    right
    rw [List.all_eq_false]
    exact ⟨0x3A, h, by simp [hcolon]⟩
  simp [parseOctet, hdigits]

lemma mapM_none_of_mem {α β : Type} {f : α → Option β} {xs : List α} {x : α} (hx : x ∈ xs)
    (hf : f x = none) : xs.mapM f = none := by
  induction xs with
  | nil => cases hx
  | cons y ys ih =>
    rw [List.mapM_cons]
    cases hx with
    | head => rw [hf]; rfl
    | tail _ hx =>
      rw [ih hx]
      cases f y <;> rfl

lemma exists_part_of_mem {c sep : CodePoint} {s : PyStr} (hne : c ≠ sep) (hc : c ∈ s) :
    ∃ part ∈ s.splitOn sep, c ∈ part := by
  have hjoin : [sep].intercalate (s.splitOn sep) = s := List.intercalate_splitOn sep
  rw [← hjoin] at hc
  apply (mem_join hc).resolve_left
  rw [List.mem_singleton]
  exact hne

lemma parseIPv4Address_colon {s : PyStr} (h : 0x3A ∈ s) : parseIPv4Address s = none := by
  obtain ⟨part, hpart, hcolon⟩ := exists_part_of_mem (by decide : (0x3A : CodePoint) ≠ 0x2E) h
  rw [parseIPv4Address, mapM_none_of_mem hpart (parseOctet_colon hcolon)]
  split <;> rfl

lemma partition_of_not_mem {sep : CodePoint} {s : PyStr} (h : sep ∉ s) : partition sep s = (s, false, []) := by
  induction s with
  | nil => rfl
  | cons c cs ih =>
    rw [List.mem_cons, not_or] at h
    rw [partition, if_neg (Ne.symm h.1), ih h.2]

lemma not_mem_formatMapped (address : IPv4Address) {c : CodePoint} (hc : c = 0x2F ∨ c = 0x25) :
    c ∉ formatMapped address := by
  rw [formatMapped, List.mem_append, not_or]
  constructor
  · rcases hc with rfl | rfl <;> decide
  · exact not_mem_formatIPv4 address (by tauto)

lemma formatMapped_splitOn (address : IPv4Address) :
    (formatMapped address).splitOn 0x3A = [[], [], str "ffff", formatIPv4 address] := by
  have hjoin : formatMapped address =
      [(0x3A : CodePoint)].intercalate [[], [], str "ffff", formatIPv4 address] := by
    simp [formatMapped, List.intercalate, List.intersperse]
    rfl
  rw [hjoin]
  apply List.splitOn_intercalate
  · intro part hpart
    simp only [List.mem_cons, List.not_mem_nil, or_false] at hpart
    rcases hpart with rfl | rfl | rfl | rfl
    · simp
    · simp
    · decide
    · exact not_mem_formatIPv4 address (by tauto)
  · simp

lemma mem_dot_formatIPv4 (address : IPv4Address) : 0x2E ∈ formatIPv4 address := by
  simp [formatIPv4, join, List.intercalate, List.intersperse, str]

/-- The text of the two last hextets stands for the address of version 4. -/
lemma assembleHextets_mapped {hi lo : Nat} (hhi : hi < 0x10000) (hlo : lo < 0x10000) :
    assembleHextets [[], [], str "ffff", hexStr hi, hexStr lo] =
      some [0, 0, 0, 0, 0, 0xFFFF, ⟨hi, hhi⟩, ⟨lo, hlo⟩] := by
  have hskip : skipIndices [[], [], str "ffff", hexStr hi, hexStr lo] = [1] := by
    have hne := hexStr_ne_nil hi
    simp [skipIndices, List.range_succ, hne, str]
  have haround : partsAround [[], [], str "ffff", hexStr hi, hexStr lo] 1 = some (0, 3) := by
    have hne := hexStr_ne_nil lo
    simp [partsAround, sideParts, hne]
  have hffff : parseHextet (str "ffff") = some 0xFFFF := by decide +kernel
  simp [assembleHextets, hskip, haround, List.mapM_cons, hffff, parseHextet_hexStr hhi,
    parseHextet_hexStr hlo, List.replicate]

theorem ipAddress_formatMapped (address : IPv4Address) :
    ipAddress (formatMapped address) = some (.v6 (.ofIPv4 address)) := by
  have hcolon : 0x3A ∈ formatMapped address := by simp [formatMapped, str]
  have hslash : 0x2F ∉ formatMapped address := not_mem_formatMapped address (by tauto)
  have hscope : splitScopeId (formatMapped address) = some (formatMapped address, none) := by
    rw [splitScopeId, partition_of_not_mem (not_mem_formatMapped address (by tauto))]
  have hexpand : expandSuffix [[], [], str "ffff", formatIPv4 address] =
      some [[], [], str "ffff", hexStr (address.val / 0x10000 % 0x10000), hexStr (address.val % 0x10000)] := by
    simp [expandSuffix, mem_dot_formatIPv4, parseIPv4Address_formatIPv4]
  have hvalue : parseIPv6Value (formatMapped address) = some (IPv6Address.ofIPv4 address).value := by
    have hne : formatMapped address ≠ [] := List.ne_nil_of_mem hcolon
    rw [parseIPv6Value, formatMapped_splitOn]
    have hassemble := assembleHextets_mapped
      (Nat.mod_lt (address.val / 0x10000) (by norm_num : 0 < 0x10000))
      (Nat.mod_lt address.val (by norm_num : 0 < 0x10000))
    simp only [hne, List.length_cons, List.length_nil, hexpand, Option.bind_eq_bind, Option.bind_some,
      hassemble, false_or]
    norm_num
    apply Fin.ext
    simp [hextetsValue, IPv6Address.ofIPv4]
    omega
  rw [ipAddress, parseIPv4Address_colon hcolon, parseIPv6Address, if_neg hslash, hscope]
  simp [hvalue, IPv6Address.ofIPv4]

end AisMixer.Library

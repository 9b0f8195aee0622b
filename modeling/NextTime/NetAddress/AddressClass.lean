import NextTime.NetAddress.IPv6Text

/-
The class of an address: what an address is unwrapped to, the ranges that are refused
and the ranges of the platform.
-/

namespace NextTime.NetAddress

open JsString

inductive AddressFamily
  | ipv4
  | ipv6
  deriving DecidableEq

inductive AddressClass
  | publicAddress
  | loopback
  | linkLocal
  | rfc1918
  | cgnat
  | uniqueLocalV6
  | platformSubnet
  | invalid
  deriving DecidableEq

def AddressFamily.width : AddressFamily → Nat
  | .ipv4 => 32
  | .ipv6 => 128

/-- A range as `parseCidr` makes it. -/
structure CidrRange where
  family : AddressFamily
  network : Nat
  prefixLen : Nat
  fits : prefixLen ≤ family.width

/-! ### Embedded addresses -/

/-- A number below 256 in decimal. -/
def decimal (byte : Fin 256) : JsString := js (Nat.repr byte)

/-- `join('.')` of the octets. -/
def dotted (octets : Octets) : JsString :=
  [dot].intercalate
    [decimal octets.first, decimal octets.second, decimal octets.third, decimal octets.fourth]

/-- The octets of the last two groups, each group being one of sixteen bits. -/
def octetsOfGroups (g6 g7 : Nat) : Octets where
  first := Fin.ofNat 256 (g6 >>> 8)
  second := Fin.ofNat 256 (g6 &&& 0xff)
  third := Fin.ofNat 256 (g7 >>> 8)
  fourth := Fin.ofNat 256 (g7 &&& 0xff)

/-- An IPv4-mapped address as the IPv4 address it wraps. -/
def normalizeAddress (input : JsString) : JsString :=
  let trimmed := trim input
  match parseIPv6 trimmed with
  | some [0, 0, 0, 0, 0, 0xffff, g6, g7] => dotted (octetsOfGroups g6 g7)
  | _ => trimmed

/-- The address behind the prefix `64:ff9b::/96`. -/
def nat64EmbeddedV4 : List Nat → Option Octets
  | [0x64, 0xff9b, 0, 0, 0, 0, g6, g7] => some (octetsOfGroups g6 g7)
  | _ => none

/-! ### Ranges -/

def isLoopbackV4 (octets : Octets) : Bool := octets.first = 127

def isLinkLocalV4 (octets : Octets) : Bool := octets.first = 169 && octets.second = 254

def isRfc1918V4 (octets : Octets) : Bool :=
  octets.first = 10 ||
    (octets.first = 172 && 16 ≤ octets.second && octets.second ≤ 31) ||
      (octets.first = 192 && octets.second = 168)

def isCgnatV4 (octets : Octets) : Bool :=
  octets.first = 100 && 64 ≤ octets.second && octets.second ≤ 127

def isLoopbackV6 (groups : List Nat) : Bool :=
  (groups.take 7).all (· = 0) && groups[7]? = some 1

def isLinkLocalV6 (groups : List Nat) : Bool := groups.headD 0 >>> 6 = 0b1111111010

def isUniqueLocalV6 (groups : List Nat) : Bool := groups.headD 0 >>> 9 = 0b1111110

def ipv4ToBigInt (octets : Octets) : Nat := Nat.ofDigits 256 octets.bytes.reverse

def ipv6ToBigInt (groups : List Nat) : Nat := Nat.ofDigits 65536 groups.reverse

def isInCidr (ip : JsString) (range : CidrRange) : Bool :=
  let shift := range.family.width - range.prefixLen
  match range.family with
  | .ipv4 =>
      match parseIPv4 ip with
      | none => false
      | some v4 =>
          range.prefixLen = 0 || ipv4ToBigInt v4 >>> shift = range.network >>> shift
  | .ipv6 =>
      match parseIPv6 ip with
      | none => false
      | some v6 =>
          range.prefixLen = 0 || ipv6ToBigInt v6 >>> shift = range.network >>> shift

/-! ### Classes -/

/-- The ranges an IPv4 address is refused for, in the order they are tried. -/
def classifyV4 (v4 : Octets) : AddressClass :=
  if isLoopbackV4 v4 then .loopback
  else if isLinkLocalV4 v4 then .linkLocal
  else if isRfc1918V4 v4 then .rfc1918
  else if isCgnatV4 v4 then .cgnat
  else .publicAddress

def classifyAddress (rawIp : JsString) (platformSubnets : List CidrRange) : AddressClass :=
  let ip := normalizeAddress rawIp
  if platformSubnets.any (isInCidr ip) then .platformSubnet
  else
    match parseIPv4 ip with
    | some v4 => classifyV4 v4
    | none =>
        match parseIPv6 ip with
        | some v6 =>
            if isLoopbackV6 v6 then .loopback
            else if isLinkLocalV6 v6 then .linkLocal
            else if isUniqueLocalV6 v6 then .uniqueLocalV6
            else
              match nat64EmbeddedV4 v6 with
              | some nat64V4 =>
                  if platformSubnets.any fun subnet =>
                      subnet.family = .ipv4 && isInCidr (dotted nat64V4) subnet then
                    .platformSubnet
                  else classifyV4 nat64V4
              | none => .publicAddress
        | none => .invalid

/-- `0.0.0.0/8` and `::`, which reach the host itself. -/
def isUnspecifiedAddress (rawIp : JsString) : Bool :=
  let ip := normalizeAddress rawIp
  match parseIPv4 ip with
  | some v4 => v4.first = 0
  | none =>
      match parseIPv6 ip with
      | some v6 => v6.all (· = 0)
      | none => false

/-! ### The dotted text of an address -/

theorem octet_decimal : ∀ byte : Fin 256, octet (decimal byte) = some byte := by decide +kernel

theorem decimal_reads (byte : Fin 256) : DecimalByte (decimal byte) byte :=
  octet_eq_some_iff.mp (octet_decimal byte)

theorem dotted_dottedQuad (octets : Octets) : DottedQuad (dotted octets) octets := by
  simpa [dotted] using DottedQuad.bytes (decimal_reads octets.first)
    (decimal_reads octets.second) (decimal_reads octets.third) (decimal_reads octets.fourth)

theorem parseIPv4_dotted (octets : Octets) : parseIPv4 (dotted octets) = some octets :=
  parseIPv4_dottedQuad_iff.mpr (dotted_dottedQuad octets)

/-- A dotted quad is digits and dots. -/
theorem DottedQuad.digits_and_dots {quad : JsString} {octets : Octets}
    (isQuad : DottedQuad quad octets) :
    ∀ unit ∈ quad, isDecimal unit = true ∨ unit = dot := by
  cases isQuad with
  | bytes readA readB readC readD =>
      have digitsA := (isQuadPart_iff.mp readA.1).2.2
      have digitsB := (isQuadPart_iff.mp readB.1).2.2
      have digitsC := (isQuadPart_iff.mp readC.1).2.2
      have digitsD := (isQuadPart_iff.mp readD.1).2.2
      intro unit member
      simp only [List.mem_append, List.mem_cons] at member
      rcases member with inA | same | inB | same | inC | same | inD
      · exact .inl (digitsA unit inA)
      · exact .inr same
      · exact .inl (digitsB unit inB)
      · exact .inr same
      · exact .inl (digitsC unit inC)
      · exact .inr same
      · exact .inl (digitsD unit inD)

theorem DottedQuad.beforeZone {quad : JsString} {octets : Octets}
    (isQuad : DottedQuad quad octets) : beforeZone quad = quad := by
  rw [NetAddress.beforeZone, List.takeWhile_eq_self_iff]
  intro unit member
  rw [bne_iff_ne]
  rintro rfl
  rcases isQuad.digits_and_dots percent member with isDigit | isDot
  · contradiction
  · contradiction

/-- No dotted quad is an IPv6 address to the parser. -/
theorem parseIPv6_none_of_quad {quad : JsString} {octets : Octets}
    (isQuad : DottedQuad quad octets) : parseIPv6 quad = none := by
  have cut := headAndTail_quad isQuad (longest_nil quad)
  rw [List.nil_append] at cut
  rw [parseIPv6_eq, isQuad.beforeZone, cut, Option.bind_some]
  dsimp only
  rw [show dropSeparator [] = [] from rfl, parseSides_full .nil, if_neg]
  simp [Octets.groups]

/-- Nothing in a dotted text is trimmed. -/
theorem dotted_solid {octets : Octets} {unit : UInt16} (member : unit ∈ dotted octets) :
    isWhiteSpace unit = false := by
  cases space : isWhiteSpace unit with
  | false => rfl
  | true =>
      rw [isWhiteSpace, List.contains_iff_mem] at space
      have other := (@List.all_eq_true _ (fun unit => !isDecimal unit && unit != dot) _).mp
        (by decide) unit space
      rw [Bool.and_eq_true, Bool.not_eq_true', bne_iff_ne] at other
      rcases (dotted_dottedQuad octets).digits_and_dots unit member with isDigit | isDot
      · rw [isDigit] at other
        exact absurd other.1 (by simp)
      · exact absurd isDot other.2

theorem trim_dotted (octets : Octets) : trim (dotted octets) = dotted octets :=
  trim_of_solid fun _ member => dotted_solid member

theorem normalizeAddress_dotted (octets : Octets) :
    normalizeAddress (dotted octets) = dotted octets := by
  rw [normalizeAddress, trim_dotted, parseIPv6_none_of_quad (dotted_dottedQuad octets)]

theorem octetsOfGroups_groups (octets : Octets) :
    octetsOfGroups (octets.first * 256 + octets.second) (octets.third * 256 + octets.fourth) =
      octets := by
  obtain ⟨first, second, third, fourth⟩ := octets
  simp only [octetsOfGroups, Octets.mk.injEq, Fin.ext_iff, Fin.val_ofNat, Nat.shiftRight_eq_div_pow]
  have mask : ∀ n, n &&& 0xff = n % 256 := fun n => Nat.and_two_pow_sub_one_eq_mod n 8
  simp only [mask]
  omega

/-! ### Wrapped addresses -/

/-- The ways an IPv4 address is embedded in an IPv6 one. -/
inductive Wrapper
  | mapped
  | nat64

def Wrapper.groups (octets : Octets) : Wrapper → List Nat
  | .mapped => [0, 0, 0, 0, 0, 0xffff] ++ octets.groups
  | .nat64 => [0x64, 0xff9b, 0, 0, 0, 0] ++ octets.groups

/-- A text of an address, with a zone or without. -/
def Spells (text : JsString) (groups : List Nat) : Prop :=
  Ipv6Text (beforeZone (trim text)) groups

/-- The usual text of an embedded address. -/
def Wrapper.text (octets : Octets) : Wrapper → JsString
  | .mapped => js "::ffff:" ++ dotted octets
  | .nat64 => js "64:ff9b::" ++ dotted octets

theorem Wrapper.text_mapped (octets : Octets) :
    Ipv6Text (Wrapper.mapped.text octets) (Wrapper.mapped.groups octets) := by
  have ffff : Groups (js "ffff") [0xffff] := parseGroups_iff.mp (by decide +kernel)
  have ending := Ending.groupsAndQuad ffff (List.cons_ne_nil _ _) (dotted_dottedQuad octets)
  exact .compressed .nil ending (by simp [Octets.groups])

theorem Wrapper.text_nat64 (octets : Octets) :
    Ipv6Text (Wrapper.nat64.text octets) (Wrapper.nat64.groups octets) := by
  have front : Groups (js "64:ff9b") [0x64, 0xff9b] := parseGroups_iff.mp (by decide +kernel)
  exact .compressed front (.quad (dotted_dottedQuad octets)) (by simp [Octets.groups])

theorem spells_of_solid {text : JsString} {groups : List Nat} (address : Ipv6Text text groups)
    (solid : ∀ unit ∈ text, isWhiteSpace unit = false ∧ unit ≠ percent) : Spells text groups := by
  have trimmed : trim text = text := trim_of_solid fun unit member => (solid unit member).1
  have zoneless : beforeZone text = text := by
    rw [beforeZone, List.takeWhile_eq_self_iff]
    intro unit member
    rw [bne_iff_ne]
    exact (solid unit member).2
  rw [Spells, trimmed, zoneless]
  exact address

/-- The usual text spells the address it embeds. -/
theorem Wrapper.spells_text (wrapper : Wrapper) (octets : Octets) :
    Spells (wrapper.text octets) (wrapper.groups octets) := by
  have solidQuad : ∀ unit ∈ dotted octets, isWhiteSpace unit = false ∧ unit ≠ percent := by
    intro unit member
    constructor
    · exact dotted_solid member
    · rintro rfl
      rcases (dotted_dottedQuad octets).digits_and_dots percent member with isDigit | isDot
      · contradiction
      · contradiction
  have solidFront : ∀ front : JsString,
      front.all (fun unit => !isWhiteSpace unit && unit != percent) = true →
        ∀ unit ∈ front ++ dotted octets, isWhiteSpace unit = false ∧ unit ≠ percent := by
    intro front all unit member
    rcases List.mem_append.mp member with inFront | inQuad
    · simpa using List.all_eq_true.mp all unit inFront
    · exact solidQuad unit inQuad
  cases wrapper with
  | mapped =>
      exact spells_of_solid (Wrapper.text_mapped octets) (solidFront (js "::ffff:") (by decide))
  | nat64 =>
      exact spells_of_solid (Wrapper.text_nat64 octets) (solidFront (js "64:ff9b::") (by decide))

theorem Spells.parse {text : JsString} {groups : List Nat} (spells : Spells text groups) :
    parseIPv6 (trim text) = some groups := by
  rw [parseIPv6_eq]
  exact spells.read

theorem normalizeAddress_mapped {text : JsString} {octets : Octets}
    (spells : Spells text (Wrapper.mapped.groups octets)) :
    normalizeAddress text = dotted octets := by
  rw [normalizeAddress, spells.parse]
  simp only [Wrapper.groups, Octets.groups, List.cons_append, List.nil_append]
  rw [octetsOfGroups_groups]

theorem normalizeAddress_nat64 {text : JsString} {octets : Octets}
    (spells : Spells text (Wrapper.nat64.groups octets)) :
    normalizeAddress text = trim text := by
  rw [normalizeAddress, spells.parse]
  rfl

theorem parseIPv4_none_of_spells {text : JsString} {groups : List Nat}
    (spells : Spells text groups) : parseIPv4 (trim text) = none := by
  cases read : parseIPv4 (trim text) with
  | none => rfl
  | some octets =>
      have parsed := spells.parse
      rw [parseIPv6_none_of_quad (parseIPv4_dottedQuad_iff.mp read)] at parsed
      contradiction

theorem classifyAddress_dotted (octets : Octets) (subnets : List CidrRange) :
    classifyAddress (dotted octets) subnets =
      if subnets.any (isInCidr (dotted octets)) then .platformSubnet else classifyV4 octets := by
  rw [classifyAddress, normalizeAddress_dotted, parseIPv4_dotted]

theorem isInCidr_ipv4_of_none {ip : JsString} {range : CidrRange} (none : parseIPv4 ip = none)
    (ipv4 : range.family = .ipv4) : isInCidr ip range = false := by
  simp only [isInCidr, ipv4, none]

theorem classifyAddress_nat64 {text : JsString} {octets : Octets} {subnets : List CidrRange}
    (ipv4 : ∀ subnet ∈ subnets, subnet.family = .ipv4)
    (spells : Spells text (Wrapper.nat64.groups octets)) :
    classifyAddress text subnets = classifyAddress (dotted octets) subnets := by
  have noV4 := parseIPv4_none_of_spells spells
  have outside : subnets.any (isInCidr (trim text)) = false := by
    rw [List.any_eq_false]
    intro subnet member
    rw [isInCidr_ipv4_of_none noV4 (ipv4 subnet member)]
    simp
  have embeddedV4 : nat64EmbeddedV4 (Wrapper.nat64.groups octets) = some octets := by
    simp only [Wrapper.groups, Octets.groups, List.cons_append, List.nil_append, nat64EmbeddedV4]
    rw [octetsOfGroups_groups]
  have same : (subnets.any fun subnet =>
      subnet.family = .ipv4 && isInCidr (dotted octets) subnet) =
        subnets.any (isInCidr (dotted octets)) := by
    rw [Bool.eq_iff_iff, List.any_eq_true, List.any_eq_true]
    constructor
    · rintro ⟨subnet, member, both⟩
      exact ⟨subnet, member, (Bool.and_eq_true_iff.mp both).2⟩
    · rintro ⟨subnet, member, inside⟩
      exact ⟨subnet, member, by simp [ipv4 subnet member, inside]⟩
  rw [classifyAddress_dotted, classifyAddress, normalizeAddress_nat64 spells]
  have notLoopback : isLoopbackV6 (Wrapper.nat64.groups octets) = false := rfl
  have notLinkLocal : isLinkLocalV6 (Wrapper.nat64.groups octets) = false := by
    simp [isLinkLocalV6, Wrapper.groups]
  have notUniqueLocal : isUniqueLocalV6 (Wrapper.nat64.groups octets) = false := by
    simp [isUniqueLocalV6, Wrapper.groups]
  simp only [outside, noV4, spells.parse, notLoopback, notLinkLocal, notUniqueLocal, embeddedV4,
    same, Bool.false_eq_true, if_false]

/-- A wrapped address is of the class of the address it wraps. -/
theorem classifyAddress_wrapped {text : JsString} {octets : Octets} {subnets : List CidrRange}
    {wrapper : Wrapper} (ipv4 : ∀ subnet ∈ subnets, subnet.family = .ipv4)
    (spells : Spells text (wrapper.groups octets)) :
    classifyAddress text subnets = classifyAddress (dotted octets) subnets := by
  cases wrapper with
  | mapped =>
      rw [classifyAddress_dotted, classifyAddress, normalizeAddress_mapped spells,
        parseIPv4_dotted]
  | nat64 => exact classifyAddress_nat64 ipv4 spells

theorem isUnspecifiedAddress_dotted (octets : Octets) :
    isUnspecifiedAddress (dotted octets) = decide (octets.first = 0) := by
  rw [isUnspecifiedAddress, normalizeAddress_dotted, parseIPv4_dotted]

theorem isUnspecifiedAddress_mapped {text : JsString} {octets : Octets}
    (spells : Spells text (Wrapper.mapped.groups octets)) :
    isUnspecifiedAddress text = decide (octets.first = 0) := by
  rw [isUnspecifiedAddress, normalizeAddress_mapped spells, parseIPv4_dotted]

/-- No wrapped address of NAT64 is taken for an unspecified one. -/
theorem isUnspecifiedAddress_nat64 {text : JsString} {octets : Octets}
    (spells : Spells text (Wrapper.nat64.groups octets)) : isUnspecifiedAddress text = false := by
  rw [isUnspecifiedAddress, normalizeAddress_nat64 spells, parseIPv4_none_of_spells spells,
    spells.parse]
  rfl

end NextTime.NetAddress

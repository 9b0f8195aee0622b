import NextTime.NetAddress.AddressClass

/-
The two decisions made about an address: what a Worker may reach through the egress
proxy, and which URL of an owner the kernel fetches.
-/

namespace NextTime.NetAddress

open JsString

/-! ### Hostname rules -/

section HostnameRules

variable (toLowerCase : JsString → JsString)

def normalizeHostname (hostname : JsString) : JsString :=
  let lower := toLowerCase (trim hostname)
  if endsWith lower [dot] then lower.dropLast else lower

/-- A name is matched by itself and by every name it is a parent of. -/
def matchesSuffix (hostname : JsString) (patterns : List JsString) : Bool :=
  let host := normalizeHostname toLowerCase hostname
  patterns.any fun raw =>
    let pattern := normalizeHostname toLowerCase raw
    !pattern.isEmpty && (host == pattern || endsWith host (dot :: pattern))

def normalizeDenyHostPattern (raw : JsString) : JsString :=
  let pattern := normalizeHostname toLowerCase raw
  if (js "*.").isPrefixOf pattern then pattern.drop 2
  else if [dot].isPrefixOf pattern then pattern.drop 1
  else pattern

def matchesDenySuffix (hostname : JsString) (patterns : List JsString) : Bool :=
  matchesSuffix toLowerCase hostname (patterns.map (normalizeDenyHostPattern toLowerCase))

def isBareHostname (hostname : JsString) : Bool :=
  !(normalizeHostname toLowerCase hostname).contains dot

end HostnameRules

def isIpLiteral (input : JsString) : Bool :=
  (parseIPv4Literal input).isSome || (parseIPv6 input).isSome

def canonicalizeIpLiteral (input : JsString) : Option JsString :=
  match parseIPv4Literal input with
  | some v4 => some (dotted v4)
  | none => if (parseIPv6 input).isSome then some input else none

/-! ### The egress proxy -/

/-- A list that is not set is an empty one to every rule. -/
structure SourcePolicy where
  allow : List JsString
  deny : List JsString
  denyAll : Bool

structure PolicyConfig where
  denyHosts : List JsString
  platformSubnets : List CidrRange
  trustedResolvedCidrs : List CidrRange
  allowLoopbackForTests : Bool
  denyUnknownSource : Bool

inductive PolicyDenyReason
  | unknownSource
  | sourceDenyAll
  | sourceDeny
  | denyHost
  | bareHostname
  | notInAllowList
  | dnsError
  | privateAddress
  deriving DecidableEq

inductive PolicyDecision
  | allowed (address : JsString)
  | denied (reason : PolicyDenyReason)
  deriving DecidableEq

def PolicyDecision.isAllowed : PolicyDecision → Bool
  | .allowed _ => true
  | .denied _ => false

section Egress

variable (toLowerCase : JsString → JsString)

/-- The rules that need no address. -/
def denyByHostname (hostname : JsString) (source : Option SourcePolicy)
    (config : PolicyConfig) : Option PolicyDenyReason :=
  let allow := (source.map SourcePolicy.allow).getD []
  if source.isNone && config.denyUnknownSource then some .unknownSource
  else if source.any SourcePolicy.denyAll then some .sourceDenyAll
  else if matchesDenySuffix toLowerCase hostname ((source.map SourcePolicy.deny).getD []) then
    some .sourceDeny
  else if matchesDenySuffix toLowerCase hostname config.denyHosts then some .denyHost
  else if isBareHostname toLowerCase hostname && !matchesSuffix toLowerCase hostname allow then
    some .bareHostname
  else if !allow.isEmpty && !matchesSuffix toLowerCase hostname allow then some .notInAllowList
  else none

/-- The first of the addresses that may be connected to. -/
def firstAllowed (config : PolicyConfig) (targetIsLiteral : Bool) :
    List JsString → PolicyDecision
  | [] => .denied .privateAddress
  | address :: rest =>
      let addressClass := classifyAddress address config.platformSubnets
      if isUnspecifiedAddress address then firstAllowed config targetIsLiteral rest
      else if addressClass = .publicAddress then .allowed address
      else if addressClass = .loopback ∧ config.allowLoopbackForTests then .allowed address
      else if targetIsLiteral = false ∧ addressClass ≠ .platformSubnet ∧
          addressClass ≠ .invalid ∧ config.trustedResolvedCidrs.any (isInCidr address) then
        .allowed address
      else firstAllowed config targetIsLiteral rest

def decideEgress (rawHostname : JsString) (source : Option SourcePolicy) (config : PolicyConfig)
    (resolve : JsString → Option (List JsString)) : PolicyDecision :=
  let hostname := normalizeHostname toLowerCase rawHostname
  match denyByHostname toLowerCase hostname source config with
  | some reason => .denied reason
  | none =>
      match resolve hostname with
      | none => .denied .dnsError
      | some addresses =>
          if addresses.isEmpty then .denied .dnsError
          else firstAllowed config (isIpLiteral hostname) addresses

end Egress

/-! ### The kernel's own fetches -/

/-- What `new URL` makes of a text. -/
structure ParsedUrl where
  protocol : JsString
  hostname : JsString

inductive OutboundTargetRefusalReason
  | invalidUrl
  | bareHostname
  | dnsError
  | loopback
  | linkLocal
  | unspecified
  | platformSubnet
  deriving DecidableEq

inductive OutboundTargetDecision
  | allowed
  | refused (reason : OutboundTargetRefusalReason) (host : JsString)
  deriving DecidableEq

structure OutboundTargetPolicy where
  platformSubnets : List CidrRange
  allowHosts : List JsString

/-- Every address must be acceptable. -/
def checkAddresses (host : JsString) (platformSubnets : List CidrRange) :
    List JsString → OutboundTargetDecision
  | [] => .allowed
  | address :: rest =>
      if isUnspecifiedAddress address then .refused .unspecified host
      else
        match classifyAddress address platformSubnets with
        | .platformSubnet => .refused .platformSubnet host
        | .loopback => .refused .loopback host
        | .linkLocal => .refused .linkLocal host
        | .invalid => .refused .dnsError host
        | _ => checkAddresses host platformSubnets rest

section Outbound

variable (toLowerCase : JsString → JsString)

def isAllowedHost (host : JsString) (allowHosts : List JsString) : Bool :=
  if allowHosts.isEmpty then false
  else if isIpLiteral host then
    allowHosts.any fun entry => canonicalizeIpLiteral (trim entry) = canonicalizeIpLiteral host
  else matchesSuffix toLowerCase host (allowHosts.filter fun entry => !isIpLiteral (trim entry))

/-- The host of a URL, an IPv6 literal out of its brackets. -/
def hostOf (parsed : ParsedUrl) : JsString :=
  normalizeHostname toLowerCase <|
    if [0x5B].isPrefixOf parsed.hostname && endsWith parsed.hostname [0x5D] then
      (parsed.hostname.drop 1).dropLast
    else parsed.hostname

variable (parseUrl : JsString → Option ParsedUrl)

def decideOutboundTarget (url : JsString) (policy : OutboundTargetPolicy)
    (resolve : JsString → Option (List JsString)) : OutboundTargetDecision :=
  match parseUrl url with
  | none => .refused .invalidUrl []
  | some parsed =>
      let host := hostOf toLowerCase parsed
      if (parsed.protocol ≠ js "http:" ∧ parsed.protocol ≠ js "https:") ∨ host = [] then
        .refused .invalidUrl host
      else if isAllowedHost toLowerCase host policy.allowHosts then .allowed
      else
        match canonicalizeIpLiteral host with
        | some literal => checkAddresses host policy.platformSubnets [literal]
        | none =>
            if isBareHostname toLowerCase host then .refused .bareHostname host
            else
              match resolve host with
              | none => .refused .dnsError host
              | some addresses =>
                  if addresses.isEmpty then .refused .dnsError host
                  else checkAddresses host policy.platformSubnets addresses

end Outbound

/-! ### One address -/

/-- Alone, an address is connected to only by its class. -/
theorem firstAllowed_singleton {config : PolicyConfig}
    (untrusted : config.trustedResolvedCidrs = []) (targetIsLiteral : Bool) (address : JsString) :
    (firstAllowed config targetIsLiteral [address]).isAllowed = true ↔
      isUnspecifiedAddress address = false ∧
        (classifyAddress address config.platformSubnets = .publicAddress ∨
          classifyAddress address config.platformSubnets = .loopback ∧
            config.allowLoopbackForTests = true) := by
  simp only [firstAllowed, untrusted, List.any_nil, Bool.false_eq_true, and_false, if_false]
  cases isUnspecifiedAddress address with
  | true => simp [PolicyDecision.isAllowed]
  | false =>
      by_cases isPublic : classifyAddress address config.platformSubnets = .publicAddress
      · simp [isPublic, PolicyDecision.isAllowed]
      · by_cases loopback : classifyAddress address config.platformSubnets = .loopback ∧
            config.allowLoopbackForTests = true
        · simp [loopback, PolicyDecision.isAllowed]
        · simp [isPublic, loopback, PolicyDecision.isAllowed]

/-- The classes the kernel does not fetch from. -/
def refusedClasses : List AddressClass := [.platformSubnet, .loopback, .linkLocal, .invalid]

theorem checkAddresses_singleton (host : JsString) (platformSubnets : List CidrRange)
    (address : JsString) :
    checkAddresses host platformSubnets [address] = .allowed ↔
      isUnspecifiedAddress address = false ∧
        classifyAddress address platformSubnets ∉ refusedClasses := by
  rw [checkAddresses]
  cases isUnspecifiedAddress address with
  | true => simp
  | false =>
      cases classifyAddress address platformSubnets with
      | _ => simp [checkAddresses, refusedClasses]

/-! ### Literals -/

theorem canonicalizeIpLiteral_dotted (octets : Octets) :
    canonicalizeIpLiteral (dotted octets) = some (dotted octets) := by
  rw [canonicalizeIpLiteral, parseIPv4Literal, parseIPv4_dotted]

theorem dotted_ne_nil (octets : Octets) : dotted octets ≠ [] := by
  intro empty
  have read := parseIPv4_dotted octets
  rw [empty] at read
  contradiction

theorem colon_mem_of_groups {text : JsString} {groups : List Nat} (plain : Groups text groups)
    (several : 2 ≤ groups.length) : colon ∈ text := by
  cases plain with
  | separated each =>
      rcases each with _ | ⟨_, _ | _⟩
      · contradiction
      · contradiction
      · simp [List.intercalate_cons_cons]

/-- Every IPv6 address has a colon. -/
theorem Ipv6Text.colon_mem {text : JsString} {groups : List Nat} (address : Ipv6Text text groups) :
    colon ∈ text := by
  cases address with
  | full ending eight =>
      cases ending with
      | groups plain => exact colon_mem_of_groups plain (by omega)
      | quad dotted => simp [Octets.groups] at eight
      | groupsAndQuad => simp
  | compressed => simp

theorem InetAton.no_colon {address : Octets} {input : JsString}
    (reads : InetAton address input) : colon ∉ input := by
  intro member
  cases reads with
  | parts few bytes remaining =>
      rcases mem_intercalate member with isDot | ⟨part, inParts, inPart⟩
      · contradiction
      · rcases List.mem_append.mp inParts with inLeading | isLast
        · obtain ⟨value, readPart⟩ := atonPart_of_mem bytes part inLeading
          exact readPart.not_mem rfl (by decide) inPart
        · rw [List.mem_singleton.mp isLast] at inPart
          exact remaining.not_mem rfl (by decide) inPart

theorem parseIPv4Literal_none_of_colon {input : JsString} (member : colon ∈ input) :
    parseIPv4Literal input = none := by
  cases literal : parseIPv4Literal input with
  | none => rfl
  | some address =>
      cases read : parseIPv4 input with
      | none => exact absurd member ((parseIPv4Literal_of_not_strict read).mp literal).no_colon
      | some strict =>
          have isQuad := parseIPv4_dottedQuad_iff.mp read
          rcases isQuad.digits_and_dots colon member with isDigit | isDot
          · contradiction
          · contradiction

/-- A host that spells an IPv6 address stays as it is written. -/
theorem canonicalizeIpLiteral_spells {host : JsString} {groups : List Nat}
    (trimmed : trim host = host) (spells : Spells host groups) :
    canonicalizeIpLiteral host = some host := by
  have address : Ipv6Text (beforeZone host) groups := by
    rw [Spells, trimmed] at spells
    exact spells
  have member : colon ∈ host := (List.takeWhile_sublist _).subset address.colon_mem
  have parsed := spells.parse
  rw [trimmed] at parsed
  rw [canonicalizeIpLiteral, parseIPv4Literal_none_of_colon member, parsed]
  rfl

/-! ### A wrapper and what it wraps -/

/-- What a text of an address shares with the IPv4 address it wraps. -/
structure KeepsVerdict (toLowerCase : JsString → JsString)
    (parseUrl : JsString → Option ParsedUrl) (subnets : List CidrRange) (octets : Octets)
    (text : JsString) : Prop where
  addressClass : classifyAddress text subnets = classifyAddress (dotted octets) subnets
  unspecified : isUnspecifiedAddress text = isUnspecifiedAddress (dotted octets)
  /-- A name that resolves to it is reached only where one that resolves to the IPv4
  address is. -/
  egress : ∀ hostname source config, config.platformSubnets = subnets →
    config.trustedResolvedCidrs = [] →
      (decideEgress toLowerCase hostname source config fun _ => some [text]).isAllowed = true →
        (decideEgress toLowerCase hostname source config
          fun _ => some [dotted octets]).isAllowed = true
  outbound : ∀ url policy, policy.platformSubnets = subnets →
    decideOutboundTarget toLowerCase parseUrl url policy (fun _ => some [text]) = .allowed →
      decideOutboundTarget toLowerCase parseUrl url policy (fun _ => some [dotted octets]) =
        .allowed
  /-- As the host of a URL it is fetched from only where the IPv4 address is, unless the
  list of allowed hosts names it. -/
  literal : ∀ url plain parsed plainParsed policy resolve, parseUrl url = some parsed →
    parseUrl plain = some plainParsed → plainParsed.protocol = parsed.protocol →
      hostOf toLowerCase parsed = text → hostOf toLowerCase plainParsed = dotted octets →
        trim text = text → isAllowedHost toLowerCase text policy.allowHosts = false →
          policy.platformSubnets = subnets →
            decideOutboundTarget toLowerCase parseUrl url policy resolve = .allowed →
              decideOutboundTarget toLowerCase parseUrl plain policy resolve = .allowed

theorem decideEgress_singleton_iff (toLowerCase : JsString → JsString) (hostname : JsString)
    (source : Option SourcePolicy) {config : PolicyConfig}
    (untrusted : config.trustedResolvedCidrs = []) (address : JsString) :
    (decideEgress toLowerCase hostname source config fun _ => some [address]).isAllowed = true ↔
      denyByHostname toLowerCase (normalizeHostname toLowerCase hostname) source config = none ∧
        isUnspecifiedAddress address = false ∧
          (classifyAddress address config.platformSubnets = .publicAddress ∨
            classifyAddress address config.platformSubnets = .loopback ∧
              config.allowLoopbackForTests = true) := by
  rw [decideEgress]
  cases denyByHostname toLowerCase (normalizeHostname toLowerCase hostname) source config with
  | some reason => simp [PolicyDecision.isAllowed]
  | none => simpa using firstAllowed_singleton untrusted _ address

/-- A name that resolves to another address is fetched from where that one passes. -/
theorem decideOutboundTarget_resolved {toLowerCase : JsString → JsString}
    {parseUrl : JsString → Option ParsedUrl} {url : JsString} {policy : OutboundTargetPolicy}
    {address other : JsString}
    (passes : ∀ host, checkAddresses host policy.platformSubnets [address] = .allowed →
      checkAddresses host policy.platformSubnets [other] = .allowed)
    (allowed : decideOutboundTarget toLowerCase parseUrl url policy (fun _ => some [address]) =
      .allowed) :
    decideOutboundTarget toLowerCase parseUrl url policy (fun _ => some [other]) = .allowed := by
  rw [decideOutboundTarget] at allowed ⊢
  cases parsing : parseUrl url with
  | none =>
      rw [parsing] at allowed
      contradiction
  | some parsed =>
      simp only [parsing] at allowed ⊢
      split
      next invalid =>
        rw [if_pos invalid] at allowed
        contradiction
      next valid =>
        rw [if_neg valid] at allowed
        split
        next => rfl
        next notListed =>
          rw [if_neg notListed] at allowed
          cases literal : canonicalizeIpLiteral (hostOf toLowerCase parsed) with
          | some address =>
              simp only [literal] at allowed ⊢
              exact allowed
          | none =>
              simp only [literal] at allowed ⊢
              split
              next bare =>
                rw [if_pos bare] at allowed
                contradiction
              next dotted =>
                rw [if_neg dotted] at allowed
                exact passes _ allowed

theorem decideOutboundTarget_literal_iff {toLowerCase : JsString → JsString}
    {parseUrl : JsString → Option ParsedUrl} {url : JsString} {parsed : ParsedUrl}
    {policy : OutboundTargetPolicy} {resolve : JsString → Option (List JsString)}
    (parsing : parseUrl url = some parsed)
    (notListed : isAllowedHost toLowerCase (hostOf toLowerCase parsed) policy.allowHosts = false)
    (literal : canonicalizeIpLiteral (hostOf toLowerCase parsed) =
      some (hostOf toLowerCase parsed)) :
    decideOutboundTarget toLowerCase parseUrl url policy resolve = .allowed ↔
      ¬((parsed.protocol ≠ js "http:" ∧ parsed.protocol ≠ js "https:") ∨
          hostOf toLowerCase parsed = []) ∧
        checkAddresses (hostOf toLowerCase parsed) policy.platformSubnets
          [hostOf toLowerCase parsed] = .allowed := by
  rw [decideOutboundTarget]
  simp only [parsing, notListed, literal]
  split
  next invalid => simp [invalid]
  next valid => simp [valid]

/-- An embedded IPv4 address keeps the verdict of its own exactly when it is mapped or no
address of `0.0.0.0/8`. -/
theorem wrapped_keepsVerdict_iff (toLowerCase : JsString → JsString)
    (parseUrl : JsString → Option ParsedUrl) {subnets : List CidrRange}
    (ipv4 : ∀ subnet ∈ subnets, subnet.family = .ipv4) (wrapper : Wrapper) (octets : Octets)
    {text : JsString} (spells : Spells text (wrapper.groups octets)) :
    KeepsVerdict toLowerCase parseUrl subnets octets text ↔
      wrapper = .mapped ∨ octets.first ≠ 0 := by
  constructor
  · intro keeps
    cases wrapper with
    | mapped => exact .inl rfl
    | nat64 =>
        right
        have unspecified := keeps.unspecified
        rw [isUnspecifiedAddress_nat64 spells, isUnspecifiedAddress_dotted] at unspecified
        simpa using unspecified.symm
  · intro fits
    have addressClass := classifyAddress_wrapped ipv4 spells
    have unspecified : isUnspecifiedAddress text = isUnspecifiedAddress (dotted octets) := by
      rw [isUnspecifiedAddress_dotted]
      cases wrapper with
      | mapped => exact isUnspecifiedAddress_mapped spells
      | nat64 =>
          have other := fits.resolve_left nofun
          rw [isUnspecifiedAddress_nat64 spells]
          simpa using other
    have passes : ∀ host, checkAddresses host subnets [text] = .allowed →
        checkAddresses host subnets [dotted octets] = .allowed := by
      intro host
      rw [checkAddresses_singleton, checkAddresses_singleton, addressClass, unspecified]
      exact id
    constructor
    · exact addressClass
    · exact unspecified
    · rintro hostname source config rfl untrusted
      rw [decideEgress_singleton_iff _ _ _ untrusted, decideEgress_singleton_iff _ _ _ untrusted,
        addressClass, unspecified]
      exact id
    · rintro url policy rfl allowed
      exact decideOutboundTarget_resolved passes allowed
    · rintro url plain parsed plainParsed policy resolve parsing plainParsing protocol isText
        isDotted trimmed notListed rfl allowed
      subst isText
      obtain ⟨valid, checked⟩ := (decideOutboundTarget_literal_iff parsing notListed
        (canonicalizeIpLiteral_spells trimmed spells)).mp allowed
      rw [not_or, ← protocol] at valid
      have valid' : ¬((plainParsed.protocol ≠ js "http:" ∧ plainParsed.protocol ≠ js "https:") ∨
          hostOf toLowerCase plainParsed = []) := by
        rw [not_or, isDotted]
        exact ⟨valid.1, dotted_ne_nil octets⟩
      cases listed : isAllowedHost toLowerCase (hostOf toLowerCase plainParsed)
          policy.allowHosts with
      | true =>
          rw [decideOutboundTarget]
          simp only [plainParsing, listed, if_neg valid', if_true]
      | false =>
          rw [decideOutboundTarget_literal_iff plainParsing listed
            (by rw [isDotted, canonicalizeIpLiteral_dotted]), isDotted]
          rw [isDotted] at valid'
          exact ⟨valid', by
            have plainChecked := passes _ checked
            rw [checkAddresses_singleton] at plainChecked ⊢
            exact plainChecked⟩

/-- `::ffff:127.0.0.1` keeps the verdict of the loopback address. -/
theorem wrapped_keepsVerdict_loopback :
    KeepsVerdict id (fun _ => none) [] ⟨127, 0, 0, 1⟩ (Wrapper.mapped.text ⟨127, 0, 0, 1⟩) :=
  (@wrapped_keepsVerdict_iff id (fun _ => none) [] (List.forall_mem_nil _) .mapped
    ⟨127, 0, 0, 1⟩ _ (Wrapper.spells_text .mapped ⟨127, 0, 0, 1⟩)).mpr (.inl rfl)

/-- `64:ff9b::0.0.0.0` is reached and fetched from where `0.0.0.0` is refused. -/
theorem nat64_unspecified_allowed :
    ¬∀ (wrapper : Wrapper) (octets : Octets) (subnets : List CidrRange) (text : JsString),
      (∀ subnet ∈ subnets, subnet.family = .ipv4) → Spells text (wrapper.groups octets) →
        KeepsVerdict id (fun _ => none) subnets octets text := by
  intro keeps
  have egress := (keeps .nat64 ⟨0, 0, 0, 0⟩ [] (Wrapper.nat64.text ⟨0, 0, 0, 0⟩)
    (List.forall_mem_nil _) (Wrapper.spells_text .nat64 ⟨0, 0, 0, 0⟩)).egress
  have allowed := egress (js "a.example") none ⟨[], [], [], false, false⟩ rfl rfl
    (by decide +kernel)
  revert allowed
  decide +kernel

end NextTime.NetAddress

import Loxep.DnsRecords
import Loxep.HostAddresses
import Loxep.Lib.Cidr

/-!
# The desired records of a target

Its addresses on the tailnet and in public, and the records that are made of them.
-/

/-!
## Tailnet addresses

Whether an address lies in one of the two private ranges of a tailnet, read from its text. What does
not parse as an address of either family lies in neither.
-/

namespace Loxep

structure CidrLiteral where
  base : String
  prefixLen : ℕ

def tailscaleCgnatV4Cidr : CidrLiteral := ⟨"100.64.0.0", 10⟩

def tailscaleUlaV6Cidr : CidrLiteral := ⟨"fd7a:115c:a1e0::", 48⟩

inductive TailnetAddressKind
  | cgnatV4
  | tailscaleUlaV6

def radixValue (radix : ℕ) (digit : Char → ℕ) (cs : List Char) : ℕ :=
  cs.foldl (fun n c => n * radix + digit c) 0

def decimalDigit (c : Char) : ℕ := c.toNat - '0'.toNat

def isHexChar (c : Char) : Bool :=
  c.isDigit || ('a' ≤ c && c ≤ 'f') || ('A' ≤ c && c ≤ 'F')

def hexDigit (c : Char) : ℕ :=
  if c.isDigit then decimalDigit c
  else if 'a' ≤ c then c.toNat - 'a'.toNat + 10
  else c.toNat - 'A'.toNat + 10

/-! ### Version 4 -/

/-- `/^\d{1,3}$/`, and at most 255. -/
def ipv4Octet (part : List Char) : Option ℕ :=
  if 1 ≤ part.length ∧ part.length ≤ 3 ∧ part.all (·.isDigit) = true then
    let octet := radixValue 10 decimalDigit part
    if 255 < octet then none else some octet
  else none

def ipv4Value (value : ℕ) : List (List Char) → Option ℕ
  | [] => some value
  | part :: parts =>
    match ipv4Octet part with
    | none => none
    | some octet => ipv4Value (value <<< 8 ||| octet) parts

def parseIPv4 (address : String) : Option ℕ :=
  let parts := (trim address).toList.splitOn '.'
  if parts.length ≠ 4 then none else ipv4Value 0 parts

/-- `(0xffffffff << (32 - prefixLen)) >>> 0`. -/
def ipv4Mask (prefixLen : ℕ) : ℕ :=
  if prefixLen = 0 then 0 else (0xffffffff <<< (32 - prefixLen)) % 2 ^ 32

def ipv4InCidr (address : String) (cidr : CidrLiteral) : Bool :=
  match parseIPv4 address, parseIPv4 cidr.base with
  | some addressValue, some baseValue =>
    addressValue &&& ipv4Mask cidr.prefixLen == baseValue &&& ipv4Mask cidr.prefixLen
  | _, _ => false

/-! ### Version 6 -/

/-- `split("::")`. -/
def splitDoubleColon : List Char → List (List Char)
  | [] => [[]]
  | ':' :: ':' :: cs => [] :: splitDoubleColon cs
  | c :: cs =>
    match splitDoubleColon cs with
    | [] => [[c]]
    | segment :: segments => (c :: segment) :: segments

def parseGroups (segment : List Char) : List (List Char) :=
  if segment = [] then [] else segment.splitOn ':'

/-- The groups with those that `::` elides, if there are eight. -/
def ipv6Groups (trimmed : List Char) : Option (List (List Char)) :=
  match splitDoubleColon trimmed with
  | [whole] =>
    if (parseGroups whole).length ≠ 8 then none else some (parseGroups whole)
  | [head, tail] =>
    if 8 < (parseGroups head).length + (parseGroups tail).length + 1 then none
    else
      some (parseGroups head ++
        List.replicate (8 - (parseGroups head).length - (parseGroups tail).length) ['0'] ++
          parseGroups tail)
  | _ => none

/-- `/^[0-9a-fA-F]{1,4}$/`. -/
def ipv6Group (group : List Char) : Option ℕ :=
  if 1 ≤ group.length ∧ group.length ≤ 4 ∧ group.all isHexChar = true then
    some (radixValue 16 hexDigit group)
  else none

def ipv6Value (value : ℕ) : List (List Char) → Option ℕ
  | [] => some value
  | group :: groups =>
    match ipv6Group group with
    | none => none
    | some hextet => ipv6Value (value <<< 16 ||| hextet) groups

def parseIPv6 (address : String) : Option ℕ :=
  let trimmed := (trim address).toList
  if trimmed.length = 0 ∨ '.' ∈ trimmed then none
  else
    match ipv6Groups trimmed with
    | none => none
    | some groups => if groups.length ≠ 8 then none else ipv6Value 0 groups

/-- All bits but those of the host. -/
def ipv6Mask (prefixLen : ℕ) : ℕ := (1 <<< 128 - 1) ^^^ (1 <<< (128 - prefixLen) - 1)

def ipv6InCidr (address : String) (cidr : CidrLiteral) : Bool :=
  match parseIPv6 address, parseIPv6 cidr.base with
  | some addressValue, some baseValue =>
    if cidr.prefixLen = 0 then true
    else addressValue &&& ipv6Mask cidr.prefixLen == baseValue &&& ipv6Mask cidr.prefixLen
  | _, _ => false

def tailnetAddressKind (address : String) : Option TailnetAddressKind :=
  if ipv4InCidr address tailscaleCgnatV4Cidr then some .cgnatV4
  else if ipv6InCidr address tailscaleUlaV6Cidr then some .tailscaleUlaV6
  else none

def isPrivateTailnetAddress (address : String) : Bool := (tailnetAddressKind address).isSome

example : isPrivateTailnetAddress "100.127.255.255" = true ∧
    isPrivateTailnetAddress "FD7A:115C:A1E0::1" = true ∧
    isPrivateTailnetAddress "100.128.0.0" = false := by decide +kernel

/-!
## Desired records

What a domain's intent says should exist: address records for the apex and the wildcard, the mail
provider's set, and a reviewed CAA policy. A tunnel client answers through its fronting node, so the
address is found by walking the chain; a chain that is broken, too long or ends at a private address
is an error.
-/

structure HostingTargetNode where
  id : HostingTargetId
  name : String
  controlSurface : ControlSurface
  addressV4 : Option String
  addressV6 : Option String
  frontedByTargetId : Option HostingTargetId

structure CaaPolicy where
  reviewed : Bool
  issuers : List String
  wildcardIssuers : List String
  iodef : Option String

structure DesiredRecord where
  type : DnsLabel
  name : DnsLabel
  content : String
  ttlSeconds : Option ℤ
  priority : Option ℤ
  proxied : Bool
  owner : DnsRecordOwner

structure MailRequiredRecord where
  type : DnsLabel
  name : DnsLabel
  content : String
  ttlSeconds : Option ℤ
  priority : Option ℤ

structure MaterializeDomain where
  name : String
  apexTargetId : Option HostingTargetId
  apexProxied : Bool
  wildcardProxied : Bool
  mailEnabled : Bool

structure DnsCapabilities where
  proxying : Bool
  proxiedWildcards : Bool
  proxiableTypes : List DnsLabel

structure MaterializeInput where
  domain : MaterializeDomain
  targets : HostingTargetId → Option HostingTargetNode
  caaPolicy : CaaPolicy
  mailRecords : Option (List MailRequiredRecord)
  capabilities : DnsCapabilities

structure ResolvedHostingAddress where
  addressV4 : Option String
  addressV6 : Option String
  sourceTargetId : HostingTargetId
  hops : ℕ

def maxFrontingHops : ℕ := 8

/-! ### The fronting chain -/

section Resolve

variable (target : HostingTargetNode) (targets : HostingTargetId → Option HostingTargetNode)

def walkFronting : ℕ → List HostingTargetId → HostingTargetNode →
    InfrastructureResult (HostingTargetNode × ℕ)
  | left, seen, current =>
    if current.controlSurface ≠ .tunnelClient then .ok (current, maxFrontingHops - left)
    else
      match current.frontedByTargetId with
      | none => .error (.materialization
          s!"hosting target \"{current.name}\" is a tunnel client with no fronting node")
      | some nextId =>
        if nextId ∈ seen then .error (.materialization
          s!"hosting target \"{current.name}\" is part of a fronting cycle")
        else
          match targets nextId with
          | none => .error (.materialization
              (s!"hosting target \"{current.name}\" is fronted by a target that was not " ++
                "supplied"))
          | some next =>
            match left with
            | 0 => .error (.materialization
                s!"hosting target \"{target.name}\" exceeded the fronting hop limit")
            | left + 1 => walkFronting left (nextId :: seen) next

def resolveHostingAddress : InfrastructureResult ResolvedHostingAddress := do
  let (current, hops) ← walkFronting target targets maxFrontingHops [target.id] target
  Except.require (current.addressV4.bind tailnetAddressKind = none ∧
      current.addressV6.bind tailnetAddressKind = none)
    (InfrastructureError.materialization (s!"hosting target \"{current.name}\" has a private " ++
      "Tailscale-range address and cannot be published as a DNS record — a tailnet address can " ++
      "only answer for devices on that tailnet, never for a public name"))
  Except.require (¬ (current.addressV4 = none ∧ current.addressV6 = none))
    (InfrastructureError.materialization
      s!"hosting target \"{current.name}\" has no address to publish")
  return ⟨current.addressV4, current.addressV6, current.id, hops⟩

end Resolve

/-! ### The records -/

def caaContent (tag value : String) : String := s!"0 {tag} \"{value}\""

def caaRecord (tag value : String) : DesiredRecord where
  type := ⟨"CAA", by decide⟩
  name := ⟨"@", by decide⟩
  content := caaContent tag value
  ttlSeconds := none
  priority := none
  proxied := false
  owner := .caa

def materializeCaaRecords (policy : CaaPolicy) : List DesiredRecord :=
  if policy.reviewed = false then []
  else
    policy.issuers.map (caaRecord "issue") ++ policy.wildcardIssuers.map (caaRecord "issuewild") ++
      policy.iodef.toList.map (caaRecord "iodef")

def mailDesiredRecord (record : MailRequiredRecord) : DesiredRecord where
  type := record.type
  name := record.name
  content := record.content
  ttlSeconds := record.ttlSeconds
  priority := record.priority
  proxied := false
  owner := .mail

inductive AddressRecordKind
  | apex
  | wildcard
  deriving DecidableEq

def AddressRecordKind.text : AddressRecordKind → String
  | .apex => "apex"
  | .wildcard => "wildcard"

def AddressRecordKind.name : AddressRecordKind → DnsLabel
  | .apex => ⟨"@", by decide⟩
  | .wildcard => ⟨"*", by decide⟩

def AddressRecordKind.owner : AddressRecordKind → DnsRecordOwner
  | .apex => .apex
  | .wildcard => .wildcard

section Records

variable (input : MaterializeInput)

def assertProxyingSupported (proxied : Bool) (what : AddressRecordKind) (type : DnsLabel) :
    InfrastructureResult Unit := do
  if proxied = false then return ()
  Except.require (input.capabilities.proxying = true)
    (InfrastructureError.materialization (s!"the DNS provider for \"{input.domain.name}\" cannot " ++
      s!"proxy records, but {what.text} proxying is intended"))
  Except.require (¬ (what = .wildcard ∧ input.capabilities.proxiedWildcards = false))
    (InfrastructureError.materialization (s!"the DNS provider for \"{input.domain.name}\" cannot " ++
      "proxy WILDCARD records, but wildcard proxying is intended"))
  Except.require (type ∈ input.capabilities.proxiableTypes)
    (InfrastructureError.materialization
      s!"the DNS provider for \"{input.domain.name}\" cannot proxy a {type.text} record")

def MaterializeDomain.proxiedFor (domain : MaterializeDomain) : AddressRecordKind → Bool
  | .apex => domain.apexProxied
  | .wildcard => domain.wildcardProxied

def addressRecord (type : DnsLabel) (address : String) (what : AddressRecordKind) :
    InfrastructureResult DesiredRecord := do
  assertProxyingSupported input (input.domain.proxiedFor what) what type
  return {
    type := type
    name := what.name
    content := address
    ttlSeconds := none
    priority := none
    proxied := input.domain.proxiedFor what
    owner := what.owner }

def addressRecords (type : DnsLabel) (address : Option String) :
    InfrastructureResult (List DesiredRecord) :=
  match address with
  | none => .ok []
  | some address => do
    let apex ← addressRecord input type address .apex
    let wildcard ← addressRecord input type address .wildcard
    return [apex, wildcard]

def materializeAddressRecords : InfrastructureResult (List DesiredRecord) :=
  match input.domain.apexTargetId with
  | none => .ok []
  | some apexTargetId =>
    match input.targets apexTargetId with
    | none => .error (.materialization
        (s!"domain \"{input.domain.name}\" points at a hosting target that was not supplied"))
    | some target => do
      Except.require (target.controlSurface ≠ .none)
        (InfrastructureError.materialization (s!"domain \"{input.domain.name}\" points at " ++
          s!"hosting target \"{target.name}\", whose control surface is 'none'"))
      let resolved ← resolveHostingAddress target input.targets
      let v4 ← addressRecords input ⟨"A", by decide⟩ resolved.addressV4
      let v6 ← addressRecords input ⟨"AAAA", by decide⟩ resolved.addressV6
      return v4 ++ v6

def materializeMailRecords : List DesiredRecord :=
  if input.domain.mailEnabled = true then
    (input.mailRecords.getD []).map mailDesiredRecord
  else []

def materializeDesiredRecords : InfrastructureResult (List DesiredRecord) := do
  let addresses ← materializeAddressRecords input
  return addresses ++ materializeMailRecords input ++ materializeCaaRecords input.caaPolicy

end Records

/-! ### The mail provider's set -/

def purelymailDkimSelectors : List (DnsLabel × String) :=
  [(⟨"purelymail1._domainkey", by decide⟩, "key1.dkimroot.purelymail.com"),
    (⟨"purelymail2._domainkey", by decide⟩, "key2.dkimroot.purelymail.com"),
    (⟨"purelymail3._domainkey", by decide⟩, "key3.dkimroot.purelymail.com")]

def purelymailBaseRecords : List MailRequiredRecord :=
  [⟨⟨"MX", by decide⟩, ⟨"@", by decide⟩, "mailserver.purelymail.com", none, some 50⟩,
    ⟨⟨"TXT", by decide⟩, ⟨"@", by decide⟩, "v=spf1 include:_spf.purelymail.com ~all", none, none⟩] ++
  purelymailDkimSelectors.map (fun selector =>
    ⟨⟨"CNAME", by decide⟩, selector.1, selector.2, none, none⟩) ++
  [⟨⟨"CNAME", by decide⟩, ⟨"_dmarc", by decide⟩, "dmarcroot.purelymail.com", none, none⟩]

def purelymailRequiredRecords (ownershipCode : Option String) : List MailRequiredRecord :=
  match ownershipCode with
  | none => purelymailBaseRecords
  | some code =>
    if code = "" then purelymailBaseRecords
    else purelymailBaseRecords ++ [⟨⟨"TXT", by decide⟩, ⟨"@", by decide⟩, code, none, none⟩]

/-! ### The input of a run -/

def AddressTables.nodeOf (t : AddressTables) (row : HostingTargetRow) : HostingTargetNode :=
  let wan := wanAddressPair (t.addresses.filter (·.hostingTargetId == row.id))
  { id := row.id
    name := row.name
    controlSurface := row.controlSurface
    addressV4 := wan.addressV4
    addressV6 := wan.addressV6
    frontedByTargetId := row.frontedByTargetId }

/-- The nodes by id, as `buildMaterializeInput` collects them. -/
def AddressTables.nodes (t : AddressTables) (id : HostingTargetId) : Option HostingTargetNode :=
  (t.targets.find? (·.id == id)).map t.nodeOf

end Loxep

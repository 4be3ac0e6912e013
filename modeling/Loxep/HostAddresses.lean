import Loxep.Calendar
import Loxep.Errors
import Loxep.Lib.Except
import Loxep.Text

/-!
# Hosting targets and their addresses

A target carries any number of addresses, declared by an operator or observed by a provider. What is
published are declared addresses of kind wan alone. A target that must be addressable may not lose
its last one: the calls that could remove it read the others first, in statements of their own.
-/

namespace Loxep

abbrev HostingTargetId := ℕ
abbrev HostAddressId := ℕ

inductive ControlSurface
  | proxyNode
  | tunnelClient
  | directReverseProxy
  | none
  deriving DecidableEq

inductive HostAddressKind
  | wan
  | lan
  | tailnet
  | other
  deriving DecidableEq

inductive HostAddressFamily
  | v4
  | v6
  deriving DecidableEq

/-- `provenance`, with `observed_at`, which an observed address alone carries. -/
inductive AddressProvenance
  | operatorDeclared
  | observed (provider : String) (observedAt : Timestamp)
  deriving DecidableEq

/-- `observed:<provider>`. -/
def AddressProvenance.provider : AddressProvenance → Option String
  | .operatorDeclared => none
  | .observed provider _ => some provider

def AddressProvenance.seenAt (now : Timestamp) : AddressProvenance → AddressProvenance
  | .operatorDeclared => .operatorDeclared
  | .observed provider _ => .observed provider now

structure HostingTargetRow where
  id : HostingTargetId
  name : String
  controlSurface : ControlSurface
  frontedByTargetId : Option HostingTargetId
  proxyConnectionId : Option ℕ
  externalSiteId : Option String
  decommissionedAt : Option Timestamp

structure HostAddressRow where
  id : HostAddressId
  hostingTargetId : HostingTargetId
  kind : HostAddressKind
  family : HostAddressFamily
  /-- The text of an `inet`. -/
  value : String
  provenance : AddressProvenance
  isPrimary : Bool

def HostAddressRow.declaredWan (row : HostAddressRow) : Bool :=
  row.kind == .wan && row.provenance == .operatorDeclared

/-- How PostgreSQL reads the literal of an `inet`: its family, and the text it prints. -/
abbrev InetReader := String → Option (HostAddressFamily × String)

structure AddressTables where
  targets : List HostingTargetRow
  addresses : List HostAddressRow

def invalidAddressInput (path : String) : InfrastructureError := .other path

namespace AddressTables

variable (inet : InetReader) (t : AddressTables)

/-! ## The table of addresses -/

/-- The unique indexes of `host_addresses`. -/
def uniqueAddresses (rows : List HostAddressRow) : InfrastructureResult Unit := do
  Except.require (rows.map fun r => (r.hostingTargetId, r.kind, r.family, r.value)).Nodup
    (InfrastructureError.database "host_addresses_kind_family_value_uq")
  Except.require ((rows.filter (·.provenance.provider.isSome)).map fun r =>
      (r.hostingTargetId, r.kind, r.family, r.provenance.provider)).Nodup
    (InfrastructureError.database "host_addresses_observed_slot_uq")
  Except.require ((rows.filter (·.isPrimary)).map fun r =>
      (r.hostingTargetId, r.kind, r.family)).Nodup
    (InfrastructureError.database "host_addresses_primary_uq")

def readInet (family : HostAddressFamily) (value : String) : InfrastructureResult String :=
  match inet value with
  | none => .error (.database "invalid input syntax for type inet")
  | some (found, text) =>
    if found = family then .ok text
    else .error (.database "host_addresses_family_matches_value_check")

def insertAddress (row : HostAddressRow) : InfrastructureResult AddressTables := do
  let text ← readInet inet row.family row.value
  Except.require (row.id ∉ t.addresses.map (·.id))
    (InfrastructureError.database "host_addresses_pkey")
  Except.require (row.hostingTargetId ∈ t.targets.map (·.id))
    (InfrastructureError.database "host_addresses_hosting_target_id_hosting_targets_id_fk")
  uniqueAddresses (t.addresses ++ [{ row with value := text }])
  return { t with addresses := t.addresses ++ [{ row with value := text }] }

def updateAddress (id : HostAddressId) (f : HostAddressRow → HostAddressRow) :
    InfrastructureResult AddressTables := do
  Except.require (id ∈ t.addresses.map (·.id))
    (InfrastructureError.other "host address update returned no row")
  uniqueAddresses (t.addresses.map fun r => if r.id = id then f r else r)
  return { t with addresses := t.addresses.map fun r => if r.id = id then f r else r }

def clearPrimary (target : HostingTargetId) (kind : HostAddressKind) (family : HostAddressFamily)
    : AddressTables :=
  { t with
    addresses := t.addresses.map fun r =>
      if r.hostingTargetId = target ∧ r.kind = kind ∧ r.family = family then
        { r with isPrimary := false }
      else r }

/-! ## What the calls read -/

def requireRow (id : HostAddressId) : InfrastructureResult HostAddressRow :=
  match t.addresses.find? (·.id == id) with
  | none => .error (.notFound s!"host address {id} not found")
  | some row => .ok row

def requireTarget (id : HostingTargetId) : InfrastructureResult HostingTargetRow :=
  match t.targets.find? (·.id == id) with
  | none => .error (.notFound s!"hosting target {id} not found")
  | some row => .ok row

def declaredWanOf (target : HostingTargetId) : List HostAddressRow :=
  t.addresses.filter fun r => r.hostingTargetId == target && r.declaredWan

def assertSurvives (target : HostingTargetRow) (excludeAddressId : HostAddressId) :
    InfrastructureResult Unit :=
  Except.require (∃ row ∈ t.declaredWanOf target.id, row.id ≠ excludeAddressId)
    (InfrastructureError.validation (s!"hosting target \"{target.name}\" needs at least one " ++
      "operator-declared WAN address (or a fronting node, or control_surface 'none')"))

end AddressTables

def HostingTargetRow.mustBeAddressable (target : HostingTargetRow) : Bool :=
  target.controlSurface ≠ .none && target.frontedByTargetId.isNone

/-! ## The calls -/

structure DeclareHostAddressInput where
  kind : HostAddressKind
  family : HostAddressFamily
  value : String
  isPrimary : Option Bool

structure UpsertObservedHostAddressInput where
  hostingTargetId : HostingTargetId
  kind : HostAddressKind
  family : HostAddressFamily
  value : String
  provider : String
  isPrimary : Option Bool

structure CreateHostingTargetInput where
  name : String
  controlSurface : ControlSurface
  addressV4 : Option String
  addressV6 : Option String
  frontedByTargetId : Option HostingTargetId
  proxyConnectionId : Option ℕ
  externalSiteId : Option String

/-- `createSchema`. -/
def CreateHostingTargetInput.parse (value : CreateHostingTargetInput) :
    InfrastructureResult CreateHostingTargetInput := do
  Except.require (trim value.name ≠ "") (invalidAddressInput "name")
  Except.require (∀ address ∈ value.addressV4, trim address ≠ "") (invalidAddressInput "addressV4")
  Except.require (∀ address ∈ value.addressV6, trim address ≠ "") (invalidAddressInput "addressV6")
  Except.require (∀ site ∈ value.externalSiteId, trim site ≠ "")
    (invalidAddressInput "externalSiteId")
  Except.require ((value.controlSurface = .tunnelClient) ↔ value.frontedByTargetId.isSome = true)
    (InfrastructureError.other ("frontedByTargetId: control_surface 'tunnel_client' requires a " ++
      "fronting node, and only a tunnel client may have one"))
  return { value with
    name := trim value.name
    addressV4 := value.addressV4.map trim
    addressV6 := value.addressV6.map trim
    externalSiteId := value.externalSiteId.map trim }

inductive AddressCall
  | declare (hostingTargetId : HostingTargetId) (input : DeclareHostAddressInput)
  | classify (id : HostAddressId) (kind : HostAddressKind)
  | setPrimary (id : HostAddressId)
  | remove (id : HostAddressId)
  | upsertObserved (input : UpsertObservedHostAddressInput)
  | create (input : CreateHostingTargetInput)
  | updateProxyConnection (id : HostingTargetId) (proxyConnectionId : Option ℕ)
      (externalSiteId : Option String)
  | decommission (id : HostingTargetId)

inductive AddressStage
  | start
  /-- The target of the address is to be read. -/
  | guarding (before : HostAddressRow)
  /-- The others of the target are to be counted. -/
  | counting (before : HostAddressRow) (target : HostingTargetRow)
  /-- The addresses of the fronting node are to be read. -/
  | fronting (node : HostingTargetRow)
  /-- The observed address of the slot is to be read. -/
  | slot
  | write (before : Option HostAddressRow)
  | ended

/-- The ids and the time a call takes from outside when it writes. -/
structure AddressDraw where
  targetId : HostingTargetId
  addressId : HostAddressId
  secondAddressId : HostAddressId
  now : Timestamp

namespace AddressTables

variable (inet : InetReader) (t : AddressTables)

def readBefore (id : HostAddressId) (leaves : Bool) : InfrastructureResult AddressStage := do
  let before ← t.requireRow id
  return if before.declaredWan && leaves then .guarding before else .write (some before)

def readFirst : AddressCall → InfrastructureResult AddressStage
  | .declare target input => do
    Except.require (trim input.value ≠ "") (invalidAddressInput "value")
    let _ ← t.requireTarget target
    return .write none
  | .classify id kind => t.readBefore id (kind ≠ .wan)
  | .setPrimary id => do
    let before ← t.requireRow id
    return .write (some before)
  | .remove id => t.readBefore id true
  | .upsertObserved input => do
    Except.require (trim input.value ≠ "") (invalidAddressInput "value")
    Except.require (trim input.provider ≠ "") (invalidAddressInput "provider")
    let _ ← t.requireTarget input.hostingTargetId
    return .slot
  | .create input => do
    let parsed ← input.parse
    match parsed.frontedByTargetId with
    | none => return .write none
    | some frontedByTargetId =>
      let node ← t.requireTarget frontedByTargetId
      Except.require (node.decommissionedAt = none)
        (InfrastructureError.validation (s!"hosting target \"{node.name}\" is decommissioned and " ++
          "cannot front another target"))
      Except.require (node.frontedByTargetId = none)
        (InfrastructureError.validation (s!"hosting target \"{node.name}\" is itself fronted; the " ++
          "fronting relationship is ONE hop"))
      return .fronting node
  | .updateProxyConnection id _ externalSiteId => do
    Except.require (∀ site ∈ externalSiteId, trim site ≠ "") (invalidAddressInput "externalSiteId")
    let _ ← t.requireTarget id
    return .write none
  | .decommission id => do
    let _ ← t.requireTarget id
    return .write none

def readNext (call : AddressCall) : AddressStage → InfrastructureResult AddressStage
  | .start => t.readFirst call
  | .guarding before => do
    let target ← t.requireTarget before.hostingTargetId
    return if target.mustBeAddressable then .counting before target else .write (some before)
  | .counting before target => do
    t.assertSurvives target before.id
    return .write (some before)
  | .fronting node => do
    Except.require (t.declaredWanOf node.id ≠ [])
      (InfrastructureError.validation (s!"hosting target \"{node.name}\" has no address and cannot " ++
        "front another target"))
    return .write none
  | .slot =>
    match call with
    | .upsertObserved input =>
      .ok (.write (t.addresses.find? fun r =>
        r.hostingTargetId == input.hostingTargetId && r.kind == input.kind &&
          r.family == input.family && r.provenance.provider == some (trim input.provider)))
    | _ => .ok .ended
  | .write before => .ok (.write before)
  | .ended => .ok .ended

/-! ## What the calls write -/

def writeDeclare (target : HostingTargetId) (input : DeclareHostAddressInput) (draw : AddressDraw)
    : InfrastructureResult AddressTables :=
  let cleared := if input.isPrimary = some true then t.clearPrimary target input.kind input.family
    else t
  cleared.insertAddress inet
    { id := draw.addressId
      hostingTargetId := target
      kind := input.kind
      family := input.family
      value := trim input.value
      provenance := .operatorDeclared
      isPrimary := input.isPrimary.getD false }

def writeSetPrimary (id : HostAddressId) (before : HostAddressRow) :
    InfrastructureResult AddressTables :=
  AddressTables.updateAddress
    { t with
      addresses := t.addresses.map fun r =>
        if r.hostingTargetId = before.hostingTargetId ∧ r.kind = before.kind ∧
            r.family = before.family ∧ r.id ≠ id then
          { r with isPrimary := false }
        else r } id fun r => { r with isPrimary := true }

def removeAddress (id : HostAddressId) : AddressTables :=
  { t with addresses := t.addresses.filter (·.id ≠ id) }

def writeObserved (input : UpsertObservedHostAddressInput) (current : Option HostAddressRow)
    (draw : AddressDraw) : InfrastructureResult AddressTables := do
  let cleared := if input.isPrimary = some true then
      t.clearPrimary input.hostingTargetId input.kind input.family
    else t
  match current with
  | none =>
    cleared.insertAddress inet
      { id := draw.addressId
        hostingTargetId := input.hostingTargetId
        kind := input.kind
        family := input.family
        value := trim input.value
        provenance := .observed (trim input.provider) draw.now
        isPrimary := input.isPrimary.getD false }
  | some row => do
    let text ← readInet inet row.family (trim input.value)
    Except.require (∀ r ∈ t.addresses, r.id = row.id → r.provenance ≠ .operatorDeclared)
      (InfrastructureError.database "host_addresses_observed_at_check")
    cleared.updateAddress row.id fun r =>
      { r with
        value := text
        provenance := r.provenance.seenAt draw.now
        isPrimary := input.isPrimary.getD r.isPrimary }

def insertTarget (parsed : CreateHostingTargetInput) (id : HostingTargetId) :
    InfrastructureResult AddressTables := do
  Except.require (id ∉ t.targets.map (·.id)) (InfrastructureError.database "hosting_targets_pkey")
  Except.require (parsed.name ∉ t.targets.map (·.name))
    (InfrastructureError.database "hosting_targets_name_uq")
  Except.require (∀ node ∈ parsed.frontedByTargetId, node ∈ t.targets.map (·.id))
    (InfrastructureError.database "hosting_targets_fronted_by_target_fk")
  return { t with
    targets := t.targets ++ [
      { id := id
        name := parsed.name
        controlSurface := parsed.controlSurface
        frontedByTargetId := parsed.frontedByTargetId
        proxyConnectionId := parsed.proxyConnectionId
        externalSiteId := parsed.externalSiteId
        decommissionedAt := none }] }

def insertInline (target : HostingTargetId) (id : HostAddressId) (family : HostAddressFamily)
    (value : Option String) : InfrastructureResult AddressTables :=
  match value with
  | none => .ok t
  | some value =>
    t.insertAddress inet
      { id := id
        hostingTargetId := target
        kind := .wan
        family := family
        value := value
        provenance := .operatorDeclared
        isPrimary := true }

def writeCreate (input : CreateHostingTargetInput) (draw : AddressDraw) :
    InfrastructureResult AddressTables := do
  let parsed ← input.parse
  Except.require (parsed.controlSurface = .none ∨ parsed.frontedByTargetId.isSome = true ∨
      parsed.addressV4.isSome = true ∨ parsed.addressV6.isSome = true)
    (InfrastructureError.validation (s!"hosting target \"{parsed.name}\" needs an " ++
      "operator-declared WAN address (or a fronting node, or control_surface 'none')"))
  let inserted ← t.insertTarget parsed draw.targetId
  let first ← inserted.insertInline inet draw.targetId draw.addressId .v4 parsed.addressV4
  first.insertInline inet draw.targetId draw.secondAddressId .v6 parsed.addressV6

def updateTarget (id : HostingTargetId) (f : HostingTargetRow → HostingTargetRow) :
    AddressTables :=
  { t with targets := t.targets.map fun r => if r.id = id then f r else r }

def write (call : AddressCall) (before : Option HostAddressRow) (draw : AddressDraw) :
    InfrastructureResult AddressTables :=
  match call, before with
  | .declare target input, _ => t.writeDeclare inet target input draw
  | .classify id kind, _ => t.updateAddress id fun r => { r with kind := kind }
  | .setPrimary id, some before => t.writeSetPrimary id before
  | .setPrimary _, none => .ok t
  | .remove id, _ => .ok (t.removeAddress id)
  | .upsertObserved input, current => t.writeObserved inet input current draw
  | .create input, _ => t.writeCreate inet input draw
  | .updateProxyConnection id proxyConnectionId externalSiteId, _ =>
    .ok (t.updateTarget id fun r =>
      { r with proxyConnectionId := proxyConnectionId, externalSiteId := externalSiteId.map trim })
  | .decommission id, _ =>
    .ok (t.updateTarget id fun r => { r with decommissionedAt := some draw.now })

end AddressTables

/-! ## Concurrent calls -/

/-- Calls at READ COMMITTED: each reads what is committed when its statement starts, and writes with
its commit. -/
structure AddressRun (n : ℕ) where
  tables : AddressTables
  stages : Fin n → AddressStage

namespace AddressRun

variable {n : ℕ} (inet : InetReader) (calls : Fin n → AddressCall) (s : AddressRun n)

def step (advance : Fin n × AddressDraw) : AddressRun n :=
  match s.stages advance.1 with
  | .ended => s
  | .write before =>
    { tables := match s.tables.write inet (calls advance.1) before advance.2 with
        | .ok t => t
        | .error _ => s.tables
      stages := Function.update s.stages advance.1 .ended }
  | stage =>
    { s with
      stages := Function.update s.stages advance.1
        (match s.tables.readNext (calls advance.1) stage with
          | .ok next => next
          | .error _ => .ended) }

end AddressRun

/-! ## What is published of a target -/

structure AddressPair where
  addressV4 : Option String
  addressV6 : Option String

def pickAddress (candidates : List HostAddressRow) : Option String :=
  ((candidates.find? (·.isPrimary)).or candidates.head?).map (·.value)

def wanAddressPair (addresses : List HostAddressRow) : AddressPair :=
  let declaredWan := addresses.filter (·.declaredWan)
  ⟨pickAddress (declaredWan.filter (·.family == .v4)),
    pickAddress (declaredWan.filter (·.family == .v6))⟩

end Loxep

import Loxep.HostAddresses
import Loxep.Notifications
import Loxep.RecordSync

/-!
# Named addresses

An alias names an address that proxy rules refer to as `alias:<name>`. The operator types the
address, or a detector reads it from DNS or from a Pangolin site. All aliases are one setting, a map
from names to entries.
-/

namespace Loxep

abbrev AliasName := String
abbrev Address := String

inductive IpAliasSource
  | manual
  | dns
  | pangolinSite
  deriving DecidableEq

structure IpAliasEntry where
  address : Address
  source : IpAliasSource
  hostname : Option String := none
  connectionId : Option String := none
  siteId : Option String := none
  previousAddress : Option Address := none
  /-- The instant a detector last saw the address. -/
  observedAt : Option ℕ := none
  /-- The instant the operator last created or edited the alias. -/
  confirmedAt : Option ℕ := none
  autoApply : Bool := false
  deriving DecidableEq

abbrev IpAliasMap := List (AliasName × IpAliasEntry)

namespace IpAliasMap

def find (m : IpAliasMap) (name : AliasName) : Option IpAliasEntry :=
  (KeyedTable.get Prod.fst m name).map (·.2)

/-- `{ ...m, [name]: entry }`. -/
def put (m : IpAliasMap) (name : AliasName) (entry : IpAliasEntry) : IpAliasMap :=
  KeyedTable.upsert Prod.fst m (name, entry) fun _ => (name, entry)

/-- `delete m[name]`. -/
def erase (m : IpAliasMap) (name : AliasName) : IpAliasMap :=
  m.filter fun row => decide (row.1 ≠ name)

end IpAliasMap

/-! ## The schema of the setting -/

/-- `[a-z0-9_-]`. -/
def isAliasChar (c : Char) : Bool := c.isLower || c.isDigit || c == '_' || c == '-'

/-- `/^[a-z][a-z0-9_-]*$/`, of 64 characters at most. -/
def validAliasName (name : AliasName) : Bool :=
  match name.toList with
  | [] => false
  | c :: cs => c.isLower && cs.all isAliasChar && decide (cs.length < 64)

/-- `z.string().min(1).nullable()`. -/
def validOptionalText (text : Option String) : Bool := text.all (· != "")

def IpAliasEntry.valid (entry : IpAliasEntry) : Bool :=
  entry.address != "" && validOptionalText entry.hostname &&
    validOptionalText entry.connectionId && validOptionalText entry.siteId &&
    validOptionalText entry.previousAddress

/-- `ipAliasesSchema`. -/
def IpAliasMap.valid (m : IpAliasMap) : Bool :=
  m.all fun row => validAliasName row.1 && row.2.valid

def ipAliasReferencePrefix : String := "alias:"

def formatIpAliasReference (name : AliasName) : String := ipAliasReferencePrefix ++ name

/-! ## The detectors -/

/-- `/^\d{1,3}(?:\.\d{1,3}){3}$/`. -/
def isDottedQuad (text : List Char) : Bool :=
  let parts := text.splitOn '.'
  decide (parts.length = 4) &&
    parts.all fun part => decide (1 ≤ part.length ∧ part.length ≤ 3) && part.all (·.isDigit)

/-- A bare IPv4 literal or an `ipv4:port` pair. -/
def extractAddressFromPangolinEndpoint (endpoint : String) : Option Address :=
  match endpoint.toList.splitOn ':' with
  | [quad] => if isDottedQuad quad then some endpoint else none
  | [quad, port] =>
    if isDottedQuad quad && port ≠ [] && port.all (·.isDigit) then some (String.ofList quad)
    else none
  | _ => none

example : extractAddressFromPangolinEndpoint "203.0.113.4:51820" = some "203.0.113.4" := by decide

/-- What the outside answers a detector: the addresses of the hostname and the endpoint of the site.
-/
structure DetectorReading where
  addresses : Option (List Address) := none
  endpoint : Option String := none

def detectDnsAddress (reading : DetectorReading) : Option Address :=
  reading.addresses.bind List.head?

def detectPangolinSiteAddress (entry : IpAliasEntry) (reading : DetectorReading) :
    Option Address :=
  if entry.connectionId = none ∨ entry.siteId = none then none
  else reading.endpoint.bind extractAddressFromPangolinEndpoint

def detectAddress (entry : IpAliasEntry) (reading : DetectorReading) : Option Address :=
  match entry.source with
  | .manual => none
  | .dns => if entry.hostname = none then none else detectDnsAddress reading
  | .pangolinSite => detectPangolinSiteAddress entry reading

def IpAliasEntry.observed (entry : IpAliasEntry) (address : Address) (now : ℕ) : IpAliasEntry :=
  { entry with
    address
    previousAddress := some entry.address
    observedAt := some now }

/-! ## The rules that refer to an alias -/

abbrev ProxyResourceId := ℕ

inductive ProxyResourceRuleOwner
  | template
  | manual
  | dynamicIp
  deriving DecidableEq

structure IpAliasFanOutRuleInput where
  action : String
  match_ : String
  priority : ℕ
  enabled : Bool

structure ProxyRuleRow extends IpAliasFanOutRuleInput where
  resourceId : ProxyResourceId
  hostingTargetId : HostingTargetId
  owner : ProxyResourceRuleOwner := .manual
  value : String

/-- The rows come in the order their resources were created. -/
def listRulesReferencingAlias (rules : List ProxyRuleRow) (aliasReference : String) :
    List ProxyRuleRow :=
  rules.filter fun rule => decide (rule.owner = .dynamicIp) && rule.value == aliasReference

/-! ## The plan of a changed address -/

structure ProxyRulePayload where
  action : String
  match_ : String
  value : String
  priority : ℕ
  enabled : Bool
  deriving DecidableEq

structure ObservedProxyRule extends ProxyRulePayload where
  externalRuleId : String
  deriving DecidableEq

/-- `observed` holds the rules of the resource, none while the provider has no such resource. -/
structure IpAliasFanOutResourceInput where
  proxyResourceId : ProxyResourceId
  observed : Option (List ObservedProxyRule)
  rules : List IpAliasFanOutRuleInput

structure IpAliasFanOutRuleAction where
  proxyResourceId : ProxyResourceId
  add : ProxyRulePayload
  retire : Option ObservedProxyRule

structure IpAliasFanOutPlan where
  aliasName : AliasName
  previousAddress : Option Address
  newAddress : Address
  actions : List IpAliasFanOutRuleAction
  resourceCount : ℕ
  ruleCount : ℕ

structure IpAliasFanOutInput where
  aliasName : AliasName
  previousAddress : Option Address
  newAddress : Address
  resources : List IpAliasFanOutResourceInput

def ipAliasCidrValue (address : Address) : String := address ++ "/32"

namespace IpAliasFanOutInput

variable (input : IpAliasFanOutInput)

def live (rule : IpAliasFanOutRuleInput) (r : ObservedProxyRule) : Bool :=
  r.enabled && r.action == rule.action && r.match_ == rule.match_ &&
    some r.value == input.previousAddress.map ipAliasCidrValue

def observedRule (resource : IpAliasFanOutResourceInput) (rule : IpAliasFanOutRuleInput) :
    Option ObservedProxyRule :=
  resource.observed.bind fun rules => rules.find? (input.live rule)

def action (resource : IpAliasFanOutResourceInput) (rule : IpAliasFanOutRuleInput) :
    IpAliasFanOutRuleAction where
  proxyResourceId := resource.proxyResourceId
  add := ⟨rule.action, rule.match_, ipAliasCidrValue input.newAddress, rule.priority, rule.enabled⟩
  retire := (input.observedRule resource rule).map fun r => { r with enabled := false }

def entries : List (IpAliasFanOutResourceInput × IpAliasFanOutRuleInput) :=
  input.resources.flatMap fun resource => resource.rules.map fun rule => (resource, rule)

end IpAliasFanOutInput

def planIpAliasFanOut (input : IpAliasFanOutInput) : IpAliasFanOutPlan :=
  let actions := input.entries.map fun entry => input.action entry.1 entry.2
  { aliasName := input.aliasName
    previousAddress := input.previousAddress
    newAddress := input.newAddress
    actions
    resourceCount := (actions.map (·.proxyResourceId)).dedup.length
    ruleCount := actions.length }

/-! ## The event of a changed address -/

structure IpAliasChangedPayload where
  aliasName : AliasName
  previousAddress : Option Address
  newAddress : Address
  resourceCount : ℕ
  ruleCount : ℕ
  autoApplied : Bool

structure IpAliasEventRow extends RecordNotificationEventInput where
  occurredAt : ℕ
  payload : IpAliasChangedPayload

/-- `ip-alias-changed:<name>:<previous>-><new>`. -/
def ipAliasDeduplicationKey (name : AliasName) (previousAddress : Option Address)
    (newAddress : Address) : String :=
  "ip-alias-changed:" ++ (name ++ (":" ++ (previousAddress.getD "none" ++ ("->" ++ newAddress))))

def ipAliasEvent (name : AliasName) (entry : IpAliasEntry) (first : ProxyRuleRow)
    (plan : IpAliasFanOutPlan) (autoApplied : Bool) (now : ℕ) : IpAliasEventRow where
  eventClass := .infrastructure
  eventType := "ip_alias_changed"
  subjectType := .hostingTarget
  subjectId := first.hostingTargetId
  deduplicationKey := .text (ipAliasDeduplicationKey name entry.previousAddress entry.address)
  occurredAt := now
  payload :=
    { aliasName := name
      previousAddress := entry.previousAddress
      newAddress := entry.address
      resourceCount := plan.resourceCount
      ruleCount := plan.ruleCount
      autoApplied }

structure IpAliasDetectionOutcome where
  aliasName : AliasName
  changed : Bool
  previousAddress : Option Address
  newAddress : Option Address
  resourceCount : ℕ
  ruleCount : ℕ
  autoApplied : Bool
  notified : Bool

def noChange (name : AliasName) (entry : IpAliasEntry) : IpAliasDetectionOutcome where
  aliasName := name
  changed := false
  previousAddress := entry.previousAddress
  newAddress := some entry.address
  resourceCount := 0
  ruleCount := 0
  autoApplied := false
  notified := false

theorem validate_ipAliasEvent (name : AliasName) (entry : IpAliasEntry) (first : ProxyRuleRow)
    (plan : IpAliasFanOutPlan) (autoApplied : Bool) (now : ℕ) :
    (ipAliasEvent name entry first plan autoApplied now).validate = true := by
  have hkey : trim (ipAliasDeduplicationKey name entry.previousAddress entry.address) ≠ "" := by
    refine trim_ne_empty (c := 'i') ?_ (by decide)
    unfold ipAliasDeduplicationKey
    rw [String.toList_append]
    exact List.mem_append_left _ (by decide)
  have hblank : (DeduplicationKey.text
      (ipAliasDeduplicationKey name entry.previousAddress entry.address)).isBlank = false := by
    simpa [DeduplicationKey.isBlank] using hkey
  unfold RecordNotificationEventInput.validate ipAliasEvent
  simp only [hblank]
  decide

/-!
## The detection sweep beside the operators

A sweep reads all aliases once, runs their detectors, and where an address has changed writes the
whole map back, reconciles the resources whose rules refer to it, and records an event. Operators
write the whole map back too. Every statement is a step, and a failure or a crash may end a sweep
between any two.
-/

/-! ### The sweep -/

structure SweepContext where
  now : ℕ
  aliases : IpAliasMap
  left : IpAliasMap
  outcomes : List IpAliasDetectionOutcome := []

structure ChangedAlias where
  name : AliasName
  entry : IpAliasEntry

structure FanOut extends ChangedAlias where
  referencing : List ProxyRuleRow
  left : List ProxyRuleRow
  resources : List IpAliasFanOutResourceInput := []
  anyApplied : Bool := false

inductive SweepStage
  /-- The last sweep has returned these; none is under way. -/
  | done (outcomes : List IpAliasDetectionOutcome)
  /-- The job has failed, and is to be run again. -/
  | failed
  | reading (now : ℕ)
  /-- The next alias, if any, is to be detected. -/
  | detecting (context : SweepContext)
  | storing (context : SweepContext) (changed : ChangedAlias)
  | listing (context : SweepContext) (changed : ChangedAlias)
  /-- The provider of the next rule, if any, is to be resolved. -/
  | resolving (context : SweepContext) (fanOut : FanOut)
  | reconciling (context : SweepContext) (fanOut : FanOut) (rule : ProxyRuleRow)
  | recording (context : SweepContext) (fanOut : FanOut) (first : ProxyRuleRow)
  /-- The event is created; it is to be routed to the endpoints. -/
  | routing (context : SweepContext) (fanOut : FanOut)

namespace SweepContext

variable (context : SweepContext)

def push (outcome : IpAliasDetectionOutcome) : SweepContext :=
  { context with outcomes := context.outcomes ++ [outcome] }

def stored (changed : ChangedAlias) : SweepContext :=
  { context with aliases := context.aliases.put changed.name changed.entry }

def detect (reading : DetectorReading) : SweepStage :=
  match context.left with
  | [] => .done context.outcomes
  | (name, entry) :: left =>
    let next := { context with left }
    if entry.source = .manual then .detecting next
    else
      match detectAddress entry reading with
      | none => .detecting (next.push (noChange name entry))
      | some address =>
        if address = entry.address then .detecting (next.push (noChange name entry))
        else .storing next ⟨name, entry.observed address context.now⟩

end SweepContext

namespace FanOut

variable (fanOut : FanOut)

def plan : IpAliasFanOutPlan :=
  planIpAliasFanOut
    ⟨fanOut.name, fanOut.entry.previousAddress, fanOut.entry.address, fanOut.resources⟩

def next (rule : ProxyRuleRow) (left : List ProxyRuleRow)
    (observed : Option (List ObservedProxyRule)) : FanOut :=
  { fanOut with
    left
    resources := fanOut.resources ++
      [⟨rule.resourceId, observed, [rule.toIpAliasFanOutRuleInput]⟩] }

def outcome (notified : Bool) : IpAliasDetectionOutcome where
  aliasName := fanOut.name
  changed := true
  previousAddress := fanOut.entry.previousAddress
  newAddress := some fanOut.entry.address
  resourceCount := fanOut.plan.resourceCount
  ruleCount := fanOut.plan.ruleCount
  autoApplied := fanOut.anyApplied
  notified

def afterRules (context : SweepContext) : SweepStage :=
  match fanOut.referencing with
  | [] => .detecting (context.push (fanOut.outcome false))
  | first :: _ => .recording context fanOut first

end FanOut

def IpAliasEntry.reconcileMode (entry : IpAliasEntry) : ReconcileMode :=
  if entry.autoApply then .apply else .check

/-! ### The operators -/

structure IpAliasForm where
  name : AliasName
  address : Address
  source : IpAliasSource
  hostname : Option String := none
  connectionId : Option String := none
  siteId : Option String := none
  autoApply : Bool := false

def IpAliasForm.entry (form : IpAliasForm) (previousAddress : Option Address)
    (observedAt : Option ℕ) (now : ℕ) : IpAliasEntry where
  address := form.address
  source := form.source
  hostname := form.hostname
  connectionId := form.connectionId
  siteId := form.siteId
  previousAddress
  observedAt
  confirmedAt := some now
  autoApply := if form.source = .manual then false else form.autoApply

inductive OperatorRequest
  | createIpAlias (form : IpAliasForm)
  | updateIpAlias (form : IpAliasForm)
  | deleteIpAlias (name : AliasName)

/-- What an operator's write changes. -/
inductive AliasEdit
  | put (name : AliasName) (entry : IpAliasEntry)
  | erase (name : AliasName)

namespace AliasEdit

def name : AliasEdit → AliasName
  | put name _ | erase name => name

def apply (m : IpAliasMap) : AliasEdit → IpAliasMap
  | put name entry => m.put name entry
  | erase name => m.erase name

end AliasEdit

def OperatorRequest.check (rules : List ProxyRuleRow) : OperatorRequest → Except String Unit
  | deleteIpAlias name =>
    if listRulesReferencingAlias rules (formatIpAliasReference name) = [] then .ok ()
    else .error s!"Alias '{name}' is still referenced by rules — unbind or remove them first."
  | _ => .ok ()

def OperatorRequest.edit (m : IpAliasMap) (now : ℕ) : OperatorRequest → Except String AliasEdit
  | createIpAlias form =>
    match m.find form.name with
    | some _ => .error s!"An alias named '{form.name}' already exists."
    | none => .ok (.put form.name (form.entry none none now))
  | updateIpAlias form =>
    match m.find form.name with
    | none => .error s!"No alias named '{form.name}' exists."
    | some existing =>
      let previousAddress := if existing.address ≠ form.address then some existing.address
        else existing.previousAddress
      .ok (.put form.name (form.entry previousAddress existing.observedAt now))
  | deleteIpAlias name =>
    match m.find name with
    | none => .error s!"No alias named '{name}' exists."
    | some _ => .ok (.erase name)

inductive OperatorStage
  | idle
  /-- The map is to be read. -/
  | reading (request : OperatorRequest)
  /-- The map that was read, and the edit that is to be written with it. -/
  | writing (current : IpAliasMap) (edit : AliasEdit)

/-! ### The system -/

structure AliasChange where
  aliasName : AliasName
  previousAddress : Option Address
  newAddress : Address
  /-- The resources with a rule on the alias, once they are listed. -/
  bound : Option (List ProxyResourceId) := none
  reconciled : List (ProxyResourceId × ReconcileMode) := []
  events : ℕ := 0

abbrev OperatorCallId := ℕ

inductive AliasAction
  | startSweep (now : ℕ)
  /-- A statement that needs no answer from outside. -/
  | proceedSweep
  | detect (reading : DetectorReading)
  /-- Whether the hosting target has a provider, and what that has of the resource. -/
  | resolve (found : Bool) (observed : Option (List ObservedProxyRule) := none)
  /-- What a reconcile has applied, if it has not thrown. -/
  | reconcile (applied : Option ℕ)
  /-- The next statement throws, or the process dies. -/
  | failSweep
  | request (call : OperatorCallId) (operator : OperatorRequest)
  | read (call : OperatorCallId) (now : ℕ)
  | write (call : OperatorCallId)
  | abandon (call : OperatorCallId)
  | setRules (rules : List ProxyRuleRow)

/-- The setting, the rules, the events, the sweep and the operators' calls. Not stored: the changes
made by sweeps, the latest first, the setting as the operators' edits alone make it, and the
aliases that a sweep has written a change of since their last edit. -/
structure AliasSystem where
  setting : IpAliasMap
  rules : List ProxyRuleRow := []
  events : List IpAliasEventRow := []
  sweep : SweepStage := .done []
  operator : OperatorCallId → OperatorStage := fun _ => .idle
  changes : List AliasChange := []
  edited : IpAliasMap
  detected : List AliasName := []

namespace AliasSystem

variable (s : AliasSystem)

def setOperator (call : OperatorCallId) (stage : OperatorStage) : AliasSystem :=
  { s with operator := fun other => if other = call then stage else s.operator other }

def isRecorded (key : DeduplicationKey) : Bool := s.events.any (·.deduplicationKey == key)

def noteChange (f : AliasChange → AliasChange) : AliasSystem :=
  { s with
    changes := match s.changes with
      | [] => []
      | change :: earlier => f change :: earlier }

def storeDetected (context : SweepContext) (changed : ChangedAlias) : AliasSystem :=
  let stored := context.stored changed
  if stored.aliases.valid then
    { s with
      setting := stored.aliases
      sweep := .listing stored changed
      changes := ⟨changed.name, changed.entry.previousAddress, changed.entry.address, none, [], 0⟩
        :: s.changes
      detected := changed.name :: s.detected }
  else { s with sweep := .failed }

def list (context : SweepContext) (changed : ChangedAlias) : AliasSystem :=
  let referencing := listRulesReferencingAlias s.rules (formatIpAliasReference changed.name)
  { s.noteChange fun change =>
      { change with bound := some (referencing.map (·.resourceId)) } with
    sweep := .resolving context { changed with referencing, left := referencing } }

def record (context : SweepContext) (fanOut : FanOut) (first : ProxyRuleRow) : AliasSystem :=
  let event := ipAliasEvent fanOut.name fanOut.entry first fanOut.plan fanOut.anyApplied context.now
  if event.validate = false then { s with sweep := .failed }
  else if s.isRecorded event.deduplicationKey then
    { s with sweep := .detecting (context.push (fanOut.outcome false)) }
  else
    { s.noteChange fun change => { change with events := change.events + 1 } with
      events := s.events ++ [event]
      sweep := .routing context fanOut }

def proceedSweep : AliasSystem :=
  match s.sweep with
  | .reading now => { s with sweep := .detecting { now, aliases := s.setting, left := s.setting } }
  | .storing context changed => s.storeDetected context changed
  | .listing context changed => s.list context changed
  | .resolving context fanOut =>
    if fanOut.left = [] then { s with sweep := fanOut.afterRules context } else s
  | .recording context fanOut first => s.record context fanOut first
  | .routing context fanOut =>
    { s with sweep := .detecting (context.push (fanOut.outcome true)) }
  | _ => s

def resolve (found : Bool) (observed : Option (List ObservedProxyRule)) : AliasSystem :=
  match s.sweep with
  | .resolving context fanOut =>
    match fanOut.left with
    | [] => s
    | rule :: left =>
      { s with
        sweep := if found then .reconciling context (fanOut.next rule left observed) rule
          else .resolving context (fanOut.next rule left none) }
  | _ => s

/-- A reconcile that throws leaves its run behind as well. -/
def reconcile (applied : Option ℕ) : AliasSystem :=
  match s.sweep with
  | .reconciling context fanOut rule =>
    let anyApplied := fanOut.anyApplied || applied.any (0 < ·)
    { s.noteChange fun change =>
        { change with
          reconciled := change.reconciled ++ [(rule.resourceId, fanOut.entry.reconcileMode)] } with
      sweep := .resolving context { fanOut with anyApplied } }
  | _ => s

def detect (reading : DetectorReading) : AliasSystem :=
  match s.sweep with
  | .detecting context => { s with sweep := context.detect reading }
  | _ => s

def failSweep : AliasSystem :=
  match s.sweep with
  | .done _ => s
  | _ => { s with sweep := .failed }

def startSweep (now : ℕ) : AliasSystem :=
  match s.sweep with
  | .done _ | .failed => { s with sweep := .reading now }
  | _ => s

def request (call : OperatorCallId) (operator : OperatorRequest) : AliasSystem :=
  match s.operator call, operator.check s.rules with
  | .idle, .ok _ => s.setOperator call (.reading operator)
  | _, _ => s

def read (call : OperatorCallId) (now : ℕ) : AliasSystem :=
  match s.operator call with
  | .reading operator =>
    match operator.edit s.setting now with
    | .ok edit => s.setOperator call (.writing s.setting edit)
    | .error _ => s.setOperator call .idle
  | _ => s

def write (call : OperatorCallId) : AliasSystem :=
  match s.operator call with
  | .writing current edit =>
    let next := edit.apply current
    if next.valid then
      { s.setOperator call .idle with
        setting := next
        edited := edit.apply s.edited
        detected := s.detected.filter fun name => decide (name ≠ edit.name) }
    else s.setOperator call .idle
  | _ => s

def step : AliasAction → AliasSystem
  | .startSweep now => s.startSweep now
  | .proceedSweep => s.proceedSweep
  | .detect reading => s.detect reading
  | .resolve found observed => s.resolve found observed
  | .reconcile applied => s.reconcile applied
  | .failSweep => s.failSweep
  | .request call operator => s.request call operator
  | .read call now => s.read call now
  | .write call => s.write call
  | .abandon call => s.setOperator call .idle
  | .setRules rules => { s with rules }

def withAliases (setting : IpAliasMap) : AliasSystem := { setting, edited := setting }

def Finished : Prop := (∃ outcomes, s.sweep = .done outcomes) ∧ ∀ call, s.operator call = .idle

end AliasSystem

end Loxep

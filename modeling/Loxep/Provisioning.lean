import Loxep.Materialize
import Loxep.RecordSync
import Mathlib.Data.List.Nodup

/-!
# Provisioning runs

A run drives a plan that was frozen when it started. An advance reads the run and its step rows,
attempts every step whose prerequisite has succeeded and writes the run's status at the end; a
resume is one more advance. An operator may abandon the run. Each works from what it read, and no
write looks at the run again.
-/

namespace Loxep

/-! ## Plans -/

structure DomainDeclareParams where
  name : String
  dnsConnectionId : ℕ
  deriving DecidableEq

structure DnsPointAtTargetParams where
  apexTargetId : HostingTargetId
  apexProxied : Option Bool
  wildcardProxied : Option Bool
  deriving DecidableEq

inductive ProvisioningStep
  | domainDeclare (params : DomainDeclareParams)
  | dnsPointAtTarget (params : DnsPointAtTargetParams)
  | dnsManualRecord
  | proxyEnsureResource
  | proxyEnsureRules
  | mailEnable
  | mailEnsureMailbox
  deriving DecidableEq

structure CompiledStep where
  sequence : ℕ
  step : ProvisioningStep
  optional : Bool
  dependsOnSequence : Option ℕ
  deriving DecidableEq

structure CompiledPlan where
  steps : List CompiledStep
  ordered : steps.Pairwise fun a b => a.sequence < b.sequence

/-! ## The tables -/

inductive TemplateRunStatus
  | running
  | succeeded
  | partly
  | failed

def TemplateRunStatus.ended : TemplateRunStatus → Bool
  | .succeeded | .failed => true
  | .running | .partly => false

/-- `status` with `blocked_reason`, which is null unless the step is blocked. -/
inductive TemplateRunStepStatus
  | pending
  | running
  | succeeded
  | blocked (reason : String)
  | failed
  | skipped
  deriving DecidableEq

structure TemplateRunStepRow where
  sequence : ℕ
  status : TemplateRunStepStatus
  reconcileRunId : Option ReconcileRunId := none
  providerOperationKey : Option String := none
  errorCode : Option String := none
  errorDetail : Option String := none
  deriving DecidableEq

abbrev StepRows := List TemplateRunStepRow

namespace StepRows

variable (rows : StepRows)

def get (sequence : ℕ) : Option TemplateRunStepRow := rows.find? (·.sequence == sequence)

def statusAt (sequence : ℕ) : Option TemplateRunStepStatus := (rows.get sequence).map (·.status)

def set (sequence : ℕ) (f : TemplateRunStepRow → TemplateRunStepRow) : StepRows :=
  rows.map fun row => if row.sequence = sequence then f row else row

end StepRows

/-! ## Outcomes of a step -/

inductive StepOutcomeStatus
  | succeeded
  | blocked (reason : String)
  | failed
  deriving DecidableEq

def StepOutcomeStatus.row : StepOutcomeStatus → TemplateRunStepStatus
  | .succeeded => .succeeded
  | .blocked reason => .blocked reason
  | .failed => .failed

structure StepOutcome where
  status : StepOutcomeStatus
  errorCode : Option String := none
  errorDetail : Option String := none
  reconcileRunId : Option ReconcileRunId := none
  providerOperationKey : Option String := none

def failedOutcome (errorCode errorDetail : String) : StepOutcome where
  status := .failed
  errorCode := some errorCode
  errorDetail := some errorDetail

def caughtOutcome (error : InfrastructureError) : Option StepOutcome :=
  match error.errorClass with
  | .providerCall kind => some (failedOutcome kind error.message)
  | .validation | .notFound => some (failedOutcome "invalid_request" error.message)
  | _ => none

def recordedOutcome : InfrastructureResult StepOutcome → StepOutcome
  | .ok outcome => outcome
  | .error error => (caughtOutcome error).getD (failedOutcome "internal_error" error.message)

def goesOn : InfrastructureResult StepOutcome → Bool
  | .ok _ => true
  | .error error => (caughtOutcome error).isSome

def TemplateRunStepRow.attempted (row : TemplateRunStepRow) : TemplateRunStepRow :=
  { row with status := .running, errorCode := none, errorDetail := none }

def TemplateRunStepRow.withOutcome (outcome : StepOutcome) (row : TemplateRunStepRow) :
    TemplateRunStepRow :=
  { row with
    status := outcome.status.row
    reconcileRunId := outcome.reconcileRunId
    providerOperationKey := outcome.providerOperationKey
    errorCode := outcome.errorCode
    errorDetail := outcome.errorDetail }

/-! ## A pass over the plan -/

inductive NextStep
  | attempt (step : CompiledStep) (left : List CompiledStep)
  | missing (sequence : ℕ)
  | through
  deriving DecidableEq

def StepRows.reachable (rows : StepRows) (step : CompiledStep) : Bool :=
  match step.dependsOnSequence with
  | none => true
  | some parent => rows.statusAt parent == some .succeeded

def StepRows.nextStep (rows : StepRows) : List CompiledStep → NextStep
  | [] => .through
  | step :: left =>
    match rows.statusAt step.sequence with
    | none => .missing step.sequence
    | some status =>
      if status = .succeeded ∨ status = .skipped ∨ rows.reachable step = false then
        rows.nextStep left
      else .attempt step left

def CompiledPlan.requiredSteps (plan : CompiledPlan) : List CompiledStep :=
  plan.steps.filter (!·.optional)

def CompiledPlan.succeededIn (plan : CompiledPlan) (rows : StepRows) : Bool :=
  plan.requiredSteps.all fun step => rows.statusAt step.sequence == some .succeeded

/-! ## The sessions of a run -/

inductive ProvisioningStage
  | idle
  /-- The run was read and had not ended. -/
  | loading
  | looping (left : List CompiledStep) (rows : StepRows)
  | attempting (step : CompiledStep) (left : List CompiledStep) (rows : StepRows)
  /-- An unexpected error is to be raised again. -/
  | raising
  | abandoning
  | ended
  deriving DecidableEq

/-- A session that has read the run and has something left to do. -/
def ProvisioningStage.live : ProvisioningStage → Bool
  | .idle | .ended => false
  | _ => true

structure ProvisioningSession where
  stage : ProvisioningStage := .idle
  overtaken : Bool := false

structure ProvisioningRun (n : ℕ) where
  plan : CompiledPlan
  status : TemplateRunStatus
  finishedAt : Option Timestamp
  steps : StepRows
  sessions : Fin n → ProvisioningSession

inductive ProvisioningAction (n : ℕ)
  | advance (w : Fin n)
  | load (w : Fin n)
  | attempt (w : Fin n)
  | settle (w : Fin n) (result : InfrastructureResult StepOutcome)
  | finish (w : Fin n) (now : Timestamp)
  | abandon (w : Fin n)
  | fail (w : Fin n) (now : Timestamp)
  | crash (w : Fin n)

/-- `startRun`: the run and a pending row for each step, no session begun. -/
def startRun (n : ℕ) (plan : CompiledPlan) : ProvisioningRun n where
  plan := plan
  status := .running
  finishedAt := none
  steps := plan.steps.map fun step => { sequence := step.sequence, status := .pending }
  sessions _ := {}

namespace ProvisioningRun

variable {n : ℕ} (s : ProvisioningRun n)

def stage (w : Fin n) : ProvisioningStage := (s.sessions w).stage

def enter (w : Fin n) (stage : ProvisioningStage) : ProvisioningRun n :=
  { s with sessions := Function.update s.sessions w { s.sessions w with stage := stage } }

def read (w : Fin n) (next : ProvisioningStage) : ProvisioningRun n :=
  if (s.stage w).live then s
  else
    { s with
      sessions := Function.update s.sessions w
        { stage := if s.status.ended then .ended else next } }

def writeStatus (w : Fin n) (status : TemplateRunStatus) (now : Timestamp) : ProvisioningRun n :=
  { s with
    status := status
    finishedAt := some now
    sessions := Function.update
      (fun v => { s.sessions v with overtaken := (s.sessions v).overtaken || status.ended })
      w { stage := .ended } }

def closing (w : Fin n) : Option TemplateRunStatus :=
  match s.stage w with
  | .looping left rows =>
    if rows.nextStep left = .through then
      some (if s.plan.succeededIn rows then .succeeded else .partly)
    else none
  | .raising => some .partly
  | _ => none

def attemptNext (w : Fin n) : ProvisioningRun n :=
  match s.stage w with
  | .looping left rows =>
    match rows.nextStep left with
    | .attempt step left =>
      { s with steps := s.steps.set step.sequence (·.attempted) }.enter w
        (.attempting step left rows)
    | .missing _ => s.enter w .ended
    | .through => s
  | _ => s

def settle (w : Fin n) (result : InfrastructureResult StepOutcome) : ProvisioningRun n :=
  match s.stage w with
  | .attempting step left rows =>
    let write := TemplateRunStepRow.withOutcome (recordedOutcome result)
    { s with steps := s.steps.set step.sequence write }.enter w
      (if goesOn result then .looping left (rows.set step.sequence write) else .raising)
  | _ => s

def step : ProvisioningAction n → ProvisioningRun n
  | .advance w => s.read w .loading
  | .load w => if s.stage w = .loading then s.enter w (.looping s.plan.steps s.steps) else s
  | .attempt w => s.attemptNext w
  | .settle w result => s.settle w result
  | .finish w now =>
    match s.closing w with
    | some status => s.writeStatus w status now
    | none => s
  | .abandon w => s.read w .abandoning
  | .fail w now => if s.stage w = .abandoning then s.writeStatus w .failed now else s
  | .crash w => s.enter w .ended

end ProvisioningRun

/-!
## Pointing a domain at a target

The step writes where the domain is to point and makes an apply run over the desired records. What
follows from the new intent is materialized by a job of its own, which the step neither makes nor
waits for, and which nobody enqueues for it: its service is created without an enqueue.
-/

/-! ### Domains -/

/-- The columns of `managed_domains` that say where a domain points. -/
structure DomainTarget where
  dnsConnectionId : ℕ
  apexTargetId : Option HostingTargetId
  apexProxied : Bool
  wildcardProxied : Bool
  mailEnabled : Bool

/-- The intent of a `dns.point-at-target` step; a flag that is not given stays. -/
def DomainTarget.pointed (target : DomainTarget) (params : DnsPointAtTargetParams) : DomainTarget :=
  { target with
    apexTargetId := some params.apexTargetId
    apexProxied := params.apexProxied.getD target.apexProxied
    wildcardProxied := params.wildcardProxied.getD target.wildcardProxied }

structure ProvisioningTables extends SyncTables where
  target : ManagedDomainId → DomainTarget
  addresses : AddressTables
  caaPolicy : CaaPolicy
  mailRecords : ManagedDomainId → Option (List MailRequiredRecord)
  policies : ℕ → Option WritePolicyTier

def stripFinalDot (name : String) : String :=
  if name.toList.getLast? = some '.' then String.ofList name.toList.dropLast else name

/-- `domainNameSchema`. -/
def parseDomainName (value : String) : InfrastructureResult String := do
  let trimmed := trim value
  Except.require (trimmed ≠ "" ∧ trimmed.length ≤ 253) (InfrastructureError.other "name")
  let name := (stripFinalDot trimmed).toLower
  Except.require ('.' ∈ name.toList)
    (InfrastructureError.other "a managed domain name must contain at least one dot")
  Except.require (' ' ∉ name.toList)
    (InfrastructureError.other "a managed domain name must not contain spaces")
  return name

/-- `buildMaterializeInput`. -/
def ProvisioningTables.materializeInput (t : ProvisioningTables) (domain : ManagedDomainRow)
    (capabilities : DnsCapabilities) : MaterializeInput where
  domain :=
    { name := domain.name
      apexTargetId := (t.target domain.id).apexTargetId
      apexProxied := (t.target domain.id).apexProxied
      wildcardProxied := (t.target domain.id).wildcardProxied
      mailEnabled := (t.target domain.id).mailEnabled }
  targets := t.addresses.nodes
  caaPolicy := t.caaPolicy
  mailRecords := if (t.target domain.id).mailEnabled then t.mailRecords domain.id else none
  capabilities := capabilities

namespace ProvisioningTables

variable (t : ProvisioningTables)

/-- `resolveProviderWritePolicy`. -/
def policyTier (connection : ℕ) : WritePolicyTier := (t.policies connection).getD .readOnly

def checkTierOnePolicy (connection : ℕ) : Bool := 1 ≤ (t.policyTier connection).rank

def requireManagedDomainByName (name : String) : InfrastructureResult ManagedDomainRow := do
  let parsed ← parseDomainName name
  match t.domains.find? (·.name == parsed) with
  | none => .error (.notFound (s!"managed domain \"{name}\" not found (invariant: its " ++
      "\"domain.declare\" step must have already succeeded)"))
  | some domain => .ok domain

def withIntent (domain : ManagedDomainId) (params : DnsPointAtTargetParams) : ProvisioningTables :=
  { t with target := Function.update t.target domain ((t.target domain).pointed params) }

def updateIntent (domain : ManagedDomainId) (params : DnsPointAtTargetParams) :
    InfrastructureResult ProvisioningTables := do
  Except.require (domain ∈ t.domains.map (·.id))
    (InfrastructureError.notFound s!"managed domain {domain} not found")
  Except.require (params.apexTargetId ∈ t.addresses.targets.map (·.id))
    (InfrastructureError.database "managed_domains_apex_target_id_hosting_targets_id_fk")
  return t.withIntent domain params

end ProvisioningTables

/-! ### The domain of a step -/

def ProvisioningStep.kind : ProvisioningStep → String
  | .domainDeclare _ => "domain.declare"
  | .dnsPointAtTarget _ => "dns.point-at-target"
  | .dnsManualRecord => "dns.manual-record"
  | .proxyEnsureResource => "proxy.ensure-resource"
  | .proxyEnsureRules => "proxy.ensure-rules"
  | .mailEnable => "mail.enable"
  | .mailEnsureMailbox => "mail.ensure-mailbox"

def CompiledPlan.ancestorDomain (plan : CompiledPlan) : ℕ → CompiledStep → Option String
  | 0, _ => none
  | left + 1, current =>
    match current.step with
    | .domainDeclare params => some params.name
    | _ =>
      match current.dependsOnSequence.bind fun parent =>
        plan.steps.find? (·.sequence == parent) with
      | none => none
      | some parent => plan.ancestorDomain left parent

def CompiledPlan.findAncestorDomainName (plan : CompiledPlan) (step : CompiledStep) :
    InfrastructureResult String :=
  match plan.ancestorDomain plan.steps.length step with
  | some name => .ok name
  | none => .error (.validation (s!"step {step.sequence} (\"{step.step.kind}\") has no " ++
      "reachable \"domain.declare\" ancestor — invariant violated by the compiler"))

/-! ### The provider's answers -/

namespace DnsProvider

variable (provider : DnsProvider)

def result (zone : List ObservedDnsRecord) : DnsApplyOperation → DnsApplyResult
  | .create record =>
    ⟨record.type, record.name, some (provider.newRecordId (zone.map (·.externalRecordId)))⟩
  | .update id record => ⟨record.type, record.name, some id⟩
  | .delete id type name _ => ⟨type, name, some id⟩

def results : List ObservedDnsRecord → List DnsApplyOperation → List DnsApplyResult
  | _, [] => []
  | zone, op :: operations =>
    provider.result zone op :: results (provider.carryOut zone op) operations

end DnsProvider

/-- What a step meets outside the plan: the tables, what other jobs have made of them when its run
reads, the zone, and what the run draws. -/
structure PointEncounter where
  tables : ProvisioningTables
  found : SyncTables
  zone : List ObservedDnsRecord
  capabilities : DnsCapabilities
  resolveDnsProvider : ℕ → InfrastructureResult DnsProvider
  /-- The kind of error a read of the zone fails with, if it does. -/
  readFailure : Option String
  actorIsAdmin : Option Bool
  now : Timestamp
  runId : ReconcileRunId
  newFindingId : ℕ → DriftFindingId
  rowsKeyed : (found.dnsRecords.map fun r => (r.domainId, r.type, r.name, r.content)).Nodup
  zoneIdentified : (zone.map (·.externalRecordId)).Nodup
  zoneKeyed : (zone.map fun o => (o.type, o.name, o.content)).Nodup

/-! ### The step -/

def PointEncounter.syncInput (met : PointEncounter) (provider : DnsProvider)
    (domain : ManagedDomainId) : RecordSyncInput where
  domainId := domain
  mode := .apply
  trigger := .intentChange
  actorIsAdmin := met.actorIsAdmin
  policyTier := some (met.tables.policyTier (met.tables.target domain).dnsConnectionId)
  now := met.now
  runId := met.runId
  newFindingId := met.newFindingId
  read :=
    match met.readFailure with
    | some kind => .error kind
    | none => .ok met.zone
  apply operations := .ok (provider.results met.zone operations)

def SyncTables.zoneAfter (t : SyncTables) (input : RecordSyncInput) (provider : DnsProvider)
    (zone : List ObservedDnsRecord) : List ObservedDnsRecord :=
  match t.domains.find? (·.id == input.domainId), input.read with
  | some domain, .ok observed =>
    let plan := planSync (t.intentOf input.domainId) (t.tombstonedOf input.domainId) observed
    if domain.externalZoneId.isSome && input.sends &&
        noUnexpectedDeletions plan.diff plan.operations then
      provider.apply zone plan.operations
    else zone
  | _, _ => zone

def credentialScope : StepOutcome where
  status := .blocked "credential_scope"
  errorDetail := some ("the Cloudflare connection's write policy blocks this apply — allow " ++
    "writes for this connection on /settings/connections, then resume this run.")

def classifyReconcileOutcome (runId : ReconcileRunId) (result : RecordSyncResult) : StepOutcome :=
  match result.status with
  | .partly => { credentialScope with reconcileRunId := some runId }
  | .succeeded => { status := .succeeded, reconcileRunId := some runId }

structure PointResult where
  outcome : InfrastructureResult StepOutcome
  tables : ProvisioningTables
  zone : List ObservedDnsRecord

def PointEncounter.sync (met : PointEncounter) (domain : ManagedDomainRow) (t : ProvisioningTables)
    : PointResult :=
  match met.resolveDnsProvider (met.tables.target domain.id).dnsConnectionId with
  | .error error => ⟨.error error, t, met.zone⟩
  | .ok provider =>
    let input := met.syncInput provider domain.id
    let run := met.found.runRecordSync input
    ⟨run.1.map (classifyReconcileOutcome met.runId), { t with toSyncTables := run.2 },
      met.found.zoneAfter input provider met.zone⟩

def PointEncounter.domainOf (met : PointEncounter) (plan : CompiledPlan) (step : CompiledStep) :
    InfrastructureResult ManagedDomainRow :=
  plan.findAncestorDomainName step >>= met.tables.requireManagedDomainByName

def dispatchDnsPointAtTarget (plan : CompiledPlan) (step : CompiledStep)
    (params : DnsPointAtTargetParams) (met : PointEncounter) : PointResult :=
  match met.domainOf plan step with
  | .error error => ⟨.error error, met.tables, met.zone⟩
  | .ok domain =>
    if met.tables.checkTierOnePolicy (met.tables.target domain.id).dnsConnectionId = false then
      ⟨.ok credentialScope, met.tables, met.zone⟩
    else
      match met.tables.updateIntent domain.id params with
      | .error error => ⟨.error error, met.tables, met.zone⟩
      | .ok t => met.sync domain t

end Loxep

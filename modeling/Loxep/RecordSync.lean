import Loxep.DriftFindings

/-!
# Record sync runs

A run diffs the intent and the zone and, in apply mode, sends the operations the diff implies. Both
modes record the findings; an apply run then resolves the unresolved ones as applied, except the
unexpected. A write policy that refuses the apply leaves a run with nothing sent and nothing
resolved.
-/

namespace Loxep

def recordKey (type name : DnsLabel) (content : String) : String :=
  s!"{type.text} {name.text} {content}"

def IntentRecord.recordKey (r : IntentRecord) : String := Loxep.recordKey r.type r.name r.content

def ObservedDnsRecord.recordKey (o : ObservedDnsRecord) : String :=
  Loxep.recordKey o.type o.name o.content

def matchTombstones (rows : List IntentRecord) (observed : List ObservedDnsRecord) :
    List Tombstone :=
  rows.filterMap fun row =>
    (observed.reverse.find? (·.recordKey == row.recordKey)).map fun o => ⟨row, o⟩

def observedForDiff (tombstones : List Tombstone) (observed : List ObservedDnsRecord) :
    List ObservedDnsRecord :=
  observed.filter fun o => o.externalRecordId ∉ tombstones.map (·.observed.externalRecordId)

structure SyncPlan where
  tombstones : List Tombstone
  diff : DnsDiff
  operations : List DnsApplyOperation

def planSync (live tombstoned : List IntentRecord) (observed : List ObservedDnsRecord) :
    SyncPlan :=
  let tombstones := matchTombstones tombstoned observed
  let diff := diffDnsRecords live (observedForDiff tombstones observed)
  ⟨tombstones, diff, applyOperationsFor diff tombstones⟩

structure DnsProvider where
  newRecordId : List String → String
  fresh : ∀ taken, newRecordId taken ∉ taken
  proxiable : DnsLabel → Bool

namespace DnsProvider

variable (provider : DnsProvider)

def createdRecord (record : DnsRecordPayload) (id : String) : ObservedDnsRecord where
  externalRecordId := id
  type := record.type
  name := record.name
  content := record.content
  ttlSeconds := record.ttlSeconds
  priority := record.priority
  proxied := record.proxied
  proxiable := provider.proxiable record.type

def carryOut (zone : List ObservedDnsRecord) : DnsApplyOperation → List ObservedDnsRecord
  | .create record =>
    zone ++ [provider.createdRecord record (provider.newRecordId (zone.map (·.externalRecordId)))]
  | .update id record =>
    zone.map fun o => if o.externalRecordId = id then provider.createdRecord record id else o
  | .delete id _ _ _ => zone.filter (·.externalRecordId ≠ id)

def apply (zone : List ObservedDnsRecord) (operations : List DnsApplyOperation) :
    List ObservedDnsRecord := operations.foldl provider.carryOut zone

def applyRun (live tombstoned : List IntentRecord) (zone : List ObservedDnsRecord) :
    List ObservedDnsRecord := provider.apply zone (planSync live tombstoned zone).operations

end DnsProvider

inductive ReconcileMode
  | apply
  | check
  deriving DecidableEq

inductive ReconcileTrigger
  | intentChange
  | sweep
  | manual
  | poll
  deriving DecidableEq

def ReconcileTrigger.text : ReconcileTrigger → String
  | .intentChange => "intent_change"
  | .sweep => "sweep"
  | .manual => "manual"
  | .poll => "poll"

inductive WritePolicyTier
  | readOnly
  | additive
  | accessAffecting
  | lockoutClass

def WritePolicyTier.text : WritePolicyTier → String
  | .readOnly => "read_only"
  | .additive => "additive"
  | .accessAffecting => "access_affecting"
  | .lockoutClass => "lockout_class"

def WritePolicyTier.rank : WritePolicyTier → ℕ
  | .readOnly => 0
  | .additive => 1
  | .accessAffecting => 2
  | .lockoutClass => 3

def assertWritePolicy (mode : ReconcileMode) (trigger : ReconcileTrigger)
    (policyTier : WritePolicyTier) (operationTier : ℕ) (actorIsAdmin : Option Bool)
    (unblockHint : String) : InfrastructureResult Unit := do
  if mode ≠ .apply then return ()
  Except.require (¬ ((trigger = .sweep ∨ trigger = .poll) ∧ 2 ≤ operationTier))
    (InfrastructureError.writePolicy (s!"a '{trigger.text}' trigger may never apply a " ++
      s!"tier-{operationTier} write — only 'manual' or 'intent_change' triggers may (the " ++
      "write-authorization model's rule 3)"))
  Except.require (actorIsAdmin ≠ some false)
    (InfrastructureError.writePolicy "writes are admin-only in Loxep")
  Except.require (operationTier ≤ policyTier.rank) (InfrastructureError.writePolicy unblockHint)

/-- A row of `dns_records`. -/
structure DnsRecordRow extends IntentRecord where
  domainId : ManagedDomainId
  desiredDeletedAt : Option Timestamp

structure SyncTables extends DriftTables where
  dnsRecords : List DnsRecordRow

/-- What the provider reports of an operation. -/
structure DnsApplyResult where
  type : DnsLabel
  name : DnsLabel
  externalRecordId : Option String

structure RecordSyncInput where
  domainId : ManagedDomainId
  mode : ReconcileMode
  trigger : ReconcileTrigger
  actorIsAdmin : Option Bool := none
  /-- The tier of the connection, where the run knows its connection. -/
  policyTier : Option WritePolicyTier := none
  now : Timestamp
  runId : ReconcileRunId
  newFindingId : ℕ → DriftFindingId
  read : Except String (List ObservedDnsRecord)
  apply : List DnsApplyOperation → Except InfrastructureError (List DnsApplyResult)

inductive RecordSyncStatus
  | succeeded
  | partly

structure RecordSyncResult where
  status : RecordSyncStatus
  diff : DnsDiff
  applied : ℕ
  unresolvedFindings : ℕ
  disappearedFindings : ℕ

def RecordSyncInput.writePolicyBlocks (input : RecordSyncInput) : Bool :=
  match input.mode, input.policyTier with
  | .apply, some tier =>
    !Except.returns (assertWritePolicy input.mode input.trigger tier 1 input.actorIsAdmin
      (s!"allow writes for this Cloudflare connection (currently '{tier.text}') on " ++
        "/settings/connections to publish DNS changes"))
  | _, _ => false

def RecordSyncInput.sends (input : RecordSyncInput) : Bool :=
  input.mode == .apply && !input.writePolicyBlocks

namespace SyncTables

variable (t : SyncTables) (input : RecordSyncInput)

def intentOf (domain : ManagedDomainId) : List IntentRecord :=
  (t.dnsRecords.filter fun r => r.domainId == domain && r.desiredDeletedAt.isNone).map
    (·.toIntentRecord)

def tombstonedOf (domain : ManagedDomainId) : List IntentRecord :=
  (t.dnsRecords.filter fun r => r.domainId == domain && r.desiredDeletedAt.isSome).map
    (·.toIntentRecord)

def updateDomain (domain : ManagedDomainId) (f : ManagedDomainRow → ManagedDomainRow) :
    SyncTables :=
  { t with domains := t.domains.map fun d => if d.id = domain then f d else d }

def captureIds (domain : ManagedDomainId) (results : List DnsApplyResult) : SyncTables :=
  { t with
    dnsRecords := results.foldl (fun rows result =>
      match result.externalRecordId with
      | none => rows
      | some id => rows.map fun r =>
        if r.domainId = domain ∧ r.type = result.type ∧ r.name = result.name then
          { r with externalRecordId := some id }
        else r) t.dnsRecords }

def applyStep (plan : SyncPlan) : InfrastructureResult (ℕ × SyncTables) := do
  if input.sends then
    Except.require (noUnexpectedDeletions plan.diff plan.operations = true)
      (InfrastructureError.other ("refusing to delete an unexpected provider record: open " ++
        "question 3 holds this line permanently — resolve it as 'adopted' or 'dismissed', or " ++
        "delete it explicitly as a separate operator action"))
    if plan.operations = [] then return (0, t)
    else
      let results ← input.apply plan.operations
      return (results.length, t.captureIds input.domainId results)
  else return (0, t)

def fixedFindings (domain : ManagedDomainId) : List DriftFindingId :=
  ((t.listUnresolved domain).filter (·.kind ≠ .unexpected)).map (·.id)

def finishRun : SyncTables :=
  let u := if input.sends then
      { t with toDriftTables := t.markApplied input.now (t.fixedFindings input.domainId) }
    else t
  u.updateDomain input.domainId fun d => { d with lastErrorCode := none, consecutiveErrors := 0 }

def runOver (observed : List ObservedDnsRecord) :
    InfrastructureResult RecordSyncResult × SyncTables :=
  let plan := planSync (t.intentOf input.domainId) (t.tombstonedOf input.domainId) observed
  match t.applyStep input plan with
  | .error e => (.error e, t)
  | .ok (applied, u) =>
    match recordRun ⟨input.domainId, input.runId, input.now, input.newFindingId,
        findingsFromDiff plan.diff⟩ u.toDriftTables with
    | .error e => (.error e, u)
    | .ok (recorded, found) =>
      (.ok ⟨if input.writePolicyBlocks then .partly else .succeeded, plan.diff, applied,
          recorded.unresolved, recorded.disappeared⟩,
        { u with toDriftTables := found }.finishRun input)

/-- `run`: what it returns or raises, and the tables after it. -/
def runRecordSync : InfrastructureResult RecordSyncResult × SyncTables :=
  match t.domains.find? (·.id == input.domainId) with
  | none => (.error (.notFound s!"managed domain {input.domainId} not found"), t)
  | some domain =>
    if domain.externalZoneId = none then
      (.error (.notFound s!"managed domain \"{domain.name}\" has no provider zone yet"), t)
    else
      match input.read with
      | .error kind =>
        (.error (.providerCall kind "provider read failed"),
          t.updateDomain input.domainId fun d =>
            { d with lastErrorCode := some kind, consecutiveErrors := domain.consecutiveErrors + 1 })
      | .ok observed => t.runOver input observed

end SyncTables

end Loxep

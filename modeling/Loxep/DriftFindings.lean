import Loxep.Calendar
import Loxep.DnsRecords
import Loxep.Errors
import Loxep.Lib.Except

/-!
# Drift findings

What a run finds is kept under a partial unique key over the unresolved rows: a finding that is
seen again updates its row, one that is not seen any more is resolved as disappeared. The domain
carries when drift was last detected.
-/

namespace Loxep

abbrev ManagedDomainId := ℕ
abbrev DriftFindingId := ℕ
abbrev ReconcileRunId := ℕ

structure ManagedDomainRow where
  id : ManagedDomainId
  name : String
  externalZoneId : Option String
  driftDetectedAt : Option Timestamp
  lastReconciledAt : Option Timestamp
  lastErrorCode : Option String
  consecutiveErrors : ℕ
  deriving DecidableEq

inductive DnsDriftKind
  | missing
  | modified
  | unexpected
  deriving DecidableEq

inductive DnsDriftResolution
  | applied
  | adopted
  | dismissed
  | disappeared
  deriving DecidableEq

/-- `resolved_at` and `resolution`, which are null together. -/
structure DriftResolved where
  resolvedAt : Timestamp
  resolution : DnsDriftResolution
  deriving DecidableEq

structure DnsDriftFindingRow where
  id : DriftFindingId
  domainId : ManagedDomainId
  dnsRecordId : Option DnsRecordId
  kind : DnsDriftKind
  recordType : DnsLabel
  recordName : DnsLabel
  desiredContent : Option String
  observedContent : Option String
  desiredProxied : Option Bool
  observedProxied : Option Bool
  externalRecordId : Option String
  firstDetectedAt : Timestamp
  lastDetectedAt : Timestamp
  firstSeenRunId : ReconcileRunId
  lastSeenRunId : ReconcileRunId
  resolved : Option DriftResolved
  deriving DecidableEq

structure DriftFindingInput where
  kind : DnsDriftKind
  recordType : DnsLabel
  recordName : DnsLabel
  desiredContent : Option String
  observedContent : Option String
  desiredProxied : Option Bool
  observedProxied : Option Bool
  externalRecordId : Option String
  dnsRecordId : Option DnsRecordId

def missingFinding (r : IntentRecord) : DriftFindingInput where
  kind := .missing
  recordType := r.type
  recordName := r.name
  desiredContent := some r.content
  observedContent := none
  desiredProxied := some r.proxied
  observedProxied := none
  externalRecordId := none
  dnsRecordId := some r.id

def modifiedFinding (e : ModifiedDiff) : DriftFindingInput where
  kind := .modified
  recordType := e.intent.type
  recordName := e.intent.name
  desiredContent := some e.intent.content
  observedContent := some e.observed.content
  desiredProxied := some e.intent.proxied
  observedProxied := some e.observed.proxied
  externalRecordId := some e.observed.externalRecordId
  dnsRecordId := some e.intent.id

def unexpectedFinding (o : ObservedDnsRecord) : DriftFindingInput where
  kind := .unexpected
  recordType := o.type
  recordName := o.name
  desiredContent := none
  observedContent := some o.content
  desiredProxied := none
  observedProxied := some o.proxied
  externalRecordId := some o.externalRecordId
  dnsRecordId := none

def findingsFromDiff (diff : DnsDiff) : List DriftFindingInput :=
  diff.missing.map missingFinding ++ diff.modified.map modifiedFinding ++
    diff.unexpected.map unexpectedFinding

structure DriftTables where
  domains : List ManagedDomainRow
  findings : List DnsDriftFindingRow

/-- The columns of `dns_drift_findings_unresolved_uq` under a domain. -/
structure DriftKey where
  kind : DnsDriftKind
  recordType : DnsLabel
  recordName : DnsLabel
  observedContent : String
  deriving DecidableEq

def DriftFindingInput.key (f : DriftFindingInput) : DriftKey :=
  ⟨f.kind, f.recordType, f.recordName, f.observedContent.getD ""⟩

def DnsDriftFindingRow.key (row : DnsDriftFindingRow) : DriftKey :=
  ⟨row.kind, row.recordType, row.recordName, row.observedContent.getD ""⟩

def DnsDriftFindingRow.openFor (domain : ManagedDomainId) (row : DnsDriftFindingRow) : Bool :=
  row.domainId == domain && row.resolved.isNone

structure RecordRunInput where
  domainId : ManagedDomainId
  runId : ReconcileRunId
  now : Timestamp
  newId : ℕ → DriftFindingId
  findings : List DriftFindingInput

section RecordRun

variable (input : RecordRunInput)

/-- A second detection leaves `first_detected_at` alone. -/
def redetected (f : DriftFindingInput) (row : DnsDriftFindingRow) : DnsDriftFindingRow :=
  { row with
    lastDetectedAt := input.now
    lastSeenRunId := input.runId
    desiredContent := f.desiredContent
    desiredProxied := f.desiredProxied
    observedProxied := f.observedProxied
    externalRecordId := f.externalRecordId }

def newFinding (f : DriftFindingInput) (id : DriftFindingId) : DnsDriftFindingRow where
  id := id
  domainId := input.domainId
  dnsRecordId := f.dnsRecordId
  kind := f.kind
  recordType := f.recordType
  recordName := f.recordName
  desiredContent := f.desiredContent
  observedContent := f.observedContent
  desiredProxied := f.desiredProxied
  observedProxied := f.observedProxied
  externalRecordId := f.externalRecordId
  firstDetectedAt := input.now
  lastDetectedAt := input.now
  firstSeenRunId := input.runId
  lastSeenRunId := input.runId
  resolved := none

/-- `insert into dns_drift_findings`. The unresolved key is free where no twin was found. -/
def insertFinding (rows : List DnsDriftFindingRow) (row : DnsDriftFindingRow) :
    InfrastructureResult (List DnsDriftFindingRow) := do
  Except.require (row.id ∉ rows.map (·.id)) (InfrastructureError.database "dns_drift_findings_pkey")
  Except.require ((row.kind = .unexpected) ↔ row.dnsRecordId = none)
    (InfrastructureError.database "dns_drift_findings_unexpected_record_check")
  return rows ++ [row]

def recordFinding (index : ℕ) (f : DriftFindingInput) (rows : List DnsDriftFindingRow) :
    InfrastructureResult (List DnsDriftFindingRow × DriftFindingId) :=
  match rows.find? fun row => row.openFor input.domainId && row.key == f.key with
  | some found =>
    .ok (rows.map fun row => if row.id = found.id then redetected input f row else row, found.id)
  | none => do
    let inserted ← insertFinding rows (newFinding input f (input.newId index))
    return (inserted, input.newId index)

def recordFindings : ℕ → List DriftFindingInput → List DnsDriftFindingRow →
    InfrastructureResult (List DnsDriftFindingRow × List DriftFindingId)
  | _, [], rows => .ok (rows, [])
  | index, f :: findings, rows => do
    let (recorded, id) ← recordFinding input index f rows
    let (rest, ids) ← recordFindings (index + 1) findings recorded
    return (rest, id :: ids)

def resolveDisappeared (surviving : List DriftFindingId) (row : DnsDriftFindingRow) :
    DnsDriftFindingRow :=
  if row.openFor input.domainId = true ∧ row.id ∉ surviving then
    { row with resolved := some ⟨input.now, .disappeared⟩, lastSeenRunId := input.runId }
  else row

structure RecordRunResult where
  unresolved : ℕ
  disappeared : ℕ

def recordRun (t : DriftTables) : InfrastructureResult (RecordRunResult × DriftTables) := do
  let (rows, surviving) ← recordFindings input 0 input.findings t.findings
  let gone := rows.filter fun row => row.openFor input.domainId && decide (row.id ∉ surviving)
  return (⟨surviving.length, gone.length⟩,
    { t with
      findings := rows.map (resolveDisappeared input surviving)
      domains := t.domains.map fun d =>
        if d.id = input.domainId then
          { d with
            driftDetectedAt := if surviving.length > 0 then some input.now else none
            lastReconciledAt := some input.now }
        else d })

end RecordRun

namespace DriftTables

variable (t : DriftTables)

def listUnresolved (domain : ManagedDomainId) : List DnsDriftFindingRow :=
  t.findings.filter (·.openFor domain)

def resolve (now : Timestamp) (resolution : DnsDriftResolution) (ids : List DriftFindingId) :
    DriftTables :=
  { t with
    findings := t.findings.map fun row =>
      if row.id ∈ ids then { row with resolved := some ⟨now, resolution⟩ } else row }

/-- Acknowledge a finding without changing anything at the provider. -/
def dismiss (now : Timestamp) (finding : DriftFindingId) : InfrastructureResult DriftTables := do
  Except.require (finding ∈ t.findings.map (·.id))
    (InfrastructureError.notFound s!"drift finding {finding} not found")
  return t.resolve now .dismissed [finding]

def markApplied (now : Timestamp) (ids : List DriftFindingId) : DriftTables :=
  t.resolve now .applied ids

end DriftTables

end Loxep

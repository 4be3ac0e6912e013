import Loxep.Lib.KeyedTable
import Loxep.Materialize
import Loxep.RecordSync

/-!
# The rows of a domain's records

A materialized set is upserted under the natural key, which covers tombstones; a row that an
operator authored is left as it is. Rows of the reconciler that the set does not describe are
soft-deleted. A manual record takes the row that holds its key.
-/

namespace Loxep

structure DnsRecordKey where
  type : String
  name : String
  content : String
  deriving DecidableEq

/-- `naturalKey`. -/
def DnsRecordKey.text (key : DnsRecordKey) : String := s!"{key.type} {key.name} {key.content}"

structure StoredDnsRecord where
  id : DnsRecordId
  key : DnsRecordKey
  ttlSeconds : Option ℤ
  priority : Option ℤ
  proxied : Bool
  owner : DnsRecordOwner
  externalRecordId : Option String
  desiredDeletedAt : Option Timestamp
  updatedAt : Timestamp
  deriving DecidableEq

/-- `manual` is deliberately excluded. -/
def MATERIALIZED_OWNERS : List DnsRecordOwner := [.apex, .wildcard, .caa, .mail, .proxyResource]

structure MaterializedRecord extends DesiredRecord where
  owned : owner ∈ MATERIALIZED_OWNERS

structure ManualRecordInput where
  type : String
  name : String
  content : String
  ttlSeconds : Option ℤ := none
  priority : Option ℤ := none
  proxied : Option Bool := none
  externalRecordId : Option String := none

structure MaterializedCounts where
  created : ℕ
  updated : ℕ
  softDeleted : ℕ

def DesiredRecord.key (record : DesiredRecord) : DnsRecordKey :=
  ⟨record.type.text, record.name.text, record.content⟩

def ManualRecordInput.key (input : ManualRecordInput) : DnsRecordKey :=
  ⟨input.type, input.name, input.content⟩

/-- The checks of the table. They are made of a row that is proposed, before any conflict. -/
def checkDnsRecord (owner : DnsRecordOwner) (proxied : Bool) (ttlSeconds : Option ℤ) :
    InfrastructureResult Unit := do
  Except.require (¬ (owner = .mail ∧ proxied = true))
    (InfrastructureError.database "dns_records_mail_not_proxied_check")
  Except.require (∀ ttl ∈ ttlSeconds, 30 ≤ ttl ∧ ttl ≤ 604800)
    (InfrastructureError.database "dns_records_ttl_seconds_check")

def freshDnsRecordId (rows : List StoredDnsRecord) : DnsRecordId :=
  (rows.map (·.id)).foldr max 0 + 1

namespace MaterializedRecord

variable (now : Timestamp) (record : MaterializedRecord)

def row (id : DnsRecordId) : StoredDnsRecord where
  id := id
  key := record.key
  ttlSeconds := record.ttlSeconds
  priority := record.priority
  proxied := record.proxied
  owner := record.owner
  externalRecordId := none
  desiredDeletedAt := none
  updatedAt := now

def redeclare (row : StoredDnsRecord) : StoredDnsRecord :=
  if row.owner = .manual then row
  else
    { row with
      desiredDeletedAt := none
      ttlSeconds := record.ttlSeconds
      priority := record.priority
      proxied := record.proxied
      owner := record.owner
      updatedAt := now }

def upsert (rows : List StoredDnsRecord) : List StoredDnsRecord :=
  KeyedTable.upsert (·.key) rows (record.row now (freshDnsRecordId rows)) (record.redeclare now)

def returnsRow (rows : List StoredDnsRecord) : Bool :=
  (KeyedTable.get (·.key) rows record.key).all (·.owner ≠ .manual)

end MaterializedRecord

structure MaterializedWrite where
  rows : List StoredDnsRecord
  created : ℕ := 0
  updated : ℕ := 0

def MaterializedWrite.write (now : Timestamp) (beforeKeys : List String) (w : MaterializedWrite)
    (record : MaterializedRecord) : InfrastructureResult MaterializedWrite := do
  checkDnsRecord record.owner record.proxied record.ttlSeconds
  let written := { w with rows := record.upsert now w.rows }
  if record.returnsRow w.rows = false then return written
  else if record.key.text ∈ beforeKeys then return { written with updated := w.updated + 1 }
  else return { written with created := w.created + 1 }

namespace StoredDnsRecord

variable (now : Timestamp) (desiredKeys : List String) (row : StoredDnsRecord)

/-- A live row of the reconciler that intent no longer describes. -/
def undesired : Bool :=
  row.desiredDeletedAt.isNone && decide (row.owner ∈ MATERIALIZED_OWNERS) &&
    decide (row.key.text ∉ desiredKeys)

def softDelete : StoredDnsRecord :=
  if row.undesired desiredKeys then { row with desiredDeletedAt := some now, updatedAt := now }
  else row

end StoredDnsRecord

/-- The run calls it in a transaction, which keeps nothing of a set that is refused. -/
def applyMaterializedRecords (now : Timestamp) (desired : List MaterializedRecord)
    (rows : List StoredDnsRecord) :
    InfrastructureResult (MaterializedCounts × List StoredDnsRecord) := do
  let desiredKeys := desired.map (·.key.text)
  let written ← desired.foldlM (MaterializedWrite.write now (rows.map (·.key.text))) { rows }
  return (⟨written.created, written.updated, written.rows.countP (·.undesired desiredKeys)⟩,
    written.rows.map (·.softDelete now desiredKeys))

namespace ManualRecordInput

variable (now : Timestamp) (input : ManualRecordInput)

def row (id : DnsRecordId) : StoredDnsRecord where
  id := id
  key := input.key
  ttlSeconds := input.ttlSeconds
  priority := input.priority
  proxied := input.proxied.getD false
  owner := .manual
  externalRecordId := input.externalRecordId
  desiredDeletedAt := none
  updatedAt := now

def takeOver (row : StoredDnsRecord) : StoredDnsRecord :=
  { row with
    desiredDeletedAt := none
    owner := .manual
    ttlSeconds := input.ttlSeconds
    priority := input.priority
    proxied := input.proxied.getD false
    updatedAt := now }

end ManualRecordInput

def addManualRecord (now : Timestamp) (input : ManualRecordInput) (rows : List StoredDnsRecord) :
    InfrastructureResult (List StoredDnsRecord) := do
  Except.require (¬ (input.proxied = some true ∧ input.type = "TXT"))
    (InfrastructureError.validation "a TXT record cannot be proxied")
  checkDnsRecord .manual (input.proxied.getD false) input.ttlSeconds
  return KeyedTable.upsert (·.key) rows (input.row now (freshDnsRecordId rows)) (input.takeOver now)

inductive RecordStoreCall
  | applyMaterialized (now : Timestamp) (desired : List MaterializedRecord)
  | addManual (now : Timestamp) (input : ManualRecordInput)

structure DesiredRecordStore where
  rows : List StoredDnsRecord := []
  applied : List (List MaterializedRecord) := []

namespace DesiredRecordStore

variable (s : DesiredRecordStore)

def last : List MaterializedRecord := s.applied.headD []

def step : RecordStoreCall → DesiredRecordStore
  | .applyMaterialized now desired =>
    match applyMaterializedRecords now desired s.rows with
    | .ok (_, rows) => ⟨rows, desired :: s.applied⟩
    | .error _ => s
  | .addManual now input =>
    match addManualRecord now input s.rows with
    | .ok rows => { s with rows }
    | .error _ => s

end DesiredRecordStore

end Loxep

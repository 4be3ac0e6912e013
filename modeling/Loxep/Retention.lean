import Loxep.OrderIngestion
import Loxep.ProviderPayloads

/-!
# The retention sweep

After so many days the payload of a retained order is replaced by what its redactor makes of it.
A run reads the oldest payloads in batches; a payload whose redactor fails is left as it is and
read again. The row, its hash and its time stay.
-/

namespace Loxep

abbrev EpochMicros := ℤ

structure RetainedPayload where
  id : ProviderObjectId
  objectType : String
  fetchedAt : EpochMicros
  payload : JsonRecord
  payloadHash : String
  redactedAt : Option EpochMicros := none

/-- `provider_objects`, under its primary key. -/
structure RetainedPayloads where
  rows : List RetainedPayload
  ids_nodup : (rows.map (·.id)).Nodup

abbrev OrderPayloadRedactor := JsonRecord → Except String Json

abbrev OrderPayloadRedactors := List (String × OrderPayloadRedactor)

def WOO_ORDER_OBJECT_TYPE : String := "woocommerce.order"

def EBAY_ORDER_OBJECT_TYPE : String := "ebay.order"

def MEDUSA_ORDER_OBJECT_TYPE : String := "medusa.order"

def ORDER_PROVIDER_OBJECT_TYPES : List String :=
  [WOO_ORDER_OBJECT_TYPE, EBAY_ORDER_OBJECT_TYPE, MEDUSA_ORDER_OBJECT_TYPE]

inductive RetentionMode
  | redact
  | keep

/-- `commerce.order_payload_retention`. -/
structure OrderPayloadRetention where
  mode : RetentionMode
  afterDays : ℕ

def DEFAULT_REDACTION_BATCH_SIZE : ℤ := 200

def DEFAULT_REDACTION_MAX_BATCHES : ℤ := 25

structure RedactionSweepOptions where
  redactors : OrderPayloadRedactors := []
  policy : OrderPayloadRetention
  batchSize : ℤ := DEFAULT_REDACTION_BATCH_SIZE
  maxBatches : ℤ := DEFAULT_REDACTION_MAX_BATCHES

structure RedactionSweepResult where
  mode : RetentionMode
  afterDays : ℕ
  cutoff : Option EpochMicros := none
  scanned : ℕ := 0
  redacted : ℕ := 0
  alreadyRedacted : ℕ := 0
  failed : ℕ := 0
  unhandled : List (String × ℕ) := []
  batches : ℕ := 0
  more : Bool := false

def microsPerDay : EpochMicros := 86_400_000 * 1000

namespace RetainedPayload

def eligible (types : List String) (cutoff : EpochMicros) (row : RetainedPayload) : Bool :=
  types.contains row.objectType && row.redactedAt.isNone && decide (row.fetchedAt < cutoff)

def redact (row : RetainedPayload) (now : EpochMicros) (payload : JsonRecord) : RetainedPayload :=
  { row with payload, redactedAt := some now }

def redactedPayload (redactor : OrderPayloadRedactor) (row : RetainedPayload) :
    Except String JsonRecord := do
  match ← redactor row.payload with
  | .object fields => return fields
  | _ => throw s!"redactor for \"{row.objectType}\" returned a non-object payload"

end RetainedPayload

namespace RetainedPayloads

/-- Oldest first. -/
def findEligible (s : RetainedPayloads) (types : List String) (cutoff : EpochMicros) :
    List RetainedPayload :=
  (s.rows.insertionSort fun a b => a.fetchedAt ≤ b.fetchedAt).filter
    (RetainedPayload.eligible types cutoff)

/-- `where id = … and redacted_at is null`. -/
def unclaimed (id : ProviderObjectId) (row : RetainedPayload) : Bool :=
  row.id == id && row.redactedAt.isNone

def claimRows (rows : List RetainedPayload) (id : ProviderObjectId) (now : EpochMicros)
    (payload : JsonRecord) : List RetainedPayload :=
  rows.map fun row => if unclaimed id row then row.redact now payload else row

theorem claimRows_ids {rows : List RetainedPayload} {id : ProviderObjectId} {now : EpochMicros}
    {payload : JsonRecord} :
    (claimRows rows id now payload).map (·.id) = rows.map (·.id) := by
  rw [claimRows, List.map_map]
  refine List.map_congr_left fun row _ => ?_
  show (if unclaimed id row then row.redact now payload else row).id = row.id
  split_ifs <;> rfl

def claim (s : RetainedPayloads) (id : ProviderObjectId) (now : EpochMicros) (payload : JsonRecord)
    : RetainedPayloads where
  rows := claimRows s.rows id now payload
  ids_nodup := by
    rw [claimRows_ids]
    exact s.ids_nodup

end RetainedPayloads

structure SweepProgress where
  table : RetainedPayloads
  scanned : ℕ := 0
  redacted : ℕ := 0
  alreadyRedacted : ℕ := 0
  failed : ℕ := 0
  batches : ℕ := 0
  /-- Redacted in the current batch. -/
  progressed : ℕ := 0
  more : Bool := false

namespace SweepProgress

variable (redactors : OrderPayloadRedactors) (now cutoff : EpochMicros)

def sweepRow (p : SweepProgress) (row : RetainedPayload) : SweepProgress :=
  match redactors.lookup row.objectType with
  | none => p
  | some redactor =>
    match row.redactedPayload redactor with
    | .error _ => { p with failed := p.failed + 1 }
    | .ok payload =>
      if p.table.rows.any (RetainedPayloads.unclaimed row.id) then
        { p with
          table := p.table.claim row.id now payload
          redacted := p.redacted + 1
          progressed := p.progressed + 1 }
      else { p with alreadyRedacted := p.alreadyRedacted + 1 }

def sweepBatch (p : SweepProgress) (rows : List RetainedPayload) : SweepProgress :=
  rows.foldl (sweepRow redactors now)
    { p with batches := p.batches + 1, scanned := p.scanned + rows.length, progressed := 0 }

/-- The `while` loop, with the batches the budget leaves. -/
def sweepBatches (batchSize maxBatches : ℕ) : ℕ → SweepProgress → SweepProgress
  | 0, p => p
  | left + 1, p =>
    let rows := (p.table.findEligible (redactors.map (·.1)) cutoff).take batchSize
    if rows.isEmpty then p
    else
      let swept := p.sweepBatch redactors now rows
      if swept.progressed = 0 then swept
      else if rows.length < batchSize then swept
      else sweepBatches batchSize maxBatches left
        { swept with more := swept.more || decide (maxBatches ≤ swept.batches) }

end SweepProgress

def RetainedPayloads.unhandled (s : RetainedPayloads) (redactors : OrderPayloadRedactors)
    (cutoff : EpochMicros) : List (String × ℕ) :=
  ((ORDER_PROVIDER_OBJECT_TYPES.filter fun type => !(redactors.map (·.1)).contains type).map
    fun type => (type, s.rows.countP (RetainedPayload.eligible [type] cutoff))).filter (0 < ·.2)

def RedactionSweepOptions.cutoff (options : RedactionSweepOptions) (now : EpochMicros) :
    EpochMicros := now - options.policy.afterDays * microsPerDay

def runOrderPayloadRedactionSweep (options : RedactionSweepOptions) (now : EpochMicros)
    (s : RetainedPayloads) : CommerceResult (RedactionSweepResult × RetainedPayloads) := do
  Except.require (1 ≤ options.batchSize)
    (CommerceError.validation "batchSize must be a positive integer")
  Except.require (1 ≤ options.maxBatches)
    (CommerceError.validation "maxBatches must be a positive integer")
  match options.policy.mode with
  | .keep => return ({ mode := .keep, afterDays := options.policy.afterDays }, s)
  | .redact =>
    let cutoff := options.cutoff now
    -- Without redactors the loop is not entered.
    let left := if options.redactors = [] then 0 else options.maxBatches.toNat
    let p := SweepProgress.sweepBatches options.redactors now cutoff options.batchSize.toNat
      options.maxBatches.toNat left { table := s }
    return ({
        mode := .redact
        afterDays := options.policy.afterDays
        cutoff := some cutoff
        scanned := p.scanned
        redacted := p.redacted
        alreadyRedacted := p.alreadyRedacted
        failed := p.failed
        unhandled := p.table.unhandled options.redactors cutoff
        batches := p.batches
        more := p.more }, p.table)

def RetainedPayloads.sweeps (options : RedactionSweepOptions) (clock : ℕ → EpochMicros)
    (s : RetainedPayloads) : ℕ → RetainedPayloads
  | 0 => s
  | k + 1 =>
    let before := s.sweeps options clock k
    match runOrderPayloadRedactionSweep options (clock k) before with
    | .ok (_, after) => after
    | .error _ => before

end Loxep

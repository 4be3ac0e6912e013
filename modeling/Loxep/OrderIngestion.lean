import Loxep.Acquisitions
import Loxep.Lib.KeyedTable
import Loxep.Lib.Sweep
import Loxep.OrderFacts
import Mathlib.Data.List.MinMax
import Mathlib.Data.String.Basic

/-!
# Order ingestion

An observation of an order is upserted under the connection, the provider and the provider's id of
the order. Attribution is written at the first observation alone. Where two connections observe
the same sale, the later of the two orders is marked a duplicate of the earlier.
-/

namespace Loxep

abbrev OrderId := ℕ
abbrev SourceEventId := ℕ
abbrev ProviderObjectId := ℕ

inductive EntityAttributionSource
  | manual
  | connectionDefault
  | unattributed
  deriving DecidableEq

structure ResolvedAttribution where
  economicEntityId : Option EntityId
  entityAttributionSource : EntityAttributionSource
  entityAttributedAt : Option Timestamp
  deriving DecidableEq

def resolveAttribution (explicitEntityId connectionEntityId : Option EntityId) (now : Timestamp)
    : ResolvedAttribution :=
  match explicitEntityId, connectionEntityId with
  | some entity, _ => ⟨some entity, .manual, some now⟩
  | none, some entity => ⟨some entity, .connectionDefault, none⟩
  | none, none => ⟨none, .unattributed, none⟩

structure OrderKey where
  connectionId : ConnectionId
  provider : String
  externalOrderId : String
  deriving DecidableEq

structure SaleKey where
  provider : String
  sourceAccountKey : String
  externalOrderId : String
  deriving DecidableEq

structure StoredOrder where
  id : OrderId
  key : OrderKey
  attribution : ResolvedAttribution
  values : OrderValues
  duplicateOfOrderId : Option OrderId
  firstIngestedAt : Timestamp
  lastSyncedAt : Timestamp
  children : OrderChildren
  deriving DecidableEq

def StoredOrder.saleKey (order : StoredOrder) : SaleKey :=
  ⟨order.key.provider, order.values.sourceAccountKey, order.key.externalOrderId⟩

/-- `order by first_ingested_at asc, id asc`. -/
def StoredOrder.rank (order : StoredOrder) : Timestamp ×ₗ OrderId :=
  toLex (order.firstIngestedAt, order.id)

def CommerceOrderFact.saleKey (fact : CommerceOrderFact) : SaleKey :=
  ⟨fact.provider, fact.values.sourceAccountKey, fact.externalOrderId⟩

inductive IngestEffect
  | created
  | updated
  | unchanged
  deriving DecidableEq

structure ProviderObject where
  id : ProviderObjectId
  key : OrderKey
  objectType : String
  fetchedAt : Timestamp
  providerUpdatedAt : Option Timestamp
  payloadHash : String

structure OrderSourceLink where
  orderId : OrderId
  sourceEventId : Option SourceEventId
  providerObjectId : Option ProviderObjectId
  effect : IngestEffect
  linkedAt : Timestamp

structure CommerceTables where
  connections : List ConnectionRow := []
  orders : List StoredOrder := []
  nextRowId : ℕ := 0
  references : InboundReferences := {}
  providerObjects : List ProviderObject := []
  orderSourceLinks : List OrderSourceLink := []

structure IngestOrderFactInput where
  connectionId : ConnectionId
  fact : CommerceOrderFact
  economicEntityId : Option EntityId := none
  sourceEventId : Option SourceEventId := none
  retainProviderObject : Bool := true
  markDuplicates : Bool := true
  now : Timestamp

def IngestOrderFactInput.key (input : IngestOrderFactInput) : OrderKey :=
  ⟨input.connectionId, input.fact.provider, input.fact.externalOrderId⟩

structure IngestOrderResult where
  orderId : OrderId
  created : Bool
  effect : IngestEffect
  attribution : ResolvedAttribution
  duplicateOfOrderId : Option OrderId
  lineCount : ℕ
  feeCount : ℕ
  refundCount : ℕ
  fulfillmentCount : ℕ
  providerObjectId : Option ProviderObjectId

def OrderValues.stored (values : OrderValues) : OrderValues :=
  { values with currency := values.currency.toUpper }

def orderSignature (values : OrderValues) (lineCount : ℕ) : String :=
  "|".intercalate
    [values.status, values.paymentStatus, values.fulfillmentStatus,
      values.providerStatusRaw.getD "", formatDecimal values.totalAmount,
      formatDecimal values.refundedAmount, formatDecimal values.feeAmount,
      (values.providerUpdatedAt.map Timestamp.toIsoString).getD "", toString lineCount]

namespace CommerceTables

variable (t : CommerceTables)

def orderOf (key : OrderKey) : Option StoredOrder := KeyedTable.get StoredOrder.key t.orders key

def upsertedOrder (newOrderId : OrderId) (attribution : ResolvedAttribution)
    (input : IngestOrderFactInput) : CommerceResult StoredOrder :=
  match t.orderOf input.key with
  | some order =>
    .ok { order with values := input.fact.values.stored, lastSyncedAt := input.now }
  | none => do
    Except.require (input.fact.provider ≠ "manual")
      (CommerceError.database "orders_manual_connection_check")
    Except.require (newOrderId ∉ t.orders.map (·.id)) (CommerceError.database "orders_pkey")
    return ⟨newOrderId, input.key, attribution, input.fact.values.stored, none, input.now,
      input.now, {}⟩

def withOrder (orders : List StoredOrder) (order : StoredOrder) : List StoredOrder :=
  KeyedTable.upsert StoredOrder.key orders order fun _ => order

def writeOrder (order : StoredOrder) : CommerceTables :=
  { t with orders := withOrder t.orders order }

def linkSource (link : OrderSourceLink) : CommerceTables :=
  if t.orderSourceLinks.any fun other => other.orderId == link.orderId
      && other.sourceEventId == link.sourceEventId
      && other.providerObjectId == link.providerObjectId
    then t
    else { t with orderSourceLinks := t.orderSourceLinks ++ [link] }

def retainPayload (input : IngestOrderFactInput) (payloadHash : String) :
    ProviderObjectId × CommerceTables :=
  let latest := (t.providerObjects.filter fun object =>
    object.key == input.key && object.objectType == input.fact.providerObjectType).argmax
      (·.fetchedAt)
  match latest.filter (·.payloadHash == payloadHash) with
  | some object => (object.id, t)
  | none =>
    let object : ProviderObject := ⟨t.providerObjects.length, input.key,
      input.fact.providerObjectType, input.now, input.fact.values.providerUpdatedAt, payloadHash⟩
    (object.id, { t with providerObjects := t.providerObjects ++ [object] })

def retainProvenance (orderId : OrderId) (effect : IngestEffect) (input : IngestOrderFactInput)
    : Option ProviderObjectId × CommerceTables :=
  let linked := match input.sourceEventId with
    | none => t
    | some event => t.linkSource ⟨orderId, some event, none, effect, input.now⟩
  match input.fact.rawPayload with
  | none => (none, linked)
  | some payload =>
    if input.retainProviderObject then
      let (objectId, retained) := linked.retainPayload input payload
      (some objectId,
        retained.linkSource ⟨orderId, none, some objectId, effect, input.now⟩)
    else (none, linked)

def canonicalOrder (orders : List StoredOrder) (sale : SaleKey) : Option StoredOrder :=
  (orders.filter fun order => order.saleKey == sale && order.duplicateOfOrderId.isNone).argmin
    StoredOrder.rank

def duplicateOf (orders : List StoredOrder) (orderId : OrderId) (fact : CommerceOrderFact) :
    Option OrderId :=
  ((canonicalOrder orders fact.saleKey).map (·.id)).filter (· != orderId)

def markOrder (order : StoredOrder) (duplicateOfOrderId : Option OrderId) : StoredOrder :=
  { order with duplicateOfOrderId := order.duplicateOfOrderId.or duplicateOfOrderId }

def ingestEffect (existing : Option StoredOrder) (fact : CommerceOrderFact) : IngestEffect :=
  match existing with
  | none => .created
  | some order =>
    if orderSignature order.values order.children.lines.length =
        orderSignature fact.values fact.lines.length
      then .unchanged else .updated

def ingestAfterRead (existing : Option StoredOrder) (visible : List StoredOrder)
    (newOrderId : OrderId) (input : IngestOrderFactInput) :
    CommerceResult (IngestOrderResult × CommerceTables) := do
  let fact ← input.fact.parse
  match t.connections.find? (·.id == input.connectionId) with
  | none => .error (.notFound ("unknown connection \"" ++ toString input.connectionId ++ "\""))
  | some connection =>
    let attribution := (existing.map (·.attribution)).getD
      (resolveAttribution input.economicEntityId connection.economicEntityId input.now)
    Except.require (fact.fits = true) (CommerceError.database "value out of range")
    let order ← t.upsertedOrder newOrderId attribution input
    let (children, nextRowId) ← order.children.rewrite t.references t.nextRowId fact
    let written := { order with children }
    let effect := ingestEffect existing fact
    let (providerObjectId, stored) :=
      { t.writeOrder written with nextRowId }.retainProvenance order.id effect input
    let duplicateOfOrderId := if input.markDuplicates
      then duplicateOf (withOrder visible written) order.id fact
      else existing.bind (·.duplicateOfOrderId)
    let marked := if input.markDuplicates
      then stored.writeOrder (markOrder written duplicateOfOrderId) else stored
    return (⟨order.id, existing.isNone, effect, attribution, duplicateOfOrderId, fact.lines.length,
      fact.fees.length, fact.refunds.length, fact.fulfillments.length, providerObjectId⟩, marked)

/-- A transaction that nothing interleaves with. -/
def ingestOrderFact (newOrderId : OrderId) (input : IngestOrderFactInput) :
    CommerceResult (IngestOrderResult × CommerceTables) :=
  t.ingestAfterRead (t.orderOf input.key) t.orders newOrderId input

end CommerceTables

/-!
## Ingestions side by side

Two syncs of one connection, or of two connections of one seller, may run at once. A transaction
reads its order's row, locks it with the upsert, judges duplicates by what is committed by then,
and commits or rolls back. A transaction that finds its order's row locked waits.
-/

abbrev IngestionSessionId := ℕ

/-- How far a session's transaction has come. -/
inductive IngestTransaction
  | idle
  | reading (input : IngestOrderFactInput) (existing : Option StoredOrder)
  | writing (input : IngestOrderFactInput) (existing : Option StoredOrder)
      (visible : List StoredOrder)

inductive IngestionAction
  | begin (session : IngestionSessionId) (input : IngestOrderFactInput)
  | write (session : IngestionSessionId)
  | commit (session : IngestionSessionId) (newOrderId : OrderId)
  | rollBack (session : IngestionSessionId)

structure IngestionSystem where
  tables : CommerceTables
  stage : IngestionSessionId → IngestTransaction := fun _ => .idle
  locks : List OrderKey := []
  committed : List IngestOrderFactInput := []

namespace IngestionSystem

variable (s : IngestionSystem)

def setStage (session : IngestionSessionId) (stage : IngestTransaction) : IngestionSystem :=
  { s with stage := fun other => if other = session then stage else s.stage other }

def unlock (key : OrderKey) : IngestionSystem := { s with locks := s.locks.erase key }

section Frames

variable {session : IngestionSessionId} {stage : IngestTransaction} {key : OrderKey}

@[simp] theorem setStage_tables : (s.setStage session stage).tables = s.tables := rfl

@[simp] theorem setStage_committed : (s.setStage session stage).committed = s.committed := rfl

@[simp] theorem unlock_tables : (s.unlock key).tables = s.tables := rfl

@[simp] theorem unlock_committed : (s.unlock key).committed = s.committed := rfl

@[simp] theorem unlock_stage : (s.unlock key).stage = s.stage := rfl

end Frames

def commitOrder (existing : Option StoredOrder) (visible : List StoredOrder) (newOrderId : OrderId)
    (input : IngestOrderFactInput) : IngestionSystem :=
  match s.tables.ingestAfterRead existing visible newOrderId input with
  | .ok (_, tables) => { s with tables, committed := s.committed ++ [input] }
  | .error _ => s

def step : IngestionAction → IngestionSystem
  | .begin session input =>
    match s.stage session with
    | .idle => s.setStage session (.reading input (s.tables.orderOf input.key))
    | _ => s
  | .write session =>
    match s.stage session with
    | .reading input existing =>
      if input.key ∈ s.locks then s
      else { s.setStage session (.writing input existing s.tables.orders) with
        locks := input.key :: s.locks }
    | _ => s
  | .commit session newOrderId =>
    match s.stage session with
    | .writing input existing visible =>
      ((s.commitOrder existing visible newOrderId input).unlock input.key).setStage session .idle
    | _ => s
  | .rollBack session =>
    match s.stage session with
    | .writing input _ _ => (s.unlock input.key).setStage session .idle
    | _ => s.setStage session .idle

end IngestionSystem

/-!
## Order sync

A run walks the pages a connection's provider has of the orders after its cursor, ingests what it
is handed order by order, and stores a new cursor at its end. A page is mapped as a whole before
its first order is ingested. Nothing catches what a mapping, a translation or an ingestion throws.
-/

abbrev EpochMillis := ℤ

/-- `CURSOR_OVERLAP_SECONDS`, in milliseconds. -/
def cursorOverlapMillis : EpochMillis := 1 * 1000

structure OrderSyncService (Raw Fact State Error : Type) where
  mapOrder : Raw → Except Error Fact
  /-- Translation and ingestion, one transaction. -/
  ingest : State → Fact → Except Error State
  updatedAt : Fact → Option EpochMillis

structure SyncProgress (Fact State : Type) where
  state : State
  ingested : List Fact := []

/-- What a run leaves: where it got, the cursor that is stored after it, and what it threw. -/
structure SyncOutcome (Fact State Error : Type) where
  progress : SyncProgress Fact State
  modifiedAfter : Option EpochMillis
  thrown : Option Error

/-- The greatest of the instants at which the orders seen were modified. -/
def highWatermarkMillis {Fact : Type} (updatedAt : Fact → Option EpochMillis) (facts : List Fact) :
    Option EpochMillis :=
  facts.foldl (fun high fact =>
    match updatedAt fact, high with
    | none, high => high
    | some millis, none => some millis
    | some millis, some high => if high < millis then some millis else some high) none

/-- The watermark to store: rewound by the overlap, or the one before if no order was seen. -/
def nextModifiedAfter (modifiedAfter high : Option EpochMillis) : Option EpochMillis :=
  match high with
  | none => modifiedAfter
  | some high => some (high - cursorOverlapMillis)

namespace OrderSyncService

variable {Raw Fact State Error : Type} (service : OrderSyncService Raw Fact State Error)

def ingestOrder (fact : Fact) (progress : SyncProgress Fact State) :
    Except Error Unit × SyncProgress Fact State :=
  match service.ingest progress.state fact with
  | .error error => (.error error, progress)
  | .ok state => (.ok (), ⟨state, progress.ingested ++ [fact]⟩)

def syncPage (page : List Raw) (progress : SyncProgress Fact State) :
    Except Error (List Unit) × SyncProgress Fact State :=
  match page.mapM service.mapOrder with
  | .error error => (.error error, progress)
  | .ok facts => sweep service.ingestOrder facts progress

def syncConnection (modifiedAfter : Option EpochMillis) (pages : List (List Raw)) (state : State) :
    SyncOutcome Fact State Error :=
  match sweep service.syncPage pages ⟨state, []⟩ with
  | (.error error, progress) => ⟨progress, modifiedAfter, some error⟩
  | (.ok _, progress) =>
    ⟨progress,
      nextModifiedAfter modifiedAfter (highWatermarkMillis service.updatedAt progress.ingested),
      none⟩

end OrderSyncService

namespace CommerceTables

def freshOrderId (t : CommerceTables) : OrderId := (t.orders.map (·.id)).foldr max 0 + 1

def orderSync {Raw Fact : Type} (connectionId : ConnectionId) (now : Timestamp)
    (mapOrder : Raw → CommerceResult Fact) (translate : Fact → CommerceResult CommerceOrderFact)
    (updatedAt : Fact → Option EpochMillis) :
    OrderSyncService Raw Fact CommerceTables CommerceError where
  mapOrder := mapOrder
  ingest t observed := do
    let fact ← translate observed
    let (_, ingested) ← t.ingestOrderFact t.freshOrderId { connectionId, fact, now }
    return ingested
  updatedAt := updatedAt

end CommerceTables

end Loxep

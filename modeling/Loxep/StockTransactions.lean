import Loxep.InventoryItems
import Loxep.Lib.Runs
import Loxep.Lib.Waterfall

/-!
# Concurrent stock transactions

Each call runs in one transaction under READ COMMITTED. None locks the item: a statement reads what
is committed together with its transaction's writes, an `update` of the item waits for the row only
at the end, and the balance it then writes is the one it has read.
-/

namespace Loxep

abbrev SessionId := ℕ

inductive StockCall
  | record (newId : MovementId) (value : RecordMovementInput)
  | reverse (newId movementId : MovementId) (occurredAt : Timestamp)
  | reserve (newId : AllocationId) (now : Timestamp) (input : ReserveInput)
  | release (id : AllocationId) (status : ReleaseStatus)

inductive StockStage
  | idle
  | requested (call : StockCall)
  /-- `recordMovement`, the item found. -/
  | probing (newId : MovementId) (value : RecordMovementInput)
  /-- The key was free and the movement is written, for this transaction alone to see. -/
  | written (newId : MovementId) (value : RecordMovementInput)
  /-- `refreshItemBalance`, the item's columns read. -/
  | refreshing (newId : MovementId) (value : RecordMovementInput) (status : String)
      (quantity : Money)
  /-- The ledger summed: so much of the item was committed. -/
  | summed (newId : MovementId) (value : RecordMovementInput) (status : String)
      (quantity seen : Money)
  /-- `reserve`, the item read. -/
  | reserving (newId : AllocationId) (now : Timestamp) (input : ReserveInput) (onHand : Money)
  /-- No open hold of the line on the item. -/
  | weighing (newId : AllocationId) (now : Timestamp) (input : ReserveInput) (onHand : Money)
  /-- The check passed against these figures. -/
  | granted (newId : AllocationId) (now : Timestamp) (input : ReserveInput)
      (onHand reserved : Money)
  | releasing (id : AllocationId) (status : ReleaseStatus)
  | finished

/-- Not begun, or committed or aborted. -/
def StockStage.ended : StockStage → Bool
  | .idle => true
  | .finished => true
  | _ => false

/-- What the next statement of a transaction comes to. -/
inductive StockOutcome
  | goTo (stage : StockStage)
  | commit (s : StockTables)
  /-- Returned or raised, nothing written. -/
  | finish

def StockOutcome.ofRead : InventoryResult StockStage → StockOutcome
  | .ok stage => .goTo stage
  | .error _ => .finish

def StockOutcome.ofWrite : InventoryResult StockTables → StockOutcome
  | .ok s => .commit s
  | .error _ => .finish

section Proceed

variable (s : StockTables)

def reversalOfMovement (original : InventoryMovementRow) (occurredAt : Timestamp) :
    RecordMovementInput where
  inventoryItemId := original.inventoryItemId
  movementKind := .reversal
  quantity := -original.quantity
  orderLineId := original.orderLineId
  reversesMovementId := some original.id
  deduplicationKey := movementKeyReversal original.id
  occurredAt := occurredAt

def begunMovement (newId : MovementId) (value : RecordMovementInput) :
    InventoryResult StockStage := do
  Except.require (value.quantity ≠ 0)
    (InventoryError.validation "a movement quantity may not be zero")
  assertSign value.movementKind value.quantity
  let _ ← s.loadItem value.inventoryItemId
  return .probing newId value

def begunStock : StockCall → InventoryResult StockStage
  | .record newId value => begunMovement s newId value
  | .reverse newId movementId occurredAt =>
    match s.findMovement movementId with
    | none => .error (.notFound s!"unknown movement \"{movementId}\"")
    | some original => begunMovement s newId (reversalOfMovement original occurredAt)
  | .reserve newId now input => do
    parseReserve input
    let item ← s.loadItem input.inventoryItemId
    return .reserving newId now input item.quantityOnHand
  | .release id status => do
    let _ ← loadReserved s id
    return .releasing id status

def insertedMovement (newId : MovementId) (value : RecordMovementInput) :
    InventoryResult StockStage := do
  Except.require (value.reversesMovementId.isSome ↔ value.movementKind = .reversal)
    (InventoryError.database "inventory_movements_reversal_check")
  Except.require (newId ∉ s.inventoryMovements.map (·.id))
    (InventoryError.database "inventory_movements_pkey")
  return .written newId value

def readItem (newId : MovementId) (value : RecordMovementInput) : InventoryResult StockStage := do
  let item ← s.loadItem value.inventoryItemId
  return .refreshing newId value item.status item.quantity

/-- The columns `refreshItemBalance` writes, from the balance it has summed. -/
def restated (value : RecordMovementInput) (status : String) (quantity onHand : Money)
    (i : InventoryItemRow) : InventoryItemRow :=
  { i with
    quantityOnHand := onHand
    status := deriveItemStatus status onHand quantity
    costBasisLocked := i.costBasisLocked || value.movementKind = .depletionSale }

def writeMovement (newId : MovementId) (value : RecordMovementInput) (status : String)
    (quantity seen : Money) : InventoryResult StockTables := do
  Except.require (∀ m ∈ s.inventoryMovements, m.deduplicationKey ≠ value.deduplicationKey)
    (InventoryError.database "inventory_movements_deduplication_key_uq")
  Except.require (newId ∉ s.inventoryMovements.map (·.id))
    (InventoryError.database "inventory_movements_pkey")
  let t : FactTables :=
    { s.toFactTables with
      inventoryMovements := s.inventoryMovements ++ [movementRow newId value] }
  return { s with
    toFactTables := t.updateItem value.inventoryItemId
      (restated value status quantity (seen + value.quantity)) }

def proceedStock : StockStage → StockOutcome
  | .idle => .goTo .idle
  | .requested call => .ofRead (begunStock s call)
  | .probing newId value =>
    match s.inventoryMovements.find? (·.deduplicationKey == value.deduplicationKey) with
    | some _ => .finish
    | none => .ofRead (insertedMovement s newId value)
  | .written newId value => .ofRead (readItem s newId value)
  | .refreshing newId value status quantity =>
    .goTo (.summed newId value status quantity (s.ledgerBalance value.inventoryItemId))
  | .summed newId value status quantity seen =>
    .ofWrite (writeMovement s newId value status quantity seen)
  | .reserving newId now input onHand =>
    match s.openHold input with
    | some _ => .finish
    | none => .goTo (.weighing newId now input onHand)
  | .weighing newId now input onHand =>
    let reserved := s.reservedQuantityFor input.inventoryItemId
    .ofRead ((assertAvailable input onHand reserved).map fun _ =>
      .granted newId now input onHand reserved)
  | .granted newId now input _ _ => .ofWrite (s.insertAllocation (allocationRow newId now input))
  | .releasing id status => .commit (s.setStatus id status.status)
  | .finished => .finish

end Proceed

/-- The committed tables, and where each transaction stands. `heldAgainst` is what was on hand of
an item when its last reservation was made. -/
structure StockSessions where
  tables : StockTables
  stage : SessionId → StockStage
  heldAgainst : ItemId → Money

inductive StockAction
  | begin (session : SessionId) (call : StockCall)
  | proceed (session : SessionId)
  | abort (session : SessionId)

def StockAction.session : StockAction → SessionId
  | .begin session _ => session
  | .proceed session => session
  | .abort session => session

namespace StockSessions

def initial (tables : StockTables) (heldAgainst : ItemId → Money) : StockSessions where
  tables := tables
  stage := fun _ => .idle
  heldAgainst := heldAgainst

def setStage (s : StockSessions) (session : SessionId) (stage : StockStage) : StockSessions :=
  { s with stage := fun r => if r = session then stage else s.stage r }

def held (s : StockSessions) : StockStage → ItemId → Money
  | .granted _ _ input _ _, item =>
    if item = input.inventoryItemId then
      ((s.tables.findItem item).map (·.quantityOnHand)).getD 0
    else s.heldAgainst item
  | _, item => s.heldAgainst item

def step (s : StockSessions) : StockAction → StockSessions
  | .begin session call =>
    match s.stage session with
    | .idle => s.setStage session (.requested call)
    | _ => s
  | .proceed session =>
    match proceedStock s.tables (s.stage session) with
    | .goTo stage => s.setStage session stage
    | .commit tables =>
      { s.setStage session .finished with
        tables := tables
        heldAgainst := s.held (s.stage session) }
    | .finish => s.setStage session .finished
  | .abort session =>
    match s.stage session with
    | .idle => s
    | _ => s.setStage session .finished

end StockSessions

/-!
## Runs of the stock operations

One operation after another, each a transaction of its own: a movement, a reversal, a reservation,
a release, or a delivery that a channel reports. One that raises leaves the tables as they were.
-/

inductive StockEvent
  | call (call : StockCall)
  | deliver (newId : AllocationId → MovementId) (input : DepleteOnFulfillmentInput)

namespace StockTables

variable (s : StockTables)

def perform : StockCall → InventoryResult StockTables
  | .record newId value =>
    (recordMovement s.toFactTables newId value).map fun r => { s with toFactTables := r.2 }
  | .reverse newId movementId occurredAt =>
    (reverseMovement s.toFactTables newId movementId occurredAt).map fun r =>
      { s with toFactTables := r.2 }
  | .reserve newId now input => (Loxep.reserve s newId now input).map Prod.snd
  | .release id status => (Loxep.release s id status).map Prod.snd

def handle : StockEvent → InventoryResult StockTables
  | .call call => s.perform call
  | .deliver newId input => (depleteOnFulfillment s newId input).map Prod.snd

def step (event : StockEvent) : StockTables :=
  match s.handle event with
  | .ok t => t
  | .error _ => s

/-- What the ledger has not yet consumed of a reservation. -/
def outstanding (a : InventoryAllocationRow) : Money :=
  a.quantity - s.depletedAgainstAllocation a.id

def taken (input : DepleteOnFulfillmentInput) : List (InventoryAllocationRow × Money) :=
  Waterfall.pour s.outstanding (s.reservedFor input.orderLineId) input.quantity

def firstOpen (line : OrderLineId) : Option InventoryAllocationRow :=
  (s.reservedFor line).find? fun a => 0 < s.outstanding a

def keyed (input : DepleteOnFulfillmentInput) (a : InventoryAllocationRow) : Bool :=
  s.inventoryMovements.any (·.deduplicationKey ==
    movementKeyDepletionSale input.orderFulfillmentId input.orderLineId a.id)

def delivered (input : DepleteOnFulfillmentInput) : Bool :=
  s.inventoryAllocations.any (s.keyed input)

/-- A fulfilment reported again is told apart from a new one: nothing is outstanding on its line, or
it has depleted the oldest open reservation itself and asks for less than is outstanding there. -/
def orderly : StockEvent → Bool
  | .call (.record _ value) =>
    value.inventoryAllocationId.isNone && value.movementKind != .reversal
  | .call _ => true
  | .deliver _ input =>
    !s.delivered input || (s.firstOpen input.orderLineId).all fun a =>
      s.keyed input a && decide (input.quantity < s.outstanding a)

end StockTables

/-!
## Runs of the operations on items and their basis

Items are created, parted out, moved, handed to another entity and costed, and stock is received,
sold and returned, each operation a transaction of its own. One that raises leaves the tables as
they were.
-/

inductive ItemAction
  | createAcquisition (connections : List ConnectionRow) (now : Timestamp)
      (input : CreateAcquisitionInput)
  | addCost (input : AddCostInput)
  | create (now : Timestamp) (ids : CreateItemIds) (input : CreateItemInput)
  | partOut (ids : PartOutIds) (input : PartOutInput)
  | moveToLocation (ids : TransferIds) (input : MoveToLocationInput)
  | transferEntity (ids : TransferIds) (input : TransferEntityInput)
  | allocateCosts (input : AllocateCostsInput)
  | correctCostBasis (input : CorrectCostBasisInput)
  | stock (event : StockEvent)

def ItemAction.corrects : ItemAction → Option ItemId
  | .correctCostBasis input => some input.inventoryItemId
  | _ => none

namespace StockTables

variable (s : StockTables)

def lift {α : Type} (result : InventoryResult (α × FactTables)) : InventoryResult StockTables :=
  result.map fun r => { s with toFactTables := r.2 }

def execute : ItemAction → InventoryResult StockTables
  | .createAcquisition connections now input =>
    s.lift (s.toFactTables.createAcquisition connections now input)
  | .addCost input => s.lift (s.toFactTables.addCost input)
  | .create now ids input => s.lift (createItem s.toFactTables now ids input)
  | .partOut ids input => s.lift (Loxep.partOut s.toFactTables ids input)
  | .moveToLocation ids input => s.lift (Loxep.moveToLocation s.toFactTables ids input)
  | .transferEntity ids input => s.lift (Loxep.transferEntity s.toFactTables ids input)
  | .allocateCosts input => s.lift (Loxep.allocateCosts s.toFactTables input)
  | .correctCostBasis input => s.lift (Loxep.correctCostBasis s.toFactTables input)
  | .stock event => s.handle event

def apply (action : ItemAction) : StockTables :=
  match s.execute action with
  | .ok t => t
  | .error _ => s

def partHasCost (item : InventoryItemRow) (moved : Money) : Bool :=
  decide (item.quantity ≤ 2 * (|item.landedCostAmount| * moved))

/-- The action takes cost off an item whose basis is locked: the whole of it in a part-out, the
share of a part that moves away or changes owner. -/
def strips : ItemAction → Bool
  | .partOut _ input => (s.findItem input.inventoryItemId).any fun item =>
    item.costBasisLocked && item.landedCostAmount != 0
  | .moveToLocation _ input => (s.findItem input.inventoryItemId).any fun item =>
    let moved := input.quantity.getD item.quantityOnHand
    item.costBasisLocked && moved != item.quantityOnHand && partHasCost item moved
  | .transferEntity _ input => (s.findItem input.inventoryItemId).any fun item =>
    item.costBasisLocked && partHasCost item (input.quantity.getD item.quantityOnHand)
  | _ => false

end StockTables

end Loxep

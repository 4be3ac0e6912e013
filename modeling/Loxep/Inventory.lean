import Loxep.Lib.LargestRemainder
import Loxep.SourceFacts

/-!
# The movement ledger of the stock

`recordMovement` is the single writer of the append-only movements and of the cached balance on
their item, which it recomputes from the ledger. `distributeByWeights` spreads an amount so that
its shares sum to it exactly.
-/

namespace Loxep

inductive InventoryErrorClass
  | validation
  | notFound
  | conflict
  | immutableFact
  | allocation
  | database
  deriving DecidableEq

structure InventoryError where
  errorClass : InventoryErrorClass
  message : String
  deriving DecidableEq

namespace InventoryError

def validation (message : String) : InventoryError := ⟨.validation, message⟩

def notFound (message : String) : InventoryError := ⟨.notFound, message⟩

def conflict (message : String) : InventoryError := ⟨.conflict, message⟩

def immutableFact (message : String) : InventoryError := ⟨.immutableFact, message⟩

def allocation (message : String) : InventoryError := ⟨.allocation, message⟩

def database (message : String) : InventoryError := ⟨.database, message⟩

end InventoryError

abbrev InventoryResult (α : Type) := Except InventoryError α

structure Distribution where
  shares : List Money
  unallocated : Money

def signedLike (total : ℤ) (units : ℕ) : ℤ := if total < 0 then -units else units

/-- `total` over the weights, by largest remainders on its magnitude. -/
def distributeByWeights (total : Money) (weights : List Money) : InventoryResult Distribution :=
  if weights = [] then .ok ⟨[], total⟩
  else if ∃ w ∈ weights, w < 0 then
    .error (.validation "allocation weights must be non-negative")
  else if weights.sum = 0 then .ok ⟨weights.map fun _ => 0, total⟩
  else .ok ⟨(LargestRemainder.apportion total.natAbs (weights.map Int.toNat)).map
    (signedLike total), 0⟩

example : (distributeByWeights (-3) [1, 1, 2]).toOption.map (·.shares) = some [-1, -1, -1] := by
  decide

/-- The deduplication keys, each computed from the fact that causes the movement. -/
def movementKeyFound (sessionKey : String) (item : ItemId) : String :=
  s!"found:{sessionKey}:item:{item}"

def movementKeyDepletionSale (orderFulfillmentId orderLineId : ℕ) (allocation : AllocationId) :
    String :=
  s!"ffl:{orderFulfillmentId}:{orderLineId}:alloc:{allocation}"

def movementKeyTransfer (transferGroupId : ℕ) (half : String) : String :=
  s!"xfer:{transferGroupId}:{half}"

def movementKeyReversal (reversesMovementId : MovementId) : String :=
  s!"rev:{reversesMovementId}"

def movementKeyEvent (kind sessionKey : String) (item : ItemId) : String :=
  s!"{kind}:{sessionKey}:item:{item}"

def MovementKind.inbound : MovementKind → Bool
  | .receipt | .transferIn | .returnIn | .adjustmentIn | .found => true
  | _ => false

structure RecordMovementInput where
  inventoryItemId : ItemId
  movementKind : MovementKind
  quantity : Money
  inventoryAllocationId : Option AllocationId := none
  orderLineId : Option ℕ := none
  reversesMovementId : Option MovementId := none
  deduplicationKey : String
  occurredAt : Timestamp

structure RecordMovementResult where
  movement : InventoryMovementRow
  created : Bool
  quantityOnHand : Money
  oversell : Bool

def assertSign (kind : MovementKind) (quantity : Money) : InventoryResult Unit :=
  let required := if kind.inbound then "positive" else "negative"
  Except.require (kind = .reversal ∨ (kind.inbound ↔ 0 < quantity))
    (InventoryError.validation (s!"movement kind \"{kind.text}\" requires a {required} " ++
      "quantity"))

/-- The status a balance implies, where no decision stands against it. -/
def deriveItemStatus (current : String) (quantityOnHand quantity : Money) : String :=
  if current = "written_off" ∨ current = "archived" then current
  else if quantityOnHand ≤ 0 then "depleted"
  else if quantityOnHand < quantity then "partially_depleted"
  else if current = "listed" ∨ current = "reserved" ∨ current = "intake" then current
  else "available"

namespace FactTables

variable (t : FactTables)

def loadItem (id : ItemId) : InventoryResult InventoryItemRow :=
  match t.findItem id with
  | some item => .ok item
  | none => .error (.notFound s!"unknown inventory item \"{id}\"")

/-- `insert into inventory_items`. -/
def insertItem (row : InventoryItemRow) : InventoryResult FactTables := do
  Except.require (row.id ∉ t.inventoryItems.map (·.id))
    (InventoryError.database "inventory_items_pkey")
  Except.require (0 < row.quantity) (InventoryError.database "inventory_items_quantity_check")
  return { t with inventoryItems := t.inventoryItems ++ [row] }

/-- `update inventory_items set … where id = …`. -/
def updateItem (id : ItemId) (f : InventoryItemRow → InventoryItemRow) : FactTables :=
  { t with inventoryItems := t.inventoryItems.map fun i => if i.id = id then f i else i }

def ledgerBalance (id : ItemId) : Money :=
  ((t.inventoryMovements.filter (·.inventoryItemId == id)).map (·.quantity)).sum

def refreshItemBalance (id : ItemId) (lockBasis : Bool) : FactTables :=
  let onHand := t.ledgerBalance id
  t.updateItem id fun i =>
    { i with
      quantityOnHand := onHand
      status := deriveItemStatus i.status onHand i.quantity
      costBasisLocked := i.costBasisLocked || lockBasis }

end FactTables

def movementRow (newId : MovementId) (value : RecordMovementInput) : InventoryMovementRow where
  id := newId
  inventoryItemId := value.inventoryItemId
  movementKind := value.movementKind
  quantity := value.quantity
  inventoryAllocationId := value.inventoryAllocationId
  orderLineId := value.orderLineId
  reversesMovementId := value.reversesMovementId
  deduplicationKey := value.deduplicationKey
  occurredAt := value.occurredAt

/-- Write one movement and maintain its item's balance; a key already there writes nothing. The
balance may go below zero: that is reported, not refused. -/
def recordMovement (t : FactTables) (newId : MovementId) (value : RecordMovementInput) :
    InventoryResult (RecordMovementResult × FactTables) := do
  Except.require (value.quantity ≠ 0)
    (InventoryError.validation "a movement quantity may not be zero")
  assertSign value.movementKind value.quantity
  let item ← t.loadItem value.inventoryItemId
  match t.inventoryMovements.find? (·.deduplicationKey == value.deduplicationKey) with
  | some existing =>
    return (⟨existing, false, item.quantityOnHand, decide (item.quantityOnHand < 0)⟩, t)
  | none => do
    Except.require (value.reversesMovementId.isSome ↔ value.movementKind = .reversal)
      (InventoryError.database "inventory_movements_reversal_check")
    Except.require (newId ∉ t.inventoryMovements.map (·.id))
      (InventoryError.database "inventory_movements_pkey")
    let movement := movementRow newId value
    let written := { t with inventoryMovements := t.inventoryMovements ++ [movement] }
    let onHand := written.ledgerBalance value.inventoryItemId
    return (⟨movement, true, onHand, decide (onHand < 0)⟩,
      written.refreshItemBalance value.inventoryItemId (value.movementKind = .depletionSale))

structure QuantityDrift where
  inventoryItemId : ItemId
  itemCode : String
  cachedQuantityOnHand : Money
  ledgerQuantityOnHand : Money
  difference : Money

structure ReconcileResult where
  itemsChecked : ℕ
  drift : List QuantityDrift
  repaired : Bool

def FactTables.quantityDrift (t : FactTables) (scope : Option ItemId) : List QuantityDrift :=
  ((t.inventoryItems.filter fun i => scope.all (· == i.id) &&
    t.ledgerBalance i.id != i.quantityOnHand).insertionSort fun a b => a.itemCode ≤ b.itemCode).map
      fun i => ⟨i.id, i.itemCode, i.quantityOnHand, t.ledgerBalance i.id,
        t.ledgerBalance i.id - i.quantityOnHand⟩

def reconcileQuantityOnHand (t : FactTables) (apply : Bool) (inventoryItemId : Option ItemId) :
    ReconcileResult × FactTables :=
  let drift := t.quantityDrift inventoryItemId
  let repaired := apply && !drift.isEmpty
  (⟨(t.inventoryItems.filter fun i => inventoryItemId.all (· == i.id)).length, drift, repaired⟩,
    if repaired then
      drift.foldl (fun t entry => t.refreshItemBalance entry.inventoryItemId false) t
    else t)

def reverseMovement (t : FactTables) (newId movementId : MovementId) (occurredAt : Timestamp) :
    InventoryResult (RecordMovementResult × FactTables) :=
  match t.findMovement movementId with
  | none => .error (.notFound s!"unknown movement \"{movementId}\"")
  | some original =>
    recordMovement t newId
      { inventoryItemId := original.inventoryItemId
        movementKind := .reversal
        quantity := -original.quantity
        orderLineId := original.orderLineId
        reversesMovementId := some original.id
        deduplicationKey := movementKeyReversal original.id
        occurredAt := occurredAt }

/-!
## Reservations, and depletion on fulfilment

A reservation moves no stock: what is available to sell is what is on hand less what the open
reservations hold. A fulfilment consumes the reservations of its order line, oldest first, each
by one movement under a key of its own.
-/

abbrev FulfillmentId := ℕ
abbrev OrderLineId := ℕ

inductive AllocationKind
  | orderLine
  | manualHold
  | transfer
  | project
  deriving DecidableEq

inductive AllocationStatus
  | reserved
  | fulfilled
  | released
  | cancelled
  | expired
  deriving DecidableEq

def AllocationStatus.text : AllocationStatus → String
  | .reserved => "reserved"
  | .fulfilled => "fulfilled"
  | .released => "released"
  | .cancelled => "cancelled"
  | .expired => "expired"

structure InventoryAllocationRow where
  id : AllocationId
  inventoryItemId : ItemId
  allocationKind : AllocationKind
  orderLineId : Option OrderLineId
  quantity : Money
  status : AllocationStatus
  allocatedAt : Timestamp
  expiresAt : Option Timestamp

structure StockTables extends FactTables where
  inventoryAllocations : List InventoryAllocationRow

structure ReserveInput where
  inventoryItemId : ItemId
  allocationKind : AllocationKind
  orderLineId : Option OrderLineId
  quantity : Money
  expiresAt : Option Timestamp
  allowOverAllocation : Bool

inductive ReleaseStatus
  | released
  | cancelled
  | expired

def ReleaseStatus.status : ReleaseStatus → AllocationStatus
  | .released => .released
  | .cancelled => .cancelled
  | .expired => .expired

namespace StockTables

variable (s : StockTables)

def findAllocation (id : AllocationId) : Option InventoryAllocationRow :=
  s.inventoryAllocations.find? (·.id == id)

def setStatus (id : AllocationId) (status : AllocationStatus) : StockTables :=
  { s with inventoryAllocations := s.inventoryAllocations.map fun a =>
      if a.id = id then { a with status := status } else a }

def reservedQuantityFor (item : ItemId) : Money :=
  ((s.inventoryAllocations.filter fun a =>
    a.inventoryItemId == item && a.status == .reserved).map (·.quantity)).sum

def availableToSell (item : ItemId) : InventoryResult Money := do
  let i ← s.loadItem item
  return i.quantityOnHand - s.reservedQuantityFor item

/-- `inventory_allocations_line_item_open_uq`: a line holds an item once. -/
def holds (line : OrderLineId) (item : ItemId) (a : InventoryAllocationRow) : Bool :=
  a.orderLineId == some line && a.inventoryItemId == item &&
    (a.status == .reserved || a.status == .fulfilled)

def openHold (input : ReserveInput) : Option InventoryAllocationRow :=
  input.orderLineId.bind fun line =>
    s.inventoryAllocations.find? (holds line input.inventoryItemId)

end StockTables

/-- `reserveSchema`, and the check on the quantity. -/
def parseReserve (input : ReserveInput) : InventoryResult Unit := do
  Except.require ((input.allocationKind = .orderLine) ↔ input.orderLineId.isSome)
    (InventoryError.validation ("invalid reservation: orderLineId: allocationKind " ++
      "'order_line' requires orderLineId, and vice versa " ++
      "(inventory_allocations_kind_reference_check)"))
  Except.require (0 < input.quantity)
    (InventoryError.validation "a reservation quantity must be positive")

def assertAvailable (input : ReserveInput) (onHand reserved : Money) : InventoryResult Unit :=
  let available := onHand - reserved
  Except.require (input.allowOverAllocation ∨ input.quantity ≤ available)
    (InventoryError.allocation (s!"cannot reserve {formatDecimal input.quantity}: " ++
      s!"available-to-sell is {formatDecimal available} (on hand {formatDecimal onHand} − " ++
      s!"reserved {formatDecimal reserved})"))

def allocationRow (newId : AllocationId) (now : Timestamp) (input : ReserveInput) :
    InventoryAllocationRow where
  id := newId
  inventoryItemId := input.inventoryItemId
  allocationKind := input.allocationKind
  orderLineId := input.orderLineId
  quantity := input.quantity
  status := .reserved
  allocatedAt := now
  expiresAt := input.expiresAt

/-- `insert into inventory_allocations`. -/
def StockTables.insertAllocation (s : StockTables) (row : InventoryAllocationRow) :
    InventoryResult StockTables := do
  Except.require (row.id ∉ s.inventoryAllocations.map (·.id))
    (InventoryError.database "inventory_allocations_pkey")
  Except.require (∀ line ∈ row.orderLineId,
    ¬ s.inventoryAllocations.any (StockTables.holds line row.inventoryItemId))
    (InventoryError.database "inventory_allocations_line_item_open_uq")
  return { s with inventoryAllocations := s.inventoryAllocations ++ [row] }

def reserve (s : StockTables) (newId : AllocationId) (now : Timestamp) (input : ReserveInput) :
    InventoryResult (InventoryAllocationRow × StockTables) := do
  parseReserve input
  let item ← s.loadItem input.inventoryItemId
  match s.openHold input with
  | some hold => return (hold, s)
  | none => do
    assertAvailable input item.quantityOnHand (s.reservedQuantityFor input.inventoryItemId)
    let row := allocationRow newId now input
    let s ← s.insertAllocation row
    return (row, s)

def loadReserved (s : StockTables) (id : AllocationId) :
    InventoryResult InventoryAllocationRow :=
  match s.findAllocation id with
  | none => .error (.notFound s!"unknown allocation \"{id}\"")
  | some allocation => do
    Except.require (allocation.status = .reserved)
      (InventoryError.allocation (s!"allocation \"{id}\" is {allocation.status.text}, not " ++
        "reserved; a fulfilled allocation is history and is corrected " ++
        "with a reversal movement, not by releasing it"))
    return allocation

def release (s : StockTables) (id : AllocationId) (status : ReleaseStatus) :
    InventoryResult (InventoryAllocationRow × StockTables) := do
  let allocation ← loadReserved s id
  return ({ allocation with status := status.status }, s.setStatus id status.status)

structure DepleteOnFulfillmentInput where
  orderFulfillmentId : FulfillmentId
  orderLineId : OrderLineId
  quantity : Money
  occurredAt : Timestamp

structure Depletion where
  allocationId : AllocationId
  inventoryItemId : ItemId
  quantity : Money
  movementId : MovementId
  created : Bool
  oversell : Bool

structure DepletionResult where
  depletions : List Depletion
  unmatchedQuantity : Money
  unmatched : Bool

namespace FactTables

variable (t : FactTables)

def reversedBy (id : MovementId) : Money :=
  ((t.inventoryMovements.filter fun r =>
    r.movementKind == .reversal && r.reversesMovementId == some id).map (·.quantity)).sum

def depletedAgainstAllocation (id : AllocationId) : Money :=
  -((t.inventoryMovements.filter fun m =>
    m.inventoryAllocationId == some id && m.movementKind == .depletionSale).map fun m =>
      m.quantity + t.reversedBy m.id).sum

end FactTables

def StockTables.reservedFor (s : StockTables) (line : OrderLineId) :
    List InventoryAllocationRow :=
  (s.inventoryAllocations.filter fun a =>
    a.orderLineId == some line && a.status == .reserved).insertionSort fun a b =>
      a.allocatedAt < b.allocatedAt ∨ (a.allocatedAt = b.allocatedAt ∧ a.id ≤ b.id)

def depletionInput (input : DepleteOnFulfillmentInput) (allocation : InventoryAllocationRow)
    (take : Money) : RecordMovementInput where
  inventoryItemId := allocation.inventoryItemId
  movementKind := .depletionSale
  quantity := -take
  inventoryAllocationId := some allocation.id
  orderLineId := some input.orderLineId
  deduplicationKey := movementKeyDepletionSale input.orderFulfillmentId input.orderLineId
    allocation.id
  occurredAt := input.occurredAt

def consumeAllocation (s : StockTables) (newId : MovementId) (input : DepleteOnFulfillmentInput)
    (allocation : InventoryAllocationRow) (alreadyDepleted take : Money) :
    InventoryResult (Depletion × StockTables) := do
  let (result, t) ← recordMovement s.toFactTables newId (depletionInput input allocation take)
  let s := { s with toFactTables := t }
  let consumed := alreadyDepleted + take
  return (⟨allocation.id, allocation.inventoryItemId, take, result.movement.id, result.created,
      result.oversell⟩,
    if allocation.quantity ≤ consumed then s.setStatus allocation.id .fulfilled else s)

/-- The loop over the reservations: what it depletes, what stays unmatched. Each allocation's
movement takes the id generated for it. -/
def consumeAllocations (newId : AllocationId → MovementId) (input : DepleteOnFulfillmentInput) :
    List InventoryAllocationRow → StockTables → Money →
      InventoryResult (List Depletion × Money × StockTables)
  | [], s, remaining => .ok ([], remaining, s)
  | allocation :: allocations, s, remaining =>
    if remaining ≤ 0 then .ok ([], remaining, s)
    else
      let alreadyDepleted := s.depletedAgainstAllocation allocation.id
      let outstanding := allocation.quantity - alreadyDepleted
      if outstanding ≤ 0 then consumeAllocations newId input allocations s remaining
      else do
        let take := if outstanding ≤ remaining then outstanding else remaining
        let (depletion, s) ← consumeAllocation s (newId allocation.id) input allocation
          alreadyDepleted take
        let (depletions, remaining, s) ←
          consumeAllocations newId input allocations s (remaining - take)
        return (depletion :: depletions, remaining, s)

def depleteOnFulfillment (s : StockTables) (newId : AllocationId → MovementId)
    (input : DepleteOnFulfillmentInput) : InventoryResult (DepletionResult × StockTables) := do
  Except.require (0 < input.quantity)
    (InventoryError.validation "a fulfilled quantity must be positive")
  let (depletions, remaining, s) ←
    consumeAllocations newId input (s.reservedFor input.orderLineId) s input.quantity
  return (⟨depletions, if 0 < remaining then remaining else 0, depletions.isEmpty⟩, s)

end Loxep

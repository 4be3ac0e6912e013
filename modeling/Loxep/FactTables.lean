import Loxep.Books
import Loxep.Decimal

/-!
# The operational tables a source fact is read from

Orders with their fees and refunds, expenses with their allocations, acquisitions with their
costs, and inventory items with their movements: the columns the readers, the split and the
depletion arithmetic use. A table is a list of its rows, in the order they were created.
-/

namespace Loxep

abbrev FactId := ℕ
abbrev ItemId := ℕ
abbrev MovementId := ℕ
abbrev LocationId := ℕ
abbrev AllocationId := ℕ

structure OrderRow where
  id : FactId
  provider : String
  channel : String
  economicEntityId : Option EntityId
  currency : String
  status : String
  subtotalAmount : Money
  shippingAmount : Money
  discountAmount : Money
  taxAmount : Money
  feeAmount : Money
  refundedAmount : Money
  totalAmount : Money
  externalOrderId : String
  externalOrderNumber : Option String
  placedAt : Timestamp
  duplicateOfOrderId : Option FactId

structure OrderLineRow where
  id : ℕ
  orderId : FactId

inductive FeeDirection
  | sellerCharge
  | buyerSurcharge
  deriving DecidableEq

def FeeDirection.text : FeeDirection → String
  | .sellerCharge => "seller_charge"
  | .buyerSurcharge => "buyer_surcharge"

structure OrderFeeRow where
  id : FactId
  orderId : FactId
  feeDirection : FeeDirection
  feeType : String
  currency : String
  amount : Money
  chargedAt : Option Timestamp

structure OrderRefundRow where
  id : FactId
  orderId : FactId
  status : String
  currency : String
  amount : Money
  refundedAt : Option Timestamp

inductive ExpenseStatus
  | draft
  | recorded
  | posted
  | void
  deriving DecidableEq

def ExpenseStatus.text : ExpenseStatus → String
  | .draft => "draft"
  | .recorded => "recorded"
  | .posted => "posted"
  | .void => "void"

structure ExpenseRow where
  id : FactId
  referenceCode : String
  category : String
  status : ExpenseStatus
  currency : String
  amount : Money
  taxAmount : Money
  expenseDate : CalendarDate
  payeeName : Option String
  economicEntityId : Option EntityId
  accountingBookId : Option BookId
  acquisitionCostId : Option FactId

structure ExpenseAllocationRow where
  expenseId : FactId
  lineNumber : ℕ
  ledgerAccountId : Option AccountId
  amount : Money
  economicEntityId : Option EntityId
  dimensionValueId : Option DimensionValueId

inductive CostAllocationBasis
  | equal
  | relativeValue
  | weight
  | manual
  | direct
  deriving DecidableEq

inductive CostAllocationStatus
  | pending
  | provisional
  | final
  deriving DecidableEq

structure AcquisitionRow where
  id : ℕ
  status : String
  sourceKind : String
  currency : String
  vendorName : Option String
  economicEntityId : Option EntityId
  referenceCode : String
  acquiredAt : Timestamp
  connectionId : Option ℕ := none
  externalReference : Option String := none
  costAllocationBasis : CostAllocationBasis := .relativeValue
  costAllocationStatus : CostAllocationStatus := .pending

inductive CostClass
  | goods
  | ancillary
  deriving DecidableEq

structure AcquisitionCostRow where
  id : FactId
  acquisitionId : ℕ
  costType : String
  capitalize : Bool
  currency : String
  amount : Money
  vendorName : Option String
  incurredAt : Option Timestamp
  inventoryItemId : Option ItemId := none
  costClass : CostClass := .goods

inductive SaleMode
  | unit
  | lot
  | set
  | partsDonor
  | partedOut
  | bundleComponent
  deriving DecidableEq

structure InventoryItemRow where
  id : ItemId
  itemCode : String
  acquisitionId : Option ℕ
  economicEntityId : Option EntityId
  locationId : Option LocationId
  originItemId : Option ItemId
  status : String
  quantity : Money
  quantityOnHand : Money
  currency : String
  acquisitionCostAmount : Money
  landedCostAmount : Money
  costBasisLocked : Bool
  saleMode : SaleMode
  estimatedValueAmount : Option Money := none
  costAllocationWeight : Option Money := none
  costAllocationBasis : Option CostAllocationBasis := none

inductive MovementKind
  | receipt
  | transferIn
  | returnIn
  | adjustmentIn
  | found
  | transferOut
  | depletionSale
  | adjustmentOut
  | shrinkage
  | disposal
  | consumption
  | reversal
  deriving DecidableEq

def MovementKind.text : MovementKind → String
  | .receipt => "receipt"
  | .transferIn => "transfer_in"
  | .returnIn => "return_in"
  | .adjustmentIn => "adjustment_in"
  | .found => "found"
  | .transferOut => "transfer_out"
  | .depletionSale => "depletion_sale"
  | .adjustmentOut => "adjustment_out"
  | .shrinkage => "shrinkage"
  | .disposal => "disposal"
  | .consumption => "consumption"
  | .reversal => "reversal"

structure InventoryMovementRow where
  id : MovementId
  inventoryItemId : ItemId
  movementKind : MovementKind
  quantity : Money
  inventoryAllocationId : Option AllocationId
  orderLineId : Option ℕ
  reversesMovementId : Option MovementId
  deduplicationKey : String
  occurredAt : Timestamp

structure FactTables where
  orders : List OrderRow
  orderLines : List OrderLineRow
  orderFees : List OrderFeeRow
  orderRefunds : List OrderRefundRow
  expenses : List ExpenseRow
  expenseAllocations : List ExpenseAllocationRow
  acquisitions : List AcquisitionRow
  acquisitionCosts : List AcquisitionCostRow
  inventoryItems : List InventoryItemRow
  inventoryMovements : List InventoryMovementRow

def FactTables.empty : FactTables := ⟨[], [], [], [], [], [], [], [], [], []⟩

/-- Whether the movement sorts before the other by `(occurred_at, id)`. -/
def InventoryMovementRow.precedes (p m : InventoryMovementRow) : Bool :=
  decide (p.occurredAt < m.occurredAt) ||
    (decide (p.occurredAt = m.occurredAt) && decide (p.id < m.id))

end Loxep

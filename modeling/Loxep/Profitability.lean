import Loxep.Inventory

/-!
# The cost basis the profitability report attributes

Depletions are grouped by item and order line, net of the reversals that point back at them. The
depleted part of an item's landed cost is spread over its groups by quantity, the units left over
going to the largest remainders.
-/

namespace Loxep

/-- What a report is restricted to; an entity of `some none` selects the unattributed items. -/
structure ProfitabilityFilter where
  orderId : Option FactId := none
  acquisitionId : Option ℕ := none
  economicEntityId : Option (Option EntityId) := none
  fromDate : Option Timestamp := none
  toDate : Option Timestamp := none

def ProfitabilityFilter.admits (filter : ProfitabilityFilter) (o : OrderRow) (i : InventoryItemRow)
    : Bool :=
  o.duplicateOfOrderId.isNone && filter.orderId.all (· == o.id) &&
    filter.fromDate.all (fun since => decide (since ≤ o.placedAt)) &&
    filter.toDate.all (fun upTo => decide (o.placedAt < upTo)) &&
    filter.economicEntityId.all (· == i.economicEntityId) &&
    filter.acquisitionId.all (some · == i.acquisitionId)

def orderPredicates (filter : ProfitabilityFilter) :
    InventoryResult (OrderRow → InventoryItemRow → Bool) :=
  match filter.fromDate, filter.toDate with
  | some since, some upTo =>
    if upTo < since then .error (.validation "report filter `from` is after `to`")
    else .ok filter.admits
  | _, _ => .ok filter.admits

structure DepletionFact where
  inventoryItemId : ItemId
  orderLineId : ℕ
  orderId : FactId
  quantity : Money

def DepletionFact.group (d : DepletionFact) : ℕ ×ₗ ℕ ×ₗ ℕ :=
  toLex (d.orderId, toLex (d.orderLineId, d.inventoryItemId))

namespace FactTables

variable (t : FactTables)

def depletionRow (admits : OrderRow → InventoryItemRow → Bool) (m : InventoryMovementRow) :
    Option DepletionFact := do
  let lineId ← m.orderLineId
  let line ← t.orderLines.find? (·.id == lineId)
  let order ← t.findOrder line.orderId
  let item ← t.findItem m.inventoryItemId
  if m.movementKind = .depletionSale ∧ admits order item then
    some ⟨m.inventoryItemId, lineId, line.orderId, -(m.quantity + t.reversedBy m.id)⟩
  else none

/-- The depletions by item and order line, in the order of order, line and item; a group that was
reversed as a whole is no sale. -/
def depletionFacts (admits : OrderRow → InventoryItemRow → Bool) : List DepletionFact :=
  let rows := t.inventoryMovements.filterMap (t.depletionRow admits)
  let groups := (rows.map (·.group)).dedup.map fun group =>
    { inventoryItemId := (ofLex (ofLex group).2).2
      orderLineId := (ofLex (ofLex group).2).1
      orderId := (ofLex group).1
      quantity := ((rows.filter (·.group = group)).map (·.quantity)).sum }
  (groups.filter fun d => 0 < d.quantity).insertionSort fun a b => a.group ≤ b.group

end FactTables

def itemEvents (depletions : List DepletionFact) (item : ItemId) : List DepletionFact :=
  depletions.filter (·.inventoryItemId == item)

def depletedPool (item : InventoryItemRow) (totalDepleted : Money) : InventoryResult Money :=
  if item.quantity ≤ totalDepleted then .ok item.landedCostAmount
  else do
    let distribution ← distributeByWeights item.landedCostAmount
      [totalDepleted, item.quantity - totalDepleted]
    return (distribution.shares[0]?).getD 0

def basisByEvent (depletions : List DepletionFact) (item : InventoryItemRow) :
    InventoryResult (List (ℕ × Money)) := do
  let events := itemEvents depletions item.id
  let pool ← depletedPool item (sumDecimals (events.map (·.quantity)))
  let distribution ← distributeByWeights pool (events.map (·.quantity))
  return (events.map (·.orderLineId)).zip distribution.shares

structure ItemContributionRow where
  inventoryItemId : ItemId
  itemCode : String
  orderId : FactId
  orderLineId : ℕ
  currency : String
  costCurrency : String
  contributionComputable : Bool
  economicEntityId : Option EntityId
  acquisitionId : Option ℕ
  consignment : Bool
  depletedQuantity : Money
  costBasisAmount : Money

def contributionRow (t : FactTables) (item : InventoryItemRow) (order : OrderRow)
    (d : DepletionFact) (basis : List (ℕ × Money)) : ItemContributionRow where
  inventoryItemId := item.id
  itemCode := item.itemCode
  orderId := order.id
  orderLineId := d.orderLineId
  currency := order.currency
  costCurrency := item.currency
  contributionComputable := item.currency == order.currency
  economicEntityId := item.economicEntityId
  acquisitionId := item.acquisitionId
  consignment := (item.acquisitionId.bind t.findAcquisition).any
    (·.sourceKind == "consignment_intake")
  depletedQuantity := d.quantity
  costBasisAmount := (basis.lookup d.orderLineId).getD 0

def contributionRows (t : FactTables) (depletions : List DepletionFact) :
    List DepletionFact → InventoryResult (List ItemContributionRow)
  | [] => .ok []
  | d :: rest =>
    match t.findItem d.inventoryItemId, t.findOrder d.orderId with
    | some item, some order => do
      let basis ← basisByEvent depletions item
      let rows ← contributionRows t depletions rest
      return contributionRow t item order d basis :: rows
    | _, _ => contributionRows t depletions rest

def itemRealizedContribution (t : FactTables) (filter : ProfitabilityFilter) :
    InventoryResult (List ItemContributionRow) := do
  let admits ← orderPredicates filter
  let depletions := t.depletionFacts admits
  contributionRows t depletions depletions

end Loxep

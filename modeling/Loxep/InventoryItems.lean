import Loxep.Acquisitions

/-!
# Items: intake, moves, part-outs and basis corrections

An item row is a cost layer, created with nothing on hand and then received. A partial move and a
change of owner split a new row off it, with its share of the basis; `partOut` hands the whole
stored basis out among the children of a unit; `correctCostBasis` alone is meant to rewrite a locked
basis.
-/

namespace Loxep

structure CreateItemIds where
  item : ItemId
  itemCode : String
  movement : MovementId

structure CreateItemInput where
  label : String
  currency : String
  acquisitionId : Option AcquisitionId := none
  locationId : Option LocationId := none
  economicEntityId : Option EntityId := none
  installationDefaultEntityId : Option EntityId := none
  itemCode : Option String := none
  gradingAuthority : Option String := none
  gradeLabel : Option String := none
  quantity : Money := moneyUnits
  acquisitionCostAmount : Option Money := none
  landedCostAmount : Option Money := none
  costAllocationWeight : Option Money := none
  estimatedValueAmount : Option Money := none
  acquiredAt : Option Timestamp := none
  receivedAt : Option Timestamp := none
  status : String := "intake"
  receive : Bool := true
  receiptSessionKey : Option String := none

/-- `createItemSchema`. -/
def parseItem (value : CreateItemInput) : InventoryResult Unit := do
  let invalid := fun field => InventoryError.validation s!"invalid inventory item: {field}"
  Except.require (trim value.label ≠ "") (invalid "label")
  Except.require (isCurrencyCode value.currency = true) (invalid "currency")
  Except.require (∀ code ∈ value.itemCode, trim code ≠ "" ∧ (trim code).length ≤ 64)
    (invalid "itemCode")
  Except.require (∀ authority ∈ value.gradingAuthority, trim authority ≠ "")
    (invalid "gradingAuthority")
  Except.require (∀ label ∈ value.gradeLabel, trim label ≠ "") (invalid "gradeLabel")
  Except.require (0 < value.quantity) (invalid "quantity")
  Except.require (value.status ≠ "") (invalid "status")
  Except.require (value.receiptSessionKey ≠ some "") (invalid "receiptSessionKey")
  Except.require (value.gradeLabel.isSome → value.gradingAuthority.isSome)
    (invalid ("gradingAuthority: a grade label requires a grading authority " ++
      "(inventory_items_grade_authority_check)"))

def resolveItemAttribution (explicitEntityId acquisitionEntityId installationDefaultEntityId :
    Option EntityId) : Option EntityId :=
  (explicitEntityId.orElse fun _ => acquisitionEntityId).orElse fun _ => installationDefaultEntityId

def movementKeyReceipt (acquisition : AcquisitionId) (item : ItemId) : String :=
  s!"acq:{acquisition}:item:{item}"

namespace FactTables

variable (t : FactTables)

def acquisitionOf (id : Option AcquisitionId) : InventoryResult (Option AcquisitionRow) :=
  match id with
  | none => .ok none
  | some id => (t.loadAcquisition id).map some

def insertCodedItem (row : InventoryItemRow) : InventoryResult FactTables := do
  Except.require (row.itemCode ∉ t.inventoryItems.map (·.itemCode))
    (InventoryError.database ("current transaction is aborted, commands ignored until end of " ++
      "transaction block"))
  t.insertItem row

end FactTables

def itemRow (ids : CreateItemIds) (value : CreateItemInput) (entity : Option EntityId) :
    InventoryItemRow where
  id := ids.item
  itemCode := (value.itemCode.map trim).getD ids.itemCode
  acquisitionId := value.acquisitionId
  economicEntityId := entity
  locationId := value.locationId
  originItemId := none
  status := value.status
  quantity := value.quantity
  quantityOnHand := 0
  currency := value.currency.toUpper
  acquisitionCostAmount := value.acquisitionCostAmount.getD 0
  landedCostAmount := value.landedCostAmount.getD 0
  costBasisLocked := false
  saleMode := .unit
  estimatedValueAmount := value.estimatedValueAmount
  costAllocationWeight := value.costAllocationWeight

def receiptInput (ids : CreateItemIds) (value : CreateItemInput)
    (acquisition : Option AcquisitionRow) (acquiredAt : Timestamp) : RecordMovementInput where
  inventoryItemId := ids.item
  movementKind := if acquisition.isSome then .receipt else .found
  quantity := value.quantity
  deduplicationKey :=
    match acquisition with
    | none => movementKeyFound (value.receiptSessionKey.getD (toString ids.item)) ids.item
    | some acquisition => movementKeyReceipt acquisition.id ids.item
  occurredAt := value.receivedAt.getD acquiredAt

def createItem (t : FactTables) (now : Timestamp) (ids : CreateItemIds) (value : CreateItemInput) :
    InventoryResult (InventoryItemRow × FactTables) := do
  parseItem value
  let acquisition ← t.acquisitionOf value.acquisitionId
  let entity := resolveItemAttribution value.economicEntityId
    (acquisition.bind (·.economicEntityId)) value.installationDefaultEntityId
  let acquiredAt := value.acquiredAt.getD ((acquisition.map (·.acquiredAt)).getD now)
  let row := itemRow ids value entity
  let inserted ← t.insertCodedItem row
  if value.receive then do
    let (_, received) ← recordMovement inserted ids.movement
      (receiptInput ids value acquisition acquiredAt)
    let item ← received.loadItem row.id
    return (item, received)
  else return (row, inserted)

structure TransferIds where
  group : ℕ
  item : ItemId
  itemCode : String
  outMovement : MovementId
  inMovement : MovementId

structure TransferResult where
  sourceItem : InventoryItemRow
  destinationItem : InventoryItemRow

def assertMovable (onHand moveQuantity : Money) : InventoryResult Unit := do
  Except.require (0 < moveQuantity)
    (InventoryError.validation "a transfer quantity must be positive")
  Except.require (moveQuantity ≤ onHand)
    (InventoryError.conflict
      (s!"cannot transfer {formatDecimal moveQuantity} of an item holding " ++
      s!"{formatDecimal onHand}: a transfer moves stock that exists, and inventing it would " ++
      "corrupt both locations' balances"))

/-- `amount × moved ÷ quantity`, the first of two shares. -/
def proRata (amount moved quantity : Money) : InventoryResult Money :=
  if quantity = 0 then .ok 0
  else if quantity ≤ moved then .ok amount
  else do
    let distribution ← distributeByWeights amount [moved, quantity - moved]
    return (distribution.shares[0]?).getD 0

/-- What a split assigns to the new row and takes from the source. -/
structure SplitOverrides where
  locationId : Option LocationId
  economicEntityId : Option EntityId
  landedCostAmount : Money
  acquisitionCostAmount : Money
  removeLandedCostAmount : Money
  removeAcquisitionCostAmount : Money

def splitRow (source : InventoryItemRow) (ids : TransferIds) (quantity : Money)
    (overrides : SplitOverrides) : InventoryItemRow where
  id := ids.item
  itemCode := ids.itemCode
  acquisitionId := source.acquisitionId
  economicEntityId := overrides.economicEntityId
  locationId := overrides.locationId
  originItemId := some source.id
  status := "intake"
  quantity := quantity
  quantityOnHand := 0
  currency := source.currency
  acquisitionCostAmount := overrides.acquisitionCostAmount
  landedCostAmount := overrides.landedCostAmount
  costBasisLocked := false
  saleMode := .unit
  estimatedValueAmount := source.estimatedValueAmount
  costAllocationWeight := source.costAllocationWeight
  costAllocationBasis := source.costAllocationBasis

/-- The source gives up basis only: its `quantity` never changes. -/
def splitItem (t : FactTables) (source : InventoryItemRow) (ids : TransferIds) (quantity : Money)
    (overrides : SplitOverrides) : InventoryResult FactTables := do
  let created ← t.insertItem (splitRow source ids quantity overrides)
  return created.updateItem source.id fun i =>
    { i with
      landedCostAmount := i.landedCostAmount - overrides.removeLandedCostAmount
      acquisitionCostAmount := i.acquisitionCostAmount - overrides.removeAcquisitionCostAmount }

/-- The `transfer_out` at the source and the `transfer_in` at the destination. -/
def recordTransfer (t : FactTables) (ids : TransferIds) (source destination : ItemId)
    (quantity : Money) (occurredAt : Timestamp) : InventoryResult FactTables := do
  let (_, out) ← recordMovement t ids.outMovement
    { inventoryItemId := source
      movementKind := .transferOut
      quantity := -quantity
      deduplicationKey := movementKeyTransfer ids.group "out"
      occurredAt := occurredAt }
  let (_, into) ← recordMovement out ids.inMovement
    { inventoryItemId := destination
      movementKind := .transferIn
      quantity := quantity
      deduplicationKey := movementKeyTransfer ids.group "in"
      occurredAt := occurredAt }
  return into

def transferResult (t : FactTables) (source destination : ItemId) :
    InventoryResult (TransferResult × FactTables) := do
  let sourceItem ← t.loadItem source
  let destinationItem ← t.loadItem destination
  return (⟨sourceItem, destinationItem⟩, t)

structure MoveToLocationInput where
  inventoryItemId : ItemId
  toLocationId : LocationId
  quantity : Option Money
  occurredAt : Timestamp

def moveToLocation (t : FactTables) (ids : TransferIds) (input : MoveToLocationInput) :
    InventoryResult (TransferResult × FactTables) := do
  let item ← t.loadItem input.inventoryItemId
  Except.require (item.locationId ≠ some input.toLocationId)
    (InventoryError.validation ("the item is already at that location; a move that moves " ++
      "nothing would put two movements in the ledger describing no event"))
  let moveQuantity := input.quantity.getD item.quantityOnHand
  assertMovable item.quantityOnHand moveQuantity
  if moveQuantity = item.quantityOnHand then do
    let moved ← recordTransfer t ids item.id item.id moveQuantity input.occurredAt
    transferResult (moved.updateItem item.id fun i =>
      { i with locationId := some input.toLocationId }) item.id item.id
  else do
    let landed ← proRata item.landedCostAmount moveQuantity item.quantity
    let goods ← proRata item.acquisitionCostAmount moveQuantity item.quantity
    let split ← splitItem t item ids moveQuantity
      ⟨some input.toLocationId, item.economicEntityId, landed, goods, landed, goods⟩
    let moved ← recordTransfer split ids item.id ids.item moveQuantity input.occurredAt
    transferResult moved item.id ids.item

inductive BasisTreatment
  | carryover
  | fairMarketValue (amount : Option Money)

structure TransferEntityInput where
  inventoryItemId : ItemId
  toEconomicEntityId : EntityId
  basisTreatment : BasisTreatment
  quantity : Option Money
  toLocationId : Option (Option LocationId)
  occurredAt : Timestamp

def BasisTreatment.stated : BasisTreatment → Bool
  | .fairMarketValue none => false
  | _ => true

/-- What the receiving entity's row carries, given what the sending one gives up. -/
def BasisTreatment.restated (carried : Money) : BasisTreatment → Money
  | .carryover => carried
  | .fairMarketValue amount => amount.getD 0

def transferEntity (t : FactTables) (ids : TransferIds) (input : TransferEntityInput) :
    InventoryResult (TransferResult × FactTables) := do
  let item ← t.loadItem input.inventoryItemId
  Except.require (item.economicEntityId ≠ some input.toEconomicEntityId)
    (InventoryError.validation "the item already belongs to that economic entity")
  Except.require input.basisTreatment.stated
    (InventoryError.validation ("basisTreatment 'fair_market_value' requires " ++
      "fairMarketValueAmount: restating basis without a stated value would invent a number"))
  let moveQuantity := input.quantity.getD item.quantityOnHand
  assertMovable item.quantityOnHand moveQuantity
  let carriedBasis ← proRata item.landedCostAmount moveQuantity item.quantity
  let carriedGoods ← proRata item.acquisitionCostAmount moveQuantity item.quantity
  let split ← splitItem t item ids moveQuantity
    { locationId := input.toLocationId.getD item.locationId
      economicEntityId := some input.toEconomicEntityId
      landedCostAmount := input.basisTreatment.restated carriedBasis
      acquisitionCostAmount := input.basisTreatment.restated carriedGoods
      removeLandedCostAmount := carriedBasis
      removeAcquisitionCostAmount := carriedGoods }
  let moved ← recordTransfer split ids item.id ids.item moveQuantity input.occurredAt
  transferResult moved item.id ids.item

structure PartOutChild where
  quantity : Money
  locationId : Option LocationId
  saleMode : SaleMode
  weight : Option Money

structure PartOutInput where
  inventoryItemId : ItemId
  children : List PartOutChild
  occurredAt : Timestamp

structure PartOutIds where
  group : String
  item : ℕ → ItemId
  itemCode : ℕ → String
  foundMovement : ℕ → MovementId
  consumption : MovementId

structure PartOutResult where
  parent : InventoryItemRow
  children : List InventoryItemRow

/-- `partOutSchema`: one to two hundred children, each of a positive quantity and weight, none
sold as `parted_out`. -/
def parsePartOut (input : PartOutInput) : InventoryResult Unit := do
  Except.require (1 ≤ input.children.length ∧ input.children.length ≤ 200)
    (InventoryError.validation "invalid part-out: children")
  Except.require (∀ child ∈ input.children, 0 < child.quantity)
    (InventoryError.validation "invalid part-out: children.quantity")
  Except.require (∀ child ∈ input.children, child.saleMode ≠ .partedOut)
    (InventoryError.validation "invalid part-out: children.saleMode")
  Except.require (∀ child ∈ input.children, ∀ w ∈ child.weight, 0 < w)
    (InventoryError.validation "invalid part-out: children.weight")

def PartOutChild.shareWeight (child : PartOutChild) : Money := child.weight.getD child.quantity

def childRow (parent : InventoryItemRow) (ids : PartOutIds) (index : ℕ) (spec : PartOutChild)
    (landed goods : Money) : InventoryItemRow where
  id := ids.item index
  itemCode := ids.itemCode index
  acquisitionId := parent.acquisitionId
  economicEntityId := parent.economicEntityId
  locationId := spec.locationId.orElse fun _ => parent.locationId
  originItemId := some parent.id
  status := "intake"
  quantity := spec.quantity
  quantityOnHand := 0
  currency := parent.currency
  acquisitionCostAmount := goods
  landedCostAmount := landed
  costBasisLocked := false
  saleMode := spec.saleMode

/-- The children from a place on: each row is inserted and received as `found`. -/
def createChildren (parent : InventoryItemRow) (ids : PartOutIds) (occurredAt : Timestamp)
    (landedShares goodsShares : List Money) :
    ℕ → List PartOutChild → FactTables → InventoryResult (List InventoryItemRow × FactTables)
  | _, [], t => .ok ([], t)
  | index, spec :: specs, t => do
    let row := childRow parent ids index spec ((landedShares[index]?).getD 0)
      ((goodsShares[index]?).getD 0)
    let inserted ← t.insertItem row
    let (_, found) ← recordMovement inserted (ids.foundMovement index)
      { inventoryItemId := row.id
        movementKind := .found
        quantity := spec.quantity
        deduplicationKey := movementKeyFound s!"partout:{ids.group}" row.id
        occurredAt := occurredAt }
    let child ← found.loadItem row.id
    let (children, t') ← createChildren parent ids occurredAt landedShares goodsShares (index + 1)
      specs found
    return (child :: children, t')

def partOut (t : FactTables) (ids : PartOutIds) (input : PartOutInput) :
    InventoryResult (PartOutResult × FactTables) := do
  parsePartOut input
  let parent ← t.loadItem input.inventoryItemId
  Except.require (parent.saleMode ≠ .partedOut)
    (InventoryError.immutableFact s!"\"{parent.itemCode}\" has already been parted out")
  Except.require (0 < parent.quantityOnHand)
    (InventoryError.conflict
      s!"cannot part out \"{parent.itemCode}\": it has no stock on hand")
  let weights := input.children.map PartOutChild.shareWeight
  let landed ← distributeByWeights parent.landedCostAmount weights
  let goods ← distributeByWeights parent.acquisitionCostAmount weights
  let (children, created) ← createChildren parent ids input.occurredAt landed.shares goods.shares
    0 input.children t
  let (_, depleted) ← recordMovement created ids.consumption
    { inventoryItemId := parent.id
      movementKind := .consumption
      quantity := -parent.quantityOnHand
      deduplicationKey := movementKeyEvent "consumption" s!"partout:{ids.group}" parent.id
      occurredAt := input.occurredAt }
  let emptied := depleted.updateItem parent.id fun i =>
    { i with saleMode := .partedOut, landedCostAmount := 0, acquisitionCostAmount := 0 }
  let after ← emptied.loadItem parent.id
  return (⟨after, children⟩, emptied)

structure CorrectCostBasisInput where
  inventoryItemId : ItemId
  landedCostAmount : Money
  acquisitionCostAmount : Option Money := none
  reason : String

def correctCostBasis (t : FactTables) (input : CorrectCostBasisInput) :
    InventoryResult (InventoryItemRow × FactTables) := do
  Except.require (trim input.reason ≠ "")
    (InventoryError.immutableFact ("correcting a cost basis requires a reason: this is the one " ++
      "path that rewrites a figure a closed sale has already reported, and an unexplained " ++
      "correction is indistinguishable from a bug"))
  let before ← t.loadItem input.inventoryItemId
  let corrected := t.updateItem before.id fun i =>
    { i with
      landedCostAmount := input.landedCostAmount
      acquisitionCostAmount := input.acquisitionCostAmount.getD input.landedCostAmount }
  let after ← corrected.loadItem before.id
  return (after, corrected)

end Loxep

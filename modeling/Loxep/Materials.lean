import Loxep.BilledAmounts

/-!
# Materials consumed on a job

A use of material snapshots its unit cost when it is recorded: the caller's, or of an inventory
item what the item's row says. A markup makes the unit's charge of it, where the caller names no
charge. A consumption movement backs at most one use.
-/

namespace Loxep

abbrev MaterialUseId := ℕ

inductive CostBasisSource
  | inventoryBasis
  | manual
  | purchasedForJob
  | free
  deriving DecidableEq

structure ProjectMaterialUseRow where
  id : MaterialUseId
  projectId : ProjectId
  inventoryItemId : Option ItemId
  catalogItemId : Option ℕ
  inventoryAllocationId : Option AllocationId
  inventoryMovementId : Option MovementId
  description : String
  quantity : Money
  consumedOn : CalendarDate
  currency : String
  unitCostAmount : Money
  costBasisSource : CostBasisSource
  billable : Bool
  /-- A `numeric(10,4)` column, in ten-thousandths. -/
  markupPercent : Option ℤ
  unitChargeAmount : Option Money
  lockedAt : Option Timestamp := none
  createdByUserId : Option String
  createdAt : Timestamp
  updatedAt : Timestamp

structure MaterialTables extends WorkTables where
  inventoryItems : List InventoryItemRow := []
  catalogItems : List ℕ := []
  inventoryAllocations : List AllocationId := []
  inventoryMovements : List MovementId := []
  materialUses : List ProjectMaterialUseRow := []

def ScaledDecimal.toNumeric (value : ScaledDecimal) (digits : ℕ) : ℤ :=
  Rounding.nearest (value.units * 10 ^ digits) (10 ^ value.scale)

/-- `unitCostAmount * (1 + markupPercent / 100)`, rounded at each of its two steps. -/
def applyMarkupPercent (unitCostAmount markupPercent : ScaledDecimal) : WorkResult Money := do
  let rawMarkup := (WorkDecimal.multiplyDecimals unitCostAmount markupPercent).value
  let markupAmount := (WorkDecimal.divideByInteger rawMarkup 100).value
  Except.require (unitCostAmount.scale ≤ 6) (WorkError.validation
    "refusing to reduce a decimal's scale: that would round money")
  return unitCostAmount.rescale 6 + markupAmount

/-- `quantity * unitChargeAmount`, or null without a charge. -/
def materialUseLineAmount (row : ProjectMaterialUseRow) : Option Money :=
  row.unitChargeAmount.map fun charge =>
    (WorkDecimal.multiplyDecimals (ScaledDecimal.ofMoney row.quantity)
      (ScaledDecimal.ofMoney charge)).value

structure RecordMaterialUseInput where
  projectId : ProjectId
  inventoryItemId : Option ItemId := none
  catalogItemId : Option ℕ := none
  inventoryAllocationId : Option AllocationId := none
  inventoryMovementId : Option MovementId := none
  description : String
  quantity : String
  consumedOn : CalendarDate
  costBasisSource : CostBasisSource
  unitCostAmount : Option String := none
  currency : Option String := none
  billable : Bool := true
  markupPercent : Option String := none
  unitChargeAmount : Option String := none
  createdByUserId : Option String := none

namespace RecordMaterialUseInput

variable (input : RecordMaterialUseInput)

def trimmed : RecordMaterialUseInput := { input with description := trim input.description }

def boundIssues (path message text : String) (holds : ScaledDecimal → Bool) : List WorkIssue :=
  WorkIssue.ofDecimal path text
    ++ WorkIssue.ofRefinement ((parseDecimalText text).all holds) path message

def issues : List WorkIssue :=
  WorkIssue.ofText "description" input.description
  ++ boundIssues "quantity" "expected a positive decimal string" input.quantity
    (fun value => decide (0 < value.units))
  ++ input.unitCostAmount.elim [] (WorkIssue.ofDecimal "unitCostAmount")
  ++ input.currency.elim [] (WorkIssue.ofCurrency "currency")
  ++ input.markupPercent.elim [] (fun markup => boundIssues "markupPercent"
    "markupPercent must be >= -100 (project_material_uses_markup_check)" markup
    (fun value => decide (-100 * 10 ^ value.scale ≤ value.units)))
  ++ input.unitChargeAmount.elim [] (WorkIssue.ofDecimal "unitChargeAmount")
  ++ input.createdByUserId.elim [] (WorkIssue.ofText "createdByUserId")
  ++ WorkIssue.ofRefinement
    ((input.costBasisSource == .inventoryBasis) == input.inventoryItemId.isSome) "inventoryItemId"
    ("inventoryItemId is required for, and only for, costBasisSource " ++
      "'inventory_basis' (project_material_uses_cost_basis_item_check)")
  ++ WorkIssue.ofRefinement (input.billable || input.unitChargeAmount.isNone) "unitChargeAmount"
    ("unitChargeAmount must be null when billable is false " ++
      "(project_material_uses_billable_charge_check)")

/-- `recordSchema.safeParse`. -/
def parse : WorkResult RecordMaterialUseInput := do
  refuseIssues "material use" input.trimmed.issues
  return input.trimmed

end RecordMaterialUseInput

def readDecimal (text : String) : ScaledDecimal := (parseDecimalText text).getD ⟨0, 0⟩

structure UseCost where
  currency : String
  unitCostAmount : ScaledDecimal

def ProjectMaterialUseRow.refusal (row : ProjectMaterialUseRow) : Option String :=
  let checks : List (String × Bool) :=
    [("numeric field overflow",
        [some row.quantity, some row.unitCostAmount, row.unitChargeAmount].all fun amount =>
          amount.all fun value => decide (value.natAbs < numericLimit)),
      ("numeric field overflow", row.markupPercent.all fun markup =>
        decide (markup.natAbs < 10000000000)),
      ("project_material_uses_billable_charge_check",
        row.billable || row.unitChargeAmount.isNone),
      ("project_material_uses_cost_basis_item_check",
        (row.costBasisSource == .inventoryBasis) == row.inventoryItemId.isSome),
      ("project_material_uses_markup_check",
        row.markupPercent.all fun markup => decide (-1000000 ≤ markup)),
      ("project_material_uses_quantity_check", decide (0 < row.quantity))]
  (checks.find? fun check => !check.2).map (·.1)

def ProjectMaterialUseRow.check (row : ProjectMaterialUseRow) : WorkResult Unit :=
  match row.refusal with
  | some check => .error (.database check)
  | none => .ok ()

def RecordMaterialUseInput.row (value : RecordMaterialUseInput) (id : MaterialUseId)
    (cost : UseCost) (unitChargeAmount : Option Money) (now : Timestamp) :
    ProjectMaterialUseRow where
  id := id
  projectId := value.projectId
  inventoryItemId := value.inventoryItemId
  catalogItemId := value.catalogItemId
  inventoryAllocationId := value.inventoryAllocationId
  inventoryMovementId := value.inventoryMovementId
  description := value.description
  quantity := (readDecimal value.quantity).toNumeric 6
  consumedOn := value.consumedOn
  currency := cost.currency.toUpper
  unitCostAmount := cost.unitCostAmount.toNumeric 6
  costBasisSource := value.costBasisSource
  billable := value.billable
  markupPercent := value.markupPercent.map fun markup => (readDecimal markup).toNumeric 4
  unitChargeAmount := unitChargeAmount
  createdByUserId := value.createdByUserId
  createdAt := now
  updatedAt := now

namespace MaterialTables

variable (t : MaterialTables)

def requireProject (id : ProjectId) : WorkResult Unit :=
  Except.require (t.projects.any (·.id == id)) (WorkError.notFound s!"unknown project \"{id}\"")

def loadInventoryItem (id : ItemId) : WorkResult InventoryItemRow :=
  match t.inventoryItems.find? (·.id == id) with
  | some item => .ok item
  | none => .error (.notFound s!"unknown inventory item \"{id}\"")

def useCost (value : RecordMaterialUseInput) : WorkResult UseCost :=
  let given := value.unitCostAmount.map readDecimal
  match value.costBasisSource, value.inventoryItemId, value.currency with
  | .inventoryBasis, some itemId, currency => do
    let item ← t.loadInventoryItem itemId
    Except.require (currency.all fun currency => currency.toUpper == item.currency)
      (WorkError.validation (s!"currency \"{currency.getD item.currency}\" disagrees with " ++
        s!"inventory item \"{itemId}\"'s own currency \"{item.currency}\" " ++
        "— Phase 4 carries no FX conversion"))
    return ⟨currency.getD item.currency,
      given.getD (ScaledDecimal.ofMoney item.landedCostAmount)⟩
  | _, _, some currency => .ok ⟨currency, given.getD ⟨0, 0⟩⟩
  | _, _, none => .error (.validation
      "currency is required when costBasisSource is not 'inventory_basis'")

def useCharge (value : RecordMaterialUseInput) (unitCostAmount : ScaledDecimal) :
    WorkResult (Option Money) :=
  match value.unitChargeAmount, value.markupPercent, value.billable with
  | some charge, _, _ => .ok (some ((readDecimal charge).toNumeric 6))
  | none, some markup, true => (applyMarkupPercent unitCostAmount (readDecimal markup)).map some
  | none, _, _ => .ok none

def holdsUseKeys (row : ProjectMaterialUseRow) : Bool :=
  (row.inventoryItemId.all fun id => t.inventoryItems.any (·.id == id))
    && row.catalogItemId.all (t.catalogItems.contains ·)
    && row.inventoryAllocationId.all (t.inventoryAllocations.contains ·)
    && row.inventoryMovementId.all (t.inventoryMovements.contains ·)
    && row.createdByUserId.all (t.users.contains ·)

def insertUse (row : ProjectMaterialUseRow) : WorkResult MaterialTables := do
  row.check
  Except.require (row.id ∉ t.materialUses.map (·.id))
    (WorkError.database "project_material_uses_pkey")
  Except.require
    (row.inventoryMovementId = none ∨
      row.inventoryMovementId ∉ t.materialUses.map (·.inventoryMovementId))
    (WorkError.conflict (s!"inventory movement \"{row.inventoryMovementId.getD 0}\" is already " ++
      "linked to a material use (project_material_uses_movement_uq) " ++
      "— a consumption movement backs at most one use"))
  Except.require (t.holdsUseKeys row) (WorkError.database "foreign key")
  return { t with materialUses := t.materialUses ++ [row] }

def record (input : RecordMaterialUseInput) (id : MaterialUseId) (now : Timestamp) :
    WorkResult (ProjectMaterialUseRow × MaterialTables) := do
  let value ← input.parse
  t.requireProject value.projectId
  let cost ← t.useCost value
  let unitChargeAmount ← useCharge value cost.unitCostAmount
  let row := value.row id cost unitChargeAmount now
  let t ← t.insertUse row
  return (row, t)

end MaterialTables

end Loxep

import Loxep.Inventory

/-!
# Acquisitions and lot cost allocation

Goods arrive in lots, under cost rows that an operator types. `allocateCosts` spreads what is
capitalized in the lot's own currency over its items: a cost that names an item goes to it, the
rest makes up the lot pool, and what the items with a locked basis already hold of the pool is
left to them.
-/

namespace Loxep

abbrev AcquisitionId := ℕ
abbrev ConnectionId := ℕ

structure ConnectionRow where
  id : ConnectionId
  economicEntityId : Option EntityId

def sourceKinds : List String :=
  ["auction_lot", "estate_sale", "thrift_retail", "retail_arbitrage", "liquidation_pallet",
    "wholesale_purchase", "online_marketplace", "trade_in", "consignment_intake",
    "personal_conversion", "customer_return", "found_stock", "other"]

/-- `/^[A-Za-z]{3}$/`. -/
def isCurrencyCode (s : String) : Bool := s.toList.length == 3 && s.toList.all Char.isAlpha

structure CreateAcquisitionInput where
  id : AcquisitionId
  title : String
  sourceKind : String
  currency : String
  referenceCode : Option String := none
  status : String := "open"
  economicEntityId : Option EntityId := none
  installationDefaultEntityId : Option EntityId := none
  connectionId : Option ConnectionId := none
  vendorName : Option String := none
  externalReference : Option String := none
  costAllocationBasis : CostAllocationBasis := .relativeValue
  acquiredAt : Option Timestamp := none

/-- `createAcquisitionSchema`. -/
def parseAcquisition (value : CreateAcquisitionInput) : InventoryResult Unit := do
  let invalid := fun field => InventoryError.validation s!"invalid acquisition: {field}"
  Except.require (trim value.title ≠ "") (invalid "title")
  Except.require (value.sourceKind ∈ sourceKinds) (invalid "sourceKind")
  Except.require (isCurrencyCode value.currency = true) (invalid "currency")
  Except.require (∀ code ∈ value.referenceCode, trim code ≠ "" ∧ (trim code).length ≤ 64)
    (invalid "referenceCode")
  Except.require (value.status ≠ "") (invalid "status")
  Except.require (∀ name ∈ value.vendorName, trim name ≠ "") (invalid "vendorName")
  Except.require (∀ ref ∈ value.externalReference, trim ref ≠ "") (invalid "externalReference")

structure AddCostInput where
  id : FactId
  acquisitionId : AcquisitionId
  costType : String
  costClass : CostClass
  amount : Money
  currency : Option String := none
  inventoryItemId : Option ItemId := none
  capitalize : Bool := true
  vendorName : Option String := none
  incurredAt : Option Timestamp := none

/-- `addCostSchema`. -/
def parseCost (value : AddCostInput) : InventoryResult Unit := do
  let invalid := fun field => InventoryError.validation s!"invalid acquisition cost: {field}"
  Except.require (trim value.costType ≠ "") (invalid "costType")
  Except.require (∀ code ∈ value.currency, isCurrencyCode code = true) (invalid "currency")
  Except.require (∀ name ∈ value.vendorName, trim name ≠ "") (invalid "vendorName")

structure ManualAmount where
  inventoryItemId : ItemId
  landedCostAmount : Money

structure AllocateCostsInput where
  acquisitionId : AcquisitionId
  basis : Option CostAllocationBasis := none
  manualAmounts : List ManualAmount := []
  finalize : Bool := false

def acquisitionReferenceCode (year sequence : ℕ) : String := s!"ACQ-{year}-{padZeros 4 sequence}"

def resolveAcquisitionAttribution (explicitEntityId installationDefaultEntityId
    connectionEntityId : Option EntityId) : Option EntityId :=
  (explicitEntityId.orElse fun _ => installationDefaultEntityId).orElse fun _ => connectionEntityId

def retryCode {α : Type} (label onConstraint : String) (attempt : ℕ → InventoryResult α) :
    ℕ → ℕ → String → InventoryResult α
  | 0, index, last =>
    .error (.conflict s!"could not generate a unique {label} after {index} attempts: {last}")
  | left + 1, index, _ =>
    match attempt index with
    | .ok a => .ok a
    | .error e =>
      if e = .database onConstraint then
        retryCode label onConstraint attempt left (index + 1) e.message
      else .error e

def withCodeRetry {α : Type} (label onConstraint : String) (attempt : ℕ → InventoryResult α) :
    InventoryResult α := retryCode label onConstraint attempt 5 0 "undefined"

theorem retryCode_returns {α : Type} {label onConstraint : String} {attempt : ℕ → InventoryResult α}
    {a : α} : ∀ {left index : ℕ} {last : String},
    retryCode label onConstraint attempt left index last = .ok a → ∃ k, attempt k = .ok a
  | 0, _, _, h => by cases h
  | left + 1, index, _, h => by
    unfold retryCode at h
    split at h
    · rename_i b hb
      cases h
      exact ⟨index, hb⟩
    · split_ifs at h
      exact retryCode_returns h

theorem retryCode_raises {α : Type} {label onConstraint : String} {attempt : ℕ → InventoryResult α}
    {e : InventoryError} : ∀ {left index : ℕ} {last : String},
    retryCode label onConstraint attempt left index last = .error e →
      e.errorClass = .conflict ∨ ∃ k, attempt k = .error e
  | 0, _, _, h => by
    cases h
    exact .inl rfl
  | left + 1, index, _, h => by
    unfold retryCode at h
    split at h
    · cases h
    · rename_i e' he
      split_ifs at h
      · exact retryCode_raises h
      · cases h
        exact .inr ⟨index, he⟩

def AcquisitionRow.sameSource (a b : AcquisitionRow) : Bool :=
  a.connectionId.isSome && a.externalReference.isSome &&
    a.connectionId == b.connectionId && a.externalReference == b.externalReference

namespace FactTables

variable (t : FactTables)

def loadAcquisition (id : AcquisitionId) : InventoryResult AcquisitionRow :=
  match t.findAcquisition id with
  | some a => .ok a
  | none => .error (.notFound s!"unknown acquisition \"{id}\"")

def nextSequence (year : ℕ) : ℕ :=
  (t.acquisitions.filter fun a =>
    s!"ACQ-{year}-".toList.isPrefixOf a.referenceCode.toList).length + 1

/-- `insert into acquisitions`. -/
def insertAcquisition (row : AcquisitionRow) : InventoryResult FactTables := do
  Except.require (row.id ∉ t.acquisitions.map (·.id)) (InventoryError.database "acquisitions_pkey")
  Except.require (row.referenceCode ∉ t.acquisitions.map (·.referenceCode))
    (InventoryError.database "acquisitions_reference_code_uq")
  Except.require (∀ a ∈ t.acquisitions, a.sameSource row = false)
    (InventoryError.database "acquisitions_connection_external_ref_uq")
  return { t with acquisitions := t.acquisitions ++ [row] }

def acquisitionRow (value : CreateAcquisitionInput) (entity : Option EntityId)
    (acquiredAt : Timestamp) (referenceCode : String) : AcquisitionRow where
  id := value.id
  status := value.status
  sourceKind := value.sourceKind
  currency := value.currency.toUpper
  vendorName := value.vendorName.map trim
  economicEntityId := entity
  referenceCode := referenceCode
  acquiredAt := acquiredAt
  connectionId := value.connectionId
  externalReference := value.externalReference.map trim
  costAllocationBasis := value.costAllocationBasis
  costAllocationStatus := .pending

def createAcquisition (connections : List ConnectionRow) (now : Timestamp)
    (value : CreateAcquisitionInput) : InventoryResult (AcquisitionRow × FactTables) := do
  parseAcquisition value
  let acquiredAt := value.acquiredAt.getD now
  let year := acquiredAt.utcDate.year
  let connectionEntityId := value.connectionId.bind fun id =>
    (connections.find? (·.id == id)).bind (·.economicEntityId)
  let entity := resolveAcquisitionAttribution value.economicEntityId
    value.installationDefaultEntityId connectionEntityId
  withCodeRetry "acquisition reference code" "acquisitions_reference_code_uq" fun attempt => do
    let row := acquisitionRow value entity acquiredAt ((value.referenceCode.map trim).getD
      (acquisitionReferenceCode year (t.nextSequence year + attempt)))
    let inserted ← t.insertAcquisition row
    return (row, inserted)

theorem createAcquisition_appends {t t' : FactTables} {connections : List ConnectionRow}
    {now : Timestamp} {value : CreateAcquisitionInput} {a : AcquisitionRow}
    (h : t.createAcquisition connections now value = .ok (a, t')) :
    (∃ entity acquiredAt code, a = acquisitionRow value entity acquiredAt code) ∧
      value.id ∉ t.acquisitions.map (·.id) ∧ (∀ b ∈ t.acquisitions, b.sameSource a = false) ∧
      t' = { t with acquisitions := t.acquisitions ++ [a] } := by
  simp only [createAcquisition, withCodeRetry, Except.bind_eq_ok] at h
  obtain ⟨_, -, h⟩ := h
  obtain ⟨k, hk⟩ := retryCode_returns h
  simp only [insertAcquisition, Except.bind_eq_ok, Except.require_eq_ok, exists_const,
    Except.pure_eq_ok, Prod.mk.injEq] at hk
  obtain ⟨_, ⟨hfresh, -, hsource, rfl⟩, rfl, rfl⟩ := hk
  exact ⟨⟨_, _, _, rfl⟩, hfresh, hsource, rfl⟩

def assertCostItem (item : Option ItemId) : InventoryResult Unit :=
  match item with
  | none => .ok ()
  | some item => (t.loadItem item).map fun _ => ()

def insertCost (row : AcquisitionCostRow) : InventoryResult FactTables := do
  Except.require (row.id ∉ t.acquisitionCosts.map (·.id))
    (InventoryError.database "acquisition_costs_pkey")
  return { t with acquisitionCosts := t.acquisitionCosts ++ [row] }

def addCost (value : AddCostInput) : InventoryResult (AcquisitionCostRow × FactTables) := do
  parseCost value
  let acquisition ← t.loadAcquisition value.acquisitionId
  t.assertCostItem value.inventoryItemId
  let row : AcquisitionCostRow :=
    { id := value.id
      acquisitionId := value.acquisitionId
      costType := trim value.costType
      capitalize := value.capitalize
      currency := (value.currency.getD acquisition.currency).toUpper
      amount := value.amount
      vendorName := value.vendorName.map trim
      incurredAt := value.incurredAt
      inventoryItemId := value.inventoryItemId
      costClass := value.costClass }
  let inserted ← t.insertCost row
  return (row, inserted)

theorem addCost_appends {t t' : FactTables} {value : AddCostInput} {row : AcquisitionCostRow}
    (h : t.addCost value = .ok (row, t')) :
    (∃ acquisition ∈ t.findAcquisition value.acquisitionId, row =
      { id := value.id
        acquisitionId := value.acquisitionId
        costType := trim value.costType
        capitalize := value.capitalize
        currency := (value.currency.getD acquisition.currency).toUpper
        amount := value.amount
        vendorName := value.vendorName.map trim
        incurredAt := value.incurredAt
        inventoryItemId := value.inventoryItemId
        costClass := value.costClass }) ∧
      t' = { t with acquisitionCosts := t.acquisitionCosts ++ [row] } := by
  simp only [addCost, insertCost, Except.bind_eq_ok, Except.require_eq_ok, exists_const,
    Except.pure_eq_ok, Prod.mk.injEq] at h
  obtain ⟨_, -, acquisition, hload, _, -, _, ⟨-, rfl⟩, rfl, rfl⟩ := h
  refine ⟨⟨acquisition, ?_, rfl⟩, rfl⟩
  unfold loadAcquisition at hload
  split at hload
  · next hfind =>
    cases hload
    exact hfind
  · cases hload

def lotItems (acquisition : AcquisitionId) : List InventoryItemRow :=
  t.inventoryItems.filter (·.acquisitionId == some acquisition)

def capitalizedCosts (acquisition : AcquisitionId) : List AcquisitionCostRow :=
  t.acquisitionCosts.filter fun c => c.acquisitionId == acquisition && c.capitalize

def localCosts (acquisition : AcquisitionRow) : List AcquisitionCostRow :=
  (t.capitalizedCosts acquisition.id).filter (·.currency == acquisition.currency)

def foreignCosts (acquisition : AcquisitionRow) : List AcquisitionCostRow :=
  (t.capitalizedCosts acquisition.id).filter (·.currency != acquisition.currency)

end FactTables

structure ItemAllocation where
  inventoryItemId : ItemId
  itemCode : String
  directAmount : Money
  lotShareAmount : Money
  acquisitionCostAmount : Money
  landedCostAmount : Money

structure LockedItem where
  inventoryItemId : ItemId
  itemCode : String
  landedCostAmount : Money

structure AllocationOutcome where
  acquisitionId : AcquisitionId
  basis : CostAllocationBasis
  currency : String
  lotPoolAmount : Money
  lockedAmount : Money
  allocatablePoolAmount : Money
  allocations : List ItemAllocation
  lockedItems : List LockedItem
  unallocatedAmount : Money
  foreignCurrencyCostCount : ℕ
  costAllocationStatus : CostAllocationStatus

def clampNonNegative (value : Money) : Money := if isNegative value then 0 else value

/-- `equal` counts units, and neither `manual` nor `direct` weighs anything. -/
def weightFor (basis : CostAllocationBasis) (item : InventoryItemRow) : Money :=
  match basis with
  | .equal => clampNonNegative item.quantity
  | .relativeValue => clampNonNegative (item.estimatedValueAmount.getD 0)
  | .weight => clampNonNegative (item.costAllocationWeight.getD 0)
  | .manual => 0
  | .direct => 0

section Costs

variable (costs : List AcquisitionCostRow)

def costsTo (item : Option ItemId) (costClass : CostClass) : Money :=
  sumDecimals ((costs.filter fun c =>
    c.inventoryItemId == item && c.costClass == costClass).map (·.amount))

def directCost (item : ItemId) : Money :=
  sumDecimals [costsTo costs (some item) .goods, costsTo costs (some item) .ancillary]

def lotPool : Money := sumDecimals [costsTo costs none .goods, costsTo costs none .ancillary]

def lockedLotShare (locked : List InventoryItemRow) : Money :=
  sumDecimals (locked.map fun item => item.landedCostAmount - directCost costs item.id)

def goodsAllocatable (allocatable : Money) : InventoryResult Money :=
  if lotPool costs = 0 then .ok 0
  else do
    let distribution ← distributeByWeights allocatable
      [costsTo costs none .goods, costsTo costs none .ancillary]
    return (distribution.shares[0]?).getD 0

def suppliedAmount (amounts : List ManualAmount) (item : ItemId) : Option Money :=
  (amounts.reverse.find? (·.inventoryItemId == item)).map (·.landedCostAmount)

def manualAllocation (amounts : List ManualAmount) (item : InventoryItemRow) : ItemAllocation :=
  let landed := (suppliedAmount amounts item.id).getD 0
  let direct := directCost costs item.id
  { inventoryItemId := item.id
    itemCode := item.itemCode
    directAmount := direct
    lotShareAmount := landed - direct
    acquisitionCostAmount := landed
    landedCostAmount := landed }

def allocateManually (currency : String) (amounts : List ManualAmount)
    (unlocked locked : List InventoryItemRow) (allocatable : Money) :
    InventoryResult (List ItemAllocation × Money) := do
  locked.forM fun item =>
    Except.require (suppliedAmount amounts item.id = none)
      (InventoryError.immutableFact (s!"\"{item.itemCode}\" has a frozen cost basis and cannot " ++
        "be re-costed by a lot run: its basis has already fed a reported figure. Use an " ++
        "explicit, audited per-item basis correction instead."))
  unlocked.forM fun item =>
    Except.require (suppliedAmount amounts item.id ≠ none)
      (InventoryError.validation ("basis 'manual' requires a landed cost for every unlocked " ++
        s!"item; \"{item.itemCode}\" has none"))
  let total := sumDecimals (unlocked.map fun item => (suppliedAmount amounts item.id).getD 0)
  let expected := sumDecimals (allocatable :: unlocked.map fun item => directCost costs item.id)
  Except.require (total = expected)
    (InventoryError.conflict (s!"manual basis totals {formatDecimal total} {currency} but the " ++
      s!"lot's allocatable capitalized cost is {formatDecimal expected} {currency}. The engine " ++
      "only checks the total, and this one does not reconcile."))
  return (unlocked.map (manualAllocation costs amounts), 0)

def weightedAllocation (goodsShares ancillaryShares : List Money) (index : ℕ)
    (item : InventoryItemRow) : ItemAllocation :=
  let goodsDirect := costsTo costs (some item.id) .goods
  let ancillaryDirect := costsTo costs (some item.id) .ancillary
  let goodsShare := (goodsShares[index]?).getD 0
  let ancillaryShare := (ancillaryShares[index]?).getD 0
  let goods := sumDecimals [goodsDirect, goodsShare]
  { inventoryItemId := item.id
    itemCode := item.itemCode
    directAmount := sumDecimals [goodsDirect, ancillaryDirect]
    lotShareAmount := sumDecimals [goodsShare, ancillaryShare]
    acquisitionCostAmount := goods
    landedCostAmount := sumDecimals [goods, ancillaryDirect, ancillaryShare] }

def allocateByWeights (basis : CostAllocationBasis) (unlocked : List InventoryItemRow)
    (allocatable goods : Money) : InventoryResult (List ItemAllocation × Money) := do
  let weights := unlocked.map (weightFor basis)
  let goodsShares ← distributeByWeights goods weights
  let ancillaryShares ← distributeByWeights (allocatable - goods) weights
  return (unlocked.mapIdx (weightedAllocation costs goodsShares.shares ancillaryShares.shares),
    sumDecimals [goodsShares.unallocated, ancillaryShares.unallocated])

def allocateAmong (basis : CostAllocationBasis) (currency : String) (amounts : List ManualAmount)
    (unlocked locked : List InventoryItemRow) (allocatable goods : Money) :
    InventoryResult (List ItemAllocation × Money) :=
  match basis with
  | .manual => allocateManually costs currency amounts unlocked locked allocatable
  | basis => allocateByWeights costs basis unlocked allocatable goods

end Costs

def allocationStatus (items : List InventoryItemRow) (finalize : Bool) (unallocated : Money)
    (currency : String) : InventoryResult CostAllocationStatus :=
  if items.isEmpty then .ok .pending
  else if !finalize then .ok .provisional
  else if unallocated = 0 then .ok .final
  else .error (.conflict (s!"cannot finalize: {formatDecimal unallocated} {currency} of the lot " ++
    "pool has no weight to land on. Every allocation weight is zero — record estimated values, " ++
    "allocation weights, or switch the basis to 'equal'."))

def planAllocation (input : AllocateCostsInput) (basis : CostAllocationBasis) (currency : String)
    (items : List InventoryItemRow) (costs : List AcquisitionCostRow) (foreignCount : ℕ) :
    InventoryResult AllocationOutcome := do
  Except.require (¬ (basis = .direct ∧ lotPool costs ≠ 0))
    (InventoryError.conflict ("basis 'direct' means every cost was known per item, but this lot " ++
      s!"has {formatDecimal (lotPool costs)} {currency} of lot-scoped capitalized cost. Either " ++
      "move those costs to items or choose an allocating basis."))
  let unlocked := items.filter fun item => !item.costBasisLocked
  let locked := items.filter (·.costBasisLocked)
  let lockedShare := lockedLotShare costs locked
  let allocatable := lotPool costs - lockedShare
  Except.require (0 ≤ allocatable)
    (InventoryError.conflict ("re-allocating this lot is refused: basis-locked items already " ++
      s!"hold {formatDecimal lockedShare} {currency} of a {formatDecimal (lotPool costs)} " ++
      s!"{currency} lot pool, leaving {formatDecimal allocatable}. The design does not silently " ++
      "clamp this — correct the individual locked item's basis explicitly, or add the missing " ++
      "cost rows."))
  let goods ← goodsAllocatable costs allocatable
  let (allocations, unallocated) ← allocateAmong costs basis currency input.manualAmounts unlocked
    locked allocatable goods
  let status ← allocationStatus items input.finalize unallocated currency
  return {
    acquisitionId := input.acquisitionId
    basis := basis
    currency := currency
    lotPoolAmount := lotPool costs
    lockedAmount := lockedShare
    allocatablePoolAmount := allocatable
    allocations := allocations
    lockedItems := locked.map fun item => ⟨item.id, item.itemCode, item.landedCostAmount⟩
    unallocatedAmount := unallocated
    foreignCurrencyCostCount := foreignCount
    costAllocationStatus := status }

namespace FactTables

variable (t : FactTables)

/-- `update inventory_items … where id = … and cost_basis_locked_at is null`. -/
def writeAllocation (basis : CostAllocationBasis) (a : ItemAllocation) : FactTables :=
  t.updateItem a.inventoryItemId fun i =>
    if i.costBasisLocked then i
    else { i with
      landedCostAmount := a.landedCostAmount
      acquisitionCostAmount := a.acquisitionCostAmount
      costAllocationBasis := some basis }

def writeStatus (acquisition : AcquisitionId) (basis : CostAllocationBasis)
    (status : CostAllocationStatus) : FactTables :=
  { t with
    acquisitions := t.acquisitions.map fun a =>
      if a.id = acquisition then
        { a with costAllocationBasis := basis, costAllocationStatus := status }
      else a }

end FactTables

def allocateCosts (t : FactTables) (input : AllocateCostsInput) :
    InventoryResult (AllocationOutcome × FactTables) := do
  let acquisition ← t.loadAcquisition input.acquisitionId
  let basis := input.basis.getD acquisition.costAllocationBasis
  let outcome ← planAllocation input basis acquisition.currency (t.lotItems acquisition.id)
    (t.localCosts acquisition) (t.foreignCosts acquisition).length
  let written := outcome.allocations.foldl (fun t a => t.writeAllocation basis a) t
  return (outcome, written.writeStatus acquisition.id basis outcome.costAllocationStatus)

end Loxep

import Loxep.FactTables

/-!
# Reading operational facts

Each readable fact type has one reader, and every reader yields the same closed shape: the date
the entry takes, the entity, the currency, named amounts, named attributes, and the reason it
must not post if there is one. `unpostedFacts` lists the facts with no posted or reversed entry.
-/

namespace Loxep

inductive ReadableSourceFactType
  | order
  | orderFee
  | orderRefund
  | expense
  | acquisitionCost
  | inventoryMovement
  deriving DecidableEq

namespace ReadableSourceFactType

def text : ReadableSourceFactType → String
  | .order => "order"
  | .orderFee => "order_fee"
  | .orderRefund => "order_refund"
  | .expense => "expense"
  | .acquisitionCost => "acquisition_cost"
  | .inventoryMovement => "inventory_movement"

def all : List ReadableSourceFactType :=
  [.order, .orderFee, .orderRefund, .expense, .acquisitionCost, .inventoryMovement]

def ofText (s : String) : Option ReadableSourceFactType := all.find? (·.text == s)

def textRank : ReadableSourceFactType → ℕ
  | .acquisitionCost => 0
  | .expense => 1
  | .inventoryMovement => 2
  | .order => 3
  | .orderFee => 4
  | .orderRefund => 5

variable {a b : ReadableSourceFactType}

theorem text_injective (h : a.text = b.text) : a = b := by
  cases a <;> cases b <;> first | rfl | exact absurd h (by decide)

theorem ofText_eq_some {s : String} (h : ofText s = some a) :
    s = a.text := by
  have := List.find?_some h
  exact (beq_iff_eq.1 this).symm

end ReadableSourceFactType

inductive PostingAmountSource
  | total
  | subtotal
  | shipping
  | discount
  | tax
  | fee
  | refund
  | net
  | costBasis
  | quantityTimesBasis
  | remainder
  deriving DecidableEq

def PostingAmountSource.text : PostingAmountSource → String
  | .total => "total"
  | .subtotal => "subtotal"
  | .shipping => "shipping"
  | .discount => "discount"
  | .tax => "tax"
  | .fee => "fee"
  | .refund => "refund"
  | .net => "net"
  | .costBasis => "cost_basis"
  | .quantityTimesBasis => "quantity_times_basis"
  | .remainder => "remainder"

def amountSourcesByFactType : ReadableSourceFactType → List PostingAmountSource
  | .order => [.total, .subtotal, .shipping, .discount, .tax, .fee, .refund, .net, .remainder]
  | .orderFee => [.fee, .total, .net, .remainder]
  | .orderRefund => [.refund, .total, .net, .remainder]
  | .expense => [.total, .tax, .net, .remainder]
  | .acquisitionCost => [.total, .net, .remainder]
  | .inventoryMovement => [.costBasis, .quantityTimesBasis, .total, .remainder]

inductive SourceFactPredicate
  | provider
  | channel
  | economicEntity
  | currency
  | amount
  | feeType
  | feeDirection
  | movementKind
  | sourceKind
  | expenseCategory
  | capitalize
  deriving DecidableEq

def SourceFactPredicate.text : SourceFactPredicate → String
  | .provider => "provider"
  | .channel => "channel"
  | .economicEntity => "economicEntity"
  | .currency => "currency"
  | .amount => "amount"
  | .feeType => "feeType"
  | .feeDirection => "feeDirection"
  | .movementKind => "movementKind"
  | .sourceKind => "sourceKind"
  | .expenseCategory => "expenseCategory"
  | .capitalize => "capitalize"

def predicatesByFactType : ReadableSourceFactType → List SourceFactPredicate
  | .order => [.provider, .channel, .economicEntity, .currency, .amount]
  | .orderFee =>
    [.provider, .channel, .economicEntity, .currency, .amount, .feeType, .feeDirection]
  | .orderRefund => [.provider, .channel, .economicEntity, .currency, .amount]
  | .expense => [.economicEntity, .currency, .amount, .expenseCategory]
  | .acquisitionCost => [.economicEntity, .currency, .amount, .capitalize, .sourceKind]
  | .inventoryMovement => [.economicEntity, .currency, .amount, .movementKind, .sourceKind]

def placeholdersByFactType : ReadableSourceFactType → List String
  | .order => ["external_order_number", "provider", "channel"]
  | .orderFee => ["external_order_number", "fee_type", "provider", "channel"]
  | .orderRefund => ["external_order_number", "provider", "channel"]
  | .expense => ["reference_code", "payee_name", "category"]
  | .acquisitionCost => ["reference_code", "cost_type", "vendor_name"]
  | .inventoryMovement => ["item_code", "movement_kind", "reference_code"]

inductive SourceLinkRole
  | primary
  | settled
  | allocated
  | reversedFrom
  | evidence
  deriving DecidableEq

structure RelatedFact where
  sourceFactType : ReadableSourceFactType
  sourceFactId : FactId
  role : SourceLinkRole

/-- Predicate-visible attributes; an absent one never matches. -/
structure FactAttributes where
  provider : Option String
  channel : Option String
  feeType : Option String
  feeDirection : Option String
  movementKind : Option String
  sourceKind : Option String
  expenseCategory : Option String
  capitalize : Option Bool

def FactAttributes.none : FactAttributes :=
  ⟨.none, .none, .none, .none, .none, .none, .none, .none⟩

structure Allocation where
  ledgerAccountId : Option AccountId
  amount : Money
  economicEntityId : Option EntityId
  dimensionValueId : Option DimensionValueId

structure SourceFact where
  sourceFactType : ReadableSourceFactType
  sourceFactId : FactId
  accountingDate : CalendarDate
  economicEntityId : Option EntityId
  currency : String
  amounts : List (PostingAmountSource × Money)
  attributes : FactAttributes
  matchAmount : Money
  placeholders : Placeholders
  description : String
  relatedFacts : List RelatedFact
  accountingBookIdOverride : Option BookId
  allocations : List Allocation
  ineligibleReason : Option String

def acquisitionCostIneligibility (lotStatus : String) (capitalize : Bool)
    (currency lotCurrency : String) : Option String :=
  if ["draft", "void", "cancelled"].contains lotStatus then
    some s!"the acquisition is {lotStatus}: only a recorded lot's costs post"
  else if capitalize ∧ currency.toUpper ≠ lotCurrency.toUpper then
    some (s!"this capitalized cost is in {currency} while the lot is in " ++
      s!"{lotCurrency}. @loxep/inventory excludes a foreign-currency " ++
      "capitalized cost from landed cost rather than converting it, so no " ++
      "item's basis carries this money and no depletion would ever relieve " ++
      "it — posting it to inventory would create an asset that only grows.")
  else none

def movementIneligibility (movementKind : MovementKind) (reversedKind : Option MovementKind) :
    Option String :=
  match movementKind with
  | .depletionSale => none
  | .reversal =>
    let reversedText := (reversedKind.map MovementKind.text).getD "missing"
    if reversedKind = some .depletionSale then none
    else some (s!"this reversal undoes a {reversedText} " ++
      "movement, which posted nothing: reversing it in the ledger would invent an entry " ++
      "to cancel an entry that never existed")
  | .receipt | .found =>
    some ("an intake movement carries no dollar of its own: the lot's " ++
      "capitalized acquisition_costs are what debit inventory, and posting " ++
      "the receipt as well would count the same purchase twice")
  | .transferIn | .transferOut =>
    some "a transfer moves stock between locations and changes no value"
  | .returnIn =>
    some ("a returned unit's basis is not a Phase 5 decision: nothing in the " ++
      "product writes a return_in movement yet, and whether the restored " ++
      "asset carries the depleted basis or a re-valuation has to be stated " ++
      "before it can post")
  | other =>
    some (s!"a {other.text} movement writes stock off, and the value of a " ++
      "write-off is a valuation judgement Phase 5 deliberately does not " ++
      "form — it is a named backlog item, not an invented loss account")

namespace FactTables

variable (t : FactTables)

def findOrder (id : FactId) : Option OrderRow := t.orders.find? (·.id == id)

def findItem (id : ItemId) : Option InventoryItemRow := t.inventoryItems.find? (·.id == id)

def findMovement (id : MovementId) : Option InventoryMovementRow :=
  t.inventoryMovements.find? (·.id == id)

def findAcquisition (id : ℕ) : Option AcquisitionRow := t.acquisitions.find? (·.id == id)

def readOrder (id : FactId) : Option SourceFact := do
  let o ← t.findOrder id
  let externalNumber := o.externalOrderNumber.getD o.externalOrderId
  return {
    sourceFactType := .order
    sourceFactId := id
    accountingDate := o.placedAt.utcDate
    economicEntityId := o.economicEntityId
    currency := o.currency
    amounts := [(.total, o.totalAmount), (.subtotal, o.subtotalAmount),
      (.shipping, o.shippingAmount), (.discount, o.discountAmount), (.tax, o.taxAmount),
      (.fee, o.feeAmount), (.refund, o.refundedAmount),
      (.net, o.totalAmount - o.refundedAmount)]
    attributes := { FactAttributes.none with
      provider := some o.provider, channel := some o.channel }
    matchAmount := o.totalAmount
    placeholders := [("external_order_number", externalNumber), ("provider", o.provider),
      ("channel", o.channel)]
    description := trim s!"{o.provider} sale {externalNumber}"
    relatedFacts := []
    accountingBookIdOverride := none
    allocations := []
    ineligibleReason :=
      if o.status = "cancelled" then
        some "the order is cancelled: nothing was earned to recognize"
      else none }

def readOrderFee (id : FactId) : Option SourceFact := do
  let f ← t.orderFees.find? (·.id == id)
  let o ← t.findOrder f.orderId
  let externalNumber := o.externalOrderNumber.getD o.externalOrderId
  return {
    sourceFactType := .orderFee
    sourceFactId := id
    accountingDate := (f.chargedAt.getD o.placedAt).utcDate
    economicEntityId := o.economicEntityId
    currency := f.currency
    amounts := [(.fee, f.amount), (.total, f.amount), (.net, f.amount)]
    attributes := { FactAttributes.none with
      provider := some o.provider, channel := some o.channel, feeType := some f.feeType,
      feeDirection := some f.feeDirection.text }
    matchAmount := f.amount
    placeholders := [("external_order_number", externalNumber), ("fee_type", f.feeType),
      ("provider", o.provider), ("channel", o.channel)]
    description := trim s!"{f.feeType} fee on {externalNumber}"
    relatedFacts := [⟨.order, f.orderId, .evidence⟩]
    accountingBookIdOverride := none
    allocations := []
    ineligibleReason := none }

def readOrderRefund (id : FactId) : Option SourceFact := do
  let r ← t.orderRefunds.find? (·.id == id)
  let o ← t.findOrder r.orderId
  let externalNumber := o.externalOrderNumber.getD o.externalOrderId
  return {
    sourceFactType := .orderRefund
    sourceFactId := id
    accountingDate := (r.refundedAt.getD o.placedAt).utcDate
    economicEntityId := o.economicEntityId
    currency := r.currency
    amounts := [(.refund, r.amount), (.total, r.amount), (.net, r.amount)]
    attributes := { FactAttributes.none with
      provider := some o.provider, channel := some o.channel }
    matchAmount := r.amount
    placeholders := [("external_order_number", externalNumber), ("provider", o.provider),
      ("channel", o.channel)]
    description := trim s!"Refund on {externalNumber}"
    relatedFacts := [⟨.order, r.orderId, .evidence⟩]
    accountingBookIdOverride := none
    allocations := []
    ineligibleReason :=
      if r.status = "pending" ∨ r.status = "failed" ∨ r.status = "cancelled" then
        some s!"the refund is {r.status}: no money has moved"
      else none }

def accountAllocations (expenseId : FactId) : List ExpenseAllocationRow :=
  (t.expenseAllocations.filter fun a =>
    a.expenseId == expenseId && a.ledgerAccountId.isSome).insertionSort
      fun a b => a.lineNumber ≤ b.lineNumber

def readExpense (id : FactId) : Option SourceFact := do
  let e ← t.expenses.find? (·.id == id)
  return {
    sourceFactType := .expense
    sourceFactId := id
    accountingDate := e.expenseDate
    economicEntityId := e.economicEntityId
    currency := e.currency
    amounts := [(.total, e.amount), (.tax, e.taxAmount), (.net, e.amount - e.taxAmount)]
    attributes := { FactAttributes.none with expenseCategory := some e.category }
    matchAmount := e.amount
    placeholders := [("reference_code", e.referenceCode), ("payee_name", e.payeeName.getD ""),
      ("category", e.category)]
    description := trim s!"{e.category} — {e.payeeName.getD e.referenceCode}"
    relatedFacts := []
    accountingBookIdOverride := e.accountingBookId
    allocations := (t.accountAllocations id).map fun a =>
      ⟨a.ledgerAccountId, a.amount, a.economicEntityId, a.dimensionValueId⟩
    ineligibleReason :=
      if e.status = .draft ∨ e.status = .void then
        some s!"the expense is {e.status.text}: only a recorded expense posts"
      else none }

def readAcquisitionCost (id : FactId) : Option SourceFact := do
  let c ← t.acquisitionCosts.find? (·.id == id)
  let a ← t.findAcquisition c.acquisitionId
  let superseded := t.expenses.find? (·.acquisitionCostId == some id)
  return {
    sourceFactType := .acquisitionCost
    sourceFactId := id
    accountingDate := (c.incurredAt.getD a.acquiredAt).utcDate
    economicEntityId := a.economicEntityId
    currency := c.currency
    amounts := [(.total, c.amount), (.net, c.amount)]
    attributes := { FactAttributes.none with
      capitalize := some c.capitalize, sourceKind := some a.sourceKind }
    matchAmount := c.amount
    placeholders := [("reference_code", a.referenceCode), ("cost_type", c.costType),
      ("vendor_name", (c.vendorName.orElse fun _ => a.vendorName).getD "")]
    description := trim s!"{c.costType} on {a.referenceCode}"
    relatedFacts := (superseded.map fun e => ⟨.expense, e.id, .evidence⟩).toList
    accountingBookIdOverride := none
    allocations := []
    ineligibleReason := acquisitionCostIneligibility a.status c.capitalize c.currency a.currency }

def priorDepleted (m : InventoryMovementRow) : Money :=
  ((t.inventoryMovements.filter fun p =>
    p.inventoryItemId == m.inventoryItemId && p.movementKind == .depletionSale &&
      p.precedes m).map fun p => absDecimal p.quantity).sum

/-- The part of the item's landed cost the movement relieves: the difference of two cumulative
shares of the original quantity. -/
def movementBasis (item : InventoryItemRow) (priorQuantity quantity : Money) : Money :=
  proRataShare item.landedCostAmount (priorQuantity + quantity) item.quantity -
    proRataShare item.landedCostAmount priorQuantity item.quantity

def readInventoryMovement (id : MovementId) : Option SourceFact := do
  let m ← t.findMovement id
  let i ← t.findItem m.inventoryItemId
  let orderLine := m.orderLineId.bind fun line => t.orderLines.find? (·.id == line)
  let acquisition := i.acquisitionId.bind t.findAcquisition
  let reversed := m.reversesMovementId.bind t.findMovement
  -- a reversal carries the basis of the movement it undoes
  let measured := if m.movementKind = .reversal then reversed.getD m else m
  let basis := movementBasis i (t.priorDepleted measured) (absDecimal measured.quantity)
  return {
    sourceFactType := .inventoryMovement
    sourceFactId := id
    accountingDate := m.occurredAt.utcDate
    economicEntityId := i.economicEntityId
    currency := i.currency
    amounts := [(.costBasis, basis), (.quantityTimesBasis, basis), (.total, basis)]
    attributes := { FactAttributes.none with
      movementKind := some m.movementKind.text, sourceKind := acquisition.map (·.sourceKind) }
    matchAmount := basis
    placeholders := [("item_code", i.itemCode), ("movement_kind", m.movementKind.text),
      ("reference_code", (acquisition.map (·.referenceCode)).getD "")]
    description :=
      if m.movementKind = .reversal then trim s!"Reversed depletion of {i.itemCode}"
      else trim s!"Cost of goods sold — {i.itemCode}"
    relatedFacts := (orderLine.map fun line => ⟨.order, line.orderId, .evidence⟩).toList
    accountingBookIdOverride := none
    allocations := []
    ineligibleReason := movementIneligibility m.movementKind (reversed.map (·.movementKind)) }

def readReadable (type : ReadableSourceFactType) (id : FactId) : Option SourceFact :=
  match type with
  | .order => t.readOrder id
  | .orderFee => t.readOrderFee id
  | .orderRefund => t.readOrderRefund id
  | .expense => t.readExpense id
  | .acquisitionCost => t.readAcquisitionCost id
  | .inventoryMovement => t.readInventoryMovement id

def unreadableTypeError (sourceFactType : String) : AccountingError :=
  .validation (s!"no source-fact reader exists for \"{sourceFactType}\". The rule " ++
    "model's CHECK carries every fact type the design names so that " ++
    "widening a constraint on a table with rows is not the first " ++
    "thing the next milestone has to do, but a rule may only name a " ++
    "type something can read: order, order_fee, order_refund, expense, acquisition_cost, " ++
    "inventory_movement.")

/-- Whether the sums before a movement and before the one it reverses pass their cast to
`numeric(20,6)`. -/
def priorDepletedFits (id : MovementId) : Bool :=
  (t.findMovement id).all fun m => (m :: (m.reversesMovementId.bind t.findMovement).toList).all
    fun measured => decide (t.priorDepleted measured < numericLimit)

/-- `facts.read`: none for a row that does not exist. -/
def read (sourceFactType : String) (sourceFactId : FactId) : Result (Option SourceFact) :=
  match ReadableSourceFactType.ofText sourceFactType with
  | none => .error (unreadableTypeError sourceFactType)
  | some type =>
    if type = .inventoryMovement ∧ t.priorDepletedFits sourceFactId = false then
      .error (.database "numeric field overflow")
    else .ok (t.readReadable type sourceFactId)

/-- The ids of one type the backlog selects from: every row but void expenses, and only the
movements of a kind that can post. -/
def backlogIds : ReadableSourceFactType → List FactId
  | .order => t.orders.map (·.id)
  | .orderFee => t.orderFees.map (·.id)
  | .orderRefund => t.orderRefunds.map (·.id)
  | .expense => (t.expenses.filter (·.status != .void)).map (·.id)
  | .acquisitionCost => t.acquisitionCosts.map (·.id)
  | .inventoryMovement =>
    (t.inventoryMovements.filter fun m =>
      m.movementKind == .depletionSale || m.movementKind == .reversal).map (·.id)

end FactTables

abbrev FactRef := ReadableSourceFactType × FactId

/-- `order by f.source_fact_type, f.id`. -/
def FactRef.le (a b : FactRef) : Prop :=
  a.1.textRank < b.1.textRank ∨ (a.1 = b.1 ∧ a.2 ≤ b.2)

instance : DecidableRel FactRef.le := fun _ _ => inferInstanceAs (Decidable (_ ∨ _))

namespace FactTables

variable (t : FactTables)

def backlog (types : List ReadableSourceFactType) : List FactRef :=
  (types.flatMap fun type => (t.backlogIds type).map fun id => (type, id)).insertionSort
    FactRef.le

end FactTables

section Readers

variable {t : FactTables} {type : ReadableSourceFactType} {id : FactId} {fact : SourceFact}

section

variable (h : t.readReadable type id = some fact)
include h

theorem readReadable_spec :
    (fact.sourceFactType = type ∧ fact.sourceFactId = id) ∧
      fact.amounts.map (·.1) ++ [.remainder] = amountSourcesByFactType type ∧
        ∀ name ∈ placeholdersByFactType type, name ∈ fact.placeholders.map (·.1) := by
  cases type <;> simp only [FactTables.readReadable, FactTables.readOrder,
    FactTables.readOrderFee, FactTables.readOrderRefund, FactTables.readExpense,
    FactTables.readAcquisitionCost, FactTables.readInventoryMovement, Option.bind_eq_bind,
    Option.bind_eq_some_iff, Option.pure_def, Option.some.injEq] at h
  case order | expense =>
    obtain ⟨-, -, rfl⟩ := h
    exact ⟨⟨rfl, rfl⟩, rfl, by simp [placeholdersByFactType]⟩
  all_goals
    obtain ⟨-, -, -, -, rfl⟩ := h
    exact ⟨⟨rfl, rfl⟩, rfl, by simp [placeholdersByFactType]⟩

theorem readReadable_stamp :
    fact.sourceFactType = type ∧ fact.sourceFactId = id := (readReadable_spec h).1

theorem readReadable_shape :
    fact.amounts.map (·.1) ++ [.remainder] = amountSourcesByFactType type ∧
      ∀ name ∈ placeholdersByFactType type, name ∈ fact.placeholders.map (·.1) :=
  (readReadable_spec h).2

end

end Readers

end Loxep

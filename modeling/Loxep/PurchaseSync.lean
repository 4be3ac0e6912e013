import Loxep.Acquisitions
import Loxep.Lib.Runs
import Mathlib.Logic.Function.Iterate

/-!
# Ingesting a purchase

An eBay purchase becomes a draft acquisition with a cost row for the goods, the shipping and the
tax. No transaction spans an attempt: the acquisition is inserted, then each cost, then the
provenance and the notification. An attempt that finds the acquisition by the unique index returns
it and adds nothing.
-/

namespace Loxep

/-- `/^-?\d+(\.\d+)?$/`. -/
def isDecimalText (s : String) : Bool :=
  let body := if s.toList.head? = some '-' then s.toList.drop 1 else s.toList
  !(body.takeWhile Char.isDigit).isEmpty &&
    match body.dropWhile Char.isDigit with
    | [] => true
    | c :: fraction => c == '.' && !fraction.isEmpty && fraction.all Char.isDigit

/-- `/^0(\.0+)?$/`. -/
def isZeroText (s : String) : Bool :=
  match s.toList with
  | [] => false
  | c :: rest => c == '0' &&
    match rest with
    | [] => true
    | d :: zeros => d == '.' && !zeros.isEmpty && zeros.all (· == '0')

def digitsValue (digits : List Char) : ℕ :=
  digits.foldl (fun value c => 10 * value + (c.toNat - '0'.toNat)) 0

/-- What a `numeric(20,6)` column makes of the text. -/
def numericOf (s : String) : Money :=
  let negative := s.toList.head? = some '-'
  let body := if negative then s.toList.drop 1 else s.toList
  let whole := body.takeWhile Char.isDigit
  let fraction := (body.dropWhile Char.isDigit).drop 1
  let units : ℤ := Rounding.halfUp (digitsValue (whole ++ fraction) * moneyUnits)
    (10 ^ fraction.length)
  if negative then -units else units

/-- What the provider says of a purchase, with the digest of its raw entries. -/
structure PurchaseFact where
  externalOrderId : String
  sellerExternalId : Option String
  currency : String
  title : String
  itemPriceAmount : String
  shippingAmount : String
  taxAmount : String
  totalAmount : String
  purchasedAt : Timestamp
  payloadHash : ℕ

/-- `purchaseFactSchema`. -/
def parsePurchase (fact : PurchaseFact) : InventoryResult Unit := do
  let invalid := fun field => InventoryError.validation s!"invalid eBay purchase fact: {field}"
  Except.require (fact.externalOrderId ≠ "") (invalid "externalOrderId")
  Except.require (∀ seller ∈ fact.sellerExternalId, seller ≠ "") (invalid "sellerExternalId")
  Except.require (isCurrencyCode fact.currency = true) (invalid "currency")
  Except.require (fact.title ≠ "") (invalid "title")
  Except.require (isDecimalText fact.itemPriceAmount = true) (invalid "itemPriceAmount")
  Except.require (isDecimalText fact.shippingAmount = true) (invalid "shippingAmount")
  Except.require (isDecimalText fact.taxAmount = true) (invalid "taxAmount")
  Except.require (isDecimalText fact.totalAmount = true) (invalid "totalAmount")

/-- A cost of the purchase, under its type of `COST_MAPPING`. -/
structure PurchaseCost where
  costType : String
  costClass : CostClass
  amount : String

def PurchaseFact.costs (fact : PurchaseFact) : List PurchaseCost :=
  [⟨"goods", .goods, fact.itemPriceAmount⟩, ⟨"inbound_freight", .ancillary, fact.shippingAmount⟩,
    ⟨"sales_tax", .ancillary, fact.taxAmount⟩]

/-- A row of `provider_objects` for a purchase. -/
structure ProviderObjectRow where
  connectionId : ConnectionId
  externalObjectId : String
  fetchedAt : Timestamp
  payloadHash : ℕ

structure PurchaseTables extends FactTables where
  connections : List ConnectionRow
  providerObjects : List ProviderObjectRow

def purchaseIdempotencyConstraint : String := "acquisitions_connection_external_ref_uq"

structure IngestInput where
  connectionId : ConnectionId
  fact : PurchaseFact

/-- A call for the purchase: the time, the ids drawn, and how many writes it lives for. -/
structure IngestAttempt where
  now : Timestamp
  acquisitionId : AcquisitionId
  costId : ℕ → FactId
  retainProvenance : Bool := true
  statements : ℕ

structure IngestResult where
  created : Bool
  skipped : Bool
  acquisition : AcquisitionRow

/-- How far an attempt has come. -/
inductive IngestStage
  | started
  /-- The acquisition is inserted, and these costs are still to add. -/
  | costing (acquisition : AcquisitionRow) (costs : List PurchaseCost)
  | retaining (acquisition : AcquisitionRow) (created : Bool)
  | notifying (acquisition : AcquisitionRow)
  | returned (result : IngestResult)
  /-- With the costs it had not added. -/
  | raised (error : InventoryError) (costs : List PurchaseCost)

section Ingest

variable (input : IngestInput) (attempt : IngestAttempt)

def acquisitionInput : CreateAcquisitionInput where
  id := attempt.acquisitionId
  title := input.fact.title
  sourceKind := "online_marketplace"
  currency := input.fact.currency
  connectionId := some input.connectionId
  vendorName := input.fact.sellerExternalId
  externalReference := some input.fact.externalOrderId
  status := "draft"
  acquiredAt := some input.fact.purchasedAt

def costInput (acquisition : AcquisitionRow) (cost : PurchaseCost) (left : ℕ) : AddCostInput where
  id := attempt.costId left
  acquisitionId := acquisition.id
  costType := cost.costType
  costClass := cost.costClass
  amount := numericOf cost.amount
  currency := some input.fact.currency
  incurredAt := some input.fact.purchasedAt

def findIngested (s : PurchaseTables) : Option AcquisitionRow :=
  s.acquisitions.find? fun a =>
    a.connectionId == some input.connectionId &&
      a.externalReference == some input.fact.externalOrderId

def startIngest (s : PurchaseTables) : InventoryResult (IngestStage × PurchaseTables) := do
  parsePurchase input.fact
  match s.createAcquisition s.connections attempt.now (acquisitionInput input attempt) with
  | .ok (acquisition, t) =>
    return (.costing acquisition (input.fact.costs.filter fun cost => !isZeroText cost.amount),
      { s with toFactTables := t })
  | .error e =>
    if e = .database purchaseIdempotencyConstraint then
      match findIngested input s with
      | some acquisition => return (.retaining acquisition false, s)
      | none => .error (.notFound (s!"\"{purchaseIdempotencyConstraint}\" rejected the insert " ++
          s!"but no matching acquisition was found for connection \"{input.connectionId}\" / " ++
          s!"external reference \"{input.fact.externalOrderId}\""))
    else .error e

/-- Keep the raw entries unless the latest that were kept are the same. -/
def retainProvenance (s : PurchaseTables) : PurchaseTables :=
  let mine := s.providerObjects.filter fun row =>
    row.connectionId == input.connectionId && row.externalObjectId == input.fact.externalOrderId
  let latest := (mine.insertionSort fun a b => b.fetchedAt.key ≤ a.fetchedAt.key).head?
  if latest.any (·.payloadHash == input.fact.payloadHash) then s
  else { s with
    providerObjects := s.providerObjects ++
      [⟨input.connectionId, input.fact.externalOrderId, attempt.now, input.fact.payloadHash⟩] }

/-- The next write of an attempt, with the reads before it. A notification that fails is not
raised again, and writes no row here. -/
def proceedIngest : IngestStage × PurchaseTables → IngestStage × PurchaseTables
  | (.started, s) =>
    match startIngest input attempt s with
    | .ok next => next
    | .error e => (.raised e [], s)
  | (.costing acquisition [], s) => (.retaining acquisition true, s)
  | (.costing acquisition (cost :: costs), s) =>
    match s.addCost (costInput input attempt acquisition cost costs.length) with
    | .ok (_, t) => (.costing acquisition costs, { s with toFactTables := t })
    | .error e => (.raised e (cost :: costs), s)
  | (.retaining acquisition created, s) =>
    (if created then .notifying acquisition else .returned ⟨false, true, acquisition⟩,
      if attempt.retainProvenance then retainProvenance input attempt s else s)
  | (.notifying acquisition, s) => (.returned ⟨true, false, acquisition⟩, s)
  | (.returned result, s) => (.returned result, s)
  | (.raised e costs, s) => (.raised e costs, s)

def ingestEbayPurchase (s : PurchaseTables) : IngestStage × PurchaseTables :=
  (proceedIngest input attempt)^[attempt.statements] (.started, s)

end Ingest

end Loxep

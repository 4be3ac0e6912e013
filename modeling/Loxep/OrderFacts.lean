import Loxep.Inventory

/-!
# Order facts

The provider-neutral order an adapter's translation hands to ingestion, and what its schema
refuses. Amounts have been widened to money scale, and instants have been read.
-/

namespace Loxep

inductive CommerceErrorClass
  | validation
  | notFound
  | conflict
  | database
  deriving DecidableEq

structure CommerceError where
  errorClass : CommerceErrorClass
  message : String
  deriving DecidableEq

namespace CommerceError

def validation (message : String) : CommerceError := ⟨.validation, message⟩

def notFound (message : String) : CommerceError := ⟨.notFound, message⟩

def conflict (message : String) : CommerceError := ⟨.conflict, message⟩

def database (constraint : String) : CommerceError := ⟨.database, constraint⟩

end CommerceError

abbrev CommerceResult (α : Type) := Except CommerceError α

structure OrderLineValues where
  externalItemId : Option String := none
  externalVariationId : Option String := none
  channelSku : Option String := none
  title : Option String := none
  quantity : Money
  unitPrice : Money
  lineSubtotal : Money
  discountAmount : Money := 0
  taxAmount : Money := 0
  shippingAmount : Money := 0
  refundedAmount : Money := 0
  lineTotal : Money
  deriving DecidableEq

structure CommerceOrderLineFact where
  lineNumber : ℤ
  externalLineId : Option String
  values : OrderLineValues

inductive FeeScope
  | order
  | line
  deriving DecidableEq

structure OrderFeeValues where
  externalFeeId : Option String
  feeScope : FeeScope
  feeDirection : FeeDirection
  feeType : String
  providerFeeCode : Option String := none
  description : Option String := none
  currency : String
  amount : Money
  chargedAt : Option Timestamp := none
  deriving DecidableEq

structure CommerceOrderFeeFact where
  lineNumber : Option ℤ
  values : OrderFeeValues

structure OrderRefundValues where
  externalRefundId : Option String
  kind : String
  status : String
  reasonCode : Option String := none
  currency : String
  amount : Money
  refundedAt : Option Timestamp := none
  deriving DecidableEq

structure CommerceOrderRefundLineFact where
  lineNumber : Option ℤ
  quantity : Option Money
  amount : Money

structure CommerceOrderRefundFact where
  values : OrderRefundValues
  lines : List CommerceOrderRefundLineFact

structure OrderFulfillmentValues where
  externalFulfillmentId : Option String
  status : String
  carrierCode : Option String := none
  carrierName : Option String := none
  serviceCode : Option String := none
  trackingNumber : Option String := none
  trackingUrl : Option String := none
  shippedAt : Option Timestamp := none
  deliveredAt : Option Timestamp := none
  destinationCountry : Option String := none
  destinationRegion : Option String := none
  deriving DecidableEq

structure CommerceOrderFulfillmentLineFact where
  lineNumber : ℤ
  quantity : Money

structure CommerceOrderFulfillmentFact where
  values : OrderFulfillmentValues
  lines : List CommerceOrderFulfillmentLineFact

structure OrderValues where
  channel : String
  marketplace : Option String := none
  sourceAccountKey : String
  externalOrderNumber : Option String := none
  status : String
  paymentStatus : String
  fulfillmentStatus : String
  providerStatusRaw : Option String := none
  currency : String
  subtotalAmount : Money
  shippingAmount : Money
  discountAmount : Money
  taxAmount : Money
  feeAmount : Money
  refundedAmount : Money
  totalAmount : Money
  buyerExternalId : Option String := none
  buyerDisplayName : Option String := none
  placedAt : Timestamp
  providerUpdatedAt : Option Timestamp
  cancelledAt : Option Timestamp := none
  deriving DecidableEq

structure CommerceOrderFact where
  provider : String
  externalOrderId : String
  values : OrderValues
  lines : List CommerceOrderLineFact
  fees : List CommerceOrderFeeFact
  refunds : List CommerceOrderRefundFact
  fulfillments : List CommerceOrderFulfillmentFact
  /-- The digest of the verbatim payload. -/
  rawPayload : Option String
  providerObjectType : String

abbrev SchemaIssue := String × String

namespace SchemaIssue

def ofText (path value : String) : List SchemaIssue :=
  if value = "" then [(path, "too_small")] else []

def ofOptionalText (path : String) (value : Option String) : List SchemaIssue :=
  value.elim [] (ofText path)

def ofPositive (path : String) (value : ℤ) : List SchemaIssue :=
  if 0 < value then [] else [(path, "too_small")]

/-- A quantity must have a digit that is not zero; its sign is not looked at. -/
def ofQuantity (path : String) (value : Money) : List SchemaIssue :=
  if value = 0 then [(path, "custom")] else []

def ofCurrency (path value : String) : List SchemaIssue :=
  if isAlphabeticCode value then [] else [(path, "invalid_format")]

def ofCountry (path : String) (value : Option String) : List SchemaIssue :=
  value.elim [] fun country =>
    if country.length < 2 then [(path, "too_small")]
    else if 2 < country.length then [(path, "too_big")]
    else []

def ofEntries {α : Type} (path : String) (entries : List α) (issues : String → α → List SchemaIssue)
    : List SchemaIssue :=
  (entries.mapIdx fun i entry => issues (path ++ "." ++ toString i) entry).flatten

end SchemaIssue

open SchemaIssue

def CommerceOrderLineFact.issues (path : String) (line : CommerceOrderLineFact) :
    List SchemaIssue :=
  ofPositive (path ++ ".lineNumber") line.lineNumber
  ++ ofOptionalText (path ++ ".externalLineId") line.externalLineId
  ++ ofOptionalText (path ++ ".externalItemId") line.values.externalItemId
  ++ ofOptionalText (path ++ ".externalVariationId") line.values.externalVariationId
  ++ ofOptionalText (path ++ ".channelSku") line.values.channelSku
  ++ ofQuantity (path ++ ".quantity") line.values.quantity

def CommerceOrderFeeFact.issues (path : String) (fee : CommerceOrderFeeFact) :
    List SchemaIssue :=
  ofOptionalText (path ++ ".externalFeeId") fee.values.externalFeeId
  ++ fee.lineNumber.elim [] (ofPositive (path ++ ".lineNumber"))
  ++ ofText (path ++ ".feeType") fee.values.feeType
  ++ ofOptionalText (path ++ ".providerFeeCode") fee.values.providerFeeCode
  ++ ofCurrency (path ++ ".currency") fee.values.currency
  ++ (if fee.values.feeScope = .line ↔ fee.lineNumber.isSome then []
      else [(path ++ ".lineNumber", "custom")])

def CommerceOrderRefundFact.issues (path : String) (refund : CommerceOrderRefundFact) :
    List SchemaIssue :=
  ofOptionalText (path ++ ".externalRefundId") refund.values.externalRefundId
  ++ ofText (path ++ ".kind") refund.values.kind
  ++ ofText (path ++ ".status") refund.values.status
  ++ ofCurrency (path ++ ".currency") refund.values.currency
  ++ ofEntries (path ++ ".lines") refund.lines fun path line =>
      line.lineNumber.elim [] (ofPositive (path ++ ".lineNumber"))

def CommerceOrderFulfillmentFact.issues (path : String) (fulfillment : CommerceOrderFulfillmentFact)
    : List SchemaIssue :=
  ofOptionalText (path ++ ".externalFulfillmentId") fulfillment.values.externalFulfillmentId
  ++ ofText (path ++ ".status") fulfillment.values.status
  ++ ofOptionalText (path ++ ".carrierCode") fulfillment.values.carrierCode
  ++ ofOptionalText (path ++ ".carrierName") fulfillment.values.carrierName
  ++ ofOptionalText (path ++ ".serviceCode") fulfillment.values.serviceCode
  ++ ofOptionalText (path ++ ".trackingNumber") fulfillment.values.trackingNumber
  ++ ofOptionalText (path ++ ".trackingUrl") fulfillment.values.trackingUrl
  ++ ofCountry (path ++ ".destinationCountry") fulfillment.values.destinationCountry
  ++ ofOptionalText (path ++ ".destinationRegion") fulfillment.values.destinationRegion
  ++ ofEntries (path ++ ".lines") fulfillment.lines fun path line =>
      ofPositive (path ++ ".lineNumber") line.lineNumber
      ++ ofQuantity (path ++ ".quantity") line.quantity

/-- What `commerceOrderFactSchema` refuses. -/
def CommerceOrderFact.issues (fact : CommerceOrderFact) : List SchemaIssue :=
  ofText "provider" fact.provider
  ++ ofText "channel" fact.values.channel
  ++ ofOptionalText "marketplace" fact.values.marketplace
  ++ ofText "sourceAccountKey" fact.values.sourceAccountKey
  ++ ofText "externalOrderId" fact.externalOrderId
  ++ ofOptionalText "externalOrderNumber" fact.values.externalOrderNumber
  ++ ofText "status" fact.values.status
  ++ ofText "paymentStatus" fact.values.paymentStatus
  ++ ofText "fulfillmentStatus" fact.values.fulfillmentStatus
  ++ ofCurrency "currency" fact.values.currency
  ++ ofOptionalText "buyerExternalId" fact.values.buyerExternalId
  ++ ofOptionalText "buyerDisplayName" fact.values.buyerDisplayName
  ++ ofEntries "lines" fact.lines CommerceOrderLineFact.issues
  ++ ofEntries "fees" fact.fees CommerceOrderFeeFact.issues
  ++ ofEntries "refunds" fact.refunds CommerceOrderRefundFact.issues
  ++ ofEntries "fulfillments" fact.fulfillments CommerceOrderFulfillmentFact.issues
  ++ ofText "providerObjectType" fact.providerObjectType

def OrderValues.amounts (values : OrderValues) : List Money :=
  [values.subtotalAmount, values.shippingAmount, values.discountAmount, values.taxAmount,
    values.feeAmount, values.refundedAmount, values.totalAmount]

def OrderLineValues.amounts (values : OrderLineValues) : List Money :=
  [values.quantity, values.unitPrice, values.lineSubtotal, values.discountAmount, values.taxAmount,
    values.shippingAmount, values.refundedAmount, values.lineTotal]

def CommerceOrderRefundFact.amounts (refund : CommerceOrderRefundFact) : List Money :=
  refund.values.amount :: refund.lines.flatMap fun line => line.quantity.toList ++ [line.amount]

/-- What of a fact goes to a `numeric(20,6)` column. -/
def CommerceOrderFact.amounts (fact : CommerceOrderFact) : List Money :=
  fact.values.amounts ++ fact.lines.flatMap (·.values.amounts) ++ fact.fees.map (·.values.amount)
  ++ fact.refunds.flatMap (·.amounts) ++ fact.fulfillments.flatMap (·.lines.map (·.quantity))

/-- Whether the columns of an order's rows can hold the amounts and the line numbers. -/
def CommerceOrderFact.fits (fact : CommerceOrderFact) : Bool :=
  fact.amounts.all (fun amount => decide (amount.natAbs < numericLimit)) &&
    fact.lines.all fun line => decide (line.lineNumber ≤ 2147483647)

def CommerceOrderFact.parse (fact : CommerceOrderFact) : CommerceResult CommerceOrderFact :=
  if fact.issues = [] then .ok fact
  else .error (.validation ("invalid order fact: " ++
    "; ".intercalate (fact.issues.map fun issue => issue.1 ++ ": " ++ issue.2)))

end Loxep

/-!
## Rewriting an order's rows

The lines of an order are matched in place, by the provider's id of a line or by position, so that a
surviving line keeps its row. Everything else is deleted and written again. Stock rows may refer to
a line, a fee or a fulfillment, and PostgreSQL does not delete a row that is referred to.
-/

namespace Loxep

structure InboundReference where
  constraint : String
  id : ℕ

/-- The stock rows that refer to an order's rows. -/
structure InboundReferences where
  lines : List InboundReference := []
  fees : List InboundReference := []
  fulfillments : List InboundReference := []

def deleteRows (references : List InboundReference) (ids : List ℕ) : CommerceResult PUnit :=
  match references.find? fun reference => decide (reference.id ∈ ids) with
  | none => .ok ()
  | some reference => .error (.database reference.constraint)

/-- A row of `order_lines`, of one order. -/
structure StoredOrderLine where
  id : OrderLineId
  lineNumber : ℤ
  externalLineId : Option String
  values : OrderLineValues
  deriving DecidableEq

namespace StoredOrderLine

def write (line : CommerceOrderLineFact) (id : OrderLineId) : StoredOrderLine :=
  ⟨id, line.lineNumber, line.externalLineId, line.values⟩

def park (row : StoredOrderLine) : StoredOrderLine :=
  if 0 < row.lineNumber then { row with lineNumber := -row.lineNumber } else row

end StoredOrderLine

abbrev LineIds := List (ℤ × OrderLineId)

def LineIds.at (ids : LineIds) (lineNumber : ℤ) : Option OrderLineId :=
  (ids.reverse.find? (·.1 == lineNumber)).map (·.2)

def candidateFor (existing : List StoredOrderLine) (line : CommerceOrderLineFact) :
    Option StoredOrderLine :=
  match line.externalLineId with
  | some externalLineId => existing.find? (·.externalLineId == some externalLineId)
  | none => existing.find? (·.lineNumber == line.lineNumber)

def matchLines (existing : List StoredOrderLine) (matchedIds : List OrderLineId) :
    List CommerceOrderLineFact → LineIds
  | [] => []
  | line :: rest =>
    match candidateFor existing line with
    | none => matchLines existing matchedIds rest
    | some row =>
      if row.id ∈ matchedIds then matchLines existing matchedIds rest
      else (line.lineNumber, row.id) :: matchLines existing (row.id :: matchedIds) rest

def checkLineRow (others : List StoredOrderLine) (row : StoredOrderLine) :
    CommerceResult PUnit := do
  Except.require (0 < row.values.quantity) (CommerceError.database "order_lines_quantity_check")
  Except.require (row.lineNumber ∉ others.map (·.lineNumber))
    (CommerceError.database "order_lines_order_id_line_number_uq")
  Except.require (row.externalLineId = none ∨ row.externalLineId ∉ others.map (·.externalLineId))
    (CommerceError.database "order_lines_order_id_external_line_id_uq")

structure LineRewrite where
  rows : List StoredOrderLine
  nextRowId : ℕ
  lineIdByNumber : LineIds

def LineRewrite.writeLine (matches' : LineIds) (state : LineRewrite) (line : CommerceOrderLineFact)
    : CommerceResult LineRewrite :=
  match matches'.at line.lineNumber with
  | none => do
    let row := StoredOrderLine.write line state.nextRowId
    checkLineRow state.rows row
    return ⟨state.rows ++ [row], state.nextRowId + 1,
      state.lineIdByNumber ++ [(line.lineNumber, state.nextRowId)]⟩
  | some id => do
    let row := StoredOrderLine.write line id
    checkLineRow (state.rows.filter (·.id != id)) row
    return ⟨state.rows.map fun old => if old.id = id then row else old, state.nextRowId,
      state.lineIdByNumber ++ [(line.lineNumber, id)]⟩

def LineRewrite.writeLines (matches' : LineIds) (state : LineRewrite) :
    List CommerceOrderLineFact → CommerceResult LineRewrite
  | [] => .ok state
  | line :: rest => do
    let written ← state.writeLine matches' line
    written.writeLines matches' rest

def rewriteLines (references : List InboundReference) (existing : List StoredOrderLine)
    (nextRowId : ℕ) (lines : List CommerceOrderLineFact) : CommerceResult LineRewrite := do
  let matches' := matchLines existing [] lines
  let matched (row : StoredOrderLine) : Bool := decide (row.id ∈ matches'.map (·.2))
  deleteRows references ((existing.filter (!matched ·)).map (·.id))
  let kept := existing.filter matched
  let parked := if matches' = [] then kept else kept.map StoredOrderLine.park
  LineRewrite.writeLines matches' ⟨parked, nextRowId, []⟩ lines

structure StoredOrderFee where
  id : ℕ
  orderLineId : Option OrderLineId
  values : OrderFeeValues
  deriving DecidableEq

structure StoredRefundLine where
  orderLineId : Option OrderLineId
  quantity : Option Money
  amount : Money
  deriving DecidableEq

structure StoredOrderRefund where
  values : OrderRefundValues
  lines : List StoredRefundLine
  deriving DecidableEq

structure StoredFulfillmentLine where
  orderLineId : OrderLineId
  quantity : Money
  deriving DecidableEq

structure StoredOrderFulfillment where
  id : FulfillmentId
  values : OrderFulfillmentValues
  lines : List StoredFulfillmentLine
  deriving DecidableEq

def OrderFeeValues.stored (values : OrderFeeValues) : OrderFeeValues :=
  { values with currency := values.currency.toUpper }

def OrderRefundValues.stored (values : OrderRefundValues) : OrderRefundValues :=
  { values with currency := values.currency.toUpper }

def OrderFulfillmentValues.stored (values : OrderFulfillmentValues) : OrderFulfillmentValues :=
  { values with destinationCountry := values.destinationCountry.map String.toUpper }

def requireNewId (id : Option String) (others : List (Option String)) (constraint : String) :
    CommerceResult PUnit :=
  Except.require (id = none ∨ id ∉ others) (CommerceError.database constraint)

/-- Rows written one after another beside those that are there. -/
def insertEach {α β : Type} (insert : List β → α → CommerceResult β) (stored : List β) :
    List α → CommerceResult (List β)
  | [] => .ok stored
  | fact :: rest => do
    let row ← insert stored fact
    insertEach insert (stored ++ [row]) rest

section

variable (lineIdByNumber : LineIds) (nextRowId : ℕ)

def resolveLineId : Option ℤ → CommerceResult (Option OrderLineId)
  | none => .ok none
  | some lineNumber =>
    match lineIdByNumber.at lineNumber with
    | none => .error (.validation
        ("attachment references line " ++ toString lineNumber ++
          ", which the order does not have"))
    | some id => .ok (some id)

def insertFee (stored : List StoredOrderFee) (fee : CommerceOrderFeeFact) :
    CommerceResult StoredOrderFee := do
  let orderLineId ← resolveLineId lineIdByNumber fee.lineNumber
  requireNewId fee.values.externalFeeId (stored.map (·.values.externalFeeId))
    "order_fees_order_id_external_fee_id_uq"
  return ⟨nextRowId + stored.length, orderLineId, fee.values.stored⟩

def insertRefundLine (_stored : List StoredRefundLine) (line : CommerceOrderRefundLineFact) :
    CommerceResult StoredRefundLine := do
  let orderLineId ← resolveLineId lineIdByNumber line.lineNumber
  return ⟨orderLineId, line.quantity, line.amount⟩

def insertRefund (stored : List StoredOrderRefund) (refund : CommerceOrderRefundFact) :
    CommerceResult StoredOrderRefund := do
  requireNewId refund.values.externalRefundId (stored.map (·.values.externalRefundId))
    "order_refunds_order_id_external_refund_id_uq"
  let lines ← insertEach (insertRefundLine lineIdByNumber) [] refund.lines
  return ⟨refund.values.stored, lines⟩

def fulfillmentLines (seen : List ℤ) :
    List CommerceOrderFulfillmentLineFact → CommerceResult (List StoredFulfillmentLine)
  | [] => .ok []
  | line :: rest =>
    if line.lineNumber ∈ seen then fulfillmentLines seen rest
    else
      match lineIdByNumber.at line.lineNumber with
      | none => .error (.validation
          ("fulfillment references line " ++ toString line.lineNumber ++
            ", which the order does not have"))
      | some id => do
        let rows ← fulfillmentLines (line.lineNumber :: seen) rest
        return ⟨id, line.quantity⟩ :: rows

def insertFulfillment (stored : List StoredOrderFulfillment)
    (fulfillment : CommerceOrderFulfillmentFact) : CommerceResult StoredOrderFulfillment := do
  requireNewId fulfillment.values.externalFulfillmentId
    (stored.map (·.values.externalFulfillmentId))
    "order_fulfillments_order_id_external_id_uq"
  let lines ← fulfillmentLines lineIdByNumber [] fulfillment.lines
  Except.require (∀ line ∈ lines, 0 < line.quantity)
    (CommerceError.database "order_fulfillment_lines_quantity_check")
  Except.require ((lines.map (·.orderLineId)).Nodup)
    (CommerceError.database "order_fulfillment_lines_order_fulfillment_id_order_line_id_pk")
  return ⟨nextRowId + stored.length, fulfillment.values.stored, lines⟩

end

structure OrderChildren where
  lines : List StoredOrderLine := []
  fees : List StoredOrderFee := []
  refunds : List StoredOrderRefund := []
  fulfillments : List StoredOrderFulfillment := []
  deriving DecidableEq

/-- `rewriteLines` and `rewriteAttachments`, with the next row id. -/
def OrderChildren.rewrite (references : InboundReferences) (existing : OrderChildren)
    (nextRowId : ℕ) (fact : CommerceOrderFact) : CommerceResult (OrderChildren × ℕ) := do
  let rewritten ← rewriteLines references.lines existing.lines nextRowId fact.lines
  deleteRows references.fees (existing.fees.map (·.id))
  deleteRows references.fulfillments (existing.fulfillments.map (·.id))
  let ids := rewritten.lineIdByNumber
  let feeId := rewritten.nextRowId
  let fees ← insertEach (insertFee ids feeId) [] fact.fees
  let refunds ← insertEach (insertRefund ids) [] fact.refunds
  let fulfillmentId := feeId + fees.length
  let fulfillments ← insertEach (insertFulfillment ids fulfillmentId) [] fact.fulfillments
  return (⟨rewritten.rows, fees, refunds, fulfillments⟩, fulfillmentId + fulfillments.length)

end Loxep

import Loxep.DecimalText
import Loxep.OrderIngestion

/-!
# Manual sales

A sale on a manual channel listing is recorded as an order with one line, and the listing's
quantity is written anew from what the transaction has read of it. No row is locked before that
write, which looks for nothing but the listing's id.
-/

namespace Loxep

abbrev ChannelListingId := ℕ
abbrev CatalogItemId := ℕ

inductive ChannelListingStatus
  | draft
  | active
  | ended
  | soldOut
  | unknown
  deriving DecidableEq

def ChannelListingStatus.text : ChannelListingStatus → String
  | .draft => "draft"
  | .active => "active"
  | .ended => "ended"
  | .soldOut => "sold_out"
  | .unknown => "unknown"

structure ChannelListingRow where
  id : ChannelListingId
  listingCode : String
  catalogItemId : CatalogItemId
  provider : String
  channel : String
  status : ChannelListingStatus
  listingTitle : Option String
  currency : Option String
  /-- An `integer` column. -/
  quantityAvailable : Option ℤ
  endedAt : Option Timestamp
  deriving DecidableEq

structure CatalogItemRow where
  id : CatalogItemId
  sku : String
  name : String
  deriving DecidableEq

structure ManualOrderRow where
  id : OrderId
  provider : String
  channel : String
  sourceAccountKey : String
  externalOrderId : String
  externalOrderNumber : Option String
  attribution : ResolvedAttribution
  status : String
  paymentStatus : String
  fulfillmentStatus : String
  currency : String
  subtotalAmount : Money
  totalAmount : Money
  placedAt : Timestamp
  firstIngestedAt : Timestamp
  lastSyncedAt : Timestamp

structure ManualOrderLineRow where
  orderId : OrderId
  lineNumber : ℤ
  catalogItemId : CatalogItemId
  channelListingId : ChannelListingId
  channelSku : String
  title : String
  quantity : Money
  unitPrice : Money
  lineSubtotal : Money
  lineTotal : Money

structure ManualSaleTables where
  economicEntities : List EntityId := []
  channelListings : List ChannelListingRow := []
  catalogItems : List CatalogItemRow := []
  orders : List ManualOrderRow := []
  orderLines : List ManualOrderLineRow := []

def MANUAL_PROVIDER : String := "manual"

def MANUAL_SOURCE_ACCOUNT_KEY : String := "manual:default"

structure RecordManualSaleInput where
  channelListingId : ChannelListingId
  quantity : String := "1"
  unitPrice : String
  currency : Option String := none
  economicEntityId : Option EntityId := none
  occurredAt : Option Timestamp := none

/-- `/^\d+(\.\d{1,6})?$/` after a trim, read. -/
def parseSaleDecimal (text : String) : Option ScaledDecimal :=
  if (trim text).toList.head? = some '-' then none
  else (parseDecimalText (trim text)).filter fun value => value.scale ≤ 6

structure ManualSaleValue where
  channelListingId : ChannelListingId
  quantity : ScaledDecimal
  unitPrice : ScaledDecimal
  currency : Option String
  economicEntityId : Option EntityId
  occurredAt : Option Timestamp
  deriving DecidableEq

namespace RecordManualSaleInput

variable (input : RecordManualSaleInput)

def currencyIssues : List SchemaIssue :=
  input.currency.elim [] fun currency => SchemaIssue.ofCurrency "currency" (trim currency)

def issues : List SchemaIssue :=
  (if parseSaleDecimal input.quantity = none then
    [("quantity", "expected a positive decimal quantity")] else []) ++
  (if parseSaleDecimal input.unitPrice = none then
    [("unitPrice", "expected a positive decimal amount")] else []) ++
  input.currencyIssues

/-- `recordManualSaleSchema.safeParse`. -/
def parse : CommerceResult ManualSaleValue :=
  match parseSaleDecimal input.quantity, parseSaleDecimal input.unitPrice, input.currencyIssues with
  | some quantity, some unitPrice, [] => .ok {
      channelListingId := input.channelListingId
      quantity
      unitPrice
      currency := input.currency.map trim
      economicEntityId := input.economicEntityId
      occurredAt := input.occurredAt }
  | _, _, _ => .error (.validation ("invalid manual sale: " ++
      "; ".intercalate (input.issues.map fun issue => issue.1 ++ ": " ++ issue.2)))

end RecordManualSaleInput

/-- `multiplyDecimals`: the product is widened to six digits by the scale it is written at. -/
def ScaledDecimal.multiplyDecimals (a b : ScaledDecimal) : CommerceResult Money :=
  ScaledDecimal.toMoney ⟨a.units * b.units, a.scale + b.scale⟩

structure SaleAmounts where
  unitPrice : Money
  lineSubtotal : Money

def ManualSaleValue.amounts (value : ManualSaleValue) : CommerceResult SaleAmounts := do
  let unitPrice ← value.unitPrice.toMoney
  let lineSubtotal ← (ScaledDecimal.ofMoney unitPrice).multiplyDecimals value.quantity
  return ⟨unitPrice, lineSubtotal⟩

/-- Whether the `numeric(20,6)` columns of a sale's rows can hold it. -/
def SaleAmounts.fit (amounts : SaleAmounts) (quantity : Money) : Bool :=
  [amounts.unitPrice, amounts.lineSubtotal, quantity].all fun amount =>
    decide (amount.natAbs < numericLimit)

/-- `Math.max(0, listing.quantityAvailable - Number(value.quantity))`, in millionths. -/
def remainingOf (available : ℤ) (quantity : ScaledDecimal) : Money :=
  max 0 (available * moneyUnits - quantity.rescale 6)

/-- What an `integer` column makes of a number that is not negative. -/
def integerOf (amount : Money) : ℤ := Rounding.halfUp amount.toNat moneyUnits

structure SaleReading where
  value : ManualSaleValue
  listing : ChannelListingRow
  catalogItem : CatalogItemRow
  deriving DecidableEq

structure RecordManualSaleResult where
  orderId : OrderId
  catalogItemId : CatalogItemId
  channelListingId : ChannelListingId
  quantity : ScaledDecimal
  listingStatus : ChannelListingStatus

namespace SaleReading

variable (reading : SaleReading)

def remaining : Option Money :=
  reading.listing.quantityAvailable.map (remainingOf · reading.value.quantity)

def listingStatus : ChannelListingStatus :=
  if reading.remaining = some 0 then .soldOut else reading.listing.status

def currency : String :=
  ((reading.value.currency.or reading.listing.currency).getD "USD").toUpper

def orderRow (id : OrderId) (externalOrderId : String) (now : Timestamp) (amounts : SaleAmounts) :
    ManualOrderRow where
  id
  provider := MANUAL_PROVIDER
  channel := reading.listing.channel
  sourceAccountKey := MANUAL_SOURCE_ACCOUNT_KEY
  externalOrderId
  externalOrderNumber := some reading.listing.listingCode
  attribution := resolveAttribution reading.value.economicEntityId none now
  status := "completed"
  paymentStatus := "paid"
  fulfillmentStatus := "fulfilled"
  currency := reading.currency
  subtotalAmount := amounts.lineSubtotal
  totalAmount := amounts.lineSubtotal
  placedAt := reading.value.occurredAt.getD now
  firstIngestedAt := now
  lastSyncedAt := now

def lineRow (orderId : OrderId) (amounts : SaleAmounts) : ManualOrderLineRow where
  orderId
  lineNumber := 1
  catalogItemId := reading.catalogItem.id
  channelListingId := reading.listing.id
  channelSku := reading.catalogItem.sku
  title := reading.listing.listingTitle.getD reading.catalogItem.name
  quantity := reading.value.quantity.rescale 6
  unitPrice := amounts.unitPrice
  lineSubtotal := amounts.lineSubtotal
  lineTotal := amounts.lineSubtotal

/-- The listing's columns as the `update` leaves them, whatever they were. -/
def updateListing (now : Timestamp) (row : ChannelListingRow) : ChannelListingRow :=
  { row with
    quantityAvailable := reading.remaining.map integerOf
    status := reading.listingStatus
    endedAt := if reading.listingStatus = .soldOut then some now else reading.listing.endedAt }

end SaleReading

namespace ManualSaleTables

variable (s : ManualSaleTables)

def listingOf (id : ChannelListingId) : Option ChannelListingRow :=
  KeyedTable.get ChannelListingRow.id s.channelListings id

def readSale (input : RecordManualSaleInput) : CommerceResult SaleReading := do
  let value ← input.parse
  match s.listingOf value.channelListingId with
  | none => throw (.notFound s!"unknown channel listing \"{value.channelListingId}\"")
  | some listing =>
    Except.require (listing.provider = MANUAL_PROVIDER) (CommerceError.validation
      (s!"channel listing \"{listing.listingCode}\" is provider " ++
        s!"\"{listing.provider}\", not \"{MANUAL_PROVIDER}\" — a connector-" ++
        "synced listing records its sale through the normal order sync, " ++
        "never through the manual sale recorder"))
    Except.require (listing.status ≠ .soldOut ∧ listing.status ≠ .ended) (CommerceError.conflict
      (s!"channel listing \"{listing.listingCode}\" is already " ++
        s!"\"{listing.status.text}\" — nothing left to sell"))
    match s.catalogItems.find? (·.id == listing.catalogItemId) with
    | none => throw (.notFound s!"unknown catalog item \"{listing.catalogItemId}\"")
    | some catalogItem => return ⟨value, listing, catalogItem⟩

def writeSale (reading : SaleReading) (orderId : OrderId) (externalOrderId : String)
    (now : Timestamp) : CommerceResult (RecordManualSaleResult × ManualSaleTables) := do
  let amounts ← reading.value.amounts
  Except.require (amounts.fit (reading.value.quantity.rescale 6))
    (CommerceError.database "numeric field overflow")
  Except.require (0 < reading.value.quantity.units)
    (CommerceError.database "order_lines_quantity_check")
  Except.require (∀ entity ∈ reading.value.economicEntityId, entity ∈ s.economicEntities)
    (CommerceError.database "orders_economic_entity_id_economic_entities_id_fk")
  let tables := { s with
    orders := s.orders ++ [reading.orderRow orderId externalOrderId now amounts]
    orderLines := s.orderLines ++ [reading.lineRow orderId amounts]
    channelListings := KeyedTable.set ChannelListingRow.id s.channelListings reading.listing.id
      (reading.updateListing now) }
  return (⟨orderId, reading.catalogItem.id, reading.listing.id, reading.value.quantity,
    reading.listingStatus⟩, tables)

/-- A transaction that nothing interleaves with. -/
def recordManualSale (input : RecordManualSaleInput) (orderId : OrderId) (externalOrderId : String)
    (now : Timestamp) : CommerceResult (RecordManualSaleResult × ManualSaleTables) := do
  let reading ← s.readSale input
  s.writeSale reading orderId externalOrderId now

end ManualSaleTables

abbrev SaleSessionId := ℕ

inductive SaleAction
  | read (session : SaleSessionId) (input : RecordManualSaleInput)
  | commit (session : SaleSessionId) (orderId : OrderId) (externalOrderId : String)
      (now : Timestamp)
  | abort (session : SaleSessionId)

/-- The committed tables and what each open transaction has read. The `update` of the listing waits
for a transaction that has written the row, so the writes of a sale take effect with its commit. -/
structure SaleSystem where
  tables : ManualSaleTables
  reading : SaleSessionId → Option SaleReading := fun _ => none

namespace SaleSystem

variable (s : SaleSystem)

def setReading (session : SaleSessionId) (reading : Option SaleReading) : SaleSystem :=
  { s with reading := fun other => if other = session then reading else s.reading other }

/-- `recordManualSale` up to its reads, its writes with the commit, and its rollback. -/
def step : SaleAction → SaleSystem
  | .read session input =>
    match s.reading session, s.tables.readSale input with
    | none, .ok reading => s.setReading session (some reading)
    | _, _ => s
  | .commit session orderId externalOrderId now =>
    match s.reading session with
    | some reading =>
      match s.tables.writeSale reading orderId externalOrderId now with
      | .ok (_, tables) => { s with tables }.setReading session none
      | .error _ => s.setReading session none
    | none => s
  | .abort session => s.setReading session none

end SaleSystem

end Loxep

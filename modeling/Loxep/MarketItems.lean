import Loxep.Calendar
import Loxep.Lib.Except
import Loxep.Lib.KeyedTable

/-!
# Marketplace items

What a fetch says of an item goes into the item's row, which is created at its first sighting, and
into the link between the item and the monitor that fetched it. Items that a whole watchlist no
longer lists have their links deactivated.
-/

namespace Loxep

abbrev MarketplaceItemId := ℕ
abbrev MonitorTargetId := ℕ

/-- `schema` is what parsing an input raises, with the paths of its issues. -/
inductive MarketError
  | schema (paths : List String)
  | validation (message : String)
  | notFound (message : String)
  deriving DecidableEq

abbrev MarketResult (α : Type) := Except MarketError α

/-- The unique key of `marketplace_items`. -/
structure ItemKey where
  provider : String
  marketplace : String
  externalItemId : String
  deriving DecidableEq

/-- The nullable columns. -/
structure ListingDetails where
  sellerExternalId : Option String := none
  canonicalUrl : Option String := none
  title : Option String := none
  conditionCode : Option String := none
  categoryExternalId : Option String := none
  listingType : Option String := none
  listingStartedAt : Option Timestamp := none
  listingEndsAt : Option Timestamp := none
  deriving DecidableEq

/-- `coalesce(excluded.x, marketplace_items.x)`, column by column. -/
def ListingDetails.coalesce (excluded existing : ListingDetails) : ListingDetails where
  sellerExternalId := excluded.sellerExternalId.or existing.sellerExternalId
  canonicalUrl := excluded.canonicalUrl.or existing.canonicalUrl
  title := excluded.title.or existing.title
  conditionCode := excluded.conditionCode.or existing.conditionCode
  categoryExternalId := excluded.categoryExternalId.or existing.categoryExternalId
  listingType := excluded.listingType.or existing.listingType
  listingStartedAt := excluded.listingStartedAt.or existing.listingStartedAt
  listingEndsAt := excluded.listingEndsAt.or existing.listingEndsAt

structure MarketplaceItemInput where
  key : ItemKey
  seenAt : Timestamp
  currentState : String := "active"
  details : ListingDetails := {}

def MarketplaceItemInput.texts (item : MarketplaceItemInput) : List (String × String) :=
  [("provider", item.key.provider), ("marketplace", item.key.marketplace),
    ("externalItemId", item.key.externalItemId), ("currentState", item.currentState)] ++
  [("sellerExternalId", item.details.sellerExternalId), ("canonicalUrl", item.details.canonicalUrl),
    ("title", item.details.title), ("conditionCode", item.details.conditionCode),
    ("categoryExternalId", item.details.categoryExternalId),
    ("listingType", item.details.listingType)].filterMap fun (path, text) => text.map (path, ·)

def MarketplaceItemInput.check (item : MarketplaceItemInput) : MarketResult PUnit := do
  let blank := item.texts.filter (·.2 == "")
  Except.require (blank = []) (MarketError.schema (blank.map (·.1)))
  Except.require (∀ text ∈ item.texts, '\u0000' ∉ text.2.toList)
    (MarketError.validation "text values must not contain NUL bytes")

/-- A row of `marketplace_items`. -/
structure MarketplaceItem where
  id : MarketplaceItemId
  key : ItemKey
  details : ListingDetails
  firstSeenAt : Timestamp
  lastSeenAt : Timestamp
  currentState : String
  deriving DecidableEq

namespace MarketplaceItem

def inserted (id : MarketplaceItemId) (item : MarketplaceItemInput) : MarketplaceItem :=
  ⟨id, item.key, item.details, item.seenAt, item.seenAt, item.currentState⟩

/-- `on conflict … do update set`. -/
def merge (item : MarketplaceItemInput) (row : MarketplaceItem) : MarketplaceItem :=
  { row with
    details := item.details.coalesce row.details
    firstSeenAt := min row.firstSeenAt item.seenAt
    lastSeenAt := max row.lastSeenAt item.seenAt
    currentState := item.currentState }

end MarketplaceItem

/-- A row of `monitor_items`. -/
structure MonitorItem where
  monitorTargetId : MonitorTargetId
  marketplaceItemId : MarketplaceItemId
  firstDiscoveredAt : Timestamp
  lastMatchedAt : Timestamp
  active : Bool

namespace MonitorItem

def pair (link : MonitorItem) : MonitorTargetId × MarketplaceItemId :=
  (link.monitorTargetId, link.marketplaceItemId)

def rematch (at' : Timestamp) (link : MonitorItem) : MonitorItem :=
  { link with lastMatchedAt := max link.lastMatchedAt at', active := true }

end MonitorItem

structure ItemTables where
  items : List MarketplaceItem
  monitorItems : List MonitorItem

namespace ItemTables

variable (t : ItemTables)

def itemOf (key : ItemKey) : Option MarketplaceItem := KeyedTable.get (·.key) t.items key

def linkOf (monitorTargetId : MonitorTargetId) (marketplaceItemId : MarketplaceItemId) :
    Option MonitorItem :=
  KeyedTable.get MonitorItem.pair t.monitorItems (monitorTargetId, marketplaceItemId)

/-- `insert into … on conflict`. A row inserted is given the next id. -/
def writeItem (item : MarketplaceItemInput) : ItemTables :=
  { t with
    items := KeyedTable.upsert (·.key) t.items (.inserted t.items.length item) (·.merge item) }

def upsertMarketplaceItem (item : MarketplaceItemInput) :
    MarketResult (MarketplaceItem × ItemTables) := do
  item.check
  match (t.writeItem item).itemOf item.key with
  | none => .error (.notFound "marketplace item upsert returned no row")
  | some row => .ok (row, t.writeItem item)

def linkItemToMonitor (monitorTargetId : MonitorTargetId) (marketplaceItemId : MarketplaceItemId)
    (at' : Timestamp) : ItemTables :=
  { t with
    monitorItems := KeyedTable.upsert MonitorItem.pair t.monitorItems
      ⟨monitorTargetId, marketplaceItemId, at', at', true⟩ (·.rematch at') }

def deactivateAbsentMonitorItems (monitorTargetId : MonitorTargetId)
    (presentMarketplaceItemIds : List MarketplaceItemId) (at' : Timestamp) : ItemTables :=
  { t with
    monitorItems := t.monitorItems.map fun link =>
      if link.monitorTargetId = monitorTargetId ∧ link.active ∧ link.lastMatchedAt < at'
          ∧ link.marketplaceItemId ∉ presentMarketplaceItemIds
        then { link with active := false } else link }

def sightAll (t : ItemTables) (monitorTargetId : MonitorTargetId) :
    List MarketplaceItemInput → MarketResult (List MarketplaceItem) × ItemTables
  | [] => (.ok [], t)
  | item :: rest =>
    match t.upsertMarketplaceItem item with
    | .error e => (.error e, t)
    | .ok (row, t') =>
      let linked := t'.linkItemToMonitor monitorTargetId row.id item.seenAt
      let (rows, after) := linked.sightAll monitorTargetId rest
      (rows.map (row :: ·), after)

end ItemTables

structure EbayWatchlistEntry where
  externalItemId : String
  title : Option String
  canonicalUrl : Option String
  sellerExternalId : Option String
  listingEndsAt : Option Timestamp

def EbayWatchlistEntry.input (marketplace : String) (observedAt : Timestamp)
    (entry : EbayWatchlistEntry) : MarketplaceItemInput where
  key := ⟨"ebay", marketplace, entry.externalItemId⟩
  seenAt := observedAt
  currentState := "active"
  details :=
    { title := entry.title
      canonicalUrl := entry.canonicalUrl
      sellerExternalId := entry.sellerExternalId
      listingEndsAt := entry.listingEndsAt }

namespace ItemTables

variable (t : ItemTables)

def syncMembership (entries : List EbayWatchlistEntry) (monitorTargetId : MonitorTargetId)
    (marketplace : String) (observedAt : Timestamp) :
    MarketResult (List MarketplaceItem) × ItemTables :=
  t.sightAll monitorTargetId (entries.map (·.input marketplace observedAt))

def writeFetch (monitorTargetId : MonitorTargetId) (listed : List MarketplaceItemInput)
    (complete : Bool) (observedAt : Timestamp) : ItemTables :=
  match t.sightAll monitorTargetId listed with
  | (.error _, after) => after
  | (.ok rows, after) =>
    if complete
      then after.deactivateAbsentMonitorItems monitorTargetId (rows.map (·.id)) observedAt
      else after

end ItemTables

end Loxep

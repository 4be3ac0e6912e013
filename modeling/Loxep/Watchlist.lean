import Loxep.DecimalText
import Loxep.MonitorPolls
import Mathlib.Data.List.MinMax
import Mathlib.Order.WithBot

/-!
# Polling a watchlist

A poll brings the members of a watchlist up to date, picks the ones that were observed longest ago,
as many as one poll may ask for, and writes down what each of them looks like now.
-/

namespace Loxep

/-- `database` is what PostgreSQL raises. -/
inductive WatchlistError
  | configuration (message : String)
  | ebay (kind : String)
  | market (e : MarketError)
  | database
  deriving DecidableEq

abbrev WatchlistResult (α : Type) := Except WatchlistError α

structure EbayMoney where
  value : String
  currency : String

structure EbayItemSnapshot where
  externalItemId : String
  marketplace : String
  title : Option String := none
  sellerExternalId : Option String := none
  canonicalUrl : Option String := none
  conditionCode : Option String := none
  categoryExternalId : Option String := none
  listingType : Option String := none
  price : Option EbayMoney := none
  shippingPrice : Option EbayMoney := none
  quantityAvailable : Option ℤ := none
  quantitySold : Option ℤ := none
  availability : Option String := none
  listingState : String := "active"
  watchCount : Option ℤ := none
  sellerFeedbackScore : Option ℤ := none
  sellerFeedbackPct : Option String := none
  listingEndsAt : Option Timestamp := none

/-- An entry of the array that is hashed. -/
inductive CanonicalField
  | text (value : String)
  | number (value : ℤ)
  | null

namespace CanonicalField

def ofText (value : Option String) : CanonicalField := (value.map .text).getD .null

def ofNumber (value : Option ℤ) : CanonicalField := (value.map .number).getD .null

end CanonicalField

structure ObservationItem where
  currency : Option String
  price : Option String
  shippingPrice : Option String
  quantityAvailable : Option ℤ
  quantitySold : Option ℤ
  availability : Option String
  listingState : Option String
  watchCount : Option ℤ
  sellerFeedbackScore : Option ℤ
  sellerFeedbackPct : Option String
  listingEndsAt : Option Timestamp
  rawStateHash : Option String

namespace EbayItemSnapshot

variable (snapshot : EbayItemSnapshot)

def currency : Option String :=
  (snapshot.price.map (·.currency)).or (snapshot.shippingPrice.map (·.currency))

/-- In the order of `OBSERVATION_HASH_FIELDS`. -/
def canonical : List CanonicalField :=
  [.ofText snapshot.currency, .ofText (snapshot.price.map (·.value)),
    .ofText (snapshot.shippingPrice.map (·.value)), .ofNumber snapshot.quantityAvailable,
    .ofNumber snapshot.quantitySold, .ofText snapshot.availability, .text snapshot.listingState,
    .ofNumber snapshot.watchCount, .ofNumber snapshot.sellerFeedbackScore,
    .ofText snapshot.sellerFeedbackPct, .ofText (snapshot.listingEndsAt.map (·.toIsoString))]

def observationStateHash (digest : List CanonicalField → String) : String :=
  digest snapshot.canonical

def key : ItemKey := ⟨"ebay", snapshot.marketplace, snapshot.externalItemId⟩

/-- The item of `snapshotToObservation`. -/
def item (observedAt : Timestamp) : MarketplaceItemInput where
  key := snapshot.key
  seenAt := observedAt
  currentState := snapshot.listingState
  details :=
    { sellerExternalId := snapshot.sellerExternalId
      canonicalUrl := snapshot.canonicalUrl
      title := snapshot.title
      conditionCode := snapshot.conditionCode
      categoryExternalId := snapshot.categoryExternalId
      listingType := snapshot.listingType
      listingEndsAt := snapshot.listingEndsAt }

/-- The observation of `snapshotToObservation`. -/
def observation (digest : List CanonicalField → String) : ObservationItem where
  currency := snapshot.currency
  price := snapshot.price.map (·.value)
  shippingPrice := snapshot.shippingPrice.map (·.value)
  quantityAvailable := snapshot.quantityAvailable
  quantitySold := snapshot.quantitySold
  availability := snapshot.availability
  listingState := some snapshot.listingState
  watchCount := snapshot.watchCount
  sellerFeedbackScore := snapshot.sellerFeedbackScore
  sellerFeedbackPct := snapshot.sellerFeedbackPct
  listingEndsAt := snapshot.listingEndsAt
  rawStateHash := some (snapshot.observationStateHash digest)

end EbayItemSnapshot

namespace ObservationItem

variable (item : ObservationItem)

/-- JavaScript counts the characters outside the basic plane twice. -/
def jsLength (text : String) : ℕ := (text.toList.map fun c => if c.toNat < 65536 then 1 else 2).sum

/-- The fields `observationItemSchema` does not accept. -/
def issues : List String :=
  [("currency", item.currency.all (jsLength · == 3)), ("price", item.price.all isDecimalText),
    ("shippingPrice", item.shippingPrice.all isDecimalText),
    ("quantityAvailable", item.quantityAvailable.all (0 ≤ ·)),
    ("quantitySold", item.quantitySold.all (0 ≤ ·)),
    ("availability", item.availability.all (· != "")),
    ("listingState", item.listingState.all (· != "")), ("watchCount", item.watchCount.all (0 ≤ ·)),
    ("sellerFeedbackPct", item.sellerFeedbackPct.all isDecimalText),
    ("rawStateHash", item.rawStateHash.all (· != ""))].filterMap
      fun (path, accepted) => if accepted then none else some path

/-- A `numeric` of six digits after the point, and so many before it. -/
def fitsNumeric (whole : ℕ) (text : String) : Bool :=
  (parseDecimalText text).all fun d => decide (|d.value| < 10 ^ whole - 1 / 2000000)

def fitsInteger (value : ℤ) : Bool := decide (-2147483648 ≤ value) && decide (value ≤ 2147483647)

def fits : Bool :=
  item.price.all (fitsNumeric 14) && item.shippingPrice.all (fitsNumeric 14) &&
    item.sellerFeedbackPct.all (fitsNumeric 4) && item.quantityAvailable.all fitsInteger &&
    item.quantitySold.all fitsInteger && item.watchCount.all fitsInteger &&
    [item.currency, item.availability, item.listingState].all
      (·.all fun text => !text.toList.contains '\u0000')

def check : WatchlistResult PUnit := do
  Except.require (item.issues = []) (.market (.schema (item.issues.map ("items.0." ++ ·))))
  Except.require (item.fits = true) .database

end ObservationItem

/-- A row of `marketplace_item_observations`. -/
structure ObservationRow where
  observationBatchId : String
  marketplaceItemId : MarketplaceItemId
  observedAt : Timestamp
  source : String
  item : ObservationItem

def ObservationRow.identity (row : ObservationRow) : String × MarketplaceItemId × Timestamp :=
  (row.observationBatchId, row.marketplaceItemId, row.observedAt)

structure WatchTables extends ItemTables where
  observations : List ObservationRow

structure Watchlist where
  monitorTargetId : MonitorTargetId
  marketplaceId : String
  watchlistItemsPerPoll : ℕ
  digest : List CanonicalField → String

structure WatchlistMembership where
  entries : List EbayWatchlistEntry
  truncated : Bool

/-- A poll: what is minted for it, and what the provider answers to it. A snapshot is fetched by the
legacy id of a listing. -/
structure WatchlistPoll where
  observationBatchId : String
  observedAt : Timestamp
  membership : WatchlistResult WatchlistMembership
  fetchItemSnapshotByLegacyId : String → Except String EbayItemSnapshot

def WATCHLIST_OBSERVATION_SOURCE : String := "ebay_watchlist"

def secondsUntil (endsAt : Option Timestamp) (now : Timestamp) : Option ℚ :=
  endsAt.bind fun ending =>
    let seconds : ℚ := (ending.epochMicros - now.epochMicros : ℤ) / 1000000
    if 0 ≤ seconds then some seconds else none

structure WatchlistOutcome where
  observations : ℕ := 0
  changed : Bool := false
  secondsUntilListingEnd : Option ℚ := none

def WatchlistOutcome.add (outcome : WatchlistOutcome) (inserted : ℕ) (changed : Bool)
    (endsIn : Option ℚ) : WatchlistOutcome where
  observations := outcome.observations + inserted
  changed := outcome.changed || changed
  secondsUntilListingEnd := [outcome.secondsUntilListingEnd, endsIn].reduceOption.min?

namespace WatchTables

variable (t : WatchTables) (w : Watchlist) (p : WatchlistPoll)

def withItems (items : ItemTables) : WatchTables := ⟨items, t.observations⟩

def observationsOf (id : MarketplaceItemId) : List ObservationRow :=
  t.observations.filter (·.marketplaceItemId == id)

/-- `latestObservations`, of one row. -/
def latestObservation (id : MarketplaceItemId) : Option ObservationRow :=
  (t.observationsOf id).argmax (·.observedAt)

def insertObservation (row : ObservationRow) : WatchTables :=
  if t.observations.any (·.identity == row.identity) then t
  else { t with observations := t.observations ++ [row] }

def recordObservationBatch (row : ObservationRow) : WatchlistResult (ℕ × WatchTables) := do
  row.item.check
  let after := t.insertObservation row
  return (after.observations.length - t.observations.length, after)

def observeSnapshot (snapshot : EbayItemSnapshot) : WatchlistResult (ℕ × Bool) × WatchTables :=
  match t.upsertMarketplaceItem (snapshot.item p.observedAt) with
  | .error e => (.error (.market e), t)
  | .ok (item, items) =>
    let t' := t.withItems items
    let observation := snapshot.observation w.digest
    let row : ObservationRow := ⟨p.observationBatchId, item.id, p.observedAt,
      WATCHLIST_OBSERVATION_SOURCE, observation⟩
    match t'.recordObservationBatch row with
    | .error e => (.error e, t')
    | .ok (inserted, after) =>
      let changed := decide (0 < inserted) && (t'.latestObservation item.id).all fun previous =>
        previous.item.rawStateHash == none ||
          previous.item.rawStateHash != observation.rawStateHash
      (.ok (inserted, changed),
        after.withItems (after.linkItemToMonitor w.monitorTargetId item.id p.observedAt))

/-- `max(o.observed_at)`, nulls first. -/
def lastObservedAt (id : MarketplaceItemId) : WithBot Timestamp :=
  ((t.observationsOf id).map (·.observedAt)).maximum

def staleness (id : MarketplaceItemId) : WithBot Timestamp ×ₗ MarketplaceItemId :=
  toLex (t.lastObservedAt id, id)

def linkedCandidates (monitorTargetId : MonitorTargetId) (candidateIds : List MarketplaceItemId) :
    List MarketplaceItemId :=
  ((t.monitorItems.filter fun link => link.monitorTargetId == monitorTargetId && link.active &&
    candidateIds.contains link.marketplaceItemId).map (·.marketplaceItemId)).dedup

def selectStaleMembers (monitorTargetId : MonitorTargetId) (candidateIds : List MarketplaceItemId)
    (limit : ℕ) : List MarketplaceItemId :=
  if candidateIds = [] ∨ limit < 1 then []
  else ((t.linkedCandidates monitorTargetId candidateIds).insertionSort
    fun a b => t.staleness a ≤ t.staleness b).take limit

/-- The links `deactivateAbsentMonitorItems` writes. -/
def absentLinks (monitorTargetId : MonitorTargetId) (present : List MarketplaceItemId)
    (at' : Timestamp) : List MonitorItem :=
  t.monitorItems.filter fun link => link.monitorTargetId = monitorTargetId ∧ link.active ∧
    link.lastMatchedAt < at' ∧ link.marketplaceItemId ∉ present

def refreshMembership : WatchlistResult (List MarketplaceItem × ℕ) × WatchTables :=
  match p.membership with
  | .error e => (.error e, t)
  | .ok fetched =>
    match t.syncMembership fetched.entries w.monitorTargetId w.marketplaceId p.observedAt with
    | (.error e, synced) => (.error (.market e), t.withItems synced)
    | (.ok items, synced) =>
      let t' := t.withItems synced
      let present := items.map (·.id)
      if fetched.truncated then (.ok (items, 0), t')
      else (.ok (items, (t'.absentLinks w.monitorTargetId present p.observedAt).length),
        t'.withItems (t'.deactivateAbsentMonitorItems w.monitorTargetId present p.observedAt))

def membersToObserve (items : List MarketplaceItem) : List MarketplaceItem :=
  (t.selectStaleMembers w.monitorTargetId (items.map (·.id)) w.watchlistItemsPerPoll).filterMap
    fun id => (items.filter (·.id == id)).getLast?

/-- The members are fetched one after the other. What is written of them stays when one of them
raises, and those after it are not fetched. -/
def observeMembers : WatchTables → List MarketplaceItem → WatchlistOutcome →
    WatchlistResult WatchlistOutcome × WatchTables
  | t, [], outcome => (.ok outcome, t)
  | t, item :: rest, outcome =>
    match p.fetchItemSnapshotByLegacyId item.key.externalItemId with
    | .error kind => (.error (.ebay kind), t)
    | .ok snapshot =>
      match t.observeSnapshot w p snapshot with
      | (.error e, after) => (.error e, after)
      | (.ok (inserted, changed), after) =>
        observeMembers after rest
          (outcome.add inserted changed (secondsUntil snapshot.listingEndsAt p.observedAt))

def pollWatchlist : WatchlistResult WatchlistOutcome × WatchTables :=
  match t.refreshMembership w p with
  | (.error e, after) => (.error e, after)
  | (.ok (items, deactivated), after) =>
    let (result, observed) := observeMembers w p after (after.membersToObserve w items) {}
    (result.map fun outcome =>
      { outcome with changed := outcome.changed || decide (0 < deactivated) }, observed)

end WatchTables

def Watchlist.step (w : Watchlist) (t : WatchTables) (p : WatchlistPoll) : WatchTables :=
  (t.pollWatchlist w p).2

end Loxep

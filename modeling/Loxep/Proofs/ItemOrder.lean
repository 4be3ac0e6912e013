import Loxep.Lib.OrderFree
import Loxep.MarketItems
import Mathlib.Data.Finset.Max

/-!
# Fetches of one item in any order

Two monitors may poll at once, and a poll may be tried again, so what two fetches say of an item
can be written in either order. The instants of the first and the last sighting come out the same.
Everything else is what was written last, whatever the instants of the fetches.
-/

namespace Loxep

open OrderFree

inductive ItemColumn
  | sellerExternalId
  | canonicalUrl
  | title
  | conditionCode
  | categoryExternalId
  | listingType
  | listingStartedAt
  | listingEndsAt
  | currentState

inductive ColumnValue
  | text (value : String)
  | instant (value : Timestamp)
  deriving DecidableEq

def ItemColumn.read (currentState : String) (details : ListingDetails) :
    ItemColumn → Option ColumnValue
  | .sellerExternalId => details.sellerExternalId.map .text
  | .canonicalUrl => details.canonicalUrl.map .text
  | .title => details.title.map .text
  | .conditionCode => details.conditionCode.map .text
  | .categoryExternalId => details.categoryExternalId.map .text
  | .listingType => details.listingType.map .text
  | .listingStartedAt => details.listingStartedAt.map .instant
  | .listingEndsAt => details.listingEndsAt.map .instant
  | .currentState => some (.text currentState)

/-- What a fetch by a monitor says of an item: it lists the item, or it lists all there is and the
item not. -/
structure FetchedBatch (key : ItemKey) where
  monitorTargetId : MonitorTargetId
  seenAt : Timestamp
  listing : Option (String × ListingDetails)
  complete : Bool
  informative : listing.isSome ∨ complete
  accepted : ∀ l ∈ listing, (MarketplaceItemInput.mk key seenAt l.1 l.2).check = .ok ()

variable {key : ItemKey}

namespace FetchedBatch

def listed (b : FetchedBatch key) : List MarketplaceItemInput :=
  (b.listing.map fun l => ⟨key, b.seenAt, l.1, l.2⟩).toList

def value (column : ItemColumn) (b : FetchedBatch key) : Option ColumnValue :=
  b.listing.bind fun l => column.read l.1 l.2

end FetchedBatch

namespace ItemTables

def applyBatch (t : ItemTables) (b : FetchedBatch key) : ItemTables :=
  t.writeFetch b.monitorTargetId b.listed b.complete b.seenAt

def applyAll (t : ItemTables) (seq : List (FetchedBatch key)) : ItemTables :=
  seq.foldl applyBatch t

def Watches (t : ItemTables) (key : ItemKey) (monitorTargetId : MonitorTargetId) : Prop :=
  ∃ row ∈ t.itemOf key, ∃ link ∈ t.linkOf monitorTargetId row.id, link.active

structure Unseen (t : ItemTables) (key : ItemKey) : Prop where
  no_row : t.itemOf key = none
  no_link : ∀ link ∈ t.monitorItems, link.marketplaceItemId < t.items.length

end ItemTables

/-- Every order of the batches, whatever is repeated, leaves one row and one set of active links,
and what they hold is what the newest batch has. -/
structure SettlesOnNewest (t : ItemTables) (batches : List (FetchedBatch key)) : Prop where
  row_free : ∀ seq seq', Covers seq batches → Covers seq' batches →
    (t.applyAll seq).itemOf key = (t.applyAll seq').itemOf key
  links_free : ∀ seq seq', Covers seq batches → Covers seq' batches →
    ∀ m, (t.applyAll seq).Watches key m ↔ (t.applyAll seq').Watches key m
  row_newest : ∀ seq, Covers seq batches → ∀ b ∈ batches,
    (∀ b' ∈ batches, b'.listing.isSome → b'.seenAt ≤ b.seenAt) →
      ∀ column, ∀ v ∈ b.value column,
        ∃ row ∈ (t.applyAll seq).itemOf key, column.read row.currentState row.details = some v
  links_newest : ∀ seq, Covers seq batches → ∀ b ∈ batches,
    (∀ b' ∈ batches, b'.monitorTargetId = b.monitorTargetId → b'.seenAt ≤ b.seenAt) →
      ((t.applyAll seq).Watches key b.monitorTargetId ↔ b.listing.isSome)

/-- The batches say the same of every column they say something of, and a monitor that ever found
the item finds it in its newest batch. -/
structure OfOneMind (batches : List (FetchedBatch key)) : Prop where
  columns : ∀ column, Agreeing (FetchedBatch.value column) batches
  links : ∀ b ∈ batches, b.listing.isSome → ∀ last ∈ batches,
    last.monitorTargetId = b.monitorTargetId →
      (∀ b' ∈ batches, b'.monitorTargetId = b.monitorTargetId → b'.seenAt ≤ last.seenAt) →
        last.listing.isSome

section Columns

variable {x y z : ListingDetails} {s s' : String}

theorem ListingDetails.coalesce_left_comm
    (h : ∀ column : ItemColumn, ∀ v ∈ column.read s x, ∀ v' ∈ column.read s' y, v = v') :
    x.coalesce (y.coalesce z) = y.coalesce (x.coalesce z) := by
  have text : ∀ {a b c : Option String},
      (∀ v ∈ a.map ColumnValue.text, ∀ v' ∈ b.map ColumnValue.text, v = v') →
        a.or (b.or c) = b.or (a.or c) := by
    intro a b c hab
    refine or_left_comm fun v hv w hw => ?_
    simpa using hab (.text v) (by simpa using hv) (.text w) (by simpa using hw)
  have instant : ∀ {a b c : Option Timestamp},
      (∀ v ∈ a.map ColumnValue.instant, ∀ v' ∈ b.map ColumnValue.instant, v = v') →
        a.or (b.or c) = b.or (a.or c) := by
    intro a b c hab
    refine or_left_comm fun v hv w hw => ?_
    simpa using hab (.instant v) (by simpa using hv) (.instant w) (by simpa using hw)
  simp only [coalesce, mk.injEq]
  exact ⟨text (h .sellerExternalId), text (h .canonicalUrl), text (h .title),
    text (h .conditionCode), text (h .categoryExternalId), text (h .listingType),
    instant (h .listingStartedAt), instant (h .listingEndsAt)⟩

theorem ListingDetails.coalesce_coalesce_self : x.coalesce (x.coalesce z) = x.coalesce z := by
  simp only [coalesce, or_or_self]

theorem ListingDetails.coalesce_comm
    (h : ∀ column : ItemColumn, ∀ v ∈ column.read s x, ∀ v' ∈ column.read s' y, v = v') :
    x.coalesce y = y.coalesce x := by
  have hblank : ∀ d : ListingDetails, d.coalesce {} = d := by
    intro d
    simp [coalesce]
  simpa only [hblank] using coalesce_left_comm (z := {}) h

theorem ItemColumn.read_coalesce (column : ItemColumn) :
    column.read s (x.coalesce y) = (column.read s x).or (column.read s' y) := by
  cases column <;> simp [ItemColumn.read, ListingDetails.coalesce, Option.map_or]

end Columns

namespace FetchedBatch

variable (n : MarketplaceItemId) (m : MonitorTargetId)

def rowAfter (row : Option MarketplaceItem) (b : FetchedBatch key) : Option MarketplaceItem :=
  match b.listing with
  | none => row
  | some l =>
    let item : MarketplaceItemInput := ⟨key, b.seenAt, l.1, l.2⟩
    some ((row.map (·.merge item)).getD (.inserted n item))

def linkAfter (link : Option MonitorItem) (b : FetchedBatch key) : Option MonitorItem :=
  if b.monitorTargetId = m then
    match b.listing with
    | some _ => some ((link.map (·.rematch b.seenAt)).getD ⟨m, n, b.seenAt, b.seenAt, true⟩)
    | none => link.map fun link =>
        if link.active ∧ link.lastMatchedAt < b.seenAt then { link with active := false } else link
  else link

end FetchedBatch

namespace ItemTables

open FetchedBatch

variable {t : ItemTables} {n : MarketplaceItemId} {m m' : MonitorTargetId}

def Allots (t : ItemTables) (key : ItemKey) (n : MarketplaceItemId) : Prop :=
  (t.itemOf key).elim (t.items.length = n) (·.id = n)

theorem linkOf_linkItemToMonitor {at' : Timestamp} {n' : MarketplaceItemId} :
    (t.linkItemToMonitor m' n' at').linkOf m n = if m = m' ∧ n = n'
      then some (((t.linkOf m n).map (·.rematch at')).getD ⟨m', n', at', at', true⟩)
      else t.linkOf m n := by
  unfold linkOf linkItemToMonitor
  have hpair : ∀ link : MonitorItem, link.pair = (m', n') → (link.rematch at').pair = (m', n') :=
    fun _ h => h
  rw [KeyedTable.get_upsert hpair]
  simp only [MonitorItem.pair, Prod.mk.injEq]

theorem linkOf_deactivateAbsent {present : List MarketplaceItemId} {at' : Timestamp} :
    (t.deactivateAbsentMonitorItems m' present at').linkOf m n =
      if m = m' ∧ n ∉ present then (t.linkOf m n).map fun link =>
          if link.active ∧ link.lastMatchedAt < at' then { link with active := false } else link
      else t.linkOf m n := by
  unfold linkOf deactivateAbsentMonitorItems
  rw [KeyedTable.get_map fun link => by split_ifs <;> rfl]
  rcases hlink : KeyedTable.get MonitorItem.pair t.monitorItems (m, n) with _ | link
  · simp
  · have hpair := KeyedTable.get_key hlink
    simp only [MonitorItem.pair, Prod.mk.injEq] at hpair
    obtain ⟨rfl, rfl⟩ := hpair
    simp only [Option.map_some]
    split_ifs <;> simp_all

variable {item : MarketplaceItemInput}

theorem itemOf_writeItem {key : ItemKey} :
    (t.writeItem item).itemOf key =
      if key = item.key then
        some (((t.itemOf key).map (·.merge item)).getD (.inserted t.items.length item))
      else t.itemOf key := by
  have hkey : ∀ row : MarketplaceItem, row.key = item.key → (row.merge item).key = item.key :=
    fun _ h => h
  exact KeyedTable.get_upsert hkey

theorem upsertMarketplaceItem_eq (hcheck : item.check = .ok ()) :
    t.upsertMarketplaceItem item =
      .ok (((t.itemOf item.key).map (·.merge item)).getD (.inserted t.items.length item),
        t.writeItem item) := by
  unfold upsertMarketplaceItem
  rw [hcheck, itemOf_writeItem, if_pos rfl]
  rfl

theorem Allots.upsert (h : t.Allots key n) (hkey : item.key = key) (hcheck : item.check = .ok ())
    : ∃ row : MarketplaceItem,
      row = ((t.itemOf key).map fun old => old.merge item).getD (.inserted n item)
      ∧ row.id = n ∧ t.upsertMarketplaceItem item = .ok (row, t.writeItem item)
      ∧ (t.writeItem item).itemOf key = some row := by
  subst hkey
  unfold Allots at h
  rw [upsertMarketplaceItem_eq hcheck, itemOf_writeItem, if_pos rfl]
  rcases hrow : t.itemOf item.key with _ | row
  · rw [hrow] at h
    have hn : t.items.length = n := h
    exact ⟨_, rfl, rfl, by simp [hn], by simp [hn]⟩
  · rw [hrow] at h
    exact ⟨_, rfl, h, rfl, rfl⟩

theorem applyBatch_spec (h : t.Allots key n) (b : FetchedBatch key) :
    (t.applyBatch b).itemOf key = rowAfter n (t.itemOf key) b
      ∧ (t.applyBatch b).Allots key n
      ∧ ∀ m, (t.applyBatch b).linkOf m n = linkAfter n m (t.linkOf m n) b := by
  rcases hlisting : b.listing with _ | l
  · have hcomplete : b.complete = true := by
      rcases b.informative with hlists | hcomplete
      · rw [hlisting] at hlists
        cases hlists
      · exact hcomplete
    have happly : t.applyBatch b =
        t.deactivateAbsentMonitorItems b.monitorTargetId [] b.seenAt := by
      simp [applyBatch, writeFetch, FetchedBatch.listed, hlisting, sightAll, hcomplete]
    rw [happly]
    refine ⟨?_, h, fun m => ?_⟩
    · rw [rowAfter, hlisting]
      rfl
    · rw [linkOf_deactivateAbsent, linkAfter, hlisting]
      by_cases hm : b.monitorTargetId = m
      · simp [hm]
      · simp [hm, Ne.symm hm]
  · set item : MarketplaceItemInput := ⟨key, b.seenAt, l.1, l.2⟩ with hitem
    obtain ⟨row, hrow, hid, hupsert, hwritten⟩ := h.upsert
      (show item.key = key from rfl) (b.accepted l hlisting)
    set linked := (t.writeItem item).linkItemToMonitor b.monitorTargetId n b.seenAt with hlinked
    have happly : t.applyBatch b = if b.complete
        then linked.deactivateAbsentMonitorItems b.monitorTargetId [n] b.seenAt else linked := by
      simp only [applyBatch, writeFetch, FetchedBatch.listed, hlisting, Option.map_some,
        Option.toList_some, sightAll, ← hitem, hupsert, hid, Except.map, List.map_cons,
        List.map_nil]
      rfl
    have hitems : (t.applyBatch b).itemOf key = some row := by
      rw [happly, ← hwritten]
      split_ifs <;> rfl
    have hlinks : ∀ m, (t.applyBatch b).linkOf m n = linked.linkOf m n := by
      intro m
      rw [happly]
      split_ifs
      · simp [linkOf_deactivateAbsent]
      · rfl
    refine ⟨?_, ?_, fun m => ?_⟩
    · rw [hitems, hrow, rowAfter, hlisting]
    · rw [Allots, hitems]
      exact hid
    · rw [hlinks, hlinked, linkOf_linkItemToMonitor, linkAfter, hlisting]
      have hold : (t.writeItem item).linkOf m n = t.linkOf m n := rfl
      by_cases hm : b.monitorTargetId = m
      · simp [hm, hold]
      · simp [hm, Ne.symm hm, hold]

theorem applyAll_spec (h : t.Allots key n) (seq : List (FetchedBatch key)) :
    (t.applyAll seq).itemOf key = seq.foldl (rowAfter n) (t.itemOf key)
      ∧ (t.applyAll seq).Allots key n
      ∧ ∀ m, (t.applyAll seq).linkOf m n = seq.foldl (linkAfter n m) (t.linkOf m n) := by
  induction seq generalizing t with
  | nil => exact ⟨rfl, h, fun _ => rfl⟩
  | cons b rest ih =>
    obtain ⟨hrow, hallots, hlinks⟩ := applyBatch_spec h b
    obtain ⟨hrow', hallots', hlinks'⟩ := ih hallots
    refine ⟨?_, hallots', fun m => ?_⟩
    · rw [List.foldl_cons, ← hrow]
      exact hrow'
    · rw [List.foldl_cons, ← hlinks]
      exact hlinks' m

end ItemTables

namespace FetchedBatch

variable {n : MarketplaceItemId} {m : MonitorTargetId} {batches seq : List (FetchedBatch key)}

variable {b : FetchedBatch key}

theorem value_of_listing {l : String × ListingDetails} (h : b.listing = some l)
    (column : ItemColumn) : b.value column = column.read l.1 l.2 := by
  rw [value, h]
  rfl

def columnOf (column : ItemColumn) (row : Option MarketplaceItem) : Option ColumnValue :=
  row.bind fun row => column.read row.currentState row.details

theorem columnOf_rowAfter (column : ItemColumn) (row : Option MarketplaceItem)
    (b : FetchedBatch key) :
    columnOf column (rowAfter n row b) = (b.value column).or (columnOf column row) := by
  rcases hlisting : b.listing with _ | l
  · simp [rowAfter, value, hlisting]
  · rw [value_of_listing hlisting, rowAfter, hlisting]
    rcases row with _ | row
    · simp [columnOf, MarketplaceItem.inserted]
    · exact column.read_coalesce

theorem rowAfter_confluent (h : ∀ column, Agreeing (FetchedBatch.value column) batches) :
    Confluent (rowAfter n) batches where
  swap b hb b' hb' row := by
    rcases hl : b.listing with _ | l
    · simp [rowAfter, hl]
    · rcases hl' : b'.listing with _ | l'
      · simp [rowAfter, hl, hl']
      · have hagree : ∀ column : ItemColumn, ∀ v ∈ column.read l'.1 l'.2,
            ∀ v' ∈ column.read l.1 l.2, v = v' := by
          intro column v hv v' hv'
          rw [← value_of_listing hl'] at hv
          rw [← value_of_listing hl] at hv'
          exact h column b' hb' b hb v hv v' hv'
        have hstate : l'.1 = l.1 := by
          simpa using hagree .currentState _ rfl _ rfl
        rcases row with _ | row
        · simp [rowAfter, hl, hl', MarketplaceItem.inserted, MarketplaceItem.merge, hstate,
            ListingDetails.coalesce_comm hagree, min_comm, max_comm]
        · have hdetails := ListingDetails.coalesce_left_comm (z := row.details) hagree
          simp only [rowAfter, hl, hl', MarketplaceItem.merge, hstate, hdetails, Option.map_some,
            Option.getD_some, Option.some.injEq, MarketplaceItem.mk.injEq, true_and, and_true]
          exact ⟨inf_right_comm _ _ _, sup_right_comm _ _ _⟩
  again b hb row := by
    rcases hl : b.listing with _ | l
    · simp [rowAfter, hl]
    · have hself : l.2.coalesce l.2 = l.2 := by
        simp [ListingDetails.coalesce]
      rcases row with _ | row
      · simp [rowAfter, hl, MarketplaceItem.inserted, MarketplaceItem.merge, hself]
      · simp [rowAfter, hl, MarketplaceItem.merge, ListingDetails.coalesce_coalesce_self]

theorem linkAfter_none (h : ∀ b ∈ seq, b.monitorTargetId = m → b.listing = none) :
    seq.foldl (linkAfter n m) none = none := by
  induction seq with
  | nil => rfl
  | cons b rest ih =>
    have hb : linkAfter n m none b = none := by
      unfold linkAfter
      split_ifs with hm
      · rw [h b List.mem_cons_self hm]
        rfl
      · rfl
    rw [List.foldl_cons, hb]
    exact ih fun b' hb' => h b' (List.mem_cons_of_mem _ hb')

def Held (seenAt : Timestamp) (link : Option MonitorItem) : Prop :=
  ∃ l ∈ link, l.active ∧ seenAt ≤ l.lastMatchedAt

theorem linkAfter_listed (hm : b.monitorTargetId = m) (hlisting : b.listing.isSome)
    (link : Option MonitorItem) :
    Held b.seenAt (linkAfter n m link b) := by
  obtain ⟨l, hl⟩ := Option.isSome_iff_exists.1 hlisting
  rw [linkAfter, if_pos hm, hl]
  rcases link with _ | link
  · exact ⟨_, rfl, rfl, le_rfl⟩
  · exact ⟨_, rfl, rfl, le_max_right _ _⟩

theorem Held.next {seenAt : Timestamp} {link : Option MonitorItem} (h : Held seenAt link)
    (hb : b.monitorTargetId = m → b.seenAt ≤ seenAt) :
    Held seenAt (linkAfter n m link b) := by
  obtain ⟨l, hl, hactive, hle⟩ := h
  rw [Option.mem_def] at hl
  subst hl
  unfold linkAfter
  split_ifs with hm
  · rcases b.listing with _ | listing
    · have hnot : ¬(l.active = true ∧ l.lastMatchedAt < b.seenAt) :=
        fun hlt => absurd hlt.2 (not_lt.2 ((hb hm).trans hle))
      exact ⟨l, by simp [hnot], hactive, hle⟩
    · exact ⟨_, rfl, rfl, hle.trans (le_max_left _ _)⟩
  · exact ⟨l, rfl, hactive, hle⟩

theorem held_of_newest {last : FetchedBatch key} (hm : last.monitorTargetId = m)
    (hlisting : last.listing.isSome) :
    ∀ {seq : List (FetchedBatch key)} (link : Option MonitorItem),
      (∀ b ∈ seq, b.monitorTargetId = m → b.seenAt ≤ last.seenAt) →
        last ∈ seq ∨ Held last.seenAt link → Held last.seenAt (seq.foldl (linkAfter n m) link)
  | [], _, _, h => h.resolve_left List.not_mem_nil
  | b :: rest, link, hnewest, h => by
    refine held_of_newest hm hlisting (linkAfter n m link b)
      (fun b' hb' => hnewest b' (List.mem_cons_of_mem _ hb')) ?_
    rcases h with h | h
    · rcases List.mem_cons.1 h with rfl | h
      · exact .inr (linkAfter_listed hm hlisting link)
      · exact .inl h
    · exact .inr (h.next (hnewest b List.mem_cons_self))

theorem rowAfter_isSome (hlisting : b.listing.isSome) :
    ∀ {seq : List (FetchedBatch key)} (row : Option MarketplaceItem), b ∈ seq ∨ row.isSome →
      (seq.foldl (rowAfter n) row).isSome
  | [], _, h => h.resolve_left List.not_mem_nil
  | first :: rest, row, h => by
    refine rowAfter_isSome hlisting (rowAfter n row first) ?_
    rcases h with h | h
    · rcases List.mem_cons.1 h with rfl | h
      · obtain ⟨l, hl⟩ := Option.isSome_iff_exists.1 hlisting
        exact .inr (by simp [rowAfter, hl])
      · exact .inl h
    · refine .inr ?_
      unfold rowAfter
      rcases first.listing with _ | l
      · exact h
      · rfl

theorem exists_newest (hb : b ∈ batches) :
    ∃ last ∈ batches, last.monitorTargetId = b.monitorTargetId
      ∧ ∀ b' ∈ batches, b'.monitorTargetId = b.monitorTargetId → b'.seenAt ≤ last.seenAt := by
  classical
  have hne : (batches.filter (·.monitorTargetId = b.monitorTargetId)).toFinset.Nonempty :=
    ⟨b, by simpa using hb⟩
  obtain ⟨last, hlast, hmax⟩ := Finset.exists_max_image _ seenAt hne
  simp only [List.mem_toFinset, List.mem_filter, decide_eq_true_eq] at hlast hmax
  exact ⟨last, hlast.1, hlast.2, fun b' hb' hm => hmax b' ⟨hb', hm⟩⟩

end FetchedBatch

namespace ItemTables.Unseen

open FetchedBatch

variable {t : ItemTables} {seq batches : List (FetchedBatch key)} {m : MonitorTargetId}

section

variable (h : t.Unseen key)
include h

theorem allots : t.Allots key t.items.length := by
  unfold Allots
  rw [h.no_row]
  rfl

theorem linkOf (m : MonitorTargetId) : t.linkOf m t.items.length = none := by
  refine KeyedTable.get_eq_none.2 fun link hlink hpair => ?_
  have hlt := h.no_link link hlink
  simp only [MonitorItem.pair, Prod.mk.injEq] at hpair
  exact hlt.ne hpair.2

theorem itemOf_applyAll (seq : List (FetchedBatch key)) :
    (t.applyAll seq).itemOf key = seq.foldl (rowAfter t.items.length) none := by
  rw [(applyAll_spec h.allots seq).1, h.no_row]

theorem watches_iff : (t.applyAll seq).Watches key m ↔
    ∃ link ∈ seq.foldl (linkAfter t.items.length m) none, link.active := by
  obtain ⟨-, hallots, hlinks⟩ := applyAll_spec h.allots seq
  have hlink := hlinks m
  rw [h.linkOf] at hlink
  unfold Allots at hallots
  unfold Watches
  rcases hrow : (t.applyAll seq).itemOf key with _ | row
  · have hunlisted : ∀ b ∈ seq, b.monitorTargetId = m → b.listing = none := by
      intro b hb _
      by_contra hlisting
      have hsome := rowAfter_isSome (n := t.items.length) (Option.isSome_iff_ne_none.2 hlisting)
        none (.inl hb)
      rw [← h.itemOf_applyAll, hrow] at hsome
      cases hsome
    simp [linkAfter_none hunlisted]
  · rw [hrow] at hallots
    have hid : row.id = t.items.length := hallots
    rw [← hlink]
    simp [hid]

theorem watches_of_held {seenAt : Timestamp}
    (hheld : Held seenAt (seq.foldl (linkAfter t.items.length m) none)) :
    (t.applyAll seq).Watches key m := by
  obtain ⟨link, hlink, hactive, -⟩ := hheld
  exact h.watches_iff.2 ⟨link, hlink, hactive⟩

theorem watches_iff_newest (hmind : OfOneMind batches) (hseq : Covers seq batches)
    {last : FetchedBatch key} (hlast : last ∈ batches)
    (hnewest : ∀ b ∈ batches, b.monitorTargetId = last.monitorTargetId → b.seenAt ≤ last.seenAt) :
    (t.applyAll seq).Watches key last.monitorTargetId ↔ last.listing.isSome := by
  constructor
  · intro hwatches
    by_contra hlisting
    have hunlisted : ∀ b ∈ seq, b.monitorTargetId = last.monitorTargetId → b.listing = none := by
      intro b hb hm
      by_contra hfound
      refine hlisting (hmind.links b ((hseq b).1 hb) (Option.isSome_iff_ne_none.2 hfound) last
        hlast hm.symm fun b' hb' hm' => hnewest b' hb' (hm'.trans hm))
    rw [h.watches_iff, linkAfter_none hunlisted] at hwatches
    simp at hwatches
  · intro hlisting
    refine h.watches_of_held (held_of_newest rfl hlisting none (fun b hb => ?_)
      (.inl ((hseq last).2 hlast)))
    exact hnewest b ((hseq b).1 hb)

end

end ItemTables.Unseen

namespace FetchedBatch

variable {n : MarketplaceItemId} {batches : List (FetchedBatch key)}

end FetchedBatch

/-- From tables the item is not in, its fetches leave in every order what the newest of them says,
exactly where they never say different things. -/
theorem settles_on_newest_iff {t : ItemTables} (h : t.Unseen key)
    (batches : List (FetchedBatch key)) : SettlesOnNewest t batches ↔ OfOneMind batches := by
  constructor
  · intro hsettles
    constructor
    · intro column
      refine agreeing_of_order_free (FetchedBatch.rowAfter t.items.length) (s := none)
        (fun row b _ => FetchedBatch.columnOf_rowAfter column row b) fun seq seq' hseq hseq' => ?_
      rw [← h.itemOf_applyAll, ← h.itemOf_applyAll, hsettles.row_free seq seq' hseq hseq']
    · intro b hb hlisting last hlast hm hnewest
      refine (hsettles.links_newest _ (covers_concat hb) last hlast ?_).1 ?_
      · rwa [hm]
      · have hheld : FetchedBatch.Held b.seenAt ((batches ++ [b]).foldl
            (FetchedBatch.linkAfter t.items.length last.monitorTargetId) none) := by
          rw [List.foldl_append]
          exact FetchedBatch.linkAfter_listed hm.symm hlisting _
        exact h.watches_of_held hheld
  · intro hmind
    have hrow : ∀ seq seq', Covers seq batches → Covers seq' batches →
        (t.applyAll seq).itemOf key = (t.applyAll seq').itemOf key := by
      intro seq seq' hseq hseq'
      rw [h.itemOf_applyAll, h.itemOf_applyAll]
      exact (FetchedBatch.rowAfter_confluent hmind.columns).foldl_eq hseq hseq' none
    refine ⟨hrow, fun seq seq' hseq hseq' m => ?_, fun seq hseq b hb _ column v hv => ?_,
      fun seq hseq b hb hnewest => h.watches_iff_newest hmind hseq hb hnewest⟩
    · by_cases hm : ∃ b ∈ batches, b.monitorTargetId = m
      · obtain ⟨b, hb, rfl⟩ := hm
        obtain ⟨last, hlast, hsame, hnewest⟩ := FetchedBatch.exists_newest hb
        rw [← hsame] at hnewest ⊢
        rw [h.watches_iff_newest hmind hseq hlast hnewest,
          h.watches_iff_newest hmind hseq' hlast hnewest]
      · have hnone : ∀ {seq : List (FetchedBatch key)}, Covers seq batches →
            ¬(t.applyAll seq).Watches key m := by
          intro seq hseq hwatches
          rw [h.watches_iff, FetchedBatch.linkAfter_none fun b hb heq =>
            absurd ⟨b, (hseq b).1 hb, heq⟩ hm] at hwatches
          simp at hwatches
        exact iff_of_false (hnone hseq) (hnone hseq')
    · have hread := read_of_agreeing (FetchedBatch.rowAfter t.items.length)
        (fun row b _ => FetchedBatch.columnOf_rowAfter column row b) (hmind.columns column) hb hv
        none (fun b => (hseq b).1) (.inl ((hseq b).2 hb))
      rw [← h.itemOf_applyAll, FetchedBatch.columnOf, Option.bind_eq_some_iff] at hread
      exact hread

section Examples

def gadgetKey : ItemKey := ⟨"ebay", "EBAY_US", "v1|110|0"⟩

def nineOClock : Timestamp := ⟨⟨2026, 9, 30⟩, 32_400_000_000⟩

def tenOClock : Timestamp := ⟨⟨2026, 9, 30⟩, 36_000_000_000⟩

def activeAtNine : FetchedBatch gadgetKey where
  monitorTargetId := 1
  seenAt := nineOClock
  listing := some ("active", { title := some "Gadget" })
  complete := true
  informative := .inl rfl
  accepted := by decide +kernel

def endedAtTen : FetchedBatch gadgetKey where
  monitorTargetId := 2
  seenAt := tenOClock
  listing := some ("ended", { title := some "Gadget" })
  complete := false
  informative := .inl rfl
  accepted := by decide +kernel

def activeAtTen : FetchedBatch gadgetKey where
  monitorTargetId := 2
  seenAt := tenOClock
  listing := some ("active", { listingType := some "FIXED_PRICE" })
  complete := false
  informative := .inl rfl
  accepted := by decide +kernel

theorem emptyTables_unseen : ItemTables.Unseen ⟨[], []⟩ gadgetKey where
  no_row := rfl
  no_link := nofun

theorem mixed_states_settle : SettlesOnNewest ⟨[], []⟩ [activeAtNine, activeAtTen] := by
  refine (settles_on_newest_iff emptyTables_unseen _).2 ⟨fun column => ?_, ?_⟩
  · cases column <;> simp [OrderFree.Agreeing, FetchedBatch.value, ItemColumn.read, activeAtNine,
      activeAtTen]
  · simp [activeAtNine, activeAtTen]

theorem ended_item_active_again : ¬SettlesOnNewest ⟨[], []⟩ [activeAtNine, endedAtTen] := by
  intro h
  have hcovers : Covers [endedAtTen, activeAtNine] [activeAtNine, endedAtTen] := by
    intro b
    simp [or_comm]
  obtain ⟨row, hrow, hstate⟩ := h.row_newest _ hcovers endedAtTen (by simp)
    (by decide +kernel) .currentState (.text "ended") rfl
  have hwritten : (ItemTables.applyAll ⟨[], []⟩ [endedAtTen, activeAtNine]).itemOf gadgetKey =
      some ⟨0, gadgetKey, { title := some "Gadget" }, nineOClock, tenOClock, "active"⟩ := by
    decide +kernel
  rw [hwritten] at hrow
  cases hrow
  revert hstate
  decide

end Examples

end Loxep

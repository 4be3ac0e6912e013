import Loxep.Lib.SortedLists
import Loxep.Proofs.ItemOrder
import Loxep.Watchlist

/-!
# What a poll of a watchlist observes

A poll keeps the ids of the items and the observations there are. It selects the members that were
observed longest ago and observes them in that order, up to the first one whose fetch fails.
-/

namespace Loxep

namespace ItemTables

variable {t t' t'' : ItemTables} {key : ItemKey} {id n : MarketplaceItemId} {m m' : MonitorTargetId}
  {item : MarketplaceItemInput} {row : MarketplaceItem}

def idOf (t : ItemTables) (key : ItemKey) : Option MarketplaceItemId := (t.itemOf key).map (·.id)

def Numbered (t : ItemTables) : Prop := t.items.map (·.id) = List.range t.items.length

def Linked (t : ItemTables) (m : MonitorTargetId) (id : MarketplaceItemId) : Prop :=
  ∃ link ∈ t.linkOf m id, link.active

theorem upsertMarketplaceItem_eq_ok (h : t.upsertMarketplaceItem item = .ok (row, t')) :
    t' = t.writeItem item ∧ row.key = item.key ∧ t'.idOf item.key = some row.id := by
  obtain ⟨-, -, h⟩ := Except.bind_eq_ok.1 h
  rcases hrow : (t.writeItem item).itemOf item.key with _ | written
  · simp [hrow] at h
  · simp only [hrow, Except.ok.injEq, Prod.mk.injEq] at h
    obtain ⟨rfl, rfl⟩ := h
    exact ⟨rfl, KeyedTable.get_key hrow, by simp [idOf, hrow]⟩

theorem idOf_writeItem (h : t.idOf key = some id) : (t.writeItem item).idOf key = some id := by
  obtain ⟨row, hrow, rfl⟩ := Option.map_eq_some_iff.1 h
  unfold idOf
  rw [itemOf_writeItem, hrow]
  split_ifs <;> rfl

theorem Numbered.writeItem (h : t.Numbered) : (t.writeItem item).Numbered := by
  unfold Numbered ItemTables.writeItem KeyedTable.upsert
  split_ifs
  · have hids : (KeyedTable.set (·.key) t.items item.key (·.merge item)).map (·.id) =
        t.items.map (·.id) := by
      unfold KeyedTable.set
      rw [List.map_map]
      refine List.map_congr_left fun row _ => ?_
      simp only [Function.comp_apply]
      split_ifs <;> rfl
    have hlength : (KeyedTable.set (·.key) t.items item.key (·.merge item)).length =
        t.items.length := List.length_map _
    exact hids.trans (h.trans (congrArg List.range hlength.symm))
  · rw [List.map_append, h, List.length_append, List.length_singleton, List.range_succ]
    rfl

theorem Numbered.key_unique (h : t.Numbered) {key' : ItemKey} (hkey : t.idOf key = some id)
    (hkey' : t.idOf key' = some id) : key = key' := by
  obtain ⟨row, hrow, rfl⟩ := Option.map_eq_some_iff.1 hkey
  obtain ⟨row', hrow', hid⟩ := Option.map_eq_some_iff.1 hkey'
  have hnodup : (t.items.map (·.id)).Nodup := by
    rw [h]
    exact List.nodup_range
  have hsame := List.inj_on_of_nodup_map hnodup (KeyedTable.get_mem hrow')
    (KeyedTable.get_mem hrow) hid
  rw [← KeyedTable.get_key hrow, ← KeyedTable.get_key hrow', hsame]

variable {at' : Timestamp}

theorem linked_linkItemToMonitor :
    (t.linkItemToMonitor m id at').Linked m id := by
  unfold Linked
  rw [linkOf_linkItemToMonitor, if_pos ⟨rfl, rfl⟩]
  rcases t.linkOf m id with _ | link
  · exact ⟨_, rfl, rfl⟩
  · exact ⟨_, rfl, rfl⟩

theorem Linked.linkItemToMonitor (h : t.Linked m id) :
    (t.linkItemToMonitor m' n at').Linked m id := by
  by_cases hsame : m = m' ∧ id = n
  · obtain ⟨rfl, rfl⟩ := hsame
    exact linked_linkItemToMonitor
  · unfold Linked
    rw [linkOf_linkItemToMonitor, if_neg hsame]
    exact h

theorem Linked.deactivateAbsent {present : List MarketplaceItemId} (h : t.Linked m id)
    (hpresent : id ∈ present) :
    (t.deactivateAbsentMonitorItems m' present at').Linked m id := by
  unfold Linked
  rw [linkOf_deactivateAbsent, if_neg fun hm => hm.2 hpresent]
  exact h

theorem sightAll_cons (h : t.upsertMarketplaceItem item = .ok (row, t'))
    (rest : List MarketplaceItemInput) :
    t.sightAll m (item :: rest) =
      (((t'.linkItemToMonitor m row.id item.seenAt).sightAll m rest).1.map (row :: ·),
        ((t'.linkItemToMonitor m row.id item.seenAt).sightAll m rest).2) := by
  rw [sightAll, h]

structure Extends (t t' : ItemTables) : Prop where
  ids : ∀ key id, t.idOf key = some id → t'.idOf key = some id
  numbered : t.Numbered → t'.Numbered

theorem Extends.refl (t : ItemTables) : t.Extends t := ⟨fun _ _ h => h, fun h => h⟩

theorem Extends.trans (h : t.Extends t') (h' : t'.Extends t'') : t.Extends t'' :=
  ⟨fun key id hid => h'.ids key id (h.ids key id hid), fun hn => h'.numbered (h.numbered hn)⟩

theorem writeItem_extends : t.Extends (t.writeItem item) :=
  ⟨fun _ _ h => idOf_writeItem h, fun h => h.writeItem⟩

theorem Extends.of_items_eq (h : t.Extends t') (hitems : t''.items = t'.items) : t.Extends t'' := by
  refine ⟨fun key id hid => ?_, fun hn => ?_⟩
  · have hid' := h.ids key id hid
    unfold idOf itemOf at hid' ⊢
    rw [hitems]
    exact hid'
  · have hn' := h.numbered hn
    unfold Numbered at hn' ⊢
    rw [hitems]
    exact hn'

theorem sightAll_keeps (listed : List MarketplaceItemInput) :
    t.Extends (t.sightAll m listed).2 ∧
      ∀ id, t.Linked m id → (t.sightAll m listed).2.Linked m id := by
  induction listed generalizing t with
  | nil => exact ⟨.refl t, fun _ h => h⟩
  | cons item rest ih =>
    rcases hrow : t.upsertMarketplaceItem item with e | ⟨row, t'⟩
    · rw [sightAll, hrow]
      exact ⟨.refl t, fun _ h => h⟩
    · obtain ⟨rfl, -, -⟩ := upsertMarketplaceItem_eq_ok hrow
      rw [sightAll_cons hrow]
      obtain ⟨hext, hlinks⟩ := ih (t := (t.writeItem item).linkItemToMonitor m row.id item.seenAt)
      have hwritten : t.Extends ((t.writeItem item).linkItemToMonitor m row.id item.seenAt) :=
        writeItem_extends.of_items_eq rfl
      exact ⟨hwritten.trans hext, fun id h => hlinks id (Linked.linkItemToMonitor h)⟩

theorem sightAll_ok {listed : List MarketplaceItemInput}
    (haccepted : ∀ item ∈ listed, item.check = .ok ()) :
    ∃ rows, (t.sightAll m listed).1 = .ok rows ∧ rows.map (·.key) = listed.map (·.key) ∧
      ∀ row ∈ rows, (t.sightAll m listed).2.idOf row.key = some row.id ∧
        (t.sightAll m listed).2.Linked m row.id := by
  induction listed generalizing t with
  | nil => exact ⟨[], rfl, rfl, fun _ h => absurd h List.not_mem_nil⟩
  | cons item rest ih =>
    obtain ⟨haccepts, hrest⟩ := List.forall_mem_cons.1 haccepted
    have hupsert := upsertMarketplaceItem_eq (t := t) haccepts
    obtain ⟨-, hkey, hid⟩ := upsertMarketplaceItem_eq_ok hupsert
    set row := ((t.itemOf item.key).map (·.merge item)).getD (.inserted t.items.length item)
    set linked := (t.writeItem item).linkItemToMonitor m row.id item.seenAt
    obtain ⟨rows, hrows, hkeys, hall⟩ := ih (t := linked) hrest
    obtain ⟨hext, hlinks⟩ := sightAll_keeps (t := linked) (m := m) rest
    rw [sightAll_cons hupsert]
    refine ⟨row :: rows, by rw [hrows]; rfl, by simp [hkey, hkeys], ?_⟩
    intro r hr
    rcases List.mem_cons.1 hr with rfl | hmem
    · rw [hkey]
      exact ⟨hext.ids _ _ hid, hlinks _ linked_linkItemToMonitor⟩
    · exact hall r hmem

theorem syncMembership_keeps (entries : List EbayWatchlistEntry) (marketplace : String)
    (at' : Timestamp) :
    t.Extends (t.syncMembership entries m marketplace at').2 ∧
      ∀ id, t.Linked m id → (t.syncMembership entries m marketplace at').2.Linked m id :=
  sightAll_keeps _

end ItemTables

namespace WatchTables

variable {t t' t'' : WatchTables} {w : Watchlist} {p : WatchlistPoll}
  {items : List MarketplaceItem} {item : MarketplaceItem} {snapshot : EbayItemSnapshot}
  {id : MarketplaceItemId} {row : ObservationRow} {outcome : WatchlistOutcome}

structure Extends (t t' : WatchTables) : Prop where
  items : t.toItemTables.Extends t'.toItemTables
  rows : ∀ row ∈ t.observations, row ∈ t'.observations

theorem Extends.refl (t : WatchTables) : t.Extends t := ⟨.refl _, fun _ h => h⟩

theorem Extends.trans (h : t.Extends t') (h' : t'.Extends t'') : t.Extends t'' :=
  ⟨h.items.trans h'.items, fun row hrow => h'.rows row (h.rows row hrow)⟩

theorem mem_insertObservation {row' : ObservationRow} :
    row' ∈ (t.insertObservation row).observations ↔ row' ∈ t.observations ∨
      (row' = row ∧ ∀ stored ∈ t.observations, stored.identity ≠ row.identity) := by
  unfold insertObservation
  split_ifs with h
  · obtain ⟨stored, hstored, heq⟩ := List.any_eq_true.1 h
    refine ⟨.inl, fun h => h.resolve_right fun hnew => hnew.2 stored hstored ?_⟩
    simpa using heq
  · have hnew : ∀ stored ∈ t.observations, stored.identity ≠ row.identity := by simpa using h
    simp only [List.mem_append, List.mem_singleton]
    exact or_congr Iff.rfl (and_iff_left hnew).symm

theorem insertObservation_extends : t.Extends (t.insertObservation row) where
  items := by
    unfold insertObservation
    split_ifs <;> exact .refl _
  rows _ h := mem_insertObservation.2 (.inl h)

theorem observeSnapshot_extends (snapshot : EbayItemSnapshot) :
    t.Extends (t.observeSnapshot w p snapshot).2 := by
  unfold observeSnapshot
  rcases hupsert : t.upsertMarketplaceItem (snapshot.item p.observedAt) with e | ⟨item, items⟩
  · exact .refl t
  · obtain ⟨rfl, -, -⟩ := ItemTables.upsertMarketplaceItem_eq_ok hupsert
    set t' := t.withItems (t.writeItem (snapshot.item p.observedAt))
    have hwritten : t.Extends t' := ⟨ItemTables.writeItem_extends, fun _ h => h⟩
    simp only []
    unfold recordObservationBatch
    rcases ObservationItem.check (snapshot.observation w.digest) with e | _
    · exact hwritten
    · refine hwritten.trans (insertObservation_extends.trans ⟨?_, fun _ h => h⟩)
      exact ItemTables.Extends.of_items_eq (.refl _) rfl

theorem observeMembers_extends : t.Extends (observeMembers w p t items outcome).2 := by
  induction items generalizing t outcome with
  | nil => exact .refl t
  | cons item rest ih =>
    unfold observeMembers
    rcases p.fetchItemSnapshotByLegacyId item.key.externalItemId with kind | snapshot
    · exact .refl t
    · have hfirst := observeSnapshot_extends (t := t) (w := w) (p := p) snapshot
      simp only []
      rcases hobserve : t.observeSnapshot w p snapshot with ⟨_ | _, after⟩
      · rw [hobserve] at hfirst
        exact hfirst
      · rw [hobserve] at hfirst
        exact hfirst.trans ih

theorem refreshMembership_extends : t.Extends (t.refreshMembership w p).2 := by
  unfold refreshMembership
  rcases p.membership with e | fetched
  · exact .refl t
  · have hkeeps := (ItemTables.syncMembership_keeps (t := t.toItemTables) (m := w.monitorTargetId)
      fetched.entries w.marketplaceId p.observedAt).1
    simp only []
    rcases hsync : t.syncMembership fetched.entries w.monitorTargetId w.marketplaceId p.observedAt
      with ⟨_ | _, synced⟩
    · rw [hsync] at hkeeps
      exact ⟨hkeeps, fun _ h => h⟩
    · rw [hsync] at hkeeps
      simp only []
      split_ifs
      · exact ⟨hkeeps, fun _ h => h⟩
      · exact ⟨hkeeps.of_items_eq rfl, fun _ h => h⟩

theorem refreshMembership_extends_step : (t.refreshMembership w p).2.Extends (w.step t p) := by
  unfold Watchlist.step pollWatchlist
  rcases t.refreshMembership w p with ⟨_ | ⟨items, deactivated⟩, after⟩
  · exact .refl after
  · exact observeMembers_extends

theorem step_extends : t.Extends (w.step t p) :=
  refreshMembership_extends.trans refreshMembership_extends_step

def Observes (t : WatchTables) (p : WatchlistPoll) (id : MarketplaceItemId) : Prop :=
  ∃ row ∈ t.observations, row.identity = (p.observationBatchId, id, p.observedAt)

instance (t : WatchTables) (p : WatchlistPoll) (id : MarketplaceItemId) :
    Decidable (t.Observes p id) :=
  inferInstanceAs (Decidable (∃ row ∈ t.observations, _))

theorem Observes.of_extends (h : t.Observes p id) (hext : t.Extends t') : t'.Observes p id := by
  obtain ⟨row, hrow, hid⟩ := h
  exact ⟨row, hext.rows row hrow, hid⟩

end WatchTables

namespace WatchlistPoll

def Fetches (p : WatchlistPoll) (externalItemId : String) : Prop :=
  (p.fetchItemSnapshotByLegacyId externalItemId).isOk = true

instance (p : WatchlistPoll) (externalItemId : String) : Decidable (p.Fetches externalItemId) :=
  inferInstanceAs (Decidable (_ = true))

def Provides (w : Watchlist) (p : WatchlistPoll) (item : MarketplaceItem) : Prop :=
  ∀ snapshot ∈ (p.fetchItemSnapshotByLegacyId item.key.externalItemId).toOption,
    snapshot.key = item.key ∧ (snapshot.item p.observedAt).check = .ok () ∧
      (snapshot.observation w.digest).check = .ok ()

instance (w : Watchlist) (p : WatchlistPoll) (item : MarketplaceItem) :
    Decidable (p.Provides w item) :=
  inferInstanceAs (Decidable (∀ snapshot ∈ Except.toOption _, _))

end WatchlistPoll

namespace WatchTables

variable {t t' t'' : WatchTables} {w : Watchlist} {p : WatchlistPoll}
  {items : List MarketplaceItem} {item : MarketplaceItem} {snapshot : EbayItemSnapshot}
  {id : MarketplaceItemId} {row : ObservationRow} {outcome : WatchlistOutcome}

def Adds (t t' : WatchTables) (p : WatchlistPoll) (ids : List MarketplaceItemId) : Prop :=
  ∀ row ∈ t'.observations, row ∈ t.observations ∨
    (row.marketplaceItemId ∈ ids ∧ row.observedAt = p.observedAt)

theorem recordObservationBatch_eq (h : row.item.check = .ok ()) : t.recordObservationBatch row =
    .ok ((t.insertObservation row).observations.length - t.observations.length,
      t.insertObservation row) := by
  unfold recordObservationBatch
  rw [h]
  rfl

theorem observes_insertObservation (h : row.identity = (p.observationBatchId, id, p.observedAt)) :
    (t.insertObservation row).Observes p id := by
  by_cases hstored : ∃ stored ∈ t.observations, stored.identity = row.identity
  · obtain ⟨stored, hmem, heq⟩ := hstored
    exact ⟨stored, mem_insertObservation.2 (.inl hmem), heq.trans h⟩
  · have hnew : ∀ stored ∈ t.observations, stored.identity ≠ row.identity :=
      fun stored hmem heq => hstored ⟨stored, hmem, heq⟩
    exact ⟨row, mem_insertObservation.2 (.inr ⟨rfl, hnew⟩), h⟩

theorem observeSnapshot_ok (hitem : (snapshot.item p.observedAt).check = .ok ())
    (hobservation : (snapshot.observation w.digest).check = .ok ())
    (hid : t.idOf snapshot.key = some id) :
    ∃ inserted changed, (t.observeSnapshot w p snapshot).1 = .ok (inserted, changed) ∧
      (t.observeSnapshot w p snapshot).2.Observes p id ∧
      t.Adds (t.observeSnapshot w p snapshot).2 p [id] := by
  obtain ⟨old, hold, rfl⟩ := Option.map_eq_some_iff.1 hid
  have hupsert : t.upsertMarketplaceItem (snapshot.item p.observedAt) = .ok
      (old.merge (snapshot.item p.observedAt), t.writeItem (snapshot.item p.observedAt)) := by
    rw [ItemTables.upsertMarketplaceItem_eq hitem, show (snapshot.item p.observedAt).key =
      snapshot.key from rfl, hold]
    rfl
  set row : ObservationRow := ⟨p.observationBatchId, old.id, p.observedAt,
    WATCHLIST_OBSERVATION_SOURCE, snapshot.observation w.digest⟩ with hrow
  have hcheck : row.item.check = .ok () := hobservation
  have hrecord := recordObservationBatch_eq hcheck
    (t := t.withItems (t.writeItem (snapshot.item p.observedAt)))
  unfold observeSnapshot
  rw [hupsert]
  simp only [show (old.merge (snapshot.item p.observedAt)).id = old.id from rfl, ← hrow, hrecord]
  have hidentity : row.identity = (p.observationBatchId, old.id, p.observedAt) := rfl
  refine ⟨_, _, rfl, observes_insertObservation hidentity, fun r hr => ?_⟩
  rcases mem_insertObservation.1 hr with hmem | ⟨rfl, -⟩
  · exact .inl hmem
  · exact .inr ⟨List.mem_singleton_self _, rfl⟩

theorem observeMembers_of_not_fetches (h : ¬ p.Fetches item.key.externalItemId) :
    (observeMembers w p t (item :: items) outcome).2 = t := by
  unfold WatchlistPoll.Fetches at h
  unfold observeMembers
  rcases hfetch : p.fetchItemSnapshotByLegacyId item.key.externalItemId with kind | snapshot
  · rfl
  · exact absurd rfl (hfetch ▸ h)

theorem observeMembers_of_fetches (items : List MarketplaceItem) (outcome : WatchlistOutcome)
    (h : p.Fetches item.key.externalItemId) (hprovides : p.Provides w item)
    (hid : t.idOf item.key = some item.id) :
    ∃ after outcome', observeMembers w p t (item :: items) outcome =
        observeMembers w p after items outcome' ∧
      t.Extends after ∧ after.Observes p item.id ∧ t.Adds after p [item.id] := by
  unfold WatchlistPoll.Fetches at h
  rcases hfetch : p.fetchItemSnapshotByLegacyId item.key.externalItemId with kind | snapshot
  · rw [hfetch] at h
    cases h
  · obtain ⟨hkey, hitem, hobservation⟩ := hprovides snapshot (Except.toOption_eq_some.2 hfetch)
    rw [← hkey] at hid
    obtain ⟨inserted, changed, hok, hobserves, hadds⟩ := observeSnapshot_ok hitem hobservation hid
    have hextends := observeSnapshot_extends (t := t) (w := w) (p := p) snapshot
    rcases hobserve : t.observeSnapshot w p snapshot with ⟨result, after⟩
    simp only [hobserve] at hok hobserves hadds hextends
    subst hok
    refine ⟨after, outcome.add inserted changed (secondsUntil snapshot.listingEndsAt p.observedAt),
      ?_, hextends, hobserves, hadds⟩
    rw [observeMembers, hfetch]
    simp only [hobserve]

theorem observeMembers_adds {before after : List MarketplaceItem} (outcome : WatchlistOutcome)
    (hknown : ∀ item ∈ before, t.idOf item.key = some item.id)
    (hprovides : ∀ item ∈ before, p.Provides w item)
    (hstop : ∀ item ∈ after.head?, ¬ p.Fetches item.key.externalItemId) :
    t.Adds (observeMembers w p t (before ++ after) outcome).2 p (before.map (·.id)) := by
  induction before generalizing t outcome with
  | nil =>
    rcases after with _ | ⟨item, after⟩
    · exact fun _ h => .inl h
    · rw [List.nil_append, observeMembers_of_not_fetches (hstop item rfl)]
      exact fun _ h => .inl h
  | cons item before ih =>
    obtain ⟨hid, hknown⟩ := List.forall_mem_cons.1 hknown
    obtain ⟨hprovide, hprovides⟩ := List.forall_mem_cons.1 hprovides
    by_cases hfetches : p.Fetches item.key.externalItemId
    · obtain ⟨mid, outcome', heq, hextends, -, hadds⟩ :=
        observeMembers_of_fetches (before ++ after) outcome hfetches hprovide hid
      rw [List.cons_append, heq]
      intro row hrow
      rcases ih outcome' (fun item h => hextends.items.ids _ _ (hknown item h)) hprovides row hrow
        with hmem | ⟨hmem, hat⟩
      · rcases hadds row hmem with hmem | ⟨hmem, hat⟩
        · exact .inl hmem
        · rw [List.mem_singleton] at hmem
          exact .inr ⟨by simp [hmem], hat⟩
      · exact .inr ⟨List.mem_cons_of_mem _ hmem, hat⟩
    · rw [List.cons_append, observeMembers_of_not_fetches hfetches]
      exact fun _ h => .inl h

def FailingLast (p : WatchlistPoll) (items : List MarketplaceItem) : Prop :=
  ∀ before item after, items = before ++ item :: after → ¬ p.Fetches item.key.externalItemId →
    ∀ later ∈ after, ¬ p.Fetches later.key.externalItemId

theorem failingLast_of_pairwise (h : items.Pairwise fun earlier later =>
    p.Fetches later.key.externalItemId → p.Fetches earlier.key.externalItemId) :
    FailingLast p items := by
  rintro before item after rfl hfails later hlater hfetches
  exact hfails (List.rel_of_pairwise_cons (List.pairwise_append.1 h).2.1 hlater hfetches)

theorem observes_of_failingLast (hknown : ∀ item ∈ items, t.idOf item.key = some item.id)
    (hprovides : ∀ item ∈ items, p.Provides w item) (hlast : FailingLast p items) :
    ∀ item ∈ items, p.Fetches item.key.externalItemId →
      (observeMembers w p t items outcome).2.Observes p item.id := by
  induction items generalizing t outcome with
  | nil => exact fun _ h => absurd h List.not_mem_nil
  | cons item rest ih =>
    obtain ⟨hid, hknown⟩ := List.forall_mem_cons.1 hknown
    obtain ⟨hprovide, hprovides⟩ := List.forall_mem_cons.1 hprovides
    intro it hit hfetches
    by_cases hfirst : p.Fetches item.key.externalItemId
    · obtain ⟨after, outcome', heq, hextends, hobserves, -⟩ :=
        observeMembers_of_fetches rest outcome hfirst hprovide hid
      have hrest : FailingLast p rest := by
        rintro before failing later rfl
        exact hlast (item :: before) failing later rfl
      rw [heq]
      rcases List.mem_cons.1 hit with rfl | hmem
      · exact hobserves.of_extends observeMembers_extends
      · exact ih (fun item h => hextends.items.ids _ _ (hknown item h)) hprovides hrest it hmem
          hfetches
    · rcases List.mem_cons.1 hit with rfl | hmem
      · exact absurd hfetches hfirst
      · exact absurd hfetches (hlast [] item rest rfl hfirst it hmem)

variable {candidates : List MarketplaceItemId}

theorem mem_linkedCandidates {m : MonitorTargetId} (h : ∀ id ∈ candidates, t.Linked m id)
    : id ∈ t.linkedCandidates m candidates ↔
      id ∈ candidates := by
  unfold linkedCandidates
  rw [List.mem_dedup]
  constructor
  · intro hid
    obtain ⟨link, hlink, rfl⟩ := List.mem_map.1 hid
    have hlisted := (List.mem_filter.1 hlink).2
    simp only [Bool.and_eq_true, List.contains_iff_mem] at hlisted
    exact hlisted.2
  · intro hid
    obtain ⟨link, hlink, hactive⟩ := h id hid
    have hpair : link.pair = (m, id) := KeyedTable.get_key hlink
    simp only [MonitorItem.pair, Prod.mk.injEq] at hpair
    obtain ⟨rfl, rfl⟩ := hpair
    refine List.mem_map.2 ⟨link, List.mem_filter.2 ⟨KeyedTable.get_mem hlink, ?_⟩, rfl⟩
    simp [hactive, hid]

def staleOrder (t : WatchTables) (m : MonitorTargetId) (candidates : List MarketplaceItemId) :
    List MarketplaceItemId :=
  (t.linkedCandidates m candidates).insertionSort fun a b => t.staleness a ≤ t.staleness b

theorem selectStaleMembers_eq {m : MonitorTargetId} {limit : ℕ} :
    t.selectStaleMembers m candidates limit = (t.staleOrder m candidates).take limit := by
  unfold selectStaleMembers staleOrder
  split_ifs with h
  · rcases h with rfl | hlimit
    · simp [linkedCandidates]
    · rw [show limit = 0 by omega, List.take_zero]
  · rfl

theorem staleness_injective : Function.Injective t.staleness := by
  intro a b h
  exact (Prod.mk.inj (toLex.injective h)).2

theorem nodup_staleOrder {m : MonitorTargetId} :
    (t.staleOrder m candidates).Nodup :=
  (List.perm_insertionSort _ _).nodup_iff.2 (List.nodup_dedup _)

theorem pairwise_staleOrder {m : MonitorTargetId} :
    (t.staleOrder m candidates).Pairwise fun a b => t.staleness a < t.staleness b := by
  have hsorted : (t.staleOrder m candidates).Pairwise fun a b => t.staleness a ≤ t.staleness b :=
    pairwise_insertionSort_key _
  refine hsorted.imp₂ (fun a b hle hne => ?_) nodup_staleOrder
  exact lt_of_le_of_ne hle fun heq => hne (staleness_injective heq)

theorem exists_member (h : id ∈ items.map (·.id)) :
    ∃ item ∈ items, item.id = id ∧ (items.filter (·.id == id)).getLast? = some item := by
  rcases hlast : (items.filter (·.id == id)).getLast? with _ | item
  · obtain ⟨item, hmem, rfl⟩ := List.mem_map.1 h
    have hnone := List.filter_eq_nil_iff.1 (List.getLast?_eq_none_iff.1 hlast) item hmem
    simp at hnone
  · obtain ⟨hmem, hid⟩ := List.mem_filter.1 (List.mem_of_getLast? hlast)
    exact ⟨item, hmem, by simpa using hid, hlast⟩

theorem map_membersToObserve (h : ∀ item ∈ items, t.Linked w.monitorTargetId item.id) :
    (t.membersToObserve w items).map (·.id) =
      (t.staleOrder w.monitorTargetId (items.map (·.id))).take w.watchlistItemsPerPoll := by
  unfold membersToObserve
  have hlinked : ∀ id ∈ items.map (·.id), t.Linked w.monitorTargetId id := by
    intro id hid
    obtain ⟨item, hmem, rfl⟩ := List.mem_map.1 hid
    exact h item hmem
  rw [selectStaleMembers_eq, List.map_filterMap]
  refine (List.filterMap_congr fun id hid => ?_).trans List.filterMap_some
  have hmem : id ∈ t.linkedCandidates w.monitorTargetId (items.map (·.id)) :=
    (List.mem_insertionSort _).1 (List.mem_of_mem_take hid)
  obtain ⟨item, -, rfl, hlast⟩ := exists_member ((mem_linkedCandidates hlinked).1 hmem)
  rw [hlast]
  rfl

theorem mem_of_mem_membersToObserve (h : item ∈ t.membersToObserve w items) : item ∈ items := by
  obtain ⟨id, -, hlast⟩ := List.mem_filterMap.1 h
  exact (List.mem_filter.1 (List.mem_of_getLast? hlast)).1

def presentItems (t : WatchTables) (w : Watchlist) (p : WatchlistPoll) : List MarketplaceItem :=
  match (t.refreshMembership w p).1 with
  | .ok (items, _) => items
  | .error _ => []

def selectedMembers (t : WatchTables) (w : Watchlist) (p : WatchlistPoll) : List MarketplaceItem :=
  (t.refreshMembership w p).2.membersToObserve w (t.presentItems w p)

end WatchTables

def Watchlist.memberKey (w : Watchlist) (externalItemId : String) : ItemKey :=
  ⟨"ebay", w.marketplaceId, externalItemId⟩

def WatchlistPoll.Lists (w : Watchlist) (p : WatchlistPoll) (members : Finset String) : Prop :=
  ∃ fetched ∈ p.membership.toOption,
    (fetched.entries.map (·.externalItemId)).toFinset = members ∧
      ∀ entry ∈ fetched.entries, (entry.input w.marketplaceId p.observedAt).check = .ok ()

instance (w : Watchlist) (p : WatchlistPoll) (members : Finset String) :
    Decidable (p.Lists w members) :=
  inferInstanceAs (Decidable (∃ fetched ∈ p.membership.toOption, _))

namespace WatchTables

variable {t : WatchTables} {w : Watchlist} {p : WatchlistPoll} {members : Finset String}

structure Refreshed (t after : WatchTables) (w : Watchlist) (members : Finset String)
    (items : List MarketplaceItem) : Prop where
  of_member : ∀ e ∈ members, ∃ item ∈ items, item.key = w.memberKey e
  member_of : ∀ item ∈ items, ∃ e ∈ members, item.key = w.memberKey e
  known : ∀ item ∈ items, after.idOf item.key = some item.id
  linked : ∀ item ∈ items, after.Linked w.monitorTargetId item.id
  observations : after.observations = t.observations

theorem refreshMembership_ok (h : p.Lists w members) :
    ∃ n, (t.refreshMembership w p).1 = .ok (t.presentItems w p, n) ∧
      Refreshed t (t.refreshMembership w p).2 w members (t.presentItems w p) := by
  obtain ⟨fetched, hfetched, hmembers, haccepted⟩ := h
  have hmembership := Except.toOption_eq_some.1 hfetched
  set inputs := fetched.entries.map (·.input w.marketplaceId p.observedAt) with hinputs
  have hchecks : ∀ input ∈ inputs, input.check = .ok () := by
    intro input hinput
    obtain ⟨entry, hentry, rfl⟩ := List.mem_map.1 hinput
    exact haccepted entry hentry
  obtain ⟨items, hitems, hkeys, hall⟩ := ItemTables.sightAll_ok (t := t.toItemTables)
    (m := w.monitorTargetId) hchecks
  have hkeyed : items.map (·.key) = fetched.entries.map fun e => w.memberKey e.externalItemId := by
    rw [hkeys, hinputs, List.map_map]
    rfl
  have hmem : ∀ e, e ∈ members ↔ ∃ entry ∈ fetched.entries, entry.externalItemId = e := by
    simp [← hmembers]
  have hrefreshed : ∀ after : WatchTables, after.observations = t.observations →
      (∀ item ∈ items, after.idOf item.key = some item.id) →
      (∀ item ∈ items, after.Linked w.monitorTargetId item.id) →
      Refreshed t after w members items := by
    refine fun after hobs hids hlinks => ⟨fun e he => ?_, fun item hitem => ?_, hids, hlinks, hobs⟩
    · obtain ⟨entry, hentry, rfl⟩ := (hmem e).1 he
      exact List.mem_map.1 (hkeyed ▸ List.mem_map_of_mem hentry)
    · have hkey : item.key ∈ items.map (·.key) := List.mem_map_of_mem hitem
      rw [hkeyed] at hkey
      obtain ⟨entry, hentry, hkey⟩ := List.mem_map.1 hkey
      exact ⟨_, (hmem _).2 ⟨entry, hentry, rfl⟩, hkey.symm⟩
  rcases hsync : t.syncMembership fetched.entries w.monitorTargetId w.marketplaceId p.observedAt
    with ⟨result, synced⟩
  have hsight : t.sightAll w.monitorTargetId inputs = (result, synced) := hsync
  rw [hsight] at hitems hall
  simp only at hitems hall
  subst hitems
  have hids : ∀ item ∈ items, (t.withItems synced).idOf item.key = some item.id :=
    fun item hitem => (hall item hitem).1
  have hlinks : ∀ item ∈ items, (t.withItems synced).Linked w.monitorTargetId item.id :=
    fun item hitem => (hall item hitem).2
  unfold presentItems refreshMembership
  simp only [hmembership, hsync]
  split_ifs
  · exact ⟨_, rfl, hrefreshed _ rfl hids hlinks⟩
  · exact ⟨_, rfl, hrefreshed _ rfl hids fun item hitem =>
      (hlinks item hitem).deactivateAbsent (List.mem_map_of_mem hitem)⟩

theorem step_eq (h : p.Lists w members) :
    w.step t p = (observeMembers w p (t.refreshMembership w p).2 (t.selectedMembers w p) {}).2 := by
  obtain ⟨n, hok, -⟩ := refreshMembership_ok (t := t) h
  unfold Watchlist.step pollWatchlist selectedMembers
  rcases hresult : t.refreshMembership w p with ⟨result, after⟩
  simp only [hresult] at hok
  subst hok
  rfl

theorem selected_known (h : p.Lists w members) : ∀ item ∈ t.selectedMembers w p,
    (t.refreshMembership w p).2.idOf item.key = some item.id := by
  obtain ⟨-, -, hrefreshed⟩ := refreshMembership_ok (t := t) h
  exact fun item hitem => hrefreshed.known item (mem_of_mem_membersToObserve hitem)

theorem step_adds {before after : List MarketplaceItem} (h : p.Lists w members)
    (hselected : t.selectedMembers w p = before ++ after)
    (hprovides : ∀ item ∈ before, p.Provides w item)
    (hstop : ∀ item ∈ after.head?, ¬ p.Fetches item.key.externalItemId) :
    t.Adds (w.step t p) p (before.map (·.id)) := by
  obtain ⟨-, -, hrefreshed⟩ := refreshMembership_ok (t := t) h
  have hknown := selected_known (t := t) h
  rw [hselected] at hknown
  have hadds := observeMembers_adds {}
    (fun item hitem => hknown item (List.mem_append_left _ hitem)) hprovides hstop
  intro row hrow
  rw [step_eq h, hselected] at hrow
  rw [← hrefreshed.observations]
  exact hadds row hrow

end WatchTables

end Loxep

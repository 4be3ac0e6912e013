import Loxep.OrderIngestion
import Loxep.Proofs.OrderRewriting

/-!
# What an ingestion leaves

One transaction writes the order of its key and no other order. Which order it is then marked a
duplicate of depends on the orders of the sale that are not marked, by the instants of their first
ingestion.
-/

namespace Loxep

namespace CommerceTables

variable {t : CommerceTables} {order : StoredOrder} {key : OrderKey} {orderId : OrderId}
  {effect : IngestEffect} {input : IngestOrderFactInput} {sale : SaleKey}

theorem orderOf_key (h : t.orderOf key = some order) : order.key = key := KeyedTable.get_key h

theorem orderOf_mem (h : t.orderOf key = some order) : order ∈ t.orders := KeyedTable.get_mem h

variable {orders : List StoredOrder}

theorem get_withOrder :
    KeyedTable.get StoredOrder.key (withOrder orders order) key =
      if key = order.key then some order else KeyedTable.get StoredOrder.key orders key := by
  unfold withOrder
  rw [KeyedTable.get_upsert fun _ _ => rfl]
  split_ifs
  · rcases KeyedTable.get StoredOrder.key orders key with _ | row <;> rfl
  · rfl

theorem orderOf_writeOrder : (t.writeOrder order).orderOf key =
    if key = order.key then some order else t.orderOf key := get_withOrder

variable {row : StoredOrder} {fact : CommerceOrderFact} {nextRowId : ℕ}

theorem mem_withOrder_of_ne (h : row ∈ orders) (hne : row.key ≠ order.key)
    : row ∈ withOrder orders order := by
  unfold withOrder KeyedTable.upsert
  split_ifs
  · exact List.mem_map.2 ⟨row, h, if_neg hne⟩
  · exact List.mem_append_left _ h

theorem self_mem_withOrder : order ∈ withOrder orders order :=
  KeyedTable.get_mem (get_withOrder.trans (if_pos rfl))

theorem mem_withOrder :
    row ∈ withOrder orders order ↔ row = order ∨ row ∈ orders ∧ row.key ≠ order.key := by
  constructor
  · intro h
    unfold withOrder KeyedTable.upsert at h
    split_ifs at h with hsome
    · obtain ⟨old, hold, rfl⟩ := List.mem_map.1 h
      split_ifs with heq
      · exact .inl rfl
      · exact .inr ⟨hold, heq⟩
    · rcases List.mem_append.1 h with hmem | hmem
      · refine .inr ⟨hmem, fun heq => hsome ?_⟩
        rcases hget : KeyedTable.get StoredOrder.key orders order.key with _ | old
        · exact absurd heq (KeyedTable.get_eq_none.1 hget row hmem)
        · rfl
      · exact .inl (List.mem_singleton.1 hmem)
  · rintro (rfl | ⟨h, hne⟩)
    · exact self_mem_withOrder
    · exact mem_withOrder_of_ne h hne

structure SameOrders (t t' : CommerceTables) : Prop where
  orders : t'.orders = t.orders
  nextRowId : t'.nextRowId = t.nextRowId
  references : t'.references = t.references
  connections : t'.connections = t.connections

theorem linkSource_same (link : OrderSourceLink) : SameOrders t (t.linkSource link) := by
  unfold linkSource
  split_ifs <;> exact ⟨rfl, rfl, rfl, rfl⟩

theorem SameOrders.trans {t' t'' : CommerceTables} (h : SameOrders t t') (h' : SameOrders t' t'')
    : SameOrders t t'' :=
  ⟨h'.orders.trans h.orders, h'.nextRowId.trans h.nextRowId, h'.references.trans h.references,
    h'.connections.trans h.connections⟩

theorem retainPayload_same {payload : String} : SameOrders t (t.retainPayload input payload).2 := by
  unfold retainPayload
  simp only
  split <;> exact ⟨rfl, rfl, rfl, rfl⟩

theorem retainProvenance_same : SameOrders t (t.retainProvenance orderId effect input).2 := by
  unfold retainProvenance
  rcases input.sourceEventId with _ | event
  · rcases input.fact.rawPayload with _ | payload
    · exact ⟨rfl, rfl, rfl, rfl⟩
    · simp only
      split_ifs
      · exact retainPayload_same.trans (linkSource_same _)
      · exact ⟨rfl, rfl, rfl, rfl⟩
  · have hlinked : SameOrders t (t.linkSource ⟨orderId, some event, none, effect, input.now⟩) :=
      linkSource_same _
    rcases input.fact.rawPayload with _ | payload
    · exact hlinked
    · simp only
      split_ifs
      · exact hlinked.trans (retainPayload_same.trans (linkSource_same _))
      · exact hlinked

theorem canonicalOrder_eq_none : canonicalOrder orders sale = none ↔
    ∀ order ∈ orders, order.saleKey = sale → order.duplicateOfOrderId.isSome := by
  unfold canonicalOrder
  rw [List.argmin_eq_none, List.filter_eq_nil_iff]
  refine forall₂_congr fun order _ => ?_
  rcases order.duplicateOfOrderId <;> simp

theorem canonicalOrder_spec (h : canonicalOrder orders sale = some order) :
    order ∈ orders ∧ order.saleKey = sale ∧ order.duplicateOfOrderId = none
      ∧ ∀ other ∈ orders, other.saleKey = sale → other.duplicateOfOrderId = none →
        order.rank ≤ other.rank := by
  unfold canonicalOrder at h
  have hmem := List.argmin_mem h
  rw [List.mem_filter, Bool.and_eq_true, beq_iff_eq, Option.isNone_iff_eq_none] at hmem
  refine ⟨hmem.1, hmem.2.1, hmem.2.2, fun other hother hsale hunmarked => ?_⟩
  have hother' : other ∈ orders.filter
      fun order => order.saleKey == sale && order.duplicateOfOrderId.isNone := by
    rw [List.mem_filter]
    exact ⟨hother, by simp [hsale, hunmarked]⟩
  exact List.le_of_mem_argmin hother' h

theorem rank_injective {order order' : StoredOrder} (h : order.rank = order'.rank) :
    order.id = order'.id :=
  congrArg (fun rank => (ofLex rank).2) h

theorem duplicateOf_eq_none_iff (hids : ∀ other ∈ orders, other.id = order.id → other = order)
    (hmem : order ∈ orders) (hsale : order.saleKey = fact.saleKey)
    (hunmarked : order.duplicateOfOrderId = none) :
    duplicateOf orders order.id fact = none ↔ ∀ other ∈ orders, other.saleKey = fact.saleKey →
      other.duplicateOfOrderId = none → order.rank ≤ other.rank := by
  unfold duplicateOf
  rcases hcanonical : canonicalOrder orders fact.saleKey with _ | first
  · have hmarked := canonicalOrder_eq_none.1 hcanonical order hmem hsale
    rw [hunmarked] at hmarked
    cases hmarked
  · obtain ⟨hfirst, hfirstSale, hfirstUnmarked, hleast⟩ := canonicalOrder_spec hcanonical
    simp only [Option.map_some, Option.filter_some, bne_iff_ne, ne_eq]
    constructor
    · intro hnone
      have hid : first.id = order.id := by
        by_contra hne
        rw [if_pos hne] at hnone
        cases hnone
      rw [hids first hfirst hid] at hleast
      exact hleast
    · intro hle
      have hid : first.id = order.id :=
        rank_injective ((hleast order hmem hsale hunmarked).antisymm
          (hle first hfirst hfirstSale hfirstUnmarked))
      simp [hid]

def storedChildren (t : CommerceTables) (key : OrderKey) : OrderChildren :=
  ((t.orderOf key).map StoredOrder.children).getD {}

structure Writes (t : CommerceTables) (newOrderId : OrderId) (input : IngestOrderFactInput)
    (written : StoredOrder) (nextRowId : ℕ) : Prop where
  key : written.key = input.key
  values : written.values = input.fact.values.stored
  kept : ∀ old, t.orderOf input.key = some old → written.id = old.id
    ∧ written.attribution = old.attribution ∧ written.duplicateOfOrderId = old.duplicateOfOrderId
    ∧ written.firstIngestedAt = old.firstIngestedAt
  fresh : t.orderOf input.key = none → written.id = newOrderId
    ∧ newOrderId ∉ t.orders.map (·.id) ∧ written.duplicateOfOrderId = none
    ∧ written.firstIngestedAt = input.now
  rows : (t.storedChildren input.key).rewrite t.references t.nextRowId input.fact =
    .ok (written.children, nextRowId)

def markOf (visible : List StoredOrder) (input : IngestOrderFactInput) (written : StoredOrder) :
    Option OrderId :=
  if input.markDuplicates
    then duplicateOf (withOrder visible written) written.id input.fact else none

structure Ingested (t : CommerceTables) (visible : List StoredOrder) (newOrderId : OrderId)
    (input : IngestOrderFactInput) (t' : CommerceTables) (written : StoredOrder) : Prop where
  writes : t.Writes newOrderId input written t'.nextRowId
  orderOf : ∀ key, t'.orderOf key = if key = input.key
    then some (markOrder written (markOf visible input written)) else t.orderOf key
  mem_orders : ∀ order, order ∈ t'.orders ↔ order = markOrder written (markOf visible input written)
    ∨ order ∈ t.orders ∧ order.key ≠ input.key
  references : t'.references = t.references
  connections : t'.connections = t.connections

def DistinctIds (orders : List StoredOrder) : Prop :=
  ∀ order ∈ orders, ∀ order' ∈ orders, order.id = order'.id → order = order'

namespace Ingested

variable {t' : CommerceTables} {visible : List StoredOrder} {newOrderId : OrderId}
  {written : StoredOrder}

theorem id_apart (hids : DistinctIds t.orders) (h : t.Ingested visible newOrderId input t' written)
    (hmem : order ∈ t.orders) (hne : order.key ≠ input.key) : order.id ≠ written.id := by
  rcases hold : t.orderOf input.key with _ | old
  · obtain ⟨hid, hfresh, -⟩ := h.writes.fresh hold
    rw [hid]
    exact fun heq => hfresh (heq ▸ List.mem_map_of_mem hmem)
  · rw [(h.writes.kept old hold).1]
    intro heq
    rw [hids order hmem old (orderOf_mem hold) heq] at hne
    exact hne (orderOf_key hold)

theorem distinctIds (hids : DistinctIds t.orders)
    (h : t.Ingested visible newOrderId input t' written) : DistinctIds t'.orders := by
  intro order hmem order' hmem' hid
  rcases (h.mem_orders order).1 hmem with rfl | ⟨hold, hne⟩
  · rcases (h.mem_orders order').1 hmem' with rfl | ⟨hold', hne'⟩
    · rfl
    · have hapart := h.id_apart hids hold' hne'
      exact absurd hid.symm hapart
  · rcases (h.mem_orders order').1 hmem' with rfl | ⟨hold', -⟩
    · have hapart := h.id_apart hids hold hne
      exact absurd hid hapart
    · exact hids order hold order' hold' hid

theorem saleKey (h : t.Ingested visible newOrderId input t' written) :
    written.saleKey = input.fact.saleKey := by
  unfold StoredOrder.saleKey CommerceOrderFact.saleKey
  rw [h.writes.key, h.writes.values]
  rfl

end Ingested

theorem markOrder_none : markOrder order none = order := by
  rw [markOrder, Option.or_none]

theorem upsertedOrder_eq_ok {newOrderId : OrderId} {attribution : ResolvedAttribution} :
    t.upsertedOrder newOrderId attribution input = .ok order ↔
      (∃ old, t.orderOf input.key = some old ∧
        order = { old with values := input.fact.values.stored, lastSyncedAt := input.now })
      ∨ t.orderOf input.key = none ∧ input.fact.provider ≠ "manual"
        ∧ newOrderId ∉ t.orders.map (·.id)
        ∧ order = ⟨newOrderId, input.key, attribution, input.fact.values.stored, none, input.now,
          input.now, {}⟩ := by
  unfold upsertedOrder
  rcases t.orderOf input.key with _ | old
  · simp only [Except.bind_eq_ok, Except.require_eq_ok, Except.pure_eq_ok, reduceCtorEq, false_and,
      exists_const, exists_false, false_or, true_and]
    exact and_congr_right fun _ => and_congr_right fun _ => eq_comm
  · simp only [Except.ok.injEq, Option.some.injEq, exists_eq_left', reduceCtorEq, false_and,
      or_false]
    exact eq_comm

theorem parse_eq_ok {parsed : CommerceOrderFact} :
    fact.parse = .ok parsed ↔ fact.issues = [] ∧ parsed = fact := by
  unfold CommerceOrderFact.parse
  split_ifs with h
  · simp [h, eq_comm]
  · simp [h]

theorem ingested_of (effect : IngestEffect) {visible : List StoredOrder} {newOrderId : ℕ}
    {written : StoredOrder} (h : t.Writes newOrderId input written nextRowId)
    {stored t' : CommerceTables} (hstored : stored =
      ({ t.writeOrder written with nextRowId }.retainProvenance written.id effect input).2)
    (ht' : t' = if input.markDuplicates
      then stored.writeOrder (markOrder written (markOf visible input written)) else stored) :
    t.Ingested visible newOrderId input t' written := by
  have hsame : SameOrders { t.writeOrder written with nextRowId } stored :=
    hstored ▸ retainProvenance_same
  have hmarkKey : (markOrder written (markOf visible input written)).key = input.key := h.key
  have hstoredOf : ∀ key, stored.orderOf key =
      if key = input.key then some written else t.orderOf key := by
    intro key
    have hwrite : (t.writeOrder written).orderOf key =
        if key = written.key then some written else t.orderOf key := orderOf_writeOrder
    rw [h.key] at hwrite
    rw [← hwrite]
    unfold orderOf
    rw [hsame.orders]
  have hstoredMem : ∀ order, order ∈ stored.orders ↔ order = written ∨ order ∈ t.orders
      ∧ order.key ≠ input.key := by
    intro order
    rw [hsame.orders, ← h.key]
    exact mem_withOrder
  by_cases hmark : input.markDuplicates
  · rw [if_pos hmark] at ht'
    subst ht'
    refine ⟨?_, fun key => ?_, fun order => ?_, hsame.references, hsame.connections⟩
    · have hnext : (stored.writeOrder
          (markOrder written (markOf visible input written))).nextRowId = nextRowId :=
        hsame.nextRowId
      rwa [hnext]
    · rw [orderOf_writeOrder, hmarkKey, hstoredOf]
      split_ifs <;> rfl
    · unfold writeOrder
      rw [mem_withOrder, hmarkKey, hstoredMem]
      refine or_congr_right ⟨fun ⟨hmem, hne⟩ => ⟨?_, hne⟩, fun ⟨hmem, hne⟩ => ⟨.inr ⟨hmem, hne⟩, hne⟩⟩
      rcases hmem with rfl | hold
      · exact absurd h.key hne
      · exact hold.1
  · rw [if_neg hmark] at ht'
    subst ht'
    have hnone : markOf visible input written = none := if_neg hmark
    refine ⟨?_, fun key => ?_, fun order => ?_, hsame.references, hsame.connections⟩
    · have hnext : t'.nextRowId = nextRowId := hsame.nextRowId
      rwa [hnext]
    · rw [hnone, markOrder_none]
      exact hstoredOf key
    · rw [hnone, markOrder_none]
      exact hstoredMem order

theorem ingested_of_ok {existing : Option StoredOrder} {visible : List StoredOrder}
    {newOrderId : OrderId} {result : IngestOrderResult} {t' : CommerceTables}
    (h : t.ingestAfterRead existing visible newOrderId input = .ok (result, t')) :
    ∃ written, t.Ingested visible newOrderId input t' written := by
  unfold ingestAfterRead at h
  rw [Except.bind_eq_ok] at h
  obtain ⟨fact, hparse, h⟩ := h
  obtain ⟨-, rfl⟩ := parse_eq_ok.1 hparse
  rcases hconnection : t.connections.find? (·.id == input.connectionId) with _ | connection
  · rw [hconnection] at h
    cases h
  · rw [hconnection] at h
    simp only [Except.bind_eq_ok] at h
    obtain ⟨-, -, order, horder, ⟨children, nextRowId⟩, hrewrite, h⟩ := h
    rw [Except.pure_eq_ok, Prod.mk.injEq] at h
    have hwrites : t.Writes newOrderId input { order with children } nextRowId := by
      rcases upsertedOrder_eq_ok.1 horder with ⟨old, hold, rfl⟩ | ⟨hnone, -, hfresh, rfl⟩
      · have hkey := orderOf_key hold
        refine ⟨hkey, rfl, fun old' hold' => ?_, fun hnone => ?_, ?_⟩
        · rw [hold] at hold'
          cases hold'
          exact ⟨rfl, rfl, rfl, rfl⟩
        · rw [hold] at hnone
          cases hnone
        · rw [storedChildren, hold]
          exact hrewrite
      · refine ⟨rfl, rfl, fun old hold => ?_, fun _ => ⟨rfl, hfresh, rfl, rfl⟩, ?_⟩
        · rw [hnone] at hold
          cases hold
        · rw [storedChildren, hnone]
          exact hrewrite
    refine ⟨{ order with children }, ingested_of (ingestEffect existing input.fact) hwrites rfl ?_⟩
    rw [← h.2]
    rcases hmark : input.markDuplicates
    · simp only [Bool.false_eq_true, if_false]
    · simp only [if_true, markOf, hmark]

theorem ingestAfterRead_returns (existing : Option StoredOrder) (visible : List StoredOrder)
    {newOrderId : OrderId} {children : OrderChildren} (hparse : input.fact.issues = [])
    (hfits : input.fact.fits = true) (hprovider : input.fact.provider ≠ "manual")
    (hconnection : (t.connections.find? (·.id == input.connectionId)).isSome)
    (hfresh : t.orderOf input.key = none → newOrderId ∉ t.orders.map (·.id))
    (hrows : (t.storedChildren input.key).rewrite t.references t.nextRowId input.fact =
      .ok (children, nextRowId)) :
    ∃ result t', t.ingestAfterRead existing visible newOrderId input = .ok (result, t') := by
  obtain ⟨connection, hconnection⟩ := Option.isSome_iff_exists.1 hconnection
  have horder : ∀ attribution, ∃ order, t.upsertedOrder newOrderId attribution input = .ok order
      ∧ order.children = t.storedChildren input.key := by
    intro attribution
    rcases hold : t.orderOf input.key with _ | old
    · exact ⟨_, upsertedOrder_eq_ok.2 (.inr ⟨hold, hprovider, hfresh hold, rfl⟩), by
        rw [storedChildren, hold]
        rfl⟩
    · exact ⟨_, upsertedOrder_eq_ok.2 (.inl ⟨old, hold, rfl⟩), by
        rw [storedChildren, hold]
        rfl⟩
  obtain ⟨order, horder, hchildren⟩ := horder ((existing.map (·.attribution)).getD
    (resolveAttribution input.economicEntityId connection.economicEntityId input.now))
  rw [← hchildren] at hrows
  unfold ingestAfterRead
  rw [parse_eq_ok.2 ⟨hparse, rfl⟩]
  simp only [bind, Except.bind, hconnection, Except.require_of hfits, horder, hrows]
  exact ⟨_, _, rfl⟩

end CommerceTables

/-!
## The steps of interleaved ingestions

A step writes nothing unless it is a commit, and a commit writes what the session was handed.
-/

namespace IngestionSystem

def Handed (p : IngestOrderFactInput → Prop) : IngestTransaction → Prop
  | .idle => True
  | .reading input _ => p input
  | .writing input _ _ => p input

section Steps

variable {s : IngestionSystem} {a : IngestionAction} {session : IngestionSessionId}
  {newOrderId : OrderId} {input : IngestOrderFactInput} {existing : Option StoredOrder}
  {visible : List StoredOrder}

theorem step_kept (h : ∀ session newOrderId, a ≠ .commit session newOrderId) :
    (s.step a).tables = s.tables ∧ (s.step a).committed = s.committed := by
  rcases a with ⟨session, input⟩ | session | ⟨session, newOrderId⟩ | session <;>
    simp only [step]
  · split <;> exact ⟨rfl, rfl⟩
  · split
    · split_ifs <;> exact ⟨rfl, rfl⟩
    · exact ⟨rfl, rfl⟩
  · exact absurd rfl (h session newOrderId)
  · split <;> exact ⟨rfl, rfl⟩

theorem step_commit (newOrderId : OrderId) (h : s.stage session = .writing input existing visible) :
    (s.step (.commit session newOrderId)).tables =
        (s.commitOrder existing visible newOrderId input).tables
      ∧ (s.step (.commit session newOrderId)).committed =
        (s.commitOrder existing visible newOrderId input).committed := by
  simp only [step, h, setStage_tables, setStage_committed, unlock_tables, unlock_committed,
    and_self]

theorem step_commit_of_not (h : ∀ input existing visible,
    s.stage session ≠ .writing input existing visible) :
    s.step (.commit session newOrderId) = s := by
  rcases hstage : s.stage session with _ | ⟨input, existing⟩ | ⟨input, existing, visible⟩
  · simp only [step, hstage]
  · simp only [step, hstage]
  · exact absurd hstage (h input existing visible)

theorem commitOrder_stage :
    (s.commitOrder existing visible newOrderId input).stage = s.stage := by
  unfold commitOrder
  split <;> rfl

theorem handed_step {p : IngestOrderFactInput → Prop} (hs : ∀ session, Handed p (s.stage session))
    (ha : ∀ session input, a = .begin session input → p input) (session : IngestionSessionId) :
    Handed p ((s.step a).stage session) := by
  have hset : ∀ (s' : IngestionSystem) (session' : IngestionSessionId) (stage : IngestTransaction),
      s'.stage = s.stage → Handed p stage → Handed p ((s'.setStage session' stage).stage session) := by
    intro s' session' stage hstage hp
    simp only [setStage]
    split_ifs
    · exact hp
    · rw [hstage]
      exact hs session
  rcases a with ⟨session', input⟩ | session' | ⟨session', newOrderId⟩ | session' <;>
    simp only [step]
  · split
    · exact hset s session' _ rfl (ha session' input rfl)
    · exact hs session
  · split
    · rename_i input existing hstage
      split_ifs
      · exact hs session
      · refine hset s session' _ rfl ?_
        have hhanded := hs session'
        rw [hstage] at hhanded
        exact hhanded
    · exact hs session
  · split
    · refine hset _ session' _ ?_ trivial
      rw [unlock_stage, commitOrder_stage]
    · exact hs session
  · split <;> exact hset _ session' _ rfl trivial

theorem commitOrder_of_ok {result : IngestOrderResult} {tables : CommerceTables}
    (h : s.tables.ingestAfterRead existing visible newOrderId input = .ok (result, tables)) :
    s.commitOrder existing visible newOrderId input =
      { s with tables, committed := s.committed ++ [input] } := by
  unfold commitOrder
  rw [h]

theorem commitOrder_of_error {error : CommerceError}
    (h : s.tables.ingestAfterRead existing visible newOrderId input = .error error) :
    s.commitOrder existing visible newOrderId input = s := by
  unfold commitOrder
  rw [h]

theorem step_cases (s : IngestionSystem) (a : IngestionAction) :
    ((s.step a).tables = s.tables ∧ (s.step a).committed = s.committed
        ∧ ∀ session newOrderId input existing visible, a = .commit session newOrderId →
          s.stage session = .writing input existing visible → ¬∃ result tables,
            s.tables.ingestAfterRead existing visible newOrderId input = .ok (result, tables))
      ∨ ∃ session newOrderId input existing visible result, a = .commit session newOrderId
        ∧ s.stage session = .writing input existing visible
        ∧ s.tables.ingestAfterRead existing visible newOrderId input =
          .ok (result, (s.step a).tables)
        ∧ (s.step a).committed = s.committed ++ [input] := by
  by_cases hcommit : ∀ session newOrderId, a ≠ .commit session newOrderId
  · obtain ⟨htables, hcommitted⟩ := step_kept hcommit
    exact .inl ⟨htables, hcommitted, fun session newOrderId _ _ _ ha =>
      absurd ha (hcommit session newOrderId)⟩
  · simp only [ne_eq, not_forall, not_not] at hcommit
    obtain ⟨session, newOrderId, rfl⟩ := hcommit
    by_cases hwriting : ∀ input existing visible, s.stage session ≠ .writing input existing visible
    · refine .inl ⟨?_, ?_, fun session' newOrderId' input existing visible ha hstage => ?_⟩
      · rw [step_commit_of_not hwriting]
      · rw [step_commit_of_not hwriting]
      · cases ha
        exact absurd hstage (hwriting input existing visible)
    · simp only [ne_eq, not_forall, not_not] at hwriting
      obtain ⟨input, existing, visible, hstage⟩ := hwriting
      obtain ⟨htables, hcommitted⟩ := step_commit newOrderId hstage
      rcases hresult : s.tables.ingestAfterRead existing visible newOrderId input with
        error | ⟨result, tables⟩
      · rw [commitOrder_of_error hresult] at htables hcommitted
        refine .inl ⟨htables, hcommitted, fun session' newOrderId' input' existing' visible' ha
          hstage' => ?_⟩
        cases ha
        rw [hstage, IngestTransaction.writing.injEq] at hstage'
        obtain ⟨rfl, rfl, rfl⟩ := hstage'
        rintro ⟨result, tables, hok⟩
        rw [hresult] at hok
        cases hok
      · rw [commitOrder_of_ok hresult] at htables hcommitted
        rw [htables]
        exact .inr ⟨session, newOrderId, input, existing, visible, result, rfl, hstage, hresult,
          hcommitted⟩

end Steps

end IngestionSystem

end Loxep

import Loxep.Lib.Runs
import Loxep.Proofs.IngestionSpec
import Loxep.Proofs.ItemOrder

/-!
# What is stored of an order

What one ingestion stores, and which observation many of them leave.
-/

/-!
## What is stored of an order is what was observed

After an ingestion without conflicts the order's rows are those of the fact, its lines keep their
ids, and the same fact again changes nothing.
-/

namespace Loxep

/-- Two orders differ in the instants of a sync, and in the ids of attachments, alone. -/
structure StoredOrder.SameButTimes (order order' : StoredOrder) : Prop where
  id : order.id = order'.id
  key : order.key = order'.key
  attribution : order.attribution = order'.attribution
  values : order.values = order'.values
  duplicateOfOrderId : order.duplicateOfOrderId = order'.duplicateOfOrderId
  firstIngestedAt : order.firstIngestedAt = order'.firstIngestedAt
  children : order.children.Same order'.children

namespace CommerceTables

structure Sound (t : CommerceTables) : Prop where
  ids : DistinctIds t.orders
  lines : ∀ order ∈ t.orders, LinesSound order.children.lines t.nextRowId
  fee_references : ∀ reference ∈ t.references.fees, reference.id < t.nextRowId
  fulfillment_references : ∀ reference ∈ t.references.fulfillments, reference.id < t.nextRowId

/-- The ingestion commits; the order's rows are those of the fact, its lines keep their ids, and
another ingestion of the fact leaves the order as it is. -/
def IngestsFaithfully (t : CommerceTables) (newOrderId : OrderId) (input : IngestOrderFactInput)
    : Prop :=
  ∃ result t' order, t.ingestOrderFact newOrderId input = .ok (result, t')
    ∧ t'.orderOf input.key = some order
    ∧ order.values = input.fact.values.stored
    ∧ order.children.Records input.fact
    ∧ (t.storedChildren input.key).KeepsIds order.children
    ∧ ∀ newOrderId' now', ∃ result' t'' order',
      t'.ingestOrderFact newOrderId' { input with now := now' } = .ok (result', t'')
        ∧ t''.orderOf input.key = some order' ∧ order'.SameButTimes order

/-- No row to be deleted is referred to, no shipment names a line twice, and no line without an
external id takes the number of a later one's row. -/
structure Unconflicted (t : CommerceTables) (input : IngestOrderFactInput) : Prop where
  free : RowsFree t.references (t.storedChildren input.key) input.fact
  once : ∀ fulfillment ∈ input.fact.fulfillments, (fulfillment.lines.map (·.lineNumber)).Nodup
  apart : input.fact.lines.Pairwise fun other line => other.externalLineId = none →
    ∀ old ∈ (t.storedChildren input.key).lines, old.externalLineId.isSome →
      old.externalLineId = line.externalLineId → old.lineNumber ≠ other.lineNumber

section Faithful

variable {t t' : CommerceTables} {visible : List StoredOrder} {newOrderId : OrderId}
  {input : IngestOrderFactInput}
  {written : StoredOrder}

theorem Sound.storedChildren (hs : t.Sound) (key : OrderKey) :
    LinesSound (t.storedChildren key).lines t.nextRowId := by
  unfold CommerceTables.storedChildren
  rcases hold : t.orderOf key with _ | old
  · exact ⟨List.nodup_nil, fun _ h => absurd h List.not_mem_nil, List.nodup_nil,
      fun _ h => absurd h List.not_mem_nil, List.nodup_nil⟩
  · exact hs.lines old (orderOf_mem hold)

theorem Ingested.rewritten (hs : t.Sound) (hfact : input.fact.Storable)
    (h : t.Ingested visible newOrderId input t' written) :
    Rewritten (t.storedChildren input.key).lines t.nextRowId input.fact written.children
      t'.nextRowId := by
  have hfree := free_of_rewrite (hs.storedChildren input.key) h.writes.rows
  obtain ⟨after, next, hrewrite, hrewritten⟩ :=
    rewrite_ok (hs.storedChildren input.key) hfact hfree
  rw [h.writes.rows, Except.ok.injEq, Prod.mk.injEq] at hrewrite
  rwa [hrewrite.1, hrewrite.2]

theorem Ingested.sound (hs : t.Sound) (hfact : input.fact.Storable)
    (h : t.Ingested visible newOrderId input t' written) : t'.Sound := by
  have hrewritten := h.rewritten hs hfact
  have hnext := hrewritten.start_le
  refine ⟨h.distinctIds hs.ids, fun order hmem => ?_, ?_, ?_⟩
  · rcases (h.mem_orders order).1 hmem with rfl | ⟨hold, -⟩
    · exact hrewritten.sound hfact
    · have hlines := hs.lines order hold
      exact { hlines with ids_lt := fun row hrow => (hlines.ids_lt row hrow).trans_le hnext }
  · rw [h.references]
    exact fun reference href => (hs.fee_references reference href).trans_le hnext
  · rw [h.references]
    exact fun reference href => (hs.fulfillment_references reference href).trans_le hnext

theorem Ingested.markOf_eq_none_iff (hs : t.Sound)
    (h : t.Ingested t.orders newOrderId input t' written)
    (hunmarked : written.duplicateOfOrderId = none) (hmark : input.markDuplicates = true) :
    markOf t.orders input written = none ↔ ∀ order ∈ t.orders, order.key ≠ input.key →
      order.saleKey = input.fact.saleKey → order.duplicateOfOrderId = none →
        written.rank ≤ order.rank := by
  have hapart : ∀ order ∈ withOrder t.orders written, order.id = written.id → order = written := by
    intro order hmem hid
    rcases mem_withOrder.1 hmem with rfl | ⟨hold, hne⟩
    · rfl
    · rw [h.writes.key] at hne
      exact absurd hid (h.id_apart hs.ids hold hne)
  rw [markOf, if_pos hmark,
    duplicateOf_eq_none_iff hapart self_mem_withOrder h.saleKey hunmarked]
  constructor
  · intro hleast order hmem hne
    rw [← h.writes.key] at hne
    exact hleast order (mem_withOrder_of_ne hmem hne)
  · intro hleast order hmem
    rcases mem_withOrder.1 hmem with rfl | ⟨hold, hne⟩
    · exact fun _ _ => le_rfl
    · rw [h.writes.key] at hne
      exact hleast order hold hne

theorem mark_again (hs : t.Sound) (hfact : input.fact.Storable)
    (h : t.Ingested t.orders newOrderId input t' written) {now' : Timestamp} {newOrderId' : OrderId}
    {t'' : CommerceTables} {written' : StoredOrder}
    (h' : t'.Ingested t'.orders newOrderId' { input with now := now' } t'' written') :
    (markOrder written' (markOf t'.orders { input with now := now' } written')).duplicateOfOrderId =
      (markOrder written (markOf t.orders input written)).duplicateOfOrderId := by
  have hstored : t'.orderOf input.key = some (markOrder written (markOf t.orders input written)) := by
    rw [h.orderOf, if_pos rfl]
  obtain ⟨hid, -, hkept, hfirst⟩ := h'.writes.kept _ hstored
  have hrank : written'.rank = written.rank := by
    unfold StoredOrder.rank
    rw [hid, hfirst]
    rfl
  show written'.duplicateOfOrderId.or _ = _
  rcases hmarked : (markOrder written (markOf t.orders input written)).duplicateOfOrderId
    with _ | other
  · rw [hkept, hmarked, Option.none_or]
    unfold markOrder at hmarked
    rw [Option.or_eq_none_iff] at hmarked
    by_cases hmark : input.markDuplicates = true
    · have hunmarked : written'.duplicateOfOrderId = none := by
        rw [hkept]
        exact Option.or_eq_none_iff.2 hmarked
      rw [h'.markOf_eq_none_iff (h.sound hs hfact) hunmarked hmark, hrank]
      intro order hmem hne
      rcases (h.mem_orders order).1 hmem with rfl | ⟨hold, -⟩
      · exact absurd h.writes.key hne
      · exact (h.markOf_eq_none_iff hs hmarked.1 hmark).1 hmarked.2 order hold hne
    · exact if_neg hmark
  · rw [hkept, hmarked, Option.some_or]

theorem Ingested.storedChildren (h : t.Ingested visible newOrderId input t' written) :
    t'.storedChildren input.key = written.children := by
  unfold CommerceTables.storedChildren
  rw [h.orderOf, if_pos rfl]
  rfl

theorem Ingested.again (hs : t.Sound) (hfact : input.fact.Storable)
    (hconnection : (t.connections.find? (·.id == input.connectionId)).isSome)
    (h : t.Ingested t.orders newOrderId input t' written) (newOrderId' : OrderId) (now' : Timestamp) :
    ∃ result' t'' order', t'.ingestOrderFact newOrderId' { input with now := now' } =
        .ok (result', t'')
      ∧ t''.orderOf input.key = some order'
      ∧ order'.SameButTimes (markOrder written (markOf t.orders input written)) := by
  have hrewritten := h.rewritten hs hfact
  obtain ⟨after, next, hrows, -⟩ :=
    hrewritten.again hfact hs.fee_references hs.fulfillment_references
  rw [← h.storedChildren, ← h.references] at hrows
  have hstored : t'.orderOf input.key = some (markOrder written (markOf t.orders input written)) := by
    rw [h.orderOf, if_pos rfl]
  rw [← h.connections] at hconnection
  have hfresh : t'.orderOf input.key = none → newOrderId' ∉ t'.orders.map (·.id) := by
    rw [hstored]
    intro hnone
    cases hnone
  have hreturns : ∃ result' t'', t'.ingestOrderFact newOrderId' { input with now := now' } =
      .ok (result', t'') :=
    ingestAfterRead_returns _ _ hfact.parsed hfact.fits hfact.provider hconnection hfresh hrows
  obtain ⟨result', t'', hresult⟩ := hreturns
  obtain ⟨written', h'⟩ := ingested_of_ok hresult
  obtain ⟨hid, hattribution, -, hfirst⟩ := h'.writes.kept _ hstored
  have hsame : written'.children.Same written.children := by
    obtain ⟨after', next', hrows', hsame⟩ :=
      hrewritten.again hfact hs.fee_references hs.fulfillment_references
    have hwritten' := h'.writes.rows
    rw [show t'.storedChildren ({ input with now := now' } : IngestOrderFactInput).key =
      written.children from h.storedChildren, h.references] at hwritten'
    rw [hwritten', Except.ok.injEq, Prod.mk.injEq] at hrows'
    rwa [← hrows'.1] at hsame
  refine ⟨result', t'', _, hresult, (h'.orderOf input.key).trans (if_pos rfl), ?_⟩
  exact ⟨hid, h'.writes.key.trans h.writes.key.symm, hattribution,
    h'.writes.values.trans h.writes.values.symm, mark_again hs hfact h h', hfirst, hsame⟩

theorem IngestsFaithfully.unconflicted (hs : t.Sound) (hfact : input.fact.Storable)
    (h : t.IngestsFaithfully newOrderId input) : t.Unconflicted input := by
  obtain ⟨result, t', order, hresult, horder, -, hrecords, hkeeps, -⟩ := h
  obtain ⟨written, h⟩ := ingested_of_ok hresult
  rw [h.orderOf, if_pos rfl, Option.some.injEq] at horder
  subst horder
  have hlines := hs.storedChildren input.key
  have hrewritten := h.rewritten hs hfact
  exact ⟨free_of_rewrite hlines h.writes.rows, (hrewritten.records_iff hfact).1 hrecords,
    (hrewritten.keepsIds_iff hlines hfact).1 hkeeps⟩

/-- An ingestion is faithful exactly where the rows do not conflict. -/
theorem ingests_faithfully_iff (hs : t.Sound) (hfact : input.fact.Storable)
    (hconnection : (t.connections.find? (·.id == input.connectionId)).isSome)
    (hfresh : t.orderOf input.key = none → newOrderId ∉ t.orders.map (·.id)) :
    t.IngestsFaithfully newOrderId input ↔ t.Unconflicted input := by
  refine ⟨fun h => h.unconflicted hs hfact, fun hclear => ?_⟩
  have hlines := hs.storedChildren input.key
  obtain ⟨after, next, hrows, -⟩ := rewrite_ok hlines hfact hclear.free
  obtain ⟨result, t', hresult⟩ :=
    ingestAfterRead_returns (t.orderOf input.key) t.orders hfact.parsed hfact.fits
      hfact.provider hconnection hfresh hrows
  obtain ⟨written, h⟩ := ingested_of_ok hresult
  have hrewritten := h.rewritten hs hfact
  exact ⟨result, t', _, hresult, (h.orderOf input.key).trans (if_pos rfl), h.writes.values,
    (hrewritten.records_iff hfact).2 hclear.once,
    (hrewritten.keepsIds_iff hlines hfact).2 hclear.apart,
    h.again hs hfact hconnection⟩

end Faithful

section Examples

def threeOfOne (modifiedAt : Timestamp) (lines : List CommerceOrderFulfillmentLineFact) :
    CommerceOrderFact where
  provider := "ebay"
  externalOrderId := "26-00001"
  values :=
    { channel := "ebay", sourceAccountKey := "seller", status := "completed",
      paymentStatus := "paid", fulfillmentStatus := "fulfilled", currency := "USD",
      subtotalAmount := 30_000_000, shippingAmount := 0, discountAmount := 0, taxAmount := 0,
      feeAmount := 0, refundedAmount := 0, totalAmount := 30_000_000, placedAt := nineOClock,
      providerUpdatedAt := some modifiedAt }
  lines := [⟨1, some "line-1",
    { quantity := 3_000_000, unitPrice := 10_000_000, lineSubtotal := 30_000_000,
      lineTotal := 30_000_000 }⟩]
  fees := []
  refunds := []
  fulfillments := [⟨{ externalFulfillmentId := some "parcel", status := "shipped" }, lines⟩]
  rawPayload := none
  providerObjectType := "order"

def oneConnection : CommerceTables where
  connections := [⟨1, none⟩]

def shipsAll : IngestOrderFactInput where
  connectionId := 1
  fact := threeOfOne tenOClock [⟨1, 3_000_000⟩]
  now := tenOClock

def shipsByTwo : IngestOrderFactInput where
  connectionId := 1
  fact := threeOfOne tenOClock [⟨1, 1_000_000⟩, ⟨1, 2_000_000⟩]
  now := tenOClock

theorem oneConnection_sound : oneConnection.Sound where
  ids _ h := absurd h List.not_mem_nil
  lines _ h := absurd h List.not_mem_nil
  fee_references _ h := absurd h List.not_mem_nil
  fulfillment_references _ h := absurd h List.not_mem_nil

theorem threeOfOne_storable (modifiedAt : Timestamp) (lines : List CommerceOrderFulfillmentLineFact)
    (hissues : (threeOfOne modifiedAt lines).issues = [])
    (hfits : (threeOfOne modifiedAt lines).fits = true)
    (hnumbers : ∀ line ∈ lines, line.lineNumber = 1) (hpos : ∀ line ∈ lines, 0 < line.quantity) :
    (threeOfOne modifiedAt lines).Storable where
  parsed := hissues
  fits := hfits
  provider := by simp [threeOfOne]
  lines := by constructor <;> simp [threeOfOne]
  fee_ids := by simp [threeOfOne]
  fee_lines := by simp [threeOfOne]
  refund_ids := by simp [threeOfOne]
  refund_lines := by simp [threeOfOne]
  fulfillment_ids := by simp [threeOfOne]
  fulfillment_lines := by simpa [threeOfOne] using hnumbers
  shipped_quantities := by simpa [threeOfOne] using hpos

theorem shipped_at_once_faithful : oneConnection.IngestsFaithfully 7 shipsAll := by
  refine (ingests_faithfully_iff oneConnection_sound
    (threeOfOne_storable _ [⟨1, 3_000_000⟩] (by decide +kernel) (by decide +kernel) (by simp)
      (by simp)) (by decide) (by simp [oneConnection])).2 ?_
  refine ⟨⟨?_, fun _ h => absurd h List.not_mem_nil, fun _ h => absurd h List.not_mem_nil⟩, ?_, ?_⟩
  · intro row hrow
    exact absurd hrow List.not_mem_nil
  · simp [shipsAll, threeOfOne]
  · simp [shipsAll, threeOfOne]

theorem parcel_by_two_unfaithful : ¬oneConnection.IngestsFaithfully 7 shipsByTwo := by
  intro h
  have hclear := h.unconflicted oneConnection_sound
    (threeOfOne_storable _ [⟨1, 1_000_000⟩, ⟨1, 2_000_000⟩] (by decide +kernel)
      (by decide +kernel) (by simp) (by simp))
  have honce : ([1, 1] : List ℤ).Nodup := hclear.once _ (List.mem_singleton_self _)
  simp at honce

end Examples

end CommerceTables

/-!
## The newest observation of an order

What a commit stores is what its own session was handed.
-/

namespace CommerceTables

structure Admits (t : CommerceTables) (newOrderId : OrderId) (input : IngestOrderFactInput) :
    Prop where
  connection : (t.connections.find? (·.id == input.connectionId)).isSome
  fresh : t.orderOf input.key = none → newOrderId ∉ t.orders.map (·.id)
  free : RowsFree t.references (t.storedChildren input.key) input.fact

variable {existing : Option StoredOrder}

theorem connection_of_ok {t t' : CommerceTables} {visible : List StoredOrder} {newOrderId : OrderId}
    {input : IngestOrderFactInput} {result : IngestOrderResult}
    (h : t.ingestAfterRead existing visible newOrderId input = .ok (result, t')) :
    (t.connections.find? (·.id == input.connectionId)).isSome := by
  unfold ingestAfterRead at h
  rw [Except.bind_eq_ok] at h
  obtain ⟨fact, -, h⟩ := h
  rw [Option.isSome_iff_ne_none]
  intro hnone
  rw [hnone] at h
  cases h

theorem commits_iff_admits {t : CommerceTables} {visible : List StoredOrder} {newOrderId : OrderId}
    {input : IngestOrderFactInput} (hs : t.Sound) (hfact : input.fact.Storable) :
    (∃ result t', t.ingestAfterRead existing visible newOrderId input = .ok (result, t')) ↔
      t.Admits newOrderId input := by
  have hlines := hs.storedChildren input.key
  constructor
  · rintro ⟨result, t', h⟩
    obtain ⟨written, hwritten⟩ := ingested_of_ok h
    exact ⟨connection_of_ok h, fun hnone => (hwritten.writes.fresh hnone).2.1,
      free_of_rewrite hlines hwritten.writes.rows⟩
  · intro h
    obtain ⟨after, next, hrows, -⟩ := rewrite_ok hlines hfact h.free
    exact ingestAfterRead_returns existing visible hfact.parsed hfact.fits hfact.provider
      h.connection h.fresh hrows

end CommerceTables

/-- The input hands on what the provider says of the order at an instant it was modified. -/
structure IngestOrderFactInput.Observes (fact : OrderKey → Timestamp → CommerceOrderFact)
    (input : IngestOrderFactInput) : Prop where
  said : ∃ modifiedAt, input.fact = fact input.key modifiedAt
    ∧ input.fact.values.providerUpdatedAt = some modifiedAt
  storable : input.fact.Storable

def IngestOrderFactInput.modifiedAt (input : IngestOrderFactInput) : WithBot Timestamp :=
  input.fact.values.providerUpdatedAt

/-- The row and the rows attached to it are those of the fact. -/
structure StoredOrder.Stores (order : StoredOrder) (fact : CommerceOrderFact) : Prop where
  values : order.values = fact.values.stored
  children : order.children.Records fact

namespace IngestionSystem

def NewestStored (s : IngestionSystem) : Prop :=
  ∀ newest ∈ s.committed,
    (∀ other ∈ s.committed, other.key = newest.key → other.modifiedAt ≤ newest.modifiedAt) →
      ∃ order, s.tables.orderOf newest.key = some order ∧ order.Stores newest.fact

def Newest (s : IngestionSystem) (input : IngestOrderFactInput) : Prop :=
  (∀ other ∈ s.committed, other.key = input.key → other.modifiedAt ≤ input.modifiedAt)
    ∧ ∀ fulfillment ∈ input.fact.fulfillments, (fulfillment.lines.map (·.lineNumber)).Nodup

def CommitsNewest (s : IngestionSystem) : IngestionAction → Prop
  | .commit session newOrderId =>
    match s.stage session with
    | .writing input _ _ => s.tables.Admits newOrderId input → s.Newest input
    | _ => True
  | _ => True

def BeginsWith (fact : OrderKey → Timestamp → CommerceOrderFact) : IngestionAction → Prop
  | .begin _ input => input.Observes fact
  | _ => True

/-- The tables are sound, and what is handed on are observations. -/
structure Observing (fact : OrderKey → Timestamp → CommerceOrderFact) (s : IngestionSystem) :
    Prop where
  sound : s.tables.Sound
  handed : ∀ session, Handed (·.Observes fact) (s.stage session)
  committed : ∀ input ∈ s.committed, input.Observes fact

section Commit

variable {fact : OrderKey → Timestamp → CommerceOrderFact} {s s' : IngestionSystem}
  {a : IngestionAction} {input : IngestOrderFactInput} {visible : List StoredOrder}
  {newOrderId : OrderId} {written : StoredOrder}

theorem newestStored_congr (htables : s'.tables = s.tables)
    (hcommitted : s'.committed = s.committed) : s'.NewestStored ↔ s.NewestStored := by
  unfold NewestStored
  rw [htables, hcommitted]

theorem fact_eq {other : IngestOrderFactInput} (hinput : input.Observes fact)
    (hother : other.Observes fact) (hkey : other.key = input.key)
    (hmodified : other.modifiedAt = input.modifiedAt) : other.fact = input.fact := by
  obtain ⟨modifiedAt, hsaid, hat⟩ := hinput.said
  obtain ⟨modifiedAt', hsaid', hat'⟩ := hother.said
  have hsame : other.fact.values.providerUpdatedAt = input.fact.values.providerUpdatedAt :=
    hmodified
  rw [hat, hat', Option.some.injEq] at hsame
  rw [hsaid, hsaid', hkey, hsame]

theorem exists_newest {inputs : List IngestOrderFactInput} (h : input ∈ inputs) :
    ∃ newest ∈ inputs, newest.key = input.key
      ∧ ∀ other ∈ inputs, other.key = input.key → other.modifiedAt ≤ newest.modifiedAt := by
  rcases hmax : (inputs.filter fun other => other.key == input.key).argmax
      IngestOrderFactInput.modifiedAt with _ | newest
  · rw [List.argmax_eq_none, List.filter_eq_nil_iff] at hmax
    exact absurd (beq_self_eq_true _) (hmax input h)
  · have hmem := List.argmax_mem hmax
    rw [List.mem_filter, beq_iff_eq] at hmem
    refine ⟨newest, hmem.1, hmem.2, fun other hother hkey => ?_⟩
    have hother' : other ∈ inputs.filter fun other => other.key == input.key :=
      List.mem_filter.2 ⟨hother, beq_iff_eq.2 hkey⟩
    exact List.le_of_mem_argmax hother' hmax

theorem newestStored_commit_iff (hs : Observing fact s) (hinput : input.Observes fact)
    (hp : s.NewestStored) (h : s.tables.Ingested visible newOrderId input s'.tables written)
    (hcommitted : s'.committed = s.committed ++ [input]) : s'.NewestStored ↔ s.Newest input := by
  have hrewritten := h.rewritten hs.sound hinput.storable
  have hstored : s'.tables.orderOf input.key =
      some (CommerceTables.markOrder written (CommerceTables.markOf visible input written)) := by
    rw [h.orderOf, if_pos rfl]
  have hself : input ∈ s'.committed := by
    rw [hcommitted]
    exact List.mem_append_right _ (List.mem_singleton_self _)
  constructor
  · intro hp'
    obtain ⟨newest, hmem, hkey, hnewest⟩ := exists_newest hself
    have hsame : input.modifiedAt = newest.modifiedAt := by
      obtain ⟨order, horder, hstores⟩ := hp' newest hmem (by rwa [hkey])
      rw [hkey, hstored, Option.some.injEq] at horder
      subst horder
      have hvalues : input.fact.values.stored = newest.fact.values.stored :=
        h.writes.values.symm.trans hstores.values
      have hstoredAt : input.fact.values.stored.providerUpdatedAt =
          newest.fact.values.stored.providerUpdatedAt := by rw [hvalues]
      exact hstoredAt
    have hleast : ∀ other ∈ s'.committed, other.key = input.key →
        other.modifiedAt ≤ input.modifiedAt := by
      rwa [hsame]
    refine ⟨fun other hother => hleast other ?_, ?_⟩
    · rw [hcommitted]
      exact List.mem_append_left _ hother
    · obtain ⟨order, horder, hstores⟩ := hp' input hself hleast
      rw [hstored, Option.some.injEq] at horder
      subst horder
      exact (hrewritten.records_iff hinput.storable).1 hstores.children
  · rintro ⟨hlast, honce⟩ newest hmem hnewest
    by_cases hkey : newest.key = input.key
    · have hnewestLe : newest.modifiedAt ≤ input.modifiedAt := by
        rw [hcommitted] at hmem
        rcases List.mem_append.1 hmem with hold | hself'
        · exact hlast newest hold hkey
        · rw [List.mem_singleton.1 hself']
      have hobserves : newest.Observes fact := by
        rw [hcommitted] at hmem
        rcases List.mem_append.1 hmem with hold | hself'
        · exact hs.committed newest hold
        · rwa [List.mem_singleton.1 hself']
      have hfact := fact_eq hinput hobserves hkey
        (hnewestLe.antisymm (hnewest input hself hkey.symm))
      rw [hkey, hfact]
      exact ⟨_, hstored, h.writes.values, (hrewritten.records_iff hinput.storable).2 honce⟩
    · have hold : newest ∈ s.committed := by
        rw [hcommitted] at hmem
        rcases List.mem_append.1 hmem with hold | hself'
        · exact hold
        · exact absurd (congrArg IngestOrderFactInput.key (List.mem_singleton.1 hself')) hkey
      rw [h.orderOf, if_neg hkey]
      refine hp newest hold fun other hother => hnewest other ?_
      rw [hcommitted]
      exact List.mem_append_left _ hother

end Commit

section Run

variable {fact : OrderKey → Timestamp → CommerceOrderFact} {s : IngestionSystem}
  {a : IngestionAction}

theorem observing_step (ha : BeginsWith fact a) (hs : Observing fact s) :
    Observing fact (s.step a) := by
  have hhanded : ∀ session, Handed (·.Observes fact) ((s.step a).stage session) :=
    handed_step hs.handed fun session input heq => by
      rw [heq] at ha
      exact ha
  rcases step_cases s a with ⟨htables, hcommitted, -⟩ |
    ⟨session, newOrderId, input, existing, visible, result, -, hstage, hok, hcommitted⟩
  · exact ⟨htables ▸ hs.sound, hhanded, hcommitted ▸ hs.committed⟩
  · have hinput := hs.handed session
    rw [hstage] at hinput
    obtain ⟨written, hingested⟩ := CommerceTables.ingested_of_ok hok
    refine ⟨hingested.sound hs.sound hinput.storable, hhanded, ?_⟩
    rw [hcommitted]
    intro other hother
    rcases List.mem_append.1 hother with hold | hself
    · exact hs.committed other hold
    · rwa [List.mem_singleton.1 hself]

theorem newestStored_step_iff (hs : Observing fact s) (hp : s.NewestStored) :
    (s.step a).NewestStored ↔ s.CommitsNewest a := by
  rcases step_cases s a with ⟨htables, hcommitted, hfails⟩ |
    ⟨session, newOrderId, input, existing, visible, result, rfl, hstage, hok, hcommitted⟩
  · refine iff_of_true ((newestStored_congr htables hcommitted).2 hp) ?_
    rcases a with _ | _ | ⟨session, newOrderId⟩ | _
    · trivial
    · trivial
    · simp only [CommitsNewest]
      split
      · rename_i input existing visible hstage
        have hinput := hs.handed session
        rw [hstage] at hinput
        intro hadmits
        exact absurd ((CommerceTables.commits_iff_admits hs.sound hinput.storable).2 hadmits)
          (hfails session newOrderId input existing visible rfl hstage)
      · trivial
    · trivial
  · have hinput := hs.handed session
    rw [hstage] at hinput
    obtain ⟨written, hingested⟩ := CommerceTables.ingested_of_ok hok
    rw [newestStored_commit_iff hs hinput hp hingested hcommitted]
    simp only [CommitsNewest, hstage]
    have hadmits := (CommerceTables.commits_iff_admits hs.sound hinput.storable).1 ⟨_, _, hok⟩
    exact ⟨fun h _ => h, fun h => h hadmits⟩

/-- However the sessions interleave, an order is stored as its newest committed observation has it
exactly if every commit is of one that is not older, and ships no line twice. -/
theorem newest_wins_iff (hs : s.tables.Sound) (hidle : ∀ session, s.stage session = .idle)
    (hnone : s.committed = []) {actions : List IngestionAction}
    (hbegin : ∀ a ∈ actions, BeginsWith fact a) :
    Runs.Along step NewestStored s actions ↔ Runs.Meets step CommitsNewest s actions := by
  have hobserving : Observing fact s := by
    refine ⟨hs, fun session => ?_, ?_⟩
    · rw [hidle]
      trivial
    · rw [hnone]
      exact fun _ h => absurd h List.not_mem_nil
  have hstored : s.NewestStored := by
    unfold NewestStored
    rw [hnone]
    exact fun _ h => absurd h List.not_mem_nil
  have hinv : ∀ s a, BeginsWith fact a → Observing fact s → NewestStored s →
      Observing fact (step s a) := fun _ _ ha hs _ => observing_step ha hs
  exact Runs.along_iff_meets_of_forall hinv (fun _ _ _ hs hp => newestStored_step_iff hs hp)
    hbegin hobserving hstored

end Run

section Examples

open CommerceTables

def packedByTen (modifiedAt : Timestamp) : CommerceOrderFact :=
  threeOfOne modifiedAt (if modifiedAt = tenOClock then [⟨1, 3_000_000⟩] else [])

def seenAt (modifiedAt : Timestamp) : IngestOrderFactInput where
  connectionId := 1
  fact := packedByTen modifiedAt
  now := tenOClock

theorem seenAt_observes (modifiedAt : Timestamp) (h : (packedByTen modifiedAt).issues = [])
    (hfits : (packedByTen modifiedAt).fits = true) :
    (seenAt modifiedAt).Observes fun _ => packedByTen where
  said := ⟨modifiedAt, rfl, rfl⟩
  storable := by
    refine threeOfOne_storable _ _ h hfits ?_ ?_ <;> split_ifs <;> simp

def idleSessions : IngestionSystem where
  tables := oneConnection

def pollAfterJob : List IngestionAction :=
  [.begin 0 (seenAt nineOClock), .begin 1 (seenAt tenOClock), .write 1, .write 0, .commit 1 7,
    .write 0, .commit 0 8]

def jobAfterPoll : List IngestionAction :=
  [.begin 0 (seenAt nineOClock), .begin 1 (seenAt tenOClock), .write 0, .write 1, .commit 0 7,
    .write 1, .commit 1 8]

theorem begins_observing {actions : List IngestionAction}
    (h : ∀ a ∈ actions, ∀ session input, a = .begin session input →
      input = seenAt nineOClock ∨ input = seenAt tenOClock) :
    ∀ a ∈ actions, BeginsWith (fun _ => packedByTen) a := by
  intro a ha
  rcases a with ⟨session, input⟩ | _ | _ | _
  · rcases h _ ha session input rfl with rfl | rfl
    · exact seenAt_observes _ (by decide +kernel) (by decide +kernel)
    · exact seenAt_observes _ (by decide +kernel) (by decide +kernel)
  · trivial
  · trivial
  · trivial

instance (s : IngestionSystem) (input : IngestOrderFactInput) : Decidable (s.Newest input) := by
  unfold Newest
  infer_instance

def inOrder (s : IngestionSystem) : IngestionAction → Bool
  | .commit session _ =>
    match s.stage session with
    | .writing input _ _ => decide (s.Newest input)
    | _ => true
  | _ => true

theorem commitsNewest_of_inOrder {s : IngestionSystem} {a : IngestionAction}
    (h : s.inOrder a = true) : s.CommitsNewest a := by
  rcases a with _ | _ | ⟨session, newOrderId⟩ | _
  · trivial
  · trivial
  · simp only [inOrder] at h
    simp only [CommitsNewest]
    split
    · rename_i input existing visible hstage
      rw [hstage] at h
      exact fun _ => of_decide_eq_true h
    · trivial
  · trivial

theorem job_after_poll_newest : Runs.Along step NewestStored idleSessions jobAfterPoll := by
  refine (newest_wins_iff oneConnection_sound (fun _ => rfl) rfl (begins_observing ?_)).2 ?_
  · simp [jobAfterPoll]
  · have hmeets : Runs.Meets step (fun s a => s.inOrder a = true) idleSessions jobAfterPoll := by
      decide +kernel
    have hkeeps : ∀ (s : IngestionSystem) (a : IngestionAction), True → s.inOrder a = true → True :=
      fun _ _ _ _ => trivial
    exact hmeets.of_invariant hkeeps (fun _ _ _ h => commitsNewest_of_inOrder h) trivial

theorem poll_overwrites_newer : ¬Runs.Along step NewestStored idleSessions pollAfterJob := by
  intro h
  have hcommitted : (Runs.run step idleSessions pollAfterJob).committed.map
      (fun input => (input.key, input.modifiedAt)) =
        [((seenAt tenOClock).key, (seenAt tenOClock).modifiedAt),
          ((seenAt nineOClock).key, (seenAt nineOClock).modifiedAt)] := by
    decide +kernel
  have hstored : ((Runs.run step idleSessions pollAfterJob).tables.orderOf
      (seenAt tenOClock).key).map (·.values.providerUpdatedAt) = some (some nineOClock) := by
    decide +kernel
  have hmem : ((seenAt tenOClock).key, (seenAt tenOClock).modifiedAt) ∈
      (Runs.run step idleSessions pollAfterJob).committed.map
        fun input => (input.key, input.modifiedAt) := by
    rw [hcommitted]
    exact List.mem_cons_self
  obtain ⟨newest, hnewest, hsame⟩ := List.mem_map.1 hmem
  obtain ⟨hkey, hmodified⟩ := Prod.mk.inj hsame
  have hlast : ∀ other ∈ (Runs.run step idleSessions pollAfterJob).committed,
      other.key = newest.key → other.modifiedAt ≤ newest.modifiedAt := by
    intro other hother _
    have hother' := List.mem_map_of_mem (f := fun input : IngestOrderFactInput =>
      (input.key, input.modifiedAt)) hother
    rw [hcommitted, List.mem_pair, Prod.mk.injEq, Prod.mk.injEq] at hother'
    rw [hmodified]
    rcases hother' with ⟨-, hten⟩ | ⟨-, hnine⟩
    · rw [hten]
    · rw [hnine]
      decide +kernel
  obtain ⟨order, horder, hstores⟩ := h.last newest hnewest hlast
  rw [hkey] at horder
  rw [horder, Option.map_some, Option.some.injEq, hstores.values] at hstored
  have hnine : newest.modifiedAt = (seenAt nineOClock).modifiedAt := hstored
  rw [hmodified] at hnine
  revert hnine
  decide +kernel

end Examples

end IngestionSystem

end Loxep

import Loxep.Proofs.CanonicalOrder
import Loxep.Proofs.EngineSpec

/-!
# Observations that report no change

The effect of an observation is judged by nine scalars joined into one text, while everything else
about the order is rewritten whatever the effect is.
-/

namespace Loxep

section Lines

variable {matches' : LineIds} {state result : LineRewrite} {line : CommerceOrderLineFact}
  {lines : List CommerceOrderLineFact} {existing : List StoredOrderLine} {start : ℕ}
  {references : List InboundReference}

theorem LineIds.mem_of_at {ids : LineIds} {n : ℤ} {id : OrderLineId} (h : ids.at n = some id) :
    n ∈ ids.map (·.1) := by
  unfold LineIds.at at h
  obtain ⟨entry, hfound, -⟩ := Option.map_eq_some_iff.1 h
  have hn : entry.1 = n := by simpa using List.find?_some hfound
  rw [← hn]
  exact List.mem_map_of_mem (List.mem_reverse.1 (List.mem_of_find?_eq_some hfound))

theorem LineRewrite.writeLine_eq_ok (h : state.writeLine matches' line = .ok result) :
    0 < line.values.quantity ∧
      result.lineIdByNumber.map (·.1) = state.lineIdByNumber.map (·.1) ++ [line.lineNumber] ∧
      ∀ row ∈ result.rows, row ∈ state.rows ∨ row.fact = line := by
  unfold writeLine at h
  rcases hid : matches'.at line.lineNumber with _ | id
  · rw [hid] at h
    simp only [checkLineRow, Except.bind_eq_ok, Except.require_eq_ok, Except.pure_eq_ok] at h
    obtain ⟨_, ⟨_, hquantity, -⟩, rfl⟩ := h
    refine ⟨hquantity, by rw [List.map_append, List.map_singleton], fun row hrow => ?_⟩
    rcases List.mem_append.1 hrow with hrow | hrow
    · exact .inl hrow
    · rw [List.mem_singleton.1 hrow]
      exact .inr rfl
  · rw [hid] at h
    simp only [checkLineRow, Except.bind_eq_ok, Except.require_eq_ok, Except.pure_eq_ok] at h
    obtain ⟨_, ⟨_, hquantity, -⟩, rfl⟩ := h
    refine ⟨hquantity, by rw [List.map_append, List.map_singleton], fun row hrow => ?_⟩
    obtain ⟨old, hold, rfl⟩ := List.mem_map.1 hrow
    split_ifs
    · exact .inr rfl
    · exact .inl hold

theorem LineRewrite.writeLines_eq_ok (h : state.writeLines matches' lines = .ok result) :
    (∀ line ∈ lines, 0 < line.values.quantity) ∧
      result.lineIdByNumber.map (·.1) =
        state.lineIdByNumber.map (·.1) ++ lines.map (·.lineNumber) ∧
      ∀ row ∈ result.rows, row ∈ state.rows ∨ row.fact ∈ lines := by
  induction lines generalizing state with
  | nil =>
    cases h
    exact ⟨fun _ hline => absurd hline List.not_mem_nil, by simp, fun _ => .inl⟩
  | cons line lines ih =>
    rw [writeLines, Except.bind_eq_ok] at h
    obtain ⟨written, hwritten, h⟩ := h
    obtain ⟨hquantity, hnumber, hrow⟩ := writeLine_eq_ok hwritten
    obtain ⟨hquantities, hnumbers, hrows⟩ := ih h
    refine ⟨fun l hl => ?_, ?_, fun row hmem => ?_⟩
    · rcases List.mem_cons.1 hl with rfl | hl
      · exact hquantity
      · exact hquantities l hl
    · rw [hnumbers, hnumber, List.append_assoc, List.singleton_append, List.map_cons]
    · rcases hrows row hmem with hmem | hmem
      · rcases hrow row hmem with hmem | heq
        · exact .inl hmem
        · exact .inr (List.mem_cons.2 (.inl heq))
      · exact .inr (List.mem_cons_of_mem _ hmem)

theorem rewriteLines_eq_ok (hs : LinesSound existing start)
    (h : rewriteLines references existing start lines = .ok result) :
    (∀ line ∈ lines, 0 < line.values.quantity) ∧
      result.lineIdByNumber.map (·.1) = lines.map (·.lineNumber) ∧
      ∀ row ∈ result.rows, 0 < row.lineNumber → row.fact ∈ lines := by
  simp only [rewriteLines, Except.bind_eq_ok] at h
  obtain ⟨_, -, hwritten⟩ := h
  obtain ⟨hquantities, hnumbers, hrows⟩ := LineRewrite.writeLines_eq_ok hwritten
  refine ⟨hquantities, hnumbers, fun row hrow hpos =>
    (hrows row hrow).resolve_left fun hparked => ?_⟩
  split_ifs at hparked with hnone
  · rw [hnone] at hparked
    simp at hparked
  · obtain ⟨old, hold, rfl⟩ := List.mem_map.1 hparked
    exact (StoredOrderLine.park_neg (hs.numbers_pos old (List.mem_filter.1 hold).1)).not_gt hpos

theorem LinesSound.storable (hs : LinesSound existing start)
    (hperm : (existing.map StoredOrderLine.fact).Perm lines)
    (hquantities : ∀ line ∈ lines, 0 < line.values.quantity) : LinesStorable lines where
  numbers_nodup := by
    rw [← (hperm.map _).nodup_iff, List.map_map]
    exact hs.numbers_nodup
  numbers_pos line hline := by
    obtain ⟨row, hrow, rfl⟩ := List.mem_map.1 (hperm.mem_iff.2 hline)
    exact hs.numbers_pos row hrow
  externals_nodup := by
    rw [← (hperm.filterMap _).nodup_iff, List.filterMap_map]
    exact hs.externals_nodup
  quantities := hquantities

end Lines

section Attachments

variable {existing : List StoredOrderLine} {start : ℕ} {lines : List CommerceOrderLineFact}
  {result : LineRewrite}

theorem insertEach_reads {α β γ : Type} {insert : List β → α → CommerceResult β} {reads : β → γ}
    {said : α → γ} (h : ∀ stored fact row, insert stored fact = .ok row → reads row = said fact)
    {facts : List α} : ∀ {stored rows : List β}, insertEach insert stored facts = .ok rows →
      rows.map reads = stored.map reads ++ facts.map said := by
  induction facts with
  | nil =>
    intro stored rows hrows
    cases hrows
    rw [List.map_nil, List.append_nil]
  | cons fact facts ih =>
    intro stored rows hrows
    rw [insertEach, Except.bind_eq_ok] at hrows
    obtain ⟨row, hrow, hrows⟩ := hrows
    rw [ih hrows, List.map_append, List.map_singleton, h stored fact row hrow, List.append_assoc,
      List.singleton_append, List.map_cons]

section

variable (h : LinesWritten existing start lines result)
include h

theorem LinesWritten.at_number
    (hnumbers : result.lineIdByNumber.map (·.1) = lines.map (·.lineNumber)) {n : ℤ}
    {id : OrderLineId} (hat : result.lineIdByNumber.at n = some id) :
    lineNumberOf result.rows id = some n := by
  obtain ⟨id', hat', hnumber⟩ := h.resolve (hnumbers ▸ LineIds.mem_of_at hat)
  rw [hat, Option.some.injEq] at hat'
  rw [hat', hnumber]

theorem resolveLineId_number (hnumbers : result.lineIdByNumber.map (·.1) = lines.map (·.lineNumber))
    {lineNumber : Option ℤ} {id : Option OrderLineId}
    (hid : resolveLineId result.lineIdByNumber lineNumber = .ok id) :
    id.bind (lineNumberOf result.rows) = lineNumber := by
  rcases lineNumber with _ | n
  · cases hid
    rfl
  · rw [resolveLineId] at hid
    rcases hat : result.lineIdByNumber.at n with _ | lineId
    · rw [hat] at hid
      cases hid
    · rw [hat] at hid
      cases hid
      exact h.at_number hnumbers hat

theorem fulfillmentLines_kept
    (hnumbers : result.lineIdByNumber.map (·.1) = lines.map (·.lineNumber))
    {shipped : List CommerceOrderFulfillmentLineFact} : ∀ {seen : List ℤ}
      {rows : List StoredFulfillmentLine},
      fulfillmentLines result.lineIdByNumber seen shipped = .ok rows →
      rows.map (fun row => (lineNumberOf result.rows row.orderLineId, row.quantity)) =
        (onceEach seen shipped).map fun line => (some line.lineNumber, line.quantity) := by
  induction shipped with
  | nil =>
    intro seen rows hrows
    cases hrows
    rfl
  | cons line rest ih =>
    intro seen rows hrows
    rw [fulfillmentLines] at hrows
    rw [onceEach]
    split_ifs at hrows ⊢
    · exact ih hrows
    · rcases hat : result.lineIdByNumber.at line.lineNumber with _ | id
      · rw [hat] at hrows
        cases hrows
      · rw [hat] at hrows
        simp only [Except.bind_eq_ok, Except.pure_eq_ok] at hrows
        obtain ⟨others, hothers, rfl⟩ := hrows
        rw [List.map_cons, List.map_cons, ih hothers, h.at_number hnumbers hat]

end

variable {references : InboundReferences} {children after : OrderChildren}
  {fact : CommerceOrderFact} {next : ℕ}

theorem rewrite_reads (hs : LinesSound children.lines start) (hl : LinesStorable fact.lines)
    (h : children.rewrite references start fact = .ok (after, next)) :
    (∃ result, LinesWritten children.lines start fact.lines result ∧ result.rows = after.lines) ∧
      after.fees.map (StoredOrderFee.fact after.lines) = fact.fees.map (·.stored) ∧
      after.refunds.map (StoredOrderRefund.fact after.lines) = fact.refunds.map (·.stored) ∧
      after.fulfillments.map
          (fun fulfillment => (fulfillment.values, fulfillment.shippedLines after.lines)) =
        fact.fulfillments.map fun fulfillment => (fulfillment.values.stored, fulfillment.kept) := by
  have hfree := free_of_rewrite hs h
  simp only [OrderChildren.rewrite, Except.bind_eq_ok, Except.pure_eq_ok] at h
  obtain ⟨result, hresult, _, -, _, -, fees, hfees, refunds, hrefunds, fulfillments,
    hfulfillments, heq⟩ := h
  obtain ⟨rfl, rfl⟩ := Prod.mk.inj heq
  obtain ⟨result', hresult', hwritten⟩ := rewriteLines_ok hs hl hfree.lines
  rw [hresult] at hresult'
  cases hresult'
  obtain ⟨-, hnumbers, -⟩ := rewriteLines_eq_ok hs hresult
  refine ⟨⟨result, hwritten, rfl⟩, ?_, ?_, ?_⟩
  · refine insertEach_reads (fun stored fee row hrow => ?_) hfees
    simp only [insertFee, Except.bind_eq_ok, Except.pure_eq_ok] at hrow
    obtain ⟨id, hid, _, -, rfl⟩ := hrow
    rw [StoredOrderFee.fact, CommerceOrderFeeFact.stored,
      resolveLineId_number hwritten hnumbers hid]
  · refine insertEach_reads (fun stored refund row hrow => ?_) hrefunds
    simp only [insertRefund, Except.bind_eq_ok, Except.pure_eq_ok] at hrow
    obtain ⟨_, -, touched, htouched, rfl⟩ := hrow
    have hlines : touched.map (StoredRefundLine.fact result.rows) = refund.lines.map id := by
      refine insertEach_reads (fun stored line row hrow => ?_) htouched
      simp only [insertRefundLine, Except.bind_eq_ok, Except.pure_eq_ok] at hrow
      obtain ⟨id, hid, rfl⟩ := hrow
      rw [StoredRefundLine.fact, resolveLineId_number hwritten hnumbers hid]
      rfl
    rw [StoredOrderRefund.fact, CommerceOrderRefundFact.stored, hlines, List.map_id]
  · refine insertEach_reads (fun stored fulfillment row hrow => ?_) hfulfillments
    simp only [insertFulfillment, Except.bind_eq_ok, Except.pure_eq_ok] at hrow
    obtain ⟨_, -, shipped, hshipped, _, -, _, -, rfl⟩ := hrow
    rw [StoredOrderFulfillment.shippedLines, CommerceOrderFulfillmentFact.kept,
      fulfillmentLines_kept hwritten hnumbers hshipped]

theorem lines_of_rewrite (hs : LinesSound children.lines start)
    (h : children.rewrite references start fact = .ok (after, next))
    (hsame : children.lines.Perm after.lines) (hlength : children.lines.length = fact.lines.length)
    :
    (children.lines.map StoredOrderLine.fact).Perm fact.lines := by
  simp only [OrderChildren.rewrite, Except.bind_eq_ok, Except.pure_eq_ok] at h
  obtain ⟨result, hresult, _, -, _, -, fees, -, refunds, -, fulfillments, -, heq⟩ := h
  obtain ⟨rfl, rfl⟩ := Prod.mk.inj heq
  obtain ⟨-, -, hrows⟩ := rewriteLines_eq_ok hs hresult
  have hnodup : (children.lines.map StoredOrderLine.fact).Nodup := by
    refine List.Nodup.of_map (·.lineNumber) ?_
    rw [List.map_map]
    exact hs.numbers_nodup
  have hsub : children.lines.map StoredOrderLine.fact ⊆ fact.lines := by
    intro line hline
    obtain ⟨row, hrow, rfl⟩ := List.mem_map.1 hline
    exact hrows row (hsame.mem_iff.1 hrow) (hs.numbers_pos row hrow)
  refine (hnodup.subperm hsub).perm_of_length_le ?_
  rw [List.length_map, hlength]

theorem quantities_of_rewrite (hs : LinesSound children.lines start)
    (h : children.rewrite references start fact = .ok (after, next)) :
    ∀ line ∈ fact.lines, 0 < line.values.quantity := by
  simp only [OrderChildren.rewrite, Except.bind_eq_ok] at h
  obtain ⟨result, hresult, -⟩ := h
  exact (rewriteLines_eq_ok hs hresult).1

end Attachments

theorem orderSignature_lines {values : OrderValues} {n m : ℕ}
    (h : orderSignature values n = orderSignature values m) : n = m := by
  simp only [orderSignature, String.intercalate_cons_cons, String.intercalate_singleton,
    String.append_assoc, String.append_right_inj] at h
  exact toString_injective (congrArg String.toList h)

namespace StoredOrder

variable {order after : StoredOrder} {fact : CommerceOrderFact}

/-- The order's columns are what they were, and its rows say what they said; when it was synced
last is left aside. -/
structure Unmoved (order after : StoredOrder) : Prop where
  id : after.id = order.id
  key : after.key = order.key
  attribution : after.attribution = order.attribution
  values : after.values = order.values
  duplicateOfOrderId : after.duplicateOfOrderId = order.duplicateOfOrderId
  firstIngestedAt : after.firstIngestedAt = order.firstIngestedAt
  children : order.children.Same after.children

structure Repeats (order : StoredOrder) (fact : CommerceOrderFact) : Prop where
  values : order.values = fact.values.stored
  lines : (order.children.lines.map StoredOrderLine.fact).Perm fact.lines
  fees : order.children.fees.map (StoredOrderFee.fact order.children.lines) =
    fact.fees.map (·.stored)
  refunds : order.children.refunds.map (StoredOrderRefund.fact order.children.lines) =
    fact.refunds.map (·.stored)
  fulfillments : order.children.fulfillments.map
      (fun fulfillment => (fulfillment.values, fulfillment.shippedLines order.children.lines)) =
    fact.fulfillments.map fun fulfillment => (fulfillment.values.stored, fulfillment.kept)

end StoredOrder

section Children

variable {references : InboundReferences} {order : StoredOrder} {after : OrderChildren}
  {fact : CommerceOrderFact} {start next : ℕ}

theorem StoredOrder.Repeats.same (h : order.Repeats fact)
    (hs : LinesSound order.children.lines start)
    (hrewrite : order.children.rewrite references start fact = .ok (after, next)) :
    order.children.Same after := by
  have hl := hs.storable h.lines (quantities_of_rewrite hs hrewrite)
  obtain ⟨⟨result, hwritten, hrows⟩, hfees, hrefunds, hfulfillments⟩ := rewrite_reads hs hl hrewrite
  have hown : ∀ line ∈ fact.lines, ∃ id, .write line id ∈ order.children.lines := by
    intro line hline
    obtain ⟨row, hrow, rfl⟩ := List.mem_map.1 (h.lines.mem_iff.2 hline)
    exact ⟨row.id, hrow⟩
  have hall : ∀ row ∈ order.children.lines, ∃ line ∈ fact.lines, row = .write line row.id :=
    fun row hrow => ⟨row.fact, h.lines.mem_iff.1 (List.mem_map_of_mem hrow), rfl⟩
  refine ⟨?_, h.fees.trans hfees.symm, h.refunds.trans hrefunds.symm,
    h.fulfillments.trans hfulfillments.symm⟩
  rw [← hrows]
  exact (hwritten.kept_perm hs hl hown hall).symm

theorem StoredOrder.repeats_of_same (hs : LinesSound order.children.lines start)
    (hrewrite : order.children.rewrite references start fact = .ok (after, next))
    (hvalues : order.values = fact.values.stored) (hsame : order.children.Same after)
    (hlength : order.children.lines.length = fact.lines.length) : order.Repeats fact := by
  have hlines := lines_of_rewrite hs hrewrite hsame.lines hlength
  have hl := hs.storable hlines (quantities_of_rewrite hs hrewrite)
  obtain ⟨-, hfees, hrefunds, hfulfillments⟩ := rewrite_reads hs hl hrewrite
  exact ⟨hvalues, hlines, hsame.fees.trans hfees, hsame.refunds.trans hrefunds,
    hsame.fulfillments.trans hfulfillments⟩

end Children

namespace CommerceTables

variable {t t' : CommerceTables} {input : IngestOrderFactInput} {order written : StoredOrder}
  {newOrderId : OrderId} {result : IngestOrderResult}

def LeavesMark (t : CommerceTables) (input : IngestOrderFactInput) (order : StoredOrder) : Prop :=
  input.markDuplicates = true → order.duplicateOfOrderId = none →
    ∀ other ∈ t.orders, other.saleKey = input.fact.saleKey → other.duplicateOfOrderId = none →
      order.rank ≤ other.rank

theorem effect_of_ok {existing : Option StoredOrder} {visible : List StoredOrder}
    (h : t.ingestAfterRead existing visible newOrderId input = .ok (result, t')) :
    result.effect = ingestEffect existing input.fact := by
  unfold ingestAfterRead at h
  rw [Except.bind_eq_ok] at h
  obtain ⟨fact, hparse, h⟩ := h
  obtain ⟨-, rfl⟩ := parse_eq_ok.1 hparse
  rcases hconnection : t.connections.find? (·.id == input.connectionId) with _ | connection
  · rw [hconnection] at h
    cases h
  · rw [hconnection] at h
    simp only [Except.bind_eq_ok, Except.pure_eq_ok, Prod.mk.injEq] at h
    obtain ⟨-, -, _, -, _, -, rfl, -⟩ := h
    rfl

theorem Ingested.mark_kept_iff (hi : t.Indexed) (horder : t.orderOf input.key = some order)
    (h : t.Ingested t.orders newOrderId input t' written) :
    (markOrder written (markOf t.orders input written)).duplicateOfOrderId =
        order.duplicateOfOrderId ↔ t.LeavesMark input order := by
  obtain ⟨hid, -, hmark, hfirst⟩ := h.writes.kept order horder
  have hrank : written.rank = order.rank := by
    unfold StoredOrder.rank
    rw [hid, hfirst]
  unfold markOrder markOf LeavesMark
  rw [hmark]
  by_cases hmarks : input.markDuplicates = true
  · rw [if_pos hmarks]
    simp only [hmarks, true_imp_iff]
    rcases hold : order.duplicateOfOrderId with _ | canonical
    · rw [Option.none_or]
      rw [hold] at hmark
      have hdistinct : ∀ other ∈ withOrder t.orders written, other.id = written.id →
          other = written := by
        intro other hother heq
        rcases mem_withOrder.1 hother with rfl | ⟨hmem, hne⟩
        · rfl
        · rw [h.writes.key] at hne
          exact absurd heq (h.id_apart hi.ids hmem hne)
      rw [duplicateOf_eq_none_iff hdistinct self_mem_withOrder h.saleKey hmark, hrank]
      simp only [true_imp_iff]
      constructor
      · intro hleast other hother hsale hunmarked
        by_cases hkey : other.key = input.key
        · have hsame := hi.keys other hother
          rw [hkey, horder, Option.some.injEq] at hsame
          rw [hsame]
        · exact hleast other (mem_withOrder.2 (.inr ⟨hother, h.writes.key ▸ hkey⟩)) hsale hunmarked
      · intro hleast other hother hsale hunmarked
        rcases mem_withOrder.1 hother with rfl | ⟨hmem, -⟩
        · exact hrank.ge
        · exact hleast other hmem hsale hunmarked
    · simp
  · simp [hmarks]

/-- An observation that is reported unchanged leaves the order as it was exactly if, where its
signature is that of the order, it repeats the order and the order gets no mark. -/
theorem unchanged_iff (hi : t.Indexed) (horder : t.orderOf input.key = some order)
    (hs : LinesSound order.children.lines t.nextRowId)
    (h : t.ingestOrderFact newOrderId input = .ok (result, t')) :
    (result.effect = .unchanged →
      ∃ after, t'.orderOf input.key = some after ∧ order.Unmoved after) ↔
    (orderSignature order.values order.children.lines.length =
        orderSignature input.fact.values input.fact.lines.length →
      order.Repeats input.fact ∧ t.LeavesMark input order) := by
  obtain ⟨written, hingested⟩ := ingested_of_ok h
  have heffect := effect_of_ok h
  rw [horder] at heffect
  obtain ⟨hid, hattribution, hmark, hfirst⟩ := hingested.writes.kept order horder
  have hafter : t'.orderOf input.key =
      some (markOrder written (markOf t.orders input written)) := by
    rw [hingested.orderOf, if_pos rfl]
  have hrewrite := hingested.writes.rows
  unfold storedChildren at hrewrite
  rw [horder] at hrewrite
  have hunchanged : result.effect = .unchanged ↔
      orderSignature order.values order.children.lines.length =
        orderSignature input.fact.values input.fact.lines.length := by
    rw [heffect]
    simp only [ingestEffect]
    split_ifs with heq <;> simp [heq]
  rw [hunchanged]
  refine imp_congr_right fun hsignature => ?_
  constructor
  · rintro ⟨after, hfound, hunmoved⟩
    rw [hafter, Option.some.injEq] at hfound
    subst hfound
    have hvalues : order.values = input.fact.values.stored :=
      hunmoved.values.symm.trans hingested.writes.values
    have hlength : order.children.lines.length = input.fact.lines.length := by
      have hstored : orderSignature input.fact.values order.children.lines.length =
          orderSignature input.fact.values input.fact.lines.length := by
        rw [← hsignature, hvalues]
        rfl
      exact orderSignature_lines hstored
    exact ⟨StoredOrder.repeats_of_same hs hrewrite hvalues hunmoved.children hlength,
      (hingested.mark_kept_iff hi horder).1 hunmoved.duplicateOfOrderId⟩
  · rintro ⟨hrepeats, hleaves⟩
    exact ⟨_, hafter, hid, hingested.writes.key.trans (orderOf_key horder).symm, hattribution,
      hingested.writes.values.trans hrepeats.values.symm,
      (hingested.mark_kept_iff hi horder).2 hleaves, hfirst, hrepeats.same hs hrewrite⟩

end CommerceTables

namespace ShippingSplit

def observed (shipping : Money) : IngestOrderFactInput :=
  let input := IngestionSystem.observedBy 1 "seller"
  { input with
    fact.values.subtotalAmount := 30_000_000 - shipping, fact.values.shippingAmount := shipping }

def stored : StoredOrder where
  id := 1
  key := (observed 0).key
  attribution := ⟨none, .unattributed, none⟩
  values := (observed 0).fact.values.stored
  duplicateOfOrderId := none
  firstIngestedAt := tenOClock
  lastSyncedAt := tenOClock
  children := {}

def shop : CommerceTables where
  connections := [⟨1, none⟩]
  orders := [stored]

theorem shop_indexed : shop.Indexed := by
  refine ⟨fun order horder order' horder' _ => ?_, fun order horder => ?_⟩
  · rw [List.mem_singleton.1 horder, List.mem_singleton.1 horder']
  · rw [List.mem_singleton.1 horder]
    rfl

theorem shop_order (shipping : Money) : shop.orderOf (observed shipping).key = some stored := rfl

theorem lines_sound : LinesSound stored.children.lines shop.nextRowId := by
  constructor <;> simp [stored]

end ShippingSplit

open ShippingSplit

theorem same_order_unmoved : ∃ result t', shop.ingestOrderFact 2 (observed 0) = .ok (result, t') ∧
    (result.effect = .unchanged →
      ∃ after, t'.orderOf (observed 0).key = some after ∧ stored.Unmoved after) := by
  have hreturns : Except.returns (shop.ingestOrderFact 2 (observed 0)) = true := by decide +kernel
  obtain ⟨⟨result, t'⟩, h⟩ := Except.returns_iff.1 hreturns
  refine ⟨result, t', h, (CommerceTables.unchanged_iff shop_indexed (shop_order 0) lines_sound h).2
    fun _ => ⟨⟨rfl, .refl _, rfl, rfl, rfl⟩, fun _ _ other hother _ _ => ?_⟩⟩
  rw [List.mem_singleton.1 hother]

theorem shipping_changes_unchanged : ¬ ∀ (t t' : CommerceTables) (order : StoredOrder)
    (newOrderId : OrderId) (input : IngestOrderFactInput) (result : IngestOrderResult), t.Indexed →
    t.orderOf input.key = some order → LinesSound order.children.lines t.nextRowId →
    t.ingestOrderFact newOrderId input = .ok (result, t') → result.effect = .unchanged →
      ∃ after, t'.orderOf input.key = some after ∧ order.Unmoved after := by
  intro hall
  have heffect : (shop.ingestOrderFact 2 (observed 5_000_000)).toOption.map (fun done =>
      (done.1.effect, (done.2.orderOf (observed 5_000_000).key).map (·.values.shippingAmount))) =
        some (.unchanged, some 5_000_000) := by decide +kernel
  rcases h : shop.ingestOrderFact 2 (observed 5_000_000) with e | ⟨result, t'⟩
  · rw [h] at heffect
    cases heffect
  · rw [h] at heffect
    obtain ⟨hunchanged, hshipping⟩ := Prod.mk.inj (Option.some.inj heffect)
    obtain ⟨after, hafter, hunmoved⟩ := hall shop t' stored 2 (observed 5_000_000) result
      shop_indexed (shop_order _) lines_sound h hunchanged
    rw [hafter, Option.map_some, hunmoved.values] at hshipping
    cases hshipping

end Loxep

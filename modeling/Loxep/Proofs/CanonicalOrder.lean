import Loxep.Lib.Runs
import Loxep.Proofs.IngestionSpec
import Loxep.Proofs.ItemOrder

/-!
# One canonical order of a sale

The mark of a duplicate is set once, by the orders its transaction saw, and never taken back. What
keeps a sale countable is that each mark points at the earliest order of its sale that is not
marked: then the orders ingested once more are all marked but that one.
-/

namespace Loxep

/-- The earliest of the orders of a sale that are not marked. -/
structure IsFirst (orders : List StoredOrder) (sale : SaleKey) (order : StoredOrder) : Prop where
  mem : order ∈ orders
  of_sale : order.saleKey = sale
  unmarked : order.duplicateOfOrderId = none
  least : ∀ other ∈ orders, other.saleKey = sale → other.duplicateOfOrderId = none →
    order.rank ≤ other.rank

namespace CommerceTables

def OneCanonical (t : CommerceTables) (sale : SaleKey) : Prop :=
  ∃ canonical ∈ t.orders, canonical.saleKey = sale ∧ canonical.duplicateOfOrderId = none
    ∧ ∀ order ∈ t.orders, order.saleKey = sale → order ≠ canonical →
      order.duplicateOfOrderId = some canonical.id

def ingestEach (t : CommerceTables) :
    List (OrderId × IngestOrderFactInput) → CommerceResult CommerceTables
  | [] => .ok t
  | (newOrderId, input) :: rest => do
    let (_, ingested) ← t.ingestOrderFact newOrderId input
    ingested.ingestEach rest

def Reingests (t : CommerceTables) (sale : SaleKey) (input : IngestOrderFactInput) : Prop :=
  input.markDuplicates = true ∧ input.fact.saleKey = sale
    ∧ ∃ order ∈ t.orders, order.saleKey = sale ∧ order.key = input.key

def Countable (t : CommerceTables) : Prop :=
  ∀ sale, ∀ pass : List (OrderId × IngestOrderFactInput), ∀ t',
    (∃ order ∈ t.orders, order.saleKey = sale) → (∀ again ∈ pass, t.Reingests sale again.2) →
    (∀ order ∈ t.orders, order.saleKey = sale → ∃ again ∈ pass, again.2.key = order.key) →
    t.ingestEach pass = .ok t' → t'.OneCanonical sale

structure Indexed (t : CommerceTables) : Prop where
  ids : DistinctIds t.orders
  keys : ∀ order ∈ t.orders, t.orderOf order.key = some order

def Settling (t : CommerceTables) : Prop :=
  ∀ order ∈ t.orders, ∃ first, IsFirst t.orders order.saleKey first
    ∧ ∀ id ∈ order.duplicateOfOrderId, id = first.id

section First

variable {orders : List StoredOrder} {sale : SaleKey} {order order' : StoredOrder}

theorem exists_first (hmem : order ∈ orders) (hsale : order.saleKey = sale)
    (hunmarked : order.duplicateOfOrderId = none) : ∃ first, IsFirst orders sale first := by
  rcases hcanonical : canonicalOrder orders sale with _ | first
  · have hmarked := canonicalOrder_eq_none.1 hcanonical order hmem hsale
    rw [hunmarked] at hmarked
    cases hmarked
  · obtain ⟨hfirst, hfirstSale, hfirstUnmarked, hleast⟩ := canonicalOrder_spec hcanonical
    exact ⟨first, hfirst, hfirstSale, hfirstUnmarked, hleast⟩

theorem IsFirst.unique (hids : DistinctIds orders) (h : IsFirst orders sale order)
    (h' : IsFirst orders sale order') : order = order' :=
  hids order h.mem order' h'.mem (rank_injective
    ((h.least order' h'.mem h'.of_sale h'.unmarked).antisymm
      (h'.least order h.mem h.of_sale h.unmarked)))

theorem canonicalOrder_eq_some_iff (hids : DistinctIds orders) :
    canonicalOrder orders sale = some order ↔ IsFirst orders sale order := by
  constructor
  · intro h
    obtain ⟨hmem, hsale, hunmarked, hleast⟩ := canonicalOrder_spec h
    exact ⟨hmem, hsale, hunmarked, hleast⟩
  · intro h
    rcases hcanonical : canonicalOrder orders sale with _ | first
    · have hmarked := canonicalOrder_eq_none.1 hcanonical order h.mem h.of_sale
      rw [h.unmarked] at hmarked
      cases hmarked
    · obtain ⟨hmem, hsale, hunmarked, hleast⟩ := canonicalOrder_spec hcanonical
      rw [IsFirst.unique hids h ⟨hmem, hsale, hunmarked, hleast⟩]

end First

/-- What a transaction may do to the marks of its sale and of the sale the order was of. -/
structure MarksTruly (t : CommerceTables) (visible : List StoredOrder)
    (input : IngestOrderFactInput) (written : StoredOrder) : Prop where
  /-- An order that changes its sale is not marked, and nothing is marked a duplicate of it. -/
  leaves : ∀ old, t.orderOf input.key = some old → old.saleKey ≠ input.fact.saleKey →
    old.duplicateOfOrderId = none ∧ ∀ order ∈ t.orders, order.duplicateOfOrderId ≠ some old.id
  /-- What the transaction has seen of the sale yields the mark that what is stored does. -/
  marks : written.duplicateOfOrderId = none → markOf visible input written = none
    ∨ markOf visible input written = markOf t.orders input written
  /-- An order that comes first of its sale was of the sale, or nothing of the sale is marked. -/
  arrives : written.duplicateOfOrderId = none → markOf t.orders input written = none →
    (∃ old, t.orderOf input.key = some old ∧ old.saleKey = input.fact.saleKey)
      ∨ ∀ order ∈ t.orders, order.saleKey = input.fact.saleKey → order.duplicateOfOrderId = none

section Commit

variable {t t' : CommerceTables} {visible : List StoredOrder} {newOrderId : OrderId}
  {input : IngestOrderFactInput} {written : StoredOrder}

theorem Ingested.indexed (hi : t.Indexed) (h : t.Ingested visible newOrderId input t' written) :
    t'.Indexed := by
  refine ⟨h.distinctIds hi.ids, fun order hmem => ?_⟩
  rw [h.orderOf]
  rcases (h.mem_orders order).1 hmem with rfl | ⟨hold, hne⟩
  · exact if_pos h.writes.key
  · rw [if_neg hne]
    exact hi.keys order hold

theorem Ingested.mem_written (h : t.Ingested visible newOrderId input t' written)
    {order : StoredOrder} : order ∈ withOrder t.orders written ↔
      order = written ∨ order ∈ t.orders ∧ order.key ≠ input.key := by
  rw [mem_withOrder, h.writes.key]

theorem Ingested.distinctWritten (hi : t.Indexed)
    (h : t.Ingested visible newOrderId input t' written) :
    DistinctIds (withOrder t.orders written) := by
  intro order hmem order' hmem' hid
  rcases h.mem_written.1 hmem with rfl | ⟨hold, hne⟩
  · rcases h.mem_written.1 hmem' with rfl | ⟨hold', hne'⟩
    · rfl
    · exact absurd hid.symm (h.id_apart hi.ids hold' hne')
  · rcases h.mem_written.1 hmem' with rfl | ⟨hold', -⟩
    · exact absurd hid (h.id_apart hi.ids hold hne)
    · exact hi.ids order hold order' hold' hid

theorem Ingested.markOf_cases (hi : t.Indexed) (hmark : input.markDuplicates = true)
    (h : t.Ingested visible newOrderId input t' written)
    (hunmarked : written.duplicateOfOrderId = none) :
    (markOf t.orders input written = none
        ∧ IsFirst (withOrder t.orders written) input.fact.saleKey written)
      ∨ ∃ first, first ∈ t.orders ∧ first.key ≠ input.key
        ∧ IsFirst (withOrder t.orders written) input.fact.saleKey first
        ∧ markOf t.orders input written = some first.id := by
  obtain ⟨first, hfirst⟩ := exists_first self_mem_withOrder h.saleKey hunmarked
  have hcanonical := (canonicalOrder_eq_some_iff (h.distinctWritten hi)).2 hfirst
  rcases h.mem_written.1 hfirst.mem with rfl | ⟨hold, hne⟩
  · refine .inl ⟨?_, hfirst⟩
    rw [markOf, if_pos hmark, duplicateOf, hcanonical]
    simp
  · refine .inr ⟨first, hold, hne, hfirst, ?_⟩
    rw [markOf, if_pos hmark, duplicateOf, hcanonical]
    simp [h.id_apart hi.ids hold hne]

variable {first old : StoredOrder}

section

variable (h : t.Ingested visible newOrderId input t' written)
include h

theorem Ingested.first_other {sale : SaleKey} (hsale : sale ≠ input.fact.saleKey)
    (hfirst : IsFirst t.orders sale first) (hne : first.key ≠ input.key) :
    IsFirst t'.orders sale first := by
  refine ⟨(h.mem_orders first).2 (.inr ⟨hfirst.mem, hne⟩), hfirst.of_sale, hfirst.unmarked,
    fun other hmem hother hunmarked => ?_⟩
  rcases (h.mem_orders other).1 hmem with rfl | ⟨hold, -⟩
  · exact absurd (hother.symm.trans h.saleKey) hsale
  · exact hfirst.least other hold hother hunmarked

theorem Ingested.first_marked {sale : SaleKey} (hfirst : first ∈ t.orders)
    (hne : first.key ≠ input.key) (hsale : first.saleKey = sale)
    (hunmarked : first.duplicateOfOrderId = none)
    (hmarked : (markOrder written (markOf visible input written)).duplicateOfOrderId.isSome)
    (hleast : ∀ other ∈ t.orders, other.key ≠ input.key → other.saleKey = sale →
      other.duplicateOfOrderId = none → first.rank ≤ other.rank) : IsFirst t'.orders sale first := by
  refine ⟨(h.mem_orders first).2 (.inr ⟨hfirst, hne⟩), hsale, hunmarked,
    fun other hmem hother hunmarked' => ?_⟩
  rcases (h.mem_orders other).1 hmem with rfl | ⟨hold, hne'⟩
  · rw [hunmarked'] at hmarked
    cases hmarked
  · exact hleast other hold hne' hother hunmarked'

theorem Ingested.rank_kept (hold : t.orderOf input.key = some old) : written.rank = old.rank := by
  obtain ⟨hid, -, -, hingested⟩ := h.writes.kept old hold
  unfold StoredOrder.rank
  rw [hid, hingested]

end

theorem Ingested.first_before (hi : t.Indexed) (h : t.Ingested visible newOrderId input t' written)
    (hmem : first ∈ t.orders) (hunmarked : written.duplicateOfOrderId = none)
    (hfirst : IsFirst (withOrder t.orders written) input.fact.saleKey first) :
    IsFirst t.orders input.fact.saleKey first := by
  refine ⟨hmem, hfirst.of_sale, hfirst.unmarked, fun other hother hsale hother' => ?_⟩
  by_cases hkey : other.key = input.key
  · have hold := hi.keys other hother
    rw [hkey] at hold
    rw [← h.rank_kept hold]
    exact hfirst.least written self_mem_withOrder h.saleKey hunmarked
  · exact hfirst.least other (h.mem_written.2 (.inr ⟨hother, hkey⟩)) hsale hother'

theorem Ingested.self_first_before (hi : t.Indexed)
    (h : t.Ingested visible newOrderId input t' written) (hold : t.orderOf input.key = some old)
    (hwas : old.saleKey = input.fact.saleKey)
    (hfirst : IsFirst (withOrder t.orders written) input.fact.saleKey written) :
    IsFirst t.orders input.fact.saleKey old := by
  refine ⟨orderOf_mem hold, hwas, (h.writes.kept old hold).2.2.1 ▸ hfirst.unmarked,
    fun other hother hsale hother' => ?_⟩
  by_cases hkey : other.key = input.key
  · have hsame := hi.keys other hother
    rw [hkey, hold, Option.some.injEq] at hsame
    rw [hsame]
  · rw [← h.rank_kept hold]
    exact hfirst.least other (h.mem_written.2 (.inr ⟨hother, hkey⟩)) hsale hother'

theorem Ingested.settles (hi : t.Indexed) (hmark : input.markDuplicates = true)
    (h : t.Ingested visible newOrderId input t' written) (hsettling : t.Settling)
    (htrue : t.MarksTruly visible input written) :
    ∃ first, IsFirst t'.orders input.fact.saleKey first ∧ ∀ order ∈ t'.orders,
      order.saleKey = input.fact.saleKey → ∀ id ∈ order.duplicateOfOrderId, id = first.id := by
  have hsettled : ∀ first, IsFirst t.orders input.fact.saleKey first → ∀ order ∈ t.orders,
      order.saleKey = input.fact.saleKey → ∀ id ∈ order.duplicateOfOrderId, id = first.id := by
    intro first hfirst order hmem hsale id hid
    obtain ⟨first', hfirst', hmarks⟩ := hsettling order hmem
    rw [hsale] at hfirst'
    rw [IsFirst.unique hi.ids hfirst hfirst']
    exact hmarks id hid
  rcases hwritten : written.duplicateOfOrderId with _ | id
  · have hdup : (markOrder written (markOf visible input written)).duplicateOfOrderId =
        markOf visible input written := by
      rw [markOrder, hwritten, Option.none_or]
    rcases h.markOf_cases hi hmark hwritten with ⟨hnone, hfirst⟩ | ⟨first, hmem, hne, hfirst, hsome⟩
    · -- the order written comes first of its sale
      have hvisible : markOf visible input written = none := by
        rcases htrue.marks hwritten with hvisible | hvisible
        · exact hvisible
        · rw [hvisible, hnone]
      have hsame : markOrder written (markOf visible input written) = written := by
        rw [hvisible, markOrder_none]
      refine ⟨written, ⟨?_, h.saleKey, hwritten, fun other hmem hsale hunmarked => ?_⟩,
        fun order hmem hsale id hid => ?_⟩
      · rw [h.mem_orders, hsame]
        exact .inl rfl
      · rw [h.mem_orders, hsame] at hmem
        exact hfirst.least other (h.mem_written.2 hmem) hsale hunmarked
      · rw [h.mem_orders, hsame] at hmem
        rcases hmem with rfl | ⟨hold, hne⟩
        · rw [hwritten] at hid
          cases hid
        · rcases htrue.arrives hwritten hnone with ⟨old, hgot, hwas⟩ | hunmarked
          · rw [(h.writes.kept old hgot).1]
            exact hsettled old (h.self_first_before hi hgot hwas hfirst) order hold hsale id hid
          · rw [hunmarked order hold hsale] at hid
            cases hid
    · -- an order stored before is first
      have hbefore := h.first_before hi hmem hwritten hfirst
      have hmarks : ∀ order ∈ t'.orders, order.saleKey = input.fact.saleKey →
          ∀ id ∈ order.duplicateOfOrderId, id = first.id := by
        intro order hmem' hsale id hid
        rcases (h.mem_orders order).1 hmem' with rfl | ⟨hold, -⟩
        · rw [hdup] at hid
          rcases htrue.marks hwritten with hvisible | hvisible
          · rw [hvisible] at hid
            cases hid
          · rw [hvisible, hsome] at hid
            exact (Option.some.inj hid).symm
        · exact hsettled first hbefore order hold hsale id hid
      refine ⟨first, ⟨(h.mem_orders first).2 (.inr ⟨hmem, hne⟩), hfirst.of_sale, hfirst.unmarked,
        fun other hother hsale hunmarked => ?_⟩, hmarks⟩
      rcases (h.mem_orders other).1 hother with rfl | hold
      · exact hfirst.least written self_mem_withOrder h.saleKey hwritten
      · exact hfirst.least other (h.mem_written.2 (.inr hold)) hsale hunmarked
  · -- the order was marked before, so it has not changed its sale
    rcases hold : t.orderOf input.key with _ | old
    · rw [(h.writes.fresh hold).2.2.1] at hwritten
      cases hwritten
    · have hdup := (h.writes.kept old hold).2.2.1
      rw [hwritten] at hdup
      have hwas : old.saleKey = input.fact.saleKey := by
        by_contra hne
        rw [(htrue.leaves old hold hne).1] at hdup
        cases hdup
      obtain ⟨first, hfirst, hmarks⟩ := hsettling old (orderOf_mem hold)
      rw [hwas] at hfirst
      have hne : first.key ≠ input.key := by
        intro hkey
        have hsame := hi.keys first hfirst.mem
        rw [hkey, hold, Option.some.injEq] at hsame
        rw [hsame, hfirst.unmarked] at hdup
        cases hdup
      refine ⟨first, h.first_marked hfirst.mem hne hfirst.of_sale hfirst.unmarked ?_
        fun other hother _ => hfirst.least other hother, fun order hmem hsale id' hid => ?_⟩
      · rw [markOrder, hwritten, Option.some_or]
        rfl
      · rcases (h.mem_orders order).1 hmem with rfl | ⟨hmem, -⟩
        · rw [markOrder, hwritten, Option.some_or] at hid
          rw [← Option.some.inj hid]
          exact hmarks id hdup.symm
        · exact hsettled first hfirst order hmem hsale id' hid

theorem Ingested.settling (hi : t.Indexed) (hmark : input.markDuplicates = true)
    (h : t.Ingested visible newOrderId input t' written) (hsettling : t.Settling)
    (htrue : t.MarksTruly visible input written) : t'.Settling := by
  intro order hmem
  by_cases hsale : order.saleKey = input.fact.saleKey
  · obtain ⟨first, hfirst, hmarks⟩ := h.settles hi hmark hsettling htrue
    rw [hsale]
    exact ⟨first, hfirst, hmarks order hmem hsale⟩
  · rcases (h.mem_orders order).1 hmem with rfl | ⟨hold, hne⟩
    · exact absurd h.saleKey hsale
    · obtain ⟨first, hfirst, hmarks⟩ := hsettling order hold
      by_cases hkey : first.key = input.key
      · have hgot := hi.keys first hfirst.mem
        rw [hkey] at hgot
        have hleft := (htrue.leaves first hgot (hfirst.of_sale ▸ hsale)).2 order hold
        have hunmarked : order.duplicateOfOrderId = none := by
          rcases hdup : order.duplicateOfOrderId with _ | id
          · rfl
          · rw [hdup] at hmarks hleft
            exact absurd (congrArg some (hmarks id rfl)) hleft
        obtain ⟨first', hfirst'⟩ := exists_first hmem rfl hunmarked
        refine ⟨first', hfirst', ?_⟩
        rw [hunmarked]
        exact fun _ h => absurd h (Option.not_mem_none _)
      · exact ⟨first, h.first_other hsale hfirst hkey, hmarks⟩

theorem Ingested.first_again (hi : t.Indexed) (hmark : input.markDuplicates = true)
    (h : t.Ingested t.orders newOrderId input t' written) (hold : t.orderOf input.key = some old)
    (hwas : old.saleKey = input.fact.saleKey) (hfirst : IsFirst t.orders input.fact.saleKey first) :
    ∃ first', IsFirst t'.orders input.fact.saleKey first' ∧ first'.id = first.id
      ∧ ((markOrder written (markOf t.orders input written)).duplicateOfOrderId = none →
        written.id = first.id) := by
  have hkept := h.writes.kept old hold
  rcases hwritten : written.duplicateOfOrderId with _ | id
  · rcases h.markOf_cases hi hmark hwritten with ⟨hnone, hself⟩ | ⟨first', hmem, hne, hself, hsome⟩
    · have hsame : markOrder written (markOf t.orders input written) = written := by
        rw [hnone, markOrder_none]
      have hid : written.id = first.id := by
        rw [hkept.1, IsFirst.unique hi.ids (h.self_first_before hi hold hwas hself) hfirst]
      refine ⟨written, ⟨?_, h.saleKey, hwritten, fun other hother hsale hunmarked => ?_⟩, hid,
        fun _ => hid⟩
      · rw [h.mem_orders, hsame]
        exact .inl rfl
      · rw [h.mem_orders, hsame] at hother
        exact hself.least other (h.mem_written.2 hother) hsale hunmarked
    · have hmarked : (markOrder written (markOf t.orders input written)).duplicateOfOrderId =
          some first'.id := by
        rw [markOrder, hwritten, hsome, Option.none_or]
      have hfirst' := IsFirst.unique hi.ids (h.first_before hi hmem hwritten hself) hfirst
      refine ⟨first', h.first_marked hmem hne hself.of_sale hself.unmarked ?_
        fun other hother hother' => ?_, congrArg _ hfirst', fun hnone => ?_⟩
      · rw [hmarked]
        rfl
      · exact hself.least other (h.mem_written.2 (.inr ⟨hother, hother'⟩))
      · rw [hmarked] at hnone
        cases hnone
  · have hmarked : (markOrder written (markOf t.orders input written)).duplicateOfOrderId =
        some id := by
      rw [markOrder, hwritten, Option.some_or]
    have hne : first.key ≠ input.key := by
      intro hkey
      have hsame := hi.keys first hfirst.mem
      rw [hkey, hold, Option.some.injEq] at hsame
      rw [hkept.2.2.1, hsame, hfirst.unmarked] at hwritten
      cases hwritten
    refine ⟨first, h.first_marked hfirst.mem hne hfirst.of_sale hfirst.unmarked ?_
      fun other hother _ => hfirst.least other hother, rfl, fun hnone => ?_⟩
    · rw [hmarked]
      rfl
    · rw [hmarked] at hnone
      cases hnone

end Commit

structure Passing (sale : SaleKey) (id : OrderId) (keys : List OrderKey) (t : CommerceTables) :
    Prop where
  indexed : t.Indexed
  settling : t.Settling
  first : ∃ first, IsFirst t.orders sale first ∧ first.id = id
  passed : ∀ order ∈ t.orders, order.saleKey = sale → order.key ∈ keys →
    order.duplicateOfOrderId = none → order.id = id

section Pass

variable {t t' : CommerceTables} {newOrderId : OrderId} {input : IngestOrderFactInput}
  {written : StoredOrder} {sale : SaleKey} {id : OrderId} {keys : List OrderKey}

theorem Passing.step (h : Passing sale id keys t) (hagain : t.Reingests sale input)
    (hingested : t.Ingested t.orders newOrderId input t' written) :
    Passing sale id (input.key :: keys) t' := by
  obtain ⟨hmark, hsale, old, hmem, hwas, hkey⟩ := hagain
  subst hsale
  have hold := h.indexed.keys old hmem
  rw [hkey] at hold
  obtain ⟨first, hfirst, hid⟩ := h.first
  have htrue : t.MarksTruly t.orders input written := by
    refine ⟨fun old' hold' hne => ?_, fun _ => .inr rfl, fun _ _ => .inl ⟨old, hold, hwas⟩⟩
    rw [hold, Option.some.injEq] at hold'
    exact absurd (hold' ▸ hwas) hne
  obtain ⟨first', hfirst', hsame, hself⟩ :=
    hingested.first_again h.indexed hmark hold hwas hfirst
  refine ⟨hingested.indexed h.indexed, hingested.settling h.indexed hmark h.settling htrue,
    ⟨first', hfirst', hsame.trans hid⟩, fun order horder horderSale hpassed hunmarked => ?_⟩
  rcases (hingested.mem_orders order).1 horder with rfl | ⟨hbefore, hne⟩
  · exact (hself hunmarked).trans hid
  · exact h.passed order hbefore horderSale (List.mem_of_ne_of_mem hne hpassed) hunmarked

theorem Ingested.sale_keys (hagain : t.Reingests sale input)
    (h : t.Ingested t.orders newOrderId input t' written) {key : OrderKey} :
    (∃ order ∈ t'.orders, order.saleKey = sale ∧ order.key = key) ↔
      ∃ order ∈ t.orders, order.saleKey = sale ∧ order.key = key := by
  obtain ⟨-, hsale, old, hold, hwas, hkey⟩ := hagain
  have hwritten : (markOrder written (markOf t.orders input written)).saleKey = sale :=
    h.saleKey.trans hsale
  constructor
  · rintro ⟨order, hmem, horder, rfl⟩
    rcases (h.mem_orders order).1 hmem with rfl | ⟨hbefore, -⟩
    · exact ⟨old, hold, hwas, hkey.trans h.writes.key.symm⟩
    · exact ⟨order, hbefore, horder, rfl⟩
  · rintro ⟨order, hmem, horder, rfl⟩
    by_cases hne : order.key = input.key
    · exact ⟨_, (h.mem_orders _).2 (.inl rfl), hwritten, h.writes.key.trans hne.symm⟩
    · exact ⟨order, (h.mem_orders order).2 (.inr ⟨hmem, hne⟩), horder, rfl⟩

theorem Passing.pass {pass : List (OrderId × IngestOrderFactInput)} (h : Passing sale id keys t)
    (hagain : ∀ again ∈ pass, t.Reingests sale again.2) (heach : t.ingestEach pass = .ok t') :
    Passing sale id ((pass.map (·.2.key)).reverse ++ keys) t'
      ∧ ∀ order ∈ t'.orders, order.saleKey = sale →
        ∃ order' ∈ t.orders, order'.saleKey = sale ∧ order'.key = order.key := by
  induction pass generalizing t keys with
  | nil =>
    cases heach
    exact ⟨h, fun order hmem hsale => ⟨order, hmem, hsale, rfl⟩⟩
  | cons again rest ih =>
    obtain ⟨newOrderId, input⟩ := again
    rw [ingestEach, Except.bind_eq_ok] at heach
    obtain ⟨⟨result, ingested⟩, hok, heach⟩ := heach
    obtain ⟨written, hingested⟩ := ingested_of_ok hok
    obtain ⟨hfirst, hrest⟩ := List.forall_mem_cons.1 hagain
    have hrest' : ∀ again ∈ rest, ingested.Reingests sale again.2 := by
      intro again hmem
      obtain ⟨hmark, hsale, hstored⟩ := hrest again hmem
      exact ⟨hmark, hsale, (hingested.sale_keys hfirst).2 hstored⟩
    obtain ⟨hpassing, hkeys⟩ := ih (h.step hfirst hingested) hrest' heach
    rw [List.map_cons, List.reverse_cons, List.append_assoc]
    refine ⟨hpassing, fun order hmem hsale => ?_⟩
    exact (hingested.sale_keys hfirst).1 (hkeys order hmem hsale)

theorem Settling.countable (hi : t.Indexed) (h : t.Settling) : t.Countable := by
  intro sale pass t' ⟨order, hmem, hsale⟩ hagain hall heach
  obtain ⟨first, hfirst, -⟩ := h order hmem
  rw [hsale] at hfirst
  have hstart : Passing sale first.id [] t :=
    ⟨hi, h, ⟨first, hfirst, rfl⟩, fun _ _ _ hkey => absurd hkey List.not_mem_nil⟩
  obtain ⟨hpassing, hkeys⟩ := hstart.pass hagain heach
  obtain ⟨canonical, hcanonical, hid⟩ := hpassing.first
  refine ⟨canonical, hcanonical.mem, hcanonical.of_sale, hcanonical.unmarked,
    fun order' hmem' hsale' hne => ?_⟩
  obtain ⟨before, hbefore, hbeforeSale, hkey⟩ := hkeys order' hmem' hsale'
  obtain ⟨again, hpass, hagainKey⟩ := hall before hbefore hbeforeSale
  have hpassed : order'.key ∈ (pass.map (·.2.key)).reverse ++ [] := by
    rw [List.append_nil, List.mem_reverse, ← hkey, ← hagainKey]
    exact List.mem_map_of_mem hpass
  rcases hdup : order'.duplicateOfOrderId with _ | id
  · have hsame := (hpassing.passed order' hmem' hsale' hpassed hdup).trans hid.symm
    exact absurd (hpassing.indexed.ids order' hmem' canonical hcanonical.mem hsame) hne
  · obtain ⟨first', hfirst', hmarks⟩ := hpassing.settling order' hmem'
    rw [hsale'] at hfirst'
    rw [IsFirst.unique hpassing.indexed.ids hcanonical hfirst']
    exact congrArg some (hmarks id hdup)

end Pass

end CommerceTables

namespace IngestionSystem

def CommitsTruly (s : IngestionSystem) : IngestionAction → Prop
  | .commit session newOrderId =>
    match s.stage session with
    | .writing input _ visible => ∀ written nextRowId,
      s.tables.Writes newOrderId input written nextRowId → s.tables.MarksTruly visible input written
    | _ => True
  | _ => True

def BeginsMarking : IngestionAction → Prop
  | .begin _ input => input.markDuplicates = true
  | _ => True

structure Marking (s : IngestionSystem) : Prop where
  indexed : s.tables.Indexed
  settling : s.tables.Settling
  handed : ∀ session, Handed (·.markDuplicates = true) (s.stage session)

section Run

variable {s : IngestionSystem} {a : IngestionAction}

theorem marking_step (ha : BeginsMarking a) (hs : s.Marking) (htrue : s.CommitsTruly a) :
    (s.step a).Marking := by
  have hhanded : ∀ session, Handed (·.markDuplicates = true) ((s.step a).stage session) :=
    handed_step hs.handed fun session input heq => by
      rw [heq] at ha
      exact ha
  rcases step_cases s a with ⟨htables, -, -⟩ |
    ⟨session, newOrderId, input, existing, visible, result, rfl, hstage, hok, -⟩
  · exact ⟨htables ▸ hs.indexed, htables ▸ hs.settling, hhanded⟩
  · have hmark := hs.handed session
    rw [hstage] at hmark
    obtain ⟨written, hingested⟩ := CommerceTables.ingested_of_ok hok
    simp only [CommitsTruly, hstage] at htrue
    exact ⟨hingested.indexed hs.indexed, hingested.settling hs.indexed hmark hs.settling
      (htrue written _ hingested.writes), hhanded⟩

/-- However the sessions interleave, each sale is counted once after its orders are ingested once
more, as long as no commit sets a mark that misses the first order of the sale, comes before orders
that are marked, or takes the first order out of its sale. -/
theorem sales_counted_once (hempty : s.tables.orders = [])
    (hidle : ∀ session, s.stage session = .idle) {actions : List IngestionAction}
    (hbegin : ∀ a ∈ actions, BeginsMarking a) (htrue : Runs.Meets step CommitsTruly s actions) :
    Runs.Along step (fun s => s.tables.Countable) s actions := by
  have hmarking : s.Marking := by
    refine ⟨⟨?_, ?_⟩, ?_, fun session => ?_⟩
    · unfold CommerceTables.DistinctIds
      rw [hempty]
      exact fun _ h => absurd h List.not_mem_nil
    · rw [hempty]
      exact fun _ h => absurd h List.not_mem_nil
    · unfold CommerceTables.Settling
      rw [hempty]
      exact fun _ h => absurd h List.not_mem_nil
    · rw [hidle]
      trivial
  have hstep : ∀ s a, BeginsMarking a → s.Marking → s.CommitsTruly a → (step s a).Marking :=
    fun _ _ ha hs htrue => marking_step ha hs htrue
  exact (Runs.along_of_meets_of_forall hstep hbegin hmarking htrue).mono
    fun s hs => hs.settling.countable hs.indexed

end Run

section Examples

def observedBy (connectionId : ConnectionId) (sourceAccountKey : String) :
    IngestOrderFactInput where
  connectionId := connectionId
  fact :=
    { provider := "ebay", externalOrderId := "26-00001",
      values :=
        { channel := "ebay", sourceAccountKey := sourceAccountKey, status := "completed",
          paymentStatus := "paid", fulfillmentStatus := "fulfilled", currency := "USD",
          subtotalAmount := 30_000_000, shippingAmount := 0, discountAmount := 0, taxAmount := 0,
          feeAmount := 0, refundedAmount := 0, totalAmount := 30_000_000, placedAt := nineOClock,
          providerUpdatedAt := some tenOClock },
      lines := [], fees := [], refunds := [], fulfillments := [], rawPayload := none,
      providerObjectType := "order" }
  now := tenOClock

def twoConnections : IngestionSystem where
  tables := { connections := [⟨1, none⟩, ⟨2, none⟩] }

def inTurn (inputs : List (OrderId × IngestOrderFactInput)) : List IngestionAction :=
  inputs.flatMap fun (newOrderId, input) => [.begin 0 input, .write 0, .commit 0 newOrderId]

theorem inTurn_begins {inputs : List (OrderId × IngestOrderFactInput)}
    (h : ∀ input ∈ inputs, input.2.markDuplicates = true) :
    ∀ a ∈ inTurn inputs, BeginsMarking a := by
  intro a ha
  obtain ⟨input, hmem, hin⟩ := List.mem_flatMap.1 ha
  simp only [List.mem_cons, List.not_mem_nil, or_false] at hin
  rcases hin with rfl | rfl | rfl
  · exact h input hmem
  · trivial
  · trivial

/-- The transaction has seen what is stored, its order is new, and nothing is marked yet. -/
def unmarkedYet (s : IngestionSystem) : IngestionAction → Bool
  | .commit session _ =>
    match s.stage session with
    | .writing input _ visible => visible == s.tables.orders && (s.tables.orderOf input.key).isNone
      && s.tables.orders.all (·.duplicateOfOrderId.isNone)
    | _ => true
  | _ => true

theorem commitsTruly_of_unmarked {s : IngestionSystem} {a : IngestionAction}
    (h : s.unmarkedYet a = true) : s.CommitsTruly a := by
  rcases a with _ | _ | ⟨session, newOrderId⟩ | _
  · trivial
  · trivial
  · simp only [unmarkedYet] at h
    simp only [CommitsTruly]
    split
    · rename_i input existing visible hstage
      rw [hstage] at h
      simp only [Bool.and_eq_true, beq_iff_eq, Option.isNone_iff_eq_none, List.all_eq_true] at h
      obtain ⟨⟨hvisible, hnone⟩, hunmarked⟩ := h
      rw [hvisible]
      refine fun written nextRowId _ => ⟨fun old hold => ?_, fun _ => .inr rfl,
        fun _ _ => .inr fun order hmem _ => hunmarked order hmem⟩
      rw [hnone] at hold
      cases hold
    · trivial
  · trivial

theorem two_connections_counted_once : Runs.Along step (fun s => s.tables.Countable) twoConnections
    (inTurn [(1, observedBy 1 "seller"), (2, observedBy 2 "seller")]) := by
  refine sales_counted_once rfl (fun _ => rfl) (inTurn_begins (by simp [observedBy])) ?_
  have hmeets : Runs.Meets step (fun s a => s.unmarkedYet a = true) twoConnections
      (inTurn [(1, observedBy 1 "seller"), (2, observedBy 2 "seller")]) := by
    decide +kernel
  have hkeeps : ∀ (s : IngestionSystem) (a : IngestionAction), True → s.unmarkedYet a = true → True :=
    fun _ _ _ _ => trivial
  exact hmeets.of_invariant hkeeps (fun _ _ _ h => commitsTruly_of_unmarked h) trivial

theorem left_behind_uncounted : ¬Runs.Along step (fun s => s.tables.Countable) twoConnections
    (inTurn [(1, observedBy 1 "seller"), (2, observedBy 2 "seller"), (3, observedBy 1 "shop")]) := by
  intro h
  set t := (Runs.run step twoConnections (inTurn [(1, observedBy 1 "seller"),
    (2, observedBy 2 "seller"), (3, observedBy 1 "shop")])).tables with ht
  have hcountable : t.Countable := h.last
  have hmarked : (t.ingestEach [(4, observedBy 2 "seller")]).toOption.map (fun t' =>
      t'.orders.all fun order => order.saleKey != (observedBy 2 "seller").fact.saleKey
        || order.duplicateOfOrderId.isSome) = some true := by
    rw [ht]
    decide +kernel
  have hsales : t.orders.map (fun order => (order.saleKey, order.key)) =
      [((observedBy 1 "shop").fact.saleKey, (observedBy 1 "shop").key),
        ((observedBy 2 "seller").fact.saleKey, (observedBy 2 "seller").key)] := by
    rw [ht]
    decide +kernel
  have hapart : (observedBy 1 "shop").fact.saleKey ≠ (observedBy 2 "seller").fact.saleKey := by
    decide +kernel
  have hleft : ∃ order ∈ t.orders, order.saleKey = (observedBy 2 "seller").fact.saleKey
      ∧ order.key = (observedBy 2 "seller").key := by
    have hmem : ((observedBy 2 "seller").fact.saleKey, (observedBy 2 "seller").key) ∈
        t.orders.map fun order => (order.saleKey, order.key) := by
      rw [hsales]
      exact List.mem_cons_of_mem _ List.mem_cons_self
    obtain ⟨order, hmem, hsame⟩ := List.mem_map.1 hmem
    exact ⟨order, hmem, Prod.mk.inj hsame⟩
  have hall : ∀ order ∈ t.orders, order.saleKey = (observedBy 2 "seller").fact.saleKey →
      ∃ again ∈ [(4, observedBy 2 "seller")], again.2.key = order.key := by
    intro order hmem hsale
    have hpair : (order.saleKey, order.key) ∈
        t.orders.map fun order => (order.saleKey, order.key) := List.mem_map_of_mem hmem
    rw [hsales, List.mem_pair, Prod.mk.injEq, Prod.mk.injEq] at hpair
    rcases hpair with ⟨hshop, -⟩ | ⟨-, hkey⟩
    · exact absurd (hshop.symm.trans hsale) hapart
    · exact ⟨_, List.mem_singleton_self _, hkey.symm⟩
  rcases hpass : t.ingestEach [(4, observedBy 2 "seller")] with error | t'
  · rw [hpass] at hmarked
    cases hmarked
  · obtain ⟨order, hmem, hsale, hkey⟩ := hleft
    have hreingests : ∀ again ∈ [(4, observedBy 2 "seller")],
        t.Reingests (observedBy 2 "seller").fact.saleKey again.2 := by
      intro again hagain
      rw [List.mem_singleton.1 hagain]
      exact ⟨rfl, rfl, order, hmem, hsale, hkey⟩
    obtain ⟨canonical, hcanonical, hof, hunmarked, -⟩ :=
      hcountable _ _ _ ⟨order, hmem, hsale⟩ hreingests hall hpass
    rw [hpass, Except.toOption, Option.map_some, Option.some.injEq, List.all_eq_true] at hmarked
    have hsome := hmarked canonical hcanonical
    rw [hof, hunmarked] at hsome
    simp at hsome

end Examples

end IngestionSystem

end Loxep

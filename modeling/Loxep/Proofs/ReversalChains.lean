import Loxep.Lib.Ancestry
import Loxep.Lib.KeyedTable
import Loxep.Profitability
import Loxep.Proofs.Fulfilment

/-!
# Reversals of reversals

A movement is reversed at most once, so what undoes a depletion is one chain: its reversal, the
reversal of that, and so on.
-/

namespace Loxep

namespace FactTables

variable (t : FactTables)

def reversedOf (id : MovementId) : Option MovementId :=
  (t.findMovement id).bind (·.reversesMovementId)

def undoings (id : MovementId) : List InventoryMovementRow :=
  t.inventoryMovements.filter fun m =>
    (Ancestry.ancestors t.reversedOf (t.inventoryMovements.map (·.id)).length m.id).contains id

def netEffect (m : InventoryMovementRow) : Money :=
  m.quantity + ((t.undoings m.id).map (·.quantity)).sum

/-- The movement whose quantity and basis the accounting reader takes for one. -/
def measuredFor (m : InventoryMovementRow) : InventoryMovementRow :=
  if m.movementKind = .reversal then (m.reversesMovementId.bind t.findMovement).getD m else m

/-- The quantity the accounting reader posts for a movement, a reversal's inverted; nothing for a
fact it finds ineligible. -/
def postedQuantity (m : InventoryMovementRow) : Money :=
  match t.readInventoryMovement m.id with
  | none => 0
  | some fact =>
    if fact.ineligibleReason.isSome then 0
    else if m.movementKind = .reversal then -absDecimal (t.measuredFor m).quantity
    else absDecimal (t.measuredFor m).quantity

def accountedQuantity (m : InventoryMovementRow) : Money :=
  t.postedQuantity m + ((t.undoings m.id).map t.postedQuantity).sum

def ReadAlike (m : InventoryMovementRow) : Prop :=
  t.undoings m.id = [] ∨ Odd (t.undoings m.id).length

instance (m : InventoryMovementRow) : Decidable (t.ReadAlike m) :=
  inferInstanceAs (Decidable (_ ∨ _))

end FactTables

/-- A movement recorded as such is no reversal: reversals are made by `reverse`. -/
def StockEvent.reversesByCall : StockEvent → Prop
  | .call (.record _ value) => value.movementKind ≠ .reversal
  | _ => True

/-- The movements are kept under their ids and keys, and each reversal takes back one movement of
the ledger under that movement's key. -/
structure Chained (t : FactTables) : Prop where
  ids : (t.inventoryMovements.map (·.id)).Nodup
  keys : (t.inventoryMovements.map (·.deduplicationKey)).Nodup
  items : ∀ m ∈ t.inventoryMovements, m.inventoryItemId ∈ t.inventoryItems.map (·.id)
  kinds : ∀ m ∈ t.inventoryMovements, m.reversesMovementId.isSome ↔ m.movementKind = .reversal
  sales : ∀ m ∈ t.inventoryMovements, m.movementKind = .depletionSale → m.quantity < 0
  reversals : ∀ r ∈ t.inventoryMovements, ∀ id ∈ r.reversesMovementId,
    ∃ o ∈ t.inventoryMovements, o.id = id ∧ r.quantity = -o.quantity ∧
      r.deduplicationKey = movementKeyReversal id
  ranked : Ancestry.Ranked t.reversedOf

section Chain

variable {t : FactTables} {m r : InventoryMovementRow} {id : MovementId}

theorem Chained.findMovement (h : Chained t) (hm : m ∈ t.inventoryMovements) :
    t.findMovement m.id = some m := find_of_nodup_map h.ids hm

theorem Chained.reversedOf_eq (h : Chained t) (hm : m ∈ t.inventoryMovements) :
    t.reversedOf m.id = m.reversesMovementId := by
  rw [FactTables.reversedOf, h.findMovement hm, Option.bind_some]

theorem findMovement_mem (h : t.findMovement id = some m) :
    m ∈ t.inventoryMovements ∧ m.id = id :=
  ⟨List.mem_of_find?_eq_some h, by simpa using List.find?_some h⟩

theorem reversedOf_eq_some {id' : MovementId} (h : t.reversedOf id' = some id) :
    ∃ r ∈ t.inventoryMovements, r.id = id' ∧ r.reversesMovementId = some id := by
  obtain ⟨r, hr, hrev⟩ := Option.bind_eq_some_iff.1 h
  obtain ⟨hmem, hid⟩ := findMovement_mem hr
  exact ⟨r, hmem, hid, hrev⟩

theorem Chained.reversedOf_mem (h : Chained t) (id' id : MovementId)
    (hid : t.reversedOf id' = some id) : id ∈ t.inventoryMovements.map (·.id) := by
  obtain ⟨r, hr, -, hrev⟩ := reversedOf_eq_some hid
  obtain ⟨o, ho, rfl, -⟩ := h.reversals r hr id hrev
  exact List.mem_map_of_mem ho

theorem Chained.kind_of_reverses (h : Chained t) (hr : r ∈ t.inventoryMovements)
    (hrev : r.reversesMovementId = some id) : r.movementKind = .reversal :=
  (h.kinds r hr).1 (by rw [hrev]; rfl)

theorem Chained.mem_undoings (h : Chained t) : m ∈ t.undoings id ↔
    m ∈ t.inventoryMovements ∧ Ancestry.Above t.reversedOf id m.id := by
  rw [FactTables.undoings, List.mem_filter, List.contains_iff_mem,
    Ancestry.mem_ancestors_iff h.ranked h.reversedOf_mem]

theorem Chained.once (h : Chained t) {r' : InventoryMovementRow} (hr : r ∈ t.inventoryMovements)
    (hr' : r' ∈ t.inventoryMovements) (hrev : r.reversesMovementId = some id)
    (hrev' : r'.reversesMovementId = some id) : r = r' := by
  obtain ⟨-, -, -, -, hkey⟩ := h.reversals r hr id hrev
  obtain ⟨-, -, -, -, hkey'⟩ := h.reversals r' hr' id hrev'
  exact List.inj_on_of_nodup_map h.keys hr hr' (hkey.trans hkey'.symm)

theorem Chained.undoings_cons (h : Chained t) (hr : r ∈ t.inventoryMovements)
    (hrev : r.reversesMovementId = some id) : (t.undoings id).Perm (r :: t.undoings r.id) := by
  have hnodup : t.inventoryMovements.Nodup := List.Nodup.of_map _ h.ids
  have hundo : ∀ id, (t.undoings id).Nodup := fun _ => hnodup.filter _
  have hup : t.reversedOf r.id = some id := (h.reversedOf_eq hr).trans hrev
  refine (List.perm_ext_iff_of_nodup (hundo id) ?_).2 fun y => ?_
  · refine List.nodup_cons.2 ⟨fun hmem => ?_, hundo r.id⟩
    exact h.ranked.irrefl (h.mem_undoings.1 hmem).2
  · rw [List.mem_cons, h.mem_undoings, h.mem_undoings]
    constructor
    · rintro ⟨hy, habove⟩
      -- the last link of the chain up to the movement is its one reversal
      obtain ⟨z, hz, hzid⟩ := Relation.TransGen.tail'_iff.1 habove
      obtain ⟨r', hr', rfl, hrev'⟩ := reversedOf_eq_some hzid
      obtain rfl := h.once hr hr' hrev hrev'
      rcases Relation.reflTransGen_iff_eq_or_transGen.1 hz with heq | hlong
      · exact .inl (List.inj_on_of_nodup_map h.ids hy hr heq.symm)
      · exact .inr ⟨hy, hlong⟩
    · rintro (rfl | ⟨hy, habove⟩)
      · exact ⟨hr, .parent hup⟩
      · exact ⟨hy, Relation.TransGen.tail habove hup⟩

theorem Chained.undoings_nil (h : Chained t)
    (hnone : ∀ r ∈ t.inventoryMovements, r.reversesMovementId ≠ some id) : t.undoings id = [] := by
  rw [List.eq_nil_iff_forall_not_mem]
  intro y hy
  obtain ⟨z, -, hz⟩ := Relation.TransGen.tail'_iff.1 (h.mem_undoings.1 hy).2
  obtain ⟨r, hr, -, hrev⟩ := reversedOf_eq_some hz
  exact hnone r hr hrev

theorem Chained.undoings_ne_nil (h : Chained t) (hr : r ∈ t.inventoryMovements)
    (hrev : r.reversesMovementId = some id) : t.undoings id ≠ [] := by
  intro hnil
  have hperm := h.undoings_cons hr hrev
  rw [hnil] at hperm
  exact List.cons_ne_nil _ _ hperm.nil_eq.symm

theorem Chained.reversal_cases (h : Chained t) (id : MovementId) : t.undoings id = [] ∨
    ∃ r ∈ t.inventoryMovements, r.reversesMovementId = some id := by
  by_cases hex : ∃ r ∈ t.inventoryMovements, r.reversesMovementId = some id
  · exact .inr hex
  · exact .inl (h.undoings_nil fun r hr hrev => hex ⟨r, hr, hrev⟩)

theorem Chained.netEffect_eq (h : Chained t) : ∀ {n : ℕ} {m : InventoryMovementRow},
    m ∈ t.inventoryMovements → (t.undoings m.id).length = n →
      t.netEffect m = if Even n then m.quantity else 0
  | 0, m, _, hlength => by
    rw [FactTables.netEffect, List.length_eq_zero_iff.1 hlength]
    simp
  | n + 1, m, hm, hlength => by
    rcases h.reversal_cases m.id with hnil | ⟨r, hr, hrev⟩
    · rw [hnil] at hlength
      cases hlength
    · have hperm := h.undoings_cons hr hrev
      rw [hperm.length_eq, List.length_cons, Nat.add_right_cancel_iff] at hlength
      have hrest := h.netEffect_eq hr hlength
      obtain ⟨o, ho, hoid, hquantity, -⟩ := h.reversals r hr m.id hrev
      obtain rfl := List.inj_on_of_nodup_map h.ids ho hm hoid
      rw [FactTables.netEffect, (hperm.map _).sum_eq, List.map_cons, List.sum_cons]
      rw [FactTables.netEffect] at hrest
      rw [hrest, hquantity]
      simp only [Nat.even_add_one]
      by_cases heven : Even n
      · simp [heven]
      · simp [heven]

theorem Chained.reversedBy_eq (h : Chained t) (hm : m ∈ t.inventoryMovements) :
    t.reversedBy m.id = if t.undoings m.id = [] then 0 else -m.quantity := by
  have hdirect : ∀ r ∈ t.inventoryMovements, (r.movementKind == .reversal &&
      r.reversesMovementId == some m.id) = decide (r.reversesMovementId = some m.id) := by
    intro r hr
    by_cases hrev : r.reversesMovementId = some m.id
    · simp [hrev, h.kind_of_reverses hr hrev]
    · simp [hrev]
  rw [FactTables.reversedBy, List.filter_congr hdirect]
  rcases h.reversal_cases m.id with hnil | ⟨r, hr, hrev⟩
  · rw [if_pos hnil, List.filter_eq_nil_iff.2, List.map_nil, List.sum_nil]
    intro r hr hrev
    exact h.undoings_ne_nil hr (of_decide_eq_true hrev) hnil
  · obtain ⟨o, ho, hoid, hquantity, -⟩ := h.reversals r hr m.id hrev
    obtain rfl := List.inj_on_of_nodup_map h.ids ho hm hoid
    rw [if_neg (h.undoings_ne_nil hr hrev), ← hquantity, sum_map_filter,
      sum_map_single (List.Nodup.of_map _ h.ids) hr]
    · simp [hrev]
    · intro r' hr' hne'
      refine if_neg fun hrev' => hne' (h.once hr' hr (of_decide_eq_true hrev') hrev)

theorem Chained.first_link_iff (h : Chained t) (hm : m ∈ t.inventoryMovements)
    (hquantity : m.quantity ≠ 0) :
    (if t.undoings m.id = [] then m.quantity else 0) = t.netEffect m ↔ t.ReadAlike m := by
  rw [h.netEffect_eq hm rfl, FactTables.ReadAlike, ← Nat.not_even_iff_odd]
  by_cases hnil : t.undoings m.id = []
  · simp [hnil]
  · by_cases heven : Even (t.undoings m.id).length
    · simp [hnil, heven, hquantity.symm]
    · simp [hnil, heven]

end Chain

section Readers

variable {t : FactTables} {m r : InventoryMovementRow}

theorem Chained.net_eq (h : Chained t) (hm : m ∈ t.inventoryMovements) :
    m.quantity + t.reversedBy m.id = if t.undoings m.id = [] then m.quantity else 0 := by
  rw [h.reversedBy_eq hm]
  split_ifs
  · exact add_zero _
  · exact add_neg_cancel _

def FactTables.ledgerDepleted (t : FactTables) (id : AllocationId) : Money :=
  -((t.inventoryMovements.filter fun m => m.Depletes id).map t.netEffect).sum

section

variable (h : Chained t)
include h

theorem Chained.depletedAgainst_iff (id : AllocationId) :
    t.depletedAgainstAllocation id = t.ledgerDepleted id ↔
      ∀ m ∈ t.inventoryMovements, m.Depletes id → t.ReadAlike m := by
  have hle : ∀ m ∈ t.inventoryMovements.filter fun m => m.Depletes id,
      t.netEffect m ≤ m.quantity + t.reversedBy m.id := by
    intro m hmem
    obtain ⟨hm, hd⟩ := List.mem_filter.1 hmem
    have hneg := h.sales m hm (of_decide_eq_true hd).2
    rw [h.net_eq hm, h.netEffect_eq hm rfl]
    by_cases hnil : t.undoings m.id = []
    · simp [hnil]
    · rw [if_neg hnil]
      split_ifs
      · exact hneg.le
      · exact le_rfl
  have hread : t.depletedAgainstAllocation id =
      -((t.inventoryMovements.filter fun m => m.Depletes id).map fun m =>
        m.quantity + t.reversedBy m.id).sum := by
    rw [depletedAgainst_eq, sum_map_filter]
    simp
  rw [hread, FactTables.ledgerDepleted, neg_inj, eq_comm, sum_eq_iff_of_le hle]
  constructor
  · intro hall m hm hd
    have hsame := hall m (List.mem_filter.2 ⟨hm, decide_eq_true hd⟩)
    rw [h.net_eq hm] at hsame
    exact (h.first_link_iff hm (h.sales m hm hd.2).ne).1 hsame.symm
  · intro hall m hmem
    obtain ⟨hm, hd⟩ := List.mem_filter.1 hmem
    have hdepletes := of_decide_eq_true hd
    rw [h.net_eq hm]
    exact ((h.first_link_iff hm (h.sales m hm hdepletes.2).ne).2 (hall m hm hdepletes)).symm

theorem Chained.depletionRow_iff (hm : m ∈ t.inventoryMovements)
    (hsale : m.movementKind = .depletionSale) {admits : OrderRow → InventoryItemRow → Bool}
    {fact : DepletionFact} (hrow : t.depletionRow admits m = some fact) :
    fact.quantity = -t.netEffect m ↔ t.ReadAlike m := by
  have hquantity : fact.quantity = -(m.quantity + t.reversedBy m.id) := by
    unfold FactTables.depletionRow at hrow
    simp only [Option.bind_eq_bind, Option.bind_eq_some_iff] at hrow
    obtain ⟨line, -, row, -, order, -, item, -, hrow⟩ := hrow
    split_ifs at hrow
    cases hrow
    rfl
  rw [hquantity, neg_inj, h.net_eq hm, h.first_link_iff hm (h.sales m hm hsale).ne]

theorem Chained.measuredFor_eq {o : InventoryMovementRow} (hr : r ∈ t.inventoryMovements)
    (ho : o ∈ t.inventoryMovements) (hrev : r.reversesMovementId = some o.id)
    : t.measuredFor r = o := by
  rw [FactTables.measuredFor, if_pos (h.kind_of_reverses hr hrev), hrev, Option.bind_some,
    h.findMovement ho, Option.getD_some]

theorem Chained.postedQuantity_eq (hm : m ∈ t.inventoryMovements) :
    t.postedQuantity m = if m.movementKind = .depletionSale then absDecimal m.quantity
      else if m.movementKind = .reversal ∧ (t.measuredFor m).movementKind = .depletionSale then
        -absDecimal (t.measuredFor m).quantity
      else 0 := by
  obtain ⟨item, hitem⟩ := findItem_of_mem_ids (h.items m hm)
  have hread : ∃ fact, t.readInventoryMovement m.id = some fact ∧ fact.ineligibleReason =
      movementIneligibility m.movementKind
        ((m.reversesMovementId.bind t.findMovement).map (·.movementKind)) := by
    simp only [FactTables.readInventoryMovement, h.findMovement hm, hitem, Option.bind_eq_bind,
      Option.bind_some, Option.pure_def, Option.some.injEq, exists_eq_left']
  obtain ⟨fact, hfact, hreason⟩ := hread
  have hposted : t.postedQuantity m = if fact.ineligibleReason.isSome then 0
      else if m.movementKind = .reversal then -absDecimal (t.measuredFor m).quantity
      else absDecimal (t.measuredFor m).quantity := by
    rw [FactTables.postedQuantity, hfact]
  rw [hposted, hreason]
  by_cases hrev : m.movementKind = .reversal
  · obtain ⟨id, hid⟩ := Option.isSome_iff_exists.1 ((h.kinds m hm).2 hrev)
    obtain ⟨o, ho, rfl, -⟩ := h.reversals m hm id hid
    rw [h.measuredFor_eq hm ho hid, hid, Option.bind_some, h.findMovement ho, Option.map_some]
    by_cases hsale : o.movementKind = .depletionSale
    · simp [hrev, hsale, movementIneligibility]
    · simp [hrev, hsale, movementIneligibility]
  · have hmeasured : t.measuredFor m = m := if_neg hrev
    rw [hmeasured]
    cases hkind : m.movementKind <;> simp_all [movementIneligibility]

theorem Chained.posted_undoing (hr : r ∈ t.inventoryMovements) (hrev : r.movementKind = .reversal)
    {y : InventoryMovementRow} (hy : y ∈ t.undoings r.id) :
    t.postedQuantity y = 0 := by
  obtain ⟨hmem, habove⟩ := h.mem_undoings.1 hy
  obtain ⟨z, hz, hrest⟩ := Relation.TransGen.head'_iff.1 habove
  rw [h.reversedOf_eq hmem] at hz
  obtain ⟨o, ho, rfl, -⟩ := h.reversals y hmem z hz
  have hreversal : o.movementKind = .reversal := by
    rcases Relation.reflTransGen_iff_eq_or_transGen.1 hrest with heq | htrans
    · rw [← List.inj_on_of_nodup_map h.ids hr ho heq]
      exact hrev
    · obtain ⟨w, hw, -⟩ := Relation.TransGen.head'_iff.1 htrans
      rw [h.reversedOf_eq ho] at hw
      exact h.kind_of_reverses ho hw
  rw [h.postedQuantity_eq hmem, h.measuredFor_eq hmem ho hz]
  simp [h.kind_of_reverses hmem hz, hreversal]

theorem Chained.accountedQuantity_eq (hm : m ∈ t.inventoryMovements)
    (hsale : m.movementKind = .depletionSale) :
    t.accountedQuantity m = -if t.undoings m.id = [] then m.quantity else 0 := by
  have hown : t.postedQuantity m = -m.quantity := by
    rw [h.postedQuantity_eq hm, if_pos hsale]
    exact abs_of_neg (h.sales m hm hsale)
  rw [FactTables.accountedQuantity, hown]
  rcases h.reversal_cases m.id with hnil | ⟨r, hr, hrev⟩
  · simp [hnil]
  · have hperm := h.undoings_cons hr hrev
    have hkind := h.kind_of_reverses hr hrev
    have hfirst : t.postedQuantity r = m.quantity := by
      rw [h.postedQuantity_eq hr, h.measuredFor_eq hr hm hrev]
      simp only [hkind, hsale, reduceCtorEq, if_false, and_self, if_true]
      rw [absDecimal, abs_of_neg (h.sales m hm hsale), neg_neg]
    have hrest : ((t.undoings r.id).map t.postedQuantity).sum = 0 := by
      refine List.sum_eq_zero fun x hx => ?_
      obtain ⟨y, hy, rfl⟩ := List.mem_map.1 hx
      exact h.posted_undoing hr hkind hy
    rw [(hperm.map _).sum_eq, List.map_cons, List.sum_cons, hfirst, hrest,
      if_neg (h.undoings_ne_nil hr hrev)]
    ring

theorem Chained.accountedQuantity_iff (hm : m ∈ t.inventoryMovements)
    (hsale : m.movementKind = .depletionSale) :
    t.accountedQuantity m = -t.netEffect m ↔ t.ReadAlike m := by
  rw [h.accountedQuantity_eq hm hsale, neg_inj, h.first_link_iff hm (h.sales m hm hsale).ne]

end

end Readers

section Runs

variable {s t : StockTables} {newId : MovementId} {value : RecordMovementInput}

theorem reversedOf_append {s t : FactTables} {row : InventoryMovementRow}
    (h : t.inventoryMovements = s.inventoryMovements ++ [row])
    (hnew : row.id ∉ s.inventoryMovements.map (·.id)) :
    t.reversedOf = Ancestry.redirect s.reversedOf row.id row.reversesMovementId := by
  funext y
  have hfind : t.findMovement y =
      (s.findMovement y).or (if row.id = y then some row else none) := by
    unfold FactTables.findMovement
    rw [h]
    exact KeyedTable.get_append
  rw [FactTables.reversedOf, hfind]
  by_cases hy : y = row.id
  · have hnone : s.findMovement y = none := by
      rw [FactTables.findMovement, List.find?_eq_none]
      intro m hm heq
      exact hnew (List.mem_map.2 ⟨m, hm, (beq_iff_eq.1 heq).trans hy⟩)
    rw [hnone, Option.none_or, if_pos hy.symm, hy, Ancestry.redirect_self, Option.bind_some]
  · rw [if_neg (Ne.symm hy), Option.or_none, Ancestry.redirect_of_ne hy]
    rfl

theorem Chained.record (h : Chained s.toFactTables) (hw : Recordable s newId value)
    (hrev : ∀ id ∈ value.reversesMovementId, ∃ o ∈ s.inventoryMovements, o.id = id ∧
      value.quantity = -o.quantity ∧ value.deduplicationKey = movementKeyReversal id) :
    Chained (s.record newId value).toFactTables where
  ids := nodup_map_concat h.ids hw.writes.new_id
  keys := by
    refine nodup_map_concat h.keys fun hmem => ?_
    obtain ⟨m, hm, hkey⟩ := List.mem_map.1 hmem
    exact hw.writes.new_key m hm hkey
  items := by
    rw [StockTables.record_itemIds]
    intro m hm
    rw [StockTables.record_movements, List.mem_append, List.mem_singleton] at hm
    rcases hm with hm | rfl
    · exact h.items m hm
    · exact hw.item
  kinds := by
    intro m hm
    rw [StockTables.record_movements, List.mem_append, List.mem_singleton] at hm
    rcases hm with hm | rfl
    · exact h.kinds m hm
    · exact hw.writes.reversal
  sales := by
    intro m hm hkind
    rw [StockTables.record_movements, List.mem_append, List.mem_singleton] at hm
    rcases hm with hm | rfl
    · exact h.sales m hm hkind
    · exact hw.sale_neg hkind
  reversals := by
    intro r hr id hid
    rw [StockTables.record_movements, List.mem_append, List.mem_singleton] at hr
    have hold : ∃ o ∈ s.inventoryMovements, o.id = id ∧ r.quantity = -o.quantity ∧
        r.deduplicationKey = movementKeyReversal id := by
      rcases hr with hr | rfl
      · exact h.reversals r hr id hid
      · exact hrev id hid
    obtain ⟨o, ho, hrest⟩ := hold
    exact ⟨o, record_subset _ _ _ ho, hrest⟩
  ranked := by
    rw [reversedOf_append (StockTables.record_movements s newId value) hw.writes.new_id]
    refine Ancestry.ranked_redirect h.ranked fun q hq => ⟨?_, fun habove => ?_⟩
    · rintro rfl
      obtain ⟨o, ho, hid, -⟩ := hrev _ hq
      exact hw.writes.new_id (hid ▸ List.mem_map_of_mem ho)
    · obtain ⟨z, -, hz⟩ := Relation.TransGen.tail'_iff.1 habove
      exact hw.writes.new_id (h.reversedOf_mem z _ hz)

variable {input : DepleteOnFulfillmentInput}

theorem Chained.consume (h : Chained s.toFactTables) {a : InventoryAllocationRow}
    {already take : Money} {d : Depletion}
    (hok : consumeAllocation s newId input a already take = .ok (d, t)) :
    Chained t.toFactTables := by
  simp only [consumeAllocation, Except.bind_eq_ok, Except.pure_eq_ok, Prod.mk.injEq] at hok
  obtain ⟨⟨result, t'⟩, hrecord, -, rfl⟩ := hok
  have hchained : Chained t' := by
    rcases record_cases hrecord with rfl | ⟨hw, heq⟩
    · exact h
    · have hafter := h.record hw fun id hid => by simp [depletionInput] at hid
      rwa [← heq] at hafter
  split_ifs
  · exact hchained
  · exact hchained

theorem Chained.consumeAll {newId : AllocationId → MovementId}
    : ∀ {as : List InventoryAllocationRow} {s : StockTables}
    {remaining rest : Money} {depletions : List Depletion}, Chained s.toFactTables →
    consumeAllocations newId input as s remaining = .ok (depletions, rest, t) →
      Chained t.toFactTables
  | [], s, remaining, rest, depletions, h, hok => by
    cases hok
    exact h
  | a :: as, s, remaining, rest, depletions, h, hok => by
    rw [consumeAllocations] at hok
    by_cases hnone : remaining ≤ 0
    · rw [if_pos hnone] at hok
      cases hok
      exact h
    · rw [if_neg hnone] at hok
      dsimp only at hok
      by_cases hskip : a.quantity - s.depletedAgainstAllocation a.id ≤ 0
      · rw [if_pos hskip] at hok
        exact h.consumeAll hok
      · rw [if_neg hskip] at hok
        simp only [Except.bind_eq_ok, Except.pure_eq_ok, Prod.mk.injEq] at hok
        obtain ⟨⟨d, t'⟩, hfirst, ⟨ds, rest', t''⟩, hrest, -, -, heq⟩ := hok
        change t'' = t at heq
        rw [heq] at hrest
        exact (h.consume hfirst).consumeAll hrest

theorem Chained.step (h : Chained s.toFactTables) {event : StockEvent}
    (hplain : event.reversesByCall) : Chained (s.step event).toFactTables := by
  cases hh : s.handle event with
  | error e =>
    simp only [StockTables.step, hh]
    exact h
  | ok t =>
    simp only [StockTables.step, hh]
    cases event with
    | call call =>
      rcases perform_cases hh with rfl | ⟨newId, value, rfl, hw, rfl⟩ |
        ⟨newId, original, occurredAt, horiginal, hw, rfl⟩ | ⟨newId, now, input, -, -, -, rfl⟩ |
        ⟨id, status, -, rfl⟩
      · exact h
      · refine h.record hw fun id hid => ?_
        exact absurd (hw.writes.reversal.1 (Option.isSome_of_mem hid)) hplain
      · refine h.record hw fun id hid => ?_
        obtain rfl : original.id = id := Option.some_injective _ hid
        exact ⟨original, horiginal, rfl, rfl, rfl⟩
      · exact h
      · exact h
    | deliver newId input =>
      obtain ⟨⟨result, t'⟩, hdeplete, rfl⟩ := Except.map_eq_ok.1 hh
      simp only [depleteOnFulfillment, Except.bind_eq_ok, Except.require_eq_ok,
        Except.pure_eq_ok, exists_const, Prod.mk.injEq] at hdeplete
      obtain ⟨-, ⟨depletions, rest, t''⟩, hloop, -, rfl⟩ := hdeplete
      exact h.consumeAll hloop

theorem chained_of_empty {t : FactTables} (h : t.inventoryMovements = []) : Chained t where
  ids := by simp [h]
  keys := by simp [h]
  items := by simp [h]
  kinds := by simp [h]
  sales := by simp [h]
  reversals := by simp [h]
  ranked := ⟨fun _ => 0, fun x p hp => by
    simp [FactTables.reversedOf, FactTables.findMovement, h] at hp⟩

end Runs

/-- After every sequence of calls, each of the three readers has for a depletion what the ledger has
exactly when the chain of reversals is empty or of odd length. -/
theorem reversals_read_alike_iff {start : StockTables} (hstart : start.inventoryMovements = [])
    {events : List StockEvent} (hplain : ∀ event ∈ events, event.reversesByCall) :
    let s := Runs.run StockTables.step start events
    (∀ id, s.depletedAgainstAllocation id = s.ledgerDepleted id ↔
      ∀ m ∈ s.inventoryMovements, m.Depletes id → s.ReadAlike m) ∧
    ∀ m ∈ s.inventoryMovements, m.movementKind = .depletionSale →
      (∀ admits fact, s.depletionRow admits m = some fact →
        (fact.quantity = -s.netEffect m ↔ s.ReadAlike m)) ∧
      (s.accountedQuantity m = -s.netEffect m ↔ s.ReadAlike m) := by
  intro s
  have hs : Chained s.toFactTables := by
    have halong : Runs.Along StockTables.step (fun s => Chained s.toFactTables) start events :=
      Runs.along_of_meets_of_forall
        (fun s event (hok : event.reversesByCall) hs (_ : True) => Chained.step hs hok) hplain
        (chained_of_empty hstart) (Runs.meets_of_forall fun _ _ => trivial)
    exact halong.last
  exact ⟨hs.depletedAgainst_iff, fun m hm hsale =>
    ⟨fun _ _ hrow => hs.depletionRow_iff hm hsale hrow, hs.accountedQuantity_iff hm hsale⟩⟩

section Examples

namespace Small

def tenOnHand : StockTables :=
  { FactTables.empty with
    inventoryItems :=
      [⟨0, "TEN", none, none, none, none, "available", 10, 10, "USD", 0, 0, false, .unit, none,
        none, none⟩]
    inventoryAllocations :=
      [⟨0, 0, .orderLine, some 0, 10, .reserved, ⟨⟨2026, 1, 1⟩, 0⟩, none⟩] }

def undone (reversals : ℕ) : List StockEvent :=
  .deliver (fun _ => 0) ⟨0, 0, 4, ⟨⟨2026, 1, 2⟩, 0⟩⟩ ::
    (List.range reversals).map fun i => .call (.reverse (i + 1) i ⟨⟨2026, 1, 3⟩, 0⟩)

theorem undone_plain (reversals : ℕ) : ∀ event ∈ undone reversals, event.reversesByCall := by
  intro event hevent
  simp only [undone, List.mem_cons, List.mem_map] at hevent
  rcases hevent with rfl | ⟨i, -, rfl⟩
  · trivial
  · trivial

end Small

theorem undone_reversal_unread : ¬ ∀ (start : StockTables) (events : List StockEvent),
    start.inventoryMovements = [] → (∀ event ∈ events, event.reversesByCall) →
    let s := Runs.run StockTables.step start events
    (∀ id, s.depletedAgainstAllocation id = s.ledgerDepleted id) ∧
      ∀ m ∈ s.inventoryMovements, m.movementKind = .depletionSale →
        s.accountedQuantity m = -s.netEffect m := by
  intro hall
  have hallocation := (hall Small.tenOnHand (Small.undone 2) rfl (Small.undone_plain 2)).1 0
  revert hallocation
  decide +kernel

theorem one_reversal_read :
    let s := Runs.run StockTables.step Small.tenOnHand (Small.undone 1)
    (s.depletedAgainstAllocation 0 = s.ledgerDepleted 0 ↔
      ∀ m ∈ s.inventoryMovements, m.Depletes 0 → s.ReadAlike m) ∧
    s.depletedAgainstAllocation 0 = 0 :=
  ⟨(@reversals_read_alike_iff Small.tenOnHand rfl _ (Small.undone_plain 1)).1 0,
    by decide +kernel⟩

end Examples

end Loxep

import Loxep.Proofs.ReportedCost
import Loxep.Proofs.UnitBasis

/-!
# Parting out a partly sold item

A part-out hands the whole stored landed cost to the children and leaves the parent with none, while
the reader and the report still apportion the cost of its past sales from what is stored.
-/

namespace Loxep

structure Unsold (t : FactTables) (item : InventoryItemRow) : Prop where
  found : t.findItem item.id = some item
  movement_ids : (t.inventoryMovements.map (·.id)).Nodup
  positive : 0 < item.quantity
  reversals_known : ReversalsKnown t
  items_known : ∀ m ∈ t.inventoryMovements, ∃ i, t.findItem m.inventoryItemId = some i
  unsold : depletionsOf t item.id = []

inductive Trades (start : FactTables) : FactTables → Prop
  | start : Trades start start
  | record {t t' : FactTables} {newId : MovementId} {value : RecordMovementInput}
      {result : RecordMovementResult} (trades : Trades start t)
      (kind : value.movementKind ≠ .reversal)
      (recorded : recordMovement t newId value = .ok (result, t')) : Trades start t'
  | reverse {t t' : FactTables} {newId movementId : MovementId} {occurredAt : Timestamp}
      {result : RecordMovementResult} (trades : Trades start t)
      (reversed : reverseMovement t newId movementId occurredAt = .ok (result, t')) :
      Trades start t'

section Spec

variable (t t' : FactTables)

def unreversed (m : InventoryMovementRow) : Bool :=
  !t.inventoryMovements.any fun r =>
    r.movementKind == .reversal && r.reversesMovementId == some m.id

def relieved (item : ItemId) : Money :=
  (((depletionsOf t item).filter (unreversed t)).map fun m => postedCost t m.id).sum

def reportedCost (filter : ProfitabilityFilter) (item : ItemId) (line : ℕ) : Option Money :=
  ((itemRealizedContribution t filter).toOption.bind fun rows => rows.find? fun row =>
    row.inventoryItemId == item && row.orderLineId == line).map (·.costBasisAmount)

/-- The children carry what the sales have left, and the sales cost what they cost before. -/
structure ConservesBasis (item : InventoryItemRow) (children : List InventoryItemRow) : Prop where
  handed_on : (children.map (·.landedCostAmount)).sum =
    item.landedCostAmount - relieved t item.id
  posted : ∀ m ∈ depletionsOf t item.id, postedCost t' m.id = postedCost t m.id
  reported : ∀ filter line, reportedCost t' filter item.id line =
    reportedCost t filter item.id line

end Spec

section Traded

variable {t t' : FactTables} {newId : MovementId} {value : RecordMovementInput}
  {result : RecordMovementResult} {item i : InventoryItemRow}

/-- The item as it was first, with what was sold of it and what came back. -/
structure Traded (item : InventoryItemRow) (t : FactTables) : Prop where
  found : ∃ i, t.findItem item.id = some i ∧ i.landedCostAmount = item.landedCostAmount ∧
    i.quantity = item.quantity
  movement_ids : (t.inventoryMovements.map (·.id)).Nodup
  reversals_known : ReversalsKnown t
  items_known : ∀ m ∈ t.inventoryMovements, ∃ i, t.findItem m.inventoryItemId = some i
  sold : ∀ m ∈ depletionsOf t item.id, m.quantity < 0
  restored : ∀ m ∈ depletionsOf t item.id, ∀ r ∈ t.inventoryMovements,
    r.movementKind = .reversal → r.reversesMovementId = some m.id → 0 < r.quantity

theorem Unsold.traded (h : Unsold t item) : Traded item t where
  found := ⟨item, h.found, rfl, rfl⟩
  movement_ids := h.movement_ids
  reversals_known := h.reversals_known
  items_known := h.items_known
  sold := by
    rw [h.unsold]
    exact fun _ hm => absurd hm List.not_mem_nil
  restored := by
    rw [h.unsold]
    exact fun _ hm => absurd hm List.not_mem_nil

variable {n : ItemId}

theorem findItem_written (newId : MovementId) (value : RecordMovementInput)
    (hi : t.findItem n = some i) :
    ∃ onHand status locked, (written t newId value).findItem n =
      some { i with quantityOnHand := onHand, status := status, costBasisLocked := locked } := by
  have hid : i.id = n := (findItem_id hi).2
  have hkept : { t with inventoryMovements :=
      t.inventoryMovements ++ [movementRow newId value] }.findItem n = some i := hi
  rw [written, FactTables.refreshItemBalance, findItem_updateItem, hkept, Option.map_some]
  · by_cases hsame : i.id = value.inventoryItemId
    · rw [if_pos hsame]
      exact ⟨_, _, _, rfl⟩
    · rw [if_neg hsame]
      exact ⟨_, _, _, rfl⟩
  · exact fun _ => rfl

theorem findItem_written_other (hn : value.inventoryItemId ≠ n) :
    (written t newId value).findItem n = t.findItem n := by
  rw [written, FactTables.refreshItemBalance, findItem_updateItem]
  · change (t.findItem n).map _ = _
    cases hi : t.findItem n with
    | none => rfl
    | some i =>
      have hid : i.id = n := (findItem_id hi).2
      rw [Option.map_some, if_neg]
      exact fun hsame => hn (hsame.symm.trans hid)
  · exact fun _ => rfl

theorem findItem_recorded (h : recordMovement t newId value = .ok (result, t'))
    (hi : t.findItem n = some i) : ∃ onHand status locked, t'.findItem n =
      some { i with quantityOnHand := onHand, status := status, costBasisLocked := locked } := by
  obtain ⟨-, -, _, -, hcases⟩ := recordMovement_eq_ok.1 h
  rcases hcases with ⟨existing, -, -, rfl⟩ | ⟨-, -, rfl⟩
  · exact ⟨_, _, _, hi⟩
  · exact findItem_written _ _ hi

theorem findItem_recorded_other (h : recordMovement t newId value = .ok (result, t'))
    (hn : value.inventoryItemId ≠ n) : t'.findItem n = t.findItem n := by
  obtain ⟨-, -, _, -, hcases⟩ := recordMovement_eq_ok.1 h
  rcases hcases with ⟨existing, -, -, rfl⟩ | ⟨-, -, rfl⟩
  · rfl
  · exact findItem_written_other hn

theorem mem_depletionsOf_written {m : InventoryMovementRow}
    (h : m ∈ depletionsOf (written t newId value) item.id) :
    m ∈ depletionsOf t item.id ∨
      (m = movementRow newId value ∧ value.movementKind = .depletionSale) := by
  obtain ⟨hmem, hitem, hkind⟩ := mem_depletionsOf.1 h
  rw [written_movements, List.mem_append, List.mem_singleton] at hmem
  rcases hmem with hmem | rfl
  · exact .inl (mem_depletionsOf.2 ⟨hmem, hitem, hkind⟩)
  · exact .inr ⟨rfl, hkind⟩

def TakesBack (t : FactTables) (value : RecordMovementInput) : Prop :=
  ∃ original ∈ t.inventoryMovements, value.reversesMovementId = some original.id ∧
    value.quantity = -original.quantity

theorem Traded.written (h : Traded item t) (hw : Writes t newId value) (hq : value.quantity ≠ 0)
    (hsign : SignAgrees value.movementKind value.quantity)
    (hitem : ∃ i, t.findItem value.inventoryItemId = some i)
    (hreverses : value.movementKind = .reversal → TakesBack t value) :
    Traded item (written t newId value) where
  found := by
    obtain ⟨i, hi, hlanded, hquantity⟩ := h.found
    obtain ⟨onHand, status, locked, hfound⟩ := findItem_written newId value hi
    exact ⟨_, hfound, hlanded, hquantity⟩
  movement_ids := by
    rw [written_movements]
    exact nodup_map_concat h.movement_ids hw.new_id
  reversals_known := by
    intro r hr id hid
    rw [written_movements, List.map_append, List.mem_append]
    rw [written_movements, List.mem_append, List.mem_singleton] at hr
    rcases hr with hr | rfl
    · exact .inl (h.reversals_known r hr id hid)
    · have hsome : value.reversesMovementId = some id := hid
      have hkind : value.movementKind = .reversal := hw.reversal.1 (by rw [hsome]; rfl)
      obtain ⟨original, horiginal, heq, -⟩ := hreverses hkind
      rw [hsome, Option.some.injEq] at heq
      exact .inl (heq ▸ List.mem_map_of_mem horiginal)
  items_known := by
    intro m hm
    rw [written_movements, List.mem_append, List.mem_singleton] at hm
    obtain ⟨i, hi⟩ : ∃ i, t.findItem m.inventoryItemId = some i := by
      rcases hm with hm | rfl
      · exact h.items_known m hm
      · exact hitem
    obtain ⟨_, _, _, hfound⟩ := findItem_written newId value hi
    exact ⟨_, hfound⟩
  sold := by
    intro m hm
    rcases mem_depletionsOf_written hm with hm | ⟨rfl, hkind⟩
    · exact h.sold m hm
    · rw [SignAgrees, hkind] at hsign
      have hnot : ¬ 0 < value.quantity := fun hpos => by
        simp [MovementKind.inbound, hpos] at hsign
      exact lt_of_le_of_ne (not_lt.1 hnot) hq
  restored := by
    intro m hm r hr hkind hreverse
    rw [written_movements, List.mem_append, List.mem_singleton] at hr
    rcases mem_depletionsOf_written hm with hm | ⟨rfl, hsale⟩
    · rcases hr with hr | rfl
      · exact h.restored m hm r hr hkind hreverse
      · obtain ⟨original, horiginal, heq, hquantity⟩ := hreverses hkind
        have hid : m.id = original.id := Option.some.inj (hreverse.symm.trans heq)
        have hsame : m = original := List.inj_on_of_nodup_map h.movement_ids
          (mem_depletionsOf.1 hm).1 horiginal hid
        have hneg := h.sold m hm
        change 0 < value.quantity
        rw [hquantity, ← hsame]
        exact neg_pos.2 hneg
    · rcases hr with hr | rfl
      · exact absurd (h.reversals_known r hr _ hreverse) hw.new_id
      · exact absurd (hsale.symm.trans hkind) (by decide)

theorem Traded.record (h : Traded item t) (hr : recordMovement t newId value = .ok (result, t'))
    (hreverses : value.movementKind = .reversal → TakesBack t value) : Traded item t' := by
  obtain ⟨hq, hsign, i, hi, hcases⟩ := recordMovement_eq_ok.1 hr
  rcases hcases with ⟨existing, -, -, rfl⟩ | ⟨hw, -, rfl⟩
  · exact h
  · exact h.written hw hq hsign ⟨i, hi⟩ hreverses

theorem Trades.traded {start : FactTables} (hstart : Unsold start item) (h : Trades start t)
    : Traded item t := by
  induction h with
  | start => exact hstart.traded
  | record _ kind recorded ih => exact ih.record recorded fun hrev => absurd hrev kind
  | reverse _ reversed ih =>
    unfold reverseMovement at reversed
    split at reversed
    · cases reversed
    · rename_i original hfound
      exact ih.record reversed fun _ =>
        ⟨original, List.mem_of_find?_eq_some hfound, rfl, rfl⟩

end Traded

section Keeps

variable {t u t' : FactTables} {newId : MovementId} {value : RecordMovementInput}
  {result : RecordMovementResult}

structure KeepsSales (t t' : FactTables) : Prop where
  orders : t'.orders = t.orders
  lines : t'.orderLines = t.orderLines
  movements : ∃ extra, t'.inventoryMovements = t.inventoryMovements ++ extra ∧
    ∀ m ∈ extra, m.movementKind ≠ .depletionSale ∧ m.movementKind ≠ .reversal
  ids : (t.inventoryMovements.map (·.id)).Nodup → (t'.inventoryMovements.map (·.id)).Nodup
  items : ∀ n i, t.findItem n = some i → ∃ i', t'.findItem n = some i' ∧
    i'.economicEntityId = i.economicEntityId ∧ i'.acquisitionId = i.acquisitionId ∧
      i'.quantity = i.quantity

theorem KeepsSales.refl (t : FactTables) : KeepsSales t t where
  orders := rfl
  lines := rfl
  movements := ⟨[], (List.append_nil _).symm, fun _ hm => absurd hm List.not_mem_nil⟩
  ids := id
  items := fun _ i hi => ⟨i, hi, rfl, rfl, rfl⟩

theorem KeepsSales.trans (h : KeepsSales t u) (h' : KeepsSales u t') : KeepsSales t t' where
  orders := h'.orders.trans h.orders
  lines := h'.lines.trans h.lines
  movements := by
    obtain ⟨extra, hextra, hplain⟩ := h.movements
    obtain ⟨more, hmore, hplain'⟩ := h'.movements
    refine ⟨extra ++ more, by rw [hmore, hextra, List.append_assoc], fun m hm => ?_⟩
    rcases List.mem_append.1 hm with hm | hm
    · exact hplain m hm
    · exact hplain' m hm
  ids := fun hnd => h'.ids (h.ids hnd)
  items := by
    intro n i hi
    obtain ⟨i', hi', he, ha, hq⟩ := h.items n i hi
    obtain ⟨i'', hi'', he', ha', hq'⟩ := h'.items n i' hi'
    exact ⟨i'', hi'', he'.trans he, ha'.trans ha, hq'.trans hq⟩

theorem KeepsSales.record (hsale : value.movementKind ≠ .depletionSale)
    (hrev : value.movementKind ≠ .reversal) (h : recordMovement t newId value = .ok (result, t'))
    : KeepsSales t t' := by
  have hids := recordMovement_ids h
  obtain ⟨-, -, _, -, hcases⟩ := recordMovement_eq_ok.1 h
  rcases hcases with ⟨existing, -, -, rfl⟩ | ⟨-, -, rfl⟩
  · exact .refl _
  · refine ⟨rfl, rfl, ⟨[movementRow newId value], written_movements, ?_⟩, hids, ?_⟩
    · intro m hm
      rw [List.mem_singleton.1 hm]
      exact ⟨hsale, hrev⟩
    · intro n i hi
      obtain ⟨_, _, _, hfound⟩ := findItem_written newId value hi
      exact ⟨_, hfound, rfl, rfl, rfl⟩

variable {row : InventoryItemRow} {id : ItemId} {f : InventoryItemRow → InventoryItemRow}

theorem findItem_append {i : InventoryItemRow} {n : ItemId} (hi : t.findItem n = some i) :
    { t with inventoryItems := t.inventoryItems ++ [row] }.findItem n = some i := by
  have hfirst : t.inventoryItems.find? (·.id == n) = some i := hi
  simp [FactTables.findItem, List.find?_append, hfirst]

theorem findItem_inserted (hfresh : row.id ∉ t.inventoryItems.map (·.id)) :
    { t with inventoryItems := t.inventoryItems ++ [row] }.findItem row.id = some row := by
  have hnone : t.inventoryItems.find? (·.id == row.id) = none := by
    rw [List.find?_eq_none]
    intro i hi hid
    exact hfresh (List.mem_map.2 ⟨i, hi, beq_iff_eq.1 hid⟩)
  simp [FactTables.findItem, List.find?_append, hnone]

theorem KeepsSales.insert (row : InventoryItemRow) :
    KeepsSales t { t with inventoryItems := t.inventoryItems ++ [row] } where
  orders := rfl
  lines := rfl
  movements := ⟨[], (List.append_nil _).symm, fun _ hm => absurd hm List.not_mem_nil⟩
  ids := id
  items := fun _ i hi => ⟨i, findItem_append hi, rfl, rfl, rfl⟩

theorem findItem_updateItem_self {i : InventoryItemRow} (hf : ∀ i, (f i).id = i.id)
    (hi : t.findItem id = some i) : (t.updateItem id f).findItem id = some (f i) := by
  rw [findItem_updateItem hf, hi, Option.map_some, if_pos (findItem_id hi).2]

theorem KeepsSales.update (hf : ∀ i, (f i).id = i.id ∧ (f i).economicEntityId = i.economicEntityId ∧
      (f i).acquisitionId = i.acquisitionId ∧ (f i).quantity = i.quantity) :
    KeepsSales t (t.updateItem id f) where
  orders := rfl
  lines := rfl
  movements := ⟨[], (List.append_nil _).symm, fun _ hm => absurd hm List.not_mem_nil⟩
  ids := fun hnd => hnd
  items := by
    intro n i hi
    rw [findItem_updateItem fun i => (hf i).1, hi, Option.map_some]
    refine ⟨_, rfl, ?_⟩
    split_ifs
    · exact (hf i).2
    · exact ⟨rfl, rfl, rfl⟩

end Keeps

section PartOut

variable {t t' : FactTables} {parent : InventoryItemRow} {ids : PartOutIds}
  {occurredAt : Timestamp} {landed goods : List Money}

theorem createChildren_ok : ∀ {specs : List PartOutChild} {index : ℕ} {t t' : FactTables}
    {children : List InventoryItemRow},
    createChildren parent ids occurredAt landed goods index specs t = .ok (children, t') →
      KeepsSales t t' ∧ (∀ n i, t.findItem n = some i → t'.findItem n = some i) ∧
        children.map (·.landedCostAmount) =
          (List.range' index specs.length).map fun k => (landed[k]?).getD 0
  | [], _, t, _, _, h => by
    cases h
    exact ⟨.refl t, fun _ _ hi => hi, rfl⟩
  | spec :: specs, index, t, t', children, h => by
    simp only [createChildren, Except.bind_eq_ok, insertItem_eq_ok, Except.pure_eq_ok,
      loadItem_eq_ok, Prod.mk.injEq] at h
    obtain ⟨inserted, ⟨hfresh, -, rfl⟩, ⟨received, found⟩, hfound, child, hchild, ⟨rest, t''⟩,
      hrest, rfl, rfl⟩ := h
    obtain ⟨hkeeps, hsame, hlanded⟩ := createChildren_ok hrest
    refine ⟨?_, ?_, ?_⟩
    · exact (KeepsSales.insert _).trans ((KeepsSales.record (by simp) (by simp) hfound).trans hkeeps)
    · intro n i hi
      have hne : ids.item index ≠ n := by
        rintro rfl
        obtain ⟨hmem, hid⟩ := findItem_id hi
        exact hfresh (List.mem_map.2 ⟨i, hmem, hid⟩)
      refine hsame n i ?_
      rw [findItem_recorded_other hfound hne]
      exact findItem_append hi
    · have hnew := findItem_inserted hfresh
      obtain ⟨_, _, _, hchild'⟩ := findItem_recorded hfound hnew
      rw [List.map_cons, hlanded, List.length_cons, List.range'_succ, List.map_cons]
      congr 1
      have heq := Option.some.inj (hchild.symm.trans hchild')
      rw [heq]
      rfl

theorem map_getD_range (shares : List Money) :
    (List.range' 0 shares.length).map (fun k => (shares[k]?).getD 0) = shares := by
  refine List.ext_getElem (by simp) fun k hk hk' => ?_
  simp [List.getElem?_eq_getElem hk']

variable {input : PartOutInput}

theorem parsePartOut_weights {u : Unit} (h : parsePartOut input = .ok u) :
    input.children.map PartOutChild.shareWeight ≠ [] ∧
      ∀ w ∈ input.children.map PartOutChild.shareWeight, 0 < w := by
  simp only [parsePartOut, Except.bind_eq_ok, Except.require_eq_ok, exists_const] at h
  obtain ⟨⟨hsome, -⟩, hquantity, -, hweight⟩ := h
  refine ⟨?_, ?_⟩
  · intro hnil
    rw [List.map_eq_nil_iff] at hnil
    simp [hnil] at hsome
  · intro w hw
    obtain ⟨child, hchild, rfl⟩ := List.mem_map.1 hw
    unfold PartOutChild.shareWeight
    cases hc : child.weight with
    | none => exact hquantity child hchild
    | some weight => exact hweight child hchild weight (by simp [hc])

theorem partOut_ok {result : PartOutResult} {i : InventoryItemRow}
    (h : partOut t ids input = .ok (result, t')) (hi : t.findItem input.inventoryItemId = some i) :
    KeepsSales t t' ∧ (result.children.map (·.landedCostAmount)).sum = i.landedCostAmount ∧
      ∃ i', t'.findItem input.inventoryItemId = some i' ∧ i'.landedCostAmount = 0 ∧
        i'.quantity = i.quantity := by
  simp only [partOut, Except.bind_eq_ok, loadItem_eq_ok, Except.require_eq_ok, exists_const,
    Except.pure_eq_ok, Prod.mk.injEq] at h
  obtain ⟨_, hparse, parent', hparent, -, -, landed, hlanded, goods, -, ⟨children, created⟩,
    hcreated, ⟨consumed, depleted⟩, hdepleted, after, hafter, rfl, rfl⟩ := h
  rw [hi, Option.some.injEq] at hparent
  subst hparent
  obtain ⟨hne, hpos⟩ := parsePartOut_weights hparse
  obtain ⟨hsum, hlen⟩ := sum_distributeByWeights hne hpos hlanded
  obtain ⟨hkeeps, hsame, hshares⟩ := createChildren_ok hcreated
  have hid : i.id = input.inventoryItemId := (findItem_id hi).2
  have hkept : KeepsSales t (depleted.updateItem i.id fun i =>
      { i with saleMode := .partedOut, landedCostAmount := 0, acquisitionCostAmount := 0 }) :=
    hkeeps.trans ((KeepsSales.record (by simp) (by simp) hdepleted).trans
      (KeepsSales.update fun _ => ⟨rfl, rfl, rfl, rfl⟩))
  refine ⟨hkept, ?_, ?_⟩
  · rw [List.length_map] at hlen
    rw [hshares, ← hlen, map_getD_range, hsum]
  · obtain ⟨_, _, _, hfound⟩ := findItem_recorded hdepleted (hsame _ _ hi)
    rw [← hid] at hfound ⊢
    exact ⟨_, findItem_updateItem_self (fun _ => rfl) hfound, rfl, rfl⟩

end PartOut

section Relieved

variable {t t' : FactTables} {item : ItemId} {i i' : InventoryItemRow}

theorem posted_zero_iff (hnd : (t.inventoryMovements.map (·.id)).Nodup)
    (hi : t.findItem item = some i) (hq : 0 < i.quantity) :
    (∀ m ∈ depletionsOf t item, postedCost t m.id = 0) ↔
      2 * (|i.landedCostAmount| * soldQuantity t item) < i.quantity := by
  rw [← proRataShare_eq_zero_iff hq soldQuantity_nonneg, ← itemCost_eq hnd hi]
  constructor
  · intro hzero
    refine List.sum_eq_zero fun x hx => ?_
    obtain ⟨m, hm, rfl⟩ := List.mem_map.1 hx
    exact hzero m hm
  · intro hcost m hm
    rw [itemCost_eq hnd hi] at hcost
    have hprior := @priorDepleted_nonneg t m
    have hsold : t.priorDepleted m + absDecimal m.quantity ≤ soldQuantity t item := by
      rw [priorDepleted_eq hm]
      exact Increments.before_add_le hm fun b _ => abs_nonneg b.quantity
    have hafter := proRataShare_eq_zero_of_le hq (add_nonneg hprior (abs_nonneg m.quantity)) hsold
      hcost
    have hbefore := proRataShare_eq_zero_of_le hq hprior
      ((le_add_of_nonneg_right (abs_nonneg m.quantity)).trans hsold) hcost
    rw [postedCost_depletion hnd hi hm, FactTables.movementBasis, hbefore]
    exact (sub_zero _).trans hafter

theorem KeepsSales.depletionsOf (h : KeepsSales t t') (item : ItemId) :
    depletionsOf t' item = Loxep.depletionsOf t item := by
  obtain ⟨extra, hextra, hplain⟩ := h.movements
  have hnone : extra.filter (fun m =>
      m.inventoryItemId == item && m.movementKind == .depletionSale) = [] := by
    rw [List.filter_eq_nil_iff]
    intro m hm
    simp [(hplain m hm).1]
  rw [Loxep.depletionsOf, Loxep.depletionsOf, hextra, List.filter_append, hnone, List.append_nil]

theorem KeepsSales.reversedBy (h : KeepsSales t t') (id : MovementId) :
    t'.reversedBy id = t.reversedBy id := by
  obtain ⟨extra, hextra, hplain⟩ := h.movements
  have hnone : extra.filter (fun r =>
      r.movementKind == .reversal && r.reversesMovementId == some id) = [] := by
    rw [List.filter_eq_nil_iff]
    intro m hm
    simp [(hplain m hm).2]
  rw [FactTables.reversedBy, FactTables.reversedBy, hextra, List.filter_append, hnone,
    List.append_nil]

theorem posted_of_no_basis (hnd : (t.inventoryMovements.map (·.id)).Nodup)
    (hi : t.findItem item = some i) (hzero : i.landedCostAmount = 0) :
    ∀ m ∈ depletionsOf t item, postedCost t m.id = 0 := by
  intro m hm
  rw [postedCost_depletion hnd hi hm, FactTables.movementBasis, hzero, proRataShare_zero_total,
    proRataShare_zero_total, sub_zero]

end Relieved

section Report

variable {t t' : FactTables} {item : ItemId} {i : InventoryItemRow} {filter : ProfitabilityFilter}

theorem KeepsSales.depletionFacts (h : KeepsSales t t')
    (hitems : ∀ m ∈ t.inventoryMovements, ∃ i, t.findItem m.inventoryItemId = some i) :
    t'.depletionFacts filter.admits = t.depletionFacts filter.admits := by
  have hrow : ∀ m ∈ t.inventoryMovements,
      t'.depletionRow filter.admits m = t.depletionRow filter.admits m := by
    intro m hm
    obtain ⟨i, hi⟩ := hitems m hm
    obtain ⟨i', hi', hentity, hacquisition, -⟩ := h.items _ i hi
    have hadmits : ∀ o, filter.admits o i' = filter.admits o i := fun o => by
      rw [ProfitabilityFilter.admits, ProfitabilityFilter.admits, hentity, hacquisition]
    simp only [FactTables.depletionRow, FactTables.findOrder, h.lines, h.orders, hi, hi',
      h.reversedBy, Option.bind_eq_bind, Option.bind_some, hadmits]
  have hrows : t'.inventoryMovements.filterMap (t'.depletionRow filter.admits) =
      t.inventoryMovements.filterMap (t.depletionRow filter.admits) := by
    obtain ⟨extra, hextra, hplain⟩ := h.movements
    have hnone : extra.filterMap (t'.depletionRow filter.admits) = [] := by
      rw [List.filterMap_eq_nil_iff]
      intro m hm
      simp [FactTables.depletionRow, (hplain m hm).1]
    rw [hextra, List.filterMap_append, hnone, List.append_nil]
    exact List.filterMap_congr hrow
  rw [FactTables.depletionFacts, FactTables.depletionFacts, hrows]

variable {admits : OrderRow → InventoryItemRow → Bool}

variable {m : InventoryMovementRow} {r : DepletionFact}

theorem depletionRow_sale (h : t.depletionRow admits m = some r) :
    m.movementKind = .depletionSale ∧ r.inventoryItemId = m.inventoryItemId ∧
      r.quantity = -(m.quantity + t.reversedBy m.id) := by
  simp only [FactTables.depletionRow, Option.bind_eq_bind, Option.bind_eq_some_iff] at h
  obtain ⟨_, -, _, -, _, -, _, -, h⟩ := h
  split_ifs at h with hsale
  cases h
  exact ⟨hsale.1, rfl, rfl⟩

/-- What a joined row of the item counts, as far as it is a sale at all. -/
def soldPart (item : ItemId) (r : DepletionFact) : Money :=
  if r.inventoryItemId = item then max r.quantity 0 else 0

theorem soldPart_nonneg (item : ItemId) (r : DepletionFact) : 0 ≤ soldPart item r := by
  unfold soldPart
  split_ifs
  · exact le_max_right _ _
  · exact le_rfl

theorem Traded.soldPart_le (h : Traded i t) (hm : m ∈ t.inventoryMovements)
    (hr : t.depletionRow admits m = some r) : soldPart i.id r ≤
      if m.inventoryItemId == i.id && m.movementKind == .depletionSale then |m.quantity|
      else 0 := by
  obtain ⟨hkind, hitem, hquantity⟩ := depletionRow_sale hr
  rw [soldPart, hitem, hquantity]
  by_cases hsame : m.inventoryItemId = i.id
  · have hmem : m ∈ depletionsOf t i.id := mem_depletionsOf.2 ⟨hm, hsame, hkind⟩
    have hback : 0 ≤ t.reversedBy m.id := by
      refine List.sum_nonneg fun q hq => ?_
      obtain ⟨r, hr, rfl⟩ := List.mem_map.1 hq
      obtain ⟨hr, hreverses⟩ := List.mem_filter.1 hr
      simp only [Bool.and_eq_true, beq_iff_eq] at hreverses
      exact (h.restored m hmem r hr hreverses.1 hreverses.2).le
    rw [if_pos hsame, if_pos (by simp [hsame, hkind]), abs_of_neg (h.sold m hmem)]
    refine max_le ?_ (neg_nonneg.2 (h.sold m hmem).le)
    linarith
  · rw [if_neg hsame, if_neg (by simp [hsame])]

theorem Traded.listed_le_sold (h : Traded i t) (admits : OrderRow → InventoryItemRow → Bool) :
    ((itemEvents (t.depletionFacts admits) i.id).map (·.quantity)).sum ≤ soldQuantity t i.id := by
  set rows := t.inventoryMovements.filterMap (t.depletionRow admits) with hrows
  have hsold : (rows.map (soldPart i.id)).sum ≤ soldQuantity t i.id := by
    rw [soldQuantity, depletionsOf, sum_map_filter]
    refine sum_filterMap_le (fun m _ => ?_) fun m hm r hr => h.soldPart_le hm hr
    split_ifs
    · exact abs_nonneg _
    · exact le_rfl
  refine le_trans ?_ hsold
  have hperm := List.perm_insertionSort (fun a b : DepletionFact => a.group ≤ b.group)
  rw [itemEvents, FactTables.depletionFacts, (((hperm _).filter _).map _).sum_eq,
    List.filter_filter, sum_map_filter, List.map_map, ← hrows,
    ← sum_map_dedup_groups rows (·.group) (soldPart i.id)]
  refine List.sum_le_sum fun group _ => ?_
  simp only [Function.comp_apply]
  split_ifs with hcounts
  · simp only [Bool.and_eq_true, beq_iff_eq] at hcounts
    have hfilter : ∀ p q : DepletionFact → Bool, (∀ r, p r = true ↔ q r = true) →
        rows.filter p = rows.filter q := fun p q hpq =>
      List.filter_congr fun r _ => Bool.eq_iff_iff.2 (hpq r)
    refine le_of_le_of_eq ?_ (congrArg (fun l => (l.map (soldPart i.id)).sum)
      (hfilter (fun r => decide (r.group = group)) _ fun r => by simp))
    refine List.sum_le_sum fun r hr => ?_
    have hgroup : r.group = group := of_decide_eq_true (List.mem_filter.1 hr).2
    have hitem : r.inventoryItemId = i.id := by
      rw [← hcounts.1, ← hgroup]
      rfl
    rw [soldPart, if_pos hitem]
    exact le_max_left _ _
  · refine List.sum_nonneg fun x hx => ?_
    obtain ⟨r, -, rfl⟩ := List.mem_map.1 hx
    exact soldPart_nonneg _ _

theorem find?_map_congr {α β : Type} {R : α → β → Prop} {p : α → Bool} {q : β → Bool}
    {f : β → Money} {x : Money} : ∀ {as : List α} {bs : List β},
      (∀ a ∈ as, ∀ b, R a b → q b = p a ∧ (p a = true → f b = x)) → List.Forall₂ R as bs →
      (bs.find? q).map f = (as.find? p).map fun _ => x
  | [], [], _, .nil => rfl
  | a :: as, b :: bs, h, .cons hab hrest => by
    obtain ⟨hfirst, htail⟩ := List.forall_mem_cons.1 h
    obtain ⟨hp, hx⟩ := hfirst b hab
    rw [List.find?_cons, List.find?_cons, hp]
    cases hpa : p a with
    | true => rw [Option.map_some, Option.map_some, hx hpa]
    | false => exact find?_map_congr htail hrest

theorem basisShares_zero (events : List DepletionFact) :
    basisShares 0 events = events.map fun _ => 0 := by
  simp [basisShares, LargestRemainder.apportion_zero, signedLike, List.map_const']

theorem reportedCost_of_no_pool (hadmits : orderPredicates filter = .ok admits)
    (hi : t.findItem i.id = some i)
    (hpool : 0 < ((itemEvents (t.depletionFacts admits) i.id).map (·.quantity)).sum →
      depletedPool i ((itemEvents (t.depletionFacts admits) i.id).map (·.quantity)).sum = .ok 0)
    (line : ℕ) : reportedCost t filter i.id line =
      ((t.depletionFacts admits).find? fun d =>
        d.inventoryItemId == i.id && d.orderLineId == line).map fun _ => 0 := by
  obtain ⟨rows, hreport, hall⟩ := @report_ok t admits filter hadmits
  rw [reportedCost, hreport]
  change (rows.find? fun row => row.inventoryItemId == i.id && row.orderLineId == line).map _ = _
  refine find?_map_congr ?_ hall
  rintro d hd row ⟨hitem, hline, item, basis, hfound, hbasis, hcost⟩
  rw [hitem, hline]
  refine ⟨rfl, fun hlisted => ?_⟩
  simp only [Bool.and_eq_true, beq_iff_eq] at hlisted
  rw [hlisted.1, hi, Option.some.injEq] at hfound
  subst hfound
  have hevent : d ∈ itemEvents (t.depletionFacts admits) i.id := by
    simp [itemEvents, hd, hlisted.1]
  have hpos : ∀ d ∈ t.depletionFacts admits, 0 < d.quantity :=
    fun d hd => (mem_depletionFacts hd).1
  have hne := List.ne_nil_of_mem hevent
  obtain ⟨pool, hpool', hbasis'⟩ := basisByEvent_eq hpos hne
  rw [hpool (sum_pos_of_events hne fun d hd => hpos d (List.mem_of_mem_filter hd)),
    Except.ok.injEq] at hpool'
  rw [hbasis, Except.ok.injEq, ← hpool', basisShares_zero] at hbasis'
  have hlen : ((itemEvents (t.depletionFacts admits) i.id).map fun _ => (0 : Money)).length =
      ((itemEvents (t.depletionFacts admits) i.id).map (·.orderLineId)).length := by simp
  have hzero := (lookup_zip_iff (f := fun _ => 0) (lines_nodup i.id) hlen).2 (by
    rw [List.map_map]
    rfl)
  rw [hcost, hbasis']
  exact hzero d.orderLineId (List.mem_map_of_mem hevent)

end Report

theorem orderPredicates_admits {filter : ProfitabilityFilter}
    {admits : OrderRow → InventoryItemRow → Bool} (h : orderPredicates filter = .ok admits) :
    admits = filter.admits := by
  unfold orderPredicates at h
  split at h
  · split_ifs at h
    exact (Except.ok.inj h).symm
  · exact (Except.ok.inj h).symm

theorem KeepsSales.reportedCost {t t' : FactTables} {item now after : InventoryItemRow}
    {filter : ProfitabilityFilter} (h : KeepsSales t t') (htraded : Traded item t)
    (hnow : t.findItem item.id = some now) (hq : 0 < now.quantity)
    (hcost : 2 * (|now.landedCostAmount| * soldQuantity t item.id) < now.quantity)
    (hafter : t'.findItem item.id = some after) (hempty : after.landedCostAmount = 0)
    (hq' : 0 < after.quantity) (hadmits : orderPredicates filter = .ok filter.admits) (line : ℕ) :
    Loxep.reportedCost t' filter item.id line = Loxep.reportedCost t filter item.id line := by
  have hid : now.id = item.id := (findItem_id hnow).2
  have hid' : after.id = item.id := (findItem_id hafter).2
  have hlisted := htraded.listed_le_sold filter.admits
  have hfacts : t'.depletionFacts filter.admits = t.depletionFacts filter.admits :=
    h.depletionFacts htraded.items_known
  have hbefore := reportedCost_of_no_pool (i := now) hadmits (by rw [hid, hnow])
    (fun hpos => by
      rw [depletedPool_eq hq hpos, Except.ok.injEq]
      rw [hid] at hpos ⊢
      exact proRataShare_eq_zero_of_le hq hpos.le hlisted
        ((proRataShare_eq_zero_iff hq soldQuantity_nonneg).2 hcost)) line
  have hafterwards := reportedCost_of_no_pool (i := after) hadmits (by rw [hid', hafter])
    (fun hpos => by
      rw [depletedPool_eq hq' hpos, hempty, proRataShare_zero_total]) line
  rw [hid] at hbefore
  rw [hid', hfacts] at hafterwards
  rw [hbefore, hafterwards]

/-- After any trades of an item, a part-out conserves its basis exactly when everything ever sold
of it, reversed or not, weighs less than half a millionth of its cost. -/
theorem part_out_conserves_iff {start t t' : FactTables} {i : InventoryItemRow} {ids : PartOutIds}
    {input : PartOutInput} {result : PartOutResult} (hstart : Unsold start i)
    (htrades : Trades start t) (hinput : input.inventoryItemId = i.id)
    (hpart : partOut t ids input = .ok (result, t')) :
    ConservesBasis t t' i result.children ↔
      2 * (|i.landedCostAmount| * soldQuantity t i.id) < i.quantity := by
  have htraded := htrades.traded hstart
  obtain ⟨now, hnow, hlanded, hquantity⟩ := htraded.found
  rw [← hinput] at hnow
  obtain ⟨hkeeps, hchildren, after, hafter, hempty, hsame⟩ := partOut_ok hpart hnow
  rw [hinput] at hnow hafter
  have hq : 0 < now.quantity := hquantity ▸ hstart.positive
  have hq' : 0 < after.quantity := hsame ▸ hq
  have hzero := posted_zero_iff htraded.movement_ids hnow hq
  have hafterwards := posted_of_no_basis (hkeeps.ids htraded.movement_ids) hafter hempty
  rw [hkeeps.depletionsOf] at hafterwards
  rw [← hlanded, ← hquantity, ← hzero]
  constructor
  · intro hconserves m hm
    rw [← hconserves.posted m hm]
    exact hafterwards m hm
  · intro hposted
    refine ⟨?_, ?_, ?_⟩
    · have hrelieved : relieved t i.id = 0 := by
        refine List.sum_eq_zero fun x hx => ?_
        obtain ⟨m, hm, rfl⟩ := List.mem_map.1 hx
        exact hposted m (List.mem_of_mem_filter hm)
      rw [hchildren, hlanded, hrelieved, sub_zero]
    · intro m hm
      rw [hafterwards m hm, hposted m hm]
    · intro filter line
      cases hpredicates : orderPredicates filter with
      | error e => simp [reportedCost, itemRealizedContribution, hpredicates, bind, Except.bind]
      | ok admits =>
        obtain rfl := orderPredicates_admits hpredicates
        exact hkeeps.reportedCost htraded hnow hq (hzero.1 hposted) hafter hempty hq' hpredicates
          line

namespace Small

def halves : PartOutInput where
  inventoryItemId := 0
  children := [⟨moneyUnits, none, .unit, none⟩, ⟨moneyUnits, none, .unit, none⟩]
  occurredAt := ⟨⟨2026, 2, 1⟩, 0⟩

def halvesIds : PartOutIds where
  group := "g"
  item := fun index => index + 1
  itemCode := fun index => s!"ITM-{index + 1}"
  foundMovement := fun index => index + 10
  consumption := 20

def fourSold : FactTables := sold stock 1 0 4 "ffl:a"

def partedOut (t : FactTables) : FactTables := after t (partOut t halvesIds halves)

def childrenCost (t : FactTables) : Option Money :=
  (partOut t halvesIds halves).toOption.map fun parted =>
    (parted.1.children.map (·.landedCostAmount)).sum

theorem stock_unsold : Unsold stock widget where
  found := rfl
  movement_ids := by decide
  positive := by decide
  reversals_known := by simp [ReversalsKnown, stock]
  items_known := by
    intro m hm
    rw [List.mem_singleton.1 hm]
    exact ⟨widget, rfl⟩
  unsold := by decide

theorem fourSold_trades : Trades stock fourSold := by
  obtain ⟨_, hsold⟩ := @after_eq _ stock (recordMovement stock 1 (sale 0 4 "ffl:a"))
    (by decide +kernel)
  exact .record .start (by decide) hsold

end Small

theorem sold_part_carried_on : ¬ ∀ (start t t' : FactTables) (i : InventoryItemRow)
    (ids : PartOutIds) (input : PartOutInput) (result : PartOutResult), Unsold start i →
      Trades start t → input.inventoryItemId = i.id → partOut t ids input = .ok (result, t') →
      ConservesBasis t t' i result.children := by
  intro hall
  obtain ⟨result, hpart⟩ := @Small.after_eq _ Small.fourSold
    (partOut Small.fourSold Small.halvesIds Small.halves) (by decide +kernel)
  have hconserves := hall Small.stock Small.fourSold _ Small.widget Small.halvesIds Small.halves
    result Small.stock_unsold Small.fourSold_trades rfl hpart
  have hchildren : Small.childrenCost Small.fourSold = some (100 * moneyUnits) := by
    decide +kernel
  have hrelieved : relieved Small.fourSold Small.widget.id = 40 * moneyUnits := by decide +kernel
  have hsum := hconserves.handed_on
  rw [Small.childrenCost, hpart] at hchildren
  have hcarried := Option.some.inj hchildren
  rw [hrelieved] at hsum
  exact absurd (hcarried.symm.trans hsum) (by decide)

theorem unsold_part_out_conserves : ∃ result, partOut Small.stock Small.halvesIds Small.halves =
    .ok (result, Small.partedOut Small.stock) ∧
      ConservesBasis Small.stock (Small.partedOut Small.stock) Small.widget result.children := by
  obtain ⟨result, hpart⟩ := @Small.after_eq _ Small.stock
    (partOut Small.stock Small.halvesIds Small.halves) (by decide +kernel)
  exact ⟨result, hpart,
    (part_out_conserves_iff Small.stock_unsold .start rfl hpart).2 (by decide +kernel)⟩

end Loxep

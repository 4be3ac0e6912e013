import Loxep.Lib.ListSums
import Loxep.Proofs.EngineSpec
import Loxep.StockTransactions

/-!
# The stock operations

What each writes to the movement ledger, and what it comes to when it returns.
-/

/-!
## What the stock operations write

A returned `recordMovement` has found its key in the ledger and written nothing, or it has
appended one row and recomputed its item's balance. Nothing else of any item changes, so a layer
(its quantity and its basis) is touched by a split or a part-out only.
-/

namespace Loxep

section Items

variable {t t' : FactTables} {id : ItemId} {item : InventoryItemRow}

theorem findItem_id (h : t.findItem id = some item) : item ∈ t.inventoryItems ∧ item.id = id :=
  ⟨List.mem_of_find?_eq_some h, by simpa using List.find?_some h⟩

theorem loadItem_eq_ok : t.loadItem id = .ok item ↔ t.findItem id = some item := by
  unfold FactTables.loadItem
  split <;> simp_all

theorem findItem_of_mem (hnd : (t.inventoryItems.map (·.id)).Nodup) (h : item ∈ t.inventoryItems)
    : t.findItem item.id = some item := by
  rcases hfind : t.findItem item.id with _ | found
  · have := List.find?_eq_none.1 hfind item h
    simp at this
  · obtain ⟨hmem, hid⟩ := findItem_id hfind
    rw [List.inj_on_of_nodup_map hnd hmem h hid]

theorem insertItem_eq_ok {row : InventoryItemRow} : t.insertItem row = .ok t' ↔
    row.id ∉ t.inventoryItems.map (·.id) ∧ 0 < row.quantity ∧
      { t with inventoryItems := t.inventoryItems ++ [row] } = t' := by
  simp only [FactTables.insertItem, Except.bind_eq_ok, Except.require_eq_ok, Except.pure_eq_ok,
    exists_const]

theorem findItem_updateItem {f : InventoryItemRow → InventoryItemRow} (hf : ∀ i, (f i).id = i.id)
    (n : ItemId) : (t.updateItem id f).findItem n =
      (t.findItem n).map fun i => if i.id = id then f i else i := by
  have hid : ∀ i : InventoryItemRow, (if i.id = id then f i else i).id = i.id := by
    intro i
    split_ifs
    · exact hf i
    · rfl
  simp only [FactTables.findItem, FactTables.updateItem, List.find?_map, Function.comp_def, hid]

end Items

section Movements

variable {t t' : FactTables} {newId : MovementId} {value : RecordMovementInput}
  {result : RecordMovementResult}

def SignAgrees (kind : MovementKind) (quantity : Money) : Prop :=
  kind = .reversal ∨ (kind.inbound ↔ 0 < quantity)

theorem assertSign_eq_ok {kind : MovementKind} {quantity : Money} {u : Unit} :
    assertSign kind quantity = .ok u ↔ SignAgrees kind quantity := by
  simp only [assertSign, Except.require_eq_ok, SignAgrees]

def written (t : FactTables) (newId : MovementId) (value : RecordMovementInput) : FactTables :=
  { t with inventoryMovements := t.inventoryMovements ++ [movementRow newId value] }.refreshItemBalance
    value.inventoryItemId (value.movementKind = MovementKind.depletionSale)

def writtenResult (t : FactTables) (newId : MovementId) (value : RecordMovementInput) :
    RecordMovementResult :=
  let onHand := (written t newId value).ledgerBalance value.inventoryItemId
  ⟨movementRow newId value, true, onHand, decide (onHand < 0)⟩

structure Writes (t : FactTables) (newId : MovementId) (value : RecordMovementInput) : Prop where
  new_key : ∀ m ∈ t.inventoryMovements, m.deduplicationKey ≠ value.deduplicationKey
  reversal : value.reversesMovementId.isSome ↔ value.movementKind = .reversal
  new_id : newId ∉ t.inventoryMovements.map (·.id)

theorem recordMovement_eq_ok : recordMovement t newId value = .ok (result, t') ↔
    value.quantity ≠ 0 ∧ SignAgrees value.movementKind value.quantity ∧
      ∃ item, t.findItem value.inventoryItemId = some item ∧
        ((∃ existing, t.inventoryMovements.find?
            (·.deduplicationKey == value.deduplicationKey) = some existing ∧
            result = ⟨existing, false, item.quantityOnHand,
              decide (item.quantityOnHand < 0)⟩ ∧ t' = t) ∨
          (Writes t newId value ∧ result = writtenResult t newId value ∧
            t' = written t newId value)) := by
  have hnone : t.inventoryMovements.find? (·.deduplicationKey == value.deduplicationKey) = none ↔
      ∀ m ∈ t.inventoryMovements, m.deduplicationKey ≠ value.deduplicationKey := by
    simp [List.find?_eq_none]
  unfold recordMovement
  simp only [Except.bind_eq_ok, Except.require_eq_ok, assertSign_eq_ok, loadItem_eq_ok,
    exists_const]
  refine and_congr_right fun _ => and_congr_right fun _ => exists_congr fun item =>
    and_congr_right fun _ => ?_
  split
  · rename_i existing hfound
    rw [Except.pure_eq_ok, Prod.mk.injEq]
    constructor
    · rintro ⟨rfl, rfl⟩
      exact .inl ⟨existing, hfound, rfl, rfl⟩
    · rintro (⟨e, he, rfl, rfl⟩ | ⟨hw, -⟩)
      · rw [hfound] at he
        cases he
        exact ⟨rfl, rfl⟩
      · rw [hnone.2 hw.new_key] at hfound
        cases hfound
  · rename_i hfound
    simp only [Except.bind_eq_ok, Except.require_eq_ok, Except.pure_eq_ok, exists_const,
      Prod.mk.injEq]
    constructor
    · rintro ⟨hrev, hid, rfl, rfl⟩
      exact .inr ⟨⟨hnone.1 hfound, hrev, hid⟩, rfl, rfl⟩
    · rintro (⟨e, he, -⟩ | ⟨hw, rfl, rfl⟩)
      · rw [hfound] at he
        cases he
      · exact ⟨hw.reversal, hw.new_id, rfl, rfl⟩

theorem written_movements : (written t newId value).inventoryMovements =
    t.inventoryMovements ++ [movementRow newId value] := rfl

end Movements

section Layers

/-- An item as a cost layer: where it came from, its quantity, and the basis it carries. -/
structure Layer where
  id : ItemId
  originItemId : Option ItemId
  quantity : Money
  landedCostAmount : Money

def InventoryItemRow.layer (i : InventoryItemRow) : Layer :=
  ⟨i.id, i.originItemId, i.quantity, i.landedCostAmount⟩

def FactTables.layers (t : FactTables) : List Layer :=
  t.inventoryItems.map InventoryItemRow.layer

def takeBasis (layers : List Layer) (id : ItemId) (amount : Money) : List Layer :=
  layers.map fun l =>
    if l.id = id then { l with landedCostAmount := l.landedCostAmount - amount } else l

variable {t t' : FactTables} {newId : MovementId} {value : RecordMovementInput}
  {result : RecordMovementResult}

theorem layers_updateItem {id : ItemId} {f : InventoryItemRow → InventoryItemRow}
    (hf : ∀ i, (f i).layer = i.layer) : (t.updateItem id f).layers = t.layers := by
  simp only [FactTables.layers, FactTables.updateItem, List.map_map]
  refine List.map_congr_left fun i _ => ?_
  simp only [Function.comp_apply]
  split_ifs
  · exact hf i
  · rfl

theorem layers_written : (written t newId value).layers = t.layers := by
  unfold written FactTables.refreshItemBalance
  exact layers_updateItem fun i => rfl

theorem recordMovement_layers (h : recordMovement t newId value = .ok (result, t')) :
    t'.layers = t.layers := by
  obtain ⟨-, -, item, -, h⟩ := recordMovement_eq_ok.1 h
  rcases h with ⟨existing, -, -, rfl⟩ | ⟨-, -, rfl⟩
  · rfl
  · exact layers_written

theorem recordMovement_ids (h : recordMovement t newId value = .ok (result, t'))
    (hnd : (t.inventoryMovements.map (·.id)).Nodup) :
    (t'.inventoryMovements.map (·.id)).Nodup := by
  obtain ⟨-, -, item, -, h⟩ := recordMovement_eq_ok.1 h
  rcases h with ⟨existing, -, -, rfl⟩ | ⟨hw, -, rfl⟩
  · exact hnd
  · rw [written_movements, List.map_append, List.map_singleton]
    refine List.nodup_append.2 ⟨hnd, List.nodup_singleton _, ?_⟩
    rintro a ha b hb rfl
    rw [List.mem_singleton] at hb
    rw [hb] at ha
    exact hw.new_id ha

theorem layers_ids : t.layers.map (·.id) = t.inventoryItems.map (·.id) := by
  simp only [FactTables.layers, List.map_map]
  rfl

end Layers

/-!
## What the operations on the stock come to

A returned operation has left the tables as they were, or it has written one movement, or
inserted one reservation, or closed one.
-/

theorem findItem_of_mem_ids {t : FactTables} {id : ItemId} (h : id ∈ t.inventoryItems.map (·.id))
    : ∃ item, t.findItem id = some item := by
  rw [← Option.isSome_iff_exists, FactTables.findItem, List.find?_isSome]
  obtain ⟨i, hi, hid⟩ := List.mem_map.1 h
  exact ⟨i, hi, by simpa using hid⟩

section Ledger

variable {s t : FactTables} {row : InventoryMovementRow}

theorem ledgerBalance_append (h : t.inventoryMovements = s.inventoryMovements ++ [row])
    (item : ItemId) : t.ledgerBalance item = s.ledgerBalance item +
      if row.inventoryItemId = item then row.quantity else 0 := by
  simp only [FactTables.ledgerBalance, h, List.filter_append, List.map_append, List.sum_append,
    List.filter_cons, List.filter_nil, beq_iff_eq]
  split_ifs <;> simp

theorem reversedBy_append (h : t.inventoryMovements = s.inventoryMovements ++ [row])
    (id : MovementId) : t.reversedBy id = s.reversedBy id +
      if row.movementKind = .reversal ∧ row.reversesMovementId = some id then row.quantity
      else 0 := by
  simp only [FactTables.reversedBy, h, List.filter_append, List.map_append, List.sum_append,
    List.filter_cons, List.filter_nil, Bool.and_eq_true, beq_iff_eq]
  split_ifs <;> simp

def InventoryMovementRow.Depletes (m : InventoryMovementRow) (id : AllocationId) : Prop :=
  m.inventoryAllocationId = some id ∧ m.movementKind = .depletionSale

instance (m : InventoryMovementRow) (id : AllocationId) : Decidable (m.Depletes id) :=
  inferInstanceAs (Decidable (_ ∧ _))

theorem depletedAgainst_eq (s : FactTables) (id : AllocationId) :
    s.depletedAgainstAllocation id = -(s.inventoryMovements.map fun m =>
      if m.Depletes id then m.quantity + s.reversedBy m.id else 0).sum := by
  simp only [FactTables.depletedAgainstAllocation, sum_map_filter, Bool.and_eq_true, beq_iff_eq,
    InventoryMovementRow.Depletes]
  rfl

def ReversalsKnown (s : FactTables) : Prop :=
  ∀ r ∈ s.inventoryMovements, ∀ id ∈ r.reversesMovementId,
    id ∈ s.inventoryMovements.map (·.id)

theorem reversedBy_eq_zero (hs : ReversalsKnown s) {id : MovementId}
    (hid : id ∉ s.inventoryMovements.map (·.id)) : s.reversedBy id = 0 := by
  have hnone : s.inventoryMovements.filter (fun r =>
      r.movementKind == .reversal && r.reversesMovementId == some id) = [] := by
    refine List.filter_eq_nil_iff.2 fun r hr hrev => hid (hs r hr id ?_)
    simp only [Bool.and_eq_true, beq_iff_eq] at hrev
    exact hrev.2
  rw [FactTables.reversedBy, hnone]
  rfl

theorem depletedAgainst_append (hs : ReversalsKnown s)
    (h : t.inventoryMovements = s.inventoryMovements ++ [row])
    (hid : row.id ∉ s.inventoryMovements.map (·.id)) (hkind : row.movementKind ≠ .reversal)
    (id : AllocationId) : t.depletedAgainstAllocation id = s.depletedAgainstAllocation id -
      if row.Depletes id then row.quantity else 0 := by
  have hreversed : ∀ m, t.reversedBy m = s.reversedBy m := by
    intro m
    rw [reversedBy_append h, if_neg fun hrow => hkind hrow.1, add_zero]
  simp only [depletedAgainst_eq, h, hreversed, List.map_append, List.map_cons, List.map_nil,
    List.sum_append, List.sum_cons, List.sum_nil, reversedBy_eq_zero hs hid, add_zero]
  ring

theorem depletedAgainst_reversal (hids : (s.inventoryMovements.map (·.id)).Nodup)
    {original : InventoryMovementRow} (horiginal : original ∈ s.inventoryMovements)
    (h : t.inventoryMovements = s.inventoryMovements ++ [row])
    (hkind : row.movementKind = .reversal) (hrow : row.reversesMovementId = some original.id)
    (id : AllocationId) : t.depletedAgainstAllocation id = s.depletedAgainstAllocation id -
      if original.Depletes id then row.quantity else 0 := by
  have hnot : ¬ row.Depletes id := by
    rintro ⟨-, hsale⟩
    rw [hsale] at hkind
    cases hkind
  have hsplit : ∀ m : InventoryMovementRow,
      (if m.Depletes id then m.quantity + t.reversedBy m.id else 0) =
        (if m.Depletes id then m.quantity + s.reversedBy m.id else 0) +
          if m.Depletes id ∧ original.id = m.id then row.quantity else 0 := by
    intro m
    rw [reversedBy_append h]
    simp only [hkind, hrow, true_and, Option.some.injEq]
    split_ifs <;> simp_all
    ring
  have hsum : (s.inventoryMovements.map fun m =>
      if m.Depletes id ∧ original.id = m.id then row.quantity else 0).sum =
        if original.Depletes id then row.quantity else 0 := by
    rw [sum_map_single (List.Nodup.of_map _ hids) horiginal]
    · simp
    · intro m hm hne
      refine if_neg fun hd => hne ?_
      exact List.inj_on_of_nodup_map hids hm horiginal hd.2.symm
  simp only [depletedAgainst_eq, h, hsplit, List.map_append, List.map_cons, List.map_nil,
    List.sum_append, List.sum_cons, List.sum_nil, if_neg hnot, List.sum_map_add, hsum]
  simp only [hnot, false_and, if_false]
  ring

end Ledger

theorem movementKeyDepletionSale_alloc {fulfillment line : ℕ} {id id' : AllocationId}
    (h : movementKeyDepletionSale fulfillment line id =
      movementKeyDepletionSale fulfillment line id') : id = id' := by
  have hl := congrArg String.toList h
  simp only [movementKeyDepletionSale] at hl
  exact toString_injective (by simpa using hl)

section Allocations

variable {s t : StockTables} {id : AllocationId}

theorem insertAllocation_eq_ok {row : InventoryAllocationRow} :
    s.insertAllocation row = .ok t ↔ (row.id ∉ s.inventoryAllocations.map (·.id) ∧
      ∀ line ∈ row.orderLineId,
        ¬ s.inventoryAllocations.any (StockTables.holds line row.inventoryItemId)) ∧
      { s with inventoryAllocations := s.inventoryAllocations ++ [row] } = t := by
  simp only [StockTables.insertAllocation, Except.bind_eq_ok, Except.require_eq_ok,
    Except.pure_eq_ok, exists_const, and_assoc]

theorem reserve_eq_ok {newId : AllocationId} {now : Timestamp} {input : ReserveInput}
    {row : InventoryAllocationRow} (h : reserve s newId now input = .ok (row, t)) :
    t = s ∨ (0 < input.quantity ∧ input.inventoryItemId ∈ s.inventoryItems.map (·.id) ∧
      newId ∉ s.inventoryAllocations.map (·.id) ∧
      t = { s with inventoryAllocations :=
        s.inventoryAllocations ++ [allocationRow newId now input] }) := by
  simp only [reserve, parseReserve, Except.bind_eq_ok, Except.require_eq_ok, exists_const,
    loadItem_eq_ok] at h
  obtain ⟨⟨-, hpos⟩, item, hitem, h⟩ := h
  obtain ⟨hmem, hid⟩ := findItem_id hitem
  split at h
  · rw [Except.pure_eq_ok, Prod.mk.injEq] at h
    exact .inl h.2.symm
  · simp only [Except.bind_eq_ok, Except.pure_eq_ok, Prod.mk.injEq] at h
    obtain ⟨-, -, t', hinsert, -, rfl⟩ := h
    obtain ⟨⟨hnew, -⟩, rfl⟩ := insertAllocation_eq_ok.1 hinsert
    exact .inr ⟨hpos, List.mem_map.2 ⟨item, hmem, hid⟩, hnew, rfl⟩

theorem release_eq_ok {status : ReleaseStatus} {row : InventoryAllocationRow}
    (h : release s id status = .ok (row, t)) :
    (∃ a ∈ s.inventoryAllocations, a.id = id ∧ a.status = .reserved) ∧
      t = s.setStatus id status.status := by
  simp only [release, Except.bind_eq_ok, Except.pure_eq_ok, Prod.mk.injEq] at h
  obtain ⟨a, ha, -, rfl⟩ := h
  unfold loadReserved at ha
  split at ha
  · cases ha
  · rename_i found hfound
    simp only [Except.bind_eq_ok, Except.require_eq_ok, Except.pure_eq_ok, exists_const] at ha
    obtain ⟨hreserved, rfl⟩ := ha
    exact ⟨⟨found, List.mem_of_find?_eq_some hfound, by simpa using List.find?_some hfound,
      hreserved⟩, rfl⟩

end Allocations

section Perform

variable {s t : StockTables}

def StockTables.record (s : StockTables) (newId : MovementId) (value : RecordMovementInput) :
    StockTables :=
  { s with toFactTables := written s.toFactTables newId value }

@[simp] theorem StockTables.record_allocations (s : StockTables) (newId : MovementId)
    (value : RecordMovementInput) :
    (s.record newId value).inventoryAllocations = s.inventoryAllocations := rfl

@[simp] theorem StockTables.record_movements (s : StockTables) (newId : MovementId)
    (value : RecordMovementInput) : (s.record newId value).inventoryMovements =
      s.inventoryMovements ++ [movementRow newId value] := rfl

theorem StockTables.record_itemIds (s : StockTables) (newId : MovementId)
    (value : RecordMovementInput) :
    (s.record newId value).inventoryItems.map (·.id) = s.inventoryItems.map (·.id) := by
  have := layers_ids (t := written s.toFactTables newId value)
  rw [layers_written, layers_ids] at this
  exact this.symm

structure Recordable (s : StockTables) (newId : MovementId) (value : RecordMovementInput) :
    Prop where
  nonzero : value.quantity ≠ 0
  sign : SignAgrees value.movementKind value.quantity
  item : value.inventoryItemId ∈ s.inventoryItems.map (·.id)
  writes : Writes s.toFactTables newId value

theorem Recordable.sale_neg {newId : MovementId} {value : RecordMovementInput}
    (hw : Recordable s newId value) (hsale : value.movementKind = .depletionSale) :
    value.quantity < 0 := by
  have hnonzero : value.quantity ≠ 0 := hw.nonzero
  have hsign := hw.sign
  simp only [SignAgrees, hsale, MovementKind.inbound, Bool.false_eq_true, false_iff,
    reduceCtorEq, false_or, not_lt] at hsign
  exact lt_of_le_of_ne hsign hnonzero

theorem record_cases {newId : MovementId} {value : RecordMovementInput}
    {result : RecordMovementResult} {t' : FactTables}
    (h : recordMovement s.toFactTables newId value = .ok (result, t')) :
    t' = s.toFactTables ∨
      (Recordable s newId value ∧ { s with toFactTables := t' } = s.record newId value) := by
  obtain ⟨hq, hsign, item, hitem, h⟩ := recordMovement_eq_ok.1 h
  rcases h with ⟨existing, -, -, rfl⟩ | ⟨hw, -, rfl⟩
  · exact .inl rfl
  · obtain ⟨hmem, hid⟩ := findItem_id hitem
    exact .inr ⟨⟨hq, hsign, List.mem_map.2 ⟨item, hmem, hid⟩, hw⟩, rfl⟩

theorem perform_cases {call : StockCall} (h : s.perform call = .ok t) :
    t = s ∨
    (∃ newId value, call = .record newId value ∧ Recordable s newId value ∧
      t = s.record newId value) ∨
    (∃ newId original occurredAt, original ∈ s.inventoryMovements ∧
      Recordable s newId (reversalOfMovement original occurredAt) ∧
      t = s.record newId (reversalOfMovement original occurredAt)) ∨
    (∃ newId now input, 0 < input.quantity ∧
      input.inventoryItemId ∈ s.inventoryItems.map (·.id) ∧
      newId ∉ s.inventoryAllocations.map (·.id) ∧
      t = { s with inventoryAllocations :=
        s.inventoryAllocations ++ [allocationRow newId now input] }) ∨
    ∃ id, ∃ status : ReleaseStatus,
      (∃ a ∈ s.inventoryAllocations, a.id = id ∧ a.status = .reserved) ∧
      t = s.setStatus id status.status := by
  cases call with
  | record newId value =>
    obtain ⟨⟨result, t'⟩, hr, rfl⟩ := Except.map_eq_ok.1 h
    rcases record_cases hr with rfl | ⟨hw, heq⟩
    · exact .inl rfl
    · exact .inr (.inl ⟨newId, value, rfl, hw, heq⟩)
  | reverse newId movementId occurredAt =>
    obtain ⟨⟨result, t'⟩, hr, rfl⟩ := Except.map_eq_ok.1 h
    unfold reverseMovement at hr
    split at hr
    · cases hr
    · rename_i original hfound
      have hcases := @record_cases _ _ (reversalOfMovement original occurredAt) _ _ hr
      rcases hcases with rfl | ⟨hw, heq⟩
      · exact .inl rfl
      · exact .inr (.inr (.inl ⟨newId, original, occurredAt,
          List.mem_of_find?_eq_some hfound, hw, heq⟩))
  | reserve newId now input =>
    obtain ⟨⟨row, t'⟩, hr, rfl⟩ := Except.map_eq_ok.1 h
    rcases reserve_eq_ok hr with rfl | hins
    · exact .inl rfl
    · exact .inr (.inr (.inr (.inl ⟨newId, now, input, hins⟩)))
  | release id status =>
    obtain ⟨⟨row, t'⟩, hr, rfl⟩ := Except.map_eq_ok.1 h
    exact .inr (.inr (.inr (.inr ⟨id, status, release_eq_ok hr⟩)))

end Perform

end Loxep

import Loxep.Proofs.Fulfilment
import Loxep.Proofs.LotCost
import Loxep.Proofs.PartOut

/-!
# A locked basis is frozen

Every operation is a chain of row statements, and of those only three set the landed cost of a row
that may be locked: the correction, the emptying of the parent of a part-out, and what a split
takes from its source. The last two do not look at the lock.
-/

namespace Loxep

section Rebases

variable {t u t' : FactTables} {f g : ItemId → Money → Money}

/-- Locked rows stay, under a landed cost that `f` reads off the old one; no row gets a quantity
that is not positive. -/
structure Rebases (f : ItemId → Money → Money) (t t' : FactTables) : Prop where
  locked : ∀ n i, t.findItem n = some i → i.costBasisLocked = true →
    ∃ i', t'.findItem n = some i' ∧ i'.costBasisLocked = true ∧
      i'.landedCostAmount = f n i.landedCostAmount
  positive : (∀ i ∈ t.inventoryItems, 0 < i.quantity) → ∀ i ∈ t'.inventoryItems, 0 < i.quantity

abbrev KeepsCost : FactTables → FactTables → Prop := Rebases fun _ landed => landed

theorem Rebases.trans (h : Rebases f t u) (h' : Rebases g u t') :
    Rebases (fun n landed => g n (f n landed)) t t' where
  locked n i hi hlocked := by
    obtain ⟨j, hj, hjlocked, hjlanded⟩ := h.locked n i hi hlocked
    obtain ⟨k, hk, hklocked, hklanded⟩ := h'.locked n j hj hjlocked
    exact ⟨k, hk, hklocked, by rw [hklanded, hjlanded]⟩
  positive hpos := h'.positive (h.positive hpos)

theorem KeepsCost.trans (h : KeepsCost t u) (h' : KeepsCost u t') : KeepsCost t t' :=
  Rebases.trans h h'

theorem Rebases.keeps (h : Rebases f t u) (h' : KeepsCost u t') : Rebases f t t' := h.trans h'

theorem Rebases.after (h' : Rebases f u t') (h : KeepsCost t u) : Rebases f t t' :=
  Rebases.trans h h'

theorem KeepsCost.of_items (h : t'.inventoryItems = t.inventoryItems) : KeepsCost t t' where
  locked n i hi hlocked := by
    refine ⟨i, ?_, hlocked, rfl⟩
    rw [← hi, FactTables.findItem, h]
    rfl
  positive hpos := h ▸ hpos

theorem KeepsCost.insert {row : InventoryItemRow} (h : t.insertItem row = .ok t') :
    KeepsCost t t' := by
  obtain ⟨-, hrow, rfl⟩ := insertItem_eq_ok.1 h
  refine ⟨fun n i hi hlocked => ⟨i, findItem_append hi, hlocked, rfl⟩, fun hpos i hi => ?_⟩
  rcases List.mem_append.1 hi with hi | hi
  · exact hpos i hi
  · rw [List.mem_singleton.1 hi]
    exact hrow

theorem Rebases.update {id : ItemId} {h : InventoryItemRow → InventoryItemRow}
    (hrow : ∀ i, (h i).id = i.id ∧ (h i).quantity = i.quantity)
    (hlock : ∀ i, i.costBasisLocked = true → (h i).costBasisLocked = true ∧
      (h i).landedCostAmount = f id i.landedCostAmount)
    (hother : ∀ n landed, n ≠ id → f n landed = landed) : Rebases f t (t.updateItem id h) where
  locked n i hi hlocked := by
    have hid := (findItem_id hi).2
    rw [findItem_updateItem fun i => (hrow i).1, hi, Option.map_some]
    refine ⟨_, rfl, ?_⟩
    split_ifs with hn
    · obtain rfl : n = id := hid.symm.trans hn
      exact hlock i hlocked
    · exact ⟨hlocked, (hother n _ fun h => hn (hid.trans h)).symm⟩
  positive hpos i hi := by
    obtain ⟨j, hj, rfl⟩ := List.mem_map.1 hi
    split_ifs
    · rw [(hrow j).2]
      exact hpos j hj
    · exact hpos j hj

theorem KeepsCost.written (newId : MovementId) (value : RecordMovementInput) :
    KeepsCost t (written t newId value) := by
  have happended : KeepsCost t { t with
      inventoryMovements := t.inventoryMovements ++ [movementRow newId value] } := .of_items rfl
  refine happended.trans ?_
  exact Rebases.update (fun i => ⟨rfl, rfl⟩) (fun i hlocked => ⟨by simp [hlocked], rfl⟩)
    fun _ _ _ => rfl

theorem KeepsCost.record {newId : MovementId} {value : RecordMovementInput}
    {result : RecordMovementResult} (h : recordMovement t newId value = .ok (result, t')) :
    KeepsCost t t' := by
  obtain ⟨-, -, _, -, hcases⟩ := recordMovement_eq_ok.1 h
  rcases hcases with ⟨existing, -, -, rfl⟩ | ⟨-, -, rfl⟩
  · exact .of_items rfl
  · exact KeepsCost.written _ _

end Rebases

def takes (id : ItemId) (amount : Money) (n : ItemId) (landed : Money) : Money :=
  if n = id then landed - amount else landed

def leaves (id : ItemId) (amount : Money) (n : ItemId) (landed : Money) : Money :=
  if n = id then amount else landed

section Operations

variable {t t' : FactTables}

variable {now occurredAt : Timestamp} {r : InventoryItemRow} {quantity : Money}

theorem createItem_keeps {ids : CreateItemIds} {value : CreateItemInput}
    (h : createItem t now ids value = .ok (r, t')) : KeepsCost t t' := by
  simp only [createItem, FactTables.insertCodedItem, Except.bind_eq_ok, Except.require_eq_ok,
    exists_const] at h
  obtain ⟨_, -, acquisition, -, inserted, ⟨-, hinserted⟩, h⟩ := h
  split_ifs at h
  · simp only [Except.bind_eq_ok, Except.pure_eq_ok, Prod.mk.injEq] at h
    obtain ⟨⟨_, received⟩, hreceived, _, -, -, rfl⟩ := h
    exact (KeepsCost.insert hinserted).trans (KeepsCost.record hreceived)
  · simp only [Except.pure_eq_ok, Prod.mk.injEq] at h
    obtain ⟨-, rfl⟩ := h
    exact KeepsCost.insert hinserted

theorem createAcquisition_keeps {connections : List ConnectionRow} {value : CreateAcquisitionInput}
    {r : AcquisitionRow} (h : t.createAcquisition connections now value = .ok (r, t'))
    : KeepsCost t t' := by
  obtain ⟨-, -, -, rfl⟩ := FactTables.createAcquisition_appends h
  exact .of_items rfl

theorem addCost_keeps {value : AddCostInput} {r : AcquisitionCostRow}
    (h : t.addCost value = .ok (r, t')) : KeepsCost t t' := by
  obtain ⟨-, rfl⟩ := FactTables.addCost_appends h
  exact .of_items rfl

theorem writeAllocation_keeps (basis : CostAllocationBasis) (a : ItemAllocation) :
    KeepsCost t (t.writeAllocation basis a) := by
  refine Rebases.update (fun i => ⟨?_, ?_⟩) (fun i hlocked => ?_) fun _ _ _ => rfl
  · split_ifs <;> rfl
  · split_ifs <;> rfl
  · rw [if_pos hlocked]
    exact ⟨hlocked, rfl⟩

theorem foldl_writeAllocation_keeps (basis : CostAllocationBasis) :
    ∀ {allocations : List ItemAllocation} {t : FactTables},
      KeepsCost t (allocations.foldl (fun t a => t.writeAllocation basis a) t)
  | [], _ => .of_items rfl
  | a :: _, _ => (writeAllocation_keeps basis a).trans (foldl_writeAllocation_keeps basis)

theorem allocateCosts_keeps {input : AllocateCostsInput} {r : AllocationOutcome}
    (h : allocateCosts t input = .ok (r, t')) : KeepsCost t t' := by
  simp only [allocateCosts, Except.bind_eq_ok, Except.pure_eq_ok, Prod.mk.injEq] at h
  obtain ⟨acquisition, -, outcome, -, -, rfl⟩ := h
  exact KeepsCost.trans (foldl_writeAllocation_keeps _) (.of_items rfl)

theorem correctCostBasis_rebases {input : CorrectCostBasisInput}
    (h : correctCostBasis t input = .ok (r, t')) :
    Rebases (leaves input.inventoryItemId input.landedCostAmount) t t' := by
  simp only [correctCostBasis, Except.bind_eq_ok, Except.require_eq_ok, exists_const,
    loadItem_eq_ok, Except.pure_eq_ok, Prod.mk.injEq] at h
  obtain ⟨-, before, hbefore, after, -, -, rfl⟩ := h
  rw [(findItem_id hbefore).2]
  exact Rebases.update (fun i => ⟨rfl, rfl⟩) (fun i hlocked => ⟨hlocked, (if_pos rfl).symm⟩)
    fun n _ hn => if_neg hn

variable {ids : TransferIds}

theorem recordTransfer_keeps {source destination : ItemId}
    (h : recordTransfer t ids source destination quantity occurredAt = .ok t') :
    KeepsCost t t' := by
  simp only [recordTransfer, Except.bind_eq_ok, Except.pure_eq_ok] at h
  obtain ⟨⟨_, out⟩, hout, ⟨_, into⟩, hinto, rfl⟩ := h
  exact (KeepsCost.record hout).trans (KeepsCost.record hinto)

theorem splitItem_rebases {item : InventoryItemRow} {overrides : SplitOverrides}
    (h : splitItem t item ids quantity overrides = .ok t') :
    Rebases (takes item.id overrides.removeLandedCostAmount) t t' := by
  simp only [splitItem, Except.bind_eq_ok, Except.pure_eq_ok] at h
  obtain ⟨created, hcreated, rfl⟩ := h
  refine Rebases.after ?_ (KeepsCost.insert hcreated)
  exact Rebases.update (fun i => ⟨rfl, rfl⟩) (fun i hlocked => ⟨hlocked, (if_pos rfl).symm⟩)
    fun n _ hn => if_neg hn

def shareOf (item : InventoryItemRow) (moved : Money) : Money :=
  proRataShare item.landedCostAmount moved item.quantity

theorem moveToLocation_rebases {input : MoveToLocationInput} {r : TransferResult}
    (hpos : ∀ i ∈ t.inventoryItems, 0 < i.quantity) (h : moveToLocation t ids input = .ok (r, t')) :
    ∃ item, t.findItem input.inventoryItemId = some item ∧
      0 < input.quantity.getD item.quantityOnHand ∧
      ((input.quantity.getD item.quantityOnHand = item.quantityOnHand ∧ KeepsCost t t') ∨
        (input.quantity.getD item.quantityOnHand ≠ item.quantityOnHand ∧
          Rebases (takes input.inventoryItemId
            (shareOf item (input.quantity.getD item.quantityOnHand))) t t')) := by
  simp only [moveToLocation, Except.bind_eq_ok, loadItem_eq_ok, Except.require_eq_ok,
    assertMovable_eq_ok, exists_const] at h
  obtain ⟨item, hitem, -, ⟨hmoved, -⟩, h⟩ := h
  obtain ⟨hmem, hid⟩ := findItem_id hitem
  refine ⟨item, hitem, hmoved, ?_⟩
  split_ifs at h with hwhole
  · simp only [Except.bind_eq_ok] at h
    obtain ⟨moved, hrecorded, hresult⟩ := h
    rw [transferResult_eq_ok hresult]
    refine .inl ⟨hwhole, (recordTransfer_keeps hrecorded).trans ?_⟩
    exact Rebases.update (fun i => ⟨rfl, rfl⟩) (fun i hlocked => ⟨hlocked, rfl⟩) fun _ _ _ => rfl
  · simp only [Except.bind_eq_ok, proRata_eq_proRataShare hmoved (hpos item hmem),
      Except.ok.injEq, exists_eq_left'] at h
    obtain ⟨split, hsplit, moved, hrecorded, hresult⟩ := h
    rw [transferResult_eq_ok hresult, ← hid]
    exact .inr ⟨hwhole, (splitItem_rebases hsplit).keeps (recordTransfer_keeps hrecorded)⟩

theorem transferEntity_rebases {input : TransferEntityInput} {r : TransferResult}
    (hpos : ∀ i ∈ t.inventoryItems, 0 < i.quantity) (h : transferEntity t ids input = .ok (r, t')) :
    ∃ item, t.findItem input.inventoryItemId = some item ∧
      0 < input.quantity.getD item.quantityOnHand ∧
      Rebases (takes input.inventoryItemId
        (shareOf item (input.quantity.getD item.quantityOnHand))) t t' := by
  simp only [transferEntity, Except.bind_eq_ok, loadItem_eq_ok, Except.require_eq_ok,
    assertMovable_eq_ok, exists_const] at h
  obtain ⟨item, hitem, -, -, ⟨hmoved, -⟩, h⟩ := h
  obtain ⟨hmem, hid⟩ := findItem_id hitem
  simp only [proRata_eq_proRataShare hmoved (hpos item hmem), Except.ok.injEq,
    exists_eq_left'] at h
  obtain ⟨split, hsplit, moved, hrecorded, hresult⟩ := h
  rw [transferResult_eq_ok hresult, ← hid]
  exact ⟨item, hid ▸ hitem, hmoved,
    (splitItem_rebases hsplit).keeps (recordTransfer_keeps hrecorded)⟩

theorem createChildren_keeps {parent : InventoryItemRow} {ids : PartOutIds}
    {landed goods : List Money} : ∀ {specs : List PartOutChild}
    {index : ℕ} {t t' : FactTables} {children : List InventoryItemRow},
    createChildren parent ids occurredAt landed goods index specs t = .ok (children, t') →
      KeepsCost t t'
  | [], _, _, _, _, h => by
    cases h
    exact .of_items rfl
  | spec :: specs, index, t, t', children, h => by
    simp only [createChildren, Except.bind_eq_ok, Except.pure_eq_ok, Prod.mk.injEq] at h
    obtain ⟨inserted, hinserted, ⟨_, found⟩, hfound, _, -, ⟨_, _⟩, hrest, -, rfl⟩ := h
    have hchild := (KeepsCost.insert hinserted).trans (KeepsCost.record hfound)
    exact hchild.trans (createChildren_keeps hrest)

theorem partOut_rebases {ids : PartOutIds} {input : PartOutInput} {r : PartOutResult}
    (h : partOut t ids input = .ok (r, t')) :
    ∃ item, t.findItem input.inventoryItemId = some item ∧
      Rebases (leaves input.inventoryItemId 0) t t' := by
  simp only [partOut, Except.bind_eq_ok, loadItem_eq_ok, Except.require_eq_ok, exists_const,
    Except.pure_eq_ok, Prod.mk.injEq] at h
  obtain ⟨_, -, parent, hparent, -, -, _, -, _, -, ⟨_, created⟩, hcreated, ⟨_, depleted⟩,
    hdepleted, _, -, -, rfl⟩ := h
  rw [(findItem_id hparent).2] at hdepleted ⊢
  refine ⟨parent, hparent, Rebases.after ?_
    ((createChildren_keeps hcreated).trans (KeepsCost.record hdepleted))⟩
  exact Rebases.update (fun i => ⟨rfl, rfl⟩) (fun i hlocked => ⟨hlocked, (if_pos rfl).symm⟩)
    fun n _ hn => if_neg hn

end Operations

section Stock

variable {s t : StockTables}

theorem consumeAllocations_keeps {newId : AllocationId → MovementId}
    {input : DepleteOnFulfillmentInput} : ∀ {as : List InventoryAllocationRow} {s t : StockTables}
    {remaining rest : Money} {ds : List Depletion},
    consumeAllocations newId input as s remaining = .ok (ds, rest, t) →
      KeepsCost s.toFactTables t.toFactTables
  | [], s, t, remaining, rest, ds, h => by
    simp only [consumeAllocations, Except.ok.injEq, Prod.mk.injEq] at h
    obtain ⟨-, -, rfl⟩ := h
    exact .of_items rfl
  | a :: as, s, t, remaining, rest, ds, h => by
    by_cases hpos : remaining ≤ 0
    · rw [consumeAllocations, if_pos hpos] at h
      simp only [Except.ok.injEq, Prod.mk.injEq] at h
      obtain ⟨-, -, rfl⟩ := h
      exact .of_items rfl
    by_cases hout : s.outstanding a ≤ 0
    · rw [consumeAllocations_skip (not_le.1 hpos) hout] at h
      exact consumeAllocations_keeps h
    rw [consumeAllocations_cons (not_le.1 hpos) (not_le.1 hout)] at h
    simp only [consumeAllocation, Except.bind_eq_ok, Except.pure_eq_ok, Prod.mk.injEq] at h
    obtain ⟨⟨_, s₁⟩, ⟨⟨_, t₁⟩, hrecord, -, rfl⟩, ⟨_, _, _⟩, hrest, -, -, rfl⟩ := h
    refine (KeepsCost.record hrecord).trans (KeepsCost.trans ?_ (consumeAllocations_keeps hrest))
    split_ifs <;> exact .of_items rfl

theorem handle_keeps {event : StockEvent} (h : s.handle event = .ok t) :
    KeepsCost s.toFactTables t.toFactTables := by
  cases event with
  | deliver newId input =>
    obtain ⟨⟨_, _⟩, hdeplete, rfl⟩ := Except.map_eq_ok.1 h
    obtain ⟨-, ds, rest, hloop, -⟩ := depleteOnFulfillment_eq_ok.1 hdeplete
    exact consumeAllocations_keeps hloop
  | call call =>
    rcases perform_cases h with rfl | ⟨_, _, -, -, rfl⟩ | ⟨_, _, _, -, -, rfl⟩ |
      ⟨_, _, _, -, -, -, rfl⟩ | ⟨_, _, -, rfl⟩
    · exact .of_items rfl
    · exact KeepsCost.written _ _
    · exact KeepsCost.written _ _
    · exact .of_items rfl
    · exact .of_items rfl

end Stock

section Runs

variable {s t : StockTables} {action : ItemAction} {f : ItemId → Money → Money}

def Frozen (s : StockTables) (action : ItemAction) : Prop :=
  ∀ n i, s.findItem n = some i → i.costBasisLocked = true →
    ∃ i', (s.apply action).findItem n = some i' ∧ i'.costBasisLocked = true ∧
      (action.corrects ≠ some n → i'.landedCostAmount = i.landedCostAmount)

def LeavesLocked (s : StockTables) (action : ItemAction) : Prop :=
  Except.returns (s.execute action) = true → s.strips action = false

instance (s : StockTables) (action : ItemAction) : Decidable (LeavesLocked s action) :=
  inferInstanceAs (Decidable (_ → _))

theorem frozen_iff (hr : Rebases f s.toFactTables (s.apply action).toFactTables)
    (hcorrects : action.corrects = none) : Frozen s action ↔
      ∀ n i, s.findItem n = some i → i.costBasisLocked = true →
        f n i.landedCostAmount = i.landedCostAmount := by
  constructor
  · intro h n i hi hlocked
    obtain ⟨i', hi', -, hlanded⟩ := h n i hi hlocked
    obtain ⟨j, hj, -, hjlanded⟩ := hr.locked n i hi hlocked
    rw [hi', Option.some.injEq] at hj
    subst hj
    rw [← hjlanded, hlanded (by simp [hcorrects])]
  · intro h n i hi hlocked
    obtain ⟨j, hj, hjlocked, hjlanded⟩ := hr.locked n i hi hlocked
    exact ⟨j, hj, hjlocked, fun _ => hjlanded.trans (h n i hi hlocked)⟩

theorem frozen_of_keeps (hr : KeepsCost s.toFactTables (s.apply action).toFactTables) :
    Frozen s action := by
  intro n i hi hlocked
  obtain ⟨j, hj, hjlocked, hjlanded⟩ := hr.locked n i hi hlocked
  exact ⟨j, hj, hjlocked, fun _ => hjlanded⟩

variable {id : ItemId} {amount landed : Money}

variable {item : InventoryItemRow} {n : ItemId}

theorem changed_frozen_iff (hr : Rebases f s.toFactTables (s.apply action).toFactTables)
    (hcorrects : action.corrects = none) (hitem : s.findItem id = some item)
    (hother : ∀ n landed, n ≠ id → f n landed = landed) : Frozen s action ↔
      (item.costBasisLocked = true → f id item.landedCostAmount = item.landedCostAmount) := by
  rw [frozen_iff hr hcorrects]
  constructor
  · exact fun h => h id item hitem
  · intro h n i hi hlocked
    by_cases hn : n = id
    · subst hn
      rw [hitem, Option.some.injEq] at hi
      subst hi
      exact h hlocked
    · exact hother n _ hn

theorem lift_eq_ok {α : Type} {result : InventoryResult (α × FactTables)}
    (h : s.lift result = .ok t) : ∃ a, result = .ok (a, t.toFactTables) := by
  obtain ⟨⟨a, t'⟩, hr, rfl⟩ := Except.map_eq_ok.1 h
  exact ⟨a, hr⟩

def Stocked (s : StockTables) : Prop := ∀ i ∈ s.inventoryItems, 0 < i.quantity

instance (s : StockTables) : Decidable (Stocked s) :=
  inferInstanceAs (Decidable (∀ i ∈ s.inventoryItems, 0 < i.quantity))

theorem partHasCost_eq_false {moved : Money} (hq : 0 < item.quantity) (hmoved : 0 < moved)
    : StockTables.partHasCost item moved = false ↔ shareOf item moved = 0 := by
  rw [shareOf, proRataShare_eq_zero_iff hq hmoved.le, StockTables.partHasCost,
    decide_eq_false_iff_not, not_le]

theorem takes_self_iff :
    takes id amount id landed = landed ↔ amount = 0 := by
  rw [takes, if_pos rfl, sub_eq_self]

theorem takes_other (h : n ≠ id) :
    takes id amount n landed = landed := if_neg h

theorem leaves_other (h : n ≠ id) :
    leaves id amount n landed = landed := if_neg h

theorem executed_frozen_iff (hs : Stocked s) (h : s.execute action = .ok t) :
    (Frozen s action ↔ s.strips action = false) ∧ Stocked t := by
  have happly : s.apply action = t := by
    unfold StockTables.apply
    rw [h]
  have hkept : KeepsCost s.toFactTables t.toFactTables → s.strips action = false →
      (Frozen s action ↔ s.strips action = false) ∧ Stocked t := fun hkeeps hstrips =>
    ⟨iff_of_true (frozen_of_keeps (happly ▸ hkeeps)) hstrips, hkeeps.positive hs⟩
  cases action with
  | createAcquisition connections now input =>
    obtain ⟨_, hop⟩ := lift_eq_ok h
    exact hkept (createAcquisition_keeps hop) rfl
  | addCost input =>
    obtain ⟨_, hop⟩ := lift_eq_ok h
    exact hkept (addCost_keeps hop) rfl
  | create now ids input =>
    obtain ⟨_, hop⟩ := lift_eq_ok h
    exact hkept (createItem_keeps hop) rfl
  | allocateCosts input =>
    obtain ⟨_, hop⟩ := lift_eq_ok h
    exact hkept (allocateCosts_keeps hop) rfl
  | stock event => exact hkept (handle_keeps h) rfl
  | correctCostBasis input =>
    obtain ⟨_, hop⟩ := lift_eq_ok h
    have hr := correctCostBasis_rebases hop
    refine ⟨iff_of_true ?_ rfl, hr.positive hs⟩
    intro n i hi hlocked
    rw [← happly] at hr
    obtain ⟨j, hj, hjlocked, hjlanded⟩ := hr.locked n i hi hlocked
    refine ⟨j, hj, hjlocked, fun hn => hjlanded.trans (leaves_other fun h => hn ?_)⟩
    rw [h, ItemAction.corrects]
  | partOut ids input =>
    obtain ⟨_, hop⟩ := lift_eq_ok h
    obtain ⟨item, hitem, hr⟩ := partOut_rebases hop
    refine ⟨?_, hr.positive hs⟩
    rw [changed_frozen_iff (happly ▸ hr) rfl hitem fun n landed hn => leaves_other hn]
    simp only [StockTables.strips, hitem, Option.any_some, leaves, if_pos]
    cases item.costBasisLocked
    · simp
    · simpa using eq_comm
  | moveToLocation ids input =>
    obtain ⟨_, hop⟩ := lift_eq_ok h
    obtain ⟨item, hitem, hmoved, hcases⟩ := moveToLocation_rebases hs hop
    have hq := hs item (findItem_id hitem).1
    rcases hcases with ⟨hwhole, hkeeps⟩ | ⟨hpart, hr⟩
    · refine hkept hkeeps ?_
      simp [StockTables.strips, hitem, hwhole]
    · refine ⟨?_, hr.positive hs⟩
      rw [changed_frozen_iff (happly ▸ hr) rfl hitem fun n landed hn => takes_other hn,
        takes_self_iff, ← partHasCost_eq_false hq hmoved]
      simp only [StockTables.strips, hitem, Option.any_some]
      cases item.costBasisLocked <;> simp [hpart]
  | transferEntity ids input =>
    obtain ⟨_, hop⟩ := lift_eq_ok h
    obtain ⟨item, hitem, hmoved, hr⟩ := transferEntity_rebases hs hop
    refine ⟨?_, hr.positive hs⟩
    rw [changed_frozen_iff (happly ▸ hr) rfl hitem fun n landed hn => takes_other hn,
      takes_self_iff, ← partHasCost_eq_false (hs item (findItem_id hitem).1) hmoved]
    simp only [StockTables.strips, hitem, Option.any_some]
    cases item.costBasisLocked <;> simp

theorem frozen_iff_leavesLocked (hs : Stocked s) (action : ItemAction) :
    (Frozen s action ↔ LeavesLocked s action) ∧ Stocked (s.apply action) := by
  cases h : s.execute action with
  | error e =>
    have happly : s.apply action = s := by
      unfold StockTables.apply
      rw [h]
    refine ⟨iff_of_true (frozen_of_keeps ?_) ?_, ?_⟩
    · rw [happly]
      exact .of_items rfl
    · intro hreturns
      rw [h] at hreturns
      cases hreturns
    · rw [happly]
      exact hs
  | ok t =>
    have happly : s.apply action = t := by
      unfold StockTables.apply
      rw [h]
    obtain ⟨hiff, ht⟩ := executed_frozen_iff hs h
    rw [happly]
    refine ⟨hiff.trans ?_, ht⟩
    have hreturns : Except.returns (s.execute action) = true := by
      rw [h]
      rfl
    exact ⟨fun hstrips _ => hstrips, fun hleaves => hleaves hreturns⟩

/-- Along any run the locked rows are frozen exactly when no action takes cost off one. -/
theorem locked_basis_frozen_iff (hs : Stocked s) (actions : List ItemAction) :
    Runs.Meets StockTables.apply Frozen s actions ↔
      Runs.Meets StockTables.apply LeavesLocked s actions :=
  Runs.meets_iff_meets (fun _ action hs => (frozen_iff_leavesLocked hs action).2)
    (fun _ action hs => (frozen_iff_leavesLocked hs action).1) hs

end Runs

def soldThenMoved (moved : Money) : List ItemAction :=
  let now : Timestamp := ⟨⟨2026, 1, 1⟩, 0⟩
  [.create now ⟨1, "ITM-1", 1⟩
      { label := "widgets"
        currency := "USD"
        locationId := some 1
        quantity := 4000000
        landedCostAmount := some 10000000 },
    .stock (.call (.record 2
      { inventoryItemId := 1
        movementKind := .depletionSale
        quantity := -1000000
        deduplicationKey := "ffl:1:1:alloc:1"
        occurredAt := now })),
    .moveToLocation ⟨1, 2, "ITM-2", 3, 4⟩ ⟨1, 2, some moved, now⟩]

def noStock : StockTables := ⟨.empty, []⟩

theorem whole_move_frozen :
    Runs.Meets StockTables.apply Frozen noStock (soldThenMoved 3000000) :=
  (locked_basis_frozen_iff (by decide) _).2 (by decide +kernel)

theorem partial_move_rebases : ¬ ∀ (s : StockTables) (actions : List ItemAction), Stocked s →
    Runs.Meets StockTables.apply Frozen s actions := by
  intro hall
  obtain ⟨-, -, hmove, -⟩ := hall noStock (soldThenMoved 1000000) (by decide)
  have hleaves := (frozen_iff_leavesLocked (by decide +kernel) _).1.1 hmove
  exact absurd hleaves (by decide +kernel)

end Loxep

import Loxep.Proofs.PostedCost

/-!
# The basis of an item across its splits

The rows of an item's family carry its landed cost between them. A depletion relieves its share of
what its row still carries over the quantity the row started with, so a row that gave units away
relieves less than it carries, and what it does not relieve stays on it for good.
-/

namespace Loxep

section Family

/-- An item and the rows split off it or off its descendants, in the order they were created. -/
def familyIds (layers : List Layer) (root : ItemId) : List ItemId :=
  layers.foldl (fun ids l => if l.originItemId.any ids.contains then ids ++ [l.id] else ids) [root]

def family (layers : List Layer) (root : ItemId) : List Layer :=
  layers.filter fun l => (familyIds layers root).contains l.id

def carried (layers : List Layer) : Money := (layers.map (·.landedCostAmount)).sum

variable {layers : List Layer} {root id : ItemId} {new l : Layer} {amount : Money}

theorem mem_family : l ∈ family layers root ↔ l ∈ layers ∧ l.id ∈ familyIds layers root := by
  simp [family]

theorem takeBasis_id (l : Layer) (id : ItemId) (amount : Money) :
    (if l.id = id then { l with landedCostAmount := l.landedCostAmount - amount } else l).id =
      l.id := by
  split_ifs <;> rfl

theorem takeBasis_ids (layers : List Layer) (id : ItemId) (amount : Money) :
    (takeBasis layers id amount).map (·.id) = layers.map (·.id) := by
  unfold takeBasis
  rw [List.map_map]
  exact List.map_congr_left fun l _ => takeBasis_id l id amount

theorem familyIds_takeBasis :
    familyIds (takeBasis layers id amount) root = familyIds layers root := by
  unfold familyIds takeBasis
  rw [List.foldl_map]
  congr 1
  funext ids l
  split_ifs <;> rfl

theorem familyIds_append (h : new.originItemId = some id) (hid : id ∈ familyIds layers root) :
    familyIds (layers ++ [new]) root = familyIds layers root ++ [new.id] := by
  have hstep : familyIds (layers ++ [new]) root =
      if new.originItemId.any (familyIds layers root).contains then
        familyIds layers root ++ [new.id] else familyIds layers root := by
    unfold familyIds
    rw [List.foldl_append]
    rfl
  rw [hstep, if_pos]
  rw [h]
  simpa using hid

theorem takeBasis_append (hne : new.id ≠ id) :
    takeBasis (layers ++ [new]) id amount = takeBasis layers id amount ++ [new] := by
  unfold takeBasis
  rw [List.map_append, List.map_singleton, if_neg hne]

theorem family_takeBasis :
    family (takeBasis layers id amount) root = takeBasis (family layers root) id amount := by
  unfold family
  rw [familyIds_takeBasis]
  unfold takeBasis
  rw [List.filter_map]
  congr 1
  refine List.filter_congr fun l _ => ?_
  simp only [Function.comp_apply, takeBasis_id]

theorem family_append (hnew : new.originItemId = some id) (hid : id ∈ familyIds layers root)
    (hfresh : new.id ∉ layers.map (·.id)) :
    family (layers ++ [new]) root = family layers root ++ [new] := by
  unfold family
  rw [familyIds_append hnew hid, List.filter_append, List.filter_singleton]
  have hold : layers.filter (fun l => (familyIds layers root ++ [new.id]).contains l.id) =
      layers.filter fun l => (familyIds layers root).contains l.id := by
    refine List.filter_congr fun l hl => ?_
    have hne : l.id ≠ new.id := fun h => hfresh (h ▸ List.mem_map_of_mem hl)
    simp [hne]
  rw [hold]
  simp

theorem carried_append (l l' : List Layer) : carried (l ++ l') = carried l + carried l' := by
  simp [carried]

theorem carried_takeBasis : ∀ {layers : List Layer}, (layers.map (·.id)).Nodup →
    id ∈ layers.map (·.id) → carried (takeBasis layers id amount) = carried layers - amount
  | [], _, h => by cases h
  | l :: layers, hnd, h => by
    obtain ⟨hl, hnd⟩ := List.nodup_cons.1 hnd
    have hcons : carried (takeBasis (l :: layers) id amount) =
        (if l.id = id then { l with landedCostAmount := l.landedCostAmount - amount }
          else l).landedCostAmount + carried (takeBasis layers id amount) := by
      simp [carried, takeBasis]
    have hcarried : carried (l :: layers) = l.landedCostAmount + carried layers := by
      simp [carried]
    rw [hcons, hcarried]
    by_cases hid : l.id = id
    · have hrest : takeBasis layers id amount = layers := by
        unfold takeBasis
        refine (List.map_congr_left fun l' hl' => if_neg ?_).trans (List.map_id _)
        rintro rfl
        have hmem : l'.id ∈ layers.map (·.id) := List.mem_map_of_mem hl'
        rw [← hid] at hmem
        exact hl hmem
      rw [if_pos hid, hrest]
      ring
    · rw [if_neg hid, carried_takeBasis hnd (List.mem_of_ne_of_mem (Ne.symm hid) h)]
      ring

end Family

section Transfer

inductive SplitsOff (layers : List Layer) (id : ItemId) : List Layer → Prop
  | whole : SplitsOff layers id layers
  | part {source : Layer} {newId : ItemId} {moved : Money} (mem : source ∈ layers)
      (source_id : source.id = id) (fresh : newId ∉ layers.map (·.id)) (pos : 0 < moved) :
      SplitsOff layers id (takeBasis (layers ++ [⟨newId, some id, moved,
        proRataShare source.landedCostAmount moved source.quantity⟩]) id
          (proRataShare source.landedCostAmount moved source.quantity))

variable {t t' : FactTables} {ids : TransferIds} {item : InventoryItemRow} {moved : Money}

variable {overrides : SplitOverrides} {source destination : ItemId} {result : TransferResult}

theorem splitItem_layers (h : splitItem t item ids moved overrides = .ok t') :
    ids.item ∉ t.layers.map (·.id) ∧ t'.inventoryMovements = t.inventoryMovements ∧
      t'.layers = takeBasis (t.layers ++ [⟨ids.item, some item.id, moved,
        overrides.landedCostAmount⟩]) item.id overrides.removeLandedCostAmount := by
  simp only [splitItem, Except.bind_eq_ok, insertItem_eq_ok, Except.pure_eq_ok] at h
  obtain ⟨created, ⟨hfresh, -, rfl⟩, rfl⟩ := h
  refine ⟨by rw [layers_ids]; exact hfresh, rfl, ?_⟩
  simp only [FactTables.layers, FactTables.updateItem, List.map_map, List.map_append, takeBasis,
    List.map_cons, List.map_nil]
  congr 1
  · refine List.map_congr_left fun i _ => ?_
    by_cases h : i.id = item.id <;> simp [InventoryItemRow.layer, h]
  · by_cases h : ids.item = item.id <;> simp [InventoryItemRow.layer, splitRow, h]

theorem recordTransfer_layers {occurredAt : Timestamp}
    (h : recordTransfer t ids source destination moved occurredAt = .ok t') :
    t'.layers = t.layers ∧ ((t.inventoryMovements.map (·.id)).Nodup →
      (t'.inventoryMovements.map (·.id)).Nodup) := by
  simp only [recordTransfer, Except.bind_eq_ok, Except.pure_eq_ok] at h
  obtain ⟨⟨r, out⟩, hout, ⟨r', into⟩, hinto, rfl⟩ := h
  exact ⟨(recordMovement_layers hinto).trans (recordMovement_layers hout),
    fun hnd => recordMovement_ids hinto (recordMovement_ids hout hnd)⟩

theorem assertMovable_eq_ok {onHand quantity : Money} {u : Unit} :
    assertMovable onHand quantity = .ok u ↔ 0 < quantity ∧ quantity ≤ onHand := by
  simp only [assertMovable, Except.bind_eq_ok, Except.require_eq_ok, exists_const]

theorem transferResult_eq_ok (h : transferResult t source destination = .ok (result, t'))
    : t' = t := by
  simp only [transferResult, Except.bind_eq_ok, Except.pure_eq_ok, Prod.mk.injEq] at h
  obtain ⟨-, -, -, -, -, rfl⟩ := h
  rfl

theorem mem_layers (h : item ∈ t.inventoryItems) : item.layer ∈ t.layers :=
  List.mem_map_of_mem h

theorem splitsOff_of_splitItem (hmem : item ∈ t.inventoryItems) (hpos : 0 < moved)
    (hassigned : overrides.landedCostAmount =
      proRataShare item.landedCostAmount moved item.quantity)
    (hremoved : overrides.removeLandedCostAmount =
      proRataShare item.landedCostAmount moved item.quantity)
    (h : splitItem t item ids moved overrides = .ok t') : SplitsOff t.layers item.id t'.layers := by
  obtain ⟨hfresh, -, hlayers⟩ := splitItem_layers h
  rw [hlayers, hassigned, hremoved]
  exact .part (mem_layers hmem) rfl hfresh hpos

theorem moveToLocation_layers {input : MoveToLocationInput}
    (hq : ∀ l ∈ t.layers, l.id = input.inventoryItemId → 0 < l.quantity)
    (h : moveToLocation t ids input = .ok (result, t')) :
    SplitsOff t.layers input.inventoryItemId t'.layers ∧
      ((t.inventoryMovements.map (·.id)).Nodup → (t'.inventoryMovements.map (·.id)).Nodup) := by
  simp only [moveToLocation, Except.bind_eq_ok, loadItem_eq_ok, Except.require_eq_ok,
    assertMovable_eq_ok, exists_const] at h
  obtain ⟨item, hitem, -, ⟨hpos, -⟩, h⟩ := h
  obtain ⟨hmem, hid⟩ := findItem_id hitem
  split_ifs at h
  · simp only [Except.bind_eq_ok] at h
    obtain ⟨moved, hmoved, hresult⟩ := h
    obtain ⟨hlayers, hids⟩ := recordTransfer_layers hmoved
    rw [transferResult_eq_ok hresult]
    have hsame : (moved.updateItem item.id fun i =>
        { i with locationId := some input.toLocationId }).layers = moved.layers :=
      layers_updateItem fun i => rfl
    exact ⟨by rw [hsame, hlayers]; exact .whole, hids⟩
  · have hquantity : 0 < item.quantity := hq item.layer (mem_layers hmem) hid
    simp only [Except.bind_eq_ok, proRata_eq_proRataShare hpos hquantity, Except.ok.injEq,
      exists_eq_left'] at h
    obtain ⟨split, hsplit, moved, hmoved, hresult⟩ := h
    obtain ⟨hlayers, hids⟩ := recordTransfer_layers hmoved
    rw [transferResult_eq_ok hresult, hlayers, ← hid]
    refine ⟨splitsOff_of_splitItem hmem hpos rfl rfl hsplit, fun hnd => hids ?_⟩
    rw [(splitItem_layers hsplit).2.1]
    exact hnd

theorem transferEntity_layers {input : TransferEntityInput}
    (hcarry : input.basisTreatment = .carryover)
    (hq : ∀ l ∈ t.layers, l.id = input.inventoryItemId → 0 < l.quantity)
    (h : transferEntity t ids input = .ok (result, t')) :
    SplitsOff t.layers input.inventoryItemId t'.layers ∧
      ((t.inventoryMovements.map (·.id)).Nodup → (t'.inventoryMovements.map (·.id)).Nodup) := by
  simp only [transferEntity, Except.bind_eq_ok, loadItem_eq_ok, Except.require_eq_ok,
    assertMovable_eq_ok, exists_const, hcarry, BasisTreatment.restated] at h
  obtain ⟨item, hitem, -, -, ⟨hpos, -⟩, h⟩ := h
  obtain ⟨hmem, hid⟩ := findItem_id hitem
  have hquantity : 0 < item.quantity := hq item.layer (mem_layers hmem) hid
  simp only [proRata_eq_proRataShare hpos hquantity, Except.ok.injEq, exists_eq_left'] at h
  obtain ⟨split, hsplit, moved, hmoved, hresult⟩ := h
  obtain ⟨hlayers, hids⟩ := recordTransfer_layers hmoved
  rw [transferResult_eq_ok hresult, hlayers, ← hid]
  refine ⟨splitsOff_of_splitItem hmem hpos rfl rfl hsplit, fun hnd => hids ?_⟩
  rw [(splitItem_layers hsplit).2.1]
  exact hnd

end Transfer

section Run

structure Unsplit (t : FactTables) (item : InventoryItemRow) : Prop where
  found : t.findItem item.id = some item
  item_ids : (t.inventoryItems.map (·.id)).Nodup
  movement_ids : (t.inventoryMovements.map (·.id)).Nodup
  positive : 0 < item.quantity
  childless : ∀ i ∈ t.inventoryItems, i.originItemId ≠ some item.id

/-- Any order of moves, transfers that carry the basis over, and depletions in the family. -/
inductive Splits (start : FactTables) (root : ItemId) : FactTables → Prop
  | start : Splits start root start
  | move {t t' : FactTables} {ids : TransferIds} {input : MoveToLocationInput}
      {result : TransferResult} (splits : Splits start root t)
      (mem : input.inventoryItemId ∈ familyIds t.layers root)
      (moved : moveToLocation t ids input = .ok (result, t')) : Splits start root t'
  | transfer {t t' : FactTables} {ids : TransferIds} {input : TransferEntityInput}
      {result : TransferResult} (splits : Splits start root t)
      (mem : input.inventoryItemId ∈ familyIds t.layers root)
      (carries : input.basisTreatment = .carryover)
      (transferred : transferEntity t ids input = .ok (result, t')) : Splits start root t'
  | deplete {t t' : FactTables} {newId : MovementId} {value : RecordMovementInput}
      {result : RecordMovementResult} (splits : Splits start root t)
      (mem : value.inventoryItemId ∈ familyIds t.layers root)
      (sale : value.movementKind = .depletionSale)
      (recorded : recordMovement t newId value = .ok (result, t')) : Splits start root t'

def relievedCost (t : FactTables) (root : ItemId) : Money :=
  ((family t.layers root).map fun l => itemCost t l.id).sum

def OnSide (whole amount : Money) : Prop := (0 ≤ whole → 0 ≤ amount) ∧ (whole ≤ 0 → amount ≤ 0)

structure Conserves (root : ItemId) (landed : Money) (t : FactTables) : Prop where
  item_ids : (t.layers.map (·.id)).Nodup
  movement_ids : (t.inventoryMovements.map (·.id)).Nodup
  carried : carried (family t.layers root) = landed
  sides : ∀ l ∈ family t.layers root, OnSide landed l.landedCostAmount
  positive : ∀ l ∈ family t.layers root, 0 < l.quantity

variable {start t t' : FactTables} {root : ItemId} {landed : Money} {item : InventoryItemRow}

theorem familyIds_unsplit (h : Unsplit t item) : familyIds t.layers item.id = [item.id] := by
  have hnone : ∀ l ∈ t.layers, l.originItemId ≠ some item.id := by
    intro l hl
    obtain ⟨i, hi, rfl⟩ := List.mem_map.1 hl
    exact h.childless i hi
  unfold familyIds
  generalize t.layers = layers at hnone
  induction layers with
  | nil => rfl
  | cons l layers ih =>
    obtain ⟨hl, hrest⟩ := List.forall_mem_cons.1 hnone
    rw [List.foldl_cons, if_neg]
    · exact ih hrest
    · rcases horigin : l.originItemId with _ | origin
      · simp
      · rw [horigin] at hl
        simpa using hl

theorem family_unsplit (h : Unsplit t item) : family t.layers item.id = [item.layer] := by
  unfold family
  rw [familyIds_unsplit h]
  have hmem := mem_layers (findItem_id h.found).1
  have hnd : (t.layers.map (·.id)).Nodup := by
    rw [layers_ids]
    exact h.item_ids
  refine (List.filter_congr fun l _ => ?_).trans (filter_key_eq hnd hmem)
  rw [List.contains_cons, List.contains_nil, Bool.or_false]
  rfl

theorem Unsplit.conserves (h : Unsplit t item) :
    Conserves item.id item.landedCostAmount t where
  item_ids := by
    rw [layers_ids]
    exact h.item_ids
  movement_ids := h.movement_ids
  carried := by
    rw [family_unsplit h]
    simp [Loxep.carried, InventoryItemRow.layer]
  sides := by
    rw [family_unsplit h]
    intro l hl
    rw [List.mem_singleton.1 hl]
    exact ⟨id, id⟩
  positive := by
    rw [family_unsplit h]
    intro l hl
    rw [List.mem_singleton.1 hl]
    exact h.positive

theorem OnSide.share {whole amount part quantity : ℤ} (h : OnSide whole amount) (hq : 0 < quantity)
    (hp : 0 ≤ part) : OnSide whole (proRataShare amount part quantity) ∧
      OnSide whole (amount - proRataShare amount part quantity) := by
  obtain ⟨hpos, hneg⟩ := @proRataShare_between amount part quantity hq hp
  refine ⟨⟨fun hw => (hpos (h.1 hw)).1, fun hw => (hneg (h.2 hw)).1⟩,
    fun hw => sub_nonneg.2 (hpos (h.1 hw)).2, fun hw => sub_nonpos.2 (hneg (h.2 hw)).2⟩

theorem mem_takeBasis {layers : List Layer} {id : ItemId} {amount : Money} {l : Layer}
    (h : l ∈ takeBasis layers id amount) : ∃ l₀ ∈ layers, l.id = l₀.id ∧
      l.quantity = l₀.quantity ∧ ((l₀.id ≠ id ∧ l = l₀) ∨
        (l₀.id = id ∧ l.landedCostAmount = l₀.landedCostAmount - amount)) := by
  obtain ⟨l₀, hl₀, rfl⟩ := List.mem_map.1 h
  refine ⟨l₀, hl₀, ?_⟩
  by_cases hid : l₀.id = id
  · rw [if_pos hid]
    exact ⟨rfl, rfl, .inr ⟨hid, rfl⟩⟩
  · rw [if_neg hid]
    exact ⟨rfl, rfl, .inl ⟨hid, rfl⟩⟩

theorem Conserves.splitsOff (h : Conserves root landed t) {id : ItemId}
    (hid : id ∈ familyIds t.layers root) (hsplit : SplitsOff t.layers id t'.layers)
    (hids : (t'.inventoryMovements.map (·.id)).Nodup) : Conserves root landed t' := by
  generalize hl : t'.layers = layers' at hsplit
  cases hsplit with
  | whole => exact ⟨hl ▸ h.item_ids, hids, hl ▸ h.carried, hl ▸ h.sides, hl ▸ h.positive⟩
  | @part source newId moved mem source_id fresh pos =>
    have hsource : source ∈ family t.layers root := mem_family.2 ⟨mem, by rwa [source_id]⟩
    obtain ⟨hshare, hrest⟩ := (h.sides source hsource).share (h.positive source hsource) pos.le
    set share := proRataShare source.landedCostAmount moved source.quantity
    have hne : newId ≠ id := by
      rintro rfl
      exact fresh (source_id ▸ List.mem_map_of_mem mem)
    have hfam : family t'.layers root =
        takeBasis (family t.layers root) id share ++ [⟨newId, some id, moved, share⟩] := by
      rw [hl, family_takeBasis, family_append rfl hid fresh, takeBasis_append hne]
    have hfamNodup : ((family t.layers root).map (·.id)).Nodup :=
      h.item_ids.sublist (List.filter_sublist.map _)
    have hsame : ∀ l ∈ family t.layers root, l.id = id → l = source := fun l hl hlid =>
      List.inj_on_of_nodup_map hfamNodup hl hsource (hlid.trans source_id.symm)
    refine ⟨?_, hids, ?_, ?_, ?_⟩
    · rw [hl, takeBasis_ids, List.map_append, List.map_singleton]
      refine List.nodup_append.2 ⟨h.item_ids, List.nodup_singleton _, ?_⟩
      rintro a ha b hb rfl
      rw [List.mem_singleton] at hb
      rw [hb] at ha
      exact fresh ha
    · rw [hfam, carried_append, carried_takeBasis hfamNodup
        (source_id ▸ List.mem_map_of_mem hsource), h.carried]
      simp [Loxep.carried]
    · rw [hfam]
      intro l hl
      rcases List.mem_append.1 hl with hl | hl
      · obtain ⟨l₀, hl₀, -, -, ⟨-, rfl⟩ | ⟨hid₀, hamount⟩⟩ := mem_takeBasis hl
        · exact h.sides l hl₀
        · rw [hamount, hsame l₀ hl₀ hid₀]
          exact hrest
      · rw [List.mem_singleton.1 hl]
        exact hshare
    · rw [hfam]
      intro l hl
      rcases List.mem_append.1 hl with hl | hl
      · obtain ⟨l₀, hl₀, -, hquantity, -⟩ := mem_takeBasis hl
        rw [hquantity]
        exact h.positive l₀ hl₀
      · rw [List.mem_singleton.1 hl]
        exact pos

theorem Conserves.source_positive (h : Conserves root landed t) {id : ItemId}
    (hid : id ∈ familyIds t.layers root) : ∀ l ∈ t.layers, l.id = id → 0 < l.quantity :=
  fun l hl hlid => h.positive l (mem_family.2 ⟨hl, hlid ▸ hid⟩)

theorem Splits.conserves (hstart : Conserves root landed start) :
    ∀ {t : FactTables}, Splits start root t → Conserves root landed t
  | _, .start => hstart
  | _, .move splits mem moved => by
    have h := splits.conserves hstart
    obtain ⟨hsplit, hids⟩ := moveToLocation_layers (h.source_positive mem) moved
    exact h.splitsOff mem hsplit (hids h.movement_ids)
  | _, .transfer splits mem carries transferred => by
    have h := splits.conserves hstart
    obtain ⟨hsplit, hids⟩ := transferEntity_layers carries (h.source_positive mem) transferred
    exact h.splitsOff mem hsplit (hids h.movement_ids)
  | _, .deplete splits mem sale recorded => by
    have h := splits.conserves hstart
    have hlayers := recordMovement_layers recorded
    exact h.splitsOff mem (hlayers ▸ .whole) (recordMovement_ids recorded h.movement_ids)

end Run

section Relieved

variable {start t : FactTables} {item : InventoryItemRow}

theorem itemCost_layer {root : ItemId} {landed : Money} (h : Conserves root landed t) {l : Layer}
    (hl : l ∈ family t.layers root) : itemCost t l.id =
      proRataShare l.landedCostAmount (soldQuantity t l.id) l.quantity := by
  obtain ⟨i, hi, rfl⟩ := List.mem_map.1 (mem_family.1 hl).1
  have hnd : (t.inventoryItems.map (·.id)).Nodup := by
    rw [← layers_ids]
    exact h.item_ids
  exact itemCost_eq h.movement_ids (findItem_of_mem hnd hi)

/-- At any point of a run the depletions have relieved the item's landed cost exactly when every row
that did not sell all of its quantity carries too little basis to round to anything. -/
theorem unit_basis_conserved_iff (unsplit : Unsplit start item) (splits : Splits start item.id t) :
    relievedCost t item.id = item.landedCostAmount ↔
      ∀ l ∈ family t.layers item.id,
        2 * (|l.landedCostAmount| * (l.quantity - soldQuantity t l.id)) ≤ l.quantity := by
  have h := splits.conserves unsplit.conserves
  have hcost : relievedCost t item.id = ((family t.layers item.id).map fun l =>
      proRataShare l.landedCostAmount (soldQuantity t l.id) l.quantity).sum :=
    congrArg List.sum (List.map_congr_left fun l hl => itemCost_layer h hl)
  have hiff : ∀ l ∈ family t.layers item.id,
      (proRataShare l.landedCostAmount (soldQuantity t l.id) l.quantity = l.landedCostAmount ↔
        2 * (|l.landedCostAmount| * (l.quantity - soldQuantity t l.id)) ≤ l.quantity) :=
    fun l hl => proRataShare_eq_total_iff (h.positive l hl) soldQuantity_nonneg
  have hbetween : ∀ l ∈ family t.layers item.id, _ := fun l hl =>
    @proRataShare_between l.landedCostAmount (soldQuantity t l.id) l.quantity (h.positive l hl)
      soldQuantity_nonneg
  have heach : ((family t.layers item.id).map fun l =>
      proRataShare l.landedCostAmount (soldQuantity t l.id) l.quantity).sum =
        ((family t.layers item.id).map fun l => l.landedCostAmount).sum ↔
      ∀ l ∈ family t.layers item.id, proRataShare l.landedCostAmount (soldQuantity t l.id)
        l.quantity = l.landedCostAmount := by
    rcases le_total 0 item.landedCostAmount with hpos | hneg
    · exact sum_eq_iff_of_le fun l hl => ((hbetween l hl).1 ((h.sides l hl).1 hpos)).2
    · rw [eq_comm, sum_eq_iff_of_le fun l hl => ((hbetween l hl).2 ((h.sides l hl).2 hneg)).2]
      simp only [eq_comm]
  have hcarried : ((family t.layers item.id).map fun l => l.landedCostAmount).sum =
      item.landedCostAmount := h.carried
  rw [hcost, ← hcarried, heach]
  exact forall₂_congr hiff

end Relieved

namespace Small

def widget : InventoryItemRow :=
  ⟨0, "ITM-0", none, none, none, none, "available", 10 * moneyUnits, 10 * moneyUnits, "USD",
    100 * moneyUnits, 100 * moneyUnits, false, .unit, none, none, none⟩

def noon : Timestamp := ⟨⟨2026, 1, 15⟩, 43200000000⟩

def stock : FactTables :=
  { FactTables.empty with
    inventoryItems := [widget]
    inventoryMovements := [⟨0, 0, .found, 10 * moneyUnits, none, none, none, "found:0:item:0", noon⟩] }

def after {α : Type} (t : FactTables) (r : InventoryResult (α × FactTables)) : FactTables :=
  match r with
  | .ok (_, t') => t'
  | .error _ => t

theorem after_eq {α : Type} {t : FactTables} {r : InventoryResult (α × FactTables)}
    (h : Except.returns r = true) : ∃ a, r = .ok (a, after t r) := by
  obtain ⟨⟨a, t'⟩, rfl⟩ := Except.returns_iff.1 h
  exact ⟨a, rfl⟩

def sale (item : ItemId) (units : ℤ) (key : String) : RecordMovementInput where
  inventoryItemId := item
  movementKind := .depletionSale
  quantity := -(units * moneyUnits)
  deduplicationKey := key
  occurredAt := noon

def sold (t : FactTables) (newId : MovementId) (item : ItemId) (units : ℤ) (key : String) :
    FactTables :=
  after t (recordMovement t newId (sale item units key))

def fiveToShelf : MoveToLocationInput := ⟨0, 7, some (5 * moneyUnits), noon⟩

def shelved : FactTables := after stock (moveToLocation stock ⟨0, 1, "ITM-1", 1, 2⟩ fiveToShelf)

def bothSold : FactTables := sold (sold shelved 3 0 5 "ffl:a") 4 1 5 "ffl:b"

def wholeSold : FactTables := sold (sold stock 1 0 4 "ffl:a") 2 0 6 "ffl:b"

theorem widget_unsplit : Unsplit stock widget :=
  ⟨rfl, by decide, by decide, by decide, by decide⟩

theorem bothSold_splits : Splits stock 0 bothSold := by
  obtain ⟨_, hmove⟩ := @after_eq _ stock
    (moveToLocation stock ⟨0, 1, "ITM-1", 1, 2⟩ fiveToShelf) (by decide +kernel)
  obtain ⟨_, hfirst⟩ := @after_eq _ shelved
    (recordMovement shelved 3 (sale 0 5 "ffl:a")) (by decide +kernel)
  obtain ⟨_, hsecond⟩ := @after_eq _ (sold shelved 3 0 5 "ffl:a")
    (recordMovement (sold shelved 3 0 5 "ffl:a") 4 (sale 1 5 "ffl:b")) (by decide +kernel)
  exact .deplete (.deplete (.move .start (by decide +kernel) hmove) (by decide +kernel) rfl hfirst)
    (by decide +kernel) rfl hsecond

theorem wholeSold_splits : Splits stock 0 wholeSold := by
  obtain ⟨_, hfirst⟩ := @after_eq _ stock
    (recordMovement stock 1 (sale 0 4 "ffl:a")) (by decide +kernel)
  obtain ⟨_, hsecond⟩ := @after_eq _ (sold stock 1 0 4 "ffl:a")
    (recordMovement (sold stock 1 0 4 "ffl:a") 2 (sale 0 6 "ffl:b")) (by decide +kernel)
  exact .deplete (.deplete .start (by decide +kernel) rfl hfirst) (by decide +kernel) rfl hsecond

end Small

theorem split_strands_basis : Unsplit Small.stock Small.widget ∧
    Splits Small.stock Small.widget.id Small.bothSold ∧
    (∀ i ∈ Small.bothSold.inventoryItems, i.quantityOnHand = 0) ∧
    relievedCost Small.bothSold Small.widget.id = 75 * moneyUnits ∧
    relievedCost Small.bothSold Small.widget.id ≠ Small.widget.landedCostAmount := by
  refine ⟨Small.widget_unsplit, Small.bothSold_splits, ?_, ?_, ?_⟩ <;> decide +kernel

theorem whole_sale_relieves_basis :
    relievedCost Small.wholeSold Small.widget.id = Small.widget.landedCostAmount :=
  (unit_basis_conserved_iff Small.widget_unsplit Small.wholeSold_splits).2 (by decide +kernel)

end Loxep

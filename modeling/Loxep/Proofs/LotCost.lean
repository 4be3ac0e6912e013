import Loxep.Lib.ChildRows
import Loxep.Proofs.PostedCost

/-!
# A lot's items carry the lot's cost

What a run spreads is the pool less what the locked items hold of it, so the items carry the pool
and their own direct costs. A cost that names an item of another lot is neither, and `addCost`
accepts it: those are what the items fall short of.
-/

namespace Loxep

section Spec

variable (t : FactTables) (lot : AcquisitionRow)

def landedTotal : Money := ((t.lotItems lot.id).map (·.landedCostAmount)).sum

def localTotal : Money := ((t.localCosts lot).map (·.amount)).sum

def strayCost : Money :=
  (((t.localCosts lot).filter fun c =>
    c.inventoryItemId.any fun item => item ∉ (t.lotItems lot.id).map (·.id)).map (·.amount)).sum

variable (input : AllocateCostsInput) (outcome : AllocationOutcome) (t' : FactTables)

/-- The run conserves the lot's cost, and touches nothing but its unlocked items. -/
structure ConservesCost : Prop where
  total : landedTotal t' lot = localTotal t lot
  locked : t'.inventoryItems.filter (·.costBasisLocked) =
    t.inventoryItems.filter (·.costBasisLocked)
  outside : (t'.inventoryItems.filter fun i => i.acquisitionId != some lot.id) =
    t.inventoryItems.filter fun i => i.acquisitionId != some lot.id
  again : allocateCosts t' input = .ok (outcome, t')

end Spec

section Plan

variable {costs : List AcquisitionCostRow} {items unlocked locked : List InventoryItemRow}
  {basis : CostAllocationBasis} {currency : String} {amounts : List ManualAmount}
  {allocatable goods : Money} {input : AllocateCostsInput} {foreignCount : ℕ}
  {outcome : AllocationOutcome} {r : List ItemAllocation × Money}

/-- The allocations are one for each unlocked item, in order, and carry the items' direct costs
with what is allocatable and not left over. -/
structure Spreads (costs : List AcquisitionCostRow) (unlocked : List InventoryItemRow)
    (allocatable : Money) (r : List ItemAllocation × Money) : Prop where
  ids : r.1.map (·.inventoryItemId) = unlocked.map (·.id)
  landed : (r.1.map (·.landedCostAmount)).sum =
    (unlocked.map fun i => directCost costs i.id).sum + allocatable - r.2

theorem allocateManually_spreads
    (h : allocateManually costs currency amounts unlocked locked allocatable = .ok r) :
    Spreads costs unlocked allocatable r := by
  simp only [allocateManually, Except.bind_eq_ok, Except.require_eq_ok, exists_const,
    Except.pure_eq_ok] at h
  obtain ⟨_, -, _, -, htotal, rfl⟩ := h
  refine ⟨?_, ?_⟩
  · rw [List.map_map]
    rfl
  · rw [List.map_map]
    change sumDecimals (unlocked.map fun i => (suppliedAmount amounts i.id).getD 0) = _
    rw [htotal, sumDecimals, List.sum_cons]
    ring

theorem allocateByWeights_spreads
    (h : allocateByWeights costs basis unlocked allocatable goods = .ok r) :
    Spreads costs unlocked allocatable r := by
  simp only [allocateByWeights, Except.bind_eq_ok, Except.pure_eq_ok] at h
  obtain ⟨g, hg, a, ha, rfl⟩ := h
  obtain ⟨hgsum, hglength⟩ := distributeByWeights_conserves hg
  obtain ⟨hasum, halength⟩ := distributeByWeights_conserves ha
  rw [List.length_map] at hglength halength
  refine ⟨?_, ?_⟩
  · have hid : ∀ k i, (weightedAllocation costs g.shares a.shares k i).inventoryItemId = i.id :=
      fun _ _ => rfl
    exact map_mapIdx_eq_map hid unlocked
  · have hlanded : ((unlocked.mapIdx (weightedAllocation costs g.shares a.shares)).map
        (·.landedCostAmount)) = unlocked.mapIdx fun k i =>
          directCost costs i.id + (g.shares[k]?).getD 0 + (a.shares[k]?).getD 0 := by
      rw [map_mapIdx]
      refine congrArg (List.mapIdx · unlocked) (funext fun k => funext fun i => ?_)
      simp only [weightedAllocation, directCost, sumDecimals, List.sum_cons, List.sum_nil]
      ring
    have hdirect : (unlocked.mapIdx fun _ i => directCost costs i.id).sum =
        (unlocked.map fun i => directCost costs i.id).sum := by
      rw [← map_mapIdx_eq_map (f := fun _ i => directCost costs i.id) (g := id) fun _ _ => rfl,
        List.map_id]
    rw [hlanded, sum_mapIdx_getD _ halength, sum_mapIdx_getD _ hglength, hdirect]
    simp only [sumDecimals, List.sum_cons, List.sum_nil]
    linarith

theorem allocateAmong_spreads
    (h : allocateAmong costs basis currency amounts unlocked locked allocatable goods = .ok r) :
    Spreads costs unlocked allocatable r := by
  cases basis with
  | manual => exact allocateManually_spreads h
  | equal => exact allocateByWeights_spreads h
  | relativeValue => exact allocateByWeights_spreads h
  | weight => exact allocateByWeights_spreads h
  | direct => exact allocateByWeights_spreads h

theorem allocationStatus_final {finalize : Bool} {unallocated : Money}
    (h : allocationStatus items finalize unallocated currency = .ok .final) : unallocated = 0 := by
  unfold allocationStatus at h
  split_ifs at h with _ _ hzero
  · cases h
  · cases h
  · exact hzero

/-- The rows a run may write, and those it leaves alone. -/
def unlockedOf (items : List InventoryItemRow) : List InventoryItemRow :=
  items.filter fun i => !i.costBasisLocked

def lockedOf (items : List InventoryItemRow) : List InventoryItemRow :=
  items.filter (·.costBasisLocked)

structure Plans (items : List InventoryItemRow) (costs : List AcquisitionCostRow)
    (basis : CostAllocationBasis) (outcome : AllocationOutcome) : Prop where
  basis : outcome.basis = basis
  spreads : Spreads costs (unlockedOf items) (lotPool costs - lockedLotShare costs (lockedOf items))
    (outcome.allocations, outcome.unallocatedAmount)
  final : outcome.costAllocationStatus = .final → outcome.unallocatedAmount = 0

theorem planAllocation_plans
    (h : planAllocation input basis currency items costs foreignCount = .ok outcome) :
    Plans items costs basis outcome := by
  simp only [planAllocation, Except.bind_eq_ok, Except.require_eq_ok, exists_const,
    Except.pure_eq_ok] at h
  obtain ⟨-, -, goods, -, r, hr, status, hstatus, rfl⟩ := h
  refine ⟨rfl, allocateAmong_spreads hr, ?_⟩
  rintro rfl
  exact allocationStatus_final hstatus

structure Recosts (g : InventoryItemRow → InventoryItemRow) : Prop where
  locked : ∀ i, i.costBasisLocked → g i = i
  row : ∀ i, ∃ landed goods basis, g i =
    { i with
      landedCostAmount := landed
      acquisitionCostAmount := goods
      costAllocationBasis := basis }

variable {g : InventoryItemRow → InventoryItemRow}

theorem Recosts.costBasisLocked (hg : Recosts g) (i : InventoryItemRow) :
    (g i).costBasisLocked = i.costBasisLocked := by
  obtain ⟨_, _, _, hi⟩ := hg.row i
  rw [hi]

theorem Recosts.id (hg : Recosts g) (i : InventoryItemRow) : (g i).id = i.id := by
  obtain ⟨_, _, _, hi⟩ := hg.row i
  rw [hi]

theorem Recosts.acquisitionId (hg : Recosts g) (i : InventoryItemRow) :
    (g i).acquisitionId = i.acquisitionId := by
  obtain ⟨_, _, _, hi⟩ := hg.row i
  rw [hi]

theorem filter_map_kept {p : InventoryItemRow → Bool} (hp : ∀ i, p (g i) = p i) :
    (items.map g).filter p = (items.filter p).map g := by
  rw [List.filter_map]
  exact congrArg (List.map g) (List.filter_congr fun i _ => hp i)

theorem Recosts.unlockedOf (hg : Recosts g) :
    unlockedOf (items.map g) = (unlockedOf items).map g :=
  filter_map_kept fun i => by rw [hg.costBasisLocked]

theorem Recosts.lockedOf (hg : Recosts g) : lockedOf (items.map g) = lockedOf items := by
  have hsame : (Loxep.lockedOf items).map g = Loxep.lockedOf items := by
    refine (List.map_congr_left fun i hi => hg.locked i ?_).trans (List.map_id' _)
    exact (List.mem_filter.1 hi).2
  exact (filter_map_kept hg.costBasisLocked).trans hsame

theorem Recosts.allocateManually (hg : Recosts g) :
    allocateManually costs currency amounts (unlocked.map g) locked allocatable =
      Loxep.allocateManually costs currency amounts unlocked locked allocatable := by
  have hrow : ∀ i, manualAllocation costs amounts (g i) = manualAllocation costs amounts i := by
    intro i
    obtain ⟨_, _, _, hi⟩ := hg.row i
    rw [hi]
    rfl
  have hcode : ∀ i, (g i).itemCode = i.itemCode := by
    intro i
    obtain ⟨_, _, _, hi⟩ := hg.row i
    rw [hi]
  simp only [Loxep.allocateManually, List.forM_eq_forM, List.forM_map, List.map_map,
    Function.comp_def, hrow, hcode, hg.id]

theorem Recosts.allocateByWeights (hg : Recosts g) :
    allocateByWeights costs basis (unlocked.map g) allocatable goods =
      Loxep.allocateByWeights costs basis unlocked allocatable goods := by
  have hweight : ∀ i, weightFor basis (g i) = weightFor basis i := by
    intro i
    obtain ⟨_, _, _, hi⟩ := hg.row i
    rw [hi]
    rfl
  have hrow : ∀ xs ys, (unlocked.map g).mapIdx (weightedAllocation costs xs ys) =
      unlocked.mapIdx (weightedAllocation costs xs ys) := by
    intro xs ys
    refine List.ext_getElem? fun k => ?_
    rw [List.getElem?_mapIdx, List.getElem?_mapIdx, List.getElem?_map, Option.map_map]
    refine congrArg (Option.map · _) (funext fun i => ?_)
    obtain ⟨_, _, _, hi⟩ := hg.row i
    rw [Function.comp, hi]
    rfl
  simp only [Loxep.allocateByWeights, List.map_map, Function.comp_def, hweight, hrow]

theorem Recosts.planAllocation (hg : Recosts g) :
    planAllocation input basis currency (items.map g) costs foreignCount =
      Loxep.planAllocation input basis currency items costs foreignCount := by
  have hunlocked : (items.map g).filter (fun i => !i.costBasisLocked) =
      (items.filter fun i => !i.costBasisLocked).map g := hg.unlockedOf
  have hlocked : (items.map g).filter (·.costBasisLocked) = items.filter (·.costBasisLocked) :=
    hg.lockedOf
  have hempty : (items.map g).isEmpty = items.isEmpty := by cases items <;> rfl
  have hamong : ∀ allocatable goods, allocateAmong costs basis currency input.manualAmounts
      ((items.filter fun i => !i.costBasisLocked).map g) (items.filter (·.costBasisLocked))
        allocatable goods =
      allocateAmong costs basis currency input.manualAmounts
        (items.filter fun i => !i.costBasisLocked) (items.filter (·.costBasisLocked))
        allocatable goods := by
    intro allocatable goods
    cases basis with
    | manual => exact hg.allocateManually
    | equal => exact hg.allocateByWeights
    | relativeValue => exact hg.allocateByWeights
    | weight => exact hg.allocateByWeights
    | direct => exact hg.allocateByWeights
  simp only [Loxep.planAllocation, allocationStatus, hunlocked, hlocked, hempty, hamong]

end Plan

section Costs

variable {costs : List AcquisitionCostRow}

theorem costsTo_classes (item : Option ItemId) :
    costsTo costs item .goods + costsTo costs item .ancillary =
      ((costs.filter fun c => decide (c.inventoryItemId = item)).map (·.amount)).sum := by
  rw [← sum_map_filter_add_not (costs.filter fun c => decide (c.inventoryItemId = item))
    (·.costClass == .goods), List.filter_filter, List.filter_filter]
  have hclass : ∀ c : AcquisitionCostRow,
      (!decide (c.costClass = .goods)) = decide (c.costClass = .ancillary) := by
    intro c
    cases c.costClass <;> rfl
  simp only [costsTo, sumDecimals, beq_eq_decide, hclass, Bool.and_comm]

theorem directCost_eq (item : ItemId) : directCost costs item =
    ((costs.filter fun c => decide (c.inventoryItemId = some item)).map (·.amount)).sum := by
  rw [← costsTo_classes]
  simp [directCost, sumDecimals]

theorem lotPool_eq : lotPool costs =
    ((costs.filter fun c => decide (c.inventoryItemId = none)).map (·.amount)).sum := by
  rw [← costsTo_classes]
  simp [lotPool, sumDecimals]

theorem sum_directCost (costs : List AcquisitionCostRow) {items : List ItemId}
    (hitems : items.Nodup) :
    lotPool costs + (items.map fun i => directCost costs i).sum =
      (costs.map (·.amount)).sum -
        ((costs.filter fun c => c.inventoryItemId.any (· ∉ items)).map (·.amount)).sum := by
  have hkeys : (none :: items.map some).Nodup := by
    refine List.nodup_cons.2 ⟨by simp, hitems.map (Option.some_injective _)⟩
  have hgroups := sum_map_groups costs (·.inventoryItemId) (·.amount) hkeys
  have hsplit := sum_map_filter_add_not costs
    (fun c => decide (c.inventoryItemId ∈ none :: items.map some)) (·.amount)
  have hstray : (costs.filter fun c => !decide (c.inventoryItemId ∈ none :: items.map some)) =
      costs.filter fun c => c.inventoryItemId.any (· ∉ items) := by
    refine List.filter_congr fun c _ => ?_
    cases c.inventoryItemId <;> simp
  simp only [List.map_cons, List.sum_cons, List.map_map, Function.comp_def, beq_eq_decide,
    ← lotPool_eq, ← directCost_eq] at hgroups
  rw [hstray] at hsplit
  rw [eq_sub_iff_add_eq, hgroups]
  convert hsplit

end Costs

section Written

variable {t t' : FactTables} {lot : AcquisitionRow} {input : AllocateCostsInput}
  {outcome : AllocationOutcome} {items : List InventoryItemRow}

def costed (basis : CostAllocationBasis) (a : ItemAllocation) (i : InventoryItemRow) :
    InventoryItemRow :=
  if i.costBasisLocked then i
  else { i with
    landedCostAmount := a.landedCostAmount
    acquisitionCostAmount := a.acquisitionCostAmount
    costAllocationBasis := some basis }

theorem costed_id (basis : CostAllocationBasis) (a : ItemAllocation) (i : InventoryItemRow) :
    (costed basis a i).id = i.id := by
  unfold costed
  split_ifs <;> rfl

def recosted (outcome : AllocationOutcome) (i : InventoryItemRow) : InventoryItemRow :=
  (outcome.allocations.find? (·.inventoryItemId == i.id)).elim i (costed outcome.basis · i)

theorem recosts_recosted (outcome : AllocationOutcome) : Recosts (recosted outcome) where
  locked i hi := by
    unfold recosted
    cases outcome.allocations.find? (·.inventoryItemId == i.id) with
    | none => rfl
    | some a => exact if_pos hi
  row i := by
    unfold recosted
    cases outcome.allocations.find? (·.inventoryItemId == i.id) with
    | none => exact ⟨_, _, _, rfl⟩
    | some a =>
      change ∃ landed goods basis, costed outcome.basis a i = _
      unfold costed
      split_ifs
      · exact ⟨_, _, _, rfl⟩
      · exact ⟨_, _, _, rfl⟩

theorem foldl_writeAllocation (basis : CostAllocationBasis) : ∀ (allocations : List ItemAllocation)
    (t : FactTables), allocations.foldl (fun t a => t.writeAllocation basis a) t =
      { t with inventoryItems := allocations.foldl (fun rows a => rows.map fun i =>
          if i.id = a.inventoryItemId then costed basis a i else i) t.inventoryItems }
  | [], _ => rfl
  | a :: allocations, t => foldl_writeAllocation basis allocations (t.writeAllocation basis a)

variable {id : AcquisitionId}

theorem loadAcquisition_eq_ok :
    t.loadAcquisition id = .ok lot ↔ t.findAcquisition id = some lot := by
  unfold FactTables.loadAcquisition
  split <;> simp_all

theorem findAcquisition_id (h : t.findAcquisition id = some lot) :
    lot.id = id := by
  simpa using List.find?_some h

theorem nodup_lotItems (hkeys : (t.inventoryItems.map (·.id)).Nodup) (id : AcquisitionId) :
    ((t.lotItems id).map (·.id)).Nodup :=
  hkeys.sublist (List.filter_sublist.map _)

def afterRun (t : FactTables) (lot : AcquisitionRow) (outcome : AllocationOutcome) : FactTables :=
  FactTables.writeStatus { t with inventoryItems := t.inventoryItems.map (recosted outcome) }
    lot.id outcome.basis outcome.costAllocationStatus

def planOf (t : FactTables) (lot : AcquisitionRow) (input : AllocateCostsInput) :
    InventoryResult AllocationOutcome :=
  planAllocation input (input.basis.getD lot.costAllocationBasis) lot.currency (t.lotItems lot.id)
    (t.localCosts lot) (t.foreignCosts lot).length

theorem allocateCosts_eq_ok (hkeys : (t.inventoryItems.map (·.id)).Nodup)
    (hlot : t.findAcquisition input.acquisitionId = some lot) :
    allocateCosts t input = .ok (outcome, t') ↔
      planOf t lot input = .ok outcome ∧ t' = afterRun t lot outcome := by
  have hwritten : ∀ {o : AllocationOutcome}, planOf t lot input = .ok o →
      (o.allocations.foldl (fun t a => t.writeAllocation (input.basis.getD
        lot.costAllocationBasis) a) t).writeStatus lot.id (input.basis.getD
          lot.costAllocationBasis) o.costAllocationStatus = afterRun t lot o := by
    intro o ho
    have hplans := planAllocation_plans ho
    have hids : (o.allocations.map (·.inventoryItemId)).Nodup := by
      rw [hplans.spreads.ids]
      exact (nodup_lotItems hkeys lot.id).sublist (List.filter_sublist.map _)
    rw [foldl_writeAllocation, foldl_map_rows, afterRun, hplans.basis]
    refine congrArg (FactTables.writeStatus · _ _ _) ?_
    refine congrArg (fun rows => { t with inventoryItems := rows }) ?_
    refine List.map_congr_left fun i _ => ?_
    rw [@foldl_assign _ _ _ _ (·.id) (·.inventoryItemId) _ (fun a i => costed_id _ a i) _ hids,
      recosted, hplans.basis]
  simp only [allocateCosts, Except.bind_eq_ok, loadAcquisition_eq_ok, hlot, Option.some.injEq,
    Except.pure_eq_ok, Prod.mk.injEq]
  constructor
  · rintro ⟨_, rfl, o, ho, rfl, rfl⟩
    exact ⟨ho, hwritten ho⟩
  · rintro ⟨ho, rfl⟩
    exact ⟨lot, rfl, outcome, ho, rfl, hwritten ho⟩

theorem lotItems_afterRun (id : AcquisitionId) :
    (afterRun t lot outcome).lotItems id = (t.lotItems id).map (recosted outcome) :=
  filter_map_kept fun i => by rw [(recosts_recosted outcome).acquisitionId]

theorem landed_recosted (hids : outcome.allocations.map (·.inventoryItemId) =
    (unlockedOf items).map (·.id)) (hkeys : ((unlockedOf items).map (·.id)).Nodup) :
    ((unlockedOf items).map (recosted outcome)).map (·.landedCostAmount) =
      outcome.allocations.map (·.landedCostAmount) := by
  rw [List.map_map]
  refine List.ext_getElem? fun k => ?_
  have hid := congrArg (·[k]?) hids
  simp only [List.getElem?_map] at hid ⊢
  cases ha : outcome.allocations[k]? with
  | none =>
    rw [ha, Option.map_none, eq_comm, Option.map_eq_none_iff] at hid
    rw [hid]
    rfl
  | some a =>
    rw [ha, Option.map_some, eq_comm, Option.map_eq_some_iff] at hid
    obtain ⟨i, hi, hia⟩ := hid
    have hfind : outcome.allocations.find? (·.inventoryItemId == i.id) = some a := by
      rw [hia]
      exact find_of_nodup_map (hids ▸ hkeys) (List.mem_of_getElem? ha)
    have hlocked : ¬ i.costBasisLocked = true := by
      simpa using (List.mem_filter.1 (List.mem_of_getElem? hi)).2
    rw [hi, Option.map_some, Option.map_some, Function.comp, recosted, hfind, Option.elim_some,
      costed, if_neg hlocked]

theorem landedTotal_afterRun (hkeys : (t.inventoryItems.map (·.id)).Nodup)
    (hplan : planOf t lot input = .ok outcome) (hfinal : outcome.costAllocationStatus = .final) :
    landedTotal (afterRun t lot outcome) lot = localTotal t lot - strayCost t lot := by
  have hplans := planAllocation_plans hplan
  have hspreads := hplans.spreads
  have hlot := nodup_lotItems hkeys lot.id
  have hunlocked := landed_recosted hspreads.ids (hlot.sublist (List.filter_sublist.map _))
  have hlanded : landedTotal (afterRun t lot outcome) lot =
      ((unlockedOf (t.lotItems lot.id)).map fun i => directCost (t.localCosts lot) i.id).sum +
        (lotPool (t.localCosts lot) -
          lockedLotShare (t.localCosts lot) (lockedOf (t.lotItems lot.id))) +
        ((lockedOf (t.lotItems lot.id)).map (·.landedCostAmount)).sum := by
    have hg := recosts_recosted outcome
    rw [landedTotal, lotItems_afterRun, ← sum_map_filter_add_not _ (·.costBasisLocked)]
    have hlocked : ((t.lotItems lot.id).map (recosted outcome)).filter (·.costBasisLocked) =
        lockedOf (t.lotItems lot.id) := hg.lockedOf
    have hopen : (((t.lotItems lot.id).map (recosted outcome)).filter fun i =>
        !i.costBasisLocked) = (unlockedOf (t.lotItems lot.id)).map (recosted outcome) :=
      hg.unlockedOf
    rw [hlocked, hopen, hunlocked, hspreads.landed, hplans.final hfinal]
    ring
  have hshare : lockedLotShare (t.localCosts lot) (lockedOf (t.lotItems lot.id)) +
      ((lockedOf (t.lotItems lot.id)).map fun i => directCost (t.localCosts lot) i.id).sum =
        ((lockedOf (t.lotItems lot.id)).map (·.landedCostAmount)).sum := by
    rw [lockedLotShare, sumDecimals, ← List.sum_map_add]
    exact congrArg List.sum (List.map_congr_left fun _ _ => sub_add_cancel _ _)
  have hdirect := sum_map_filter_add_not (t.lotItems lot.id) (·.costBasisLocked)
    fun i => directCost (t.localCosts lot) i.id
  have htotal := sum_directCost (t.localCosts lot) hlot
  rw [List.map_map] at htotal
  change _ + ((t.lotItems lot.id).map fun i => directCost (t.localCosts lot) i.id).sum = _ at htotal
  rw [localTotal, strayCost]
  unfold unlockedOf lockedOf at hlanded
  unfold lockedOf at hshare
  linarith

theorem recosted_recosted (i : InventoryItemRow) :
    recosted outcome (recosted outcome i) = recosted outcome i := by
  have hid := (recosts_recosted outcome).id i
  rw [recosted, hid, recosted]
  cases outcome.allocations.find? (·.inventoryItemId == i.id) with
  | none => rfl
  | some a =>
    change costed _ a (costed _ a i) = costed _ a i
    unfold costed
    split_ifs <;> simp_all

theorem findAcquisition_afterRun (hlot : t.findAcquisition id = some lot) :
    (afterRun t lot outcome).findAcquisition id = some { lot with
      costAllocationBasis := outcome.basis
      costAllocationStatus := outcome.costAllocationStatus } := by
  have hid := findAcquisition_id hlot
  unfold FactTables.findAcquisition at hlot ⊢
  simp only [afterRun, FactTables.writeStatus, List.find?_map]
  have hkeep : ((fun a : AcquisitionRow => a.id == id) ∘ fun a : AcquisitionRow =>
      if a.id = lot.id then
        { a with
          costAllocationBasis := outcome.basis
          costAllocationStatus := outcome.costAllocationStatus }
      else a) = fun a => a.id == id := by
    funext a
    simp only [Function.comp]
    split_ifs <;> rfl
  rw [hkeep, hlot, Option.map_some, if_pos rfl]

theorem afterRun_afterRun :
    afterRun (afterRun t lot outcome) lot outcome = afterRun t lot outcome := by
  simp only [afterRun, FactTables.writeStatus, List.map_map]
  congr 1
  · refine List.map_congr_left fun a _ => ?_
    simp only [Function.comp]
    split_ifs <;> simp_all
  · exact List.map_congr_left fun i _ => recosted_recosted i

theorem recosted_outside (hkeys : (t.inventoryItems.map (·.id)).Nodup)
    (hids : outcome.allocations.map (·.inventoryItemId) =
      (unlockedOf (t.lotItems lot.id)).map (·.id))
    {i : InventoryItemRow} (hi : i ∈ t.inventoryItems) (hout : i.acquisitionId ≠ some lot.id) :
    recosted outcome i = i := by
  have hnone : outcome.allocations.find? (·.inventoryItemId == i.id) = none := by
    rw [List.find?_eq_none]
    intro a ha hname
    have hmem : a.inventoryItemId ∈ (unlockedOf (t.lotItems lot.id)).map (·.id) :=
      hids ▸ List.mem_map_of_mem ha
    obtain ⟨j, hj, hja⟩ := List.mem_map.1 hmem
    obtain ⟨hjt, hjlot⟩ := List.mem_filter.1 (List.mem_filter.1 hj).1
    obtain rfl := eq_of_key hkeys hi hjt (hja.trans (beq_iff_eq.1 hname))
    exact hout (beq_iff_eq.1 hjlot)
  rw [recosted, hnone]
  rfl

theorem planOf_afterRun (hplan : planOf t lot input = .ok outcome) :
    planOf (afterRun t lot outcome) { lot with
      costAllocationBasis := outcome.basis
      costAllocationStatus := outcome.costAllocationStatus } input = .ok outcome := by
  have hbasis : input.basis.getD outcome.basis = input.basis.getD lot.costAllocationBasis := by
    rw [(planAllocation_plans hplan).basis]
    cases input.basis <;> rfl
  rw [← hplan]
  unfold planOf
  rw [lotItems_afterRun, (recosts_recosted outcome).planAllocation, hbasis]
  rfl

/-- A final run conserves the lot's cost exactly when the costs that name other lots' items come
to nothing. -/
theorem allocateCosts_conserves_iff (hkeys : (t.inventoryItems.map (·.id)).Nodup)
    (hlot : t.findAcquisition input.acquisitionId = some lot)
    (hrun : allocateCosts t input = .ok (outcome, t'))
    (hfinal : outcome.costAllocationStatus = .final) :
    ConservesCost t lot input outcome t' ↔ strayCost t lot = 0 := by
  obtain ⟨hplan, rfl⟩ := (allocateCosts_eq_ok hkeys hlot).1 hrun
  have hg := recosts_recosted outcome
  have htotal := landedTotal_afterRun hkeys hplan hfinal
  constructor
  · intro h
    have := h.total
    linarith
  · intro hstray
    refine ⟨by rw [htotal, hstray, sub_zero], hg.lockedOf, ?_, ?_⟩
    · have hids := (planAllocation_plans hplan).spreads.ids
      refine (filter_map_kept fun i => by rw [hg.acquisitionId]).trans ?_
      refine (List.map_congr_left fun i hi => ?_).trans (List.map_id' _)
      obtain ⟨hmem, hout⟩ := List.mem_filter.1 hi
      exact recosted_outside hkeys hids hmem (bne_iff_ne.1 hout)
    · have hkeys' : ((afterRun t lot outcome).inventoryItems.map (·.id)).Nodup := by
        have hids : (afterRun t lot outcome).inventoryItems.map (·.id) =
            t.inventoryItems.map (·.id) := by
          simp only [afterRun, FactTables.writeStatus, List.map_map]
          exact List.map_congr_left fun i _ => hg.id i
        rwa [hids]
      refine (allocateCosts_eq_ok hkeys' (findAcquisition_afterRun hlot)).2
        ⟨planOf_afterRun hplan, ?_⟩
      exact afterRun_afterRun.symm

end Written

def addCosts (t : FactTables) (costs : List AddCostInput) : InventoryResult FactTables :=
  costs.foldlM (fun t cost => (t.addCost cost).map Prod.snd) t

def twoLots : FactTables :=
  let lot := fun id code =>
    { id := id
      status := "open"
      sourceKind := "auction_lot"
      currency := "USD"
      vendorName := none
      economicEntityId := none
      referenceCode := code
      acquiredAt := ⟨⟨2026, 1, 1⟩, 0⟩ : AcquisitionRow }
  let item := fun id acquisition =>
    { id := id
      itemCode := "ITM"
      acquisitionId := some acquisition
      economicEntityId := none
      locationId := none
      originItemId := none
      status := "intake"
      quantity := 1000000
      quantityOnHand := 1000000
      currency := "USD"
      acquisitionCostAmount := 0
      landedCostAmount := 0
      costBasisLocked := false
      saleMode := .unit : InventoryItemRow }
  { FactTables.empty with
    acquisitions := [lot 1 "ACQ-2026-0001", lot 2 "ACQ-2026-0002"]
    inventoryItems := [item 1 1, item 2 2] }

def lotCosts (item : Option ItemId) : List AddCostInput :=
  [{ id := 1
     acquisitionId := 1
     costType := "purchase_price"
     costClass := .goods
     amount := 10000000 },
   { id := 2
     acquisitionId := 1
     costType := "repair"
     costClass := .ancillary
     amount := 3000000
     inventoryItemId := item }]

def costedLots (item : Option ItemId) : FactTables :=
  (addCosts twoLots (lotCosts item)).toOption.getD .empty

def finalRun : AllocateCostsInput := { acquisitionId := 1, basis := some .equal, finalize := true }

theorem exists_final {t : FactTables} (input : AllocateCostsInput)
    (h : (allocateCosts t input).toOption.map (·.1.costAllocationStatus) = some .final) :
    ∃ outcome t', allocateCosts t input = .ok (outcome, t') ∧
      outcome.costAllocationStatus = .final := by
  obtain ⟨⟨outcome, t'⟩, hrun, hfinal⟩ := Option.map_eq_some_iff.1 h
  exact ⟨outcome, t', Except.toOption_eq_some.1 hrun, hfinal⟩

theorem repaired_lot_conserved : ∃ lot outcome t',
    allocateCosts (costedLots (some 1)) finalRun = .ok (outcome, t') ∧
      ConservesCost (costedLots (some 1)) lot finalRun outcome t' := by
  obtain ⟨outcome, t', hrun, hfinal⟩ :=
    exists_final (t := costedLots (some 1)) finalRun (by decide +kernel)
  exact ⟨_, outcome, t', hrun,
    (allocateCosts_conserves_iff (by decide +kernel) rfl hrun hfinal).2 (by decide +kernel)⟩

theorem stray_repair_lost : ¬ ∀ (t₀ t t' : FactTables) (costs : List AddCostInput)
    (lot : AcquisitionRow) (input : AllocateCostsInput) (outcome : AllocationOutcome),
    t₀.acquisitionCosts = [] → addCosts t₀ costs = .ok t →
      (t.inventoryItems.map (·.id)).Nodup → t.findAcquisition input.acquisitionId = some lot →
        allocateCosts t input = .ok (outcome, t') → outcome.costAllocationStatus = .final →
          ConservesCost t lot input outcome t' := by
  intro hall
  obtain ⟨outcome, t', hrun, hfinal⟩ :=
    exists_final (t := costedLots (some 2)) finalRun (by decide +kernel)
  have hkeys : ((costedLots (some 2)).inventoryItems.map (·.id)).Nodup := by decide +kernel
  have htotal := (hall twoLots _ t' (lotCosts (some 2)) _ finalRun outcome rfl rfl hkeys rfl hrun
    hfinal).total
  obtain ⟨hplan, rfl⟩ := (allocateCosts_eq_ok hkeys rfl).1 hrun
  rw [landedTotal_afterRun hkeys hplan hfinal] at htotal
  exact absurd htotal (by decide +kernel)

end Loxep

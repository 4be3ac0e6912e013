import Loxep.Proofs.StockSpec

/-!
# Reservations and fulfilments

The status of a reservation against the ledger, and what a fulfilment depletes.
-/

/-!
## Reservations and the ledger

The status of a reservation follows what the ledger has consumed of it, net of reversals. This is
what movements, reversals, reservations and releases keep.
-/

namespace Loxep

/-- What the rows of the ledger and the reservations refer to is there. -/
structure Tied (s : StockTables) : Prop where
  movementIds : (s.inventoryMovements.map (·.id)).Nodup
  allocationIds : (s.inventoryAllocations.map (·.id)).Nodup
  reversals : ReversalsKnown s.toFactTables
  items : ∀ a ∈ s.inventoryAllocations, a.inventoryItemId ∈ s.inventoryItems.map (·.id)
  consumed : ∀ m ∈ s.inventoryMovements, ∀ id ∈ m.inventoryAllocationId,
    id ∈ s.inventoryAllocations.map (·.id)
  sales : ∀ m ∈ s.inventoryMovements, m.movementKind = .depletionSale → m.quantity < 0

section Tied

variable {s : StockTables} {newId : MovementId} {value : RecordMovementInput}

theorem Tied.record (h : Tied s) (hw : Recordable s newId value)
    (halloc : ∀ id ∈ value.inventoryAllocationId, id ∈ s.inventoryAllocations.map (·.id))
    (hrev : ∀ id ∈ value.reversesMovementId, id ∈ s.inventoryMovements.map (·.id)) :
    Tied (s.record newId value) where
  movementIds := nodup_map_concat h.movementIds hw.writes.new_id
  allocationIds := h.allocationIds
  reversals := by
    intro r hr id hid
    rw [StockTables.record_movements, List.map_append, List.mem_append]
    rw [StockTables.record_movements, List.mem_append, List.mem_singleton] at hr
    rcases hr with hr | rfl
    · exact .inl (h.reversals r hr id hid)
    · exact .inl (hrev id hid)
  items := by
    rw [StockTables.record_itemIds]
    exact h.items
  consumed := by
    intro m hm id hid
    rw [StockTables.record_movements, List.mem_append, List.mem_singleton] at hm
    rcases hm with hm | rfl
    · exact h.consumed m hm id hid
    · exact halloc id hid
  sales := by
    intro m hm hkind
    rw [StockTables.record_movements, List.mem_append, List.mem_singleton] at hm
    rcases hm with hm | rfl
    · exact h.sales m hm hkind
    · exact hw.sale_neg hkind

theorem setStatus_ids (s : StockTables) (id : AllocationId) (status : AllocationStatus) :
    (s.setStatus id status).inventoryAllocations.map (·.id) =
      s.inventoryAllocations.map (·.id) := by
  simp only [StockTables.setStatus, List.map_map]
  refine List.map_congr_left fun a _ => ?_
  simp only [Function.comp_apply]
  split_ifs <;> rfl

theorem mem_setStatus {id : AllocationId} {status : AllocationStatus} {a : InventoryAllocationRow}
    (ha : a ∈ (s.setStatus id status).inventoryAllocations) :
    (a ∈ s.inventoryAllocations ∧ a.id ≠ id) ∨
      ∃ x ∈ s.inventoryAllocations, x.id = id ∧ a = { x with status := status } := by
  simp only [StockTables.setStatus, List.mem_map] at ha
  obtain ⟨x, hx, rfl⟩ := ha
  by_cases hid : x.id = id
  · rw [if_pos hid]
    exact .inr ⟨x, hx, hid, rfl⟩
  · rw [if_neg hid]
    exact .inl ⟨hx, hid⟩

theorem Tied.setStatus (h : Tied s) (id : AllocationId) (status : AllocationStatus) :
    Tied (s.setStatus id status) where
  movementIds := h.movementIds
  allocationIds := by
    rw [setStatus_ids]
    exact h.allocationIds
  reversals := h.reversals
  items := by
    intro a ha
    rcases mem_setStatus ha with ⟨hmem, -⟩ | ⟨x, hx, -, rfl⟩
    · exact h.items a hmem
    · exact h.items x hx
  consumed := by
    rw [setStatus_ids]
    exact h.consumed
  sales := h.sales

theorem Tied.insert (h : Tied s) {row : InventoryAllocationRow}
    (hnew : row.id ∉ s.inventoryAllocations.map (·.id))
    (hitem : row.inventoryItemId ∈ s.inventoryItems.map (·.id)) :
    Tied { s with inventoryAllocations := s.inventoryAllocations ++ [row] } where
  movementIds := h.movementIds
  allocationIds := nodup_map_concat h.allocationIds hnew
  reversals := h.reversals
  items := by
    intro a ha
    rw [List.mem_append, List.mem_singleton] at ha
    rcases ha with ha | rfl
    · exact h.items a ha
    · exact hitem
  consumed := by
    intro m hm id hid
    rw [List.map_append, List.mem_append]
    exact .inl (h.consumed m hm id hid)
  sales := h.sales

theorem Tied.depletedAgainst_new (h : Tied s) {id : AllocationId}
    (hid : id ∉ s.inventoryAllocations.map (·.id)) : s.depletedAgainstAllocation id = 0 := by
  rw [depletedAgainst_eq, neg_eq_zero]
  refine List.sum_eq_zero fun x hx => ?_
  obtain ⟨m, hm, rfl⟩ := List.mem_map.1 hx
  exact if_neg fun hd => hid (h.consumed m hm id hd.1)

end Tied

def DepletionReversed (s : FactTables) (id : AllocationId) : Prop :=
  ∃ m ∈ s.inventoryMovements, m.Depletes id ∧
    ∃ r ∈ s.inventoryMovements, r.movementKind = .reversal ∧ r.reversesMovementId = some m.id

/-- An allocation the ledger has consumed is fulfilled, and a fulfilled one is consumed unless a
depletion of it was reversed since. -/
def StatusFollows (s : StockTables) (a : InventoryAllocationRow) : Prop :=
  (a.quantity ≤ s.depletedAgainstAllocation a.id → a.status = .fulfilled) ∧
    (a.status = .fulfilled → a.quantity ≤ s.depletedAgainstAllocation a.id ∨
      DepletionReversed s.toFactTables a.id)

structure Bookkept (s : StockTables) : Prop extends Tied s where
  follows : ∀ a ∈ s.inventoryAllocations, StatusFollows s a

section Follows

variable {s : StockTables} {newId : MovementId} {value : RecordMovementInput}

variable {id : AllocationId}

theorem DepletionReversed.mono {s t : FactTables}
    (hsub : s.inventoryMovements ⊆ t.inventoryMovements) (h : DepletionReversed s id) :
    DepletionReversed t id := by
  obtain ⟨m, hm, hd, r, hr, hrev⟩ := h
  exact ⟨m, hsub hm, hd, r, hsub hr, hrev⟩

theorem record_subset (s : StockTables) (newId : MovementId) (value : RecordMovementInput) :
    s.inventoryMovements ⊆ (s.record newId value).inventoryMovements := by
  rw [StockTables.record_movements]
  exact List.subset_append_left _ _

theorem Bookkept.recordPlain (h : Bookkept s) (hw : Recordable s newId value)
    (halloc : value.inventoryAllocationId = none) (hkind : value.movementKind ≠ .reversal) :
    Bookkept (s.record newId value) where
  toTied := by
    refine h.toTied.record hw (by simp [halloc]) fun id hid => ?_
    have hsome : value.reversesMovementId.isSome := Option.isSome_of_mem hid
    exact absurd (hw.writes.reversal.1 hsome) hkind
  follows := by
    intro a ha
    have hnet : (s.record newId value).depletedAgainstAllocation a.id =
        s.depletedAgainstAllocation a.id := by
      rw [depletedAgainst_append h.reversals rfl hw.writes.new_id hkind, if_neg, sub_zero]
      rintro ⟨hsome, -⟩
      simp [movementRow, halloc] at hsome
    obtain ⟨hful, hnetle⟩ := h.follows a ha
    rw [StatusFollows, hnet]
    exact ⟨hful, fun hs => (hnetle hs).imp_right (·.mono (record_subset _ _ _))⟩

theorem Bookkept.recordReversal (h : Bookkept s) {original : InventoryMovementRow}
    {occurredAt : Timestamp} (horiginal : original ∈ s.inventoryMovements)
    (hw : Recordable s newId (reversalOfMovement original occurredAt)) :
    Bookkept (s.record newId (reversalOfMovement original occurredAt)) where
  toTied := by
    refine h.toTied.record hw (by simp [reversalOfMovement]) fun id hid => ?_
    obtain rfl : original.id = id := Option.some_injective _ hid
    exact List.mem_map_of_mem horiginal
  follows := by
    intro a ha
    obtain ⟨hful, hnetle⟩ := h.follows a ha
    have hwritten : (s.record newId
        (reversalOfMovement original occurredAt)).toFactTables.inventoryMovements =
          s.inventoryMovements ++ [movementRow newId (reversalOfMovement original occurredAt)] :=
      rfl
    have hnet := depletedAgainst_reversal h.movementIds horiginal hwritten rfl rfl a.id
    by_cases hd : original.Depletes a.id
    · have hneg := h.sales original horiginal hd.2
      have hless : s.depletedAgainstAllocation a.id -
          (movementRow newId (reversalOfMovement original occurredAt)).quantity ≤
            s.depletedAgainstAllocation a.id := by
        simp only [movementRow, reversalOfMovement]
        linarith
      rw [if_pos hd] at hnet
      rw [StatusFollows, hnet]
      refine ⟨fun hq => hful (hq.trans hless), fun _ => .inr ?_⟩
      exact ⟨original, record_subset _ _ _ horiginal, hd,
        movementRow newId (reversalOfMovement original occurredAt), by simp, rfl, rfl⟩
    · rw [if_neg hd, sub_zero] at hnet
      rw [StatusFollows, hnet]
      exact ⟨hful, fun hs => (hnetle hs).imp_right (·.mono (record_subset _ _ _))⟩

theorem Bookkept.reserve (h : Bookkept s) {now : Timestamp} {input : ReserveInput}
    (hpos : 0 < input.quantity) (hitem : input.inventoryItemId ∈ s.inventoryItems.map (·.id))
    (hnew : id ∉ s.inventoryAllocations.map (·.id)) :
    Bookkept { s with inventoryAllocations :=
      s.inventoryAllocations ++ [allocationRow id now input] } where
  toTied := h.toTied.insert hnew hitem
  follows := by
    intro a ha
    rw [List.mem_append, List.mem_singleton] at ha
    rcases ha with ha | rfl
    · exact h.follows a ha
    · have hzero := h.toTied.depletedAgainst_new hnew
      refine ⟨fun hq => ?_, fun hs => by simp [allocationRow] at hs⟩
      simp only [allocationRow, hzero] at hq
      exact absurd hpos (not_lt.2 hq)

theorem Bookkept.release (h : Bookkept s) {status : ReleaseStatus}
    (hopen : ∃ a ∈ s.inventoryAllocations, a.id = id ∧ a.status = .reserved) :
    Bookkept (s.setStatus id status.status) where
  toTied := h.toTied.setStatus _ _
  follows := by
    intro a ha
    rcases mem_setStatus ha with ⟨hmem, -⟩ | ⟨x, hx, hid, rfl⟩
    · exact h.follows a hmem
    · obtain ⟨b, hb, hbid, hreserved⟩ := hopen
      obtain rfl := List.inj_on_of_nodup_map h.allocationIds hx hb (hid.trans hbid.symm)
      have hopen : ¬ x.quantity ≤ s.depletedAgainstAllocation x.id := fun hq => by
        simp [(h.follows x hx).1 hq] at hreserved
      refine ⟨fun hq => absurd hq hopen, fun hs => ?_⟩
      cases status <;> simp [ReleaseStatus.status] at hs

end Follows

/-!
## What fulfilments deplete

A delivery pours its quantity into the open reservations of its line, oldest first. While no
fulfilment is reported again in a way the loop takes for progress, each depletes once, and a
reservation is fulfilled when the ledger has consumed all of it.
-/

def depletionRow (newId : AllocationId → MovementId) (input : DepleteOnFulfillmentInput)
    (p : InventoryAllocationRow × Money) : InventoryMovementRow :=
  movementRow (newId p.1.id) (depletionInput input p.1 p.2)

def StockTables.consume (s : StockTables) (newId : MovementId) (input : DepleteOnFulfillmentInput)
    (a : InventoryAllocationRow) (take : Money) : StockTables :=
  if s.outstanding a ≤ take then
    (s.record newId (depletionInput input a take)).setStatus a.id .fulfilled
  else s.record newId (depletionInput input a take)

section Consume

variable {s : StockTables} {newId : MovementId} {input : DepleteOnFulfillmentInput}
  {a : InventoryAllocationRow} {take : Money}

theorem keyed_eq_false : s.keyed input a = false ↔ ∀ m ∈ s.inventoryMovements,
    m.deduplicationKey ≠
      movementKeyDepletionSale input.orderFulfillmentId input.orderLineId a.id := by
  simp [StockTables.keyed]

theorem depletionInput_nonzero (htake : 0 < take) : (depletionInput input a take).quantity ≠ 0 := by
  simp only [depletionInput, ne_eq, neg_eq_zero]
  exact htake.ne'

theorem depletionInput_sign (htake : 0 < take) :
    SignAgrees (depletionInput input a take).movementKind (depletionInput input a take).quantity := by
  refine .inr ?_
  simp only [depletionInput, MovementKind.inbound, Bool.false_eq_true, false_iff, not_lt]
  linarith

@[simp] theorem consume_movements : (s.consume newId input a take).inventoryMovements =
    s.inventoryMovements ++ [movementRow newId (depletionInput input a take)] := by
  unfold StockTables.consume
  split_ifs <;> rfl

theorem consume_allocationIds : (s.consume newId input a take).inventoryAllocations.map (·.id) =
    s.inventoryAllocations.map (·.id) := by
  unfold StockTables.consume
  split_ifs
  · exact setStatus_ids _ _ _
  · rfl

theorem consume_itemIds : (s.consume newId input a take).inventoryItems.map (·.id) =
    s.inventoryItems.map (·.id) := by
  unfold StockTables.consume
  split_ifs
  · exact StockTables.record_itemIds _ _ _
  · exact StockTables.record_itemIds _ _ _

theorem consumeAllocation_eq_ok (hkey : s.keyed input a = false) {d : Depletion} {t : StockTables}
    : consumeAllocation s newId input a (s.depletedAgainstAllocation a.id) take =
      .ok (d, t) ↔ Recordable s newId (depletionInput input a take) ∧
        t = s.consume newId input a take ∧ d = ⟨a.id, a.inventoryItemId, take, newId, true,
          (writtenResult s.toFactTables newId (depletionInput input a take)).oversell⟩ := by
  have hcond : a.quantity ≤ s.depletedAgainstAllocation a.id + take ↔ s.outstanding a ≤ take := by
    unfold StockTables.outstanding
    constructor <;> intro h <;> linarith
  have hnew := keyed_eq_false.1 hkey
  unfold consumeAllocation
  simp only [Except.bind_eq_ok, Except.pure_eq_ok, hcond]
  constructor
  · rintro ⟨⟨result, t'⟩, hr, heq⟩
    obtain ⟨hq, hsign, item, hitem, h⟩ := recordMovement_eq_ok.1 hr
    rcases h with ⟨existing, hfound, -, -⟩ | ⟨hw, rfl, rfl⟩
    · have hkeyed := List.find?_some hfound
      exact absurd (by simpa [depletionInput] using hkeyed)
        (hnew existing (List.mem_of_find?_eq_some hfound))
    · obtain ⟨hmem, hid⟩ := findItem_id hitem
      obtain ⟨rfl, rfl⟩ := Prod.mk.injEq .. ▸ heq
      exact ⟨⟨hq, hsign, List.mem_map.2 ⟨item, hmem, hid⟩, hw⟩, rfl, rfl⟩
  · rintro ⟨hw, rfl, rfl⟩
    obtain ⟨item, hitem⟩ := findItem_of_mem_ids hw.item
    exact ⟨_, recordMovement_eq_ok.2 ⟨hw.nonzero, hw.sign, item, hitem, .inr ⟨hw.writes, rfl, rfl⟩⟩,
      rfl⟩

theorem recordable_depletion (hs : Tied s) (ha : a ∈ s.inventoryAllocations)
    (hkey : s.keyed input a = false) (hid : newId ∉ s.inventoryMovements.map (·.id))
    (htake : 0 < take) : Recordable s newId (depletionInput input a take) where
  nonzero := depletionInput_nonzero htake
  sign := depletionInput_sign htake
  item := hs.items a ha
  writes := ⟨keyed_eq_false.1 hkey, by simp [depletionInput], hid⟩

theorem consumeAllocation_keyed (hkeyed : s.keyed input a = true)
    (hitem : a.inventoryItemId ∈ s.inventoryItems.map (·.id)) (htake : 0 < take)
    (hless : take < s.outstanding a) : ∃ d : Depletion, d.created = false ∧
      consumeAllocation s newId input a (s.depletedAgainstAllocation a.id) take = .ok (d, s) := by
  obtain ⟨item, hfind⟩ := findItem_of_mem_ids hitem
  obtain ⟨existing, hfound⟩ : ∃ m, s.inventoryMovements.find? (·.deduplicationKey ==
      (depletionInput input a take).deduplicationKey) = some m := by
    rw [← Option.isSome_iff_exists, List.find?_isSome]
    simpa [StockTables.keyed, depletionInput] using hkeyed
  have hrecord : recordMovement s.toFactTables newId (depletionInput input a take) = .ok _ :=
    recordMovement_eq_ok.2 ⟨depletionInput_nonzero htake, depletionInput_sign htake, item, hfind,
      .inl ⟨existing, hfound, rfl, rfl⟩⟩
  have hopen : ¬ a.quantity ≤ s.depletedAgainstAllocation a.id + take := by
    simp only [StockTables.outstanding] at hless
    intro hle
    linarith
  refine ⟨⟨a.id, a.inventoryItemId, take, existing.id, false, decide (item.quantityOnHand < 0)⟩,
    rfl, Except.bind_eq_ok.2 ⟨_, hrecord, ?_⟩⟩
  simp only [if_neg hopen]
  rfl

variable {b : InventoryAllocationRow}

theorem consume_other (hb : b ∈ s.inventoryAllocations) (hne : b.id ≠ a.id)
    : b ∈ (s.consume newId input a take).inventoryAllocations := by
  unfold StockTables.consume
  split_ifs
  · simp only [StockTables.setStatus, StockTables.record_allocations, List.mem_map]
    exact ⟨b, hb, if_neg hne⟩
  · exact hb

theorem depletedAgainst_consume (hs : Tied s) (hid : newId ∉ s.inventoryMovements.map (·.id))
    (id : AllocationId) : (s.consume newId input a take).depletedAgainstAllocation id =
      s.depletedAgainstAllocation id + if a.id = id then take else 0 := by
  rw [depletedAgainst_append hs.reversals consume_movements hid (by simp [movementRow,
    depletionInput])]
  simp only [InventoryMovementRow.Depletes, movementRow, depletionInput, Option.some.injEq,
    and_true]
  split_ifs <;> ring

theorem outstanding_consume (hs : Tied s) (hid : newId ∉ s.inventoryMovements.map (·.id))
    (hne : b.id ≠ a.id) :
    (s.consume newId input a take).outstanding b = s.outstanding b := by
  simp only [StockTables.outstanding, depletedAgainst_consume hs hid, if_neg (Ne.symm hne),
    add_zero]

theorem keyed_consume (hb : s.keyed input b = false) (hne : b.id ≠ a.id)
    : (s.consume newId input a take).keyed input b = false := by
  rw [keyed_eq_false] at hb ⊢
  intro m hm
  rw [consume_movements, List.mem_append, List.mem_singleton] at hm
  rcases hm with hm | rfl
  · exact hb m hm
  · exact fun hkey => hne (movementKeyDepletionSale_alloc hkey).symm

theorem Bookkept.consume (hs : Bookkept s) (ha : a ∈ s.inventoryAllocations)
    (hreserved : a.status = .reserved) (hw : Recordable s newId (depletionInput input a take)) :
    Bookkept (s.consume newId input a take) where
  toTied := by
    have halloc : ∀ id ∈ (depletionInput input a take).inventoryAllocationId,
        id ∈ s.inventoryAllocations.map (·.id) := by
      intro id hid
      obtain rfl : a.id = id := Option.some_injective _ hid
      exact List.mem_map_of_mem ha
    have htied := hs.toTied.record hw halloc (by simp [depletionInput])
    unfold StockTables.consume
    split_ifs
    · exact htied.setStatus _ _
    · exact htied
  follows := by
    intro b hb
    have hnet := @depletedAgainst_consume s newId input a take hs.toTied
      hw.writes.new_id b.id
    have hsub : s.inventoryMovements ⊆ (s.consume newId input a take).inventoryMovements := by
      rw [consume_movements]
      exact List.subset_append_left _ _
    by_cases hba : b.id = a.id
    · rw [if_pos hba.symm] at hnet
      have hout : s.outstanding a ≤ take ↔ a.quantity ≤
          (s.consume newId input a take).depletedAgainstAllocation b.id := by
        rw [hnet, hba, StockTables.outstanding]
        constructor <;> intro h <;> linarith
      unfold StockTables.consume at hb
      split_ifs at hb with hful
      · rcases mem_setStatus hb with ⟨-, hne⟩ | ⟨x, hx, hxa, rfl⟩
        · exact absurd hba hne
        · obtain rfl := List.inj_on_of_nodup_map hs.allocationIds hx ha hxa
          exact ⟨fun _ => rfl, fun _ => .inl (hout.1 hful)⟩
      · obtain rfl := List.inj_on_of_nodup_map hs.allocationIds hb ha hba
        exact ⟨fun hq => absurd (hout.2 hq) hful, fun hst => by simp [hst] at hreserved⟩
    · rw [if_neg (Ne.symm hba), add_zero] at hnet
      have hmem : b ∈ s.inventoryAllocations := by
        unfold StockTables.consume at hb
        split_ifs at hb
        · rcases mem_setStatus hb with ⟨hmem, -⟩ | ⟨x, -, hxa, rfl⟩
          · exact hmem
          · exact absurd hxa hba
        · exact hb
      obtain ⟨hful, hnetle⟩ := hs.follows b hmem
      rw [StatusFollows, hnet]
      exact ⟨hful, fun hst => (hnetle hst).imp_right (·.mono hsub)⟩

end Consume

section Loop

variable {newId : AllocationId → MovementId} {input : DepleteOnFulfillmentInput}

def Reaches (s : StockTables) (input : DepleteOnFulfillmentInput) (as : List InventoryAllocationRow)
    : Prop :=
  (as.map (·.id)).Nodup ∧ ∀ a ∈ as, a ∈ s.inventoryAllocations ∧ a.status = .reserved ∧
    s.keyed input a = false

variable {s : StockTables} {a : InventoryAllocationRow} {as : List InventoryAllocationRow}

theorem Reaches.tail (h : Reaches s input (a :: as)) : Reaches s input as :=
  ⟨(List.nodup_cons.1 h.1).2, fun b hb => h.2 b (List.mem_cons_of_mem _ hb)⟩

theorem Reaches.ne (h : Reaches s input (a :: as)) : ∀ b ∈ as, b.id ≠ a.id := by
  intro b hb heq
  exact (List.nodup_cons.1 h.1).1 (List.mem_map.2 ⟨b, hb, heq⟩)

theorem Reaches.consume (h : Reaches s input (a :: as)) {id : MovementId} {take : Money} :
    Reaches (s.consume id input a take) input as := by
  refine ⟨h.tail.1, fun b hb => ?_⟩
  obtain ⟨hmem, hreserved, hkey⟩ := h.tail.2 b hb
  exact ⟨consume_other hmem (h.ne b hb), hreserved, keyed_consume hkey (h.ne b hb)⟩

theorem pour_consume (hs : Tied s) (h : Reaches s input (a :: as)) {id : MovementId}
    (hid : id ∉ s.inventoryMovements.map (·.id)) {take rest : Money} :
    Waterfall.pour (s.consume id input a take).outstanding as rest =
      Waterfall.pour s.outstanding as rest :=
  Waterfall.pour_congr fun b hb => outstanding_consume hs hid (h.ne b hb)

variable {remaining : Money}

theorem consumeAllocations_skip (hpos : 0 < remaining) (h : s.outstanding a ≤ 0)
    : consumeAllocations newId input (a :: as) s remaining =
      consumeAllocations newId input as s remaining := by
  rw [consumeAllocations, if_neg (not_le.2 hpos)]
  exact if_pos h

theorem consumeAllocations_cons (hpos : 0 < remaining) (h : 0 < s.outstanding a)
    : consumeAllocations newId input (a :: as) s remaining =
      (do
        let (depletion, t) ← consumeAllocation s (newId a.id) input a
          (s.depletedAgainstAllocation a.id) (min (s.outstanding a) remaining)
        let (depletions, rest, t) ←
          consumeAllocations newId input as t (remaining - min (s.outstanding a) remaining)
        return (depletion :: depletions, rest, t)) := by
  have hnot : ¬ a.quantity - s.depletedAgainstAllocation a.id ≤ 0 := not_le.2 h
  rw [consumeAllocations, if_neg (not_le.2 hpos)]
  simp only [if_neg hnot, min_def]
  rfl

structure Depletes (s : StockTables) (newId : AllocationId → MovementId)
    (input : DepleteOnFulfillmentInput) (taken : List (InventoryAllocationRow × Money))
    (depletions : List Depletion) (t : StockTables) : Prop where
  written : t.inventoryMovements = s.inventoryMovements ++ taken.map (depletionRow newId input)
  reported : depletions.map (fun d => (d.allocationId, d.quantity, d.created)) =
    taken.map fun p => (p.1.id, p.2, true)
  allocationIds : t.inventoryAllocations.map (·.id) = s.inventoryAllocations.map (·.id)

theorem consumeAllocations_eq_ok : ∀ {as : List InventoryAllocationRow} {s : StockTables}
    {remaining rest : Money} {depletions : List Depletion} {t : StockTables},
    Bookkept s → Reaches s input as → 0 ≤ remaining →
    consumeAllocations newId input as s remaining = .ok (depletions, rest, t) →
    Bookkept t ∧ rest = remaining - Waterfall.poured s.outstanding as remaining ∧
      Depletes s newId input (Waterfall.pour s.outstanding as remaining) depletions t
  | [], s, remaining, rest, depletions, t, hs, _, _, h => by
    simp only [consumeAllocations, Except.ok.injEq, Prod.mk.injEq] at h
    obtain ⟨rfl, rfl, rfl⟩ := h
    exact ⟨hs, by simp [Waterfall.poured, Waterfall.pour],
      ⟨by simp [Waterfall.pour], by simp [Waterfall.pour], rfl⟩⟩
  | a :: as, s, remaining, rest, depletions, t, hs, hreach, hnonneg, h => by
    by_cases hpos : remaining ≤ 0
    · rw [consumeAllocations, if_pos hpos] at h
      simp only [Except.ok.injEq, Prod.mk.injEq] at h
      obtain ⟨rfl, rfl, rfl⟩ := h
      simp only [Waterfall.poured, Waterfall.pour_of_nonpos hpos]
      exact ⟨hs, by simp, ⟨by simp, by simp, rfl⟩⟩
    by_cases hout : s.outstanding a ≤ 0
    · rw [consumeAllocations_skip (not_le.1 hpos) hout] at h
      rw [Waterfall.poured, Waterfall.pour_skip hout]
      exact consumeAllocations_eq_ok hs hreach.tail hnonneg h
    obtain ⟨hmem, hreserved, hkey⟩ := hreach.2 a List.mem_cons_self
    rw [consumeAllocations_cons (not_le.1 hpos) (not_le.1 hout)] at h
    simp only [Except.bind_eq_ok, Except.pure_eq_ok, Prod.mk.injEq] at h
    obtain ⟨⟨d, s₁⟩, hd, ⟨ds, r, t'⟩, hrest, rfl, rfl, rfl⟩ := h
    obtain ⟨hw, rfl, rfl⟩ := (consumeAllocation_eq_ok hkey).1 hd
    obtain ⟨hbook, hr, hdep⟩ := consumeAllocations_eq_ok (hs.consume hmem hreserved hw)
      hreach.consume (sub_nonneg.2 (min_le_right _ _)) hrest
    rw [Waterfall.poured, pour_consume hs.toTied hreach hw.writes.new_id] at hr
    rw [pour_consume hs.toTied hreach hw.writes.new_id] at hdep
    rw [Waterfall.poured, Waterfall.pour_cons (not_le.1 hpos) (not_le.1 hout)]
    refine ⟨hbook, ?_, ⟨?_, ?_, hdep.allocationIds.trans consume_allocationIds⟩⟩
    · rw [hr, List.map_cons, List.sum_cons]
      ring
    · rw [hdep.written, consume_movements, List.map_cons, List.append_assoc]
      rfl
    · rw [List.map_cons, List.map_cons, hdep.reported]

theorem consumeAllocations_returns (hinj : Function.Injective newId) :
    ∀ {as : List InventoryAllocationRow} {s : StockTables} {remaining : Money},
    Bookkept s → Reaches s input as →
    (∀ a ∈ as, newId a.id ∉ s.inventoryMovements.map (·.id)) →
    ∃ r, consumeAllocations newId input as s remaining = .ok r
  | [], s, remaining, _, _, _ => ⟨_, rfl⟩
  | a :: as, s, remaining, hs, hreach, hids => by
    by_cases hpos : remaining ≤ 0
    · exact ⟨_, by rw [consumeAllocations, if_pos hpos]⟩
    by_cases hout : s.outstanding a ≤ 0
    · rw [consumeAllocations_skip (not_le.1 hpos) hout]
      exact consumeAllocations_returns hinj hs hreach.tail fun b hb =>
        hids b (List.mem_cons_of_mem _ hb)
    obtain ⟨hmem, hreserved, hkey⟩ := hreach.2 a List.mem_cons_self
    have hw := recordable_depletion hs.toTied hmem hkey (hids a List.mem_cons_self)
      (lt_min (not_le.1 hout) (not_le.1 hpos))
    have hnew : ∀ b ∈ as, newId b.id ∉ (s.consume (newId a.id) input a
        (min (s.outstanding a) remaining)).inventoryMovements.map (·.id) := by
      intro b hb
      rw [consume_movements, List.map_append, List.mem_append, List.map_singleton,
        List.mem_singleton, not_or]
      exact ⟨hids b (List.mem_cons_of_mem _ hb), fun heq => hreach.ne b hb (hinj heq)⟩
    have hd := (consumeAllocation_eq_ok hkey).2 ⟨hw, rfl, rfl⟩
    obtain ⟨r, hrest⟩ : ∃ r, consumeAllocations newId input as
        (s.consume (newId a.id) input a (min (s.outstanding a) remaining))
        (remaining - min (s.outstanding a) remaining) = .ok r :=
      consumeAllocations_returns hinj (hs.consume hmem hreserved hw) hreach.consume hnew
    rw [consumeAllocations_cons (not_le.1 hpos) (not_le.1 hout)]
    exact ⟨_, Except.bind_eq_ok.2 ⟨_, hd, Except.bind_eq_ok.2 ⟨_, hrest, rfl⟩⟩⟩

theorem consumeAllocations_none (hpos : 0 < remaining) :
    ∀ {as : List InventoryAllocationRow}, as.find? (fun a => 0 < s.outstanding a) = none →
      consumeAllocations newId input as s remaining = .ok ([], remaining, s)
  | [], _ => rfl
  | a :: as, h => by
    simp only [List.find?_cons] at h
    split at h
    · cases h
    · rename_i hout
      rw [consumeAllocations_skip hpos (by simpa using hout)]
      exact consumeAllocations_none hpos h

theorem consumeAllocations_first (hpos : 0 < remaining) :
    ∀ {as : List InventoryAllocationRow}, as.find? (fun a => 0 < s.outstanding a) = some a →
      remaining ≤ s.outstanding a → consumeAllocations newId input as s remaining =
        (do
          let (depletion, t) ← consumeAllocation s (newId a.id) input a
            (s.depletedAgainstAllocation a.id) remaining
          return ([depletion], 0, t))
  | [], h, _ => by simp at h
  | b :: bs, h, hle => by
    have hzero : ∀ t, consumeAllocations newId input bs t (remaining - remaining) =
        .ok ([], 0, t) := by
      intro t
      rw [sub_self]
      cases bs with
      | nil => rfl
      | cons b bs => rw [consumeAllocations, if_pos le_rfl]
    simp only [List.find?_cons] at h
    split at h
    · rename_i hout
      obtain rfl := Option.some_injective _ h
      rw [consumeAllocations_cons hpos (by simpa using hout), min_eq_right hle]
      simp only [hzero]
      rfl
    · rename_i hout
      rw [consumeAllocations_skip hpos (by simpa using hout)]
      exact consumeAllocations_first hpos h hle

end Loop

section Deliver

variable {s t : StockTables} {newId : AllocationId → MovementId}
  {input : DepleteOnFulfillmentInput} {result : DepletionResult}

theorem mem_reservedFor {line : OrderLineId} {a : InventoryAllocationRow} :
    a ∈ s.reservedFor line ↔
      a ∈ s.inventoryAllocations ∧ a.orderLineId = some line ∧ a.status = .reserved := by
  simp [StockTables.reservedFor, List.mem_insertionSort]

theorem reservedFor_ids (hs : Tied s) (line : OrderLineId) :
    ((s.reservedFor line).map (·.id)).Nodup := by
  refine ((List.perm_insertionSort _ _).map _).nodup_iff.2 ?_
  exact (List.filter_sublist.map _).nodup hs.allocationIds

theorem reaches_reservedFor (hs : Tied s) (hnew : s.delivered input = false) :
    Reaches s input (s.reservedFor input.orderLineId) := by
  refine ⟨reservedFor_ids hs _, fun a ha => ?_⟩
  obtain ⟨hmem, -, hreserved⟩ := mem_reservedFor.1 ha
  have hkeyed := List.any_eq_false.1 hnew a hmem
  exact ⟨hmem, hreserved, by simpa using hkeyed⟩

/-- What the delivery of a new fulfilment does: it consumes the reservations of its line, oldest
first, and reports the rest unmatched. -/
structure Delivers (s : StockTables) (newId : AllocationId → MovementId)
    (input : DepleteOnFulfillmentInput) (result : DepletionResult) (t : StockTables) : Prop
    extends Depletes s newId input (s.taken input) result.depletions t where
  oldestFirst : (s.taken input).Pairwise fun p _ => p.2 = s.outstanding p.1
  total : ((s.taken input).map Prod.snd).sum = min input.quantity
    ((s.reservedFor input.orderLineId).map fun a => max 0 (s.outstanding a)).sum
  unmatched : result.unmatchedQuantity = input.quantity - ((s.taken input).map Prod.snd).sum

theorem depleteOnFulfillment_eq_ok :
    depleteOnFulfillment s newId input = .ok (result, t) ↔ 0 < input.quantity ∧
      ∃ depletions rest, consumeAllocations newId input (s.reservedFor input.orderLineId) s
          input.quantity = .ok (depletions, rest, t) ∧
        result = ⟨depletions, if 0 < rest then rest else 0, depletions.isEmpty⟩ := by
  simp only [depleteOnFulfillment, Except.bind_eq_ok, Except.require_eq_ok, Except.pure_eq_ok,
    exists_const]
  refine and_congr_right fun _ => ?_
  constructor
  · rintro ⟨⟨depletions, rest, t'⟩, hloop, heq⟩
    simp only [Prod.mk.injEq] at heq
    obtain ⟨rfl, rfl⟩ := heq
    exact ⟨depletions, rest, hloop, rfl⟩
  · rintro ⟨depletions, rest, hloop, rfl⟩
    exact ⟨(depletions, rest, t), hloop, rfl⟩

theorem depleteOnFulfillment_new (hs : Bookkept s) (hnew : s.delivered input = false)
    (h : depleteOnFulfillment s newId input = .ok (result, t)) :
    Bookkept t ∧ Delivers s newId input result t := by
  obtain ⟨hpos, depletions, rest, hloop, rfl⟩ := depleteOnFulfillment_eq_ok.1 h
  obtain ⟨hbook, hrest, hdep⟩ := consumeAllocations_eq_ok hs (reaches_reservedFor hs.toTied hnew)
    hpos.le hloop
  have htotal : Waterfall.poured s.outstanding (s.reservedFor input.orderLineId) input.quantity =
      min input.quantity
        ((s.reservedFor input.orderLineId).map fun a => max 0 (s.outstanding a)).sum :=
    Waterfall.poured_eq hpos.le
  refine ⟨hbook, hdep, Waterfall.pour_pairwise, htotal, ?_⟩
  have hnonneg : 0 ≤ rest := by
    rw [hrest, htotal]
    exact sub_nonneg.2 (min_le_left _ _)
  simp only []
  split_ifs with hlt
  · exact hrest
  · rw [← le_antisymm (not_lt.1 hlt) hnonneg]
    exact hrest

theorem depleteOnFulfillment_again (hs : Tied s) (hpos : 0 < input.quantity)
    (hagain : s.delivered input = true) (horderly : s.orderly (.deliver newId input) = true) :
    ∃ result, depleteOnFulfillment s newId input = .ok (result, s) ∧
      ∀ d ∈ result.depletions, d.created = false := by
  simp only [StockTables.orderly, hagain, Bool.not_true, Bool.false_or] at horderly
  cases hopen : s.firstOpen input.orderLineId with
  | none =>
    exact ⟨_, depleteOnFulfillment_eq_ok.2 ⟨hpos, _, _, consumeAllocations_none hpos hopen, rfl⟩,
      by simp⟩
  | some a =>
    simp only [hopen, Option.all_some, Bool.and_eq_true, decide_eq_true_eq] at horderly
    obtain ⟨hkeyed, hless⟩ := horderly
    obtain ⟨hmem, -, -⟩ := mem_reservedFor.1 (List.mem_of_find?_eq_some hopen)
    obtain ⟨d, hcreated, hconsume⟩ := consumeAllocation_keyed hkeyed (hs.items a hmem) hpos
      hless
    have hloop : consumeAllocations newId input (s.reservedFor input.orderLineId) s
        input.quantity = .ok ([d], 0, s) := by
      rw [consumeAllocations_first hpos hopen hless.le]
      exact Except.bind_eq_ok.2 ⟨_, hconsume, rfl⟩
    refine ⟨_, depleteOnFulfillment_eq_ok.2 ⟨hpos, _, _, hloop, rfl⟩, ?_⟩
    simpa using hcreated

theorem delivered_mono (hmoves : s.inventoryMovements ⊆ t.inventoryMovements)
    (hids : s.inventoryAllocations.map (·.id) ⊆ t.inventoryAllocations.map (·.id))
    (h : s.delivered input = true) : t.delivered input = true := by
  simp only [StockTables.delivered, StockTables.keyed, List.any_eq_true] at h ⊢
  obtain ⟨a, ha, m, hm, hkey⟩ := h
  obtain ⟨b, hb, hba⟩ := List.mem_map.1 (hids (List.mem_map_of_mem ha))
  refine ⟨b, hb, m, hmoves hm, ?_⟩
  rw [hba]
  exact hkey

theorem Delivers.delivered (h : Delivers s newId input result t) (htaken : s.taken input ≠ []) :
    t.delivered input = true := by
  obtain ⟨p, hp⟩ := List.exists_mem_of_ne_nil _ htaken
  obtain ⟨hmem, -, -⟩ := mem_reservedFor.1 (Waterfall.mem_pour hp).1
  have hrow : depletionRow newId input p ∈ t.inventoryMovements := by
    rw [h.written]
    exact List.mem_append_right _ (List.mem_map_of_mem hp)
  have hid : p.1.id ∈ t.inventoryAllocations.map (·.id) := by
    rw [h.allocationIds]
    exact List.mem_map_of_mem hmem
  obtain ⟨b, hb, hbp⟩ := List.mem_map.1 hid
  simp only [StockTables.delivered, StockTables.keyed, List.any_eq_true]
  refine ⟨b, hb, _, hrow, ?_⟩
  rw [hbp]
  exact beq_self_eq_true _

end Deliver

section Run

variable {s : StockTables}

theorem step_of_ok {event : StockEvent} {t : StockTables} (h : s.handle event = .ok t) :
    s.step event = t := by
  simp only [StockTables.step, h]

theorem orderly_step (hs : Bookkept s) {event : StockEvent} (horderly : s.orderly event = true) :
    Bookkept (s.step event) ∧ s.inventoryMovements ⊆ (s.step event).inventoryMovements ∧
      s.inventoryAllocations.map (·.id) ⊆ (s.step event).inventoryAllocations.map (·.id) := by
  have hself : Bookkept s ∧ s.inventoryMovements ⊆ s.inventoryMovements ∧
      s.inventoryAllocations.map (·.id) ⊆ s.inventoryAllocations.map (·.id) :=
    ⟨hs, List.Subset.refl _, List.Subset.refl _⟩
  cases hh : s.handle event with
  | error e =>
    simp only [StockTables.step, hh]
    exact hself
  | ok t =>
    rw [step_of_ok hh]
    cases event with
    | call call =>
      rcases perform_cases hh with rfl | ⟨newId, value, rfl, hw, rfl⟩ |
        ⟨newId, original, occurredAt, horiginal, hw, rfl⟩ |
        ⟨newId, now, input, hpos, hitem, hnew, rfl⟩ | ⟨id, status, hopen, rfl⟩
      · exact hself
      · simp only [StockTables.orderly, Bool.and_eq_true, Option.isNone_iff_eq_none,
          bne_iff_ne] at horderly
        exact ⟨hs.recordPlain hw horderly.1 horderly.2, record_subset _ _ _, List.Subset.refl _⟩
      · exact ⟨hs.recordReversal horiginal hw, record_subset _ _ _, List.Subset.refl _⟩
      · refine ⟨hs.reserve hpos hitem hnew, List.Subset.refl _, ?_⟩
        rw [List.map_append]
        exact List.subset_append_left _ _
      · refine ⟨hs.release hopen, List.Subset.refl _, ?_⟩
        rw [setStatus_ids]
        exact List.Subset.refl _
    | deliver newId input =>
      obtain ⟨⟨result, t'⟩, hdeplete, rfl⟩ := Except.map_eq_ok.1 hh
      by_cases hdel : s.delivered input = true
      · have hpos := (depleteOnFulfillment_eq_ok.1 hdeplete).1
        obtain ⟨result', hagain, -⟩ := depleteOnFulfillment_again hs.toTied hpos hdel horderly
        rw [hagain] at hdeplete
        obtain ⟨-, rfl⟩ := Prod.mk.inj (Except.ok.inj hdeplete)
        exact hself
      · obtain ⟨hbook, hdelivers⟩ := depleteOnFulfillment_new hs
          (Bool.not_eq_true _ ▸ hdel) hdeplete
        refine ⟨hbook, ?_, ?_⟩
        · rw [hdelivers.written]
          exact List.subset_append_left _ _
        · rw [hdelivers.allocationIds]
          exact List.Subset.refl _

/-- In every state of an orderly run the status of a reservation follows what the ledger has
consumed of it, a new fulfilment depletes once, and one reported again writes nothing. -/
theorem fulfilment_bookkeeping {tables : StockTables} (hstart : Bookkept tables)
    {events : List StockEvent}
    (horderly : Runs.Meets StockTables.step (fun s e => s.orderly e = true) tables events) :
    Runs.Along StockTables.step (fun s => ∀ a ∈ s.inventoryAllocations, StatusFollows s a) tables
        events ∧
      let s := Runs.run StockTables.step tables events
      ∀ newId input, s.orderly (.deliver newId input) = true → 0 < input.quantity →
        Function.Injective newId → (∀ a, newId a ∉ s.inventoryMovements.map (·.id)) →
        ∃ result t, depleteOnFulfillment s newId input = .ok (result, t) ∧
          (s.delivered input = false → Delivers s newId input result t ∧
            (s.taken input ≠ [] → t.delivered input = true)) ∧
          (s.delivered input = true → t = s ∧ ∀ d ∈ result.depletions, d.created = false) ∧
          ∀ other, s.delivered other = true → t.delivered other = true := by
  have hbook : Runs.Along StockTables.step Bookkept tables events :=
    Runs.along_of_meets (fun _ _ hs hord => (orderly_step hs hord).1) hstart horderly
  refine ⟨hbook.mono fun s hs => hs.follows, ?_⟩
  intro s newId input hord hpos hinj hnew
  have hs : Bookkept s := hbook.last
  have hgrow : ∀ {result t}, depleteOnFulfillment s newId input = .ok (result, t) →
      ∀ other, s.delivered other = true → t.delivered other = true := by
    intro result t h other hother
    have hstep : s.step (.deliver newId input) = t :=
      step_of_ok (Except.map_eq_ok.2 ⟨(result, t), h, rfl⟩)
    obtain ⟨-, hmoves, hids⟩ := orderly_step hs hord
    rw [hstep] at hmoves hids
    exact delivered_mono hmoves hids hother
  by_cases hdel : s.delivered input = true
  · obtain ⟨result, hresult, hcreated⟩ := depleteOnFulfillment_again hs.toTied hpos hdel hord
    exact ⟨result, s, hresult, fun hfalse => by simp [hdel] at hfalse, fun _ => ⟨rfl, hcreated⟩,
      hgrow hresult⟩
  · rw [Bool.not_eq_true] at hdel
    obtain ⟨⟨depletions, rest, t⟩, hloop⟩ : ∃ r, consumeAllocations newId input
        (s.reservedFor input.orderLineId) s input.quantity = .ok r :=
      consumeAllocations_returns hinj hs (reaches_reservedFor hs.toTied hdel) fun a _ => hnew a.id
    have hresult := depleteOnFulfillment_eq_ok.2 ⟨hpos, depletions, rest, hloop, rfl⟩
    obtain ⟨-, hdelivers⟩ := depleteOnFulfillment_new hs hdel hresult
    refine ⟨_, t, hresult, fun _ => ⟨hdelivers, hdelivers.delivered⟩, fun htrue => ?_,
      hgrow hresult⟩
    simp [hdel] at htrue

end Run

namespace Small

def reservedItem : InventoryItemRow :=
  ⟨0, "TEN", none, none, none, none, "available", 10, 10, "USD", 0, 0, false, .unit, none, none, none⟩

def reservedTen : StockTables :=
  { FactTables.empty with
    inventoryItems := [reservedItem]
    inventoryMovements := [⟨0, 0, .receipt, 10, none, none, none, "acq:0:item:0", ⟨⟨2026, 1, 1⟩, 0⟩⟩]
    inventoryAllocations :=
      [⟨0, 0, .orderLine, some 0, 10, .reserved, ⟨⟨2026, 1, 1⟩, 0⟩, none⟩] }

def shipment (base : ℕ) (fulfillment : FulfillmentId) (units : Money) : StockEvent :=
  .deliver (fun a => base + a) ⟨fulfillment, 0, units, ⟨⟨2026, 1, 2⟩, 0⟩⟩

def shipped : List StockEvent := [shipment 1 0 4, shipment 2 0 4, shipment 3 1 6]

def shippedBack : List StockEvent :=
  [shipment 1 0 10, .call (.reverse 2 1 ⟨⟨2026, 1, 3⟩, 0⟩)]

theorem reservedTen_bookkept : Bookkept reservedTen where
  movementIds := by decide
  allocationIds := by decide
  reversals := by simp [ReversalsKnown, reservedTen]
  items := by decide
  consumed := by simp [reservedTen]
  sales := by simp [reservedTen]
  follows := by
    intro a ha
    obtain rfl := List.mem_singleton.1 ha
    exact ⟨by decide +kernel, fun h => by cases h⟩

end Small

theorem fulfilment_unmatched_or_reversed :
    (¬ ∀ (s t : StockTables) (newId : AllocationId → MovementId)
      (input : DepleteOnFulfillmentInput) (result : DepletionResult), Bookkept s →
      s.delivered input = false → depleteOnFulfillment s newId input = .ok (result, t) →
      (result.depletions.map (·.quantity)).sum = input.quantity) ∧
    ¬ ∀ (tables : StockTables) (events : List StockEvent), Bookkept tables →
      Runs.Meets StockTables.step (fun s e => s.orderly e = true) tables events →
      let s := Runs.run StockTables.step tables events
      ∀ a ∈ s.inventoryAllocations,
        a.status = .fulfilled ↔ a.quantity ≤ s.depletedAgainstAllocation a.id := by
  constructor
  · intro hall
    have hten : ((depleteOnFulfillment Small.reservedTen (fun a => 1 + a)
        ⟨0, 0, 12, ⟨⟨2026, 1, 2⟩, 0⟩⟩).toOption.map fun r =>
          (r.1.depletions.map (·.quantity)).sum) = some 10 := by decide +kernel
    obtain ⟨r, hr, hsum⟩ := Option.map_eq_some_iff.1 hten
    have htwelve := hall _ r.2 _ _ r.1 Small.reservedTen_bookkept (by decide +kernel)
      (Except.toOption_eq_some.1 hr)
    rw [htwelve] at hsum
    exact absurd hsum (by decide)
  · intro hall
    have hreversed := hall Small.reservedTen Small.shippedBack Small.reservedTen_bookkept
      (by decide +kernel)
    revert hreversed
    decide +kernel

theorem shipped_bookkeeping : Runs.Along StockTables.step
    (fun s => ∀ a ∈ s.inventoryAllocations, StatusFollows s a) Small.reservedTen Small.shipped :=
  (fulfilment_bookkeeping Small.reservedTen_bookkept (by decide +kernel)).1

end Loxep

import Loxep.Proofs.Fulfilment

/-!
# What a depletion does to what is available to sell

A depletion takes stock off the shelf at once, but a reservation holds its full quantity until
the whole of it is consumed. So what is available to sell stays the same only where a delivery
consumes an untouched reservation whole.
-/

namespace Loxep

/-- The cached balance of every item is the sum of its ledger, and no id is used twice. -/
structure Sellable (s : StockTables) : Prop where
  itemIds : (s.inventoryItems.map (·.id)).Nodup
  allocationIds : (s.inventoryAllocations.map (·.id)).Nodup
  onHand : ∀ i ∈ s.inventoryItems, i.quantityOnHand = s.ledgerBalance i.id

section Keeps

variable {s t : StockTables}

theorem Sellable.record (h : Sellable s) (newId : MovementId) (value : RecordMovementInput) :
    Sellable (s.record newId value) where
  itemIds := by
    rw [StockTables.record_itemIds]
    exact h.itemIds
  allocationIds := h.allocationIds
  onHand := by
    have hledger := ledgerBalance_append (StockTables.record_movements s newId value)
    intro i hi
    obtain ⟨x, hx, rfl⟩ := List.mem_map.1 hi
    by_cases hid : x.id = value.inventoryItemId
    · simp only [hid, if_true]
      rfl
    · simp only [if_neg hid]
      have hother : (movementRow newId value).inventoryItemId ≠ x.id := Ne.symm hid
      rw [hledger, if_neg hother, add_zero]
      exact h.onHand x hx

theorem Sellable.setStatus (h : Sellable s) (id : AllocationId) (status : AllocationStatus) :
    Sellable (s.setStatus id status) where
  itemIds := h.itemIds
  allocationIds := by
    rw [setStatus_ids]
    exact h.allocationIds
  onHand := h.onHand

theorem Sellable.consumeAllocation (h : Sellable s) {newId : MovementId}
    {input : DepleteOnFulfillmentInput} {a : InventoryAllocationRow} {already take : Money}
    {d : Depletion} (hc : consumeAllocation s newId input a already take = .ok (d, t)) :
    Sellable t := by
  simp only [Loxep.consumeAllocation, Except.bind_eq_ok, Except.pure_eq_ok, Prod.mk.injEq] at hc
  obtain ⟨⟨result, t'⟩, hr, -, rfl⟩ := hc
  have hkept : Sellable { s with toFactTables := t' } := by
    rcases record_cases hr with rfl | ⟨-, heq⟩
    · exact h
    · rw [heq]
      exact h.record _ _
  simp only []
  split_ifs
  · exact hkept.setStatus _ _
  · exact hkept

theorem Sellable.consumeAllocations {newId : AllocationId → MovementId}
    {input : DepleteOnFulfillmentInput} : ∀ {as : List InventoryAllocationRow} {s t : StockTables}
    {remaining rest : Money} {ds : List Depletion}, Sellable s →
    consumeAllocations newId input as s remaining = .ok (ds, rest, t) → Sellable t
  | [], s, t, remaining, rest, ds, h, hc => by
    simp only [Loxep.consumeAllocations, Except.ok.injEq, Prod.mk.injEq] at hc
    obtain ⟨-, -, rfl⟩ := hc
    exact h
  | a :: as, s, t, remaining, rest, ds, h, hc => by
    by_cases hpos : remaining ≤ 0
    · rw [Loxep.consumeAllocations, if_pos hpos] at hc
      simp only [Except.ok.injEq, Prod.mk.injEq] at hc
      obtain ⟨-, -, rfl⟩ := hc
      exact h
    by_cases hout : s.outstanding a ≤ 0
    · rw [consumeAllocations_skip (not_le.1 hpos) hout] at hc
      exact Sellable.consumeAllocations h hc
    rw [consumeAllocations_cons (not_le.1 hpos) (not_le.1 hout)] at hc
    simp only [Except.bind_eq_ok, Except.pure_eq_ok, Prod.mk.injEq] at hc
    obtain ⟨⟨d, s₁⟩, hd, ⟨ds', r, t'⟩, hrest, -, -, rfl⟩ := hc
    exact Sellable.consumeAllocations (h.consumeAllocation hd) hrest

theorem Sellable.step (h : Sellable s) (event : StockEvent) : Sellable (s.step event) := by
  cases hh : s.handle event with
  | error e =>
    simp only [StockTables.step, hh]
    exact h
  | ok t =>
    rw [step_of_ok hh]
    cases event with
    | call call =>
      rcases perform_cases hh with rfl | ⟨newId, value, -, -, rfl⟩ |
        ⟨newId, original, occurredAt, -, -, rfl⟩ | ⟨newId, now, input, -, -, hnew, rfl⟩ |
        ⟨id, status, -, rfl⟩
      · exact h
      · exact h.record _ _
      · exact h.record _ _
      · exact ⟨h.itemIds, nodup_map_concat h.allocationIds hnew, h.onHand⟩
      · exact h.setStatus _ _
    | deliver newId input =>
      obtain ⟨⟨result, t'⟩, hdeplete, rfl⟩ := Except.map_eq_ok.1 hh
      obtain ⟨-, ds, rest, hloop, -⟩ := depleteOnFulfillment_eq_ok.1 hdeplete
      exact h.consumeAllocations hloop

end Keeps

section Available

variable {s t : StockTables} {newId : AllocationId → MovementId}
  {input : DepleteOnFulfillmentInput} {result : DepletionResult} {a : InventoryAllocationRow}

theorem reservedQuantityFor_closed {status : AllocationStatus} (hstatus : status ≠ .reserved)
    (hids : (s.inventoryAllocations.map (·.id)).Nodup) (ha : a ∈ s.inventoryAllocations)
    (hreserved : a.status = .reserved) :
    (s.setStatus a.id status).reservedQuantityFor a.inventoryItemId =
      s.reservedQuantityFor a.inventoryItemId - a.quantity := by
  simp only [StockTables.reservedQuantityFor, StockTables.setStatus, sum_map_filter, List.map_map]
  rw [sum_map_change (List.Nodup.of_map _ hids) ha (g := fun x : InventoryAllocationRow =>
    if x.inventoryItemId == a.inventoryItemId && x.status == .reserved then x.quantity else 0)]
  · simp [hstatus, hreserved, sub_eq_add_neg]
  · intro x hx hne
    have hid : x.id ≠ a.id := fun heq => hne (List.inj_on_of_nodup_map hids hx ha heq)
    simp only [Function.comp_apply, if_neg hid]

theorem Sellable.available (h : Sellable s) {item : ItemId}
    (hitem : item ∈ s.inventoryItems.map (·.id)) :
    s.availableToSell item = .ok (s.ledgerBalance item - s.reservedQuantityFor item) := by
  obtain ⟨i, hi⟩ := findItem_of_mem_ids hitem
  obtain ⟨hmem, rfl⟩ := findItem_id hi
  simp only [StockTables.availableToSell, Except.bind_eq_ok, loadItem_eq_ok, Except.pure_eq_ok]
  exact ⟨i, hi, by rw [h.onHand i hmem]⟩

theorem reservedQuantityFor_consume (h : Sellable s) (ha : a ∈ s.inventoryAllocations)
    (hreserved : a.status = .reserved) {id : MovementId} {take : Money} :
    (s.consume id input a take).reservedQuantityFor a.inventoryItemId =
      s.reservedQuantityFor a.inventoryItemId -
        if s.outstanding a ≤ take then a.quantity else 0 := by
  unfold StockTables.consume
  split_ifs
  · exact reservedQuantityFor_closed (s := s.record id (depletionInput input a take)) (by simp)
      h.allocationIds ha hreserved
  · exact (sub_zero _).symm

theorem availableToSell_delivered (hs : Sellable s) (hopen : s.firstOpen input.orderLineId = some a)
    (hle : input.quantity ≤ s.outstanding a) (hnew : s.keyed input a = false)
    (h : depleteOnFulfillment s newId input = .ok (result, t)) :
    ∃ available, s.availableToSell a.inventoryItemId = .ok available ∧
      t.availableToSell a.inventoryItemId = .ok (available - input.quantity +
        if s.outstanding a = input.quantity then a.quantity else 0) := by
  obtain ⟨hmem, -, hreserved⟩ := mem_reservedFor.1 (List.mem_of_find?_eq_some hopen)
  obtain ⟨hpos, ds, rest, hloop, -⟩ := depleteOnFulfillment_eq_ok.1 h
  rw [consumeAllocations_first hpos hopen hle] at hloop
  simp only [Except.bind_eq_ok, Except.pure_eq_ok, Prod.mk.injEq] at hloop
  obtain ⟨⟨d, t'⟩, hd, -, -, rfl⟩ := hloop
  obtain ⟨hw, rfl, -⟩ := (consumeAllocation_eq_ok hnew).1 hd
  have hafter : Sellable (s.consume (newId a.id) input a input.quantity) :=
    hs.consumeAllocation hd
  have hcovers : s.outstanding a ≤ input.quantity ↔ s.outstanding a = input.quantity :=
    ⟨fun hge => le_antisymm hge hle, fun heq => heq.le⟩
  have hledger : (s.consume (newId a.id) input a input.quantity).ledgerBalance a.inventoryItemId =
      s.ledgerBalance a.inventoryItemId + _ := ledgerBalance_append consume_movements _
  refine ⟨_, hs.available hw.item, ?_⟩
  rw [hafter.available (by rw [consume_itemIds]; exact hw.item), hledger,
    reservedQuantityFor_consume hs hmem hreserved]
  simp only [movementRow, depletionInput, if_true, hcovers]
  congr 1
  ring

end Available

/-- In every reachable state, a covered delivery leaves what is available to sell as it was exactly
when it consumes an untouched reservation whole. -/
theorem depletion_neutral_iff {tables : StockTables} (hstart : Sellable tables)
    (events : List StockEvent) :
    let s := Runs.run StockTables.step tables events
    ∀ (newId : AllocationId → MovementId) (input : DepleteOnFulfillmentInput)
      (a : InventoryAllocationRow) (result : DepletionResult) (t : StockTables),
      s.firstOpen input.orderLineId = some a → input.quantity ≤ s.outstanding a →
      s.keyed input a = false → depleteOnFulfillment s newId input = .ok (result, t) →
      (t.availableToSell a.inventoryItemId = s.availableToSell a.inventoryItemId ↔
        s.depletedAgainstAllocation a.id = 0 ∧ input.quantity = a.quantity) := by
  intro s newId input a result t hopen hle hnew h
  have hs : Sellable s := (Runs.along_of_step (fun _ e hs => hs.step e) hstart).last
  have hpos := (depleteOnFulfillment_eq_ok.1 h).1
  obtain ⟨available, hbefore, hafter⟩ := availableToSell_delivered hs hopen hle hnew h
  rw [hbefore, hafter, Except.ok.injEq]
  by_cases hwhole : s.outstanding a = input.quantity
  · rw [if_pos hwhole]
    rw [StockTables.outstanding] at hwhole
    constructor
    · intro heq
      have hq : input.quantity = a.quantity := by linarith
      exact ⟨by linarith, hq⟩
    · rintro ⟨-, hq⟩
      rw [hq, sub_add_cancel]
  · rw [if_neg hwhole, add_zero]
    rw [StockTables.outstanding] at hwhole
    constructor
    · intro heq
      linarith
    · rintro ⟨hzero, hq⟩
      rw [hzero, sub_zero] at hwhole
      exact absurd hq.symm hwhole

theorem reservedTen_sellable : Sellable Small.reservedTen where
  itemIds := by decide
  allocationIds := by decide
  onHand := by decide +kernel

theorem partial_depletion_oversells : ¬ ∀ (tables : StockTables), Sellable tables →
    ∀ (events : List StockEvent),
    let s := Runs.run StockTables.step tables events
    ∀ (newId : AllocationId → MovementId) (input : DepleteOnFulfillmentInput)
      (a : InventoryAllocationRow) (result : DepletionResult) (t : StockTables),
      s.firstOpen input.orderLineId = some a → input.quantity ≤ s.outstanding a →
      s.keyed input a = false → depleteOnFulfillment s newId input = .ok (result, t) →
      t.availableToSell a.inventoryItemId = s.availableToSell a.inventoryItemId := by
  intro hall
  have hsix : ((depleteOnFulfillment Small.reservedTen (fun a => 1 + a)
      ⟨0, 0, 6, ⟨⟨2026, 1, 2⟩, 0⟩⟩).toOption.bind fun r => (r.2.availableToSell 0).toOption) =
        some (-6) := by decide +kernel
  obtain ⟨r, hr, havailable⟩ := Option.bind_eq_some_iff.1 hsix
  have hsame := hall Small.reservedTen reservedTen_sellable [] _ _
    ⟨0, 0, .orderLine, some 0, 10, .reserved, ⟨⟨2026, 1, 1⟩, 0⟩, none⟩ r.1 r.2 rfl
    (by decide +kernel) (by decide +kernel) (Except.toOption_eq_some.1 hr)
  rw [show r.2.availableToSell 0 = _ from hsame] at havailable
  revert havailable
  decide +kernel

theorem whole_depletion_neutral : ∃ r, depleteOnFulfillment Small.reservedTen (fun a => 1 + a)
      ⟨0, 0, 10, ⟨⟨2026, 1, 2⟩, 0⟩⟩ = .ok r ∧
    r.2.availableToSell 0 = Small.reservedTen.availableToSell 0 := by
  have hreturns : (depleteOnFulfillment Small.reservedTen (fun a => 1 + a)
      ⟨0, 0, 10, ⟨⟨2026, 1, 2⟩, 0⟩⟩).toOption.isSome := by decide +kernel
  obtain ⟨r, hr⟩ := Option.isSome_iff_exists.1 hreturns
  rw [Except.toOption_eq_some] at hr
  exact ⟨r, hr, (depletion_neutral_iff reservedTen_sellable [] _ _
    ⟨0, 0, .orderLine, some 0, 10, .reserved, ⟨⟨2026, 1, 1⟩, 0⟩, none⟩ r.1 r.2 rfl
    (by decide +kernel) (by decide +kernel) hr).2 ⟨by decide +kernel, rfl⟩⟩

end Loxep

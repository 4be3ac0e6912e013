import Loxep.Confirmations
import Loxep.Proofs.LotCost

/-!
# A confirmed dollar enters inventory once

A final allocation reads the cost rows of the lot alone. The acquisition route books one for every
time a candidate is named; the intake route books none and seeds the item instead, which the
allocation writes over.
-/

namespace Loxep

open ConfirmTables

section Spec

variable (s : ConfirmTables) (lot : AcquisitionId)

def confirmedInto (c : DocumentLineCandidateRow) : Bool :=
  c.confirmedAt.isSome && match c.targetKind, c.targetId with
    | some .acquisition, some id => id == lot
    | some .inventoryItem, some id => decide (id ∈ (s.lotItems lot).map (·.id))
    | _, _ => false

def amountOf (c : DocumentLineCandidateRow) : Money := c.lineAmount.getD 0

def confirmedTotal : Money := ((s.candidates.filter (confirmedInto s lot)).map amountOf).sum

def chosen (accepts : DocumentLineCandidateRow → Bool) (value : ConfirmInput)
    (c : DocumentLineCandidateRow) : Bool :=
  decide (c.id ∈ value.candidateIds) && (s.confirmable accepts value.documentId c.id).isSome

def amountOnce (accepts : DocumentLineCandidateRow → Bool) (value : ConfirmInput) : Money :=
  ((s.candidates.filter (chosen s accepts value)).map amountOf).sum

def amountNamed (accepts : DocumentLineCandidateRow → Bool) (value : ConfirmInput) : Money :=
  ((s.confirmables accepts value).map (·.2)).sum

def targetOf (value : ConfirmInput) : AcquisitionId :=
  value.acquisitionId.getD value.newAcquisitionId

def confirmsInto (action : ConfirmAction) (value : ConfirmInput) : Bool :=
  Except.returns (s.execute action) && targetOf value == lot

/-- What an action books on the lot over what it confirms into it. -/
def misbooked (action : ConfirmAction) : Money :=
  match action with
  | .asAcquisition _ value =>
    if confirmsInto s lot action value then
      amountNamed s acceptsCost value - amountOnce s acceptsCost value
    else 0
  | .asIntake _ value _ =>
    if confirmsInto s lot action value then -amountOnce s acceptsIntake value else 0
  | _ => 0

/-- Nothing was booked on the lot or confirmed into it so far. -/
structure Unconfirmed : Prop where
  item_ids : (s.inventoryItems.map (·.id)).Nodup
  candidate_ids : (s.candidates.map (·.id)).Nodup
  upper : ∀ a ∈ s.acquisitions, a.currency.toUpper = a.currency
  targets : ∀ c ∈ s.candidates, c.targetKind = some .inventoryItem →
    ∀ id ∈ c.targetId, id ∈ s.inventoryItems.map (·.id)
  costs : ∀ c ∈ s.acquisitionCosts, c.acquisitionId ≠ lot
  candidates : ∀ c ∈ s.candidates, confirmedInto s lot c = false

end Spec

section Lots

variable {t t' u : FactTables} {lot : AcquisitionId}

def itemLots (t : FactTables) : List (ItemId × Option AcquisitionId) :=
  t.inventoryItems.map fun i => (i.id, i.acquisitionId)

theorem map_id_eq_itemLots : t.inventoryItems.map (·.id) = (itemLots t).map (·.1) := by
  rw [itemLots, List.map_map]
  rfl

theorem mem_lotItems_ids {id : ItemId} :
    id ∈ (t.lotItems lot).map (·.id) ↔ (id, some lot) ∈ itemLots t := by
  simp only [FactTables.lotItems, itemLots, List.mem_map, List.mem_filter, beq_iff_eq,
    Prod.mk.injEq]
  constructor
  · rintro ⟨i, ⟨hi, hlot⟩, hid⟩
    exact ⟨i, hi, hid, hlot⟩
  · rintro ⟨i, hi, hid, hlot⟩
    exact ⟨i, ⟨hi, hlot⟩, hid⟩

theorem itemLots_written (newId : MovementId) (value : RecordMovementInput) :
    itemLots (written t newId value) = itemLots t := by
  simp only [itemLots, written, FactTables.refreshItemBalance, FactTables.updateItem, List.map_map]
  refine List.map_congr_left fun i _ => ?_
  simp only [Function.comp]
  split_ifs <;> rfl

structure KeepsLots (t t' : FactTables) : Prop where
  found : ∀ id a, t.findAcquisition id = some a → t'.findAcquisition id = some a
  upper : (∀ a ∈ t.acquisitions, a.currency.toUpper = a.currency) →
    ∀ a ∈ t'.acquisitions, a.currency.toUpper = a.currency

theorem KeepsLots.of_eq (h : t'.acquisitions = t.acquisitions) : KeepsLots t t' where
  found id a ha := by
    rw [← ha, FactTables.findAcquisition, h]
    rfl
  upper hupper := h ▸ hupper

theorem KeepsLots.trans (h : KeepsLots t u) (h' : KeepsLots u t') : KeepsLots t t' where
  found id a ha := h'.found id a (h.found id a ha)
  upper hupper := h'.upper (h.upper hupper)

theorem createAcquisition_ok {connections : List ConnectionRow} {now : Timestamp}
    {value : CreateAcquisitionInput} {a : AcquisitionRow}
    (h : t.createAcquisition connections now value = .ok (a, t')) :
    KeepsLots t t' ∧ t'.findAcquisition value.id = some a ∧ a.id = value.id ∧
      t'.inventoryItems = t.inventoryItems ∧ t'.acquisitionCosts = t.acquisitionCosts := by
  obtain ⟨⟨_, _, _, rfl⟩, hfresh, -, rfl⟩ := FactTables.createAcquisition_appends h
  refine ⟨⟨fun id a ha => ?_, fun hupper a ha => ?_⟩, ?_, rfl, rfl, rfl⟩
  · simp only [FactTables.findAcquisition, List.find?_append] at ha ⊢
    rw [ha]
    rfl
  · rcases List.mem_append.1 ha with ha | ha
    · exact hupper a ha
    · rw [List.mem_singleton.1 ha]
      exact toUpper_toUpper _
  · have hnone : t.acquisitions.find? (·.id == value.id) = none := by
      rw [List.find?_eq_none]
      exact fun b hb hid => hfresh (List.mem_map.2 ⟨b, hb, beq_iff_eq.1 hid⟩)
    simp only [FactTables.findAcquisition, List.find?_append, hnone, Option.none_or,
      FactTables.acquisitionRow, List.find?_singleton, beq_self_eq_true, if_true]

theorem createItem_ok {now : Timestamp} {ids : CreateItemIds} {value : CreateItemInput}
    {item : InventoryItemRow} (h : createItem t now ids value = .ok (item, t')) :
    item.id = ids.item ∧ ids.item ∉ (itemLots t).map (·.1) ∧
      itemLots t' = itemLots t ++ [(ids.item, value.acquisitionId)] ∧
      t'.acquisitions = t.acquisitions ∧ t'.acquisitionCosts = t.acquisitionCosts := by
  simp only [createItem, FactTables.insertCodedItem, Except.bind_eq_ok, Except.require_eq_ok,
    exists_const, insertItem_eq_ok] at h
  obtain ⟨_, -, acquisition, -, inserted, ⟨-, hfresh, -, rfl⟩, h⟩ := h
  rw [map_id_eq_itemLots] at hfresh
  have hlots : itemLots { t with inventoryItems := t.inventoryItems ++ [itemRow ids value
      (resolveItemAttribution value.economicEntityId (acquisition.bind (·.economicEntityId))
        value.installationDefaultEntityId)] } = itemLots t ++ [(ids.item, value.acquisitionId)] := by
    simp only [itemLots, List.map_append, List.map_singleton]
    rfl
  split_ifs at h
  · simp only [Except.bind_eq_ok, Except.pure_eq_ok, Prod.mk.injEq, loadItem_eq_ok] at h
    obtain ⟨⟨_, received⟩, hreceived, r, hr, rfl, rfl⟩ := h
    have hid : r.id = ids.item := (findItem_id hr).2
    obtain ⟨-, -, _, -, hcases⟩ := recordMovement_eq_ok.1 hreceived
    rcases hcases with ⟨_, -, -, rfl⟩ | ⟨-, -, rfl⟩
    · exact ⟨hid, hfresh, hlots, rfl, rfl⟩
    · exact ⟨hid, hfresh, (itemLots_written _ _).trans hlots, rfl, rfl⟩
  · simp only [Except.pure_eq_ok, Prod.mk.injEq] at h
    obtain ⟨rfl, rfl⟩ := h
    exact ⟨rfl, hfresh, hlots, rfl, rfl⟩

end Lots

section Loops

variable {acquisition : AcquisitionRow}

theorem addCost_ok {t t' : FactTables} {value : AddCostInput} {c : AcquisitionCostRow}
    {code : String} (hcode : value.currency = some code) (h : t.addCost value = .ok (c, t')) :
    t' = { t with acquisitionCosts := t.acquisitionCosts ++ [c] } ∧
      c.acquisitionId = value.acquisitionId ∧ c.capitalize = value.capitalize ∧
        c.amount = value.amount ∧ c.inventoryItemId = value.inventoryItemId ∧
          c.currency = code.toUpper := by
  obtain ⟨⟨acquisition, -, rfl⟩, rfl⟩ := FactTables.addCost_appends h
  rw [hcode]
  exact ⟨rfl, rfl, rfl, rfl, rfl, rfl⟩

structure LotCost (acquisition : AcquisitionRow) (c : AcquisitionCostRow) : Prop where
  lot : c.acquisitionId = acquisition.id
  capitalized : c.capitalize = true
  scope : c.inventoryItemId = none
  currency : c.currency = acquisition.currency.toUpper

theorem bookCosts_ok {costId : ℕ → FactId} : ∀ {confirmable : List Confirmable} {index : ℕ}
    {t t' : FactTables} {costs : List AcquisitionCostRow},
    bookCosts costId acquisition index confirmable t = .ok (costs, t') →
      t' = { t with acquisitionCosts := t.acquisitionCosts ++ costs } ∧
        costs.map (·.amount) = confirmable.map (·.2) ∧ ∀ c ∈ costs, LotCost acquisition c
  | [], _, t, _, _, h => by
    cases h
    exact ⟨by rw [List.append_nil], rfl, fun _ hc => absurd hc List.not_mem_nil⟩
  | (candidate, amount) :: rest, index, t, t', costs, h => by
    simp only [bookCosts, Except.bind_eq_ok, Except.pure_eq_ok, Prod.mk.injEq] at h
    obtain ⟨⟨cost, t₁⟩, hcost, ⟨costs', t₂⟩, hrest, rfl, rfl⟩ := h
    obtain ⟨rfl, hlot, hcapitalize, hamount, hscope, hcurrency⟩ := addCost_ok rfl hcost
    obtain ⟨rfl, hamounts, hcosts⟩ := bookCosts_ok hrest
    refine ⟨by rw [List.append_assoc]; rfl,
      by rw [List.map_cons, List.map_cons, hamounts, hamount], ?_⟩
    exact List.forall_mem_cons.2 ⟨⟨hlot, hcapitalize, hscope, hcurrency⟩, hcosts⟩

structure AppendsItems (acquisition : AcquisitionRow) (t t' : FactTables)
    (items : List InventoryItemRow) : Prop where
  lots : itemLots t' = itemLots t ++ items.map fun i => (i.id, some acquisition.id)
  keys : ((itemLots t).map (·.1)).Nodup → ((itemLots t').map (·.1)).Nodup
  acquisitions : t'.acquisitions = t.acquisitions
  costs : t'.acquisitionCosts = t.acquisitionCosts

theorem createItems_ok {ids : ℕ → CreateItemIds} {now : Timestamp} {locationId : Option LocationId}
    : ∀ {confirmable : List Confirmable} {index : ℕ}
    {t t' : FactTables} {items : List InventoryItemRow},
    createItems ids now locationId acquisition index confirmable t = .ok (items, t') →
      items.length = confirmable.length ∧ AppendsItems acquisition t t' items
  | [], _, t, _, _, h => by
    cases h
    exact ⟨rfl, (List.append_nil _).symm, fun hnd => hnd, rfl, rfl⟩
  | (candidate, amount) :: rest, index, t, t', items, h => by
    simp only [createItems, Except.bind_eq_ok, Except.pure_eq_ok, Prod.mk.injEq] at h
    obtain ⟨⟨item, t₁⟩, hitem, ⟨items', t₂⟩, hrest, rfl, rfl⟩ := h
    obtain ⟨hid, hfresh, hlots, hacquisitions, hcosts⟩ := createItem_ok hitem
    obtain ⟨hlength, happends⟩ := createItems_ok hrest
    refine ⟨by rw [List.length_cons, List.length_cons, hlength], ?_, fun hnd => happends.keys ?_,
      happends.acquisitions.trans hacquisitions, happends.costs.trans hcosts⟩
    · rw [happends.lots, hlots, List.map_cons, hid, List.append_assoc]
      rfl
    · rw [hlots]
      exact nodup_map_concat hnd hfresh

end Loops

section Stamps

variable {now : Timestamp} {kind : CandidateTargetKind} {targets : List (CandidateId × ℕ)}
  {c : DocumentLineCandidateRow}

def stamped (now : Timestamp) (kind : CandidateTargetKind) (targets : List (CandidateId × ℕ))
    (c : DocumentLineCandidateRow) : DocumentLineCandidateRow :=
  targets.foldl (fun c target => if c.id = target.1 then
    { c with confirmedAt := some now, targetKind := some kind, targetId := some target.2 } else c) c

theorem stampCandidates_eq (s : ConfirmTables) : s.stampCandidates now kind targets =
    s.candidates.map (stamped now kind targets) :=
  foldl_map_rows (fun (target : CandidateId × ℕ) (c : DocumentLineCandidateRow) =>
    if c.id = target.1 then
      { c with confirmedAt := some now, targetKind := some kind, targetId := some target.2 }
    else c) targets s.candidates

theorem stamped_of_notMem (h : c.id ∉ targets.map (·.1)) : stamped now kind targets c = c := by
  induction targets with
  | nil => rfl
  | cons target targets ih =>
    rw [List.map_cons, List.mem_cons, not_or] at h
    rw [stamped, List.foldl_cons, if_neg h.1]
    exact ih h.2

theorem stamped_of_mem (h : c.id ∈ targets.map (·.1)) : ∃ target ∈ targets.map (·.2),
    stamped now kind targets c =
      { c with confirmedAt := some now, targetKind := some kind, targetId := some target } := by
  induction targets generalizing c with
  | nil => exact absurd h List.not_mem_nil
  | cons target targets ih =>
    rw [stamped, List.foldl_cons]
    by_cases hlater : c.id ∈ targets.map (·.1)
    · have hid : (if c.id = target.1 then
          { c with confirmedAt := some now, targetKind := some kind, targetId := some target.2 }
          else c).id = c.id := by split_ifs <;> rfl
      obtain ⟨last, hlast, heq⟩ := ih (hid ▸ hlater)
      refine ⟨last, List.mem_cons_of_mem _ hlast, heq.trans ?_⟩
      split_ifs <;> rfl
    · obtain hfirst : c.id = target.1 :=
        (List.mem_cons.1 h).resolve_right hlater
      refine ⟨target.2, List.mem_cons_self, ?_⟩
      rw [if_pos hfirst]
      exact stamped_of_notMem hlater

theorem stamped_id (c : DocumentLineCandidateRow) : (stamped now kind targets c).id = c.id := by
  by_cases h : c.id ∈ targets.map (·.1)
  · obtain ⟨_, -, heq⟩ := @stamped_of_mem now kind _ _ h
    rw [heq]
  · rw [stamped_of_notMem h]

end Stamps

section Steps

variable {s : ConfirmTables} {lot : AcquisitionId} {value : ConfirmInput}
  {accepts : DocumentLineCandidateRow → Bool} {c : DocumentLineCandidateRow}

variable {id : CandidateId} {costId : ℕ → FactId} {costs : List AcquisitionCostRow}
  {ids : ℕ → CreateItemIds} {locationId : Option LocationId} {items : List InventoryItemRow}

theorem confirmable_eq_some {r : Confirmable} :
    s.confirmable accepts value.documentId id = some r ↔
      s.candidates.find? (·.id == id) = some r.1 ∧ r.1.documentId = value.documentId ∧
        r.1.confirmedAt = none ∧ accepts r.1 = true ∧ r.1.lineAmount = some r.2 := by
  obtain ⟨row, amount⟩ := r
  unfold ConfirmTables.confirmable
  cases s.candidates.find? (·.id == id) with
  | none => simp
  | some candidate =>
    simp only [Option.some.injEq]
    split_ifs with hdoc hat haccepts
    · constructor
      · intro h
        cases h
      · rintro ⟨rfl, h, -⟩
        exact absurd h hdoc
    · constructor
      · intro h
        cases h
      · rintro ⟨rfl, -, h, -⟩
        rw [h] at hat
        cases hat
    · constructor
      · intro h
        cases h
      · rintro ⟨rfl, -, -, h, -⟩
        rw [h] at haccepts
        cases haccepts
    · rw [Option.map_eq_some_iff]
      constructor
      · rintro ⟨a, ha, heq⟩
        obtain ⟨rfl, rfl⟩ := Prod.mk.injEq .. ▸ heq
        exact ⟨rfl, not_not.1 hdoc, by simpa using hat, by simpa using haccepts, ha⟩
      · rintro ⟨rfl, -, -, -, ha⟩
        exact ⟨amount, ha, rfl⟩

theorem mem_confirmables_ids :
    id ∈ (s.confirmables accepts value).map (·.1.id) ↔
      id ∈ value.candidateIds ∧ (s.confirmable accepts value.documentId id).isSome = true := by
  have hid : ∀ {id : CandidateId} {r : Confirmable},
      s.confirmable accepts value.documentId id = some r → r.1.id = id := fun h => by
    simpa using List.find?_some (confirmable_eq_some.1 h).1
  rw [List.mem_map, ConfirmTables.confirmables, Option.isSome_iff_exists]
  constructor
  · rintro ⟨r, hr, rfl⟩
    obtain ⟨id, hmem, heq⟩ := List.mem_filterMap.1 hr
    rw [hid heq]
    exact ⟨hmem, r, heq⟩
  · rintro ⟨hmem, r, heq⟩
    exact ⟨r, List.mem_filterMap.2 ⟨id, hmem, heq⟩, hid heq⟩

theorem chosen_iff : chosen s accepts value c = true ↔
    c.id ∈ (s.confirmables accepts value).map (·.1.id) := by
  rw [mem_confirmables_ids, chosen, Bool.and_eq_true, decide_eq_true_eq]

theorem confirmedAt_of_chosen (hids : (s.candidates.map (·.id)).Nodup) (hc : c ∈ s.candidates)
    (h : chosen s accepts value c = true) : c.confirmedAt = none := by
  obtain ⟨-, hsome⟩ := Bool.and_eq_true .. ▸ h
  obtain ⟨r, hr⟩ := Option.isSome_iff_exists.1 hsome
  obtain ⟨hfind, -, hat, -⟩ := confirmable_eq_some.1 hr
  rw [find_of_nodup_map hids hc, Option.some.injEq] at hfind
  exact hfind ▸ hat

theorem confirmedTotal_stamped {s' : ConfirmTables} {now : Timestamp} {kind : CandidateTargetKind}
    {targets : List (CandidateId × ℕ)} {into : Bool} (hids : (s.candidates.map (·.id)).Nodup)
    (hstamped : s'.candidates = s.candidates.map (stamped now kind targets))
    (htargets : targets.map (·.1) = (s.confirmables accepts value).map (·.1.id))
    (hold : ∀ c ∈ s.candidates, confirmedInto s' lot c = confirmedInto s lot c)
    (hnew : ∀ c : DocumentLineCandidateRow, ∀ target ∈ targets.map (·.2),
      confirmedInto s' lot { c with
        confirmedAt := some now
        targetKind := some kind
        targetId := some target } = into) :
    confirmedTotal s' lot =
      confirmedTotal s lot + if into then amountOnce s accepts value else 0 := by
  have hrow : ∀ c ∈ s.candidates,
      (if confirmedInto s' lot (stamped now kind targets c) then
        amountOf (stamped now kind targets c) else 0) =
      (if confirmedInto s lot c then amountOf c else 0) +
        if into then (if chosen s accepts value c then amountOf c else 0) else 0 := by
    intro c hc
    by_cases hchosen : chosen s accepts value c = true
    · have hmem : c.id ∈ targets.map (·.1) := htargets ▸ chosen_iff.1 hchosen
      obtain ⟨target, htarget, heq⟩ := @stamped_of_mem now kind _ _ hmem
      have hfresh : confirmedInto s lot c = false := by
        rw [confirmedInto, confirmedAt_of_chosen hids hc hchosen]
        rfl
      rw [heq, hnew c target htarget, hfresh, hchosen]
      cases into <;> simp [amountOf]
    · have hmem : c.id ∉ targets.map (·.1) := fun h => hchosen (chosen_iff.2 (htargets ▸ h))
      rw [stamped_of_notMem hmem, hold c hc, Bool.eq_false_iff.2 hchosen]
      cases into <;> simp
  have hsum := congrArg List.sum (List.map_congr_left hrow)
  rw [confirmedTotal, hstamped, sum_map_filter, List.map_map]
  refine hsum.trans ?_
  rw [List.sum_map_add, ← sum_map_filter, confirmedTotal, amountOnce,
    sum_map_filter _ (chosen _ _ _)]
  cases into <;> simp

def bookedTotal (s : ConfirmTables) (lot : AcquisitionId) : Money :=
  ((s.acquisitionCosts.filter (·.acquisitionId == lot)).map (·.amount)).sum

structure LotSound (s : ConfirmTables) (lot : AcquisitionId) : Prop where
  item_ids : ((itemLots s.toFactTables).map (·.1)).Nodup
  candidate_ids : (s.candidates.map (·.id)).Nodup
  upper : ∀ a ∈ s.acquisitions, a.currency.toUpper = a.currency
  targets : ∀ c ∈ s.candidates, c.targetKind = some .inventoryItem →
    ∀ id ∈ c.targetId, id ∈ (itemLots s.toFactTables).map (·.1)
  costs : ∀ c ∈ s.acquisitionCosts, c.acquisitionId = lot →
    ∃ a, s.findAcquisition lot = some a ∧ LotCost a c

theorem Unconfirmed.sound (h : Unconfirmed s lot) : LotSound s lot where
  item_ids := map_id_eq_itemLots ▸ h.item_ids
  candidate_ids := h.candidate_ids
  upper := h.upper
  targets := map_id_eq_itemLots ▸ h.targets
  costs c hc hlot := absurd hlot (h.costs c hc)

theorem Unconfirmed.booked (h : Unconfirmed s lot) : bookedTotal s lot = 0 := by
  have hnone : s.acquisitionCosts.filter (·.acquisitionId == lot) = [] :=
    List.filter_eq_nil_iff.2 fun c hc hlot => h.costs c hc (beq_iff_eq.1 hlot)
  rw [bookedTotal, hnone]
  rfl

theorem Unconfirmed.confirmed (h : Unconfirmed s lot) : confirmedTotal s lot = 0 := by
  have hnone : s.candidates.filter (confirmedInto s lot) = [] :=
    List.filter_eq_nil_iff.2 fun c hc hinto => by
      rw [h.candidates c hc] at hinto
      cases hinto
  rw [confirmedTotal, hnone]
  rfl

theorem confirmedInto_kept {s' : ConfirmTables} {extra : List (ItemId × Option AcquisitionId)}
    (hs : LotSound s lot) (hlots : itemLots s'.toFactTables = itemLots s.toFactTables ++ extra)
    (hkeys : ((itemLots s'.toFactTables).map (·.1)).Nodup) (hc : c ∈ s.candidates) :
    confirmedInto s' lot c = confirmedInto s lot c := by
  have hlot : ∀ id ∈ (itemLots s.toFactTables).map (·.1),
      (id ∈ (s'.lotItems lot).map (·.id) ↔ id ∈ (s.lotItems lot).map (·.id)) := by
    intro id hid
    rw [mem_lotItems_ids, mem_lotItems_ids, hlots, List.mem_append]
    refine or_iff_left fun hextra => ?_
    rw [hlots, List.map_append, List.nodup_append] at hkeys
    exact hkeys.2.2 id hid id (List.mem_map_of_mem hextra) rfl
  unfold confirmedInto
  cases hkind : c.targetKind with
  | none => rfl
  | some kind =>
    cases hid : c.targetId with
    | none => cases kind <;> rfl
    | some id =>
      cases kind with
      | inventoryItem =>
        have hmem := hs.targets c hc hkind id hid
        simp only [hlot id hmem]
      | acquisition => rfl
      | expense => rfl
      | acquisitionCost => rfl

structure Confirms (s s' : ConfirmTables) (extra : List (ItemId × Option AcquisitionId))
    (new : List AcquisitionCostRow) (now : Timestamp) (kind : CandidateTargetKind)
    (targets : List (CandidateId × ℕ)) : Prop where
  lots : itemLots s'.toFactTables = itemLots s.toFactTables ++ extra
  keys : ((itemLots s.toFactTables).map (·.1)).Nodup →
    ((itemLots s'.toFactTables).map (·.1)).Nodup
  acquisitions : KeepsLots s.toFactTables s'.toFactTables
  costs : s'.acquisitionCosts = s.acquisitionCosts ++ new
  lot_costs : ∀ c ∈ new, ∃ a, s'.findAcquisition c.acquisitionId = some a ∧ LotCost a c
  candidates : s'.candidates = s.candidates.map (stamped now kind targets)
  item_targets : kind = .inventoryItem → ∀ id ∈ targets.map (·.2), id ∈ extra.map (·.1)

variable {s' : ConfirmTables} {extra : List (ItemId × Option AcquisitionId)}
  {new : List AcquisitionCostRow} {now : Timestamp} {kind : CandidateTargetKind}
  {targets : List (CandidateId × ℕ)}

section

variable (h : Confirms s s' extra new now kind targets)
include h

theorem Confirms.sound (hs : LotSound s lot) :
    LotSound s' lot where
  item_ids := h.keys hs.item_ids
  candidate_ids := by
    have hids : s'.candidates.map (·.id) = s.candidates.map (·.id) := by
      rw [h.candidates, List.map_map]
      exact List.map_congr_left fun c _ => stamped_id c
    rw [hids]
    exact hs.candidate_ids
  upper := h.acquisitions.upper hs.upper
  targets := by
    intro c hc hkind id hid
    rw [h.lots, List.map_append, List.mem_append]
    rw [h.candidates] at hc
    obtain ⟨d, hd, rfl⟩ := List.mem_map.1 hc
    by_cases hmem : d.id ∈ targets.map (·.1)
    · obtain ⟨target, htarget, heq⟩ := @stamped_of_mem now kind _ _ hmem
      rw [heq] at hkind hid
      obtain rfl : kind = .inventoryItem := Option.some.inj hkind
      obtain rfl : target = id := Option.some.inj hid
      exact .inr (h.item_targets rfl target htarget)
    · rw [stamped_of_notMem hmem] at hkind hid
      exact .inl (hs.targets d hd hkind id hid)
  costs := by
    intro c hc hlot
    rw [h.costs, List.mem_append] at hc
    rcases hc with hc | hc
    · obtain ⟨a, ha, hcost⟩ := hs.costs c hc hlot
      exact ⟨a, h.acquisitions.found lot a ha, hcost⟩
    · exact hlot ▸ h.lot_costs c hc

theorem Confirms.booked : bookedTotal s' lot =
    bookedTotal s lot + ((new.filter (·.acquisitionId == lot)).map (·.amount)).sum := by
  rw [bookedTotal, h.costs, List.filter_append, List.map_append, List.sum_append, bookedTotal]

theorem Confirms.confirmedInto (hs : LotSound s lot) (hc : c ∈ s.candidates)
    : confirmedInto s' lot c = Loxep.confirmedInto s lot c :=
  confirmedInto_kept hs h.lots (h.keys hs.item_ids) hc

end

theorem Confirms.unstamped (h : Confirms s s' extra new now kind []) (hs : LotSound s lot) :
    confirmedTotal s' lot = confirmedTotal s lot := by
  have hsame : s'.candidates = s.candidates := h.candidates.trans (List.map_id' _)
  rw [confirmedTotal, confirmedTotal, hsame]
  refine congrArg (fun l => (List.map amountOf l).sum) (List.filter_congr fun c hc => ?_)
  exact h.confirmedInto hs hc

variable {document : DocumentRow} {a : AcquisitionRow} {confirmable : List Confirmable}

theorem resolve_ok {t : FactTables} (h : s.resolveAcquisitionTarget value document = .ok (a, t)) :
    KeepsLots s.toFactTables t ∧ t.findAcquisition a.id = some a ∧ a.id = targetOf value ∧
      t.inventoryItems = s.inventoryItems ∧ t.acquisitionCosts = s.acquisitionCosts := by
  unfold ConfirmTables.resolveAcquisitionTarget at h
  unfold targetOf
  cases hid : value.acquisitionId with
  | some id =>
    simp only [hid, Except.bind_eq_ok, loadAcquisition_eq_ok, Except.require_eq_ok, exists_const,
      Except.pure_eq_ok, Prod.mk.injEq] at h
    obtain ⟨_, hload, -, rfl, rfl⟩ := h
    have hkey := findAcquisition_id hload
    exact ⟨.of_eq rfl, hkey ▸ hload, hkey, rfl, rfl⟩
  | none =>
    simp only [hid, Except.bind_eq_ok, Except.require_eq_ok, exists_const] at h
    obtain ⟨hkeeps, hfound, hkey, hitems, hcosts⟩ := createAcquisition_ok h.2
    exact ⟨hkeeps, hkey ▸ hfound, hkey, hitems, hcosts⟩

theorem confirmCosts_ok (h : s.confirmCosts costId value document confirmable = .ok (a, costs, s'))
    :
    a.id = targetOf value ∧ costs.map (·.amount) = confirmable.map (·.2) ∧
      (∀ c ∈ costs, c.acquisitionId = a.id) ∧
      Confirms s s' [] costs value.now .acquisition (confirmable.map fun c => (c.1.id, a.id)) := by
  simp only [ConfirmTables.confirmCosts, Except.bind_eq_ok, Except.pure_eq_ok,
    Prod.mk.injEq] at h
  obtain ⟨⟨_, t⟩, hresolve, ⟨_, t'⟩, hbook, rfl, rfl, rfl⟩ := h
  obtain ⟨hkeeps, hfound, htarget, hitems, hcosts⟩ := resolve_ok hresolve
  obtain ⟨rfl, hamounts, hlot⟩ := bookCosts_ok hbook
  have hlots : itemLots t = itemLots s.toFactTables := by
    unfold itemLots
    rw [hitems]
  refine ⟨htarget, hamounts, fun c hc => (hlot c hc).lot, ?_, fun hnd => ?_, ?_, ?_,
    fun c hc => ?_, stampCandidates_eq s, nofun⟩
  · exact hlots.trans (List.append_nil _).symm
  · exact hlots.symm ▸ hnd
  · exact hkeeps.trans (.of_eq rfl)
  · change t.acquisitionCosts ++ _ = _
    rw [hcosts]
  · rw [(hlot c hc).lot]
    exact ⟨_, hfound, hlot c hc⟩

theorem confirmItems_ok
    (h : s.confirmItems ids value locationId document confirmable = .ok (a, items, s')) :
    a.id = targetOf value ∧ items.length = confirmable.length ∧
      Confirms s s' (items.map fun i => (i.id, some a.id)) [] value.now .inventoryItem
        ((confirmable.map (·.1.id)).zip (items.map (·.id))) := by
  simp only [ConfirmTables.confirmItems, Except.bind_eq_ok, Except.pure_eq_ok,
    Prod.mk.injEq] at h
  obtain ⟨⟨_, t⟩, hresolve, ⟨_, t'⟩, hcreate, rfl, rfl, rfl⟩ := h
  obtain ⟨hkeeps, hfound, htarget, hitems, hcosts⟩ := resolve_ok hresolve
  obtain ⟨hlength, happends⟩ := createItems_ok hcreate
  have hlots : itemLots t = itemLots s.toFactTables := by
    unfold itemLots
    rw [hitems]
  refine ⟨htarget, hlength, ?_, fun hnd => happends.keys (hlots.symm ▸ hnd), ?_, ?_,
    fun c hc => absurd hc List.not_mem_nil, stampCandidates_eq s, fun _ id hid => ?_⟩
  · exact happends.lots.trans (by rw [hlots])
  · exact hkeeps.trans (.of_eq happends.acquisitions)
  · exact (happends.costs.trans hcosts).trans (List.append_nil _).symm
  · rw [List.map_map]
    rw [List.map_snd_zip (by simp [hlength])] at hid
    exact hid

def surplus (s : ConfirmTables) (lot : AcquisitionId) : Money :=
  bookedTotal s lot - confirmedTotal s lot

theorem confirmCosts_surplus (hs : LotSound s lot)
    (h : s.confirmCosts costId value document (s.confirmables acceptsCost value) =
      .ok (a, costs, s')) :
    LotSound s' lot ∧ surplus s' lot = surplus s lot + if targetOf value == lot then
      amountNamed s acceptsCost value - amountOnce s acceptsCost value else 0 := by
  obtain ⟨htarget, hamounts, hlots, hext⟩ := confirmCosts_ok h
  refine ⟨hext.sound hs, ?_⟩
  have hconfirmed : confirmedTotal s' lot = confirmedTotal s lot +
      if targetOf value == lot then amountOnce s acceptsCost value else 0 := by
    refine confirmedTotal_stamped hs.candidate_ids hext.candidates ?_
      (fun c hc => hext.confirmedInto hs hc) fun c target hmem => ?_
    · rw [List.map_map]
      rfl
    · rw [List.map_map] at hmem
      obtain ⟨_, -, rfl⟩ := List.mem_map.1 hmem
      rw [← htarget]
      rfl
  have hbooked : ((costs.filter (·.acquisitionId == lot)).map (·.amount)).sum =
      if targetOf value == lot then amountNamed s acceptsCost value else 0 := by
    have hsame : ∀ c ∈ costs, (c.acquisitionId == lot) = (targetOf value == lot) :=
      fun c hc => by rw [hlots c hc, htarget]
    rw [List.filter_congr hsame]
    cases targetOf value == lot
    · rw [List.filter_false]
      rfl
    · rw [List.filter_true, hamounts]
      rfl
  rw [surplus, hext.booked, hbooked, hconfirmed, surplus]
  split_ifs <;> ring

theorem confirmItems_surplus (hs : LotSound s lot)
    (h : s.confirmItems ids value locationId document (s.confirmables acceptsIntake value) =
      .ok (a, items, s')) :
    LotSound s' lot ∧ surplus s' lot = surplus s lot + if targetOf value == lot then
      -amountOnce s acceptsIntake value else 0 := by
  obtain ⟨htarget, hlength, hext⟩ := confirmItems_ok h
  refine ⟨hext.sound hs, ?_⟩
  have hconfirmed : confirmedTotal s' lot = confirmedTotal s lot +
      if targetOf value == lot then amountOnce s acceptsIntake value else 0 := by
    refine confirmedTotal_stamped hs.candidate_ids hext.candidates ?_
      (fun c hc => hext.confirmedInto hs hc) fun c target hmem => ?_
    · exact List.map_fst_zip (by simp [hlength])
    · rw [List.map_snd_zip (by simp [hlength])] at hmem
      obtain ⟨i, hi, rfl⟩ := List.mem_map.1 hmem
      have hnew : (i.id, some a.id) ∈ items.map fun i => (i.id, some a.id) :=
        List.mem_map_of_mem (f := fun i : InventoryItemRow => (i.id, some a.id)) hi
      have hmem' : (i.id, some a.id) ∈ itemLots s'.toFactTables :=
        hext.lots ▸ List.mem_append_right _ hnew
      have hiff : i.id ∈ (s'.lotItems lot).map (·.id) ↔ targetOf value = lot := by
        rw [mem_lotItems_ids, ← htarget]
        constructor
        · intro hlot
          have heq := List.inj_on_of_nodup_map (hext.sound hs).item_ids hlot hmem' rfl
          exact (Option.some.inj (congrArg Prod.snd heq)).symm
        · rintro rfl
          exact hmem'
      change decide (i.id ∈ (s'.lotItems lot).map (·.id)) = decide (targetOf value = lot)
      exact decide_eq_decide.2 hiff
  rw [surplus, hext.booked, hconfirmed, surplus, List.filter_nil, List.map_nil, List.sum_nil]
  split_ifs <;> ring

theorem amountOnce_of_empty (h : s.confirmables accepts value = []) :
    amountOnce s accepts value = 0 := by
  have hnone : s.candidates.filter (chosen s accepts value) = [] :=
    List.filter_eq_nil_iff.2 fun c _ hc => by
      rw [chosen_iff, h] at hc
      exact absurd hc List.not_mem_nil
  rw [amountOnce, hnone]
  rfl

theorem confirmOrSkip_cases {α : Type} {r : ConfirmResult α}
    {confirmed : InventoryResult (AcquisitionRow × List α × ConfirmTables)}
    (h : s.confirmOrSkip value confirmable confirmed = .ok (r, s')) :
    (confirmable = [] ∧ s' = s) ∨ ∃ a created, confirmed = .ok (a, created, s') := by
  unfold ConfirmTables.confirmOrSkip at h
  simp only at h
  split_ifs at h with hskip
  · cases h
    exact .inl ⟨List.isEmpty_iff.1 hskip.1, rfl⟩
  · obtain ⟨⟨a, created, t⟩, hconfirmed, heq⟩ := Except.map_eq_ok.1 h
    obtain ⟨-, rfl⟩ := Prod.mk.injEq .. ▸ heq
    exact .inr ⟨a, created, hconfirmed⟩

theorem tables_surplus {t : FactTables} (now : Timestamp) (hs : LotSound s lot)
    (hlots : itemLots t = itemLots s.toFactTables ++ extra)
    (hkeys : ((itemLots s.toFactTables).map (·.1)).Nodup → ((itemLots t).map (·.1)).Nodup)
    (hkeeps : KeepsLots s.toFactTables t) (hcosts : t.acquisitionCosts = s.acquisitionCosts) :
    LotSound { s with toFactTables := t } lot ∧
      surplus { s with toFactTables := t } lot = surplus s lot + 0 := by
  have hext : Confirms s { s with toFactTables := t } extra [] now .expense [] :=
    ⟨hlots, hkeys, hkeeps, hcosts.trans (List.append_nil _).symm,
      fun c hc => absurd hc List.not_mem_nil, (List.map_id' _).symm, nofun⟩
  refine ⟨hext.sound hs, ?_⟩
  rw [surplus, hext.booked, hext.unstamped hs, List.filter_nil, List.map_nil, List.sum_nil,
    add_zero, add_zero, surplus]

theorem execute_surplus {action : ConfirmAction} (hs : LotSound s lot)
    (h : s.execute action = .ok s') :
    LotSound s' lot ∧ surplus s' lot = surplus s lot + misbooked s lot action := by
  have hreturns : Except.returns (s.execute action) = true := by
    rw [h]
    rfl
  cases action with
  | createAcquisition now input =>
    obtain ⟨⟨a, t⟩, hcreate, rfl⟩ := Except.map_eq_ok.1 h
    obtain ⟨hkeeps, -, -, hitems, hcosts⟩ := createAcquisition_ok hcreate
    have hlots : itemLots t = itemLots s.toFactTables := by
      unfold itemLots
      rw [hitems]
    exact tables_surplus now hs (hlots.trans (List.append_nil _).symm) (hlots.symm ▸ ·) hkeeps hcosts
  | create now ids input =>
    obtain ⟨⟨item, t⟩, hcreate, rfl⟩ := Except.map_eq_ok.1 h
    obtain ⟨-, hfresh, hlots, hacquisitions, hcosts⟩ := createItem_ok hcreate
    refine tables_surplus now hs hlots (fun hnd => ?_) (.of_eq hacquisitions) hcosts
    rw [hlots]
    exact nodup_map_concat hnd hfresh
  | asAcquisition costId input =>
    obtain ⟨⟨r, _⟩, hcall, rfl⟩ := Except.map_eq_ok.1 h
    simp only [ConfirmTables.confirmCandidatesAsAcquisition, Except.bind_eq_ok] at hcall
    obtain ⟨_, -, document, -, hcall⟩ := hcall
    have hinto : confirmsInto s lot (.asAcquisition costId input) input =
        (targetOf input == lot) := by
      rw [confirmsInto, hreturns, Bool.true_and]
    simp only [misbooked, hinto]
    rcases confirmOrSkip_cases hcall with ⟨hempty, rfl⟩ | ⟨a, costs, hconfirmed⟩
    · refine ⟨hs, ?_⟩
      rw [amountOnce_of_empty hempty, amountNamed, hempty]
      simp
    · exact confirmCosts_surplus hs hconfirmed
  | asIntake ids input locationId =>
    obtain ⟨⟨r, _⟩, hcall, rfl⟩ := Except.map_eq_ok.1 h
    simp only [ConfirmTables.confirmCandidatesAsIntake, Except.bind_eq_ok] at hcall
    obtain ⟨_, -, document, -, hcall⟩ := hcall
    have hinto : confirmsInto s lot (.asIntake ids input locationId) input =
        (targetOf input == lot) := by
      rw [confirmsInto, hreturns, Bool.true_and]
    simp only [misbooked, hinto]
    rcases confirmOrSkip_cases hcall with ⟨hempty, rfl⟩ | ⟨a, items, hconfirmed⟩
    · refine ⟨hs, ?_⟩
      rw [amountOnce_of_empty hempty]
      simp
    · exact confirmItems_surplus hs hconfirmed

theorem step_surplus (hs : LotSound s lot) (action : ConfirmAction) :
    LotSound (s.step action) lot ∧
      surplus (s.step action) lot = surplus s lot + misbooked s lot action := by
  unfold ConfirmTables.step
  cases h : s.execute action with
  | ok t => exact execute_surplus hs h
  | error e =>
    refine ⟨hs, ?_⟩
    have hnone : misbooked s lot action = 0 := by
      unfold misbooked confirmsInto
      rw [h]
      cases action <;> rfl
    rw [hnone, add_zero]

theorem localTotal_eq_booked (hs : LotSound s lot) (ha : s.findAcquisition lot = some a) :
    localTotal s.toFactTables a = bookedTotal s lot ∧ strayCost s.toFactTables a = 0 := by
  have hid : a.id = lot := findAcquisition_id ha
  have hlot : ∀ c ∈ s.acquisitionCosts, c.acquisitionId = lot →
      c.capitalize = true ∧ c.inventoryItemId = none ∧ c.currency = a.currency := by
    intro c hc hclot
    obtain ⟨a', ha', hcost⟩ := hs.costs c hc hclot
    rw [ha, Option.some.injEq] at ha'
    subst ha'
    refine ⟨hcost.capitalized, hcost.scope, hcost.currency.trans ?_⟩
    exact hs.upper a (List.mem_of_find?_eq_some ha)
  have hlocal : s.localCosts a = s.acquisitionCosts.filter (·.acquisitionId == lot) := by
    rw [FactTables.localCosts, FactTables.capitalizedCosts, List.filter_filter, hid]
    refine List.filter_congr fun c hc => ?_
    by_cases hclot : c.acquisitionId = lot
    · obtain ⟨hcap, -, hcur⟩ := hlot c hc hclot
      simp [hclot, hcap, hcur]
    · rw [beq_false_of_ne hclot, Bool.and_comm, Bool.and_assoc, Bool.false_and]
  refine ⟨by rw [localTotal, hlocal, bookedTotal], ?_⟩
  have hnone : ((s.localCosts a).filter fun c => c.inventoryItemId.any fun item =>
      item ∉ (s.lotItems a.id).map (·.id)) = [] := by
    rw [hlocal]
    refine List.filter_eq_nil_iff.2 fun c hc => ?_
    obtain ⟨hmem, hclot⟩ := List.mem_filter.1 hc
    rw [(hlot c hmem (beq_iff_eq.1 hclot)).2.1]
    exact Bool.false_ne_true
  rw [strayCost, hnone]
  rfl

/-- The items of a lot that is finalized come to what was confirmed into it exactly when the actions
booked on the whole what they confirmed. -/
theorem confirmed_once_iff {start : ConfirmTables} (hstart : Unconfirmed start lot)
    (actions : List ConfirmAction) {input : AllocateCostsInput} {outcome : AllocationOutcome}
    {t' : FactTables} (hinput : input.acquisitionId = lot)
    (hrun : allocateCosts (Runs.run step start actions).toFactTables input = .ok (outcome, t'))
    (hfinal : outcome.costAllocationStatus = .final) :
    ((t'.lotItems lot).map (·.landedCostAmount)).sum =
        confirmedTotal (Runs.run step start actions) lot ↔
      Runs.total step (fun s action => misbooked s lot action) start actions = 0 := by
  subst hinput
  have hsound : ∀ s action, LotSound s input.acquisitionId →
      LotSound (s.step action) input.acquisitionId :=
    fun _ action hs => (step_surplus hs action).1
  have hmoves : ∀ s action, LotSound s input.acquisitionId →
      surplus (s.step action) input.acquisitionId =
        surplus s input.acquisitionId + misbooked s input.acquisitionId action :=
    fun _ action hs => (step_surplus hs action).2
  have hs : LotSound (Runs.run step start actions) input.acquisitionId :=
    Runs.run_of_step hsound hstart.sound
  have hsurplus : surplus (Runs.run step start actions) input.acquisitionId =
      surplus start input.acquisitionId +
        Runs.total step (fun s action => misbooked s input.acquisitionId action) start actions :=
    @Runs.run_eq_add_total _ _ _ _ _ _ _ (fun s => surplus s input.acquisitionId) hsound hmoves
      _ _ hstart.sound
  obtain ⟨a, ha⟩ : ∃ a, (Runs.run step start actions).findAcquisition input.acquisitionId =
      some a := by
    simp only [allocateCosts, Except.bind_eq_ok, loadAcquisition_eq_ok] at hrun
    obtain ⟨a, ha, -⟩ := hrun
    exact ⟨a, ha⟩
  have hkeys := hs.item_ids
  rw [← map_id_eq_itemLots] at hkeys
  obtain ⟨hplan, rfl⟩ := (allocateCosts_eq_ok hkeys ha).1 hrun
  obtain ⟨hlocal, hstray⟩ := localTotal_eq_booked hs ha
  have hlanded := landedTotal_afterRun hkeys hplan hfinal
  rw [hlocal, hstray, sub_zero, landedTotal, findAcquisition_id ha] at hlanded
  have hstart' : surplus start input.acquisitionId = 0 := by
    rw [surplus, hstart.booked, hstart.confirmed, sub_zero]
  rw [hstart', zero_add] at hsurplus
  rw [hlanded, ← hsurplus, surplus, sub_eq_zero]

end Steps

def stagedDocument (disposition : Disposition) : ConfirmTables :=
  { twoLots with
    connections := []
    documents := [
      { id := 1
        currency := some "USD"
        documentDate := none
        counterpartyName := none }]
    candidates := [
      { id := 1
        documentId := 1
        description := some "Lens"
        quantity := none
        unitAmount := none
        lineAmount := some 10000000
        lineDate := none
        disposition := disposition
        confirmedAt := none
        targetKind := none
        targetId := none }] }

def intoFirstLot : ConfirmInput :=
  { now := ⟨⟨2026, 2, 1⟩, 0⟩
    newAcquisitionId := 9
    documentId := 1
    candidateIds := [1]
    acquisitionId := some 1 }

def asCost : ConfirmAction := .asAcquisition (fun index => 10 + index) intoFirstLot

def asItem : ConfirmAction :=
  .asIntake (fun index => ⟨10 + index, "ITM-2026-0010", 20 + index⟩) intoFirstLot none

theorem stagedDocument_unconfirmed (disposition : Disposition) :
    Unconfirmed (stagedDocument disposition) 1 where
  item_ids := (by decide : (twoLots.inventoryItems.map (·.id)).Nodup)
  candidate_ids := List.nodup_singleton _
  upper := (by decide +kernel : ∀ a ∈ twoLots.acquisitions, a.currency.toUpper = a.currency)
  targets c hc hkind := by
    obtain rfl := List.mem_singleton.1 hc
    cases hkind
  costs _ hc := absurd hc List.not_mem_nil
  candidates c hc := by
    obtain rfl := List.mem_singleton.1 hc
    rfl

theorem cost_route_confirmed_once : ∃ outcome t',
    allocateCosts (Runs.run step (stagedDocument .acquisitionCost) [asCost]).toFactTables finalRun =
      .ok (outcome, t') ∧
    ((t'.lotItems 1).map (·.landedCostAmount)).sum =
      confirmedTotal (Runs.run step (stagedDocument .acquisitionCost) [asCost]) 1 := by
  obtain ⟨outcome, t', hrun, hfinal⟩ := exists_final
    (t := (Runs.run step (stagedDocument .acquisitionCost) [asCost]).toFactTables)
    finalRun (by decide +kernel)
  exact ⟨outcome, t', hrun, (confirmed_once_iff (stagedDocument_unconfirmed _) [asCost] rfl hrun
    hfinal).2 (by decide +kernel)⟩

theorem intake_route_vanishes : ¬ ∀ (start : ConfirmTables) (lot : AcquisitionId)
    (actions : List ConfirmAction) (input : AllocateCostsInput) (outcome : AllocationOutcome)
    (t' : FactTables), Unconfirmed start lot → input.acquisitionId = lot →
      allocateCosts (Runs.run step start actions).toFactTables input = .ok (outcome, t') →
        outcome.costAllocationStatus = .final →
          ((t'.lotItems lot).map (·.landedCostAmount)).sum =
            confirmedTotal (Runs.run step start actions) lot := by
  intro hall
  let s := Runs.run step (stagedDocument .inventoryIntake) [asItem]
  obtain ⟨outcome, t', hrun, hfinal⟩ : ∃ outcome t',
      allocateCosts s.toFactTables finalRun = .ok (outcome, t') ∧
        outcome.costAllocationStatus = .final := exists_final _ (by decide +kernel)
  have htotal := hall _ 1 [asItem] finalRun outcome t' (stagedDocument_unconfirmed _) rfl hrun hfinal
  have hkeys : (s.inventoryItems.map (·.id)).Nodup := by decide +kernel
  have ha : s.findAcquisition 1 = some _ := rfl
  obtain ⟨hplan, rfl⟩ := (allocateCosts_eq_ok hkeys ha).1 hrun
  have hlanded := landedTotal_afterRun hkeys hplan hfinal
  rw [landedTotal, findAcquisition_id ha] at hlanded
  rw [hlanded] at htotal
  exact absurd htotal (by decide +kernel)

end Loxep

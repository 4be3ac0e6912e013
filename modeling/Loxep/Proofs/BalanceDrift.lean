import Loxep.Proofs.StockSpec

/-!
# When the cached balance agrees with the ledger

No transaction on the stock locks its item, so a movement restates the balance it has summed.
-/

namespace Loxep

/-- Every item's cached columns are what its movements imply. -/
def BalanceHolds (t : FactTables) : Prop :=
  ∀ i ∈ t.inventoryItems, i.quantityOnHand = t.ledgerBalance i.id ∧
    i.status = deriveItemStatus i.status (t.ledgerBalance i.id) i.quantity

/-- And none is negative. -/
def InStock (t : FactTables) : Prop :=
  BalanceHolds t ∧ ∀ i ∈ t.inventoryItems, 0 ≤ i.quantityOnHand

/-- The stage of the transaction that the action commits, if it commits one. -/
def StockSessions.commits (s : StockSessions) : StockAction → Option StockStage
  | .proceed session =>
    match proceedStock s.tables (s.stage session) with
    | .commit _ => some (s.stage session)
    | _ => none
  | _ => none

/-- A movement that commits has seen its item's whole ledger, and takes no more than that. -/
def keepsStock (s : StockSessions) (action : StockAction) : Bool :=
  (s.commits action).all fun
    | .summed _ value _ _ seen =>
      let onHand := s.tables.ledgerBalance value.inventoryItemId
      onHand == seen && decide (0 ≤ onHand + value.quantity)
    | _ => true

def StockStage.Known (t : FactTables) : StockStage → Prop
  | .refreshing _ value _ quantity => ∃ i ∈ t.inventoryItems,
      i.id = value.inventoryItemId ∧ i.quantity = quantity
  | .summed _ value _ quantity _ => ∃ i ∈ t.inventoryItems,
      i.id = value.inventoryItemId ∧ i.quantity = quantity
  | _ => True

structure KnownItems (s : StockSessions) : Prop where
  ids : (s.tables.inventoryItems.map (·.id)).Nodup
  known : ∀ session, (s.stage session).Known s.tables.toFactTables

theorem deriveItemStatus_idem (current : String) (onHand quantity : Money) :
    deriveItemStatus (deriveItemStatus current onHand quantity) onHand quantity =
      deriveItemStatus current onHand quantity := by
  unfold deriveItemStatus
  split_ifs <;> simp_all

section Movements

variable {s : StockTables} {t : StockTables} {newId : MovementId} {value : RecordMovementInput}
  {status : String} {quantity seen : Money}

theorem writeMovement_eq_ok (h : writeMovement s newId value status quantity seen = .ok t) :
    t.inventoryMovements = s.inventoryMovements ++ [movementRow newId value] ∧
      t.inventoryAllocations = s.inventoryAllocations ∧
      t.inventoryItems = s.inventoryItems.map fun i =>
        if i.id = value.inventoryItemId then
          restated value status quantity (seen + value.quantity) i
        else i := by
  simp only [writeMovement, Except.bind_eq_ok, Except.require_eq_ok, Except.pure_eq_ok,
    exists_const] at h
  obtain ⟨-, -, rfl⟩ := h
  exact ⟨rfl, rfl, rfl⟩

theorem inStock_write (hids : (s.inventoryItems.map (·.id)).Nodup)
    (hknown : ∃ i ∈ s.inventoryItems, i.id = value.inventoryItemId ∧ i.quantity = quantity)
    (hs : InStock s.toFactTables)
    (h : writeMovement s newId value status quantity seen = .ok t) :
    InStock t.toFactTables ↔ s.ledgerBalance value.inventoryItemId = seen ∧
      0 ≤ s.ledgerBalance value.inventoryItemId + value.quantity := by
  obtain ⟨hmoves, -, hitems⟩ := writeMovement_eq_ok h
  have hledger : ∀ item, t.ledgerBalance item = s.ledgerBalance item +
      if value.inventoryItemId = item then value.quantity else 0 := ledgerBalance_append hmoves
  obtain ⟨i, hi, hid, hq⟩ := hknown
  constructor
  · rintro ⟨ht, hpositive⟩
    have hmem : restated value status quantity (seen + value.quantity) i ∈ t.inventoryItems := by
      rw [hitems, List.mem_map]
      exact ⟨i, hi, if_pos hid⟩
    have hcached := (ht _ hmem).1
    have hleft := hpositive _ hmem
    rw [hledger] at hcached
    simp only [restated, hid, if_true] at hcached hleft
    constructor <;> linarith
  · rintro ⟨rfl, hleft⟩
    refine forall₂_and.1 fun i' hi' => ?_
    rw [hitems, List.mem_map] at hi'
    obtain ⟨x, hx, rfl⟩ := hi'
    by_cases hxi : x.id = value.inventoryItemId
    · obtain rfl := List.inj_on_of_nodup_map hids hx hi (hxi.trans hid.symm)
      rw [if_pos hxi]
      simp only [restated, hledger, hxi, if_true, hq, deriveItemStatus_idem, and_self, true_and]
      exact hleft
    · rw [if_neg hxi, hledger, if_neg (Ne.symm hxi), add_zero]
      exact ⟨hs.1 x hx, hs.2 x hx⟩

theorem known_write (h : writeMovement s newId value status quantity seen = .ok t) :
    t.inventoryItems.map (fun i => (i.id, i.quantity)) =
      s.inventoryItems.map fun i => (i.id, i.quantity) := by
  obtain ⟨-, -, hitems⟩ := writeMovement_eq_ok h
  rw [hitems, List.map_map]
  refine List.map_congr_left fun i _ => ?_
  simp only [Function.comp_apply]
  split_ifs <;> rfl

end Movements

section Proceed

variable {s : StockTables} {t : StockTables} {stage next : StockStage}

theorem ofRead_goTo {x : InventoryResult StockStage} :
    StockOutcome.ofRead x = .goTo next ↔ x = .ok next := by
  cases x <;> simp [StockOutcome.ofRead]

theorem ofRead_commit {x : InventoryResult StockStage} : StockOutcome.ofRead x ≠ .commit t := by
  cases x <;> simp [StockOutcome.ofRead]

variable {x : InventoryResult StockTables}

theorem ofWrite_commit :
    StockOutcome.ofWrite x = .commit t ↔ x = .ok t := by
  cases x <;> simp [StockOutcome.ofWrite]

theorem ofWrite_goTo : StockOutcome.ofWrite x ≠ .goTo next := by
  cases x <;> simp [StockOutcome.ofWrite]

theorem proceedStock_commit (h : proceedStock s stage = .commit t) :
    (∃ newId value status quantity seen, stage = .summed newId value status quantity seen ∧
      writeMovement s newId value status quantity seen = .ok t) ∨
    (∃ newId now input onHand reserved, stage = .granted newId now input onHand reserved ∧
      s.insertAllocation (allocationRow newId now input) = .ok t) ∨
    ∃ id status, stage = .releasing id status ∧ t = s.setStatus id status.status := by
  cases stage with
  | requested call => exact absurd h ofRead_commit
  | probing newId value =>
    simp only [proceedStock] at h
    split at h
    · cases h
    · exact absurd h ofRead_commit
  | written newId value => exact absurd h ofRead_commit
  | summed newId value status quantity seen =>
    exact .inl ⟨_, _, _, _, _, rfl, ofWrite_commit.1 h⟩
  | reserving newId now input onHand =>
    simp only [proceedStock] at h
    split at h <;> cases h
  | weighing newId now input onHand => exact absurd h ofRead_commit
  | granted newId now input onHand reserved =>
    exact .inr (.inl ⟨_, _, _, _, _, rfl, ofWrite_commit.1 h⟩)
  | releasing id status =>
    cases h
    exact .inr (.inr ⟨_, _, rfl, rfl⟩)
  | _ => cases h

theorem begunMovement_probing {newId : MovementId} {value : RecordMovementInput}
    (h : begunMovement s newId value = .ok next) : next = .probing newId value := by
  simp only [begunMovement, Except.bind_eq_ok, Except.require_eq_ok, Except.pure_eq_ok,
    exists_const] at h
  obtain ⟨-, -, -, -, -, rfl⟩ := h
  rfl

inductive StockMove (s : StockTables) : StockStage → StockStage → Prop
  | idle : StockMove s .idle .idle
  | probe (call : StockCall) (newId : MovementId) (value : RecordMovementInput) :
      StockMove s (.requested call) (.probing newId value)
  | reserve (call : StockCall) (newId : AllocationId) (now : Timestamp) (input : ReserveInput)
      (onHand : Money) (positive : 0 < input.quantity) :
      StockMove s (.requested call) (.reserving newId now input onHand)
  | release (call : StockCall) (id : AllocationId) (status : ReleaseStatus) :
      StockMove s (.requested call) (.releasing id status)
  | write (newId : MovementId) (value : RecordMovementInput) :
      StockMove s (.probing newId value) (.written newId value)
  | refresh (newId : MovementId) (value : RecordMovementInput) (item : InventoryItemRow)
      (found : s.findItem value.inventoryItemId = some item) :
      StockMove s (.written newId value) (.refreshing newId value item.status item.quantity)
  | sum (newId : MovementId) (value : RecordMovementInput) (status : String) (quantity : Money) :
      StockMove s (.refreshing newId value status quantity)
        (.summed newId value status quantity (s.ledgerBalance value.inventoryItemId))
  | weigh (newId : AllocationId) (now : Timestamp) (input : ReserveInput) (onHand : Money) :
      StockMove s (.reserving newId now input onHand) (.weighing newId now input onHand)
  | grant (newId : AllocationId) (now : Timestamp) (input : ReserveInput) (onHand : Money)
      (available : input.allowOverAllocation = true ∨
        input.quantity ≤ onHand - s.reservedQuantityFor input.inventoryItemId) :
      StockMove s (.weighing newId now input onHand)
        (.granted newId now input onHand (s.reservedQuantityFor input.inventoryItemId))

theorem begunStock_move {call : StockCall} (h : begunStock s call = .ok next) :
    StockMove s (.requested call) next := by
  cases call with
  | record newId value =>
    rw [begunMovement_probing h]
    exact .probe _ _ _
  | reverse newId movementId occurredAt =>
    simp only [begunStock] at h
    split at h
    · cases h
    · rw [begunMovement_probing h]
      exact .probe _ _ _
  | reserve newId now input =>
    simp only [begunStock, parseReserve, Except.bind_eq_ok, Except.require_eq_ok,
      Except.pure_eq_ok, exists_const] at h
    obtain ⟨⟨-, hq⟩, -, -, rfl⟩ := h
    exact .reserve _ _ _ _ _ hq
  | release id status =>
    simp only [begunStock, Except.bind_eq_ok, Except.pure_eq_ok] at h
    obtain ⟨-, -, rfl⟩ := h
    exact .release _ _ _

theorem proceedStock_move (h : proceedStock s stage = .goTo next) : StockMove s stage next := by
  cases stage with
  | idle =>
    cases h
    exact .idle
  | requested call => exact begunStock_move (ofRead_goTo.1 h)
  | probing newId value =>
    simp only [proceedStock] at h
    split at h
    · cases h
    · have h := ofRead_goTo.1 h
      simp only [insertedMovement, Except.bind_eq_ok, Except.require_eq_ok, Except.pure_eq_ok,
        exists_const] at h
      obtain ⟨-, -, rfl⟩ := h
      exact .write _ _
  | written newId value =>
    have h := ofRead_goTo.1 h
    simp only [readItem, Except.bind_eq_ok, loadItem_eq_ok, Except.pure_eq_ok] at h
    obtain ⟨item, hitem, rfl⟩ := h
    exact .refresh _ _ _ hitem
  | refreshing newId value status quantity =>
    cases h
    exact .sum _ _ _ _
  | summed newId value status quantity seen => exact absurd h ofWrite_goTo
  | reserving newId now input onHand =>
    simp only [proceedStock] at h
    split at h <;> cases h
    exact .weigh _ _ _ _
  | weighing newId now input onHand =>
    have h := ofRead_goTo.1 h
    cases hcheck : assertAvailable input onHand (s.reservedQuantityFor input.inventoryItemId) with
    | error e => simp [hcheck, Except.map] at h
    | ok u =>
      rw [hcheck] at h
      cases h
      rw [assertAvailable, Except.require_eq_ok] at hcheck
      exact .grant _ _ _ _ hcheck
  | granted newId now input onHand reserved => exact absurd h ofWrite_goTo
  | releasing id status => cases h
  | finished => cases h

theorem StockMove.known (h : StockMove s stage next) (hknown : stage.Known s.toFactTables) :
    next.Known s.toFactTables := by
  cases h with
  | refresh newId value item found =>
    obtain ⟨hmem, hid⟩ := findItem_id found
    exact ⟨item, hmem, hid, rfl⟩
  | sum newId value status quantity => exact hknown
  | _ => trivial

end Proceed

section Step

variable {s : StockSessions} {t : StockTables}

theorem StockStage.Known.congr {t t' : FactTables} {stage : StockStage}
    (hitems : t'.inventoryItems.map (fun i => (i.id, i.quantity)) =
      t.inventoryItems.map fun i => (i.id, i.quantity)) (h : stage.Known t) : stage.Known t' := by
  have hmem : ∀ {id : ItemId} {q : Money}, (∃ i ∈ t.inventoryItems, i.id = id ∧ i.quantity = q) →
      ∃ i ∈ t'.inventoryItems, i.id = id ∧ i.quantity = q := by
    rintro id q ⟨i, hi, rfl, rfl⟩
    have := List.mem_map_of_mem (f := fun i : InventoryItemRow => (i.id, i.quantity)) hi
    rw [← hitems, List.mem_map] at this
    obtain ⟨i', hi', heq⟩ := this
    rw [Prod.mk.injEq] at heq
    exact ⟨i', hi', heq⟩
  cases stage with
  | refreshing newId value status quantity => exact hmem h
  | summed newId value status quantity seen => exact hmem h
  | _ => trivial

theorem commit_items {stage : StockStage} (h : proceedStock s.tables stage = .commit t) :
    t.inventoryItems.map (fun i => (i.id, i.quantity)) =
      s.tables.inventoryItems.map fun i => (i.id, i.quantity) := by
  rcases proceedStock_commit h with ⟨_, _, _, _, _, -, hw⟩ | ⟨_, _, _, _, _, -, hw⟩ | ⟨_, _, -, rfl⟩
  · exact known_write hw
  · rw [← (insertAllocation_eq_ok.1 hw).2]
  · rfl

theorem step_cases (s : StockSessions) (action : StockAction) :
    (s.commits action = none ∧ (s.step action).tables = s.tables ∧
      (s.step action).heldAgainst = s.heldAgainst) ∨
    ∃ session t, s.commits action = some (s.stage session) ∧
      proceedStock s.tables (s.stage session) = .commit t ∧ (s.step action).tables = t ∧
        (s.step action).heldAgainst = s.held (s.stage session) := by
  cases action with
  | begin session call =>
    simp only [StockSessions.step]
    split <;> exact .inl ⟨rfl, rfl, rfl⟩
  | proceed session =>
    simp only [StockSessions.step, StockSessions.commits]
    cases hp : proceedStock s.tables (s.stage session) with
    | commit t => exact .inr ⟨session, t, rfl, hp, rfl, rfl⟩
    | _ => exact .inl ⟨rfl, rfl, rfl⟩
  | abort session =>
    simp only [StockSessions.step]
    split <;> exact .inl ⟨rfl, rfl, rfl⟩

/-- What the stages of all transactions keep: each move does, and no commit takes it away. -/
theorem stages_step {Q : StockTables → StockStage → Prop}
    (hrequested : ∀ call, Q s.tables (.requested call)) (hfinished : Q s.tables .finished)
    (hmove : ∀ {stage next}, StockMove s.tables stage next → Q s.tables stage → Q s.tables next)
    (hcommit : ∀ {stage t}, proceedStock s.tables stage = .commit t →
      ∀ {other}, Q s.tables other → Q t other)
    (h : ∀ session, Q s.tables (s.stage session)) (action : StockAction) (r : SessionId) :
    Q (s.step action).tables ((s.step action).stage r) := by
  have hset : ∀ {session stage}, Q s.tables stage →
      Q s.tables ((s.setStage session stage).stage r) := by
    intro session stage hstage
    simp only [StockSessions.setStage]
    split_ifs
    · exact hstage
    · exact h r
  cases action with
  | begin session call =>
    simp only [StockSessions.step]
    split
    · exact hset (hrequested call)
    · exact h r
  | proceed session =>
    simp only [StockSessions.step]
    cases hp : proceedStock s.tables (s.stage session) with
    | goTo stage => exact hset (hmove (proceedStock_move hp) (h session))
    | finish => exact hset hfinished
    | commit t => exact hcommit hp (hset hfinished)
  | abort session =>
    simp only [StockSessions.step]
    split
    · exact h r
    · exact hset hfinished

theorem KnownItems.step (h : KnownItems s) (action : StockAction) :
    KnownItems (s.step action) where
  ids := by
    rcases step_cases s action with ⟨-, htables, -⟩ | ⟨session, t, -, hp, htables, -⟩
    · rw [htables]
      exact h.ids
    · have hids := congrArg (List.map Prod.fst) (commit_items hp)
      rw [List.map_map, List.map_map] at hids
      rw [htables]
      exact (congrArg List.Nodup hids).mpr h.ids
  known := stages_step (Q := fun t stage => stage.Known t.toFactTables) (fun _ => trivial) trivial
    StockMove.known (fun hp _ => .congr (commit_items hp)) h.known action

theorem inStock_step (h : KnownItems s) (hs : InStock s.tables.toFactTables)
    (action : StockAction) :
    InStock (s.step action).tables.toFactTables ↔ keepsStock s action = true := by
  unfold keepsStock
  rcases step_cases s action with ⟨hnone, htables, -⟩ | ⟨session, t, hsome, hp, htables, -⟩
  · rw [hnone, htables]
    exact iff_of_true hs rfl
  · have hknown := h.known session
    rw [hsome, htables, Option.all_some]
    generalize s.stage session = stage at hknown hp ⊢
    rcases proceedStock_commit hp with ⟨newId, value, status, quantity, seen, rfl, hw⟩ |
      ⟨newId, now, input, onHand, reserved, rfl, hw⟩ | ⟨id, status, rfl, rfl⟩
    · rw [inStock_write h.ids hknown hs hw]
      simp
    · refine iff_of_true ?_ rfl
      rw [← (insertAllocation_eq_ok.1 hw).2]
      exact hs
    · exact iff_of_true hs rfl

variable {r : SessionId}

theorem stage_step {action : StockAction} (h : action.session ≠ r) :
    (s.step action).stage r = s.stage r := by
  have hset : ∀ stage, (s.setStage action.session stage).stage r = s.stage r := fun stage =>
    if_neg (Ne.symm h)
  cases action with
  | begin session call =>
    simp only [StockSessions.step]
    split
    · exact hset _
    · rfl
  | proceed session =>
    simp only [StockSessions.step]
    split
    · exact hset _
    · exact hset _
    · exact hset _
  | abort session =>
    simp only [StockSessions.step]
    split
    · rfl
    · exact hset _

theorem stage_run : ∀ {s : StockSessions} {actions : List StockAction},
    (∀ a ∈ actions, a.session ≠ r) →
      (Runs.run StockSessions.step s actions).stage r = s.stage r
  | _, [], _ => rfl
  | _, a :: actions, h => by
    rw [Runs.run_cons, stage_run fun b hb => h b (List.mem_cons_of_mem _ hb),
      stage_step (h a List.mem_cons_self)]

end Step

/-- From a stock in agreement, the cached balances agree with the ledger and are not negative all
along a run exactly when every movement that commits has seen its item's whole ledger and takes no
more than that. -/
theorem balance_holds_iff {tables : StockTables} (heldAgainst : ItemId → Money)
    (hids : (tables.inventoryItems.map (·.id)).Nodup) (hstart : InStock tables.toFactTables)
    (actions : List StockAction) :
    Runs.Along StockSessions.step (fun s => InStock s.tables.toFactTables)
        (StockSessions.initial tables heldAgainst) actions ↔
      Runs.Meets StockSessions.step (fun s action => keepsStock s action = true)
        (StockSessions.initial tables heldAgainst) actions :=
  Runs.along_iff_meets (fun _ action (h : KnownItems _) _ => h.step action)
    (fun _ action h hs => inStock_step h hs action) ⟨hids, fun _ => trivial⟩ hstart

namespace Small

def shelfItem : InventoryItemRow :=
  ⟨0, "SHELF", none, none, none, none, "available", 10, 10, "USD", 0, 0, false, .unit, none, none, none⟩

def shelf : StockTables :=
  { FactTables.empty with
    inventoryItems := [shelfItem]
    inventoryMovements := [⟨0, 0, .receipt, 10, none, none, none, "acq:0:item:0", ⟨⟨2026, 1, 1⟩, 0⟩⟩]
    inventoryAllocations := [] }

def sellUnits (newId : MovementId) (key : String) (units : Money) : StockCall :=
  .record newId
    { inventoryItemId := 0
      movementKind := .depletionSale
      quantity := -units
      deduplicationKey := key
      occurredAt := ⟨⟨2026, 1, 2⟩, 0⟩ }

def upToSum (session : SessionId) (call : StockCall) : List StockAction :=
  .begin session call :: List.replicate 4 (.proceed session)

def racing : List StockAction :=
  upToSum 0 (sellUnits 1 "ffl:0:0:alloc:0" 1) ++ upToSum 1 (sellUnits 2 "ffl:1:1:alloc:1" 2) ++
    [.proceed 0, .proceed 1]

def inTurn : List StockAction :=
  upToSum 0 (sellUnits 1 "ffl:0:0:alloc:0" 1) ++ [.proceed 0] ++
    upToSum 1 (sellUnits 2 "ffl:1:1:alloc:1" 2) ++ [.proceed 1]

end Small

theorem shelf_ended {actions : List StockAction} (hsessions : ∀ a ∈ actions, a.session < 2)
    (h : ∀ r < 2, ((Runs.run StockSessions.step
      (.initial Small.shelf fun _ => 10) actions).stage r).ended = true) (r : SessionId) :
    ((Runs.run StockSessions.step (.initial Small.shelf fun _ => 10) actions).stage r).ended =
      true := by
  by_cases hr : r < 2
  · exact h r hr
  · have hidle : ∀ a ∈ actions, a.session ≠ r := by
      rintro a ha rfl
      exact hr (hsessions a ha)
    rw [stage_run hidle]
    rfl

theorem shelf_inStock : InStock Small.shelf.toFactTables := by
  refine forall₂_and.1 fun i hi => ?_
  obtain rfl := List.mem_singleton.1 hi
  decide +kernel

theorem racing_sales_drift : ¬ ∀ (tables : StockTables) (heldAgainst : ItemId → Money)
    (actions : List StockAction),
    (tables.inventoryItems.map (·.id)).Nodup → InStock tables.toFactTables →
    let s := Runs.run StockSessions.step (.initial tables heldAgainst) actions
    (∀ session, (s.stage session).ended = true) → InStock s.tables.toFactTables := by
  intro hall
  have hdrift := (hall Small.shelf (fun _ => 10) Small.racing (by decide) shelf_inStock
    (shelf_ended (by decide) (by decide +kernel))).1
  have hdrifted : ¬ ∀ i ∈ (Runs.run StockSessions.step (.initial Small.shelf fun _ => 10)
      Small.racing).tables.inventoryItems, i.quantityOnHand = (Runs.run StockSessions.step
        (.initial Small.shelf fun _ => 10) Small.racing).tables.ledgerBalance i.id := by
    decide +kernel
  exact hdrifted fun i hi => (hdrift i hi).1

theorem sales_in_turn_agree : Runs.Along StockSessions.step
    (fun s => InStock s.tables.toFactTables) (.initial Small.shelf fun _ => 10) Small.inTurn :=
  (balance_holds_iff _ (by decide) shelf_inStock _).2 (by decide +kernel)

/-!
## When reservations stay within the stock

A reservation is checked against figures it has read and inserted later, with no lock on its item.
-/

def WithinStock (s : StockSessions) : Prop :=
  ∀ item, s.tables.reservedQuantityFor item ≤ s.heldAgainst item

def onHandOf (t : FactTables) (item : ItemId) : Money :=
  ((t.findItem item).map (·.quantityOnHand)).getD 0

/-- A reservation that commits would pass its check on what is committed then. -/
def stillAvailable (s : StockSessions) (action : StockAction) : Bool :=
  (s.commits action).all fun
    | .granted _ _ input _ _ =>
      let item := input.inventoryItemId
      Except.returns (assertAvailable { input with allowOverAllocation := false }
        (onHandOf s.tables.toFactTables item) (s.tables.reservedQuantityFor item))
    | _ => true

/-- A reservation that commits was held to the figures that are committed then. -/
def undisturbed (s : StockSessions) (action : StockAction) : Bool :=
  (s.commits action).all fun
    | .granted _ _ input onHand reserved =>
      let item := input.inventoryItemId
      !input.allowOverAllocation && onHandOf s.tables.toFactTables item == onHand &&
        s.tables.reservedQuantityFor item == reserved
    | _ => true

def StockStage.Checked : StockStage → Prop
  | .reserving _ _ input _ => 0 < input.quantity
  | .weighing _ _ input _ => 0 < input.quantity
  | .granted _ _ input onHand reserved => 0 < input.quantity ∧
      (input.allowOverAllocation = false → input.quantity ≤ onHand - reserved)
  | _ => True

structure CheckedHolds (s : StockSessions) : Prop where
  positive : ∀ a ∈ s.tables.inventoryAllocations, 0 < a.quantity
  checked : ∀ session, (s.stage session).Checked

section Reserve

variable {s : StockSessions} {t : StockTables} {stage next : StockStage}

theorem StockMove.checked (h : StockMove s.tables stage next) (hchecked : stage.Checked) :
    next.Checked := by
  cases h with
  | reserve call newId now input onHand positive => exact positive
  | weigh newId now input onHand => exact hchecked
  | grant newId now input onHand available =>
    exact ⟨hchecked, fun hflag => available.resolve_left (by simp [hflag])⟩
  | _ => trivial

theorem commit_positive (h : CheckedHolds s) (hchecked : stage.Checked)
    (hp : proceedStock s.tables stage = .commit t) :
    ∀ a ∈ t.inventoryAllocations, 0 < a.quantity := by
  rcases proceedStock_commit hp with ⟨_, _, _, _, _, -, hw⟩ |
    ⟨newId, now, input, onHand, reserved, rfl, hw⟩ | ⟨id, status, -, rfl⟩
  · rw [(writeMovement_eq_ok hw).2.1]
    exact h.positive
  · rw [← (insertAllocation_eq_ok.1 hw).2]
    intro a ha
    rw [List.mem_append, List.mem_singleton] at ha
    rcases ha with ha | rfl
    · exact h.positive a ha
    · exact hchecked.1
  · intro a ha
    simp only [StockTables.setStatus, List.mem_map] at ha
    obtain ⟨x, hx, rfl⟩ := ha
    split_ifs
    · exact h.positive x hx
    · exact h.positive x hx

theorem CheckedHolds.step (h : CheckedHolds s) (action : StockAction) :
    CheckedHolds (s.step action) where
  positive := by
    rcases step_cases s action with ⟨-, htables, -⟩ | ⟨session, t, -, hp, htables, -⟩
    · rw [htables]
      exact h.positive
    · rw [htables]
      exact commit_positive h (h.checked session) hp
  checked := stages_step (Q := fun _ stage => stage.Checked) (fun _ => trivial) trivial
    StockMove.checked (fun _ _ => id) h.checked action

theorem stillAvailable_of_undisturbed (h : CheckedHolds s) {action : StockAction}
    (hsame : undisturbed s action = true) : stillAvailable s action = true := by
  unfold undisturbed at hsame
  unfold stillAvailable
  rcases step_cases s action with ⟨hnone, -⟩ | ⟨session, t, hsome, hp, -⟩
  · rw [hnone]
    rfl
  · have hchecked := h.checked session
    rw [hsome, Option.all_some] at hsame ⊢
    generalize s.stage session = stage at hchecked hp hsame ⊢
    rcases proceedStock_commit hp with ⟨_, _, _, _, _, rfl, -⟩ |
      ⟨newId, now, input, onHand, reserved, rfl, -⟩ | ⟨_, _, rfl, -⟩
    · rfl
    · simp only [Bool.and_eq_true, Bool.not_eq_true', beq_iff_eq] at hsame
      obtain ⟨⟨hstrict, rfl⟩, rfl⟩ := hsame
      simpa [assertAvailable, Except.returns_require] using hchecked.2 hstrict
    · rfl

theorem reservedQuantityFor_append {row : InventoryAllocationRow} (hrow : row.status = .reserved)
    (h : t.inventoryAllocations = s.tables.inventoryAllocations ++ [row]) (item : ItemId) :
    t.reservedQuantityFor item = s.tables.reservedQuantityFor item +
      if row.inventoryItemId = item then row.quantity else 0 := by
  simp only [StockTables.reservedQuantityFor, h, List.filter_append, List.map_append,
    List.sum_append, List.filter_cons, List.filter_nil, hrow, beq_self_eq_true, Bool.and_true,
    beq_iff_eq]
  split_ifs <;> simp

theorem reservedQuantityFor_setStatus {tables : StockTables} {id : AllocationId}
    {status : AllocationStatus} (hstatus : status ≠ .reserved)
    (hpositive : ∀ a ∈ tables.inventoryAllocations, 0 < a.quantity) (item : ItemId) :
    (tables.setStatus id status).reservedQuantityFor item ≤ tables.reservedQuantityFor item := by
  simp only [StockTables.reservedQuantityFor, StockTables.setStatus]
  generalize tables.inventoryAllocations = l at hpositive ⊢
  induction l with
  | nil => rfl
  | cons a l ih =>
    have ih := ih fun x hx => hpositive x (List.mem_cons_of_mem _ hx)
    have ha := hpositive a List.mem_cons_self
    have hfree : (status == AllocationStatus.reserved) = false := by simpa using hstatus
    by_cases hid : a.id = id
    · rw [List.map_cons, if_pos hid, List.filter_cons_of_neg (by simp [hfree]), List.filter_cons]
      split_ifs
      · rw [List.map_cons, List.sum_cons]
        linarith
      · exact ih
    · rw [List.map_cons, if_neg hid, List.filter_cons, List.filter_cons]
      split_ifs
      · rw [List.map_cons, List.map_cons, List.sum_cons, List.sum_cons]
        linarith
      · exact ih

theorem withinStock_step (h : CheckedHolds s) (hs : WithinStock s) (action : StockAction) :
    WithinStock (s.step action) ↔ stillAvailable s action = true := by
  unfold stillAvailable WithinStock
  rcases step_cases s action with ⟨hnone, htables, hheld⟩ | ⟨session, t, hsome, hp, htables, hheld⟩
  · rw [hnone, htables, hheld]
    exact iff_of_true hs rfl
  · rw [hsome, htables, hheld, Option.all_some]
    generalize s.stage session = stage at hp ⊢
    rcases proceedStock_commit hp with ⟨newId, value, status, quantity, seen, rfl, hw⟩ |
      ⟨newId, now, input, onHand, reserved, rfl, hw⟩ | ⟨id, status, rfl, rfl⟩
    · refine iff_of_true (fun item => ?_) rfl
      simp only [StockTables.reservedQuantityFor, (writeMovement_eq_ok hw).2.1]
      exact hs item
    · have happ : t.inventoryAllocations =
          s.tables.inventoryAllocations ++ [allocationRow newId now input] := by
        rw [← (insertAllocation_eq_ok.1 hw).2]
      have hres : ∀ item, t.reservedQuantityFor item = s.tables.reservedQuantityFor item +
          if input.inventoryItemId = item then input.quantity else 0 :=
        reservedQuantityFor_append rfl happ
      show _ ↔ Except.returns (assertAvailable _ _ _) = true
      rw [assertAvailable, Except.returns_require]
      simp only [hres, StockSessions.held, onHandOf, Bool.false_eq_true, false_or]
      constructor
      · intro ht
        have := ht input.inventoryItemId
        simp only [if_true] at this
        linarith
      · intro hfits item
        by_cases hitem : item = input.inventoryItemId
        · subst hitem
          simp only [if_true]
          linarith
        · rw [if_neg (Ne.symm hitem), if_neg hitem, add_zero]
          exact hs item
    · refine iff_of_true (fun item => ?_) rfl
      refine (reservedQuantityFor_setStatus ?_ h.positive item).trans (hs item)
      cases status <;> simp [ReleaseStatus.status]

end Reserve

/-- Reservations stay within the stock all along a run exactly when each of them would still pass
its check as it commits; so they do where nothing was reserved or taken since the check. -/
theorem within_stock_iff {tables : StockTables} {heldAgainst : ItemId → Money}
    (hpositive : ∀ a ∈ tables.inventoryAllocations, 0 < a.quantity)
    (hstart : ∀ item, tables.reservedQuantityFor item ≤ heldAgainst item)
    (actions : List StockAction) :
    (Runs.Along StockSessions.step WithinStock (StockSessions.initial tables heldAgainst) actions ↔
      Runs.Meets StockSessions.step (fun s action => stillAvailable s action = true)
        (StockSessions.initial tables heldAgainst) actions) ∧
    (Runs.Meets StockSessions.step (fun s action => undisturbed s action = true)
        (StockSessions.initial tables heldAgainst) actions →
      Runs.Along StockSessions.step WithinStock (StockSessions.initial tables heldAgainst)
        actions) := by
  have hchecked : CheckedHolds (StockSessions.initial tables heldAgainst) :=
    ⟨hpositive, fun _ => trivial⟩
  have hiff : Runs.Along StockSessions.step WithinStock _ actions ↔ Runs.Meets _ _ _ actions :=
    Runs.along_iff_meets (fun _ action (h : CheckedHolds _) _ => h.step action)
      (fun _ action h hs => withinStock_step h hs action) hchecked hstart
  exact ⟨hiff, fun hmeets => hiff.2 (.of_invariant (fun _ action h _ => h.step action)
    (fun _ _ h => stillAvailable_of_undisturbed h) hchecked hmeets)⟩

def StockAction.strict : StockAction → Bool
  | .begin _ (.reserve _ _ input) => !input.allowOverAllocation
  | _ => true

theorem shelf_reserved (item : ItemId) : Small.shelf.reservedQuantityFor item ≤ 10 := by
  simp [StockTables.reservedQuantityFor, Small.shelf]

def Small.hold (newId : AllocationId) (units : Money) : StockCall :=
  .reserve newId ⟨⟨2026, 1, 2⟩, 0⟩ ⟨0, .manualHold, none, units, none, false⟩

def Small.upToCheck (session : SessionId) (call : StockCall) : List StockAction :=
  .begin session call :: List.replicate 3 (.proceed session)

def Small.heldTwice : List StockAction :=
  Small.upToCheck 0 (Small.hold 0 10) ++ Small.upToCheck 1 (Small.hold 1 10) ++
    [.proceed 0, .proceed 1]

def Small.heldInTurn : List StockAction :=
  Small.upToCheck 0 (Small.hold 0 6) ++ [.proceed 0] ++ Small.upToCheck 1 (Small.hold 1 4) ++
    [.proceed 1]

theorem racing_holds_over_reserve : ¬ ∀ (tables : StockTables) (heldAgainst : ItemId → Money)
    (actions : List StockAction), (∀ a ∈ tables.inventoryAllocations, 0 < a.quantity) →
    (∀ item, tables.reservedQuantityFor item ≤ heldAgainst item) →
    (∀ a ∈ actions, a.strict = true) →
    WithinStock (Runs.run StockSessions.step (.initial tables heldAgainst) actions) := by
  intro hall
  have hover := hall Small.shelf (fun _ => 10) Small.heldTwice (by decide) shelf_reserved
    (by decide) 0
  revert hover
  decide +kernel

theorem holds_in_turn_fit : Runs.Along StockSessions.step WithinStock
    (.initial Small.shelf fun _ => 10) Small.heldInTurn :=
  (within_stock_iff (by decide) shelf_reserved _).1.2 (by decide +kernel)

/-! ## Reconciling the balances -/

section Reconcile

variable {t : FactTables}

def StatusesDerived (t : FactTables) : Prop :=
  ∀ i ∈ t.inventoryItems, i.status = deriveItemStatus i.status i.quantityOnHand i.quantity

theorem mem_quantityDrift {scope : Option ItemId} {id : ItemId} :
    id ∈ (t.quantityDrift scope).map (·.inventoryItemId) ↔ ∃ i ∈ t.inventoryItems, i.id = id ∧
      scope.all (· == id) = true ∧ i.quantityOnHand ≠ t.ledgerBalance id := by
  simp only [FactTables.quantityDrift, List.map_map, List.mem_map, List.mem_insertionSort,
    List.mem_filter, Bool.and_eq_true, bne_iff_ne, Function.comp_apply]
  constructor
  · rintro ⟨i, ⟨hi, hscope, hne⟩, rfl⟩
    exact ⟨i, hi, rfl, hscope, hne.symm⟩
  · rintro ⟨i, hi, rfl, hscope, hne⟩
    exact ⟨i, ⟨hi, hscope, hne.symm⟩, rfl⟩

/-- An item after refreshes of these ids is as it was, or agrees with the ledger. -/
theorem refreshed_items (drift : List QuantityDrift) {i' : InventoryItemRow}
    (hi' : i' ∈ (drift.foldl (fun t entry => t.refreshItemBalance entry.inventoryItemId false)
      t).inventoryItems) :
    (i' ∈ t.inventoryItems ∧ i'.id ∉ drift.map (·.inventoryItemId)) ∨
      i'.quantityOnHand = t.ledgerBalance i'.id ∧
        i'.status = deriveItemStatus i'.status (t.ledgerBalance i'.id) i'.quantity := by
  induction drift generalizing t with
  | nil => exact .inl ⟨hi', List.not_mem_nil⟩
  | cons entry drift ih =>
    rcases ih hi' with ⟨hmem, hnot⟩ | hagrees
    · obtain ⟨i, hi, rfl⟩ := List.mem_map.1 hmem
      split_ifs at hnot ⊢ with hid
      · exact .inr ⟨congrArg t.ledgerBalance hid.symm, by rw [hid, deriveItemStatus_idem]⟩
      · exact .inl ⟨hi, List.not_mem_cons_of_ne_of_not_mem hid hnot⟩
    · exact .inr hagrees

theorem ledgerBalance_refreshed (drift : List QuantityDrift) (id : ItemId) :
    (drift.foldl (fun t entry => t.refreshItemBalance entry.inventoryItemId false)
      t).ledgerBalance id = t.ledgerBalance id := by
  induction drift generalizing t with
  | nil => rfl
  | cons entry drift ih => exact ih

theorem reconcile_eq (t : FactTables) (scope : Option ItemId) :
    (reconcileQuantityOnHand t true scope).2 = (t.quantityDrift scope).foldl
      (fun t entry => t.refreshItemBalance entry.inventoryItemId false) t := by
  simp only [reconcileQuantityOnHand, Bool.true_and]
  cases t.quantityDrift scope <;> rfl

theorem reconcile_balances (hs : StatusesDerived t) :
    BalanceHolds (reconcileQuantityOnHand t true none).2 := by
  intro i' hi'
  rw [reconcile_eq] at hi' ⊢
  rw [ledgerBalance_refreshed]
  rcases refreshed_items _ hi' with ⟨hmem, hnot⟩ | hagrees
  · have hcached : i'.quantityOnHand = t.ledgerBalance i'.id := by
      by_contra hne
      exact hnot (mem_quantityDrift.2 ⟨i', hmem, rfl, rfl, hne⟩)
    exact ⟨hcached, hcached ▸ hs i' hmem⟩
  · exact hagrees

theorem BalanceHolds.quantityDrift_eq_nil (h : BalanceHolds t) (scope : Option ItemId) :
    t.quantityDrift scope = [] := by
  refine List.eq_nil_iff_forall_not_mem.2 fun entry hentry => ?_
  obtain ⟨i, hi, hid, -, hne⟩ := mem_quantityDrift.1 (List.mem_map_of_mem hentry)
  exact hne (hid ▸ (h i hi).1)

theorem statusesDerived_step {s : StockSessions} (h : KnownItems s)
    (hs : StatusesDerived s.tables.toFactTables) (action : StockAction) :
    StatusesDerived (s.step action).tables.toFactTables := by
  rcases step_cases s action with ⟨-, htables, -⟩ | ⟨session, t, -, hp, htables, -⟩
  · rw [htables]
    exact hs
  · have hknown := h.known session
    rw [htables]
    generalize s.stage session = stage at hknown hp
    rcases proceedStock_commit hp with ⟨newId, value, status, quantity, seen, rfl, hw⟩ |
      ⟨newId, now, input, onHand, reserved, rfl, hw⟩ | ⟨id, status, rfl, rfl⟩
    · obtain ⟨i, hi, hid, hq⟩ := hknown
      intro i' hi'
      rw [(writeMovement_eq_ok hw).2.2, List.mem_map] at hi'
      obtain ⟨x, hx, rfl⟩ := hi'
      split_ifs with hxi
      · obtain rfl := List.inj_on_of_nodup_map h.ids hx hi (hxi.trans hid.symm)
        simp only [restated, hq, deriveItemStatus_idem]
      · exact hs x hx
    · intro i hi
      rw [← (insertAllocation_eq_ok.1 hw).2] at hi
      exact hs i hi
    · exact hs

end Reconcile

/-- Whatever the interleaving has left of the balances, a reconcile that applies what it finds
reports the items out of agreement with the ledger, and leaves nothing to report. -/
theorem reconcile_restores {tables : StockTables} (heldAgainst : ItemId → Money)
    (hids : (tables.inventoryItems.map (·.id)).Nodup) (hstart : BalanceHolds tables.toFactTables)
    (actions : List StockAction) :
    Runs.Along StockSessions.step (fun s =>
      (∀ i ∈ s.tables.inventoryItems, i.id ∈ (s.tables.quantityDrift none).map
        (·.inventoryItemId) ↔ i.quantityOnHand ≠ s.tables.ledgerBalance i.id) ∧
      BalanceHolds (reconcileQuantityOnHand s.tables.toFactTables true none).2 ∧
        (reconcileQuantityOnHand s.tables.toFactTables true none).2.quantityDrift none = [])
      (StockSessions.initial tables heldAgainst) actions := by
  have hfollows : StatusesDerived tables.toFactTables := fun i hi => by
    obtain ⟨hcached, hstatus⟩ := hstart i hi
    exact hcached ▸ hstatus
  have hkept : Runs.Along StockSessions.step
      (fun s => KnownItems s ∧ StatusesDerived s.tables.toFactTables)
      (StockSessions.initial tables heldAgainst) actions :=
    Runs.along_of_step
      (fun _ action hs => ⟨hs.1.step action, statusesDerived_step hs.1 hs.2 action⟩)
      ⟨⟨hids, fun _ => trivial⟩, hfollows⟩
  refine hkept.mono fun s hs => ⟨fun i hi => ?_, reconcile_balances hs.2,
    (reconcile_balances hs.2).quantityDrift_eq_nil none⟩
  refine ⟨fun hmem => ?_, fun hne => mem_quantityDrift.2 ⟨i, hi, rfl, rfl, hne⟩⟩
  obtain ⟨x, hx, hid, -, hne⟩ := mem_quantityDrift.1 hmem
  obtain rfl := List.inj_on_of_nodup_map hs.1.ids hx hi hid
  exact hne

theorem races_reconciled : BalanceHolds (reconcileQuantityOnHand (Runs.run StockSessions.step
    (.initial Small.shelf fun _ => 10) Small.racing).tables.toFactTables true none).2 :=
  (reconcile_restores _ (by decide) shelf_inStock.1 Small.racing).last.2.1

end Loxep

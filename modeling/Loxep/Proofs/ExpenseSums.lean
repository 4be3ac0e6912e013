import Loxep.Expenses
import Loxep.Lib.ListSums
import Loxep.Lib.Runs

/-!
# What an expense's allocations and lines come to

Every call that adds to an expense's allocations or changes its amount checks them against it; the
one that takes an allocation away does not. Every call that adds to its lines checks them against
the amount; the one that changes the amount does not look at them.
-/

namespace Loxep

/-- What is allocated of an amount, and what is left, both on the amount's side of zero. -/
structure SharesWithin (amount allocated : Money) : Prop where
  share : min 0 amount ≤ allocated ∧ allocated ≤ max 0 amount
  rest : min 0 amount ≤ unallocatedRemainder amount allocated
    ∧ unallocatedRemainder amount allocated ≤ max 0 amount

theorem allocationsFit_iff {amount allocated : Money} :
    allocationsFit amount allocated = true ↔ SharesWithin amount allocated := by
  unfold allocationsFit isNegative
  by_cases hneg : amount < 0
  · simp only [hneg, decide_true, ↓reduceIte, Bool.and_eq_true, decide_eq_true_eq]
    constructor
    · rintro ⟨hupper, hlower⟩
      rw [← min_eq_right hneg.le] at hlower
      rw [← max_eq_left hneg.le] at hupper
      refine ⟨⟨hlower, hupper⟩, ?_⟩
      unfold unallocatedRemainder
      grind
    · rintro ⟨⟨hlower, hupper⟩, -⟩
      grind
  · simp only [hneg, decide_false, Bool.false_eq_true, ↓reduceIte, Bool.and_eq_true,
      decide_eq_true_eq]
    rw [not_lt] at hneg
    constructor
    · rintro ⟨hlower, hupper⟩
      rw [← min_eq_left hneg] at hlower
      rw [← max_eq_right hneg] at hupper
      refine ⟨⟨hlower, hupper⟩, ?_⟩
      unfold unallocatedRemainder
      grind
    · rintro ⟨⟨hlower, hupper⟩, -⟩
      grind

namespace ExpenseTables

def AllocationsWithin (t : ExpenseTables) : Prop :=
  ∀ e ∈ t.expenses, SharesWithin e.amount (t.allocatedTotal e.id)

def LinesWithin (t : ExpenseTables) : Prop :=
  ∀ e ∈ t.expenses, ((t.linesOf e.id).map fun l => |l.lineAmount|).sum ≤ |e.amount|

def RemovalFits (t : ExpenseTables) : ExpenseAction → Prop
  | .removeAllocation id => Except.returns (t.removeAllocation id) = true →
      ∀ row ∈ t.findAllocation id, ∀ e ∈ t.findExpense row.expenseId,
        allocationsFit e.amount (t.allocatedTotal e.id - row.amount) = true
  | _ => True

def NewAmountFits (t : ExpenseTables) : ExpenseAction → Prop
  | .update input => Except.returns (t.update input) = true →
      ∀ amount ∈ input.amount,
        linesFit amount (absoluteLineTotal (t.existingLineAmounts input.expenseId)) = true
  | _ => True

end ExpenseTables

section Effects

variable {t t' u : ExpenseTables} {action : ExpenseAction}

namespace ExpenseTables

structure Sound (t : ExpenseTables) : Prop where
  expense_ids : (t.expenses.map (·.id)).Nodup
  allocation_ids : (t.allocations.map (·.id)).Nodup
  line_ids : (t.lines.map (·.id)).Nodup
  allocations_there : ∀ a ∈ t.allocations, a.expenseId ∈ t.expenses.map (·.id)
  lines_there : ∀ l ∈ t.lines, l.expenseId ∈ t.expenses.map (·.id)

inductive Effect (t : ExpenseTables) : ExpenseAction → ExpenseTables → Prop
  | created {input : CreateExpenseInput} {new : StoredExpense} {rows : List StoredAllocation}
      (fresh : new.id ∉ t.expenses.map (·.id)) (under : ∀ a ∈ rows, a.expenseId = new.id)
      (fits : allocationsFit new.amount (sumDecimals (rows.map (·.amount))) = true) :
      Effect t (.create input)
        { t with expenses := t.expenses ++ [new], allocations := t.allocations ++ rows }
  | updated {input : UpdateExpenseInput} {old new : StoredExpense} (found : old ∈ t.expenses)
      (named : old.id = input.expenseId) (same : new.id = old.id)
      (amount : new.amount = input.amount.getD old.amount)
      (fits : input.amount.isSome = true →
        allocationsFit new.amount (t.allocatedTotal old.id) = true) :
      Effect t (.update input) { t with expenses := replaceRow (·.id) t.expenses old.id new }
  | stamped {action : ExpenseAction} {old new : StoredExpense} (found : old ∈ t.expenses)
      (same : new.id = old.id) (amount : new.amount = old.amount)
      (other : ∀ input, action ≠ .update input) :
      Effect t action { t with expenses := replaceRow (·.id) t.expenses old.id new }
  | allocationsSet {id : FactId} {allocations : List AllocationInput} {e : StoredExpense}
      {rows : List StoredAllocation} (found : e ∈ t.expenses)
      (under : ∀ a ∈ rows, a.expenseId = e.id)
      (fits : allocationsFit e.amount (sumDecimals (rows.map (·.amount))) = true) :
      Effect t (.setAllocations id allocations)
        { t with allocations := t.allocations.filter (·.expenseId != e.id) ++ rows }
  | allocationAdded {id : FactId} {allocation : AllocationInput} {e : StoredExpense}
      {row : StoredAllocation} (found : e ∈ t.expenses) (under : row.expenseId = e.id)
      (fits : allocationsFit e.amount (sumDecimals [t.allocatedTotal e.id, row.amount]) = true) :
      Effect t (.addAllocation id allocation) { t with allocations := t.allocations ++ [row] }
  | allocationRemoved {row : StoredAllocation} {e : StoredExpense} (found : row ∈ t.allocations)
      (owner : e ∈ t.expenses) (under : row.expenseId = e.id) :
      Effect t (.removeAllocation row.id)
        { t with allocations := t.allocations.filter (·.id != row.id) }
  | lineAdded {id : FactId} {line : ExpenseLineInput} {e : StoredExpense} {row : ExpenseLineRow}
      (found : e ∈ t.expenses) (under : row.expenseId = e.id)
      (fits : linesFit e.amount
        (absoluteLineTotal (t.existingLineAmounts e.id ++ [row.lineAmount])) = true) :
      Effect t (.addLine id line) { t with lines := t.lines ++ [row] }
  | linesSet {id : FactId} {lines : List ExpenseLineInput} {e : StoredExpense}
      {rows : List ExpenseLineRow} (found : e ∈ t.expenses)
      (under : ∀ l ∈ rows, l.expenseId = e.id)
      (fits : linesFit e.amount (absoluteLineTotal (rows.map (·.lineAmount))) = true) :
      Effect t (.setLines id lines)
        { t with lines := t.lines.filter (·.expenseId != e.id) ++ rows }
  | lineRemoved {row : ExpenseLineRow} {e : StoredExpense} (found : row ∈ t.lines)
      (owner : e ∈ t.expenses) (under : row.expenseId = e.id) :
      Effect t (.removeLine row.id) { t with lines := t.lines.filter (·.id != row.id) }
  | confirmed {input : ConfirmExpenseInput} {e : StoredExpense} {rows : List ExpenseLineRow}
      {candidates : List DocumentLineCandidateRow} (found : e ∈ t.expenses)
      (under : ∀ l ∈ rows, l.expenseId = e.id)
      (fits : linesFit e.amount
        (absoluteLineTotal (t.existingLineAmounts e.id ++ rows.map (·.lineAmount))) = true) :
      Effect t (.confirmCandidates input)
        { t with lines := t.lines ++ rows, candidates := candidates }
  | created_confirmed {input : ConfirmExpenseInput} {new : StoredExpense}
      {rows : List ExpenseLineRow} {candidates : List DocumentLineCandidateRow}
      (fresh : new.id ∉ t.expenses.map (·.id)) (under : ∀ l ∈ rows, l.expenseId = new.id)
      (unallocated : allocationsFit new.amount 0 = true)
      (fits : linesFit new.amount (absoluteLineTotal (rows.map (·.lineAmount))) = true) :
      Effect t (.confirmCandidates input)
        { t with
          expenses := t.expenses ++ [new]
          lines := t.lines ++ rows
          candidates := candidates }
  | elsewhere {counterparties : List CounterpartyNameRow} {documents : List DocumentRow}
      {candidates : List DocumentLineCandidateRow} :
      Effect t (.elsewhere counterparties documents candidates)
        { t with
          counterparties := counterparties
          documents := documents
          candidates := candidates }
  | unchanged {action : ExpenseAction} (other : ∀ input, action ≠ .update input) :
      Effect t action t

theorem check_eq_ok (h : check t = .ok t') : t' = t ∧ t.Sound := by
  simp only [check, Except.bind_eq_ok, Except.require_eq_ok, Except.pure_eq_ok, exists_const] at h
  obtain ⟨hexpenses, -, -, hallocations, -, -, hlines, -, -, ha, hl, rfl⟩ := h
  exact ⟨rfl, hexpenses, hallocations, hlines, ha, hl⟩

variable {id expenseId : FactId} {allocations : List AllocationInput} {startingLine : ℕ}
  {lines : List ExpenseLineInput} {new : StoredExpense}
  {confirmable : List (DocumentLineCandidateRow × Money)} {rows : List ExpenseLineRow}

theorem findExpense_eq_some (hs : t.Sound) {e : StoredExpense} :
    t.findExpense id = some e ↔ e ∈ t.expenses ∧ e.id = id :=
  find?_key_eq_some_iff hs.expense_ids

theorem loadExpense_eq_ok (hs : t.Sound) {e : StoredExpense} (h : t.loadExpense id = .ok e)
    : e ∈ t.expenses ∧ e.id = id := by
  unfold loadExpense at h
  cases hfound : t.findExpense id with
  | none =>
    rw [hfound] at h
    cases h
  | some e' =>
    rw [hfound] at h
    cases h
    exact (findExpense_eq_some hs).1 hfound

theorem withCodeRetry_eq_ok {α : Type} {label : String} {attempt : Result α} {a : α} :
    withCodeRetry label attempt = .ok a ↔ attempt = .ok a := by
  unfold withCodeRetry
  cases attempt with
  | ok a' => rfl
  | error e =>
    show (if isUniqueViolation e = true then _ else _) = _ ↔ _
    split_ifs <;> simp

theorem allocationRows_under : ∀ a ∈ allocationRows expenseId allocations startingLine,
      a.expenseId = expenseId := by
  intro a ha
  obtain ⟨i, hi, rfl⟩ := List.mem_mapIdx.1 ha
  rfl

theorem allocationRows_amount : (allocationRows expenseId allocations startingLine).map (·.amount) =
      allocations.map (·.amount) := by
  unfold allocationRows
  refine map_mapIdx_eq_map (fun _ _ => ?_) allocations
  rfl

theorem lineRows_under :
    ∀ l ∈ lineRows expenseId lines startingLine, l.expenseId = expenseId := by
  intro l hl
  obtain ⟨i, hi, rfl⟩ := List.mem_mapIdx.1 hl
  rfl

theorem lineRows_amount :
    (lineRows expenseId lines startingLine).map (·.lineAmount) = lines.map (·.lineAmount) := by
  unfold lineRows
  refine map_mapIdx_eq_map (fun _ _ => ?_) lines
  rfl

theorem create_eq_ok {input : CreateExpenseInput} (h : t.create input = .ok t') :
    ∃ new rows, new.id = input.id ∧ new.amount = input.amount
      ∧ rows.map (·.amount) = input.allocations.map (·.amount)
      ∧ new.id ∉ t.expenses.map (·.id) ∧ (∀ a ∈ rows, a.expenseId = new.id)
      ∧ allocationsFit new.amount (sumDecimals (rows.map (·.amount))) = true
      ∧ t' = { t with expenses := t.expenses ++ [new], allocations := t.allocations ++ rows }
      ∧ check t' = .ok t' := by
  simp only [create, Except.bind_eq_ok, Except.require_eq_ok, withCodeRetry_eq_ok] at h
  obtain ⟨_, -, _, hfits, name, -, inserted, hinsert, hrows⟩ := h
  obtain ⟨rfl, hsound⟩ := check_eq_ok hinsert
  obtain ⟨rfl, -⟩ := check_eq_ok hrows
  refine ⟨_, _, rfl, rfl, allocationRows_amount, notMem_of_nodup_concat hsound.expense_ids,
    allocationRows_under, ?_, rfl, hrows⟩
  rw [allocationRows_amount]
  exact hfits

theorem updateExpense_eq_ok {old : StoredExpense} (h : t.updateExpense old.id new = .ok t') :
    t' = { t with expenses := replaceRow (·.id) t.expenses old.id new } ∧ t'.Sound := by
  obtain ⟨rfl, hsound⟩ := check_eq_ok h
  exact ⟨rfl, hsound⟩

section

variable (hs : t.Sound)
include hs

theorem update_effect {input : UpdateExpenseInput} (h : t.update input = .ok t') :
    Effect t (.update input) t' ∧ t'.Sound := by
  simp only [update, Except.bind_eq_ok, Except.require_eq_ok] at h
  obtain ⟨before, hload, _, -, name, -, _, -, _, hfits, hupdate⟩ := h
  obtain ⟨hfound, hnamed⟩ := loadExpense_eq_ok hs hload
  obtain ⟨rfl, hsound⟩ := updateExpense_eq_ok hupdate
  refine ⟨.updated hfound hnamed rfl rfl fun hsome => ?_, hsound⟩
  obtain ⟨amount, hamount⟩ := Option.isSome_iff_exists.1 hsome
  rw [hamount] at hfits ⊢
  exact Except.require_eq_ok.1 hfits

theorem stamped_effect {before : StoredExpense} (hload : t.loadExpense id = .ok before)
    (hupdate : t.updateExpense before.id new = .ok t') (hid : new.id = before.id)
    (hamount : new.amount = before.amount) (hother : ∀ input, action ≠ .update input)
    : Effect t action t' ∧ t'.Sound := by
  obtain ⟨rfl, hsound⟩ := updateExpense_eq_ok hupdate
  exact ⟨.stamped (loadExpense_eq_ok hs hload).1 hid hamount hother, hsound⟩

theorem setAllocations_effect (h : t.setAllocations id allocations = .ok t') :
    Effect t (.setAllocations id allocations) t' ∧ t'.Sound := by
  simp only [setAllocations, Except.bind_eq_ok] at h
  obtain ⟨e, hload, _, -, _, -, _, hfits, hinsert⟩ := h
  obtain ⟨rfl, hsound⟩ := check_eq_ok hinsert
  refine ⟨.allocationsSet (loadExpense_eq_ok hs hload).1 allocationRows_under ?_, hsound⟩
  rw [allocationRows_amount]
  exact Except.require_eq_ok.1 hfits

theorem addAllocation_effect {allocation : AllocationInput}
    (h : t.addAllocation id allocation = .ok t') :
    Effect t (.addAllocation id allocation) t' ∧ t'.Sound := by
  simp only [addAllocation, Except.bind_eq_ok] at h
  obtain ⟨e, hload, _, -, _, -, _, hfits, hinsert⟩ := h
  obtain ⟨rfl, hsound⟩ := check_eq_ok hinsert
  exact ⟨.allocationAdded (loadExpense_eq_ok hs hload).1 rfl (Except.require_eq_ok.1 hfits),
    hsound⟩

theorem removeAllocation_eq_ok {id : ExpenseAllocationId} (h : t.removeAllocation id = .ok t') :
    ∃ row ∈ t.allocations, ∃ e ∈ t.expenses, row.id = id ∧ row.expenseId = e.id ∧
      t' = { t with allocations := t.allocations.filter (·.id != row.id) } ∧ t'.Sound := by
  unfold removeAllocation at h
  cases hrow : t.findAllocation id with
  | none =>
    rw [hrow] at h
    cases h
  | some row =>
    simp only [hrow, Except.bind_eq_ok] at h
    obtain ⟨e, hload, _, -, hcheck⟩ := h
    obtain ⟨hmem, rfl⟩ := (find?_key_eq_some_iff hs.allocation_ids).1 hrow
    obtain ⟨howner, hid⟩ := loadExpense_eq_ok hs hload
    obtain ⟨rfl, hsound⟩ := check_eq_ok hcheck
    exact ⟨row, hmem, e, howner, rfl, hid.symm, rfl, hsound⟩

theorem removeAllocation_effect {id : ExpenseAllocationId} (h : t.removeAllocation id = .ok t')
    : Effect t (.removeAllocation id) t' ∧ t'.Sound := by
  obtain ⟨row, hmem, e, howner, rfl, hunder, rfl, hsound⟩ := removeAllocation_eq_ok hs h
  exact ⟨.allocationRemoved hmem howner hunder, hsound⟩

theorem addLine_effect {line : ExpenseLineInput} (h : t.addLine id line = .ok t')
    : Effect t (.addLine id line) t' ∧ t'.Sound := by
  simp only [addLine, Except.bind_eq_ok] at h
  obtain ⟨_, -, e, hload, _, -, _, hfits, hinsert⟩ := h
  obtain ⟨hfound, rfl⟩ := loadExpense_eq_ok hs hload
  obtain ⟨rfl, hsound⟩ := check_eq_ok hinsert
  exact ⟨.lineAdded hfound rfl (Except.require_eq_ok.1 hfits), hsound⟩

theorem removeLine_effect {id : ExpenseLineId} (h : t.removeLine id = .ok t') :
    Effect t (.removeLine id) t' ∧ t'.Sound := by
  unfold removeLine at h
  cases hrow : t.findLine id with
  | none =>
    rw [hrow] at h
    cases h
  | some row =>
    simp only [hrow, Except.bind_eq_ok] at h
    obtain ⟨e, hload, _, -, hcheck⟩ := h
    obtain ⟨hmem, rfl⟩ := (find?_key_eq_some_iff hs.line_ids).1 hrow
    obtain ⟨howner, hid⟩ := loadExpense_eq_ok hs hload
    obtain ⟨rfl, hsound⟩ := check_eq_ok hcheck
    exact ⟨.lineRemoved hmem howner hid.symm, hsound⟩

theorem setLines_effect (h : t.setLines id lines = .ok t')
    : Effect t (.setLines id lines) t' ∧ t'.Sound := by
  simp only [setLines, Except.bind_eq_ok] at h
  obtain ⟨_, -, e, hload, _, -, _, hfits, hinsert⟩ := h
  obtain ⟨hfound, rfl⟩ := loadExpense_eq_ok hs hload
  obtain ⟨rfl, hsound⟩ := check_eq_ok hinsert
  refine ⟨.linesSet hfound lineRows_under ?_, hsound⟩
  rw [lineRows_amount]
  exact Except.require_eq_ok.1 hfits

end

theorem confirmedLines_amount {input : ConfirmExpenseInput} :
    (confirmedLines input confirmable).map (·.lineAmount) = confirmable.map (·.2) := by
  unfold confirmedLines
  refine map_mapIdx_eq_map (fun _ _ => ?_) confirmable
  rfl

theorem linesOf_created (hs : t.Sound) (hfresh : new.id ∉ t.expenses.map (·.id)) :
    linesOf { t with expenses := t.expenses ++ [new] } new.id = [] := by
  refine childrenOf_eq_nil fun l hl hid => hfresh ?_
  rw [← hid]
  exact hs.lines_there l hl

theorem confirmTarget_created {created : ExpenseTables} {input : ConfirmExpenseInput}
    {document : DocumentRow} {e : StoredExpense} (hnew : input.expenseId = none)
    (h : t.confirmTarget input document confirmable = .ok (created, e)) :
    e.id = input.newExpenseId ∧ e.amount = sumDecimals (confirmable.map (·.2))
      ∧ e.id ∉ t.expenses.map (·.id) ∧ allocationsFit e.amount 0 = true
      ∧ created = { t with expenses := t.expenses ++ [e] } ∧ check created = .ok created := by
  simp only [confirmTarget, hnew, Except.bind_eq_ok, Except.pure_eq_ok, Prod.mk.injEq] at h
  obtain ⟨_, -, u, hcreate, e', hload, rfl, rfl⟩ := h
  obtain ⟨new, rows, hid, hamount, hrows, hfresh, -, hshares, rfl, hu⟩ := create_eq_ok hcreate
  have hsound := (check_eq_ok hu).2
  obtain ⟨hmem, he⟩ := loadExpense_eq_ok hsound hload
  obtain rfl : e' = new :=
    eq_of_key hsound.expense_ids (List.mem_append_right _ (List.mem_singleton_self _)) hmem
      (he.trans hid.symm)
  obtain rfl : rows = [] := List.map_eq_nil_iff.1 hrows
  rw [List.append_nil] at hu ⊢
  exact ⟨hid, hamount, hfresh, hshares, rfl, hu⟩

theorem confirmOnto_effect (hs : t.Sound) {input : ConfirmExpenseInput} {document : DocumentRow}
    (h : t.confirmOnto input document confirmable = .ok t') :
    Effect t (.confirmCandidates input) t' ∧ t'.Sound := by
  simp only [confirmOnto, Except.bind_eq_ok, Except.pure_eq_ok] at h
  obtain ⟨⟨created, expense⟩, htarget, _, hfits, inserted, hinsert, rfl⟩ := h
  have hfits := Except.require_eq_ok.1 hfits
  obtain ⟨rfl, hsound⟩ := check_eq_ok hinsert
  have hsound' : ∀ candidates, Sound { created with
      lines := created.lines ++ lineRows expense.id (confirmedLines input confirmable)
        ((created.existingLineAmounts expense.id).length + 1)
      candidates := candidates } := fun _ => ⟨hsound.1, hsound.2, hsound.3, hsound.4, hsound.5⟩
  cases hnamed : input.expenseId with
  | some expenseId =>
    simp only [confirmTarget, hnamed, Except.bind_eq_ok, Except.pure_eq_ok, Prod.mk.injEq]
      at htarget
    obtain ⟨e, hload, rfl, rfl⟩ := htarget
    refine ⟨.confirmed (loadExpense_eq_ok hs hload).1 lineRows_under ?_, hsound' _⟩
    rw [lineRows_amount, confirmedLines_amount]
    exact hfits
  | none =>
    obtain ⟨-, -, hfresh, hshares, rfl, -⟩ := confirmTarget_created hnamed htarget
    rw [existingLineAmounts, linesOf_created hs hfresh, List.map_nil, List.nil_append] at hfits
    refine ⟨.created_confirmed hfresh lineRows_under hshares ?_, hsound' _⟩
    rw [lineRows_amount, confirmedLines_amount]
    exact hfits

theorem perform_effect (hs : t.Sound) (h : t.perform action = .ok t') :
    Effect t action t' ∧ t'.Sound := by
  cases action with
  | create input =>
    obtain ⟨new, rows, -, -, -, hfresh, hunder, hfits, rfl, hcheck⟩ := create_eq_ok h
    exact ⟨.created hfresh hunder hfits, (check_eq_ok hcheck).2⟩
  | update input => exact update_effect hs h
  | submit id =>
    simp only [perform, submit, Except.bind_eq_ok] at h
    obtain ⟨before, hload, _, -, hupdate⟩ := h
    exact stamped_effect hs hload hupdate rfl rfl fun _ hne => ExpenseAction.noConfusion hne
  | voidExpense id reason =>
    simp only [perform, voidExpense, Except.bind_eq_ok] at h
    obtain ⟨_, -, before, hload, _, -, h⟩ := h
    split_ifs at h with hvoid
    · cases h
      exact ⟨.unchanged fun _ hne => ExpenseAction.noConfusion hne, hs⟩
    · exact stamped_effect hs hload h rfl rfl fun _ hne => ExpenseAction.noConfusion hne
  | promoteToAcquisitionCost id costId reason =>
    simp only [perform, promoteToAcquisitionCost, Except.bind_eq_ok] at h
    obtain ⟨_, -, before, hload, _, -, _, -, hupdate⟩ := h
    exact stamped_effect hs hload hupdate rfl rfl fun _ hne => ExpenseAction.noConfusion hne
  | linkPayee id payee =>
    simp only [perform, linkPayee, Except.bind_eq_ok] at h
    obtain ⟨before, hload, _, -, name, -, hupdate⟩ := h
    exact stamped_effect hs hload hupdate rfl rfl fun _ hne => ExpenseAction.noConfusion hne
  | setAllocations id allocations => exact setAllocations_effect hs h
  | addAllocation id allocation => exact addAllocation_effect hs h
  | removeAllocation id => exact removeAllocation_effect hs h
  | addLine id line => exact addLine_effect hs h
  | setLines id lines => exact setLines_effect hs h
  | removeLine id => exact removeLine_effect hs h
  | confirmCandidates input =>
    simp only [perform, confirmCandidatesAsExpense, Except.map_eq_ok, Except.bind_eq_ok] at h
    obtain ⟨⟨u, skipped⟩, ⟨_, -, h⟩, rfl⟩ := h
    split at h
    · cases h
    · split_ifs at h with hnothing
      · cases h
        exact ⟨.unchanged fun _ hne => ExpenseAction.noConfusion hne, hs⟩
      · obtain ⟨u', honto, hu⟩ := Except.map_eq_ok.1 h
        cases hu
        exact confirmOnto_effect hs honto
  | elsewhere counterparties documents candidates =>
    cases h
    exact ⟨.elsewhere, hs.1, hs.2, hs.3, hs.4, hs.5⟩

def SharesFit (e : StoredExpense) (rows : List StoredAllocation) : Prop :=
  SharesWithin e.amount (sumDecimals (rows.map (·.amount)))

theorem allocationsWithin_iff : t.AllocationsWithin ↔
    AllFit (·.id) (·.expenseId) SharesFit t.expenses t.allocations := Iff.rfl

theorem allocatedTotal_without (hs : t.Sound) {row : StoredAllocation} (hrow : row ∈ t.allocations)
    :
    sumDecimals (((t.allocationsOf row.expenseId).filter (·.id != row.id)).map (·.amount)) =
      t.allocatedTotal row.expenseId - row.amount := by
  have hids : ((t.allocationsOf row.expenseId).map (·.id)).Nodup :=
    hs.allocation_ids.sublist (List.filter_sublist.map _)
  exact sum_map_filter_ne hids (mem_childrenOf.2 ⟨hrow, rfl⟩)

theorem Effect.allocationsWithin (hs : t.Sound) (hw : t.AllocationsWithin) (h : Effect t action t')
    (hkept : ∀ id, action ≠ .removeAllocation id) :
    t'.AllocationsWithin := by
  rw [allocationsWithin_iff] at hw ⊢
  cases h with
  | created fresh under fits =>
    exact hw.insertParent hs.allocations_there fresh under (allocationsFit_iff.1 fits)
  | @updated input old new found named same amount fits =>
    refine (hw.replaceParent_iff found same).2 ?_
    cases hamount : input.amount with
    | none =>
      rw [hamount, Option.getD_none] at amount
      show SharesWithin new.amount _
      rw [amount]
      exact hw old found
    | some a =>
      rw [hamount] at fits
      exact allocationsFit_iff.1 (fits rfl)
  | @stamped _ old new found same amount other =>
    refine (hw.replaceParent_iff found same).2 ?_
    show SharesWithin new.amount _
    rw [amount]
    exact hw old found
  | allocationsSet found under fits =>
    exact (hw.set_iff hs.expense_ids found under).2 (allocationsFit_iff.1 fits)
  | @allocationAdded _ _ e row found under fits =>
    refine (hw.append_iff hs.expense_ids found fun r hr => ?_).2 ?_
    · rw [List.mem_singleton.1 hr, under]
    · have hsum : sumDecimals ((t.allocationsOf e.id ++ [row]).map (·.amount)) =
          sumDecimals [t.allocatedTotal e.id, row.amount] := by
        simp [sumDecimals, allocatedTotal]
      show SharesWithin e.amount (sumDecimals ((t.allocationsOf e.id ++ [row]).map (·.amount)))
      rw [hsum]
      exact allocationsFit_iff.1 fits
  | allocationRemoved => exact absurd rfl (hkept _)
  | @created_confirmed _ new _ _ fresh under unallocated fits =>
    have hnew : AllFit (·.id) (·.expenseId) SharesFit (t.expenses ++ [new])
        (t.allocations ++ []) :=
      hw.insertParent hs.allocations_there fresh (fun _ ha => absurd ha List.not_mem_nil)
        (allocationsFit_iff.1 unallocated)
    rwa [List.append_nil] at hnew
  | _ => exact hw

theorem removeAllocation_iff (hs : t.Sound) (hw : t.AllocationsWithin) {id : ExpenseAllocationId}
    (h : t.removeAllocation id = .ok t') :
    t'.AllocationsWithin ↔ t.RemovalFits (.removeAllocation id) := by
  have hreturns : Except.returns (t.removeAllocation id) = true := by
    rw [h]
    rfl
  rw [RemovalFits, forall_prop_of_true hreturns]
  obtain ⟨row, hmem, e, howner, rfl, hunder, rfl, -⟩ := removeAllocation_eq_ok hs h
  have hrow : t.findAllocation row.id = some row :=
    (find?_key_eq_some_iff hs.allocation_ids).2 ⟨hmem, rfl⟩
  have hfound : t.findExpense row.expenseId = some e :=
    (findExpense_eq_some hs).2 ⟨howner, hunder.symm⟩
  have hleft := (allocationsWithin_iff.1 hw).remove_iff hs.expense_ids hs.allocation_ids howner
    hmem hunder
  have hsum := allocatedTotal_without hs hmem
  rw [hunder] at hsum
  have hfit : SharesFit e ((t.allocationsOf e.id).filter (·.id != row.id)) ↔
      allocationsFit e.amount (t.allocatedTotal e.id - row.amount) = true := by
    rw [allocationsFit_iff, ← hsum]
    rfl
  refine hleft.trans (hfit.trans ⟨?_, ?_⟩)
  · intro hfits row' hrow' e' he'
    cases hrow.symm.trans hrow'
    cases hfound.symm.trans he'
    exact hfits
  · exact fun hall => hall row hrow e hfound

def LinesFit (e : StoredExpense) (rows : List ExpenseLineRow) : Prop :=
  (rows.map fun l => |l.lineAmount|).sum ≤ |e.amount|

theorem linesWithin_iff : t.LinesWithin ↔
    AllFit (·.id) (·.expenseId) LinesFit t.expenses t.lines := Iff.rfl

theorem linesFit_iff {e : StoredExpense} :
    linesFit e.amount (absoluteLineTotal (rows.map (·.lineAmount))) = true ↔ LinesFit e rows := by
  rw [linesFit, decide_eq_true_iff, absoluteLineTotal, List.map_map]
  rfl

theorem LinesFit.without {e : StoredExpense} {row : ExpenseLineRow} (hids : (rows.map (·.id)).Nodup)
    (hrow : row ∈ rows) (h : LinesFit e rows) :
    LinesFit e (rows.filter (·.id != row.id)) := by
  have hsum := sum_map_filter_ne (f := fun l : ExpenseLineRow => |l.lineAmount|) hids hrow
  have hnonneg := abs_nonneg row.lineAmount
  unfold LinesFit at h ⊢
  linarith

theorem Effect.linesWithin (hs : t.Sound) (hw : t.LinesWithin) (h : Effect t action t')
    (hkept : ∀ input, action ≠ .update input) : t'.LinesWithin := by
  rw [linesWithin_iff] at hw ⊢
  cases h with
  | @created _ new _ fresh under fits =>
    have hnew : AllFit (·.id) (·.expenseId) LinesFit (t.expenses ++ [new]) (t.lines ++ []) :=
      hw.insertParent hs.lines_there fresh (fun _ hl => absurd hl List.not_mem_nil)
        (abs_nonneg new.amount)
    rwa [List.append_nil] at hnew
  | updated => exact absurd rfl (hkept _)
  | @stamped _ old new found same amount other =>
    refine (hw.replaceParent_iff found same).2 ?_
    show _ ≤ |new.amount|
    rw [amount]
    exact hw old found
  | @lineAdded _ _ e row found under fits =>
    refine (hw.append_iff hs.expense_ids found fun r hr => ?_).2 (linesFit_iff.1 ?_)
    · rw [List.mem_singleton.1 hr, under]
    · rw [List.map_append]
      exact fits
  | linesSet found under fits =>
    exact (hw.set_iff hs.expense_ids found under).2 (linesFit_iff.1 fits)
  | lineRemoved found owner under =>
    refine (hw.remove_iff hs.expense_ids hs.line_ids owner found under).2 ?_
    exact (hw _ owner).without (hs.line_ids.sublist (List.filter_sublist.map _))
      (mem_childrenOf.2 ⟨found, under⟩)
  | confirmed found under fits =>
    refine (hw.append_iff hs.expense_ids found under).2 (linesFit_iff.1 ?_)
    rw [List.map_append]
    exact fits
  | created_confirmed fresh under unallocated fits =>
    exact hw.insertParent hs.lines_there fresh under (linesFit_iff.1 fits)
  | _ => exact hw

theorem update_iff (hs : t.Sound) (hw : t.LinesWithin) {input : UpdateExpenseInput}
    (h : t.update input = .ok t') : t'.LinesWithin ↔ t.NewAmountFits (.update input) := by
  have hreturns : Except.returns (t.update input) = true := by
    rw [h]
    rfl
  rw [NewAmountFits, forall_prop_of_true hreturns]
  obtain ⟨heffect, -⟩ := update_effect hs h
  generalize hact : ExpenseAction.update input = updating at heffect
  cases heffect with
  | @updated _ old new found named same amount fits =>
    cases hact
    rw [linesWithin_iff, (linesWithin_iff.1 hw).replaceParent_iff found same, ← named]
    cases hamount : input.amount with
    | none =>
      rw [hamount, Option.getD_none] at amount
      refine iff_of_true ?_ fun _ ha => by cases ha
      show _ ≤ |new.amount|
      rw [amount]
      exact hw old found
    | some a =>
      rw [hamount, Option.getD_some] at amount
      rw [← linesFit_iff, amount]
      exact ⟨fun hfits a' ha' => by cases ha'; exact hfits, fun hall => hall a rfl⟩
  | stamped found same amount other => exact absurd hact.symm (other input)
  | unchanged other => exact absurd hact.symm (other input)
  | _ => cases hact

theorem empty_sound : empty.Sound :=
  ⟨List.nodup_nil, List.nodup_nil, List.nodup_nil, List.forall_mem_nil _, List.forall_mem_nil _⟩

theorem Sound.step (hs : t.Sound) (action : ExpenseAction) : (t.step action).Sound := by
  unfold ExpenseTables.step
  cases hx : t.perform action with
  | ok t' => exact (perform_effect hs hx).2
  | error e => exact hs

theorem step_allocationsWithin_iff (hs : t.Sound) (hw : t.AllocationsWithin) :
    (t.step action).AllocationsWithin ↔ t.RemovalFits action := by
  unfold ExpenseTables.step
  cases hx : t.perform action with
  | error e =>
    refine iff_of_true hw ?_
    cases action with
    | removeAllocation id =>
      intro hreturns
      rw [show t.removeAllocation id = .error e from hx] at hreturns
      cases hreturns
    | _ => trivial
  | ok t' =>
    have hkept := (perform_effect hs hx).1.allocationsWithin hs hw
    cases action with
    | removeAllocation id => exact removeAllocation_iff hs hw hx
    | _ => exact iff_of_true (hkept fun _ hne => ExpenseAction.noConfusion hne) trivial

theorem step_linesWithin_iff (hs : t.Sound) (hw : t.LinesWithin) :
    (t.step action).LinesWithin ↔ t.NewAmountFits action := by
  unfold ExpenseTables.step
  cases hx : t.perform action with
  | error e =>
    refine iff_of_true hw ?_
    cases action with
    | update input =>
      intro hreturns
      rw [show t.update input = .error e from hx] at hreturns
      cases hreturns
    | _ => trivial
  | ok t' =>
    have hkept := (perform_effect hs hx).1.linesWithin hs hw
    cases action with
    | update input => exact update_iff hs hw hx
    | _ => exact iff_of_true (hkept fun _ hne => ExpenseAction.noConfusion hne) trivial

end ExpenseTables

end Effects

open ExpenseTables

/-- From empty tables on, every expense's allocations stay between zero and its amount exactly
when no allocation that goes leaves the others outside. -/
theorem expense_allocations_iff (actions : List ExpenseAction) :
    Runs.Along ExpenseTables.step AllocationsWithin .empty actions ↔
      Runs.Meets ExpenseTables.step RemovalFits .empty actions :=
  Runs.along_iff_meets (fun _ action (hs : Sound _) _ => hs.step action)
    (fun _ _ hs hw => step_allocationsWithin_iff hs hw) empty_sound fun _ he => by cases he

namespace SplitBill

def bill : CreateExpenseInput where
  id := 0
  expenseDate := ⟨2026, 3, 2⟩
  category := "supplies"
  currency := "USD"
  amount := 100 * moneyUnits
  allocations := [{ id := 0, amount := 120 * moneyUnits, economicEntityId := some 0 },
    { id := 1, amount := -20 * moneyUnits, economicEntityId := some 0 }]

end SplitBill

theorem rebate_line_removed : ¬ ∀ actions : List ExpenseAction,
    Runs.Along ExpenseTables.step AllocationsWithin .empty actions := by
  intro hall
  have hlast := (hall [.create SplitBill.bill, .removeAllocation 1]).last
  have hfits := fun e he => allocationsFit_iff.2 (hlast e he)
  exact absurd hfits (by decide +kernel)

/-- From empty tables on, no expense's lines exceed its amount exactly when every new amount
covers the lines there are. -/
theorem expense_lines_iff (actions : List ExpenseAction) :
    Runs.Along ExpenseTables.step LinesWithin .empty actions ↔
      Runs.Meets ExpenseTables.step NewAmountFits .empty actions :=
  Runs.along_iff_meets (fun _ action (hs : Sound _) _ => hs.step action)
    (fun _ _ hs hw => step_linesWithin_iff hs hw) empty_sound fun _ he => by cases he

theorem amount_below_lines : ¬ ∀ actions : List ExpenseAction,
    Runs.Along ExpenseTables.step LinesWithin .empty actions := by
  intro hall
  have hlast := (hall [.create { SplitBill.bill with allocations := [] },
    .addLine 0 { id := 0, lineAmount := 80 * moneyUnits },
    .update { expenseId := 0, amount := some (60 * moneyUnits) }]).last
  exact absurd hlast (by unfold LinesWithin; decide +kernel)

end Loxep

/-!
## The lines of an expense its candidates create

An expense is created for what its candidates come to, and the guard on its lines compares what
they come to without their signs. A discount among the goods therefore never fits: the expense is
smaller than its lines by twice the discount.
-/

namespace Loxep

/-- No charge among credits, and no credit among charges. -/
def OneSign (amounts : List Money) : Prop := (∀ a ∈ amounts, 0 ≤ a) ∨ ∀ a ∈ amounts, a ≤ 0

theorem linesFit_sum_iff {amounts : List Money} :
    linesFit (sumDecimals amounts) (absoluteLineTotal amounts) = true ↔ OneSign amounts := by
  rw [linesFit, decide_eq_true_iff]
  exact sum_abs_le_abs_sum_iff

namespace ExpenseTables

def confirmables (t : ExpenseTables) (input : ConfirmExpenseInput) :
    List (DocumentLineCandidateRow × Money) :=
  input.candidateIds.filterMap (t.confirmable input.documentId)

def CreatedWithLines (t : ExpenseTables) (input : ConfirmExpenseInput) : Prop :=
  ∃ t' skipped, t.confirmCandidatesAsExpense input = .ok (t', skipped)
    ∧ (∃ e ∈ t'.expenses, e.id = input.newExpenseId
      ∧ e.amount = ((t.confirmables input).map (·.2)).sum)
    ∧ (t'.linesOf input.newExpenseId).map (fun l => (l.documentLineCandidateId, l.lineAmount)) =
      (t.confirmables input).map fun c => (some c.1.id, c.2)

/-- The candidates are of one sign, none is named twice and none has a line yet. -/
structure Admissible (t : ExpenseTables) (input : ConfirmExpenseInput) : Prop where
  oneSign : OneSign ((t.confirmables input).map (·.2))
  once : ((t.confirmables input).map (·.1.id)).Nodup
  unlined : ∀ c ∈ t.confirmables input, ∀ l ∈ t.lines, l.documentLineCandidateId ≠ some c.1.id

section Insert

variable {t t' created : ExpenseTables} {input : ConfirmExpenseInput} {document : DocumentRow}
variable {cs : List (DocumentLineCandidateRow × Money)} {e : StoredExpense}

theorem check_lines_iff (hc : check t = .ok t) {rows : List ExpenseLineRow} :
    check { t with lines := t.lines ++ rows } = .ok { t with lines := t.lines ++ rows } ↔
      ((t.lines ++ rows).map (·.id)).Nodup
        ∧ ((t.lines ++ rows).map fun l => (l.expenseId, l.lineNumber)).Nodup
        ∧ ((t.lines ++ rows).filterMap (·.documentLineCandidateId)).Nodup
        ∧ ∀ l ∈ t.lines ++ rows, l.expenseId ∈ t.expenses.map (·.id) := by
  simp only [check, Except.bind_eq_ok, Except.require_eq_ok, Except.pure_eq_ok, exists_const,
    and_true] at hc ⊢
  obtain ⟨hids, hcodes, hamounts, haids, hakeys, haamounts, -, -, -, ha, -⟩ := hc
  refine ⟨?_, ?_⟩
  · rintro ⟨-, -, -, -, -, -, hlids, hkeys, hcandidates, -, hthere⟩
    exact ⟨hlids, hkeys, hcandidates, hthere⟩
  · rintro ⟨hlids, hkeys, hcandidates, hthere⟩
    exact ⟨hids, hcodes, hamounts, haids, hakeys, haamounts, hlids, hkeys, hcandidates, ha, hthere⟩

def candidateRow (input : ConfirmExpenseInput) (id : FactId) (index : ℕ)
    (c : DocumentLineCandidateRow × Money) : ExpenseLineRow where
  id := input.firstLineId + index
  expenseId := id
  lineNumber := 1 + index
  description := c.1.description
  quantity := c.1.quantity
  unitAmount := c.1.unitAmount
  lineAmount := c.2
  lineKind := .item
  documentLineCandidateId := some c.1.id
  note := none

theorem lineRows_confirmed :
    lineRows e.id (confirmedLines input cs) 1 = cs.mapIdx (candidateRow input e.id) := by
  rw [lineRows, confirmedLines, List.mapIdx_mapIdx]
  rfl

theorem candidateRows_read :
    (cs.mapIdx (candidateRow input e.id)).map (fun l => (l.documentLineCandidateId, l.lineAmount)) =
      cs.map fun c => (some c.1.id, c.2) := by
  refine map_mapIdx_eq_map (fun _ _ => ?_) cs
  rfl

theorem candidateRows_candidates :
    (cs.mapIdx (candidateRow input e.id)).filterMap (·.documentLineCandidateId) =
      cs.map (·.1.id) := by
  have hids : (cs.mapIdx (candidateRow input e.id)).map (·.documentLineCandidateId) =
      (cs.map (·.1.id)).map some := by
    rw [List.map_map]
    refine map_mapIdx_eq_map (fun _ _ => ?_) cs
    rfl
  have hsome := congrArg (List.filterMap id) hids
  rw [List.filterMap_map, List.filterMap_map, Function.id_comp, Function.id_comp,
    List.filterMap_some] at hsome
  exact hsome

theorem check_candidateRows_iff (hc : check t = .ok t) (he : e.id ∈ t.expenses.map (·.id))
    (hnone : ∀ l ∈ t.lines, l.expenseId ≠ e.id)
    (hdrawn : ∀ index < cs.length, input.firstLineId + index ∉ t.lines.map (·.id)) :
    check { t with lines := t.lines ++ cs.mapIdx (candidateRow input e.id) } =
        .ok { t with lines := t.lines ++ cs.mapIdx (candidateRow input e.id) } ↔
      (cs.map (·.1.id)).Nodup
        ∧ ∀ c ∈ cs, ∀ l ∈ t.lines, l.documentLineCandidateId ≠ some c.1.id := by
  have hthere := @check_lines_iff t hc []
  rw [List.append_nil] at hthere
  obtain ⟨hids, hkeys, hcandidates, howners⟩ := hthere.1 hc
  have hnewIds : ((t.lines ++ cs.mapIdx (candidateRow input e.id)).map (·.id)).Nodup := by
    rw [List.map_append, map_mapIdx]
    refine hids.append (nodup_mapIdx (fun i j _ _ h => Nat.add_left_cancel h) cs) ?_
    intro id hid hnew
    obtain ⟨index, hlt, rfl⟩ := List.mem_mapIdx.1 hnew
    exact hdrawn index hlt hid
  have hnewKeys : ((t.lines ++ cs.mapIdx (candidateRow input e.id)).map
      fun l => (l.expenseId, l.lineNumber)).Nodup := by
    rw [List.map_append, map_mapIdx]
    refine hkeys.append (nodup_mapIdx (fun i j _ _ h => ?_) cs) ?_
    · exact Nat.add_left_cancel (Prod.ext_iff.1 h).2
    · intro key hkey hnew
      obtain ⟨l, hl, rfl⟩ := List.mem_map.1 hkey
      obtain ⟨index, hlt, heq⟩ := List.mem_mapIdx.1 hnew
      exact hnone l hl (Prod.ext_iff.1 heq).1.symm
  have hnewOwners : ∀ l ∈ t.lines ++ cs.mapIdx (candidateRow input e.id),
      l.expenseId ∈ t.expenses.map (·.id) := by
    rw [List.forall_mem_append]
    refine ⟨howners, fun l hl => ?_⟩
    obtain ⟨index, hlt, rfl⟩ := List.mem_mapIdx.1 hl
    exact he
  rw [check_lines_iff hc, and_iff_right hnewIds, and_iff_right hnewKeys, and_iff_left hnewOwners,
    List.filterMap_append, candidateRows_candidates, List.nodup_append, and_iff_right hcandidates]
  refine and_congr_right fun _ => ⟨?_, ?_⟩
  · intro h c hc l hl hlc
    exact h c.1.id (List.mem_filterMap.2 ⟨l, hl, hlc⟩) c.1.id (List.mem_map.2 ⟨c, hc, rfl⟩) rfl
  · intro h id hid id' hid' heq
    obtain ⟨l, hl, hlc⟩ := List.mem_filterMap.1 hid
    obtain ⟨c, hc, rfl⟩ := List.mem_map.1 hid'
    exact h c hc l hl (heq ▸ hlc)

theorem confirmOnto_created_iff (hs : t.Sound) (hnew : input.expenseId = none)
    (htarget : t.confirmTarget input document cs = .ok (created, e))
    (hdrawn : ∀ index < cs.length, input.firstLineId + index ∉ t.lines.map (·.id)) :
    t.confirmOnto input document cs = .ok t' ↔
      (OneSign (cs.map (·.2)) ∧ (cs.map (·.1.id)).Nodup
        ∧ ∀ c ∈ cs, ∀ l ∈ t.lines, l.documentLineCandidateId ≠ some c.1.id)
      ∧ { t with
          expenses := t.expenses ++ [e]
          lines := t.lines ++ cs.mapIdx (candidateRow input e.id)
          candidates := cs.foldl (fun candidates c =>
            stampCandidate candidates c.1.id input.now .expense e.id) t.candidates } = t' := by
  obtain ⟨-, hamount, hfresh, -, rfl, hc⟩ := confirmTarget_created hnew htarget
  have hlines := linesOf_created hs hfresh
  have he : e.id ∈ (t.expenses ++ [e]).map (·.id) :=
    List.mem_map_of_mem (List.mem_append_right _ (List.mem_singleton_self e))
  have hnone : ∀ l ∈ t.lines, l.expenseId ≠ e.id :=
    fun l hl hid => hfresh (hid ▸ hs.lines_there l hl)
  have hcheck := check_candidateRows_iff hc he hnone hdrawn
  have hrows : lineRows e.id (confirmedLines input cs)
      ((existingLineAmounts { t with expenses := t.expenses ++ [e] } e.id).length + 1) =
        cs.mapIdx (candidateRow input e.id) := by
    rw [existingLineAmounts, hlines, ← lineRows_confirmed]
    rfl
  have hfits : linesFit e.amount (absoluteLineTotal
      (existingLineAmounts { t with expenses := t.expenses ++ [e] } e.id ++ cs.map (·.2))) =
        true ↔ OneSign (cs.map (·.2)) := by
    rw [existingLineAmounts, hlines, List.map_nil, List.nil_append, hamount]
    exact linesFit_sum_iff
  simp only [confirmOnto, htarget, Except.bind_eq_ok, Except.ok.injEq, Except.require_eq_ok,
    Except.pure_eq_ok, insertExpenseLinesRaw]
  constructor
  · rintro ⟨_, rfl, _, hone, inserted, hinsert, rfl⟩
    rw [hrows] at hinsert
    obtain ⟨rfl, -⟩ := check_eq_ok hinsert
    exact ⟨⟨hfits.1 hone, hcheck.1 hinsert⟩, rfl⟩
  · rintro ⟨⟨hone, hlined⟩, rfl⟩
    have hinsert := hcheck.2 hlined
    rw [← hrows] at hinsert ⊢
    exact ⟨_, rfl, (), hfits.2 hone, _, hinsert, rfl⟩

theorem linesOf_confirmed (hs : t.Sound) (hfresh : e.id ∉ t.expenses.map (·.id)) :
    childrenOf (·.expenseId) (t.lines ++ cs.mapIdx (candidateRow input e.id)) e.id =
      cs.mapIdx (candidateRow input e.id) := by
  have hunder : ∀ l ∈ cs.mapIdx (candidateRow input e.id), l.expenseId = e.id := by
    intro l hl
    obtain ⟨index, hlt, rfl⟩ := List.mem_mapIdx.1 hl
    rfl
  have hnone : childrenOf (·.expenseId) t.lines e.id = [] := linesOf_created hs hfresh
  rw [childrenOf_append_eq hunder, hnone, List.nil_append]

theorem confirmCandidatesAsExpense_eq_ok
    (hdocument : t.documents.find? (·.id == input.documentId) = some document)
    (hsome : t.confirmables input ≠ []) {skipped : ℕ} :
    t.confirmCandidatesAsExpense input = .ok (t', skipped) ↔
      t.confirmOnto input document (t.confirmables input) = .ok t'
        ∧ input.candidateIds.length - (t.confirmables input).length = skipped := by
  have hids : input.candidateIds ≠ [] := by
    intro hnil
    rw [confirmables, hnil] at hsome
    exact hsome rfl
  have hempty : ¬ ((t.confirmables input).isEmpty = true ∧ input.expenseId = none) :=
    fun h => hsome (List.isEmpty_iff.1 h.1)
  unfold confirmables at hempty ⊢
  simp only [confirmCandidatesAsExpense, Except.bind_eq_ok, Except.require_eq_ok, hdocument,
    hempty, if_false, Except.map_eq_ok, Prod.mk.injEq, exists_const, and_iff_right hids]
  constructor
  · rintro ⟨_, hok, rfl, hskipped⟩
    exact ⟨hok, hskipped⟩
  · rintro ⟨hok, hskipped⟩
    exact ⟨t', hok, rfl, hskipped⟩

end Insert

end ExpenseTables

open ExpenseTables

/-- Wherever calls have led, candidates whose total makes an expense get it with a line for each
exactly when they are of one sign, none is named twice and none has a line yet. -/
theorem confirmed_lines_iff (actions : List ExpenseAction) {t : ExpenseTables}
    (hrun : Runs.run ExpenseTables.step .empty actions = t) {input : ConfirmExpenseInput}
    (hnew : input.expenseId = none) {document : DocumentRow}
    (hdocument : t.documents.find? (·.id == input.documentId) = some document)
    (hsome : t.confirmables input ≠ [])
    (hcreate : Except.returns (t.confirmTarget input document (t.confirmables input)) = true)
    (hdrawn : ∀ index < (t.confirmables input).length,
      input.firstLineId + index ∉ t.lines.map (·.id)) :
    t.CreatedWithLines input ↔ t.Admissible input := by
  have hstep : ∀ (s : ExpenseTables) action, s.Sound → (s.step action).Sound :=
    fun _ action hs => hs.step action
  have hs : t.Sound := hrun ▸ (Runs.along_of_step hstep empty_sound).last
  obtain ⟨⟨created, e⟩, htarget⟩ := Except.returns_iff.1 hcreate
  obtain ⟨hid, hamount, hfresh, -⟩ := confirmTarget_created hnew htarget
  have honto := @confirmOnto_created_iff t
  constructor
  · rintro ⟨t', skipped, hok, -, -⟩
    have hok := (confirmCandidatesAsExpense_eq_ok hdocument hsome).1 hok
    obtain ⟨⟨hone, honce, hunlined⟩, -⟩ := (honto hs hnew htarget hdrawn).1 hok.1
    exact ⟨hone, honce, hunlined⟩
  · rintro ⟨hone, honce, hunlined⟩
    have hok := (honto hs hnew htarget hdrawn).2 ⟨⟨hone, honce, hunlined⟩, rfl⟩
    refine ⟨_, _, (confirmCandidatesAsExpense_eq_ok hdocument hsome).2 ⟨hok, rfl⟩,
      ⟨e, ?_, hid, hamount⟩, ?_⟩
    · exact List.mem_append_right _ (List.mem_singleton_self e)
    · rw [← hid, linesOf]
      show List.map _ (childrenOf _ (t.lines ++ _) e.id) = _
      rw [linesOf_confirmed hs hfresh, candidateRows_read]

namespace Receipt

def document : DocumentRow where
  id := 1
  currency := some "USD"
  documentDate := some ⟨2026, 3, 2⟩
  counterpartyName := none

def line (id : CandidateId) (lineAmount : Money) : DocumentLineCandidateRow where
  id := id
  documentId := 1
  description := none
  quantity := none
  unitAmount := none
  lineAmount := some (lineAmount * moneyUnits)
  lineDate := none
  disposition := .expense
  confirmedAt := none
  targetKind := none
  targetId := none

def staged (second : Money) : List ExpenseAction :=
  [.elsewhere [] [document] [line 1 10, line 2 second]]

def tables (second : Money) : ExpenseTables := Runs.run ExpenseTables.step .empty (staged second)

def confirmation : ConfirmExpenseInput where
  documentId := 1
  candidateIds := [1, 2]
  category := some "supplies"
  paymentMethod := some "card"
  now := ⟨⟨2026, 3, 2⟩, 0⟩
  newExpenseId := 0
  firstLineId := 0

end Receipt

open Receipt in
theorem goods_lined : (tables 3).CreatedWithLines confirmation := by
  refine (confirmed_lines_iff (staged 3) rfl rfl rfl (by decide +kernel) (by decide +kernel)
    (by decide +kernel)).2 ⟨.inl ?_, ?_, ?_⟩
  · decide +kernel
  · decide +kernel
  · exact fun _ _ _ hl => absurd hl List.not_mem_nil

open Receipt in
theorem coupon_refused : ¬ ∀ (actions : List ExpenseAction) (t : ExpenseTables),
    Runs.run ExpenseTables.step .empty actions = t → ∀ input : ConfirmExpenseInput,
      input.expenseId = none → (t.confirmables input).map (·.1.id) = input.candidateIds →
      input.candidateIds.Nodup → t.lines = [] →
      (∃ document ∈ t.documents.find? (·.id == input.documentId),
        Except.returns (t.confirmTarget input document (t.confirmables input)) = true) →
      t.CreatedWithLines input := by
  intro hall
  obtain ⟨t', skipped, hok, -⟩ := hall (staged (-3)) (tables (-3)) rfl confirmation rfl
    (by decide +kernel) (by decide +kernel) rfl ⟨document, rfl, by decide +kernel⟩
  have hraises : Except.returns ((tables (-3)).confirmCandidatesAsExpense confirmation) =
      false := by
    decide +kernel
  rw [hok] at hraises
  cases hraises

end Loxep

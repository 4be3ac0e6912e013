import Loxep.Documents
import Loxep.Lib.ChildRows

/-!
# Expenses and their allocations

Only a draft may be edited. Its allocations are signed shares of its amount, which together lie
between zero and the amount: what is added, set or created is checked against the amount, and a
new amount is checked against the allocations there are.
-/

namespace Loxep

abbrev CounterpartyId := ℕ
abbrev ExpenseAllocationId := ℕ
abbrev ExpenseLineId := ℕ

structure CounterpartyNameRow where
  id : CounterpartyId
  displayName : String

/-- A row of `expenses`, with its link to the payee. -/
structure StoredExpense extends ExpenseRow where
  payeeCounterpartyId : Option CounterpartyId

/-- A row of `expense_allocations`. -/
structure StoredAllocation extends ExpenseAllocationRow where
  id : ExpenseAllocationId
  acquisitionId : Option ℕ
  catalogItemId : Option ℕ
  channel : Option String
  note : Option String

inductive ExpenseLineKind
  | item
  | shipping
  | tax
  | fee
  | discount
  | other

structure ExpenseLineRow where
  id : ExpenseLineId
  expenseId : FactId
  lineNumber : ℕ
  description : Option String
  quantity : Option Money
  unitAmount : Option Money
  lineAmount : Money
  lineKind : ExpenseLineKind
  documentLineCandidateId : Option CandidateId
  note : Option String

structure ExpenseTables where
  counterparties : List CounterpartyNameRow
  expenses : List StoredExpense
  allocations : List StoredAllocation
  lines : List ExpenseLineRow
  documents : List DocumentRow
  candidates : List DocumentLineCandidateRow

/-! ## Inputs -/

structure AllocationInput where
  id : ExpenseAllocationId
  lineNumber : Option ℕ := none
  amount : Money
  economicEntityId : Option EntityId := none
  acquisitionId : Option ℕ := none
  catalogItemId : Option ℕ := none
  channel : Option String := none
  ledgerAccountId : Option AccountId := none
  dimensionValueId : Option DimensionValueId := none
  note : Option String := none

def AllocationInput.namesTarget (a : AllocationInput) : Bool :=
  a.economicEntityId.isSome || a.acquisitionId.isSome || a.catalogItemId.isSome ||
    a.channel.isSome || a.ledgerAccountId.isSome || a.dimensionValueId.isSome

/-- An omitted entity falls through to the default; an explicit `null` does not. -/
structure CreateExpenseInput where
  id : FactId
  economicEntityId : Option (Option EntityId) := none
  installationDefaultEntityId : Option EntityId := none
  referenceCode : Option String := none
  expenseDate : CalendarDate
  payeeName : Option String := none
  payeeCounterpartyId : Option CounterpartyId := none
  category : String
  currency : String
  amount : Money
  taxAmount : Money := 0
  acquisitionCostId : Option FactId := none
  recorded : Bool := false
  allocations : List AllocationInput := []

/-- An omitted field is left as it is; an explicit `null` clears it. -/
structure UpdateExpenseInput where
  expenseId : FactId
  expenseDate : Option CalendarDate := none
  payeeName : Option (Option String) := none
  payeeCounterpartyId : Option (Option CounterpartyId) := none
  category : Option String := none
  currency : Option String := none
  amount : Option Money := none
  taxAmount : Option Money := none
  acquisitionCostId : Option (Option FactId) := none

def parseAllocation (path : String) (a : AllocationInput) : Result Unit := do
  Except.require (∀ n ∈ a.lineNumber, 0 < n)
    (AccountingError.validation s!"invalid expense input: {path}lineNumber")
  Except.require (a.namesTarget = true)
    (AccountingError.validation (s!"invalid expense input: {path}economicEntityId: an " ++
      "allocation must name at least one target — entity, acquisition, catalog item, " ++
      "channel, ledger account, or dimension value (expense_allocations_target_check). " ++
      "Targets are orthogonal, so naming several is allowed and naming none is not: a split " ++
      "toward nothing is not an attribution."))

/-! ## Arithmetic -/

def allocationsFit (amount allocated : Money) : Bool :=
  if isNegative amount then decide (allocated ≤ 0) && decide (amount ≤ allocated)
  else decide (0 ≤ allocated) && decide (allocated ≤ amount)

def unallocatedRemainder (amount allocated : Money) : Money := amount - allocated

example : allocationsFit 100 120 = false ∧ allocationsFit (-40) (-30) = true := by decide

/-! ## The tables -/

namespace ExpenseTables

def empty : ExpenseTables := ⟨[], [], [], [], [], []⟩

variable (t : ExpenseTables)

def findExpense (id : FactId) : Option StoredExpense := t.expenses.find? (·.id == id)

def findAllocation (id : ExpenseAllocationId) : Option StoredAllocation :=
  t.allocations.find? (·.id == id)

def allocationsOf (id : FactId) : List StoredAllocation :=
  childrenOf (·.expenseId) t.allocations id

def allocatedTotal (id : FactId) : Money := sumDecimals ((t.allocationsOf id).map (·.amount))

def loadExpense (id : FactId) : Result StoredExpense :=
  match t.findExpense id with
  | some e => .ok e
  | none => .error (.notFound s!"unknown expense \"{id}\"")

def resolvePayeeDisplayName (id : CounterpartyId) : Result String :=
  match t.counterparties.find? (·.id == id) with
  | some c => .ok c.displayName
  | none => .error (.notFound s!"unknown payee counterparty \"{id}\"")

def payeeNameFor (payee : Option CounterpartyId) (otherwise : Option String) :
    Result (Option String) :=
  match payee with
  | some payee => (t.resolvePayeeDisplayName payee).map some
  | none => .ok otherwise

def check : Result ExpenseTables := do
  Except.require (t.expenses.map (·.id)).Nodup (AccountingError.database "expenses_pkey")
  Except.require (t.expenses.map (·.referenceCode)).Nodup
    (AccountingError.database "expenses_reference_code_uq")
  Except.require (∀ e ∈ t.expenses, e.amount ≠ 0) (AccountingError.database "expenses_amount_check")
  Except.require (t.allocations.map (·.id)).Nodup
    (AccountingError.database "expense_allocations_pkey")
  Except.require (t.allocations.map fun a => (a.expenseId, a.lineNumber)).Nodup
    (AccountingError.database "expense_allocations_expense_line_uq")
  Except.require (∀ a ∈ t.allocations, a.amount ≠ 0)
    (AccountingError.database "expense_allocations_amount_check")
  Except.require (t.lines.map (·.id)).Nodup (AccountingError.database "expense_lines_pkey")
  Except.require (t.lines.map fun l => (l.expenseId, l.lineNumber)).Nodup
    (AccountingError.database "expense_lines_expense_line_uq")
  Except.require (t.lines.filterMap (·.documentLineCandidateId)).Nodup
    (AccountingError.database "expense_lines_document_line_candidate_uq")
  Except.require (∀ a ∈ t.allocations, a.expenseId ∈ t.expenses.map (·.id))
    (AccountingError.database "expense_allocations_expense_id_expenses_id_fk")
  Except.require (∀ l ∈ t.lines, l.expenseId ∈ t.expenses.map (·.id))
    (AccountingError.database "expense_lines_expense_id_expenses_id_fk")
  return t

/-- PostgreSQL's 23505, by the constraint that raised it. -/
def isUniqueViolation (e : AccountingError) : Bool :=
  e.errorClass == .database && ["expenses_pkey", "expenses_reference_code_uq",
    "expense_allocations_pkey", "expense_allocations_expense_line_uq", "expense_lines_pkey",
    "expense_lines_expense_line_uq",
    "expense_lines_document_line_candidate_uq"].contains e.message

/-- Five attempts on the same tables end the same way. -/
def withCodeRetry {α : Type} (label : String) (attempt : Result α) : Result α :=
  match attempt with
  | .ok a => .ok a
  | .error e =>
    if isUniqueViolation e then
      .error (.conflict s!"could not generate a unique {label} after 5 attempts: {e.message}")
    else .error e

end ExpenseTables

def expenseReferenceCode (year sequence : ℕ) : String := s!"EXP-{year}-{padZeros 4 sequence}"

/-- The sequence of a code of the year, matched by `^EXP-[0-9]{4}-([0-9]+)$`. -/
def codeSequence (year : ℕ) (code : String) : Option ℕ :=
  let codePrefix := s!"EXP-{year}-".toList
  let digits := code.toList.drop codePrefix.length
  if codePrefix.isPrefixOf code.toList && codePrefix.length == 9 && digits != [] &&
      digits.all Char.isDigit then
    some (digits.foldl (fun n c => 10 * n + (c.toNat - '0'.toNat)) 0)
  else none

def resolveExpenseAttribution (explicitEntityId : Option (Option EntityId))
    (installationDefaultEntityId : Option EntityId) : Option EntityId :=
  match explicitEntityId with
  | some entity => entity
  | none => installationDefaultEntityId

def assertEditable (e : StoredExpense) : Result Unit :=
  Except.require (e.status = .draft)
    (AccountingError.notEditable (s!"expense \"{e.referenceCode}\" is {e.status.text}, not " ++
      "draft: only a draft expense may be edited. A recorded expense is evidence; correct it " ++
      "by voiding it and recording the corrected fact, which is the same posture the ledger " ++
      "takes for a posted entry."))

def assertFits (e : StoredExpense) (allocated : Money) (context : String) : Result Unit :=
  Except.require (allocationsFit e.amount allocated = true)
    (AccountingError.overAllocated (s!"{context}: allocations would total " ++
      s!"{formatDecimal allocated} {e.currency} against an expense of " ++
      s!"{formatDecimal e.amount} {e.currency} (reference {e.referenceCode}). " ++
      "Under-allocation is a draft; over-allocation is arithmetic no later edit can make true."))

/-! ## The service -/

namespace ExpenseTables

variable (t : ExpenseTables)

def generateReferenceCode (year : ℕ) : String :=
  expenseReferenceCode year
    (((t.expenses.filterMap fun e => codeSequence year e.referenceCode).foldl max 0) + 1)

def allocationRows (expenseId : FactId) (allocations : List AllocationInput) (startingLine : ℕ)
    : List StoredAllocation :=
  allocations.mapIdx fun index a =>
    { id := a.id
      expenseId := expenseId
      lineNumber := a.lineNumber.getD (startingLine + index)
      ledgerAccountId := a.ledgerAccountId
      amount := a.amount
      economicEntityId := a.economicEntityId
      dimensionValueId := a.dimensionValueId
      acquisitionId := a.acquisitionId
      catalogItemId := a.catalogItemId
      channel := a.channel
      note := a.note }

def insertAllocations (expenseId : FactId) (allocations : List AllocationInput) (startingLine : ℕ)
    : Result ExpenseTables :=
  check { t with allocations := t.allocations ++ allocationRows expenseId allocations startingLine }

def insertExpense (new : StoredExpense) : Result ExpenseTables :=
  check { t with expenses := t.expenses ++ [new] }

def updateExpense (id : FactId) (new : StoredExpense) : Result ExpenseTables :=
  check { t with expenses := replaceRow (·.id) t.expenses id new }

def create (input : CreateExpenseInput) : Result ExpenseTables := do
  (input.allocations.zipIdx).forM fun a => parseAllocation s!"allocations.{a.2}." a.1
  let currency := input.currency.toUpper
  let allocated := sumDecimals (input.allocations.map (·.amount))
  Except.require (allocationsFit input.amount allocated = true)
    (AccountingError.overAllocated (s!"cannot create an expense of " ++
      s!"{formatDecimal input.amount} {currency} with allocations totalling " ++
      s!"{formatDecimal allocated} {currency}"))
  withCodeRetry "expense reference code" do
    let referenceCode :=
      input.referenceCode.getD (t.generateReferenceCode input.expenseDate.year)
    let payeeName ← t.payeeNameFor input.payeeCounterpartyId input.payeeName
    let inserted ← t.insertExpense
      { id := input.id
        referenceCode := referenceCode
        category := input.category
        status := if input.recorded then .recorded else .draft
        currency := currency
        amount := input.amount
        taxAmount := input.taxAmount
        expenseDate := input.expenseDate
        payeeName := payeeName
        economicEntityId :=
          resolveExpenseAttribution input.economicEntityId input.installationDefaultEntityId
        accountingBookId := none
        acquisitionCostId := input.acquisitionCostId
        payeeCounterpartyId := input.payeeCounterpartyId }
    inserted.insertAllocations input.id input.allocations 1

def assertNewAmountFits (before : StoredExpense) (amount : Option Money) : Result Unit :=
  match amount with
  | none => .ok ()
  | some amount => assertFits { before with amount := amount } (t.allocatedTotal before.id)
      s!"cannot change the amount of expense \"{before.referenceCode}\""

def update (input : UpdateExpenseInput) : Result ExpenseTables := do
  let before ← t.loadExpense input.expenseId
  assertEditable before
  let payeeName ← t.payeeNameFor input.payeeCounterpartyId.join
    (input.payeeName.getD before.payeeName)
  let count := (t.allocationsOf before.id).length
  let currency := (input.currency.map String.toUpper).getD before.currency
  Except.require (currency = before.currency ∨ count = 0)
    (AccountingError.validation ("cannot change the currency of expense " ++
      s!"\"{before.referenceCode}\" from {before.currency} to {currency} while {count} " ++
      "allocation(s) exist: allocations carry no currency of their own and are denominated in " ++
      "the expense's, so the change would silently redenominate every one of them. Clear the " ++
      "allocations first."))
  t.assertNewAmountFits before input.amount
  t.updateExpense before.id { before with
    expenseDate := input.expenseDate.getD before.expenseDate
    payeeName := payeeName
    payeeCounterpartyId := input.payeeCounterpartyId.getD before.payeeCounterpartyId
    category := input.category.getD before.category
    currency := currency
    amount := input.amount.getD before.amount
    taxAmount := input.taxAmount.getD before.taxAmount
    acquisitionCostId := input.acquisitionCostId.getD before.acquisitionCostId }

def submit (id : FactId) : Result ExpenseTables := do
  let before ← t.loadExpense id
  Except.require (before.status = .draft)
    (AccountingError.notEditable (s!"expense \"{before.referenceCode}\" is already " ++
      s!"{before.status.text}; only a draft may be submitted"))
  t.updateExpense before.id { before with status := .recorded }

def voidExpense (id : FactId) (reason : String) : Result ExpenseTables := do
  Except.require (trim reason ≠ "")
    (AccountingError.validation ("voiding an expense requires a reason: the row is kept rather " ++
      "than deleted precisely so that the record of the mistake survives, and a void with no " ++
      "reason keeps the row and loses the point"))
  let before ← t.loadExpense id
  Except.require (before.status ≠ .posted)
    (AccountingError.notEditable (s!"expense \"{before.referenceCode}\" is posted; a posted " ++
      "fact is corrected by a reversing entry in the ledger, not by voiding the source. Only a " ++
      "posting engine sets this status, so nothing in this milestone can reach it."))
  if before.status = .void then .ok t
  else t.updateExpense before.id { before with status := .void }

def promoteToAcquisitionCost (id : FactId) (acquisitionCostId : FactId) (reason : String) :
    Result ExpenseTables := do
  Except.require (trim reason ≠ "")
    (AccountingError.validation ("promoting an expense to an acquisition cost requires a " ++
      "reason: the row is kept rather than deleted precisely so that the record of the mistake " ++
      "survives, and a promotion with no reason keeps the row and loses the point"))
  let before ← t.loadExpense id
  Except.require (before.status ≠ .posted)
    (AccountingError.notEditable (s!"expense \"{before.referenceCode}\" is posted; a posted " ++
      "fact is corrected by a reversing entry in the ledger, not by voiding the source. Only a " ++
      "posting engine sets this status, so nothing in this milestone can reach it."))
  Except.require (before.status ≠ .void)
    (AccountingError.notEditable (s!"expense \"{before.referenceCode}\" is already void; " ++
      "promotion happens in the same action as voiding, not as a follow-up on a row already " ++
      "voided for some other reason — a voided row is frozen evidence and its " ++
      "acquisition_cost_id is not a field a later edit rewrites"))
  t.updateExpense before.id
    { before with status := .void, acquisitionCostId := some acquisitionCostId }

def linkPayee (id : FactId) (payeeCounterpartyId : Option CounterpartyId) :
    Result ExpenseTables := do
  let before ← t.loadExpense id
  Except.require (before.status ≠ .void)
    (AccountingError.notEditable (s!"expense \"{before.referenceCode}\" is void; a voided row " ++
      "is frozen evidence of a mistake and its correction path is void-and-re-record, not a " ++
      "follow-up edit"))
  let payeeName ← t.payeeNameFor payeeCounterpartyId before.payeeName
  t.updateExpense before.id
    { before with payeeCounterpartyId := payeeCounterpartyId, payeeName := payeeName }

def setAllocations (id : FactId) (allocations : List AllocationInput) :
    Result ExpenseTables := do
  let expense ← t.loadExpense id
  assertEditable expense
  allocations.forM (parseAllocation "")
  assertFits expense (sumDecimals (allocations.map (·.amount)))
    s!"cannot allocate expense \"{expense.referenceCode}\""
  insertAllocations { t with allocations := t.allocations.filter (·.expenseId != expense.id) }
    expense.id allocations 1

def addAllocation (id : FactId) (allocation : AllocationInput) : Result ExpenseTables := do
  let expense ← t.loadExpense id
  assertEditable expense
  parseAllocation "" allocation
  let existing := t.allocatedTotal expense.id
  assertFits expense (sumDecimals [existing, allocation.amount])
    s!"cannot add an allocation to expense \"{expense.referenceCode}\""
  let line := allocation.lineNumber.getD
    (((t.allocationsOf expense.id).map (·.lineNumber)).foldl max 0 + 1)
  t.insertAllocations expense.id [{ allocation with lineNumber := some line }] line

def removeAllocation (id : ExpenseAllocationId) : Result ExpenseTables :=
  match t.findAllocation id with
  | none => .error (.notFound s!"unknown expense allocation \"{id}\"")
  | some row => do
    let expense ← t.loadExpense row.expenseId
    assertEditable expense
    check { t with allocations := t.allocations.filter (·.id != id) }

end ExpenseTables

/-!
## Expense lines, and candidates confirmed as an expense

A line is what was bought. The lines' absolute amounts together stay within the expense's: what is
added, set or confirmed is checked against the amount.
-/

structure ExpenseLineInput where
  id : ExpenseLineId
  lineNumber : Option ℕ := none
  description : Option String := none
  quantity : Option Money := none
  unitAmount : Option Money := none
  lineAmount : Money
  lineKind : ExpenseLineKind := .item
  documentLineCandidateId : Option CandidateId := none
  note : Option String := none

def parseExpenseLine (path : String) (l : ExpenseLineInput) : Result Unit :=
  Except.require (∀ n ∈ l.lineNumber, 0 < n)
    (AccountingError.validation s!"invalid expense line input: {path}lineNumber")

def absoluteLineTotal (lineAmounts : List Money) : Money :=
  sumDecimals (lineAmounts.map absDecimal)

def linesFit (expenseAmount absoluteTotal : Money) : Bool :=
  decide (absoluteTotal ≤ absDecimal expenseAmount)

def assertDraft (e : StoredExpense) : Result Unit :=
  Except.require (e.status = .draft)
    (AccountingError.notEditable (s!"expense \"{e.referenceCode}\" is {e.status.text}, not " ++
      "draft: lines may only be added, removed, or replaced on a draft expense — the same " ++
      "lock allocations already carry. A recorded expense is evidence; correct it by voiding " ++
      "and re-recording."))

def assertLinesFit (e : StoredExpense) (absoluteTotal : Money) (context : String) : Result Unit :=
  Except.require (linesFit e.amount absoluteTotal = true)
    (AccountingError.overTranscribed (s!"{context}: lines would total " ++
      s!"{formatDecimal absoluteTotal} (absolute) against an expense of " ++
      s!"{formatDecimal e.amount} (reference {e.referenceCode}). Under-transcription is a " ++
      "draft; exceeding the expense is arithmetic no later edit can make true."))

structure ConfirmExpenseInput where
  documentId : DocumentId
  candidateIds : List CandidateId
  expenseId : Option FactId := none
  category : Option String := none
  paymentMethod : Option String := none
  economicEntityId : Option EntityId := none
  payeeCounterpartyId : Option CounterpartyId := none
  payeeName : Option String := none
  currency : Option String := none
  defaultCurrency : String := "USD"
  expenseDate : Option CalendarDate := none
  recorded : Bool := true
  now : Timestamp
  newExpenseId : FactId
  firstLineId : ExpenseLineId

namespace ExpenseTables

variable (t : ExpenseTables)

def findLine (id : ExpenseLineId) : Option ExpenseLineRow := t.lines.find? (·.id == id)

def linesOf (id : FactId) : List ExpenseLineRow := childrenOf (·.expenseId) t.lines id

def existingLineAmounts (id : FactId) : List Money := (t.linesOf id).map (·.lineAmount)

def lineRows (expenseId : FactId) (lines : List ExpenseLineInput) (startingLine : ℕ) :
    List ExpenseLineRow :=
  lines.mapIdx fun index l =>
    { id := l.id
      expenseId := expenseId
      lineNumber := l.lineNumber.getD (startingLine + index)
      description := l.description
      quantity := l.quantity
      unitAmount := l.unitAmount
      lineAmount := l.lineAmount
      lineKind := l.lineKind
      documentLineCandidateId := l.documentLineCandidateId
      note := l.note }

def insertExpenseLinesRaw (expenseId : FactId) (lines : List ExpenseLineInput) (startingLine : ℕ)
    : Result ExpenseTables :=
  check { t with lines := t.lines ++ lineRows expenseId lines startingLine }

def addLine (expenseId : FactId) (line : ExpenseLineInput) : Result ExpenseTables := do
  parseExpenseLine "" line
  let expense ← t.loadExpense expenseId
  assertDraft expense
  assertLinesFit expense
    (absoluteLineTotal (t.existingLineAmounts expenseId ++ [line.lineAmount]))
    s!"cannot add a line to expense \"{expense.referenceCode}\""
  let lineNumber := line.lineNumber.getD
    (((t.linesOf expenseId).map (·.lineNumber)).foldl max 0 + 1)
  t.insertExpenseLinesRaw expenseId [{ line with lineNumber := some lineNumber }] lineNumber

def removeLine (id : ExpenseLineId) : Result ExpenseTables :=
  match t.findLine id with
  | none => .error (.notFound s!"unknown expense line \"{id}\"")
  | some row => do
    let expense ← t.loadExpense row.expenseId
    assertDraft expense
    check { t with lines := t.lines.filter (·.id != id) }

def setLines (expenseId : FactId) (lines : List ExpenseLineInput) : Result ExpenseTables := do
  (lines.zipIdx).forM fun l => parseExpenseLine s!"lines.{l.2}." l.1
  let expense ← t.loadExpense expenseId
  assertDraft expense
  assertLinesFit expense (absoluteLineTotal (lines.map (·.lineAmount)))
    s!"cannot set lines on expense \"{expense.referenceCode}\""
  insertExpenseLinesRaw { t with lines := t.lines.filter (·.expenseId != expenseId) }
    expenseId lines 1

/-! ### Confirming candidates -/

def confirmable (documentId : DocumentId) (id : CandidateId) :
    Option (DocumentLineCandidateRow × Money) :=
  match t.candidates.find? (·.id == id) with
  | none => none
  | some candidate =>
    if candidate.documentId ≠ documentId then none
    else if candidate.confirmedAt.isSome then none
    else if candidate.disposition ≠ .expense ∧ candidate.disposition ≠ .supplies then none
    else candidate.lineAmount.map fun amount => (candidate, amount)

def confirmTarget (input : ConfirmExpenseInput) (document : DocumentRow)
    (confirmable : List (DocumentLineCandidateRow × Money)) :
    Result (ExpenseTables × StoredExpense) :=
  match input.expenseId with
  | some expenseId => do
    let expense ← t.loadExpense expenseId
    return (t, expense)
  | none => do
    Except.require (input.category.isSome ∧ input.paymentMethod.isSome)
      (AccountingError.validation ("confirmCandidatesAsExpense: category and paymentMethod are " ++
        "required to create a new expense (omit them only when passing an existing expenseId)"))
    let created ← t.create
      { id := input.newExpenseId
        economicEntityId := some input.economicEntityId
        expenseDate := (input.expenseDate.or (document.documentDate.or
          (confirmable.head?.bind (·.1.lineDate)))).getD input.now.utcDate
        payeeName := input.payeeName
        payeeCounterpartyId := input.payeeCounterpartyId
        category := input.category.getD ""
        currency := (input.currency.or document.currency).getD input.defaultCurrency
        amount := sumDecimals (confirmable.map (·.2))
        recorded := input.recorded }
    let expense ← created.loadExpense input.newExpenseId
    return (created, expense)

def confirmedLines (input : ConfirmExpenseInput)
    (confirmable : List (DocumentLineCandidateRow × Money)) : List ExpenseLineInput :=
  confirmable.mapIdx fun index c =>
    { id := input.firstLineId + index
      description := c.1.description
      quantity := c.1.quantity
      unitAmount := c.1.unitAmount
      lineAmount := c.2
      documentLineCandidateId := some c.1.id }

def confirmOnto (input : ConfirmExpenseInput) (document : DocumentRow)
    (confirmable : List (DocumentLineCandidateRow × Money)) : Result ExpenseTables := do
  let (created, expense) ← t.confirmTarget input document confirmable
  let existingAmounts := created.existingLineAmounts expense.id
  let absoluteTotal := absoluteLineTotal (existingAmounts ++ confirmable.map (·.2))
  Except.require (linesFit expense.amount absoluteTotal = true)
    (AccountingError.overTranscribed (s!"cannot confirm {confirmable.length} candidate line(s) " ++
      s!"onto expense \"{expense.referenceCode}\": lines would total " ++
      s!"{formatDecimal absoluteTotal} (absolute) against an expense of " ++
      s!"{formatDecimal expense.amount}."))
  let inserted ← created.insertExpenseLinesRaw expense.id (confirmedLines input confirmable)
    (existingAmounts.length + 1)
  return { inserted with
    candidates := confirmable.foldl (fun candidates c =>
      stampCandidate candidates c.1.id input.now .expense expense.id) inserted.candidates }

def confirmCandidatesAsExpense (input : ConfirmExpenseInput) : Result (ExpenseTables × ℕ) := do
  Except.require (input.candidateIds ≠ [])
    (AccountingError.validation "invalid confirm-candidates input: candidateIds")
  match t.documents.find? (·.id == input.documentId) with
  | none => .error (.notFound s!"unknown document \"{input.documentId}\"")
  | some document =>
    let confirmable := input.candidateIds.filterMap (t.confirmable input.documentId)
    let skipped := input.candidateIds.length - confirmable.length
    if confirmable.isEmpty ∧ input.expenseId = none then .ok (t, skipped)
    else (t.confirmOnto input document confirmable).map (·, skipped)

end ExpenseTables

/-! ### Runs -/

inductive ExpenseAction
  | create (input : CreateExpenseInput)
  | update (input : UpdateExpenseInput)
  | submit (id : FactId)
  | voidExpense (id : FactId) (reason : String)
  | promoteToAcquisitionCost (id acquisitionCostId : FactId) (reason : String)
  | linkPayee (id : FactId) (payeeCounterpartyId : Option CounterpartyId)
  | setAllocations (id : FactId) (allocations : List AllocationInput)
  | addAllocation (id : FactId) (allocation : AllocationInput)
  | removeAllocation (id : ExpenseAllocationId)
  | addLine (id : FactId) (line : ExpenseLineInput)
  | setLines (id : FactId) (lines : List ExpenseLineInput)
  | removeLine (id : ExpenseLineId)
  | confirmCandidates (input : ConfirmExpenseInput)
  /-- What the other domains leave in the tables they own. -/
  | elsewhere (counterparties : List CounterpartyNameRow) (documents : List DocumentRow)
    (candidates : List DocumentLineCandidateRow)

namespace ExpenseTables

def perform (t : ExpenseTables) : ExpenseAction → Result ExpenseTables
  | .create input => t.create input
  | .update input => t.update input
  | .submit id => t.submit id
  | .voidExpense id reason => t.voidExpense id reason
  | .promoteToAcquisitionCost id costId reason => t.promoteToAcquisitionCost id costId reason
  | .linkPayee id payee => t.linkPayee id payee
  | .setAllocations id allocations => t.setAllocations id allocations
  | .addAllocation id allocation => t.addAllocation id allocation
  | .removeAllocation id => t.removeAllocation id
  | .addLine id line => t.addLine id line
  | .setLines id lines => t.setLines id lines
  | .removeLine id => t.removeLine id
  | .confirmCandidates input => (t.confirmCandidatesAsExpense input).map (·.1)
  | .elsewhere counterparties documents candidates =>
    .ok { t with
      counterparties := counterparties
      documents := documents
      candidates := candidates }

/-- A call that raises rolls its transaction back. -/
def step (t : ExpenseTables) (action : ExpenseAction) : ExpenseTables :=
  match t.perform action with
  | .ok t' => t'
  | .error _ => t

end ExpenseTables

end Loxep

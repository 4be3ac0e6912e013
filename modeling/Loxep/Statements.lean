import Loxep.Chart

/-!
# The two statements

Both are sums of `functional_amount` over the posted and reversed entries, by account. A positive
amount is a debit, so what a reader expects positive on the credit side is flipped. Retained and
current earnings are computed from the same lines, split at the start of the fiscal year.
-/

namespace Loxep

structure StatementBookRow extends FiscalBookRow where
  code : String
  functionalCurrency : String
  requiresEntityDimension : Bool

structure StatementLine where
  ledgerAccountId : AccountId
  code : String
  name : String
  accountType : LedgerAccountType
  accountSubtype : Option String
  isContra : Bool
  systemKey : Option String
  amount : Money

structure StatementSection where
  lines : List StatementLine
  total : Money

structure IncomeStatement where
  accountingBookId : BookId
  functionalCurrency : String
  fromDate : CalendarDate
  toDate : CalendarDate
  economicEntityId : Option EntityId
  revenue : StatementSection
  expense : StatementSection
  netIncome : Money

structure BalanceSheet where
  accountingBookId : BookId
  functionalCurrency : String
  asOf : CalendarDate
  economicEntityId : Option EntityId
  assets : StatementSection
  liabilities : StatementSection
  equityAccounts : StatementSection
  retainedEarnings : Money
  currentEarnings : Money
  totalEquity : Money
  difference : Money
  balanced : Bool

structure StatementFilter where
  economicEntityId : Option EntityId := none
  includeEmptyAccounts : Bool := false

structure StatementWindow where
  accountingBookId : BookId
  fromDate : Option CalendarDate
  toDate : Option CalendarDate
  economicEntityId : Option EntityId

def inTheBooks (status : EntryStatus) : Bool := status == .posted || status == .reversed

def Journal.postings (j : Journal) : List (JournalEntryRow × JournalLineRow) :=
  j.entries.flatMap fun e => e.lines.map fun l => (e, l)

def entryPredicates (w : StatementWindow) (p : JournalEntryRow × JournalLineRow) : Bool :=
  p.1.accountingBookId == w.accountingBookId && inTheBooks p.1.status &&
    w.fromDate.all (fun lower => decide (lower ≤ p.1.entryDate)) &&
    w.toDate.all (fun upper => decide (p.1.entryDate ≤ upper)) &&
    w.economicEntityId.all fun entity => p.2.economicEntityId == some entity

/-- `::numeric(20, 6)` of a sum. -/
def numericOverflow : AccountingError := AccountingError.database "numeric field overflow"

namespace BookTables

variable (s : BookTables)

def accountPostings (w : StatementWindow) (id : AccountId) :
    List (JournalEntryRow × JournalLineRow) :=
  s.ledger.postings.filter fun p => entryPredicates w p && p.2.ledgerAccountId == id

def statementLine (w : StatementWindow) (a : ChartAccountRow) : StatementLine where
  ledgerAccountId := a.id
  code := a.code
  name := a.name
  accountType := a.accountType
  accountSubtype := a.accountSubtype
  isContra := a.isContra
  systemKey := a.systemKey
  amount := ((s.accountPostings w a.id).map (·.2.functionalAmount)).sum

def statementAccounts (w : StatementWindow) (includeEmptyAccounts : Bool)
    (accountType : LedgerAccountType) : List ChartAccountRow :=
  s.chart.filter fun a => a.accountingBookId == w.accountingBookId &&
    a.accountType == accountType && a.isPostable &&
    (includeEmptyAccounts || !(s.accountPostings w a.id).isEmpty)

def balancesByAccount (w : StatementWindow) (includeEmptyAccounts : Bool)
    (accountType : LedgerAccountType) : Result (List StatementLine) :=
  let lines := ((s.statementAccounts w includeEmptyAccounts accountType).insertionSort
    (·.code ≤ ·.code)).map (s.statementLine w)
  if ∀ line ∈ lines, line.amount.natAbs < numericLimit then .ok lines else .error numericOverflow

def incomePostings (w : StatementWindow) : List (JournalEntryRow × JournalLineRow) :=
  s.ledger.postings.filter fun p => entryPredicates w p &&
    s.chart.any fun a => a.id == p.2.ledgerAccountId &&
      (a.accountType == .revenue || a.accountType == .expense)

def netIncomeBetween (w : StatementWindow) : Result Money := do
  let total := ((s.incomePostings w).map (·.2.functionalAmount)).sum
  Except.require (total.natAbs < numericLimit) numericOverflow
  return negateDecimal total

end BookTables

def statementSection (lines : List StatementLine) (flip : Bool) : StatementSection :=
  let presented := lines.map fun line =>
    if flip then { line with amount := negateDecimal line.amount } else line
  ⟨presented, sumDecimals (presented.map (·.amount))⟩

def loadStatementBook (books : List StatementBookRow) (accountingBookId : BookId) :
    Result StatementBookRow :=
  match books.find? (·.id == accountingBookId) with
  | none => .error (Setup.unknownBookError accountingBookId)
  | some book => .ok book

structure IncomeStatementInput where
  accountingBookId : BookId
  fromDate : CalendarDate
  toDate : CalendarDate
  filter : StatementFilter

def incomeStatement (books : List StatementBookRow) (s : BookTables) (input : IncomeStatementInput)
    : Result IncomeStatement := do
  let book ← loadStatementBook books input.accountingBookId
  let window : StatementWindow :=
    ⟨input.accountingBookId, some input.fromDate, some input.toDate, input.filter.economicEntityId⟩
  let balances := s.balancesByAccount window input.filter.includeEmptyAccounts
  let revenue := statementSection (← balances .revenue) true
  let expense := statementSection (← balances .expense) false
  return {
    accountingBookId := input.accountingBookId
    functionalCurrency := book.functionalCurrency
    fromDate := input.fromDate
    toDate := input.toDate
    economicEntityId := input.filter.economicEntityId
    revenue := revenue
    expense := expense
    netIncome := sumDecimals [revenue.total, negateDecimal expense.total] }

structure BalanceSheetInput where
  accountingBookId : BookId
  asOf : CalendarDate
  filter : StatementFilter

def assertEntityCoverage (s : BookTables) (book : StatementBookRow) :
    Option EntityId → Result Unit
  | none => .ok ()
  | some _ => do
    Except.require book.requiresEntityDimension
      (AccountingError.validation (s!"book {book.code} does not require the entity dimension, so an " ++
        "entity-filtered balance sheet cannot be trusted to balance: " ++
        "the lines nobody thinks about (an opening bank balance, an " ++
        "equity contribution) carry no entity and would silently drop " ++
        "out. The entity-filtered INCOME STATEMENT is meaningful and is " ++
        "what ADR-0017 promises; this one is offered only for a book " ++
        "that requires the dimension."))
    let lines := s.ledger.postings.filter fun p =>
      p.1.accountingBookId == book.id && inTheBooks p.1.status
    let withEntity := (lines.filter fun p => p.2.economicEntityId.isSome).length
    Except.require (lines.length = withEntity)
      (AccountingError.validation
        (s!"book {book.code} has {lines.length - withEntity} of {lines.length} posted " ++
        "lines without an entity: an entity-filtered balance sheet over " ++
        "them would not balance, and would look like a bug in the " ++
        "accounting rather than a gap in the data"))

/-- The start of the fiscal year a date falls in. Its text does not pad the year, so that before
the year 1000 it sorts after every date of that year. -/
def FiscalBookRow.yearStartOf (book : FiscalBookRow) (asOf : CalendarDate) : CalendarDate :=
  book.yearStart (if asOf.year < 1000 then asOf.year - 1
    else fiscalYearFor asOf book.fiscalYearStartMonth book.fiscalYearStartDay)

/-- `dateLiteral` of the text of a year's start: four digits for the year. -/
def yearStartLiteral (yearStart : CalendarDate) : Result CalendarDate := do
  Except.require (1000 ≤ yearStart.year ∧ yearStart.year ≤ 9999)
    (AccountingError.validation ("expected a calendar date as YYYY-MM-DD, got " ++
      s!"\"{yearStart.year}-{padZeros 2 yearStart.month}-{padZeros 2 yearStart.day}\""))
  return yearStart

def balanceSheet (books : List StatementBookRow) (s : BookTables) (input : BalanceSheetInput) :
    Result BalanceSheet := do
  let book ← loadStatementBook books input.accountingBookId
  let entity := input.filter.economicEntityId
  assertEntityCoverage s book entity
  let balances := s.balancesByAccount ⟨input.accountingBookId, none, some input.asOf, entity⟩
    input.filter.includeEmptyAccounts
  let assets := statementSection (← balances .asset) false
  let liabilities := statementSection (← balances .liability) true
  let equityAccounts := statementSection (← balances .equity) true
  let yearStart := book.yearStartOf input.asOf
  let priorEnd := dayBefore yearStart
  let retainedEarnings ←
    s.netIncomeBetween ⟨input.accountingBookId, none, some priorEnd, entity⟩
  let fromDate ← yearStartLiteral yearStart
  let currentEarnings ←
    s.netIncomeBetween ⟨input.accountingBookId, some fromDate, some input.asOf, entity⟩
  let totalEquity := sumDecimals [equityAccounts.total, retainedEarnings, currentEarnings]
  let difference := sumDecimals [assets.total, negateDecimal liabilities.total,
    negateDecimal totalEquity]
  return {
    accountingBookId := input.accountingBookId
    functionalCurrency := book.functionalCurrency
    asOf := input.asOf
    economicEntityId := entity
    assets := assets
    liabilities := liabilities
    equityAccounts := equityAccounts
    retainedEarnings := retainedEarnings
    currentEarnings := currentEarnings
    totalEquity := totalEquity
    difference := difference
    balanced := difference == 0 }

end Loxep

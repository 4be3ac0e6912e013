import Loxep.Calendar
import Loxep.Errors
import Loxep.Lib.Except
import Loxep.Text
import Mathlib.Data.List.Sort

/-!
# Books, their charts and periods, and the routing of a fact to a book

The reference data a posting reads: economic entities, accounting books, the links that route
one to the other, ledger accounts, dimensions and fiscal periods. Routing walks an entity and
its ancestors, nearest first, to the first that has a primary book on the date.
-/

namespace Loxep

abbrev EntityId := ℕ
abbrev BookId := ℕ
abbrev AccountId := ℕ
abbrev DimensionId := ℕ
abbrev DimensionValueId := ℕ
abbrev PeriodId := ℕ

inductive BookStatus
  | active
  | archived
  deriving DecidableEq

inductive LinkRole
  | postingPrimary
  | reportingOnly
  deriving DecidableEq

inductive AccountStatus
  | active
  | archived
  deriving DecidableEq

inductive FiscalPeriodStatus
  | opened
  | softClosed
  | closed
  | locked
  deriving DecidableEq

def FiscalPeriodStatus.text : FiscalPeriodStatus → String
  | .opened => "open"
  | .softClosed => "soft_closed"
  | .closed => "closed"
  | .locked => "locked"

structure EconomicEntityRow where
  id : EntityId
  parentEntityId : Option EntityId

structure AccountingBookRow where
  id : BookId
  code : String
  functionalCurrency : String
  status : BookStatus

structure BookEntityLinkRow where
  accountingBookId : BookId
  economicEntityId : EntityId
  linkRole : LinkRole
  effectiveFrom : CalendarDate
  effectiveTo : Option CalendarDate

structure LedgerAccountRow where
  id : AccountId
  accountingBookId : BookId
  code : String
  name : String
  isPostable : Bool
  systemKey : Option String
  status : AccountStatus

structure AccountingDimensionRow where
  id : DimensionId
  accountingBookId : BookId
  code : String
  name : String
  isRequired : Bool
  active : Bool

structure FiscalPeriodRow where
  id : PeriodId
  accountingBookId : BookId
  periodCode : String
  startsOn : CalendarDate
  endsOn : CalendarDate
  status : FiscalPeriodStatus

/-- The reference tables a posting reads and never writes, with the `accounting.default_book_id`
setting. -/
structure Setup where
  economicEntities : List EconomicEntityRow
  accountingBooks : List AccountingBookRow
  bookEntityLinks : List BookEntityLinkRow
  ledgerAccounts : List LedgerAccountRow
  accountingDimensions : List AccountingDimensionRow
  fiscalPeriods : List FiscalPeriodRow
  defaultBookId : Option BookId

namespace Setup

variable (setup : Setup)

def findBook (accountingBookId : BookId) : Option AccountingBookRow :=
  setup.accountingBooks.find? (·.id == accountingBookId)

/-- The entity and its ancestors, nearest first. The bound is a cycle guard: nothing keeps
`parent_entity_id` acyclic. -/
def chain : ℕ → EntityId → List EntityId
  | 0, _ => []
  | bound + 1, economicEntityId =>
    match setup.economicEntities.find? (·.id == economicEntityId) with
    | none => []
    | some entity => entity.id ::
      match entity.parentEntityId with
      | none => []
      | some parent => chain bound parent

def routesOn (onDate : CalendarDate) (link : BookEntityLinkRow) : Bool :=
  link.linkRole == .postingPrimary && decide (link.effectiveFrom ≤ onDate) &&
    link.effectiveTo.all fun upper => decide (onDate ≤ upper)

inductive RoutingSource
  | entityLink
  | parentEntityLink
  | installationDefault

structure BookRouting where
  accountingBookId : BookId
  source : RoutingSource
  viaEconomicEntityId : Option EntityId

def routeThroughEntity (economicEntityId : EntityId) (onDate : CalendarDate) :
    Option (BookId × ℕ × EntityId) :=
  (setup.chain 33 economicEntityId).zipIdx.findSome? fun (entityId, depth) =>
    (setup.bookEntityLinks.find? fun link =>
      link.economicEntityId == entityId && routesOn onDate link).map fun link =>
        (link.accountingBookId, depth, entityId)

def resolveBookForEntity (economicEntityId : Option EntityId) (onDate : CalendarDate)
    (installationDefaultBookId : Option BookId) : Option BookRouting :=
  let route := economicEntityId.bind fun entity => setup.routeThroughEntity entity onDate
  match route with
  | some (accountingBookId, depth, entityId) =>
    some ⟨accountingBookId, if depth = 0 then .entityLink else .parentEntityLink,
      if depth = 0 then none else some entityId⟩
  | none => installationDefaultBookId.map fun book => ⟨book, .installationDefault, none⟩

def unknownBookError (accountingBookId : BookId) : AccountingError :=
  .notFound s!"unknown accounting book \"{accountingBookId}\""

/-- `books.getBook`: the row, whatever its status. -/
def getBook (accountingBookId : BookId) : Result AccountingBookRow :=
  match setup.findBook accountingBookId with
  | none => .error (unknownBookError accountingBookId)
  | some book => .ok book

def supportedFunctionalCurrencies : List String := ["USD"]

def normalizeCurrency (value : String) : Result String :=
  let trimmed := (trim value).toUpper
  if isAlphabeticCode trimmed then .ok trimmed
  else .error (.currency s!"\"{value}\" is not an ISO-4217 alphabetic currency code")

def unsupportedCurrencyError (currency context : String) : AccountingError :=
  .currency (s!"{context}: {currency} is not supported — this build is USD-only by owner " ++
    "decision (financial-schema-design.md, owner answer 3). The multi-currency SEAM " ++
    "is already in the schema and unused: journal_lines carries " ++
    "currency/amount alongside functional_currency/functional_amount/" ++
    "fx_rate/fx_rate_source, with the rate frozen per line at posting. " ++
    "Enabling another currency means widening " ++
    "SUPPORTED_FUNCTIONAL_CURRENCIES and computing a real functional " ++
    "amount — it restates nothing that is already posted.")

def assertSupportedCurrency (value context : String) : Result String := do
  let currency ← normalizeCurrency value
  if supportedFunctionalCurrencies.contains currency then .ok currency
  else .error (unsupportedCurrencyError currency context)

/-- `journal.loadBook`: the book must exist, be active and be denominated in a supported
currency. -/
def loadBook (accountingBookId : BookId) : Result AccountingBookRow :=
  match setup.findBook accountingBookId with
  | none => .error (unknownBookError accountingBookId)
  | some book =>
    if book.status ≠ .active then
      .error (.validation s!"book {book.code} is archived: nothing new posts into it")
    else do
      let _ ← assertSupportedCurrency book.functionalCurrency
        s!"book {book.code} is denominated in {book.functionalCurrency}"
      .ok book

def noPeriodError (isoDate : CalendarDate) : AccountingError :=
  .periodClosed (s!"no fiscal period contains {isoDate}. Periods are generated, never " ++
    "auto-created on demand, because inventing one silently reopens a year " ++
    "the operator believed was finished. Generate the fiscal year first; " ++
    "until then the fact belongs in the unpostable backlog.")

def findPeriod (accountingBookId : BookId) (isoDate : CalendarDate) : Option FiscalPeriodRow :=
  setup.fiscalPeriods.find? fun period =>
    period.accountingBookId == accountingBookId && decide (period.startsOn ≤ isoDate) &&
      decide (isoDate ≤ period.endsOn)

def resolvePeriodRow (accountingBookId : BookId) (entryDate : CalendarDate) :
    Result FiscalPeriodRow :=
  match setup.findPeriod accountingBookId entryDate with
  | none => .error (noPeriodError entryDate)
  | some period => .ok period

def assertPeriodAcceptsPosting (period : FiscalPeriodRow) (allowBackdated : Bool) :
    Result Bool :=
  if period.status = .closed ∨ period.status = .locked then
    .error (.periodClosed (s!"fiscal period {period.periodCode} is {period.status.text}: " ++
      "posting into it is blocked. Post the correction into an open period instead — " ++
      "reversal-and-repost degrades gracefully to the current period, which " ++
      "is what an accountant would do by hand."))
  else if period.status = .softClosed then
    if allowBackdated then .ok true
    else .error (.periodClosed (s!"fiscal period {period.periodCode} is soft_closed: " ++
      "ordinary posting is blocked. A late provider fact may still be posted into its own " ++
      "month through the explicit authorized path (allowBackdated), which " ++
      "flags the entry is_backdated so the restatement is visible rather " ++
      "than silent."))
  else .ok false

def findAccount (ledgerAccountId : AccountId) : Option LedgerAccountRow :=
  setup.ledgerAccounts.find? (·.id == ledgerAccountId)

def findAccountBySystemKey (accountingBookId : BookId) (systemKey : String) :
    Option LedgerAccountRow :=
  setup.ledgerAccounts.find? fun account =>
    account.accountingBookId == accountingBookId && account.systemKey == some systemKey

def requiredDimensions (accountingBookId : BookId) : List AccountingDimensionRow :=
  setup.accountingDimensions.filter fun dimension =>
    dimension.accountingBookId == accountingBookId && dimension.isRequired && dimension.active

end Setup

section

variable {setup : Setup} {accountingBookId : BookId} {book : AccountingBookRow}

theorem getBook_eq_ok : setup.getBook accountingBookId = .ok book ↔
    setup.findBook accountingBookId = some book := by
  unfold Setup.getBook
  split <;> simp_all

theorem findBook_id (h : setup.findBook accountingBookId = some book) :
    book.id = accountingBookId := by
  have := List.find?_some h
  simpa using this

theorem loadBook_eq_ok : setup.loadBook accountingBookId = .ok book ↔
    setup.findBook accountingBookId = some book ∧ book.status = .active ∧
      ∃ currency, Setup.assertSupportedCurrency book.functionalCurrency
        s!"book {book.code} is denominated in {book.functionalCurrency}" = .ok currency := by
  unfold Setup.loadBook
  split
  · simp_all
  · rename_i found hfound
    split_ifs with hactive
    · simp only [false_iff]
      rintro ⟨h, hst, -⟩
      rw [hfound] at h
      cases h
      exact hactive hst
    · simp only [Except.bind_eq_ok, Except.ok.injEq, hfound, Option.some.injEq]
      constructor
      · rintro ⟨currency, hc, rfl⟩
        exact ⟨rfl, not_not.1 hactive, currency, hc⟩
      · rintro ⟨rfl, -, currency, hc⟩
        exact ⟨currency, hc, rfl⟩

end

/-!
## Fiscal years

A fiscal year is labelled by the calendar year it starts in, and starts on the book's day of its
month, or on the month's last day where that comes first. Its monthly periods are generated from
that one date, each boundary so many months after it.
-/

def isLeapYear (year : ℕ) : Bool := year % 4 == 0 && (year % 100 != 0 || year % 400 == 0)

def lastDayOfMonth (year month : ℕ) : ℕ :=
  if month = 2 then if isLeapYear year then 29 else 28
  else if month = 4 ∨ month = 6 ∨ month = 9 ∨ month = 11 then 30
  else 31

structure CalendarDate.Valid (d : CalendarDate) : Prop where
  month : 1 ≤ d.month ∧ d.month ≤ 12
  day : 1 ≤ d.day ∧ d.day ≤ lastDayOfMonth d.year d.month

def fiscalYearStartDate (fiscalYear month day : ℕ) : CalendarDate :=
  ⟨fiscalYear, month, min day (lastDayOfMonth fiscalYear month)⟩

def fiscalYearFor (isoDate : CalendarDate) (fiscalYearStartMonth fiscalYearStartDay : ℕ) : ℕ :=
  if fiscalYearStartDate isoDate.year fiscalYearStartMonth fiscalYearStartDay ≤ isoDate then
    isoDate.year
  else isoDate.year - 1

def periodCodeFor (fiscalYear sequence : ℕ) : String :=
  s!"FY{fiscalYear}-P{padZeros 2 sequence}"

/-- `date + n months`: the same day so many months on, or that month's last day. -/
def addMonths (d : CalendarDate) (n : ℕ) : CalendarDate :=
  let months := d.year * 12 + (d.month - 1) + n
  ⟨months / 12, months % 12 + 1, min d.day (lastDayOfMonth (months / 12) (months % 12 + 1))⟩

/-- `date - 1`. -/
def dayBefore (d : CalendarDate) : CalendarDate :=
  if 1 < d.day then ⟨d.year, d.month, d.day - 1⟩
  else if 1 < d.month then ⟨d.year, d.month - 1, lastDayOfMonth d.year (d.month - 1)⟩
  else ⟨d.year - 1, 12, 31⟩

example : addMonths ⟨2026, 1, 31⟩ 1 = ⟨2026, 2, 28⟩ := by decide

structure FiscalBookRow where
  id : BookId
  fiscalYearStartMonth : ℕ
  fiscalYearStartDay : ℕ
  month_check : 1 ≤ fiscalYearStartMonth ∧ fiscalYearStartMonth ≤ 12
  day_check : 1 ≤ fiscalYearStartDay ∧ fiscalYearStartDay ≤ 31

structure GeneratedPeriodRow extends FiscalPeriodRow where
  fiscalYear : ℕ
  sequence : ℕ

def FiscalBookRow.yearStart (book : FiscalBookRow) (fiscalYear : ℕ) : CalendarDate :=
  fiscalYearStartDate fiscalYear book.fiscalYearStartMonth book.fiscalYearStartDay

/-- The row of `generate_series` at a place. -/
def generatedPeriod (book : FiscalBookRow) (newId : ℕ → PeriodId) (fiscalYear i : ℕ) :
    GeneratedPeriodRow where
  id := newId i
  accountingBookId := book.id
  periodCode := periodCodeFor fiscalYear (i + 1)
  startsOn := addMonths (book.yearStart fiscalYear) i
  endsOn := dayBefore (addMonths (book.yearStart fiscalYear) (i + 1))
  status := .opened
  fiscalYear := fiscalYear
  sequence := i + 1

def GeneratedPeriodRow.sameSlot (row p : GeneratedPeriodRow) : Bool :=
  p.accountingBookId == row.accountingBookId && p.fiscalYear == row.fiscalYear &&
    p.sequence == row.sequence

def GeneratedPeriodRow.overlaps (row p : GeneratedPeriodRow) : Bool :=
  p.accountingBookId == row.accountingBookId && decide (p.startsOn ≤ row.endsOn) &&
    decide (row.startsOn ≤ p.endsOn)

/-- `insert into fiscal_periods … on conflict … do nothing`, with the table's other checks. -/
def insertPeriod (periods : List GeneratedPeriodRow) (row : GeneratedPeriodRow) :
    Result (List GeneratedPeriodRow) :=
  if periods.any row.sameSlot then .ok periods
  else do
    Except.require (row.startsOn ≤ row.endsOn)
      (AccountingError.database "fiscal_periods_range_check")
    Except.require (row.id ∉ periods.map (·.id)) (AccountingError.database "fiscal_periods_pkey")
    Except.require (∀ p ∈ periods,
        p.accountingBookId = row.accountingBookId → p.periodCode ≠ row.periodCode)
      (AccountingError.database "fiscal_periods_book_period_code_uq")
    Except.require (¬ periods.any row.overlaps)
      (AccountingError.conflict (s!"fiscal year {row.fiscalYear} for this book would overlap a " ++
        "period that already exists. Periods never overlap — that " ++
        "invariant is what makes 'the period containing this date' a " ++
        "lookup — so this is a fiscal-year-start misconfiguration, " ++
        "not a duplicate run."))
    return periods ++ [row]

structure GenerateFiscalYearInput where
  accountingBookId : BookId
  fiscalYear : ℕ
  periodCount : ℕ := 12

structure GeneratedYear where
  created : ℕ
  periods : List GeneratedPeriodRow
  fiscalPeriods : List GeneratedPeriodRow

/-- `generateSchema`. -/
def parseGenerate (input : GenerateFiscalYearInput) : Result Unit := do
  Except.require (1900 ≤ input.fiscalYear ∧ input.fiscalYear ≤ 9999)
    (AccountingError.validation "invalid fiscal period input: fiscalYear")
  Except.require (1 ≤ input.periodCount ∧ input.periodCount ≤ 12)
    (AccountingError.validation "invalid fiscal period input: periodCount")

def generateFiscalYear (books : List FiscalBookRow) (fiscalPeriods : List GeneratedPeriodRow)
    (newId : ℕ → PeriodId) (input : GenerateFiscalYearInput) : Result GeneratedYear := do
  parseGenerate input
  match books.find? (·.id == input.accountingBookId) with
  | none => .error (.notFound s!"unknown accounting book \"{input.accountingBookId}\"")
  | some book => do
    let after ← ((List.range input.periodCount).map
      (generatedPeriod book newId input.fiscalYear)).foldlM insertPeriod fiscalPeriods
    return {
      created := after.length - fiscalPeriods.length
      periods := (after.filter fun p => p.accountingBookId == input.accountingBookId &&
        p.fiscalYear == input.fiscalYear).insertionSort (·.sequence ≤ ·.sequence)
      fiscalPeriods := after }

def generateYears (books : List FiscalBookRow) (accountingBookId : BookId)
    (newId : ℕ → ℕ → PeriodId) :
    ℕ → List ℕ → List GeneratedPeriodRow → Result (List GeneratedPeriodRow)
  | _, [], fiscalPeriods => .ok fiscalPeriods
  | fiscalYear, periodCount :: periodCounts, fiscalPeriods => do
    let year ← generateFiscalYear books fiscalPeriods (newId fiscalYear)
      { accountingBookId := accountingBookId
        fiscalYear := fiscalYear
        periodCount := periodCount }
    generateYears books accountingBookId newId (fiscalYear + 1) periodCounts year.fiscalPeriods

/-- How many periods of a book contain the date, one of which `resolvePeriod` reads. -/
def periodsContaining (fiscalPeriods : List GeneratedPeriodRow) (accountingBookId : BookId)
    (isoDate : CalendarDate) : ℕ :=
  fiscalPeriods.countP fun period =>
    period.accountingBookId == accountingBookId && decide (period.startsOn ≤ isoDate) &&
      decide (isoDate ≤ period.endsOn)

end Loxep

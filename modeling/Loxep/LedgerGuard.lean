import Loxep.Journal

/-!
# The ledger's guard in the database

The triggers on `journal_entries` and `journal_lines`: two refuse a change of a posted entry or of
its lines at the statement, one guards the entry's period, and a deferred one checks at commit that
every entry a statement named balances. The first refusal rolls the transaction back.
-/

namespace Loxep

inductive FxRateSource
  | unity
  | providerReported
  | manual
  | imported
  deriving DecidableEq

/-- A row of `journal_entries`. -/
structure StoredEntry where
  id : EntryId
  accountingBookId : BookId
  entryNumber : Option ℕ
  fiscalPeriodId : Option PeriodId
  entryDate : CalendarDate
  status : EntryStatus
  entrySource : EntrySource
  postingKey : Option String
  sourceFactType : Option String
  sourceFactId : Option FactId
  sourceFactFingerprint : Option String
  reversesEntryId : Option EntryId
  isBackdated : Bool
  description : String
  memo : Option String
  postedAt : Option Timestamp
  postedByUserId : Option String
  createdByUserId : Option String
  createdAt : Timestamp
  updatedAt : Timestamp
  deriving DecidableEq

abbrev LineId := ℕ

/-- A row of `journal_lines`; the rate counts the twelve decimals of its column. -/
structure StoredLine where
  id : LineId
  journalEntryId : EntryId
  accountingBookId : BookId
  ledgerAccountId : AccountId
  economicEntityId : Option EntityId
  lineNumber : ℤ
  description : Option String
  currency : String
  amount : Money
  functionalCurrency : String
  functionalAmount : Money
  fxRate : ℤ
  fxRateSource : FxRateSource
  fxRateAt : Option Timestamp
  createdAt : Timestamp
  deriving DecidableEq

structure LedgerTables where
  entries : List StoredEntry
  lines : List StoredLine
  deriving DecidableEq

/-- `status in ('posted', 'reversed')`. -/
def StoredEntry.isPosted (e : StoredEntry) : Bool := e.status == .posted || e.status == .reversed

namespace LedgerTables

def empty : LedgerTables := ⟨[], []⟩

variable (t : LedgerTables)

def findEntry (id : EntryId) : Option StoredEntry := t.entries.find? (·.id == id)

def findLine (id : LineId) : Option StoredLine := t.lines.find? (·.id == id)

def linesOf (id : EntryId) : List StoredLine := t.lines.filter (·.journalEntryId == id)

end LedgerTables

/-- A statement that was refused, with the text of the exception or the constraint's name. -/
abbrev Guarded (α : Type) := Except String α

def isReversalStamp (old new : StoredEntry) : Bool :=
  old.status == .posted && new.status == .reversed &&
    { new with status := old.status, updatedAt := old.updatedAt } == old

def journalEntriesImmutable (op : String) (old : StoredEntry) (new : Option StoredEntry) :
    Guarded Unit :=
  Except.require (old.status = .draft ∨ new.any (isReversalStamp old))
    (s!"journal_entries is immutable once posted: {op} of a {old.status.text} entry is not " ++
      "permitted")

def journalLinesImmutable (t : LedgerTables) (op : String) (target : EntryId) : Guarded Unit :=
  match t.findEntry target with
  | none => .ok ()
  | some parent => Except.require (parent.status = .draft)
      (s!"journal_lines is immutable once its entry is posted: {op} on a line of a " ++
        s!"{parent.status.text} entry is not permitted")

def periodGuard (periods : List FiscalPeriodRow) (old : Option StoredEntry) (new : StoredEntry) :
    Guarded Unit :=
  if !new.isPosted then .ok ()
  else if old.any fun o => o.isPosted && o.entryDate == new.entryDate &&
      o.fiscalPeriodId == new.fiscalPeriodId then .ok ()
  else
    match periods.find? fun p => some p.id == new.fiscalPeriodId with
    | none => .error s!"journal entry {new.id} cannot post: no fiscal period is stamped on it"
    | some period => do
      Except.require (period.startsOn ≤ new.entryDate ∧ new.entryDate ≤ period.endsOn)
        (s!"journal entry {new.id} has entry_date {new.entryDate} outside its stamped period " ++
          s!"{period.periodCode} ({period.startsOn} .. {period.endsOn})")
      Except.require (period.status ≠ .closed ∧ period.status ≠ .locked)
        (s!"fiscal period {period.periodCode} is {period.status.text}: posting into it is " ++
          "blocked")
      Except.require (period.status ≠ .softClosed ∨ new.isBackdated)
        s!"fiscal period {period.periodCode} is soft_closed: ordinary posting is blocked"

def offending (amounts : List (String × Money)) : Option (String × Money) :=
  ((amounts.map (·.1)).dedup.map fun currency =>
    (currency, ((amounts.filter (·.1 == currency)).map (·.2)).sum)).find? fun total =>
      total.2 != 0

def journalEntryBalanced (t : LedgerTables) (target : EntryId) : Guarded Unit :=
  match t.findEntry target with
  | none => .ok ()
  | some entry =>
    if !entry.isPosted then .ok ()
    else do
      let number := (entry.entryNumber.map toString).getD "<NULL>"
      let lines := t.linesOf target
      Except.require (lines ≠ [])
        s!"journal entry {target} (number {number}) is posted with no lines"
      match offending (lines.map fun l => (l.currency, l.amount)) with
      | some (currency, total) => .error (s!"journal entry {target} (number {number}) does not " ++
          s!"balance in {currency}: its lines sum to {formatDecimal total} instead of 0")
      | none =>
        match offending (lines.map fun l => (l.functionalCurrency, l.functionalAmount)) with
        | some (currency, total) => .error (s!"journal entry {target} (number {number}) does " ++
            s!"not balance in its functional currency {currency}: functional amounts sum to " ++
            s!"{formatDecimal total} instead of 0")
        | none => .ok ()

def checkEntry (periods : List FiscalPeriodRow) (e : StoredEntry) : Guarded Unit := do
  Except.require (e.isPosted → e.entryNumber.isSome ∧ e.fiscalPeriodId.isSome ∧ e.postedAt.isSome)
    "journal_entries_posted_completeness_check"
  Except.require (e.reversesEntryId ≠ some e.id) "journal_entries_reverses_self_check"
  Except.require (e.sourceFactType.isSome ↔ e.sourceFactId.isSome)
    "journal_entries_source_fact_check"
  Except.require (∀ id ∈ e.fiscalPeriodId, ∃ p ∈ periods,
    p.id = id ∧ p.accountingBookId = e.accountingBookId) "journal_entries_period_fk"

def checkLine (l : StoredLine) : Guarded Unit := do
  Except.require (l.amount ≠ 0) "journal_lines_amount_check"
  Except.require (0 < l.lineNumber) "journal_lines_line_number_check"
  Except.require (0 < l.fxRate) "journal_lines_fx_rate_check"
  Except.require (l.currency = l.functionalCurrency ↔ l.fxRateSource = .unity)
    "journal_lines_unity_check"

/-- The unique keys and the foreign keys between the two tables, after a statement. -/
def checkTables (t : LedgerTables) : Guarded LedgerTables := do
  Except.require (t.entries.map (·.id)).Nodup "journal_entries_pkey"
  Except.require (t.lines.map (·.id)).Nodup "journal_lines_pkey"
  Except.require (t.entries.filterMap fun e => e.entryNumber.map fun n =>
    (e.accountingBookId, n)).Nodup "journal_entries_book_entry_number_uq"
  Except.require (t.entries.filterMap (·.postingKey)).Nodup "journal_entries_posting_key_uq"
  Except.require (t.lines.map fun l => (l.journalEntryId, l.lineNumber)).Nodup
    "journal_lines_entry_line_number_uq"
  Except.require (∀ l ∈ t.lines, ∃ e ∈ t.entries,
    e.id = l.journalEntryId ∧ e.accountingBookId = l.accountingBookId)
    "journal_lines_book_entry_fk"
  Except.require (∀ e ∈ t.entries, ∀ id ∈ e.reversesEntryId, id ∈ t.entries.map (·.id))
    "journal_entries_reverses_fk"
  return t

inductive RowStatement
  | insertEntry (new : StoredEntry)
  | updateEntry (id : EntryId) (new : StoredEntry)
  | deleteEntry (id : EntryId)
  | insertLine (new : StoredLine)
  | updateLine (id : LineId) (new : StoredLine)
  | deleteLine (id : LineId)

/-- The tables after the statement, and the entries whose deferred check it has queued. -/
def execute (periods : List FiscalPeriodRow) (t : LedgerTables) :
    RowStatement → Guarded (LedgerTables × List EntryId)
  | .insertEntry new => do
    periodGuard periods none new
    checkEntry periods new
    let t' ← checkTables { t with entries := t.entries ++ [new] }
    return (t', [new.id])
  | .updateEntry id new =>
    match t.findEntry id with
    | none => .ok (t, [])
    | some old => do
      journalEntriesImmutable "UPDATE" old (some new)
      periodGuard periods (some old) new
      checkEntry periods new
      let t' ← checkTables
        { t with entries := t.entries.map fun e => if e.id = id then new else e }
      return (t', [new.id])
  | .deleteEntry id =>
    match t.findEntry id with
    | none => .ok (t, [])
    | some old => do
      journalEntriesImmutable "DELETE" old none
      let rest := { t with entries := t.entries.filter (·.id != id) }
      let cascaded := t.linesOf id
      cascaded.forM fun l => journalLinesImmutable rest "DELETE" l.journalEntryId
      let t' ← checkTables { rest with lines := t.lines.filter (·.journalEntryId != id) }
      return (t', cascaded.map (·.journalEntryId))
  | .insertLine new => do
    journalLinesImmutable t "INSERT" new.journalEntryId
    checkLine new
    let t' ← checkTables { t with lines := t.lines ++ [new] }
    return (t', [new.journalEntryId])
  | .updateLine id new =>
    match t.findLine id with
    | none => .ok (t, [])
    | some _ => do
      journalLinesImmutable t "UPDATE" new.journalEntryId
      checkLine new
      let t' ← checkTables { t with lines := t.lines.map fun l => if l.id = id then new else l }
      return (t', [new.journalEntryId])
  | .deleteLine id =>
    match t.findLine id with
    | none => .ok (t, [])
    | some old => do
      journalLinesImmutable t "DELETE" old.journalEntryId
      let t' ← checkTables { t with lines := t.lines.filter (·.id != id) }
      return (t', [old.journalEntryId])

def executeAll (periods : List FiscalPeriodRow) :
    LedgerTables → List RowStatement → Guarded (List LedgerTables × List EntryId)
  | _, [] => .ok ([], [])
  | t, statement :: rest => do
    let (t', fired) ← execute periods t statement
    let (passed, queue) ← executeAll periods t' rest
    return (t' :: passed, fired ++ queue)

def runTransaction (periods : List FiscalPeriodRow) (t : LedgerTables)
    (statements : List RowStatement) : Guarded (List LedgerTables) := do
  let (passed, queue) ← executeAll periods t statements
  queue.forM (journalEntryBalanced (passed.getLastD t))
  return passed

structure LedgerTransaction where
  periods : List FiscalPeriodRow
  statements : List RowStatement

end Loxep

import Loxep.PostingRules

/-!
# The double-entry journal

`postEntry` creates and posts an entry in one transaction, idempotent under its posting key;
`reverseEntry` is the only correction of a posted one. A refused call leaves the ledger as it
was: every check of a transaction stands before its writes, and a constraint the database
refuses rolls all of them back.
-/

namespace Loxep

abbrev EntryId := ℕ

inductive EntryStatus
  | draft
  | posted
  | reversed
  | void
  deriving DecidableEq

def EntryStatus.text : EntryStatus → String
  | .draft => "draft"
  | .posted => "posted"
  | .reversed => "reversed"
  | .void => "void"

inductive EntrySource
  | postingRule
  | manual
  | imported
  | openingBalance
  deriving DecidableEq

def EntrySource.text : EntrySource → String
  | .postingRule => "posting_rule"
  | .manual => "manual"
  | .imported => "import"
  | .openingBalance => "opening_balance"

structure JournalLineRow where
  ledgerAccountId : AccountId
  economicEntityId : Option EntityId
  lineNumber : ℕ
  description : Option String
  currency : String
  amount : Money
  functionalCurrency : String
  functionalAmount : Money
  dimensions : List (DimensionId × DimensionValueId)
  deriving DecidableEq

structure SourceLinkRow where
  sourceFactType : String
  sourceFactId : FactId
  role : SourceLinkRole
  amountContributed : Option Money
  currency : Option String

structure JournalEntryRow where
  id : EntryId
  accountingBookId : BookId
  entryNumber : Option ℕ
  fiscalPeriodId : Option PeriodId
  entryDate : CalendarDate
  status : EntryStatus
  entrySource : EntrySource
  postingRuleVersionId : Option VersionId
  postingKey : Option String
  sourceFactType : Option String
  sourceFactId : Option FactId
  sourceFactFingerprint : Option String
  reversesEntryId : Option EntryId
  isBackdated : Bool
  description : String
  memo : Option String
  lines : List JournalLineRow
  sourceLinks : List SourceLinkRow

/-- The journal tables and each book's `next_entry_number`. Entries stand in the order they
were created. -/
structure Journal where
  entries : List JournalEntryRow
  nextEntryNumber : BookId → ℕ

structure Ledger extends Journal where
  ids : entries.map (·.id) = List.range entries.length
  keys_nodup : (entries.filterMap (·.postingKey)).Nodup
  numbers_lt : ∀ e ∈ entries, ∀ n, e.entryNumber = some n →
    n < nextEntryNumber e.accountingBookId

def Ledger.empty : Ledger where
  entries := []
  nextEntryNumber := fun _ => 1
  ids := rfl
  keys_nodup := List.nodup_nil
  numbers_lt := by simp

structure JournalLineInput where
  ledgerAccountId : Option AccountId
  accountSystemKey : Option String
  economicEntityId : Option EntityId
  lineNumber : Option ℕ
  description : Option String
  currency : Option String
  amount : Money
  dimensions : List (DimensionId × DimensionValueId)

structure PostEntryInput where
  accountingBookId : Option BookId
  economicEntityId : Option EntityId
  installationDefaultBookId : Option BookId
  entryDate : CalendarDate
  description : String
  memo : Option String
  entrySource : EntrySource
  postingRuleVersionId : Option VersionId
  postingKey : Option String
  sourceFactType : Option String
  sourceFactId : Option FactId
  sourceFactFingerprint : Option String
  lines : List JournalLineInput
  sourceLinks : List SourceLinkRow
  allowBackdated : Bool

def invalidInput (path : String) : AccountingError :=
  .validation s!"invalid journal entry input: {path}"

/-- `z.string().trim().min(1)`. -/
def parseText (path value : String) : Result String :=
  if trim value = "" then .error (invalidInput path) else .ok (trim value)

/-- `z.string().trim().min(1).nullish()`. -/
def parseOptionalText (path : String) : Option String → Result (Option String)
  | none => .ok none
  | some value => do
    let parsed ← parseText path value
    return some parsed

/-- `lineSchema`: exactly one way of naming the account. -/
def parseLine (line : JournalLineInput) : Result JournalLineInput := do
  let accountSystemKey ← parseOptionalText "lines.accountSystemKey" line.accountSystemKey
  Except.require (line.lineNumber ≠ some 0) (invalidInput "lines.lineNumber")
  let description ← parseOptionalText "lines.description" line.description
  Except.require (line.currency.all isAlphabeticCode) (invalidInput "lines.currency")
  Except.require (line.ledgerAccountId.isNone ≠ line.accountSystemKey.isNone)
    (invalidInput ("lines.ledgerAccountId: name exactly one of ledgerAccountId or " ++
      "accountSystemKey — an id pins the line to one book's chart, a system key resolves in " ++
      "whichever book the fact routed to, and supplying both invites them to disagree"))
  return { line with accountSystemKey := accountSystemKey, description := description }

def parseLines : List JournalLineInput → Result (List JournalLineInput)
  | [] => .ok []
  | line :: lines => do
    let parsed ← parseLine line
    let rest ← parseLines lines
    return parsed :: rest

/-- `entryBaseSchema`. -/
def parseEntry (input : PostEntryInput) : Result PostEntryInput := do
  let description ← parseText "description" input.description
  let memo ← parseOptionalText "memo" input.memo
  let postingKey ← parseOptionalText "postingKey" input.postingKey
  let sourceFactType ← parseOptionalText "sourceFactType" input.sourceFactType
  let fingerprint ← parseOptionalText "sourceFactFingerprint" input.sourceFactFingerprint
  let lines ← parseLines input.lines
  Except.require (lines ≠ []) (invalidInput "lines")
  return { input with
    description := description
    memo := memo
    postingKey := postingKey
    sourceFactType := sourceFactType
    sourceFactFingerprint := fingerprint
    lines := lines }

section Resolve

variable (setup : Setup) (book : AccountingBookRow)

def resolveAccount (line : JournalLineInput) (position : ℕ) : Result LedgerAccountRow :=
  match line.ledgerAccountId with
  | some id =>
    match setup.findAccount id with
    | some account => .ok account
    | none => .error (.notFound s!"unknown ledger account \"{id}\" on line {position}")
  | none =>
    let systemKey := line.accountSystemKey.getD ""
    match setup.findAccountBySystemKey book.id systemKey with
    | some account => .ok account
    | none => .error (.notFound (s!"book {book.code} has no account carrying system key " ++
      s!"\"{systemKey}\" (line {position}). A rule that " ++
      "resolves a key no account carries is a silent suspense posting."))

def assertAccountUsable (account : LedgerAccountRow) : Result Unit := do
  Except.require (account.accountingBookId = book.id)
    (AccountingError.validation (s!"account {account.code} belongs to another book: a line " ++
      s!"in book {book.code} may never reference it. The composite foreign key " ++
      "refuses it too — this message exists so the reason is legible."))
  Except.require account.isPostable
    (AccountingError.validation (s!"account {account.code} ({account.name}) is a roll-up " ++
      "header and is not postable. Post to one of its children."))
  Except.require (account.status = .active)
    (AccountingError.validation (s!"account {account.code} ({account.name}) is archived and " ++
      "cannot receive new postings"))

def resolveLine (line : JournalLineInput) (position : ℕ) : Result JournalLineRow := do
  let account ← resolveAccount setup book line position
  assertAccountUsable book account
  let currency ← Setup.assertSupportedCurrency (line.currency.getD book.functionalCurrency)
    s!"line {position} of an entry in book {book.code}"
  Except.require (currency = book.functionalCurrency)
    (AccountingError.currency (s!"line {position} is denominated in {currency} but book " ++
      s!"{book.code} reports in {book.functionalCurrency}. This build is " ++
      "single-currency by owner decision; the per-line conversion seam " ++
      "(functional_amount, fx_rate, fx_rate_source) is in the schema and " ++
      "unused, so enabling a second currency later restates nothing."))
  Except.require (line.amount ≠ 0)
    (AccountingError.validation (s!"line {position} has a zero amount: a zero line is not a " ++
      "posting, it is an empty row"))
  return {
    ledgerAccountId := account.id
    economicEntityId := line.economicEntityId
    lineNumber := line.lineNumber.getD position
    description := line.description
    currency := currency
    amount := line.amount
    functionalCurrency := book.functionalCurrency
    functionalAmount := line.amount
    dimensions := line.dimensions }

def resolveLinesFrom : ℕ → List JournalLineInput → Result (List JournalLineRow)
  | _, [] => .ok []
  | position, line :: lines => do
    let resolved ← resolveLine setup book line position
    let rest ← resolveLinesFrom (position + 1) lines
    return resolved :: rest

def resolveLines (lines : List JournalLineInput) : Result (List JournalLineRow) :=
  resolveLinesFrom setup book 1 lines

def assertRequiredDimensions (lines : List JournalLineRow) : Result Unit :=
  let missing := lines.findSome? fun line =>
    ((setup.requiredDimensions book.id).find? fun dimension =>
      !(line.dimensions.map (·.1)).contains dimension.id).map fun dimension =>
        (line.lineNumber, dimension)
  match missing with
  | none => .ok ()
  | some (lineNumber, dimension) =>
    .error (.validation (s!"line {lineNumber} is missing required dimension " ++
      s!"\"{dimension.code}\" ({dimension.name}) for book {book.code}"))

end Resolve

def currencyTotals (currency : JournalLineRow → String) (amount : JournalLineRow → Money)
    (lines : List JournalLineRow) : List (String × Money) :=
  (lines.map currency).eraseDups.map fun c =>
    (c, sumDecimals ((lines.filter fun line => currency line == c).map amount))

def assertBalanced (lines : List JournalLineRow) (context : String) : Result Unit :=
  if lines.length < 2 then
    .error (.unbalanced (s!"{context}: a double-entry needs at least two lines, and this one " ++
      s!"has {lines.length}. A single line cannot sum to zero, because a zero " ++
      "line is refused as an empty row."))
  else
    match (currencyTotals (·.currency) (·.amount) lines).find? (·.2 != 0) with
    | some (currency, total) =>
      .error (.unbalanced (s!"{context}: the {currency} lines sum to {formatDecimal total} " ++
        "instead of 0.000000. Positive is a debit and negative is a credit; a posted entry " ++
        "sums to zero per currency."))
    | none =>
      match (currencyTotals (·.functionalCurrency) (·.functionalAmount) lines).find?
          (·.2 != 0) with
      | some (currency, total) =>
        .error (.unbalanced (s!"{context}: the functional ({currency}) amounts sum to " ++
          s!"{formatDecimal total} instead of 0.000000. When lines use different rates the " ++
          "posting engine adds a balancing fx_gain_loss line; it is never left to the author."))
      | none => .ok ()

/-- What the columns and unique keys of the line tables accept. -/
def storable (lines : List JournalLineRow) : Prop :=
  (lines.map (·.lineNumber)).Nodup ∧
    ∀ line ∈ lines, 0 < line.lineNumber ∧ line.lineNumber < 2147483648 ∧
      line.amount.natAbs < numericLimit ∧ line.functionalAmount.natAbs < numericLimit ∧
      (line.dimensions.map (·.1)).Nodup

instance (lines : List JournalLineRow) : Decidable (storable lines) :=
  inferInstanceAs (Decidable (_ ∧ _))

def inLineOrder (lines : List JournalLineRow) : List JournalLineRow :=
  lines.insertionSort fun a b => a.lineNumber ≤ b.lineNumber

def insertSourceLinks (existing added : List SourceLinkRow) : List SourceLinkRow :=
  added.foldl (fun links link =>
    if links.any fun l => l.sourceFactType == link.sourceFactType &&
        l.sourceFactId == link.sourceFactId && l.role == link.role then links
    else links ++ [link]) existing

/-- The stamp rules `insertHeader` checks: a fact's type and id together, and a rule version
exactly on a rule-produced entry. -/
def assertHeader (entrySource : EntrySource) (sourceFactType : Option String)
    (sourceFactId : Option FactId) (postingRuleVersionId : Option VersionId) : Result Unit := do
  Except.require (sourceFactType.isSome = sourceFactId.isSome)
    (AccountingError.validation ("a source-fact stamp is both a type and an id or neither: a " ++
      "type with no id names nothing, and an id with no type cannot be resolved"))
  Except.require ((entrySource = .postingRule) ↔ postingRuleVersionId.isSome)
    (AccountingError.validation (if entrySource = .postingRule then
      "an entry produced by a posting rule must name the rule VERSION " ++
      "that produced it: an entry posted in March is explainable by " ++
      "exactly the rule text that wrote it, and by nothing else"
    else
      s!"an entry whose source is \"{entrySource.text}\" may not name a " ++
      "posting rule version: a rule must not be blamed for a number a " ++
      "human or an import wrote"))

namespace Journal

variable (j : Journal)

def loadEntry (id : EntryId) : Result JournalEntryRow :=
  match j.entries.find? (·.id == id) with
  | none => .error (.notFound s!"unknown journal entry \"{id}\"")
  | some entry => .ok entry

def existingByPostingKey (postingKey : String) : Option JournalEntryRow :=
  j.entries.find? (·.postingKey == some postingKey)

def reversalOf (id : EntryId) : Option JournalEntryRow :=
  j.entries.find? (·.reversesEntryId == some id)

/-- The largest integer a JavaScript number carries exactly. -/
def maxSafeInteger : ℕ := 9007199254740991

def takeEntryNumber (accountingBookId : BookId) : Result ℕ := do
  let next := j.nextEntryNumber accountingBookId
  Except.require (1 ≤ next ∧ next ≤ maxSafeInteger)
    (AccountingError.conflict
      s!"book \"{accountingBookId}\" has an unusable entry-number counter")
  return next

def appendPosted (e : JournalEntryRow) : Journal where
  entries := j.entries ++ [e]
  nextEntryNumber := fun b =>
    if b = e.accountingBookId then j.nextEntryNumber b + 1 else j.nextEntryNumber b

def stampReversed (id : EntryId) : Journal where
  entries := j.entries.map fun e => if e.id = id then { e with status := .reversed } else e
  nextEntryNumber := j.nextEntryNumber

end Journal

structure PostedEntry where
  entry : JournalEntryRow
  reused : Bool

/-- What a posting transaction has established before it writes. -/
structure PreparedEntry where
  book : AccountingBookRow
  lines : List JournalLineRow
  period : FiscalPeriodRow
  isBackdated : Bool

def bookRoutingError (economicEntityId : Option EntityId) (onDate : CalendarDate) :
    AccountingError where
  errorClass := .bookRouting
  message := match economicEntityId with
    | none => s!"no book could be resolved for a fact on {onDate}: it " ++
      "carries no economic entity and no installation default book is " ++
      "configured. This is the unpostable backlog, not an error to " ++
      "retry — the fact's accounting ownership has not been stated, and " ++
      "guessing it silently is how a ledger stops being trustworthy."
    | some entity => "no book could be resolved for economic entity " ++
      s!"\"{entity}\" on {onDate}: neither it nor " ++
      "any entity it is part of has a posting_primary link covering " ++
      "that date, and no installation default book is configured. Link " ++
      "the entity (or its parent) to a book, then re-run; until then " ++
      "the fact belongs in the unpostable backlog."

/-- `journal.routeBook`: the named book, or the one the entity routes to. -/
def routeEntryBook (setup : Setup) (value : PostEntryInput) : Result AccountingBookRow :=
  match value.accountingBookId with
  | some book => setup.loadBook book
  | none =>
    match setup.resolveBookForEntity value.economicEntityId value.entryDate
        value.installationDefaultBookId with
    | some routing => setup.loadBook routing.accountingBookId
    | none => .error (bookRoutingError value.economicEntityId value.entryDate)

/-- Everything `postEntry` checks once it knows the key is new. -/
def prepareEntry (setup : Setup) (j : Journal) (value : PostEntryInput) :
    Result PreparedEntry := do
  let book ← routeEntryBook setup value
  let lines ← resolveLines setup book value.lines
  assertBalanced lines s!"cannot post \"{value.description}\" into book {book.code}"
  assertRequiredDimensions setup book lines
  let period ← setup.resolvePeriodRow book.id value.entryDate
  let isBackdated ← Setup.assertPeriodAcceptsPosting period value.allowBackdated
  let _ ← j.takeEntryNumber book.id
  assertHeader value.entrySource value.sourceFactType value.sourceFactId
    value.postingRuleVersionId
  Except.require (storable lines) (AccountingError.database "journal_lines")
  return ⟨book, lines, period, isBackdated⟩

def postedRow (j : Journal) (value : PostEntryInput) (p : PreparedEntry) : JournalEntryRow where
  id := j.entries.length
  accountingBookId := p.book.id
  entryNumber := some (j.nextEntryNumber p.book.id)
  fiscalPeriodId := some p.period.id
  entryDate := value.entryDate
  status := .posted
  entrySource := value.entrySource
  postingRuleVersionId := value.postingRuleVersionId
  postingKey := value.postingKey
  sourceFactType := value.sourceFactType
  sourceFactId := value.sourceFactId
  sourceFactFingerprint := value.sourceFactFingerprint
  reversesEntryId := none
  isBackdated := p.isBackdated
  description := value.description
  memo := value.memo
  lines := inLineOrder p.lines
  sourceLinks := insertSourceLinks [] value.sourceLinks

structure ReverseEntryInput where
  journalEntryId : EntryId
  entryDate : Option CalendarDate
  reason : String
  allowBackdated : Bool

def negateLine (line : JournalLineRow) : JournalLineRow :=
  { line with
    amount := negateDecimal line.amount
    functionalAmount := negateDecimal line.functionalAmount }

def missingReasonError : AccountingError :=
  .validation ("reversing an entry requires a reason: the reversal is a permanent " ++
    "row in the audit trail and 'why' is the only part of it a human cannot reconstruct")

def loadReversible (j : Journal) (id : EntryId) : Result JournalEntryRow := do
  let original ← j.loadEntry id
  Except.require (original.status ≠ .draft ∧ original.status ≠ .void)
    (AccountingError.immutable (s!"journal entry {original.id} is {original.status.text} and " ++
      "has not been posted: edit or void it instead. Reversal is the " ++
      "correction path for entries that are in the books."))
  let number := original.entryNumber.getD 0
  Except.require (original.reversesEntryId = none)
    (AccountingError.immutable (s!"journal entry {number} is itself a " ++
      "reversal and may not be reversed. A double negation is indistinguishable " ++
      "from the original while carrying provenance that says " ++
      "otherwise; post a fresh entry stating what is true instead. " ++
      "(PROVISIONAL: the design is silent on reversing a reversal.)"))
  return original

structure PreparedReversal where
  original : JournalEntryRow
  period : FiscalPeriodRow
  isBackdated : Bool

/-- Everything `reverseEntry` checks once it knows that no reversal exists. -/
def prepareReversal (setup : Setup) (j : Journal) (original : JournalEntryRow)
    (entryDate : CalendarDate) (allowBackdated : Bool) : Result PreparedReversal := do
  let book ← setup.loadBook original.accountingBookId
  let number := original.entryNumber.getD 0
  Except.require (original.lines ≠ [])
    (AccountingError.validation s!"journal entry {number} has no lines to reverse")
  let period ← setup.resolvePeriodRow book.id entryDate
  let isBackdated ← Setup.assertPeriodAcceptsPosting period allowBackdated
  let _ ← j.takeEntryNumber book.id
  assertHeader original.entrySource original.sourceFactType original.sourceFactId
    original.postingRuleVersionId
  return ⟨original, period, isBackdated⟩

def reversalRow (j : Journal) (p : PreparedReversal) (entryDate : CalendarDate) (reason : String)
    : JournalEntryRow where
  id := j.entries.length
  accountingBookId := p.original.accountingBookId
  entryNumber := some (j.nextEntryNumber p.original.accountingBookId)
  fiscalPeriodId := some p.period.id
  entryDate := entryDate
  status := .posted
  entrySource := p.original.entrySource
  postingRuleVersionId := p.original.postingRuleVersionId
  postingKey := p.original.postingKey.map ("rev:" ++ ·)
  sourceFactType := p.original.sourceFactType
  sourceFactId := p.original.sourceFactId
  sourceFactFingerprint := p.original.sourceFactFingerprint
  reversesEntryId := some p.original.id
  isBackdated := p.isBackdated
  description := s!"Reversal of {p.original.description}"
  memo := some reason
  lines := p.original.lines.map negateLine
  sourceLinks := insertSourceLinks [] (p.original.sourceLinks ++
    match p.original.sourceFactType, p.original.sourceFactId with
    | some type, some id => [⟨type, id, .reversedFrom, none, none⟩]
    | _, _ => [])

section Lookups

variable {j : Journal} {key : String} {id : EntryId} {e : JournalEntryRow}

theorem existingByPostingKey_none :
    j.existingByPostingKey key = none ↔ ∀ e ∈ j.entries, e.postingKey ≠ some key := by
  simp [Journal.existingByPostingKey, List.find?_eq_none]

theorem existingByPostingKey_some (h : j.existingByPostingKey key = some e) :
    e ∈ j.entries ∧ e.postingKey = some key :=
  ⟨List.mem_of_find?_eq_some h, by simpa using List.find?_some h⟩

theorem reversalOf_none :
    j.reversalOf id = none ↔ ∀ e ∈ j.entries, e.reversesEntryId ≠ some id := by
  simp [Journal.reversalOf, List.find?_eq_none]

theorem loadEntry_eq_ok (h : j.loadEntry id = .ok e) : e ∈ j.entries ∧ e.id = id := by
  unfold Journal.loadEntry at h
  split at h
  · cases h
  · rename_i found hfound
    cases h
    exact ⟨List.mem_of_find?_eq_some hfound, by simpa using List.find?_some hfound⟩

theorem takeEntryNumber_eq_ok {book : BookId} {n : ℕ} : j.takeEntryNumber book = .ok n ↔
    (1 ≤ j.nextEntryNumber book ∧ j.nextEntryNumber book ≤ Journal.maxSafeInteger) ∧
      j.nextEntryNumber book = n := by
  simp only [Journal.takeEntryNumber, Except.bind_eq_ok, Except.require_eq_ok,
    Except.pure_eq_ok, exists_const]

end Lookups

theorem eq_of_nodup_filterMap {α β : Type} {f : α → Option β} {l : List α} {a a' : α} {b : β}
    (hnd : (l.filterMap f).Nodup) (ha : a ∈ l) (ha' : a' ∈ l) (h : f a = some b)
    (h' : f a' = some b) : a = a' := by
  obtain ⟨i, hi, rfl⟩ := List.mem_iff_getElem.1 ha
  obtain ⟨k, hk, rfl⟩ := List.mem_iff_getElem.1 ha'
  rw [List.Nodup, List.pairwise_filterMap, List.pairwise_iff_getElem] at hnd
  rcases lt_trichotomy i k with hlt | rfl | hgt
  · exact absurd rfl (hnd i k hi hk hlt b h b h')
  · rfl
  · exact absurd rfl (hnd k i hk hi hgt b h' b h)

namespace Ledger

variable (ledger : Ledger)

theorem id_lt {e : JournalEntryRow} (he : e ∈ ledger.entries) : e.id < ledger.entries.length := by
  have : e.id ∈ ledger.entries.map (·.id) := List.mem_map_of_mem he
  rwa [ledger.ids, List.mem_range] at this

theorem eq_of_id {e e' : JournalEntryRow} (he : e ∈ ledger.entries) (he' : e' ∈ ledger.entries)
    (h : e.id = e'.id) : e = e' := by
  have hnd : (ledger.entries.map (·.id)).Nodup := by rw [ledger.ids]; exact List.nodup_range
  exact List.inj_on_of_nodup_map hnd he he' h

theorem eq_of_key {e e' : JournalEntryRow} {key : String} (he : e ∈ ledger.entries)
    (he' : e' ∈ ledger.entries) (h : e.postingKey = some key) (h' : e'.postingKey = some key) :
    e = e' :=
  eq_of_nodup_filterMap ledger.keys_nodup he he' h h'

theorem keys_nodup_append {e : JournalEntryRow}
    (hkey : ∀ key, e.postingKey = some key → ledger.existingByPostingKey key = none) :
    ((ledger.entries ++ [e]).filterMap (·.postingKey)).Nodup := by
  rw [List.filterMap_append, List.nodup_append]
  refine ⟨ledger.keys_nodup, ?_, ?_⟩
  · rcases hk : e.postingKey with _ | key <;> simp [hk]
  · rintro a ha b hb rfl
    simp only [List.mem_filterMap, List.mem_singleton, exists_eq_left] at ha hb
    obtain ⟨e', he', hk'⟩ := ha
    exact existingByPostingKey_none.1 (hkey a hb) e' he' hk'

def appendPosted (e : JournalEntryRow) (hid : e.id = ledger.entries.length)
    (hnum : e.entryNumber = some (ledger.nextEntryNumber e.accountingBookId))
    (hkey : ∀ key, e.postingKey = some key → ledger.existingByPostingKey key = none) :
    Ledger where
  toJournal := ledger.toJournal.appendPosted e
  ids := by
    simp only [Journal.appendPosted, List.map_append, List.map_cons, List.map_nil,
      List.length_append, List.length_singleton, List.range_succ, ledger.ids, hid]
  keys_nodup := ledger.keys_nodup_append hkey
  numbers_lt := by
    intro e' he' n hn
    simp only [Journal.appendPosted, List.mem_append, List.mem_singleton] at he' ⊢
    rcases he' with he' | rfl
    · have := ledger.numbers_lt e' he' n hn
      split_ifs <;> omega
    · rw [hnum, Option.some.injEq] at hn
      rw [if_pos rfl]
      omega

def stampReversed (id : EntryId) : Ledger where
  toJournal := ledger.toJournal.stampReversed id
  ids := by
    simp only [Journal.stampReversed, List.map_map, List.length_map]
    rw [← ledger.ids]
    refine List.map_congr_left fun e _ => ?_
    simp only [Function.comp_apply]
    split_ifs <;> rfl
  keys_nodup := by
    have : (ledger.toJournal.stampReversed id).entries.filterMap (·.postingKey) =
        ledger.entries.filterMap (·.postingKey) := by
      simp only [Journal.stampReversed, List.filterMap_map]
      refine List.filterMap_congr fun e _ => ?_
      simp only [Function.comp_apply]
      split_ifs <;> rfl
    rw [this]
    exact ledger.keys_nodup
  numbers_lt := by
    intro e' he' n hn
    simp only [Journal.stampReversed, List.mem_map] at he'
    obtain ⟨e, he, rfl⟩ := he'
    simp only [Journal.stampReversed]
    split_ifs at hn ⊢ <;> exact ledger.numbers_lt e he n hn

end Ledger

def postEntry (setup : Setup) (ledger : Ledger) (input : PostEntryInput) :
    Result (PostedEntry × Ledger) := do
  let value ← parseEntry input
  match hkey : value.postingKey.bind ledger.existingByPostingKey with
  | some existing => return (⟨existing, true⟩, ledger)
  | none => do
    let prepared ← prepareEntry setup ledger.toJournal value
    let row := postedRow ledger.toJournal value prepared
    return (⟨row, false⟩, ledger.appendPosted row rfl rfl (by
      intro key (h : value.postingKey = some key)
      rwa [h] at hkey))

def reverseEntry (setup : Setup) (ledger : Ledger) (input : ReverseEntryInput) :
    Result (PostedEntry × Ledger) := do
  Except.require (trim input.reason ≠ "") missingReasonError
  let original ← loadReversible ledger.toJournal input.journalEntryId
  match ledger.reversalOf original.id with
  | some already => return (⟨already, true⟩, ledger)
  | none => do
    let entryDate := input.entryDate.getD original.entryDate
    let prepared ← prepareReversal setup ledger.toJournal original entryDate input.allowBackdated
    let row := reversalRow ledger.toJournal prepared entryDate (trim input.reason)
    if hkey : ∀ key, row.postingKey = some key → ledger.existingByPostingKey key = none then do
      -- the immutability trigger takes the stamp on a posted entry only
      Except.require (original.status = .posted) (AccountingError.database
        ("journal_entries is immutable once posted: UPDATE of a " ++ original.status.text ++
          " entry is not permitted"))
      return (⟨row, false⟩, (ledger.appendPosted row rfl rfl hkey).stampReversed original.id)
    else .error (AccountingError.database "journal_entries_posting_key_uq")

/-!
## Drafts

`createDraft` writes an entry outside the books, `postDraft` is its transition into them and
`voidDraft` abandons it. With `postEntry` and `reverseEntry` these are all the calls that write
the journal.
-/

/-- The base schema of `postEntry`: `allowBackdated` is none of its fields and is never read. -/
abbrev CreateDraftInput := PostEntryInput

structure PostDraftInput where
  journalEntryId : EntryId
  allowBackdated : Bool

structure VoidDraftInput where
  journalEntryId : EntryId
  reason : String

structure PreparedDraft where
  book : AccountingBookRow
  lines : List JournalLineRow

/-- Everything `createDraft` checks. The lines need not balance: an entry being assembled is
legitimately unbalanced. -/
def prepareDraft (setup : Setup) (value : CreateDraftInput) : Result PreparedDraft := do
  let book ← routeEntryBook setup value
  let lines ← resolveLines setup book value.lines
  assertHeader value.entrySource value.sourceFactType value.sourceFactId
    value.postingRuleVersionId
  Except.require (storable lines) (AccountingError.database "journal_lines")
  return ⟨book, lines⟩

def draftRow (j : Journal) (value : CreateDraftInput) (p : PreparedDraft) : JournalEntryRow where
  id := j.entries.length
  accountingBookId := p.book.id
  entryNumber := none
  fiscalPeriodId := none
  entryDate := value.entryDate
  status := .draft
  entrySource := value.entrySource
  postingRuleVersionId := value.postingRuleVersionId
  postingKey := value.postingKey
  sourceFactType := value.sourceFactType
  sourceFactId := value.sourceFactId
  sourceFactFingerprint := value.sourceFactFingerprint
  reversesEntryId := none
  isBackdated := false
  description := value.description
  memo := value.memo
  lines := inLineOrder p.lines
  sourceLinks := insertSourceLinks [] value.sourceLinks

def entryName (e : JournalEntryRow) : String :=
  match e.entryNumber with
  | some number => toString number
  | none => toString e.id

def loadDraft (j : Journal) (id : EntryId) : Result JournalEntryRow := do
  let draft ← j.loadEntry id
  Except.require (draft.status = .draft)
    (AccountingError.immutable (s!"journal entry {entryName draft} is {draft.status.text}, " ++
      "not a draft: a posted entry is corrected by a reversing entry, never re-posted"))
  return draft

/-- What the transition of a draft has established before it writes. -/
structure PreparedPosting where
  period : FiscalPeriodRow
  isBackdated : Bool

/-- Everything `postDraft` checks of a draft. -/
def preparePosting (setup : Setup) (j : Journal) (draft : JournalEntryRow) (allowBackdated : Bool)
    : Result PreparedPosting := do
  let book ← setup.loadBook draft.accountingBookId
  assertBalanced draft.lines s!"cannot post draft \"{draft.description}\" in book {book.code}"
  assertRequiredDimensions setup book draft.lines
  let period ← setup.resolvePeriodRow book.id draft.entryDate
  let isBackdated ← Setup.assertPeriodAcceptsPosting period allowBackdated
  let _ ← j.takeEntryNumber book.id
  return ⟨period, isBackdated⟩

/-- The columns `markPosted` writes. -/
def postedFrom (number : ℕ) (p : PreparedPosting) (e : JournalEntryRow) : JournalEntryRow :=
  { e with
    status := .posted
    entryNumber := some number
    fiscalPeriodId := some p.period.id
    isBackdated := p.isBackdated }

def missingVoidReasonError : AccountingError :=
  .validation ("voiding a draft requires a reason: the row is kept rather than " ++
    "deleted so the record of the abandoned attempt survives")

def notVoidableError (e : JournalEntryRow) : AccountingError :=
  .immutable (s!"journal entry {entryName e} is {e.status.text}: a posted entry is never " ++
    "voided, it is reversed. Void exists only for a draft that was abandoned.")

namespace Journal

variable (j : Journal)

def appendDraft (e : JournalEntryRow) : Journal where
  entries := j.entries ++ [e]
  nextEntryNumber := j.nextEntryNumber

def updateEntry (id : EntryId) (update : JournalEntryRow → JournalEntryRow) : Journal where
  entries := j.entries.map fun e => if e.id = id then update e else e
  nextEntryNumber := j.nextEntryNumber

def markPosted (draft : JournalEntryRow) (number : ℕ) (p : PreparedPosting) : Journal where
  entries := (j.updateEntry draft.id (postedFrom number p)).entries
  nextEntryNumber := fun b =>
    if b = draft.accountingBookId then j.nextEntryNumber b + 1 else j.nextEntryNumber b

def voided (e : JournalEntryRow) : JournalEntryRow := { e with status := .void }

def stampVoid (id : EntryId) : Journal := j.updateEntry id voided

variable {j} {id : EntryId} {update : JournalEntryRow → JournalEntryRow}

theorem map_updateEntry (j : Journal) (id : EntryId) {α : Type} {f : JournalEntryRow → α}
    (hf : ∀ e, f (update e) = f e) :
    (j.updateEntry id update).entries.map f = j.entries.map f := by
  simp only [updateEntry, List.map_map]
  refine List.map_congr_left fun e _ => ?_
  simp only [Function.comp_apply]
  split_ifs
  · exact hf e
  · rfl

theorem mem_updateEntry {e' : JournalEntryRow} : e' ∈ (j.updateEntry id update).entries ↔
    ∃ e ∈ j.entries, (if e.id = id then update e else e) = e' := List.mem_map

end Journal

namespace Ledger

variable (ledger : Ledger)

def appendDraft (e : JournalEntryRow) (hid : e.id = ledger.entries.length)
    (hnum : e.entryNumber = none)
    (hkey : ∀ key, e.postingKey = some key → ledger.existingByPostingKey key = none) :
    Ledger where
  toJournal := ledger.toJournal.appendDraft e
  ids := by
    simp only [Journal.appendDraft, List.map_append, List.map_cons, List.map_nil,
      List.length_append, List.length_singleton, List.range_succ, ledger.ids, hid]
  keys_nodup := ledger.keys_nodup_append hkey
  numbers_lt := by
    intro e' he' n hn
    simp only [Journal.appendDraft, List.mem_append, List.mem_singleton] at he' ⊢
    rcases he' with he' | rfl
    · exact ledger.numbers_lt e' he' n hn
    · rw [hnum] at hn
      cases hn

section Update

variable {id : EntryId} {update : JournalEntryRow → JournalEntryRow}

theorem ids_update (hid : ∀ e, (update e).id = e.id) :
    (ledger.toJournal.updateEntry id update).entries.map (·.id) =
      List.range (ledger.toJournal.updateEntry id update).entries.length := by
  rw [Journal.map_updateEntry _ _ hid, ledger.ids]
  simp [Journal.updateEntry]

theorem keys_nodup_update (hkey : ∀ e, (update e).postingKey = e.postingKey) :
    ((ledger.toJournal.updateEntry id update).entries.filterMap (·.postingKey)).Nodup := by
  have h := congrArg (List.filterMap fun key => key)
    (ledger.toJournal.map_updateEntry id hkey)
  rw [List.filterMap_map, List.filterMap_map] at h
  exact (congrArg List.Nodup h).mpr ledger.keys_nodup

end Update

def markPosted (draft : JournalEntryRow) (hdraft : draft ∈ ledger.entries) (p : PreparedPosting)
    : Ledger where
  toJournal := ledger.toJournal.markPosted draft
    (ledger.nextEntryNumber draft.accountingBookId) p
  ids := ledger.ids_update fun _ => rfl
  keys_nodup := ledger.keys_nodup_update fun _ => rfl
  numbers_lt := by
    intro e' he' n hn
    obtain ⟨e, he, rfl⟩ := Journal.mem_updateEntry.1 he'
    by_cases hid : e.id = draft.id
    · obtain rfl := ledger.eq_of_id he hdraft hid
      rw [if_pos rfl] at hn ⊢
      simp only [postedFrom, Option.some.injEq, Journal.markPosted, if_true] at hn ⊢
      omega
    · rw [if_neg hid] at hn ⊢
      have := ledger.numbers_lt e he n hn
      simp only [Journal.markPosted]
      split_ifs <;> omega

def stampVoid (id : EntryId) : Ledger where
  toJournal := ledger.toJournal.stampVoid id
  ids := ledger.ids_update fun _ => rfl
  keys_nodup := ledger.keys_nodup_update fun _ => rfl
  numbers_lt := by
    intro e' he' n hn
    obtain ⟨e, he, rfl⟩ := Journal.mem_updateEntry.1 he'
    split_ifs at hn ⊢ <;> exact ledger.numbers_lt e he n hn

end Ledger

theorem loadDraft_eq_ok {j : Journal} {id : EntryId} {draft : JournalEntryRow} :
    loadDraft j id = .ok draft ↔ j.loadEntry id = .ok draft ∧ draft.status = .draft := by
  simp only [loadDraft, Except.bind_eq_ok, Except.require_eq_ok, Except.pure_eq_ok, exists_const]
  constructor
  · rintro ⟨e, he, hst, rfl⟩
    exact ⟨he, hst⟩
  · rintro ⟨he, hst⟩
    exact ⟨draft, he, hst, rfl⟩

def createDraft (setup : Setup) (ledger : Ledger) (input : CreateDraftInput) :
    Result (PostedEntry × Ledger) := do
  let value ← parseEntry input
  let prepared ← prepareDraft setup value
  let row := draftRow ledger.toJournal value prepared
  if hkey : ∀ key, row.postingKey = some key → ledger.existingByPostingKey key = none then
    return (⟨row, false⟩, ledger.appendDraft row rfl rfl hkey)
  else .error (AccountingError.database "journal_entries_posting_key_uq")

def postDraft (setup : Setup) (ledger : Ledger) (input : PostDraftInput) :
    Result (PostedEntry × Ledger) :=
  match hload : loadDraft ledger.toJournal input.journalEntryId with
  | .error e => .error e
  | .ok draft => do
    let p ← preparePosting setup ledger.toJournal draft input.allowBackdated
    return (⟨postedFrom (ledger.nextEntryNumber draft.accountingBookId) p draft, false⟩,
      ledger.markPosted draft (loadEntry_eq_ok (loadDraft_eq_ok.1 hload).1).1 p)

def voidDraft (ledger : Ledger) (input : VoidDraftInput) : Result (JournalEntryRow × Ledger) := do
  Except.require (trim input.reason ≠ "") missingVoidReasonError
  let before ← ledger.loadEntry input.journalEntryId
  if before.status = .void then return (before, ledger)
  else do
    Except.require (before.status = .draft) (notVoidableError before)
    return (Journal.voided before, ledger.stampVoid before.id)

inductive JournalCall
  | createDraft (input : CreateDraftInput)
  | postDraft (input : PostDraftInput)
  | voidDraft (input : VoidDraftInput)
  | postEntry (input : PostEntryInput)
  | reverseEntry (input : ReverseEntryInput)

/-- The entry a call returns; `voidDraft` has no `reused` to return. -/
def perform (setup : Setup) (ledger : Ledger) : JournalCall → Result (PostedEntry × Ledger)
  | .createDraft input => createDraft setup ledger input
  | .postDraft input => postDraft setup ledger input
  | .voidDraft input => do
    let (entry, ledger) ← voidDraft ledger input
    return (⟨entry, false⟩, ledger)
  | .postEntry input => postEntry setup ledger input
  | .reverseEntry input => reverseEntry setup ledger input

end Loxep

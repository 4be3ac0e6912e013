import Loxep.Journal
import Loxep.Lib.Runs

/-!
# Concurrent journal transactions

Every call runs in one transaction under READ COMMITTED: each statement reads what is committed, the
writes appear at the commit, and any transaction may abort. Only the row of the book is locked, from
the moment the number is taken. A unique key or a row trigger that refuses a write aborts.
-/

namespace Loxep

abbrev TxId := ℕ

inductive NumberedWrite
  | post (value : PostEntryInput) (p : PreparedEntry)
  | confirm (draft : JournalEntryRow) (p : PreparedPosting)
  | reverse (p : PreparedReversal) (entryDate : CalendarDate) (reason : String)

/-- How far a transaction has come, with what it has read so far. -/
inductive TxStage
  | idle
  | requested (call : JournalCall)
  | drafting (value : CreateDraftInput) (p : PreparedDraft)
  /-- `postEntry`, its key looked up and not found. -/
  | posting (value : PostEntryInput)
  /-- `postDraft`, its draft loaded. -/
  | confirming (draft : JournalEntryRow) (allowBackdated : Bool)
  | voiding (before : JournalEntryRow)
  /-- `reverseEntry`, the original loaded. -/
  | reversing (original : JournalEntryRow) (input : ReverseEntryInput)
  /-- `reverseEntry`, no reversal found. -/
  | correcting (original : JournalEntryRow) (input : ReverseEntryInput)
  | numbered (book : BookId) (number : ℕ) (write : NumberedWrite)
  | finished

/-- What the next statements of a transaction come to. -/
inductive TxOutcome
  | goTo (stage : TxStage)
  /-- `select … for update` on the row of the book. -/
  | lock (book : BookId) (write : NumberedWrite)
  | commit (journal : Journal)
  /-- Returned or raised, nothing written. -/
  | finish

namespace TxOutcome

def ofRead : Result (Option TxStage) → TxOutcome
  | .ok (some stage) => .goTo stage
  | .ok none => .finish
  | .error _ => .finish

def ofCheck : Result (BookId × NumberedWrite) → TxOutcome
  | .ok (book, write) => .lock book write
  | .error _ => .finish

end TxOutcome

/-- `journal_entries_posting_key_uq` takes the row. -/
def keyFree (j : Journal) (row : JournalEntryRow) : Bool :=
  (row.postingKey.bind j.existingByPostingKey).isNone

/-- The status a row trigger finds in `OLD`. -/
def storedStatus (j : Journal) (id : EntryId) : Option EntryStatus :=
  (j.entries.find? (·.id == id)).map (·.status)

def NumberedWrite.commit (j : Journal) (number : ℕ) : NumberedWrite → TxOutcome
  | .post value p =>
    let row := { postedRow j value p with entryNumber := some number }
    if keyFree j row then .commit (j.appendPosted row) else .finish
  | .confirm draft p =>
    if storedStatus j draft.id = some .draft then .commit (j.markPosted draft number p)
    else .finish
  | .reverse p entryDate reason =>
    let row := { reversalRow j p entryDate reason with entryNumber := some number }
    if keyFree j row ∧ storedStatus j p.original.id = some .posted then
      .commit ((j.appendPosted row).stampReversed p.original.id)
    else .finish

section Proceed

variable (setup : Setup) (j : Journal)

def begun : JournalCall → Result (Option TxStage)
  | .createDraft input => do
    let value ← parseEntry input
    let p ← prepareDraft setup value
    return some (.drafting value p)
  | .postDraft input => do
    let draft ← loadDraft j input.journalEntryId
    return some (.confirming draft input.allowBackdated)
  | .voidDraft input => do
    Except.require (trim input.reason ≠ "") missingVoidReasonError
    let before ← j.loadEntry input.journalEntryId
    if before.status = .void then return none
    else do
      Except.require (before.status = .draft) (notVoidableError before)
      return some (.voiding before)
  | .postEntry input => do
    let value ← parseEntry input
    match value.postingKey.bind j.existingByPostingKey with
    | some _ => return none
    | none => return some (.posting value)
  | .reverseEntry input => do
    Except.require (trim input.reason ≠ "") missingReasonError
    let original ← loadReversible j input.journalEntryId
    return some (.reversing original input)

def checkedPost (value : PostEntryInput) : Result (BookId × NumberedWrite) := do
  let p ← prepareEntry setup j value
  return (p.book.id, .post value p)

def checkedConfirm (draft : JournalEntryRow) (allowBackdated : Bool) :
    Result (BookId × NumberedWrite) := do
  let p ← preparePosting setup j draft allowBackdated
  return (draft.accountingBookId, .confirm draft p)

def checkedReverse (original : JournalEntryRow) (input : ReverseEntryInput) :
    Result (BookId × NumberedWrite) := do
  let entryDate := input.entryDate.getD original.entryDate
  let p ← prepareReversal setup j original entryDate input.allowBackdated
  return (original.accountingBookId, .reverse p entryDate (trim input.reason))

def proceed : TxStage → TxOutcome
  | .idle => .goTo .idle
  | .requested call => .ofRead (begun setup j call)
  | .drafting value p =>
    let row := draftRow j value p
    if keyFree j row then .commit (j.appendDraft row) else .finish
  | .posting value => .ofCheck (checkedPost setup j value)
  | .confirming draft allowBackdated => .ofCheck (checkedConfirm setup j draft allowBackdated)
  | .voiding before =>
    if storedStatus j before.id = some .draft then .commit (j.stampVoid before.id) else .finish
  | .reversing original input =>
    match j.reversalOf original.id with
    | some _ => .finish
    | none => .goTo (.correcting original input)
  | .correcting original input => .ofCheck (checkedReverse setup j original input)
  | .numbered _ number write => write.commit j number
  | .finished => .finish

end Proceed

structure JournalSessions where
  journal : Journal
  holder : BookId → Option TxId
  stage : TxId → TxStage

inductive JournalAction
  | begin (tx : TxId) (call : JournalCall)
  | proceed (tx : TxId)
  | abort (tx : TxId)

namespace JournalSessions

/-- New books, their counters at one, and no transaction yet. -/
def initial : JournalSessions where
  journal := Ledger.empty.toJournal
  holder := fun _ => none
  stage := fun _ => .idle

def setStage (s : JournalSessions) (tx : TxId) (stage : TxStage) : JournalSessions :=
  { s with stage := fun t => if t = tx then stage else s.stage t }

/-- The transaction ends and its row lock is released. -/
def finish (s : JournalSessions) (tx : TxId) : JournalSessions where
  journal := s.journal
  holder := fun b => if s.holder b = some tx then none else s.holder b
  stage := fun t => if t = tx then .finished else s.stage t

/-- The transaction takes the row of the book and reads its counter, or waits for it. -/
def lock (s : JournalSessions) (tx : TxId) (book : BookId) (write : NumberedWrite) :
    JournalSessions :=
  match s.holder book with
  | some _ => s
  | none =>
    { s.setStage tx (.numbered book (s.journal.nextEntryNumber book) write) with
      holder := fun b => if b = book then some tx else s.holder b }

def step (setup : Setup) (s : JournalSessions) : JournalAction → JournalSessions
  | .begin tx call =>
    match s.stage tx with
    | .idle => s.setStage tx (.requested call)
    | _ => s
  | .proceed tx =>
    match Loxep.proceed setup s.journal (s.stage tx) with
    | .goTo stage => s.setStage tx stage
    | .lock book write => s.lock tx book write
    | .commit journal => { s.finish tx with journal := journal }
    | .finish => s.finish tx
  | .abort tx =>
    match s.stage tx with
    | .idle => s
    | _ => s.finish tx

end JournalSessions

end Loxep

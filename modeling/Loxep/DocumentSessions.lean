import Loxep.Documents
import Loxep.PurchaseSync

/-!
# The lines of a document, written side by side

Whatever writes the lines of a document ends its transaction by counting them and caching counts and
status on the document's row. A count sees the committed lines and the transaction's own. A written
row, and an inserted line number, is held to the end of its transaction.
-/

namespace Loxep

inductive DocumentStatus
  | pending
  | parsing
  | review
  | partiallyConfirmed
  | confirmed
  | discarded
  | failed
  deriving DecidableEq

inductive DocumentKind
  | receipt
  | invoice
  | packingSlip
  | statement
  | csvImport
  deriving DecidableEq

/-- `PARSEABLE_DOCUMENT_KINDS`. -/
def DocumentKind.isParseable (kind : DocumentKind) : Bool := kind != .csvImport

abbrev StoredMediaId := ℕ

structure StagedDocumentRow where
  documentKind : DocumentKind
  mediaObjectId : Option StoredMediaId
  status : DocumentStatus := .pending
  lineCount : ℕ := 0
  confirmedCount : ℕ := 0
  parserId : Option String := none
  parsedText : Option String := none
  currency : Option String := none
  documentTotal : Option Money := none
  note : Option String := none

structure CandidateInsertValue where
  description : Option String := none
  quantity : Option Money := none
  unitAmount : Option Money := none
  lineAmount : Option Money := none
  currency : Option String := none
  lineDate : Option CalendarDate := none
  confidence : Option ℕ := none
  sourceRegion : Option String := none
  rowFingerprint : Option String := none
  disposition : Disposition := .pending

structure DocumentLineRow extends CandidateInsertValue where
  id : CandidateId
  lineNumber : ℕ
  confirmedInto : Option (CandidateTargetKind × ℕ) := none
  extracted : Option ℕ := none

namespace DocumentLineRow

variable (row : DocumentLineRow)

def isResolved : Bool :=
  [Disposition.personal, .notMine, .duplicate, .discarded].contains row.disposition

def isConfirmed : Bool := row.confirmedInto.isSome

def isPending : Bool := !row.isConfirmed && !row.isResolved

end DocumentLineRow

structure ParseResultLine where
  description : Option String := none
  quantity : Option Money := none
  unitAmount : Option Money := none
  lineAmount : Option Money := none
  confidence : ℕ
  sourceRegion : Option String := none

structure ParseResult where
  parserId : String
  currency : Option String := none
  documentTotal : Option Money := none
  text : Option String := none
  lines : List ParseResultLine

def ParseResult.insertValues (result : ParseResult) : List CandidateInsertValue :=
  result.lines.map fun line =>
    { description := line.description
      quantity := line.quantity
      unitAmount := line.unitAmount
      lineAmount := line.lineAmount
      currency := result.currency
      confidence := some line.confidence
      sourceRegion := line.sourceRegion }

/-- `MANUAL_LINE_CONFIDENCE`, in thousandths. -/
def manualLineConfidence : ℕ := 1000

/-- A row of a CSV import, its values as they were read. -/
structure CsvCandidateInput where
  lineNumber : ℕ
  description : Option String
  lineAmount : Option String
  lineDate : Option CalendarDate
  currency : Option String
  payeeName : Option String
  rowFingerprint : String
  rowWarnings : List String

namespace CsvCandidateInput

def isText (text : String) : Bool := !text.toList.contains '\x00'

def fitsNumeric (amount : String) : Bool := (numericOf amount).natAbs < numericLimit

/-- A `char(3)` column cuts blanks off what is longer. -/
def fitsChar3 (text : String) : Bool := isText text && (text.toList.drop 3).all (· == ' ')

/-- It pads what is shorter. -/
def char3 (text : String) : String :=
  String.ofList (text.toList.take 3 ++ List.replicate (3 - text.length) ' ')

def isCalendarDate (d : CalendarDate) : Bool :=
  1 ≤ d.year && 1 ≤ d.month && d.month ≤ 12 && 1 ≤ d.day && d.day ≤ lastDayOfMonth d.year d.month

variable (row : CsvCandidateInput)

/-- The table has no column for a payee. -/
def folded : Option String :=
  match row.payeeName, row.description with
  | some payee, some description =>
    if payee ≠ "" ∧ description ≠ "" then some s!"{payee} — {description}" else some description
  | payee, none => payee
  | none, description => description

def storedValue : CandidateInsertValue where
  description := row.folded
  lineAmount := row.lineAmount.map numericOf
  currency := row.currency.map char3
  lineDate := row.lineDate
  confidence := some manualLineConfidence
  rowFingerprint := some row.rowFingerprint
  disposition := if row.rowWarnings.isEmpty ∧ row.lineAmount.isSome then .expense else .pending

/-- The value of the row, unless a column refuses it. -/
def insertValue : Except String CandidateInsertValue := do
  Except.require (row.folded.all isText = true) "invalid byte sequence for encoding \"UTF8\": 0x00"
  Except.require (row.lineAmount.all fitsNumeric = true) "numeric field overflow"
  Except.require (row.currency.all fitsChar3 = true) "value too long for type character(3)"
  Except.require (row.lineDate.all isCalendarDate = true) "date/time field value out of range"
  return row.storedValue

end CsvCandidateInput

structure AddLineInput where
  description : Option String := none
  quantity : Option Money := none
  unitAmount : Option Money := none
  lineAmount : Option Money := none
  currency : Option String := none
  lineDate : Option CalendarDate := none
  disposition : Disposition := .pending

def AddLineInput.parse (input : AddLineInput) : Bool :=
  decide (∀ text ∈ input.description, trim text ≠ "") &&
    decide (∀ code ∈ input.currency, isCurrencyCode (trim code) = true)

def AddLineInput.insertValue (input : AddLineInput) : CandidateInsertValue where
  description := input.description.map trim
  quantity := input.quantity
  unitAmount := input.unitAmount
  lineAmount := input.lineAmount
  currency := input.currency.map fun code => (trim code).toUpper
  lineDate := input.lineDate
  confidence := some manualLineConfidence
  disposition := input.disposition

inductive LineWrite
  | insert (row : DocumentLineRow)
  | dispose (id : CandidateId) (disposition : Disposition)
  /-- Only where the line is not confirmed. -/
  | disposeUnconfirmed (id : CandidateId) (disposition : Disposition)
  | stamp (id : CandidateId) (target : CandidateTargetKind × ℕ)
  | delete (id : CandidateId)

def findLine (lines : List DocumentLineRow) (id : CandidateId) : Option DocumentLineRow :=
  lines.find? (·.id == id)

def updateLine (lines : List DocumentLineRow) (id : CandidateId)
    (f : DocumentLineRow → DocumentLineRow) : List DocumentLineRow :=
  lines.map fun row => if row.id = id then f row else row

namespace LineWrite

def apply (lines : List DocumentLineRow) : LineWrite → List DocumentLineRow
  | insert row => lines ++ [row]
  | dispose id disposition | disposeUnconfirmed id disposition =>
    updateLine lines id fun row => { row with disposition := disposition }
  | stamp id target => updateLine lines id fun row => { row with confirmedInto := some target }
  | delete id => lines.filter (·.id ≠ id)

def applyAll (lines : List DocumentLineRow) (writes : List LineWrite) : List DocumentLineRow :=
  writes.foldl apply lines

def insertedNumbers (writes : List LineWrite) : List ℕ :=
  writes.filterMap fun w => match w with
    | insert row => some row.lineNumber
    | _ => none

def hits (lines : List DocumentLineRow) : LineWrite → Bool
  | insert _ => true
  | dispose id _ | stamp id _ | delete id => (findLine lines id).isSome
  | disposeUnconfirmed id _ => (findLine lines id).any (!·.isConfirmed)

end LineWrite

def candidateLine (startingLine : ℕ) (ids : ℕ → CandidateId) (extracted : Bool) (index : ℕ)
    (value : CandidateInsertValue) : DocumentLineRow :=
  { value with
    id := ids index
    lineNumber := startingLine + index
    extracted := if extracted then some index else none }

def insertCandidates (startingLine : ℕ) (ids : ℕ → CandidateId) (extracted : Bool)
    (values : List CandidateInsertValue) : List LineWrite :=
  (values.mapIdx (candidateLine startingLine ids extracted)).map .insert

structure DocumentCounts where
  total : ℕ
  confirmed : ℕ
  pending : ℕ
  deriving DecidableEq

def countLines (lines : List DocumentLineRow) : DocumentCounts where
  total := lines.length
  confirmed := lines.countP (·.isConfirmed)
  pending := lines.countP (·.isPending)

def deriveDocumentStatus (counts : DocumentCounts) (status : DocumentStatus) : DocumentStatus :=
  if counts.total = 0 then status
  else if counts.pending = 0 then .confirmed
  else if 0 < counts.confirmed then .partiallyConfirmed
  else .review

namespace StagedDocumentRow

variable (document : StagedDocumentRow)

def recomputeDocumentCounters (counts : DocumentCounts) : StagedDocumentRow :=
  { document with
    lineCount := counts.total
    confirmedCount := counts.confirmed
    status := deriveDocumentStatus counts document.status }

def givenText (text : Option String) : Option String := text.filter (· ≠ "")

def parsed (result : ParseResult) : StagedDocumentRow :=
  { document with
    parserId := some result.parserId
    parsedText := (givenText result.text).or document.parsedText
    currency := (givenText result.currency).or document.currency
    documentTotal := result.documentTotal.or document.documentTotal }

def discard (reason : Option String) : StagedDocumentRow :=
  { document with
    status := .discarded
    note := (givenText reason).or document.note }

end StagedDocumentRow

inductive DocumentCall
  | recordParseResult (result : ParseResult) (ids : ℕ → CandidateId)
  | runDocumentTextExtraction (ids : ℕ → CandidateId)
  | stageCsvRows (rows : List CsvCandidateInput) (ids : ℕ → CandidateId)
  | addLine (input : AddLineInput) (id : CandidateId)
  | removeLine (id : CandidateId)
  | setDisposition (id : CandidateId) (disposition : Disposition)
  | bulkSetDisposition (ids : List CandidateId) (disposition : Disposition)
  | stampConfirmed (id : CandidateId) (kind : CandidateTargetKind) (targetId : ℕ)
  | discard (reason : Option String)

structure LineTransaction where
  /-- The parse it records on the document before it counts. -/
  result : Option ParseResult := none
  /-- It records the extraction. -/
  extracts : Bool := false
  /-- Without a write it does not count. -/
  countsIfWritten : Bool := false
  /-- The line it loads at its end. -/
  reloads : Option CandidateId := none

inductive DocumentStage
  | idle
  | writing (tx : LineTransaction) (left done : List LineWrite)
  /-- The statement that caches the counts has read them. -/
  | counted (tx : LineTransaction) (done : List LineWrite) (counts : DocumentCounts)
  /-- It has written the document. -/
  | cached (tx : LineTransaction) (done : List LineWrite) (counts : DocumentCounts)
  /-- `discard`, its check passed. -/
  | discarding (reason : Option String)
  | sweeping (reason : Option String) (left done : List CandidateId)
  | swept (reason : Option String) (done : List CandidateId)
  | finished

abbrev DocumentSessionId := ℕ

inductive DocumentAction
  | call (session : DocumentSessionId) (call : DocumentCall)
  | proceed (session : DocumentSessionId)
  | commit (session : DocumentSessionId)
  | abort (session : DocumentSessionId)

/-- The committed document and lines, whether a line was added or reopened since the document was
discarded, who holds which row and number, and the open transactions. -/
structure DocumentSystem where
  document : StagedDocumentRow
  lines : List DocumentLineRow
  untouched : Bool := false
  documentLock : Option DocumentSessionId := none
  lineLock : CandidateId → Option DocumentSessionId := fun _ => none
  numberLock : ℕ → Option DocumentSessionId := fun _ => none
  stage : DocumentSessionId → DocumentStage := fun _ => .idle

namespace DocumentSystem

variable (s : DocumentSystem) (parser : StoredMediaId → DocumentKind → ParseResult)

def setStage (session : DocumentSessionId) (stage : DocumentStage) : DocumentSystem :=
  { s with stage := fun other => if other = session then stage else s.stage other }

def isFree (lock : Option DocumentSessionId) (session : DocumentSessionId) : Bool :=
  lock.all (· == session)

def released (lock : Option DocumentSessionId) (session : DocumentSessionId) :
    Option DocumentSessionId := if lock = some session then none else lock

def close (session : DocumentSessionId) : DocumentSystem :=
  { s with
    documentLock := released s.documentLock session
    lineLock := fun id => released (s.lineLock id) session
    numberLock := fun n => released (s.numberLock n) session
    stage := fun other => if other = session then .idle else s.stage other }

def lockDocument (session : DocumentSessionId) : DocumentSystem :=
  { s with documentLock := some session }

def lockLine (session : DocumentSessionId) (id : CandidateId) : DocumentSystem :=
  { s with lineLock := fun other => if other = id then some session else s.lineLock other }

def holdNumber (session : DocumentSessionId) (n : ℕ) : DocumentSystem :=
  { s with numberLock := fun other => if other = n then some session else s.numberLock other }

/-- `coalesce(max(line_number), 0) + 1`. -/
def nextLineNumber : ℕ := (s.lines.map (·.lineNumber)).foldl max 0 + 1

def begin : DocumentCall → Option DocumentStage
  | .recordParseResult result ids =>
    some (.writing { result := some result }
      (insertCandidates (s.document.lineCount + 1) ids false result.insertValues) [])
  | .runDocumentTextExtraction ids =>
    match s.document.mediaObjectId with
    | none => none
    | some media =>
      if s.document.documentKind.isParseable then
        let result := parser media s.document.documentKind
        some (.writing { result := some result, extracts := true }
          (insertCandidates (s.document.lineCount + 1) ids true result.insertValues) [])
      else none
  | .stageCsvRows rows ids => (rows.mapM CsvCandidateInput.insertValue).toOption.map fun values =>
    .writing {} (insertCandidates (s.document.lineCount + 1) ids false values) []
  | .addLine input id =>
    if input.parse then
      some (.writing {} (insertCandidates s.nextLineNumber (fun _ => id) false
        [input.insertValue]) [])
    else none
  | .removeLine id => (findLine s.lines id).bind fun before =>
    if before.isConfirmed then none else some (.writing {} [.delete id] [])
  | .setDisposition id disposition => (findLine s.lines id).bind fun before =>
    if before.isConfirmed then none
    else some (.writing { reloads := some id } [.dispose id disposition] [])
  | .bulkSetDisposition ids disposition =>
    some (.writing { countsIfWritten := true }
      ((s.lines.filter fun row => ids.contains row.id && !row.isConfirmed).map fun row =>
        .disposeUnconfirmed row.id disposition) [])
  | .stampConfirmed id kind targetId => (findLine s.lines id).bind fun before =>
    if before.isConfirmed then none
    else some (.writing { reloads := some id } [.stamp id (kind, targetId)] [])
  | .discard reason =>
    if reason.map trim = some "" ∨ 0 < s.document.confirmedCount then none
    else some (.discarding (reason.map trim))

/-- The next write of a transaction: an insert waits for the number, and fails where it is in use;
an update waits for the row. -/
def write (session : DocumentSessionId) (tx : LineTransaction) (w : LineWrite)
    (left done : List LineWrite) : DocumentSystem :=
  match w with
  | .insert row =>
    if !isFree (s.numberLock row.lineNumber) session then s
    else if row.lineNumber ∈ s.lines.map (·.lineNumber) ++ LineWrite.insertedNumbers done then
      s.close session  -- `document_line_candidates_document_id_line_number_uq`
    else (s.holdNumber session row.lineNumber).setStage session (.writing tx left (done ++ [w]))
  | .dispose id _ | .disposeUnconfirmed id _ | .stamp id _ | .delete id =>
    if !isFree (s.lineLock id) session then s
    else if w.hits s.lines then
      (s.lockLine session id).setStage session (.writing tx left (done ++ [w]))
    else s.setStage session (.writing tx left done)

/-- The next statement of a transaction, or the next row of one. -/
def proceed (session : DocumentSessionId) : DocumentSystem :=
  match s.stage session with
  | .idle | .cached _ _ _ | .swept _ _ | .finished => s
  | .writing tx (w :: left) done => s.write session tx w left done
  | .writing tx [] done =>
    if tx.countsIfWritten ∧ done.isEmpty then s.setStage session .finished
    else if tx.result.isSome ∧ s.documentLock ≠ some session then
      if isFree s.documentLock session then s.lockDocument session else s
    else s.setStage session (.counted tx done (countLines (LineWrite.applyAll s.lines done)))
  | .counted tx done counts =>
    if isFree s.documentLock session then
      (s.lockDocument session).setStage session (.cached tx done counts)
    else s
  | .discarding reason =>
    s.setStage session (.sweeping reason ((s.lines.filter (·.isPending)).map (·.id)) [])
  | .sweeping reason (id :: left) done =>
    if !isFree (s.lineLock id) session then s
    else if (findLine s.lines id).any (·.isPending) then
      (s.lockLine session id).setStage session (.sweeping reason left (done ++ [id]))
    else s.setStage session (.sweeping reason left done)
  | .sweeping reason [] done =>
    if isFree s.documentLock session then
      (s.lockDocument session).setStage session (.swept reason done)
    else s

def addsOrReopens (before after : List DocumentLineRow) : Bool :=
  after.any fun row => match findLine before row.id with
    | none => true
    | some old => old.isResolved && !row.isResolved

def written (tx : LineTransaction) (done : List LineWrite) (counts : DocumentCounts) :
    DocumentSystem :=
  let lines := LineWrite.applyAll s.lines done
  let document := match tx.result with
    | some result => s.document.parsed result
    | none => s.document
  { s with
    document := document.recomputeDocumentCounters counts
    lines := lines
    untouched := s.untouched && !addsOrReopens s.lines lines }

def discarded (reason : Option String) (done : List CandidateId) : DocumentSystem :=
  { s with
    document := s.document.discard reason
    lines := s.lines.map fun row =>
      if row.id ∈ done then { row with disposition := .discarded } else row
    untouched := true }

def missesReload (tx : LineTransaction) (done : List LineWrite) : Bool :=
  tx.reloads.any fun id => (findLine (LineWrite.applyAll s.lines done) id).isNone

def commit (session : DocumentSessionId) : DocumentSystem :=
  match s.stage session with
  | .cached tx done counts =>
    if s.missesReload tx done then s.close session else (s.written tx done counts).close session
  | .swept reason done => (s.discarded reason done).close session
  | .finished => s.close session
  | _ => s

def step : DocumentAction → DocumentSystem
  | .call session call =>
    match s.stage session, s.begin parser call with
    | .idle, some stage => s.setStage session stage
    | _, _ => s
  | .proceed session => s.proceed session
  | .commit session => s.commit session
  | .abort session => s.close session

end DocumentSystem

end Loxep

import Loxep.CsvText
import Loxep.DocumentSessions

/-!
# Staging a CSV import

Dates and amounts are read from the cells of a column by their shape. All rows go to the table of
candidates in one insert.
-/

namespace Loxep.CsvStaging

/-- The header each field is read under. -/
structure CsvColumnMapping where
  date : Option CsvCell := none
  description : Option CsvCell := none
  amount : Option CsvCell := none
  payee : Option CsvCell := none
  currency : Option CsvCell := none

@[irreducible] def normalizeMoneyString (raw : CsvCell) : Option String :=
  let value := trimCell raw
  let parenthesized := value.head? = some '(' ∧ value.getLast? = some ')'
  let value := if parenthesized then trimCell value.tail.dropLast else value
  let minus := value.head? = some '-'
  let value := if minus ∨ value.head? = some '+' then trimCell value.tail else value
  let value := if value.head?.any (['$', '£', '€', '¥'].contains ·) then
    value.tail.dropWhile isSpace else value
  let value := trimCell (value.filter (· ≠ ','))
  let negative := parenthesized ∨ minus
  if ¬ isDecimalText (String.ofList value) then none
  else if negative ∧ value.head? = some '-' then none
  else some (String.ofList (if negative then '-' :: value else value))

def digitsBetween (low high : ℕ) (text : List Char) : Option ℕ :=
  if low ≤ text.length ∧ text.length ≤ high ∧ text.all Char.isDigit then some (digitsValue text)
  else none

/-- `YYYY-MM-DD`. -/
def isoDate (value : List Char) : Option CalendarDate :=
  match value.splitOn '-' with
  | [year, month, day] => do
    return ⟨← digitsBetween 4 4 year, ← digitsBetween 2 2 month, ← digitsBetween 2 2 day⟩
  | _ => none

/-- `MM/DD/YYYY`, the month and the day of one digit or two. -/
def usDate (separator : Char) (value : List Char) : Option CalendarDate :=
  match value.splitOn separator with
  | [month, day, year] => do
    return ⟨← digitsBetween 4 4 year, ← digitsBetween 1 2 month, ← digitsBetween 1 2 day⟩
  | _ => none

/-- The date as the digits of its ISO text. -/
def normalizeDateString (raw : CsvCell) : Option CalendarDate :=
  let value := trimCell raw
  (isoDate value).or ((usDate '/' value).or (usDate '-' value))

def cellOf (headers : List CsvCell) (header : Option CsvCell) (row : List CsvCell) : CsvCell :=
  ((header.bind headers.idxOf?).bind (row[·]?)).getD []

def textOf (cell : CsvCell) : Option String :=
  if trimCell cell = [] then none else some (String.ofList (trimCell cell))

/-- JavaScript's case mappings, and the digest in hexadecimal digits. -/
structure CsvRuntime where
  toUpperCase : String → String
  toLowerCase : String → String
  sha256 : String → String

def CsvRuntime.computeRowFingerprint (runtime : CsvRuntime) (lineDate : Option CalendarDate)
    (lineAmount description payeeName : Option String) : String :=
  let parts := [(lineDate.map toString).getD "", lineAmount.getD "",
    runtime.toLowerCase (trim (description.getD "")),
    runtime.toLowerCase (trim (payeeName.getD ""))]
  String.ofList ((runtime.sha256 ("\x01".intercalate parts)).toList.take 16)

/-- A table, its mapping and the currency of rows that name none. -/
structure CsvImport extends CsvRuntime where
  parsed : CsvParseResult
  mapping : CsvColumnMapping
  defaultCurrency : Option String

namespace CsvImport

variable (csv : CsvImport) (row : List CsvCell)

def rawDate : CsvCell := cellOf csv.parsed.headers csv.mapping.date row

def rawAmount : CsvCell := cellOf csv.parsed.headers csv.mapping.amount row

def description : Option String :=
  textOf (cellOf csv.parsed.headers csv.mapping.description row)

def payeeName : Option String := textOf (cellOf csv.parsed.headers csv.mapping.payee row)

def currency : Option String :=
  ((textOf (cellOf csv.parsed.headers csv.mapping.currency row)).or csv.defaultCurrency).map
    csv.toUpperCase

def rowWarnings : List String :=
  (if trimCell (csv.rawDate row) ≠ [] ∧ normalizeDateString (csv.rawDate row) = none then
    [s!"could not read \"{String.ofList (csv.rawDate row)}\" as a date"] else []) ++
  if trimCell (csv.rawAmount row) = [] then ["row has no amount"]
  else if normalizeMoneyString (csv.rawAmount row) = none then
    [s!"could not read \"{String.ofList (csv.rawAmount row)}\" as an amount"]
  else []

@[simps]
def mapCsvRow (index : ℕ) : CsvCandidateInput where
  lineNumber := index + 1
  description := csv.description row
  lineAmount := normalizeMoneyString (csv.rawAmount row)
  lineDate := normalizeDateString (csv.rawDate row)
  currency := csv.currency row
  payeeName := csv.payeeName row
  rowFingerprint := csv.computeRowFingerprint (normalizeDateString (csv.rawDate row))
    (normalizeMoneyString (csv.rawAmount row)) (csv.description row) (csv.payeeName row)
  rowWarnings := csv.rowWarnings row

def mapCsvRows : List CsvCandidateInput := csv.parsed.rows.mapIdx fun i row => csv.mapCsvRow row i

end CsvImport

/-- The lines of a document after one insert for all rows, numbered on from the cached count. -/
def stageCsvRows (lines : List DocumentLineRow) (lineCount : ℕ) (ids : ℕ → CandidateId)
    (rows : List CsvCandidateInput) : Except String (List DocumentLineRow) := do
  let values ← rows.mapM CsvCandidateInput.insertValue
  let inserted := values.mapIdx (candidateLine (lineCount + 1) ids false)
  Except.require (∀ row ∈ inserted, row.lineNumber ∉ lines.map (·.lineNumber))
    "duplicate key value violates document_line_candidates_document_id_line_number_uq"
  return lines ++ inserted

end Loxep.CsvStaging

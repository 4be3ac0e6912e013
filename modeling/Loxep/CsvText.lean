import Loxep.Text

/-!
# Tables in CSV text

The scan reads the text a character at a time once its line ends are single line feeds. A quote
opens or closes a quoted stretch wherever it stands.
-/

namespace Loxep

abbrev CsvCell := List Char

structure CsvParseResult where
  headers : List CsvCell
  rows : List (List CsvCell)

/-- `text.replace(/\r\n/g, "\n")`. -/
def dropReturns : List Char → List Char
  | [] => []
  | c :: text =>
    if c = '\r' ∧ text.head? = some '\n' then dropReturns text else c :: dropReturns text

/-- What the parser scans: `.replace(/\r/g, "\n")` after it. -/
def lineFeeds (text : List Char) : List Char :=
  (dropReturns text).map fun c => if c = '\r' then '\n' else c

def scanRows : Bool → CsvCell → List CsvCell → List Char → List (List CsvCell)
  | _, field, row, [] => if field = [] ∧ row = [] then [] else [row ++ [field]]
  | true, field, row, c :: text =>
    if c = '"' then
      if text.head? = some '"' then scanRows true (field ++ ['"']) row text.tail
      else scanRows false field row text
    else scanRows true (field ++ [c]) row text
  | false, field, row, c :: text =>
    if c = '"' then scanRows true field row text
    else if c = ',' then scanRows false [] (row ++ [field]) text
    else if c = '\n' then (row ++ [field]) :: scanRows false [] [] text
    else scanRows false (field ++ [c]) row text
termination_by _ _ _ text => text.length
decreasing_by all_goals simp only [List.length_cons, List.length_tail]; omega

def trimCell (cell : CsvCell) : CsvCell := (cell.dropWhile isSpace).rdropWhile isSpace

def padRow (width : ℕ) (row : List CsvCell) : List CsvCell :=
  (row ++ List.replicate (width - row.length) []).take width

def parseCsvText (text : List Char) : CsvParseResult :=
  match (scanRows false [] [] (lineFeeds text)).filter (· ≠ [[]]) with
  | [] => ⟨[], []⟩
  | headerRow :: dataRows =>
    let headers := headerRow.map trimCell
    ⟨headers, dataRows.map (padRow headers.length)⟩

end Loxep

import Mathlib.Data.Nat.Notation
import Loxep.DecimalText

/-!
# Generated codes

A generated code that is taken raises a unique violation, after which another code is tried. For
the codes of items the attempts run inside one transaction, which the violation has failed; for
those of projects each attempt is a transaction of its own.
-/

namespace Loxep.CodeRetry

inductive CodeError
  | uniqueViolation (message : String)
  | transactionAborted
  | integerOutOfRange
  | conflict (message : String)
  deriving DecidableEq

structure CodeTransaction where
  codes : List String
  aborted : Bool

def retryCode {σ : Type} (label : String) (attempt : σ → Except CodeError String × σ) :
    ℕ → (lastError : String) → σ → Except CodeError String × σ
  | 0, lastError, s =>
    (.error (.conflict s!"could not generate a unique {label} after 5 attempts: {lastError}"), s)
  | left + 1, _, s =>
    match attempt s with
    | (.error (.uniqueViolation message), s) => retryCode label attempt left message s
    | outcome => outcome

def withCodeRetry {σ : Type} (label : String) (attempt : σ → Except CodeError String × σ) (s : σ) :
    Except CodeError String × σ :=
  retryCode label attempt 5 "undefined" s

-- `violation` is what the database driver reports of a code that is taken
variable (violation : String → String)

def insertCode (code : String) (tx : CodeTransaction) : Except CodeError String × CodeTransaction :=
  if tx.aborted then (.error .transactionAborted, tx)
  else if code ∈ tx.codes then
    (.error (.uniqueViolation (violation code)), { tx with aborted := true })
  else (.ok code, { tx with codes := tx.codes ++ [code] })

abbrev ItemState := CodeTransaction × ℕ

variable (draw : ℕ → String)

def insertItem : ItemState → Except CodeError String × ItemState :=
  withCodeRetry "item code" fun s =>
    ((insertCode violation (draw s.2) s.1).1, (insertCode violation (draw s.2) s.1).2, s.2 + 1)

def insertItems : ℕ → ItemState → Except CodeError (List String) × ItemState
  | 0, s => (.ok [], s)
  | rows + 1, s =>
    match insertItem violation draw s with
    | (.error error, s) => (.error error, s)
    | (.ok code, s) =>
      match insertItems rows s with
      | (.error error, s) => (.error error, s)
      | (.ok codes, s) => (.ok (code :: codes), s)

def inTransaction (codes : List String) (rows : ℕ) :
    Except CodeError (List String × List String) :=
  match insertItems violation draw rows (⟨codes, false⟩, 0) with
  | (.error error, _) => .error error
  | (.ok new, s) => .ok (new, s.1.codes)

def createItem (itemCode : Option String) (codes : List String) :=
  inTransaction violation (fun n => itemCode.getD (draw n)) codes 1

def partOut (codes : List String) (children : ℕ) := inTransaction violation draw codes children

def splitItem (codes : List String) := inTransaction violation draw codes 1

def projectReferenceCode (year sequence : ℕ) : String :=
  "PRJ-" ++ toString year ++ "-" ++ padZeros 4 sequence

/-- The sequence of a code of the year, matched by `^PRJ-[0-9]{4}-([0-9]+)$`. -/
def projectSequence (year : ℕ) (code : String) : Option ℕ :=
  let codePrefix := ("PRJ-" ++ toString year ++ "-").toList
  let digits := code.toList.drop codePrefix.length
  if codePrefix <+: code.toList ∧ codePrefix.length = 9 ∧ digits ≠ [] ∧ digits.all Char.isDigit then
    some (Nat.ofDigitChars 10 digits 0)
  else none

/-- `max(…::integer) + 1`. -/
def generateReferenceCode (codes : List String) (year : ℕ) : Except CodeError String :=
  let sequences := codes.filterMap (projectSequence year)
  if sequences.any (2 ^ 31 ≤ ·) then .error .integerOutOfRange
  else .ok (projectReferenceCode year (sequences.foldl max 0 + 1))

def createProject (referenceCode : Option String) (year : ℕ) :
    List String → Except CodeError String × List String :=
  withCodeRetry "project reference code" fun codes =>
    match referenceCode.elim (generateReferenceCode codes year) .ok with
    | .error error => (.error error, codes)
    | .ok code =>
      match insertCode violation code ⟨codes, false⟩ with
      | (.error error, _) => (.error error, codes)
      | (.ok code, tx) => (.ok code, tx.codes)

end Loxep.CodeRetry

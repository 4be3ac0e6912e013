import Loxep.Lib.Rounding

/-!
# Exact decimal amounts

An amount is a whole number of millionths, the units of a `numeric(20,6)` column and of the
services' scaled integers. Two functions round, both half away from zero: a template line's
multiplication and the share of a basis.
-/

namespace Loxep

/-- A decimal string at money scale, read as its units. -/
abbrev Money := ℤ

/-- Units per whole: `10 ** MONEY_SCALE`. -/
def moneyUnits : ℕ := 1000000

/-- The bound of a `numeric(20,6)` column. -/
def numericLimit : ℕ := 100000000000000000000

def sumDecimals (values : List Money) : Money := values.sum

def negateDecimal (value : Money) : Money := -value

def absDecimal (value : Money) : Money := |value|

def isZeroDecimal (value : Money) : Bool := value == 0

def isNegative (value : Money) : Bool := decide (value < 0)

/-- `value × multiplier` at money scale, rounding half away from zero. -/
def multiplyDecimals (value multiplier : Money) : Money :=
  let scaled := value * multiplier
  let rounded : ℤ := Rounding.halfUp scaled.natAbs moneyUnits
  if scaled < 0 then -rounded else rounded

/-- `total × part ÷ whole`, a part at or past the whole taking all of `total`. -/
def proRataShare (total part whole : Money) : Money :=
  if whole ≤ 0 then 0
  else if part ≤ 0 then 0
  else if whole ≤ part then total
  else
    let rounded : ℤ := Rounding.halfUp (total.natAbs * part.toNat) whole.toNat
    if total < 0 then -rounded else rounded

/-- The amount as PostgreSQL echoes it back, six digits after the point. -/
def formatDecimal (value : Money) : String :=
  let digits := (toString value.natAbs).toList
  let padded := List.replicate (7 - digits.length) '0' ++ digits
  let whole := String.ofList (padded.take (padded.length - 6))
  let fraction := String.ofList (padded.drop (padded.length - 6))
  (if value < 0 then "-" else "") ++ whole ++ "." ++ fraction

example : formatDecimal (-1500000) = "-1.500000" := by decide

section

variable {total part whole : Money}

theorem proRataShare_zero_part : proRataShare total 0 whole = 0 := by
  simp [proRataShare]

theorem proRataShare_whole (hw : 0 < whole) (hp : whole ≤ part) :
    proRataShare total part whole = total := by
  unfold proRataShare
  rw [if_neg (not_le.2 hw), if_neg (not_le.2 (hw.trans_le hp)), if_pos hp]

end

end Loxep

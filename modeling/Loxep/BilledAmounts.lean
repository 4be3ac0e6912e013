import Loxep.TimeEntries

/-!
# What time entries are worth

The decimal arithmetic of the work package, on decimal strings read as units at a scale, and the
two values computed of a time entry. Both divide by the minutes of an hour.
-/

namespace Loxep

namespace WorkDecimal

structure Rounded where
  value : Money
  exact : Bool

def multiplyDecimals (a b : ScaledDecimal) : Rounded :=
  let product := a.units * b.units
  let productScale := a.scale + b.scale
  if productScale ≤ 6 then ⟨product * 10 ^ (6 - productScale), true⟩
  else
    let divisor := 10 ^ (productScale - 6)
    ⟨Rounding.nearest product divisor, product.natAbs % divisor == 0⟩

/-- `divideByInteger`, of a value at six digits by a positive integer. -/
def divideByInteger (numerator : Money) (divisor : ℕ) : Rounded :=
  ⟨Rounding.nearest numerator divisor, numerator.natAbs % divisor == 0⟩

/-- What `String` makes of an integer. -/
def ofInteger (n : ℤ) : ScaledDecimal := ⟨n, 0⟩

theorem multiplyDecimals_ofInteger (n : ℤ) (amount : Money) :
    multiplyDecimals (ofInteger n) (ScaledDecimal.ofMoney amount) = ⟨n * amount, true⟩ := by
  simp [multiplyDecimals, ofInteger, ScaledDecimal.ofMoney]

end WorkDecimal

/-- `billable_minutes / 60 * bill_rate_amount`, or null with nothing to compute it from. -/
def timeEntryBillableAmount (row : TimeEntryRow) : Option Money :=
  match row.billRateAmount with
  | none => none
  | some amount =>
    if row.billable = false ∨ row.billableMinutes ≤ 0 then none
    else
      let scaled := WorkDecimal.multiplyDecimals (WorkDecimal.ofInteger row.billableMinutes)
        (ScaledDecimal.ofMoney amount)
      some (WorkDecimal.divideByInteger scaled.value 60).value

theorem timeEntryBillableAmount_eq_some {row : TimeEntryRow} {amount : Money}
    (hrate : row.billRateAmount = some amount) (hbillable : row.billable = true)
    (hminutes : 0 < row.billableMinutes) :
    timeEntryBillableAmount row = some (Rounding.nearest (row.billableMinutes * amount) 60) := by
  have hworth : ¬ (row.billable = false ∨ row.billableMinutes ≤ 0) := by
    rintro (hoff | hnone)
    · rw [hbillable] at hoff
      cases hoff
    · omega
  simp only [timeEntryBillableAmount, hrate, if_neg hworth, WorkDecimal.multiplyDecimals_ofInteger,
    WorkDecimal.divideByInteger]

end Loxep

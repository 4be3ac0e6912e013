import Mathlib.Data.Prod.Lex
import Mathlib.Order.Basic

/-!
# Calendar dates and instants

A calendar date orders as its ISO string `YYYY-MM-DD` does. An instant is a UTC date with the
microseconds since its midnight, the precision of a `timestamptz`.
-/

namespace Loxep

structure CalendarDate where
  year : ℕ
  month : ℕ
  day : ℕ
  deriving DecidableEq

namespace CalendarDate

def key (d : CalendarDate) : ℕ ×ₗ ℕ ×ₗ ℕ :=
  toLex (d.year, toLex (d.month, d.day))

theorem key_injective : Function.Injective key := by
  rintro ⟨y, m, d⟩ ⟨y', m', d'⟩ h
  simpa [key] using h

instance : LinearOrder CalendarDate := LinearOrder.lift' key key_injective

end CalendarDate

/-- `padStart(width, "0")`. -/
def padZeros (width n : ℕ) : String :=
  String.ofList (List.replicate (width - (toString n).length) '0' ++ (toString n).toList)

instance : ToString CalendarDate where
  toString d := s!"{padZeros 4 d.year}-{padZeros 2 d.month}-{padZeros 2 d.day}"

structure Timestamp where
  utcDate : CalendarDate
  micros : ℕ
  deriving DecidableEq

namespace Timestamp

def key (t : Timestamp) : CalendarDate ×ₗ ℕ :=
  toLex (t.utcDate, t.micros)

theorem key_injective : Function.Injective key := by
  rintro ⟨d, m⟩ ⟨d', m'⟩ h
  simpa [key] using h

instance : LinearOrder Timestamp := LinearOrder.lift' key key_injective

/-- `toISOString`, to the millisecond. -/
def toIsoString (t : Timestamp) : String :=
  let seconds := t.micros / 1000000
  let clock := ":".intercalate
    [padZeros 2 (seconds / 3600), padZeros 2 (seconds / 60 % 60), padZeros 2 (seconds % 60)]
  toString t.utcDate ++ "T" ++ clock ++ "." ++ padZeros 3 (t.micros / 1000 % 1000) ++ "Z"

end Timestamp

example : (⟨2026, 9, 30⟩ : CalendarDate) < ⟨2026, 10, 1⟩ := by decide

end Loxep

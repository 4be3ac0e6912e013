import Loxep.OrderFacts
import Loxep.PurchaseSync
import Mathlib.Algebra.Order.Field.Rat
import Mathlib.Tactic.Positivity

/-!
# Decimal text

The adapters pass on the decimal strings a provider sends, with the scale they came in. What is
computed of them is exact; an amount that goes to a column is widened to its scale and refused
where it has more digits.
-/

namespace Loxep

structure ScaledDecimal where
  units : ℤ
  scale : ℕ
  deriving DecidableEq

/-- The text as `parseScaled` reads it, if it is a decimal string. -/
def parseDecimalText (text : String) : Option ScaledDecimal :=
  if isDecimalText text then
    let negative := text.toList.head? = some '-'
    let body := if negative then text.toList.drop 1 else text.toList
    let whole := body.takeWhile Char.isDigit
    let fraction := (body.dropWhile Char.isDigit).drop 1
    let units : ℤ := digitsValue (whole ++ fraction)
    some ⟨if negative then -units else units, fraction.length⟩
  else none

namespace ScaledDecimal

def rescale (value : ScaledDecimal) (scale : ℕ) : ℤ := value.units * 10 ^ (scale - value.scale)

def value (d : ScaledDecimal) : ℚ := d.units / 10 ^ d.scale

theorem rescale_cast {d : ScaledDecimal} {s : ℕ} (h : d.scale ≤ s) :
    (d.rescale s : ℚ) = d.value * 10 ^ s := by
  have hpow : (10 : ℚ) ^ s = 10 ^ d.scale * 10 ^ (s - d.scale) := by
    rw [← pow_add, Nat.add_sub_cancel' h]
  have hne : (10 : ℚ) ^ d.scale ≠ 0 := by positivity
  simp only [rescale, value, hpow]
  push_cast
  rw [← mul_assoc, div_mul_cancel₀ _ hne]

theorem le_foldl_max (scales : List ℕ) (start : ℕ) :
    start ≤ scales.foldl max start ∧ ∀ scale ∈ scales, scale ≤ scales.foldl max start := by
  induction scales generalizing start with
  | nil => exact ⟨le_rfl, fun _ h => absurd h List.not_mem_nil⟩
  | cons first rest ih =>
    obtain ⟨hle, hall⟩ := ih (max start first)
    rw [List.foldl_cons]
    refine ⟨(le_max_left _ _).trans hle, fun scale hscale => ?_⟩
    rcases List.mem_cons.1 hscale with rfl | hmem
    · exact (le_max_right _ _).trans hle
    · exact hall scale hmem

def subtractDecimals (a b : ScaledDecimal) : ScaledDecimal :=
  let scale := max a.scale b.scale
  ⟨a.rescale scale - b.rescale scale, scale⟩

/-- `toMoneyString`: the amount widened to six digits, never narrowed. -/
def toMoney (value : ScaledDecimal) : CommerceResult Money :=
  if value.scale ≤ 6 then .ok (value.rescale 6)
  else .error (.validation
    s!"amount has scale {value.scale}, which numeric(20,6) cannot store exactly")

theorem toMoney_eq_ok {value : ScaledDecimal} {m : Money} :
    value.toMoney = .ok m ↔ value.scale ≤ 6 ∧ m = value.rescale 6 := by
  unfold toMoney
  split_ifs with h
  · rw [Except.ok.injEq, and_iff_right h]
    exact eq_comm
  · simp [h]

/-- An amount `toMoneyString` has returned. -/
def ofMoney (amount : Money) : ScaledDecimal := ⟨amount, 6⟩

end ScaledDecimal

end Loxep

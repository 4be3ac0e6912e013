import Loxep.DecimalText

/-!
# Distribution of decimal amounts

`distributeByWeights` reads decimal strings of any scale. The weights are brought to one scale
before their ratios are taken, the total to the scale of the shares. What is left of it after all
shares are rounded down goes out one unit at a time, to the largest remainder first.
-/

namespace Loxep

def placeLeftover : List ℕ → List (ℕ × ℕ) → ℕ → List ℕ × ℕ
  | floors, [], leftover => (floors, leftover)
  | floors, entry :: order, leftover =>
    if leftover = 0 then (floors, leftover)
    else placeLeftover (floors.modify entry.2 (· + 1)) order (leftover - 1)

def spread (magnitude : ℕ) (weights : List ℕ) : List ℕ × ℕ :=
  let floors := LargestRemainder.floors magnitude weights
  let remainders := LargestRemainder.remainders magnitude weights
  placeLeftover floors (LargestRemainder.order remainders) (magnitude - floors.sum)

namespace ScaledDecimal

/-- Exact `-value`. -/
def negateDecimal (value : ScaledDecimal) : ScaledDecimal := ⟨-value.units, value.scale⟩

/-- `toUnits`: an amount is widened to the scale, never narrowed. -/
def toUnits (value : ScaledDecimal) (scale : ℕ) : InventoryResult ℤ :=
  if value.scale ≤ scale then .ok (value.rescale scale)
  else .error (.validation "refusing to reduce a decimal's scale: that would round money")

def weightScale (weights : List ScaledDecimal) : ℕ := (weights.map (·.scale)).foldl max 0

def weightUnits (weights : List ScaledDecimal) : List ℤ :=
  weights.map (·.rescale (weightScale weights))

/-- `total` over the weights, in units of `scale` digits. -/
def distributeByWeights (total : ScaledDecimal) (weights : List ScaledDecimal) (scale : ℕ) :
    InventoryResult Distribution := do
  let totalUnits ← total.toUnits scale
  if weights = [] then return ⟨[], totalUnits⟩
  else if ∃ w ∈ weights, w.units < 0 then
    throw (.validation "allocation weights must be non-negative")
  else if (weightUnits weights).sum = 0 then return ⟨weights.map fun _ => 0, totalUnits⟩
  else
    let shares := (spread totalUnits.natAbs ((weightUnits weights).map Int.toNat)).1
    return ⟨shares.map (signedLike totalUnits), 0⟩

end ScaledDecimal

namespace AccountingDecimal

/-- `toUnits` of the accounting package, at money scale. -/
def toUnits (value : ScaledDecimal) : Result Money :=
  if value.scale ≤ 6 then .ok (value.rescale 6)
  else .error (.validation "refusing to reduce a decimal's scale: that would round money")

/-- `proRataShare` of the strings. Where nothing is taken the total is not read. -/
def proRataShare (total part whole : ScaledDecimal) : Result Money := do
  let wholeUnits ← toUnits whole
  let partUnits ← toUnits part
  if wholeUnits ≤ 0 then return 0
  if partUnits ≤ 0 then return 0
  if wholeUnits ≤ partUnits then toUnits total
  else
    let totalUnits ← toUnits total
    let rounded := Rounding.halfUp (totalUnits.natAbs * partUnits.toNat) wholeUnits.toNat
    return if totalUnits < 0 then -(rounded : ℤ) else rounded

end AccountingDecimal

end Loxep

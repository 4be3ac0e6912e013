import Loxep.Materials
import Mathlib.Algebra.BigOperators.Ring.List
import Mathlib.Data.Rat.Cast.Order

/-!
# What the uses of an item cost together

A use takes for its unit cost what the whole item cost. The roundings of a markup are half a
millionth a unit and a little more, those of a line half a millionth.
-/

namespace Loxep

namespace Rounding

variable {d : ℕ}

theorem nearest_error (n : ℤ) (hd : 0 < d) : |(nearest n d : ℚ) - n / d| ≤ 1 / 2 := by
  obtain ⟨hlow, hhigh⟩ := nearest_bound n hd
  have hpos : (0 : ℚ) < d := by exact_mod_cast hd
  have hlow' : (2 * n - d : ℚ) ≤ 2 * (d * nearest n d) := by exact_mod_cast hlow
  have hhigh' : (2 * (d * nearest n d) : ℚ) ≤ 2 * n + d := by exact_mod_cast hhigh
  have hbelow : (n : ℚ) / d ≤ nearest n d + 1 / 2 := by
    rw [div_le_iff₀ hpos]
    linarith
  have habove : (nearest n d : ℚ) - 1 / 2 ≤ n / d := by
    rw [le_div_iff₀ hpos]
    linarith
  rw [abs_le]
  constructor <;> linarith

theorem nearest_mul_self (n : ℤ) (hd : 0 < d) : nearest (n * d) d = n := by
  obtain ⟨hlow, hhigh⟩ := nearest_bound (n * d) hd
  have hpos : (0 : ℤ) < d := by exact_mod_cast hd
  have hle : nearest (n * d) d ≤ n := by
    by_contra hlt
    have hmul : (d : ℤ) * (n + 1) ≤ d * nearest (n * d) d :=
      mul_le_mul_of_nonneg_left (by omega) hpos.le
    linarith
  have hge : n ≤ nearest (n * d) d := by
    by_contra hlt
    have hmul : (d : ℤ) * nearest (n * d) d ≤ d * (n - 1) :=
      mul_le_mul_of_nonneg_left (by omega) hpos.le
    linarith
  omega

end Rounding

def exactValue (amount : Money) : ℚ := amount / 10 ^ 6

theorem exactValue_eq_ofMoney (amount : Money) :
    exactValue amount = (ScaledDecimal.ofMoney amount).value := rfl

theorem exactValue_sum (amounts : List Money) :
    exactValue amounts.sum = (amounts.map exactValue).sum := by
  induction amounts with
  | nil => simp [exactValue]
  | cons amount amounts ih =>
    rw [List.map_cons, List.sum_cons, List.sum_cons, ← ih]
    unfold exactValue
    push_cast
    ring

namespace WorkDecimal

variable {a b : ScaledDecimal}

theorem multiplyDecimals_error (a b : ScaledDecimal) :
    |((multiplyDecimals a b).value : ℚ) - a.value * b.value * 10 ^ 6| ≤ 1 / 2 := by
  have hproduct : a.value * b.value = (a.units * b.units : ℤ) / 10 ^ (a.scale + b.scale) := by
    unfold ScaledDecimal.value
    rw [pow_add]
    push_cast
    rw [div_mul_div_comm]
  rw [hproduct]
  simp only [multiplyDecimals]
  split_ifs with hscale
  · have hpow : (10 : ℚ) ^ 6 = 10 ^ (a.scale + b.scale) * 10 ^ (6 - (a.scale + b.scale)) := by
      rw [← pow_add, Nat.add_sub_cancel' hscale]
    have hne : (10 : ℚ) ^ (a.scale + b.scale) ≠ 0 := by positivity
    rw [hpow, ← mul_assoc, div_mul_cancel₀ _ hne]
    push_cast
    rw [sub_self, abs_zero]
    norm_num
  · have hpow : (10 : ℚ) ^ (a.scale + b.scale) = 10 ^ (a.scale + b.scale - 6) * 10 ^ 6 := by
      rw [← pow_add, Nat.sub_add_cancel (by omega)]
    have hne : (10 : ℚ) ^ 6 ≠ 0 := by positivity
    have herror := Rounding.nearest_error (a.units * b.units)
      (show 0 < 10 ^ (a.scale + b.scale - 6) by positivity)
    rw [hpow, ← div_div, div_mul_cancel₀ _ hne]
    push_cast at herror ⊢
    exact herror

end WorkDecimal

theorem applyMarkupPercent_error {cost charge : Money} {markup : ScaledDecimal}
    (h : applyMarkupPercent (ScaledDecimal.ofMoney cost) markup = .ok charge) :
    |(charge : ℚ) - cost * (1 + markup.value / 100)| ≤ 101 / 200 := by
  have hmultiplied := WorkDecimal.multiplyDecimals_error (ScaledDecimal.ofMoney cost) markup
  simp only [applyMarkupPercent, Except.bind_eq_ok, Except.pure_eq_ok] at h
  obtain ⟨-, -, rfl⟩ := h
  set raw := (WorkDecimal.multiplyDecimals (ScaledDecimal.ofMoney cost) markup).value with hraw
  have hdivided := Rounding.nearest_error raw (show 0 < 100 by norm_num)
  have hcost : (ScaledDecimal.ofMoney cost).value * markup.value * 10 ^ 6 =
      cost * markup.value := by
    unfold ScaledDecimal.value ScaledDecimal.ofMoney
    ring
  rw [hcost, abs_le] at hmultiplied
  rw [abs_le] at hdivided ⊢
  simp only [WorkDecimal.divideByInteger, ScaledDecimal.rescale, ScaledDecimal.ofMoney,
    Nat.sub_self, pow_zero, mul_one]
  push_cast at hdivided ⊢
  constructor <;> linarith

namespace RecordMaterialUseInput

variable (input : RecordMaterialUseInput)

/-- A use of the item that names no cost of its own. -/
structure IsBasisUse (itemId : ItemId) : Prop where
  source : input.costBasisSource = .inventoryBasis
  item : input.inventoryItemId = some itemId
  unit : input.unitCostAmount = none

/-- The use is charged at so many percent over its cost. -/
structure MarkedUp (markup : ℚ) : Prop where
  percent : ∃ text, input.markupPercent = some text ∧ (readDecimal text).value = markup
  billable : input.billable = true
  charge : input.unitChargeAmount = none

end RecordMaterialUseInput

namespace ProjectMaterialUseRow

variable (row : ProjectMaterialUseRow)

def cost : ℚ := exactValue row.quantity * exactValue row.unitCostAmount

def charged : ℚ := (materialUseLineAmount row).elim 0 exactValue

theorem quantity_pos {row : ProjectMaterialUseRow} (h : row.refusal = none) : 0 < row.quantity := by
  simp only [refusal, Option.map_eq_none_iff, List.find?_eq_none, List.mem_cons,
    List.not_mem_nil, or_false, forall_eq_or_imp, forall_eq] at h
  simpa using h.2.2.2.2.2

end ProjectMaterialUseRow

def CostsExactly (item : InventoryItemRow) (rows : List ProjectMaterialUseRow) : Prop :=
  |(rows.map (·.cost)).sum - exactValue item.landedCostAmount| ≤ rows.length / 10 ^ 6

def ChargesExactly (markup : ℚ) (rows : List ProjectMaterialUseRow) : Prop :=
  |(rows.map (·.charged)).sum - (rows.map (·.cost)).sum * (1 + markup / 100)| ≤
    rows.length / 10 ^ 6

structure RecordCall where
  input : RecordMaterialUseInput
  id : MaterialUseId
  now : Timestamp

namespace MaterialTables

def recordEach (t : MaterialTables) :
    List RecordCall → WorkResult (List ProjectMaterialUseRow × MaterialTables)
  | [] => .ok ([], t)
  | call :: calls => do
    let (row, t) ← t.record call.input call.id call.now
    let (rows, t) ← t.recordEach calls
    return (row :: rows, t)

/-- A row that takes its unit cost from the item, and its charge from a markup if it has one. -/
structure TakesCostOf (item : InventoryItemRow) (input : RecordMaterialUseInput)
    (row : ProjectMaterialUseRow) : Prop where
  unit : row.unitCostAmount = item.landedCostAmount
  quantity : 0 < row.quantity
  charge : ∀ markup, input.MarkedUp markup → ∃ charge, row.unitChargeAmount = some charge ∧
    |(charge : ℚ) - item.landedCostAmount * (1 + markup / 100)| ≤ 101 / 200

variable {t t' : MaterialTables} {item : InventoryItemRow} {itemId : ItemId}

theorem insertUse_eq_ok {row : ProjectMaterialUseRow} (h : t.insertUse row = .ok t') :
    row.refusal = none ∧ t'.inventoryItems = t.inventoryItems := by
  simp only [insertUse, Except.bind_eq_ok, Except.pure_eq_ok] at h
  obtain ⟨_, hcheck, _, -, _, -, _, -, rfl⟩ := h
  refine ⟨?_, rfl⟩
  unfold ProjectMaterialUseRow.check at hcheck
  split at hcheck
  · cases hcheck
  · assumption

theorem useCost_eq_ok {input : RecordMaterialUseInput} {cost : UseCost}
    (hitem : t.loadInventoryItem itemId = .ok item) (huse : input.IsBasisUse itemId)
    (h : t.useCost input.trimmed = .ok cost) :
    cost.unitCostAmount = ScaledDecimal.ofMoney item.landedCostAmount := by
  simp only [useCost, RecordMaterialUseInput.trimmed, huse.source, huse.item, huse.unit, hitem,
    Option.map_none, Option.getD_none, Except.bind_eq_ok, Except.pure_eq_ok] at h
  obtain ⟨_, hok, -, -, rfl⟩ := h
  cases hok
  rfl

theorem useCharge_eq_ok {input : RecordMaterialUseInput} {cost : Money} {charge : Option Money}
    {markup : ℚ} (hmarkup : input.MarkedUp markup)
    (h : useCharge input.trimmed (ScaledDecimal.ofMoney cost) = .ok charge) :
    ∃ charge', charge = some charge' ∧ |(charge' : ℚ) - cost * (1 + markup / 100)| ≤ 101 / 200 := by
  obtain ⟨text, htext, rfl⟩ := hmarkup.percent
  simp only [useCharge, RecordMaterialUseInput.trimmed, hmarkup.charge, htext, hmarkup.billable,
    Except.map_eq_ok] at h
  obtain ⟨charge', hcharge, rfl⟩ := h
  exact ⟨charge', rfl, applyMarkupPercent_error hcharge⟩

theorem record_takesCost {input : RecordMaterialUseInput} {id : MaterialUseId} {now : Timestamp}
    {row : ProjectMaterialUseRow} (hitem : t.loadInventoryItem itemId = .ok item)
    (huse : input.IsBasisUse itemId) (h : t.record input id now = .ok (row, t')) :
    TakesCostOf item input row ∧ t'.inventoryItems = t.inventoryItems := by
  simp only [record, RecordMaterialUseInput.parse, Except.bind_eq_ok, Except.pure_eq_ok] at h
  obtain ⟨value, ⟨-, -, rfl⟩, -, -, cost, hcost, charge, hcharge, tables, hinsert, heq⟩ := h
  obtain ⟨rfl, rfl⟩ := Prod.mk.inj heq
  obtain ⟨hrefusal, hitems⟩ := insertUse_eq_ok hinsert
  have hunit := useCost_eq_ok hitem huse hcost
  rw [hunit] at hcharge
  refine ⟨⟨?_, ProjectMaterialUseRow.quantity_pos hrefusal, fun markup hmarkup =>
    useCharge_eq_ok hmarkup hcharge⟩, hitems⟩
  show cost.unitCostAmount.toNumeric 6 = item.landedCostAmount
  rw [hunit]
  exact Rounding.nearest_mul_self _ (by positivity)

theorem recordEach_takesCost {calls : List RecordCall} {rows : List ProjectMaterialUseRow}
    (hitem : t.loadInventoryItem itemId = .ok item)
    (huse : ∀ call ∈ calls, call.input.IsBasisUse itemId) (h : t.recordEach calls = .ok (rows, t'))
    :
    ∀ row ∈ rows, ∃ call ∈ calls, TakesCostOf item call.input row := by
  induction calls generalizing t rows with
  | nil =>
    cases h
    exact fun _ hrow => absurd hrow List.not_mem_nil
  | cons call calls ih =>
    simp only [recordEach, Except.bind_eq_ok, Except.pure_eq_ok, Prod.exists] at h
    obtain ⟨first, t₁, hfirst, others, t₂, hothers, heq⟩ := h
    obtain ⟨rfl, rfl⟩ := Prod.mk.inj heq
    obtain ⟨htakes, hitems⟩ := record_takesCost hitem (huse call List.mem_cons_self) hfirst
    have hitem₁ : t₁.loadInventoryItem itemId = .ok item := by
      unfold loadInventoryItem
      rw [hitems]
      exact hitem
    intro row hrow
    rcases List.mem_cons.1 hrow with rfl | hrow
    · exact ⟨call, List.mem_cons_self, htakes⟩
    · obtain ⟨other, hother, hrest⟩ :=
        ih hitem₁ (fun call hcall => huse call (List.mem_cons_of_mem _ hcall)) hothers row hrow
      exact ⟨other, List.mem_cons_of_mem _ hother, hrest⟩

end MaterialTables

theorem abs_sum_sub_le {R : Type} {f g bound : R → ℚ} {rows : List R}
    (h : ∀ row ∈ rows, |f row - g row| ≤ bound row) :
    |(rows.map f).sum - (rows.map g).sum| ≤ (rows.map bound).sum := by
  induction rows with
  | nil => simp
  | cons row rows ih =>
    have hrow := h row List.mem_cons_self
    have hrows := ih fun row hmem => h row (List.mem_cons_of_mem _ hmem)
    simp only [List.map_cons, List.sum_cons]
    rw [abs_le] at hrow hrows ⊢
    constructor <;> linarith

section Totals

variable {item : InventoryItemRow} {rows : List ProjectMaterialUseRow}

theorem sum_cost (hunit : ∀ row ∈ rows, row.unitCostAmount = item.landedCostAmount)
    (hsum : (rows.map (·.quantity)).sum = item.quantity) :
    (rows.map (·.cost)).sum = exactValue item.quantity * exactValue item.landedCostAmount := by
  have hcost : rows.map (·.cost) =
      rows.map fun row => exactValue row.quantity * exactValue item.landedCostAmount :=
    List.map_congr_left fun row hrow => by rw [ProjectMaterialUseRow.cost, hunit row hrow]
  rw [hcost, List.sum_map_mul_right, ← hsum, exactValue_sum, List.map_map]
  rfl

theorem costsExactly_iff (hunit : ∀ row ∈ rows, row.unitCostAmount = item.landedCostAmount)
    (hsum : (rows.map (·.quantity)).sum = item.quantity) : CostsExactly item rows ↔
      |exactValue item.quantity - 1| * |exactValue item.landedCostAmount| ≤
        rows.length / 10 ^ 6 := by
  have hdifference : exactValue item.quantity * exactValue item.landedCostAmount -
      exactValue item.landedCostAmount =
        (exactValue item.quantity - 1) * exactValue item.landedCostAmount := by ring
  rw [CostsExactly, sum_cost hunit hsum, hdifference, abs_mul]

variable {markup : ℚ} {charge : Money}

theorem charged_error {row : ProjectMaterialUseRow} (hquantity : 0 < row.quantity)
    (hcharge : row.unitChargeAmount = some charge)
    (herror : |(charge : ℚ) - row.unitCostAmount * (1 + markup / 100)| ≤ 101 / 200) :
    |row.charged - row.cost * (1 + markup / 100)| ≤
      (1 / 2 + exactValue row.quantity * (101 / 200)) / 10 ^ 6 := by
  have hline := WorkDecimal.multiplyDecimals_error (ScaledDecimal.ofMoney row.quantity)
    (ScaledDecimal.ofMoney charge)
  have hpos : 0 ≤ exactValue row.quantity := by
    unfold exactValue
    positivity
  have hcharged : row.charged = exactValue (WorkDecimal.multiplyDecimals
      (ScaledDecimal.ofMoney row.quantity) (ScaledDecimal.ofMoney charge)).value := by
    simp only [ProjectMaterialUseRow.charged, materialUseLineAmount, hcharge, Option.map_some,
      Option.elim_some]
  rw [hcharged, ProjectMaterialUseRow.cost]
  rw [← exactValue_eq_ofMoney, ← exactValue_eq_ofMoney] at hline
  set line := (WorkDecimal.multiplyDecimals (ScaledDecimal.ofMoney row.quantity)
    (ScaledDecimal.ofMoney charge)).value
  set quantity := exactValue row.quantity
  have hunits : quantity * exactValue charge * 10 ^ 6 = quantity * charge := by
    unfold exactValue
    ring
  have hscaled : quantity * |(charge : ℚ) - row.unitCostAmount * (1 + markup / 100)| ≤
      quantity * (101 / 200) := mul_le_mul_of_nonneg_left herror hpos
  rw [← abs_of_nonneg hpos, ← abs_mul, abs_of_nonneg hpos] at hscaled
  rw [hunits] at hline
  have hvalues : exactValue line - quantity * exactValue row.unitCostAmount * (1 + markup / 100) =
      ((line - quantity * charge) +
        quantity * (charge - row.unitCostAmount * (1 + markup / 100))) / 10 ^ 6 := by
    unfold exactValue
    ring
  rw [hvalues, abs_div, abs_of_pos (show (0 : ℚ) < 10 ^ 6 by positivity)]
  refine div_le_div_of_nonneg_right ?_ (by positivity)
  exact (abs_add_le _ _).trans (add_le_add hline hscaled)

theorem sum_errors (rows : List ProjectMaterialUseRow) :
    (rows.map fun row => (1 / 2 + exactValue row.quantity * (101 / 200)) / 10 ^ 6).sum =
      (rows.length / 2 + exactValue (rows.map (·.quantity)).sum * (101 / 200)) / 10 ^ 6 := by
  rw [exactValue_sum, List.map_map]
  induction rows with
  | nil => simp
  | cons row rows ih =>
    simp only [List.map_cons, List.sum_cons, List.length_cons, ih, Function.comp_apply]
    push_cast
    ring

theorem charged_one {row : ProjectMaterialUseRow} (hquantity : row.quantity = 10 ^ 6)
    (hcharge : row.unitChargeAmount = some charge) :
    row.charged = exactValue charge := by
  have hline : (WorkDecimal.multiplyDecimals (ScaledDecimal.ofMoney (10 ^ 6))
      (ScaledDecimal.ofMoney charge)).value = charge := by
    show Rounding.nearest (10 ^ 6 * charge) (10 ^ 6) = charge
    rw [mul_comm]
    exact Rounding.nearest_mul_self charge (by positivity)
  simp only [ProjectMaterialUseRow.charged, materialUseLineAmount, hcharge, hquantity,
    Option.map_some, Option.elim_some, hline]

theorem charged_nothing {row : ProjectMaterialUseRow} (hcharge : row.unitChargeAmount = some 0) :
    row.charged = 0 := by
  have hline : (WorkDecimal.multiplyDecimals (ScaledDecimal.ofMoney row.quantity)
      (ScaledDecimal.ofMoney 0)).value = 0 := by
    show Rounding.nearest (row.quantity * 0) (10 ^ 6) = 0
    rw [mul_zero]
    rfl
  simp only [ProjectMaterialUseRow.charged, materialUseLineAmount, hcharge, Option.map_some,
    Option.elim_some, hline]
  simp [exactValue]

def ChargedAt (item : InventoryItemRow) (markup : ℚ) (row : ProjectMaterialUseRow) : Prop :=
  ∃ charge, row.unitChargeAmount = some charge ∧
    |(charge : ℚ) - item.landedCostAmount * (1 + markup / 100)| ≤ 101 / 200

section

variable (hunit : ∀ row ∈ rows, row.unitCostAmount = item.landedCostAmount)
include hunit

theorem chargesExactly_of_le (hpos : ∀ row ∈ rows, 0 < row.quantity)
    (hcharged : ∀ row ∈ rows, ChargedAt item markup row)
    (hle : 101 * exactValue (rows.map (·.quantity)).sum ≤ 100 * rows.length) :
    ChargesExactly markup rows := by
  have hrows : ∀ row ∈ rows, |row.charged - row.cost * (1 + markup / 100)| ≤
      (1 / 2 + exactValue row.quantity * (101 / 200)) / 10 ^ 6 := by
    intro row hrow
    obtain ⟨charge, hcharge, herror⟩ := hcharged row hrow
    rw [← hunit row hrow] at herror
    exact charged_error (hpos row hrow) hcharge herror
  have herror := abs_sum_sub_le hrows
  rw [sum_errors, List.sum_map_mul_right] at herror
  refine herror.trans (div_le_div_of_nonneg_right ?_ (by positivity))
  linarith

theorem chargesExactly_of_one (hpos : ∀ row ∈ rows, 0 < row.quantity)
    (hcharged : ∀ row ∈ rows, ChargedAt item markup row)
    (hone : exactValue (rows.map (·.quantity)).sum = 1) : ChargesExactly markup rows := by
  rcases rows with _ | ⟨row, _ | ⟨other, rows⟩⟩
  · simp [ChargesExactly]
  · obtain ⟨charge, hcharge, herror⟩ := hcharged row List.mem_cons_self
    simp only [List.map_cons, List.map_nil, List.sum_cons, List.sum_nil, add_zero] at hone
    have hquantity : row.quantity = 10 ^ 6 := by
      unfold exactValue at hone
      rw [div_eq_one_iff_eq (by positivity)] at hone
      exact_mod_cast hone
    simp only [ChargesExactly, List.map_cons, List.map_nil, List.sum_cons, List.sum_nil, add_zero,
      charged_one hquantity hcharge, ProjectMaterialUseRow.cost, hone, one_mul,
      hunit row List.mem_cons_self, List.length_singleton]
    have hvalues : exactValue charge - exactValue item.landedCostAmount * (1 + markup / 100) =
        (charge - item.landedCostAmount * (1 + markup / 100)) / 10 ^ 6 := by
      unfold exactValue
      ring
    rw [hvalues, abs_div, abs_of_pos (show (0 : ℚ) < 10 ^ 6 by positivity)]
    refine div_le_div_of_nonneg_right (herror.trans ?_) (by positivity)
    norm_num
  · refine chargesExactly_of_le hunit hpos hcharged ?_
    rw [hone]
    simp only [List.length_cons]
    push_cast
    have hlength : (0 : ℚ) ≤ rows.length := by positivity
    linarith

theorem chargesExactly_of_free (hcharged : ∀ row ∈ rows, ChargedAt item markup row)
    (hfree : item.landedCostAmount = 0) :
    ChargesExactly markup rows := by
  have hnothing : ∀ row ∈ rows, row.charged = 0 := by
    intro row hrow
    obtain ⟨charge, hcharge, herror⟩ := hcharged row hrow
    rw [hfree, Int.cast_zero, zero_mul, sub_zero] at herror
    have hlt : |(charge : ℚ)| < 1 := herror.trans_lt (by norm_num)
    have hzero : charge = 0 := Int.abs_lt_one_iff.1 (by exact_mod_cast hlt)
    exact charged_nothing (hzero ▸ hcharge)
  have hcosts : ∀ row ∈ rows, row.cost = 0 := by
    intro row hrow
    rw [ProjectMaterialUseRow.cost, hunit row hrow, hfree, exactValue, exactValue]
    simp
  have hzero : ∀ f : ProjectMaterialUseRow → ℚ, (∀ row ∈ rows, f row = 0) →
      (rows.map f).sum = 0 := by
    intro f hf
    refine List.sum_eq_zero fun value hvalue => ?_
    obtain ⟨row, hrow, rfl⟩ := List.mem_map.1 hvalue
    exact hf row hrow
  rw [ChargesExactly, hzero _ hnothing, hzero _ hcosts, zero_mul, sub_zero, abs_zero]
  positivity

end

end Totals

/-- Uses that take up an item cost what it did exactly if what it has beyond a unit, or lacks of
one, is worth no more than the rounding. -/
theorem consumed_exactly {t t' : MaterialTables} {item : InventoryItemRow} {itemId : ItemId}
    {calls : List RecordCall} {rows : List ProjectMaterialUseRow}
    (hitem : t.loadInventoryItem itemId = .ok item)
    (huse : ∀ call ∈ calls, call.input.IsBasisUse itemId) (h : t.recordEach calls = .ok (rows, t'))
    (hsum : (rows.map (·.quantity)).sum = item.quantity) :
    (CostsExactly item rows ↔
      |exactValue item.quantity - 1| * |exactValue item.landedCostAmount| ≤
        rows.length / 10 ^ 6) ∧
    ∀ markup, (∀ call ∈ calls, call.input.MarkedUp markup) →
      exactValue item.quantity = 1 ∨ item.landedCostAmount = 0 ∨
        101 * exactValue item.quantity ≤ 100 * rows.length →
      ChargesExactly markup rows := by
  have htakes := MaterialTables.recordEach_takesCost hitem huse h
  have hunit : ∀ row ∈ rows, row.unitCostAmount = item.landedCostAmount := fun row hrow => by
    obtain ⟨call, -, htake⟩ := htakes row hrow
    exact htake.unit
  have hpos : ∀ row ∈ rows, 0 < row.quantity := fun row hrow => by
    obtain ⟨call, -, htake⟩ := htakes row hrow
    exact htake.quantity
  refine ⟨costsExactly_iff hunit hsum, fun markup hmarkup hcases => ?_⟩
  have hcharged : ∀ row ∈ rows, ChargedAt item markup row := fun row hrow => by
    obtain ⟨call, hcall, htake⟩ := htakes row hrow
    exact htake.charge markup (hmarkup call hcall)
  rw [← hsum] at hcases
  rcases hcases with hone | hfree | hle
  · exact chargesExactly_of_one hunit hpos hcharged hone
  · exact chargesExactly_of_free hunit hcharged hfree
  · exact chargesExactly_of_le hunit hpos hcharged hle

namespace TenBoards

def boards (quantity : Money) : InventoryItemRow where
  id := 7
  itemCode := "INV-7"
  acquisitionId := none
  economicEntityId := none
  locationId := none
  originItemId := none
  status := "available"
  quantity := quantity
  quantityOnHand := quantity
  currency := "USD"
  acquisitionCostAmount := 100_000_000
  landedCostAmount := 100_000_000
  costBasisLocked := false
  saleMode := .lot

def workshop (quantity : Money) : MaterialTables :=
  { users := [], counterparties := [], economicEntities := [], projects := [⟨1, none, none⟩],
    billingRates := [], timeEntries := [], inventoryItems := [boards quantity] }

def useOf (quantity : String) : RecordMaterialUseInput where
  projectId := 1
  inventoryItemId := some 7
  description := "Boards"
  quantity := quantity
  consumedOn := ⟨2026, 3, 2⟩
  costBasisSource := .inventoryBasis
  markupPercent := some "15"

def noon : Timestamp := ⟨⟨2026, 3, 2⟩, 43_200_000_000⟩

def row (id : MaterialUseId) (quantity : String) : ProjectMaterialUseRow :=
  (useOf quantity).trimmed.row id ⟨"USD", ScaledDecimal.ofMoney 100_000_000⟩ (some 115_000_000) noon

theorem isBasisUse (quantity : String) : (useOf quantity).IsBasisUse 7 := ⟨rfl, rfl, rfl⟩

theorem markedUp (quantity : String) : (useOf quantity).MarkedUp 15 := by
  refine ⟨⟨"15", rfl, ?_⟩, rfl, rfl⟩
  have hread : readDecimal "15" = ⟨15, 0⟩ := by decide
  rw [hread]
  norm_num [ScaledDecimal.value]

theorem record_ten : (workshop 10_000_000).recordEach [⟨useOf "10", 1, noon⟩] =
    .ok ([row 1 "10"], { workshop 10_000_000 with materialUses := [row 1 "10"] }) := by
  rfl

theorem record_halves : (workshop 1_000_000).recordEach
    [⟨useOf "0.5", 1, noon⟩, ⟨useOf "0.5", 2, noon⟩] = .ok ([row 1 "0.5", row 2 "0.5"],
      { workshop 1_000_000 with materialUses := [row 1 "0.5", row 2 "0.5"] }) := by
  rfl

end TenBoards

open TenBoards

theorem one_board_exact : CostsExactly (boards 1_000_000) [row 1 "0.5", row 2 "0.5"] ∧
    ChargesExactly 15 [row 1 "0.5", row 2 "0.5"] := by
  have hquantity : exactValue (boards 1_000_000).quantity = 1 := by
    norm_num [exactValue, boards]
  have hitem : (workshop 1_000_000).loadInventoryItem 7 = .ok (boards 1_000_000) := rfl
  have huse : ∀ call ∈ ([⟨useOf "0.5", 1, noon⟩, ⟨useOf "0.5", 2, noon⟩] : List RecordCall),
      call.input.IsBasisUse 7 ∧ call.input.MarkedUp 15 := by
    intro call hcall
    have hinput : call.input = useOf "0.5" := by
      rcases List.mem_pair.1 hcall with rfl | rfl <;> rfl
    rw [hinput]
    exact ⟨isBasisUse "0.5", markedUp "0.5"⟩
  have hexact := consumed_exactly hitem (fun call hcall => (huse call hcall).1) record_halves
    (by decide)
  refine ⟨hexact.1.2 ?_, hexact.2 15 (fun call hcall => (huse call hcall).2) (.inl hquantity)⟩
  rw [hquantity, sub_self, abs_zero, zero_mul]
  positivity

theorem ten_boards_over : ¬ ∀ (t t' : MaterialTables) (item : InventoryItemRow) (itemId : ItemId)
    (calls : List RecordCall) (rows : List ProjectMaterialUseRow),
    t.loadInventoryItem itemId = .ok item →
    (∀ call ∈ calls, call.input.IsBasisUse itemId) → t.recordEach calls = .ok (rows, t') →
    (rows.map (·.quantity)).sum = item.quantity →
    CostsExactly item rows ∧ ∀ markup, (∀ call ∈ calls, call.input.MarkedUp markup) →
      ChargesExactly markup rows := by
  intro hall
  have huse : ∀ call ∈ [(⟨useOf "10", 1, noon⟩ : RecordCall)], call.input.IsBasisUse 7 := by
    intro call hcall
    rw [List.mem_singleton.1 hcall]
    exact isBasisUse "10"
  have hcost := (hall _ _ (boards 10_000_000) 7 _ _ rfl huse record_ten (by decide)).1
  rw [costsExactly_iff (by decide) (by decide)] at hcost
  norm_num [exactValue, boards] at hcost

end Loxep

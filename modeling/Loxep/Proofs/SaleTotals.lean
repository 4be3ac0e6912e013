import Loxep.Proofs.StockLeft

/-!
# When a manual sale's total is recorded

The price is widened to six digits before it is multiplied, so the product has as many digits more
as the quantity is written with.
-/

namespace Loxep

def SixDigits (q : ℚ) : Prop := ∃ n : ℤ, q * 10 ^ 6 = n

def ManualSaleValue.total (value : ManualSaleValue) : ℚ :=
  value.unitPrice.value * value.quantity.value

theorem parseSaleDecimal_eq_some {text : String} {d : ScaledDecimal}
    (h : parseSaleDecimal text = some d) : 0 ≤ d.units ∧ d.scale ≤ 6 := by
  unfold parseSaleDecimal at h
  split_ifs at h with hsign
  obtain ⟨hparse, hscale⟩ := Option.filter_eq_some_iff.1 h
  have hle : d.scale ≤ 6 := of_decide_eq_true hscale
  unfold parseDecimalText at hparse
  split_ifs at hparse
  simp only [hsign, Option.some.injEq, if_false] at hparse
  refine ⟨?_, hle⟩
  rw [← hparse]
  exact Int.natCast_nonneg _

theorem RecordManualSaleInput.parse_eq_ok {input : RecordManualSaleInput} {value : ManualSaleValue}
    (h : input.parse = .ok value) : parseSaleDecimal input.quantity = some value.quantity ∧
      parseSaleDecimal input.unitPrice = some value.unitPrice := by
  unfold parse at h
  split at h
  · rename_i quantity unitPrice hquantity hprice _
    cases h
    exact ⟨hquantity, hprice⟩
  · cases h

namespace ManualSaleTables

theorem readSale_value {s : ManualSaleTables} {input : RecordManualSaleInput}
    {reading : SaleReading} (h : s.readSale input = .ok reading) :
    input.parse = .ok reading.value := by
  unfold readSale at h
  obtain ⟨value, hvalue, h⟩ := Except.bind_eq_ok.1 h
  split at h
  · cases h
  · simp only [Except.bind_eq_ok, Except.require_eq_ok] at h
    obtain ⟨-, -, -, -, h⟩ := h
    split at h
    · cases h
    · obtain rfl := Except.pure_eq_ok.1 h
      exact hvalue

end ManualSaleTables

theorem ScaledDecimal.value_whole {d : ScaledDecimal} (h : d.scale = 0) : d.value = d.units := by
  rw [ScaledDecimal.value, h, pow_zero, div_one]

theorem fits_iff {amount : ℤ} (h : 0 ≤ amount) :
    amount.natAbs < numericLimit ↔ (amount : ℚ) < 10 ^ 20 := by
  have hcast : (amount : ℚ) < 10 ^ 20 ↔ amount < 10 ^ 20 := by exact_mod_cast Iff.rfl
  rw [hcast]
  unfold numericLimit
  omega

namespace ManualSaleValue

variable {value : ManualSaleValue} {entities : List EntityId}

theorem total_whole (hscale : value.unitPrice.scale ≤ 6) (hzero : value.quantity.scale = 0) :
    ((value.unitPrice.rescale 6 * value.quantity.units : ℤ) : ℚ) = value.total * 10 ^ 6 := by
  rw [Int.cast_mul, ScaledDecimal.rescale_cast hscale, total, ScaledDecimal.value_whole hzero]
  ring

theorem sixDigits_total (hscale : value.unitPrice.scale ≤ 6) (hzero : value.quantity.scale = 0) :
    SixDigits value.total := ⟨_, (total_whole hscale hzero).symm⟩

theorem recordable_iff_fits (hprice : 0 ≤ value.unitPrice.units)
    (hscale : value.unitPrice.scale ≤ 6) : value.Recordable entities ↔ value.quantity.scale = 0 ∧
      0 < value.quantity.units ∧ value.total < 10 ^ 14 ∧ value.quantity.value < 10 ^ 14 ∧
        ∀ entity ∈ value.economicEntityId, entity ∈ entities := by
  have hunit : 0 ≤ value.unitPrice.rescale 6 := by
    unfold ScaledDecimal.rescale
    positivity
  have hwide : ∀ q : ℚ, q * 10 ^ 6 < 10 ^ 20 ↔ q < 10 ^ 14 := fun q =>
    ⟨fun h => by linarith, fun h => by linarith⟩
  have hquantity : value.quantity.scale = 0 →
      (value.quantity.rescale 6 : ℚ) = value.quantity.value * 10 ^ 6 := fun hzero =>
    ScaledDecimal.rescale_cast (by omega)
  rw [recordable_iff]
  simp only [amounts_eq_ok, SaleAmounts.fit, List.all_cons, List.all_nil, Bool.and_true,
    Bool.and_eq_true, decide_eq_true_eq]
  constructor
  · rintro ⟨_, ⟨-, hzero, rfl⟩, ⟨-, hsub, hcount⟩, hpos, hknown⟩
    have hnonneg : 0 ≤ value.quantity.rescale 6 := by
      unfold ScaledDecimal.rescale
      positivity
    rw [fits_iff (mul_nonneg hunit hpos.le), total_whole hscale hzero, hwide] at hsub
    rw [fits_iff hnonneg, hquantity hzero, hwide] at hcount
    exact ⟨hzero, hpos, hsub, hcount, hknown⟩
  · rintro ⟨hzero, hpos, htotal, hcount, hknown⟩
    have hnonneg : 0 ≤ value.quantity.rescale 6 := by
      unfold ScaledDecimal.rescale
      positivity
    have hsub : (value.unitPrice.rescale 6 * value.quantity.units).natAbs < numericLimit := by
      rw [fits_iff (mul_nonneg hunit hpos.le), total_whole hscale hzero, hwide]
      exact htotal
    refine ⟨_, ⟨hscale, hzero, rfl⟩, ⟨?_, hsub, ?_⟩, hpos, hknown⟩
    · have hone : value.unitPrice.rescale 6 ≤ value.unitPrice.rescale 6 * value.quantity.units :=
        le_mul_of_one_le_right hunit hpos
      rw [fits_iff hunit]
      rw [fits_iff (mul_nonneg hunit hpos.le)] at hsub
      exact lt_of_le_of_lt (by exact_mod_cast hone) hsub
    · rw [fits_iff hnonneg, hquantity hzero, hwide]
      exact hcount

end ManualSaleValue

namespace ManualSaleTables

variable {s t : ManualSaleTables} {input : RecordManualSaleInput} {reading : SaleReading}
  {orderId : OrderId} {externalOrderId : String} {now : Timestamp}

/-- One sale more: its line and its order come to the total. -/
structure Records (s t : ManualSaleTables) (total : ℚ) : Prop where
  line : ∃ line, t.orderLines = s.orderLines ++ [line] ∧ (line.lineTotal : ℚ) = total * 10 ^ 6
  order : ∃ order, t.orders = s.orders ++ [order] ∧ (order.totalAmount : ℚ) = total * 10 ^ 6

/-- A sale whose total six digits hold is recorded with it, and any other is refused. -/
structure TotalsExactly (s : ManualSaleTables) (input : RecordManualSaleInput) (total : ℚ)
    (orderId : OrderId) (externalOrderId : String) (now : Timestamp) : Prop where
  recorded : SixDigits total → ∃ result t,
    s.recordManualSale input orderId externalOrderId now = .ok (result, t) ∧ s.Records t total
  refused : ¬ SixDigits total → ∃ e, s.recordManualSale input orderId externalOrderId now = .error e

theorem writeSale_records {result : RecordManualSaleResult}
    (h : s.writeSale reading orderId externalOrderId now = .ok (result, t)) :
    s.Records t reading.value.total := by
  unfold writeSale at h
  obtain ⟨amounts, hamounts, h⟩ := Except.bind_eq_ok.1 h
  obtain ⟨-, -, h⟩ := Except.bind_eq_ok.1 h
  obtain ⟨-, -, h⟩ := Except.bind_eq_ok.1 h
  obtain ⟨-, -, h⟩ := Except.bind_eq_ok.1 h
  obtain ⟨-, rfl⟩ := Prod.mk.inj (Except.pure_eq_ok.1 h)
  obtain ⟨hscale, hzero, rfl⟩ := ManualSaleValue.amounts_eq_ok.1 hamounts
  have htotal := ManualSaleValue.total_whole hscale hzero
  exact ⟨⟨_, rfl, htotal⟩, ⟨_, rfl, htotal⟩⟩

/-- The total of a sale that can be made is exact or refused for its digits exactly if it has too
many, or the quantity is written as a positive whole number, the columns hold the sale and the
entity it names exists. -/
theorem totals_exactly_iff (h : s.readSale input = .ok reading) :
    s.TotalsExactly input reading.value.total orderId externalOrderId now ↔
      ¬ SixDigits reading.value.total ∨ (reading.value.quantity.scale = 0 ∧
        0 < reading.value.quantity.units ∧ reading.value.total < 10 ^ 14 ∧
        reading.value.quantity.value < 10 ^ 14 ∧
        ∀ entity ∈ reading.value.economicEntityId, entity ∈ s.economicEntities) := by
  obtain ⟨-, hpriced⟩ := RecordManualSaleInput.parse_eq_ok (readSale_value h)
  obtain ⟨hprice, hscale⟩ := parseSaleDecimal_eq_some hpriced
  have hwrite : s.recordManualSale input orderId externalOrderId now =
      s.writeSale reading orderId externalOrderId now := by
    unfold recordManualSale
    rw [h]
    rfl
  rw [← ManualSaleValue.recordable_iff_fits hprice hscale]
  constructor
  · rintro ⟨hrecorded, -⟩
    by_cases hsix : SixDigits reading.value.total
    · obtain ⟨result, t, hreturns, -⟩ := hrecorded hsix
      rw [hwrite] at hreturns
      exact .inr (writeSale_returns_iff.1 (Except.returns_iff.2 ⟨_, hreturns⟩))
    · exact .inl hsix
  · intro hcases
    refine ⟨fun hsix => ?_, fun hmore => ?_⟩
    · rcases hcases with hmore | hrecordable
      · exact absurd hsix hmore
      · have hwrites : Except.returns (s.writeSale reading orderId externalOrderId now) = true :=
          writeSale_returns_iff.2 hrecordable
        obtain ⟨⟨result, t⟩, hreturns⟩ := Except.returns_iff.1 hwrites
        exact ⟨result, t, hwrite.trans hreturns, writeSale_records hreturns⟩
    · rcases hreturns : s.writeSale reading orderId externalOrderId now with e | ⟨result, t⟩
      · exact ⟨e, hwrite.trans hreturns⟩
      · have hrecordable := writeSale_returns_iff.1 (Except.returns_iff.2 ⟨_, hreturns⟩)
        exact absurd (ManualSaleValue.sixDigits_total hscale hrecordable.scale) hmore

end ManualSaleTables

section Examples

namespace SaleTotal

def cable : ChannelListingRow where
  id := 1
  listingCode := "LST-2026-0007"
  catalogItemId := 1
  provider := MANUAL_PROVIDER
  channel := "craigslist"
  status := .active
  listingTitle := none
  currency := some "USD"
  quantityAvailable := some 50
  endedAt := none

def shop : ManualSaleTables where
  channelListings := [cable]
  catalogItems := [⟨1, "ITM-7", "Cable"⟩]

def sells (quantity : String) : RecordManualSaleInput where
  channelListingId := 1
  quantity := quantity
  unitPrice := "10.00"

def reading (quantity : ScaledDecimal) : SaleReading where
  value := ⟨1, quantity, ⟨1000, 2⟩, none, none, none⟩
  listing := cable
  catalogItem := ⟨1, "ITM-7", "Cable"⟩

def clock : Timestamp := ⟨⟨2026, 9, 30⟩, 0⟩

end SaleTotal

open SaleTotal in
theorem three_metres_total :
    ManualSaleTables.TotalsExactly shop (sells "3") 30 1 "manual:a" clock := by
  have hread : shop.readSale (sells "3") = .ok (reading ⟨3, 0⟩) := by decide +kernel
  have htotal : (reading ⟨3, 0⟩).value.total = 30 := by
    norm_num [reading, ManualSaleValue.total, ScaledDecimal.value]
  have hexact : shop.TotalsExactly (sells "3") (reading ⟨3, 0⟩).value.total 1 "manual:a" clock ↔
      _ := ManualSaleTables.totals_exactly_iff hread
  rw [htotal] at hexact
  refine hexact.2 (.inr ⟨rfl, by decide, by norm_num, ?_, by simp [reading]⟩)
  norm_num [reading, ScaledDecimal.value]

open SaleTotal in
theorem half_metre_refused : ¬ ∀ (s : ManualSaleTables) (input : RecordManualSaleInput)
    (reading : SaleReading) (orderId : OrderId) (externalOrderId : String) (now : Timestamp),
    s.readSale input = .ok reading →
      s.TotalsExactly input reading.value.total orderId externalOrderId now := by
  intro hall
  have hexact := hall shop (sells "2.5") (reading ⟨25, 1⟩) 1 "manual:a" clock (by decide +kernel)
  have hsix : SixDigits (reading ⟨25, 1⟩).value.total :=
    ⟨25_000_000, by norm_num [reading, ManualSaleValue.total, ScaledDecimal.value]⟩
  obtain ⟨result, t, hreturns, -⟩ := hexact.recorded hsix
  have hrefused : Except.returns (shop.recordManualSale (sells "2.5") 1 "manual:a" clock) =
      false := by decide +kernel
  rw [hreturns] at hrefused
  cases hrefused

end Examples

end Loxep

import Loxep.Distribution
import Loxep.Proofs.PostedCost
import Mathlib.Algebra.BigOperators.Ring.Finset
import Mathlib.Algebra.BigOperators.Ring.List
import Mathlib.Data.Rat.Cast.Order

/-!
# Shares of a distribution

Every share is the weight's exact quota rounded down or up, a weight of zero gets nothing, and the
shares with what stays unallocated make up the total. The remainders of the quotas add up to the
leftover units and each is less than one, so there is a recipient for every leftover unit.
-/

namespace Loxep

section Loop

variable {m : ℕ} {ws : List ℕ}

theorem placeLeftover_eq : ∀ (floors : List ℕ) (order : List (ℕ × ℕ)) (leftover : ℕ),
    placeLeftover floors order leftover =
      (LargestRemainder.handOut floors order leftover, leftover - order.length)
  | floors, [], leftover => rfl
  | floors, entry :: order, leftover => by
    unfold placeLeftover LargestRemainder.handOut
    split_ifs with hzero
    · simp [hzero]
    · rw [placeLeftover_eq _ order]
      simp
      omega

theorem spread_eq (hpos : 0 < ws.sum) : spread m ws = (LargestRemainder.apportion m ws, 0) := by
  have hleft := @LargestRemainder.left_le_order m ws hpos
  unfold spread LargestRemainder.apportion
  simp only [placeLeftover_eq, Prod.mk.injEq, true_and]
  omega

end Loop

namespace ScaledDecimal

/-- The exact share of `total` units that a weight stands for; nothing where no weight counts. -/
def quota (total : ℤ) (weights : List ScaledDecimal) (w : ScaledDecimal) : ℚ :=
  total * w.value / (weights.map value).sum

section Values

variable {weights : List ScaledDecimal} {w d : ScaledDecimal} {s : ℕ} {total : ℤ}

theorem scale_le_weightScale (h : w ∈ weights) : w.scale ≤ weightScale weights :=
  (le_foldl_max _ 0).2 _ (List.mem_map_of_mem h)

theorem weightUnits_sum_cast :
    ((weightUnits weights).sum : ℚ) = (weights.map value).sum * 10 ^ weightScale weights := by
  have hcast : ((weightUnits weights).sum : ℚ) =
      (weights.map fun w => (w.rescale (weightScale weights) : ℚ)).sum := by
    rw [weightUnits, Int.cast_list_sum, List.map_map]
    rfl
  rw [hcast, List.map_congr_left fun w h => rescale_cast (scale_le_weightScale h),
    List.sum_map_mul_right]

theorem quota_eq (h : w ∈ weights) : quota total weights w =
    total * w.rescale (weightScale weights) / (weightUnits weights).sum := by
  have hne : (10 : ℚ) ^ weightScale weights ≠ 0 := by positivity
  rw [quota, weightUnits_sum_cast, rescale_cast (scale_le_weightScale h), ← mul_assoc,
    mul_div_mul_right _ _ hne]

theorem rescale_nonneg (h : 0 ≤ w.units) : 0 ≤ w.rescale s := by
  unfold rescale
  positivity

theorem rescale_eq_zero_iff : w.rescale s = 0 ↔ w.units = 0 := by
  simp [rescale]

theorem weightUnits_nonneg (hw : ∀ w ∈ weights, 0 ≤ w.units) :
    ∀ u ∈ weightUnits weights, 0 ≤ u := by
  intro u hu
  obtain ⟨w, hmem, rfl⟩ := List.mem_map.1 hu
  exact rescale_nonneg (hw w hmem)

theorem toNat_sum {l : List ℤ} (h : ∀ x ∈ l, 0 ≤ x) : ((l.map Int.toNat).sum : ℤ) = l.sum := by
  induction l with
  | nil => rfl
  | cons x l ih =>
    obtain ⟨hx, hl⟩ := List.forall_mem_cons.1 h
    simp [ih hl, hx]

end Values

def Fits (total : ℤ) (weights : List ScaledDecimal) (w : ScaledDecimal) (share : ℤ) : Prop :=
  |(share : ℚ) - quota total weights w| < 1 ∧ (w.units = 0 → share = 0)

/-- The call returns a fitting share for every weight, which with what stays unallocated make up the
total; and so under the other sign. -/
structure Distributes (total : ScaledDecimal) (weights : List ScaledDecimal) (scale : ℕ)
    (d : Distribution) : Prop where
  returned : distributeByWeights total weights scale = .ok d
  fits : List.Forall₂ (Fits (total.rescale scale) weights) weights d.shares
  conserved : d.shares.sum + d.unallocated = total.rescale scale
  mirrored : distributeByWeights total.negateDecimal weights scale =
    .ok ⟨d.shares.map (-·), -d.unallocated⟩
  placed : 0 < (weightUnits weights).sum →
    (spread (total.rescale scale).natAbs ((weightUnits weights).map Int.toNat)).2 = 0

section Distribute

variable {total : ScaledDecimal} {weights : List ScaledDecimal} {scale : ℕ} {units : ℤ}

def distribution (units : ℤ) (weights : List ScaledDecimal) : Distribution :=
  if (weightUnits weights).sum = 0 then ⟨weights.map fun _ => 0, units⟩
  else ⟨(LargestRemainder.apportion units.natAbs ((weightUnits weights).map Int.toNat)).map
    (signedLike units), 0⟩

theorem weights_pos (hw : ∀ w ∈ weights, 0 ≤ w.units) (hne : (weightUnits weights).sum ≠ 0) :
    0 < ((weightUnits weights).map Int.toNat).sum := by
  have hcast := toNat_sum (weightUnits_nonneg hw)
  omega

theorem distributeByWeights_eq (hscale : total.scale ≤ scale) (hw : ∀ w ∈ weights, 0 ≤ w.units) :
    distributeByWeights total weights scale = .ok (distribution (total.rescale scale) weights) := by
  have hneg : ¬ ∃ w ∈ weights, w.units < 0 := fun ⟨w, hmem, hlt⟩ => absurd (hw w hmem) (by omega)
  simp only [distributeByWeights, toUnits, if_pos hscale, if_neg hneg, distribution]
  by_cases hnil : weights = []
  · simp [hnil, weightUnits, bind, Except.bind, pure, Except.pure]
  · by_cases hzero : (weightUnits weights).sum = 0
    · simp [hnil, hzero, bind, Except.bind, pure, Except.pure]
    · simp [hnil, hzero, spread_eq (weights_pos hw hzero), bind, Except.bind, pure, Except.pure]

theorem distribution_neg : distribution (-units) weights =
    ⟨(distribution units weights).shares.map (-·), -(distribution units weights).unallocated⟩ := by
  unfold distribution
  split_ifs with hzero
  · simp
  · simp only [Int.natAbs_neg, List.map_map, neg_zero, Distribution.mk.injEq, and_true]
    refine List.map_congr_left fun n hn => ?_
    rcases lt_trichotomy units 0 with hlt | rfl | hgt
    · simp [signedLike, hlt, hlt.le]
    · have hall : LargestRemainder.apportion (Int.natAbs 0) ((weightUnits weights).map Int.toNat) =
          List.replicate _ 0 := LargestRemainder.apportion_zero
      rw [hall] at hn
      obtain rfl := List.eq_of_mem_replicate hn
      simp [signedLike]
    · simp [signedLike, hgt, hgt.le]

theorem distribution_conserved (hw : ∀ w ∈ weights, 0 ≤ w.units) :
    (distribution units weights).shares.sum + (distribution units weights).unallocated = units := by
  unfold distribution
  split_ifs with hzero
  · simp
  · rw [sum_signedLike, LargestRemainder.sum_apportion (weights_pos hw hzero), signedLike_natAbs,
      add_zero]

theorem near_of_parts {t w W : ℤ} {k : ℕ} (hW : 0 < W) (hlt : t.natAbs * w < W * (k + 1))
    (hgt : W * k < t.natAbs * w + W) : |(signedLike t k : ℚ) - t * w / W| < 1 := by
  have hWq : (0 : ℚ) < W := by exact_mod_cast hW
  have hlt' : |(t : ℚ)| * w < W * (k + 1) := by
    rw [← Int.cast_abs, Int.abs_eq_natAbs]
    exact_mod_cast hlt
  have hgt' : (W : ℚ) * k < |(t : ℚ)| * w + W := by
    rw [← Int.cast_abs, Int.abs_eq_natAbs]
    exact_mod_cast hgt
  rw [abs_sub_lt_iff, sub_lt_iff_lt_add, sub_lt_iff_lt_add, div_lt_iff₀ hWq, ← sub_lt_iff_lt_add',
    lt_div_iff₀ hWq]
  unfold signedLike
  split_ifs with hneg
  · rw [abs_of_neg (by exact_mod_cast hneg)] at hlt' hgt'
    push_cast
    constructor <;> linarith
  · rw [abs_of_nonneg (by exact_mod_cast not_lt.1 hneg)] at hlt' hgt'
    push_cast
    constructor <;> linarith

theorem distribution_fits (hw : ∀ w ∈ weights, 0 ≤ w.units) :
    List.Forall₂ (Fits units weights) weights (distribution units weights).shares := by
  unfold distribution
  split_ifs with hzero
  · have hsum : (weights.map value).sum = 0 := by
      have hcast := @weightUnits_sum_cast weights
      rw [hzero, Int.cast_zero, eq_comm, mul_eq_zero] at hcast
      exact hcast.resolve_right (by positivity)
    rw [List.forall₂_map_right_iff, List.forall₂_same]
    intro w _
    simp [Fits, quota, hsum]
  · have hpos := weights_pos hw hzero
    have hnonneg := weightUnits_nonneg hw
    have hcast := toNat_sum hnonneg
    refine List.forall₂_iff_get.2 ⟨by simp [LargestRemainder.length_apportion, weightUnits], ?_⟩
    intro i hi hshare
    have hi' : i < ((weightUnits weights).map Int.toNat).length := by simpa [weightUnits] using hi
    have happ : i < (LargestRemainder.apportion units.natAbs
        ((weightUnits weights).map Int.toNat)).length := by
      rwa [LargestRemainder.length_apportion]
    have hget : ((((weightUnits weights).map Int.toNat)[i] : ℕ) : ℤ) =
        weights[i].rescale (weightScale weights) := by
      simp only [weightUnits, List.getElem_map]
      exact Int.toNat_of_nonneg (rescale_nonneg (hw _ (List.getElem_mem hi)))
    obtain ⟨hlt, hgt⟩ := LargestRemainder.getElem_apportion_near hpos happ hi'
    simp only [List.get_eq_getElem, List.getElem_map]
    refine ⟨?_, fun hunits => ?_⟩
    · rw [quota_eq (List.getElem_mem hi)]
      refine near_of_parts (by omega) ?_ ?_
      · rw [← hget, ← hcast]
        exact_mod_cast hlt
      · rw [← hget, ← hcast]
        exact_mod_cast hgt
    · have hnone : ((weightUnits weights).map Int.toNat)[i] = 0 := by
        have : weights[i].rescale (weightScale weights) = 0 := rescale_eq_zero_iff.2 hunits
        omega
      rw [LargestRemainder.getElem_apportion_zero happ hi' hnone, signedLike_eq_zero_iff]

/-- A total of no more digits than the shares have is distributed. -/
theorem distributes (hscale : total.scale ≤ scale) (hw : ∀ w ∈ weights, 0 ≤ w.units) :
    ∃ d, Distributes total weights scale d := by
  have hmirror : total.negateDecimal.rescale scale = -total.rescale scale := by
    simp [negateDecimal, rescale]
  refine ⟨distribution (total.rescale scale) weights, distributeByWeights_eq hscale hw,
    distribution_fits hw, distribution_conserved hw, ?_, fun hpos => ?_⟩
  · have hscale' : total.negateDecimal.scale ≤ scale := hscale
    rw [distributeByWeights_eq hscale' hw, hmirror, distribution_neg]
  · rw [spread_eq (weights_pos hw hpos.ne')]

end Distribute

end ScaledDecimal

namespace AccountingDecimal

variable {total part whole value : ScaledDecimal} {units share : Money}

theorem toUnits_eq_ok : toUnits value = .ok units ↔ value.scale ≤ 6 ∧ value.rescale 6 = units := by
  unfold toUnits
  split_ifs with h <;> simp [h]

theorem proRataShare_eq_ok (htotal : total.scale ≤ 6) :
    proRataShare total part whole = .ok share ↔ whole.scale ≤ 6 ∧ part.scale ≤ 6 ∧
      Loxep.proRataShare (total.rescale 6) (part.rescale 6) (whole.rescale 6) = share := by
  have hok : ∀ {d : ScaledDecimal}, d.scale ≤ 6 → toUnits d = .ok (d.rescale 6) :=
    fun h => toUnits_eq_ok.2 ⟨h, rfl⟩
  by_cases hw : whole.scale ≤ 6
  · by_cases hp : part.scale ≤ 6
    · simp only [proRataShare, Loxep.proRataShare, hok hw, hok hp, hok htotal, hw, hp, true_and,
        bind, Except.bind, pure, Except.pure]
      split_ifs <;> simp
    · simp [proRataShare, toUnits, hw, hp, bind, Except.bind]
  · simp [proRataShare, toUnits, hw, bind, Except.bind]

end AccountingDecimal

namespace ScaledDecimal

variable {total part whole d : ScaledDecimal} {s s' : ℕ}

theorem value_subtractDecimals (a b : ScaledDecimal) :
    (subtractDecimals a b).value = a.value - b.value := by
  have hne : (10 : ℚ) ^ max a.scale b.scale ≠ 0 := by positivity
  have ha := rescale_cast (le_max_left a.scale b.scale)
  have hb := rescale_cast (le_max_right a.scale b.scale)
  unfold subtractDecimals
  rw [value]
  push_cast
  rw [ha, hb, ← sub_mul, mul_div_cancel_right₀ _ hne]

theorem units_nonneg_iff : 0 ≤ d.units ↔ 0 ≤ d.value := by
  have hpow : (0 : ℚ) < 10 ^ d.scale := by positivity
  rw [value, le_div_iff₀ hpow, zero_mul]
  exact_mod_cast Iff.rfl

theorem distribution_pair {units : ℤ} {rest : ScaledDecimal} (hpart : 0 ≤ part.value)
    (hrest : 0 ≤ rest.value) (hwhole : 0 < whole.value)
    (hsum : part.value + rest.value = whole.value) (hp : part.scale ≤ s) (hw : whole.scale ≤ s) :
    (distribution units [part, rest]).shares.head? =
      some (Loxep.proRataShare units (part.rescale s) (whole.rescale s)) := by
  have hpS : part.scale ≤ weightScale [part, rest] := scale_le_weightScale (by simp)
  have hrS : rest.scale ≤ weightScale [part, rest] := scale_le_weightScale (by simp)
  have hunits : weightUnits [part, rest] = [part.rescale (weightScale [part, rest]),
      rest.rescale (weightScale [part, rest])] := rfl
  rw [distribution, hunits]
  generalize weightScale [part, rest] = S at hpS hrS ⊢
  have hparts : part.rescale S + rest.rescale S = whole.value * 10 ^ S := by
    rw [rescale_cast hpS, rescale_cast hrS, ← hsum]
    ring
  have hratio : part.rescale S * whole.rescale s =
      part.rescale s * (part.rescale S + rest.rescale S) := by
    have hcast : (part.rescale S : ℚ) * whole.rescale s =
        part.rescale s * (part.rescale S + rest.rescale S) := by
      rw [hparts, rescale_cast hpS, rescale_cast hp, rescale_cast hw]
      ring
    exact_mod_cast hcast
  have hpos : 0 < part.rescale S + rest.rescale S := by
    have : (0 : ℚ) < part.rescale S + rest.rescale S := hparts ▸ by positivity
    exact_mod_cast this
  have hwpos : 0 < whole.rescale s := by
    have : (0 : ℚ) < whole.rescale s := by
      rw [rescale_cast hw]
      positivity
    exact_mod_cast this
  have hple : part.rescale s ≤ whole.rescale s := by
    have : (part.rescale s : ℚ) ≤ whole.rescale s := by
      rw [rescale_cast hp, rescale_cast hw]
      exact mul_le_mul_of_nonneg_right (by linarith) (by positivity)
    exact_mod_cast this
  have hpS₀ : 0 ≤ part.rescale S := rescale_nonneg (units_nonneg_iff.2 hpart)
  have hrS₀ : 0 ≤ rest.rescale S := rescale_nonneg (units_nonneg_iff.2 hrest)
  have hp₀ : 0 ≤ part.rescale s := rescale_nonneg (units_nonneg_iff.2 hpart)
  generalize part.rescale S = p at *
  generalize rest.rescale S = r at *
  generalize part.rescale s = p' at *
  generalize whole.rescale s = w at *
  lift p to ℕ using hpS₀
  lift r to ℕ using hrS₀
  lift p' to ℕ using hp₀
  lift w to ℕ using hwpos.le
  have hnat : 0 < p + r := by exact_mod_cast hpos
  have hsame : units.natAbs * p * w = units.natAbs * p' * (p + r) := by
    rw [mul_assoc, mul_assoc]
    exact congrArg _ (by exact_mod_cast hratio)
  rw [if_neg (by simp; omega), Loxep.proRataShare_eq_signedLike hwpos (by omega) hple]
  simp only [List.map_cons, List.map_nil, Int.toNat_natCast, LargestRemainder.apportion_pair hnat,
    List.head?_cons]
  rw [Rounding.halfUp_ratio hnat (by omega) hsame]

/-- Accounting's share is the first of the distribution over the part and the rest, wherever both
calls return. -/
theorem proRataShare_eq_first_share (total part whole : ScaledDecimal) (hpart : 0 ≤ part.value)
    (hle : part.value ≤ whole.value) (hwhole : 0 < whole.value) :
    (∀ share d, AccountingDecimal.proRataShare total part whole = .ok share →
        distributeByWeights total [part, subtractDecimals whole part] 6 = .ok d →
        d.shares.head? = some share) ∧
      (total.scale ≤ 6 → part.scale ≤ 6 → whole.scale ≤ 6 → ∃ share d,
        AccountingDecimal.proRataShare total part whole = .ok share ∧
        distributeByWeights total [part, subtractDecimals whole part] 6 = .ok d ∧
        d.shares.head? = some share) := by
  have hrest : 0 ≤ (subtractDecimals whole part).value := by
    rw [value_subtractDecimals]
    linarith
  have hweights : ∀ w ∈ [part, subtractDecimals whole part], 0 ≤ w.units := by
    intro w hw
    rcases List.mem_pair.1 hw with rfl | rfl
    · exact units_nonneg_iff.2 hpart
    · exact units_nonneg_iff.2 hrest
  have hpair : part.scale ≤ 6 → whole.scale ≤ 6 →
      (distribution (total.rescale 6) [part, subtractDecimals whole part]).shares.head? =
        some (Loxep.proRataShare (total.rescale 6) (part.rescale 6) (whole.rescale 6)) := by
    intro hp hw
    refine distribution_pair hpart hrest hwhole ?_ hp hw
    rw [value_subtractDecimals]
    ring
  refine ⟨fun share d hshare hd => ?_, fun ht hp hw => ?_⟩
  · have ht : total.scale ≤ 6 := by
      by_contra hlt
      simp [distributeByWeights, toUnits, hlt, bind, Except.bind] at hd
    obtain ⟨hw, hp, rfl⟩ := (AccountingDecimal.proRataShare_eq_ok ht).1 hshare
    rw [distributeByWeights_eq ht hweights, Except.ok.injEq] at hd
    exact hd ▸ hpair hp hw
  · exact ⟨_, _, (AccountingDecimal.proRataShare_eq_ok ht).2 ⟨hw, hp, rfl⟩,
      distributeByWeights_eq ht hweights, hpair hp hw⟩

end ScaledDecimal

section Examples

theorem narrower_scale_refused : ¬ ∀ (total : ScaledDecimal) (weights : List ScaledDecimal)
    (scale : ℕ), (∀ w ∈ weights, 0 ≤ w.units) →
    ∃ d, ScaledDecimal.Distributes total weights scale d := by
  intro hall
  obtain ⟨d, hd⟩ := hall ⟨1, 7⟩ [⟨1, 0⟩] 6 (by decide)
  have hreturned := hd.returned
  simp [ScaledDecimal.distributeByWeights, ScaledDecimal.toUnits, bind, Except.bind] at hreturned

theorem credit_distributed :
    ∃ d, ScaledDecimal.Distributes ⟨-10, 2⟩ [⟨10, 1⟩, ⟨1, 0⟩, ⟨0, 3⟩, ⟨100, 2⟩] 6 d :=
  ScaledDecimal.distributes (by decide) (by decide)

theorem seventh_digit_of_part : ¬ ∀ total part whole : ScaledDecimal, 0 ≤ part.value →
    part.value ≤ whole.value → 0 < whole.value →
    (AccountingDecimal.proRataShare total part whole).toOption =
      (ScaledDecimal.distributeByWeights total
        [part, ScaledDecimal.subtractDecimals whole part] 6).toOption.bind (·.shares.head?) := by
  intro hall
  have hsame := hall ⟨1, 0⟩ ⟨1, 7⟩ ⟨1, 0⟩ (by norm_num [ScaledDecimal.value])
    (by norm_num [ScaledDecimal.value]) (by norm_num [ScaledDecimal.value])
  have hcode : (AccountingDecimal.proRataShare ⟨1, 0⟩ ⟨1, 7⟩ ⟨1, 0⟩).toOption = none := by
    decide
  have hshare : (ScaledDecimal.distributeByWeights ⟨1, 0⟩
      [⟨1, 7⟩, ScaledDecimal.subtractDecimals ⟨1, 0⟩ ⟨1, 7⟩] 6).toOption.bind
        (·.shares.head?) = some 0 := by
    decide
  rw [hcode, hshare] at hsame
  simp at hsame

theorem odd_credit_shared : ∃ share d,
    AccountingDecimal.proRataShare ⟨-1, 6⟩ ⟨5, 1⟩ ⟨1, 0⟩ = .ok share ∧
    ScaledDecimal.distributeByWeights ⟨-1, 6⟩
      [⟨5, 1⟩, ScaledDecimal.subtractDecimals ⟨1, 0⟩ ⟨5, 1⟩] 6 = .ok d ∧
    d.shares.head? = some share :=
  (ScaledDecimal.proRataShare_eq_first_share ⟨-1, 6⟩ ⟨5, 1⟩ ⟨1, 0⟩
    (by norm_num [ScaledDecimal.value]) (by norm_num [ScaledDecimal.value])
    (by norm_num [ScaledDecimal.value])).2 (by decide) (by decide) (by decide)

end Examples

end Loxep

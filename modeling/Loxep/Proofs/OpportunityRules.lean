import Loxep.Opportunities
import Mathlib.Data.Int.ConditionallyCompleteOrder
import Mathlib.Tactic.FieldSimp

/-!
# What an opportunity rule decides

A price enters a comparison as the integer of its first twelve digits after the point. The quotient
of a percentage drop is truncated, but a threshold of six decimals is a whole number of the
quotient's units, and no such number lies between a quotient and what it is truncated to.
-/

namespace Loxep

section Digits

variable {xs ys : List Char}

theorem digitsValue_append :
    digitsValue (xs ++ ys) = digitsValue xs * 10 ^ ys.length + digitsValue ys := by
  have hstart : ∀ (ys : List Char) (start : ℕ),
      ys.foldl (fun value c => 10 * value + (c.toNat - '0'.toNat)) start =
        start * 10 ^ ys.length + digitsValue ys := by
    intro ys
    induction ys with
    | nil => simp [digitsValue]
    | cons c ys ih =>
      intro start
      have hcons : digitsValue (c :: ys) =
          (10 * 0 + (c.toNat - '0'.toNat)) * 10 ^ ys.length + digitsValue ys := ih _
      rw [List.foldl_cons, ih, hcons, List.length_cons, pow_succ]
      ring
  rw [digitsValue, List.foldl_append, hstart]
  rfl

theorem digitsValue_lt (h : ∀ c ∈ ys, c.isDigit = true) : digitsValue ys < 10 ^ ys.length := by
  induction ys with
  | nil => simp [digitsValue]
  | cons c ys ih =>
    have hrest := ih fun d hd => h d (List.mem_cons_of_mem _ hd)
    have hdigit : digitsValue [c] ≤ 9 := by
      have hc := h c List.mem_cons_self
      simp only [Char.isDigit, Bool.and_eq_true, decide_eq_true_eq] at hc
      have hnat : c.toNat ≤ 57 := hc.2
      have hzero : '0'.toNat = 48 := rfl
      simp only [digitsValue, List.foldl_cons, List.foldl_nil]
      omega
    have happend : digitsValue (c :: ys) = digitsValue [c] * 10 ^ ys.length + digitsValue ys :=
      @digitsValue_append [c] ys
    rw [happend, List.length_cons, pow_succ]
    nlinarith

theorem digitsValue_replicate_zero (n : ℕ) : digitsValue (List.replicate n '0') = 0 := by
  induction n with
  | zero => rfl
  | succ n ih =>
    rw [List.replicate_succ', digitsValue_append, ih]
    rfl

end Digits

namespace ScaledDecimal

/-- The digits after the `n`th are dropped. -/
def cut (n : ℕ) (v : ScaledDecimal) : ScaledDecimal :=
  if n < v.scale then ⟨v.units.tdiv (10 ^ (v.scale - n)), n⟩ else v

variable {n m : ℕ} {v v' : ScaledDecimal}

theorem cut_of_le (h : v.scale ≤ n) : v.cut n = v := if_neg (not_lt.2 h)

theorem cut_scale_le (v : ScaledDecimal) : (v.cut n).scale ≤ n := by
  unfold cut
  split_ifs with h
  · exact le_rfl
  · exact not_lt.1 h

theorem rescale_cut (h : v.scale ≤ m) :
    (v.cut n).rescale n = (v.rescale m * 10 ^ n).tdiv (10 ^ m) := by
  have hm : m = v.scale + (m - v.scale) := by omega
  unfold cut
  split_ifs with hn
  · have hsum : m - v.scale + n + (v.scale - n) = m := by omega
    have hpow : (10 : ℤ) ^ m = 10 ^ (m - v.scale + n) * 10 ^ (v.scale - n) := by
      rw [← pow_add, hsum]
    have hleft : v.rescale m * 10 ^ n = 10 ^ (m - v.scale + n) * v.units := by
      rw [rescale, pow_add]
      ring
    rw [hleft, hpow, Int.mul_tdiv_mul_of_pos _ _ (by positivity), rescale]
    simp
  · have hscale := not_lt.1 hn
    have hsum : m - v.scale + n = (n - v.scale) + m := by omega
    have hleft : v.rescale m * 10 ^ n = v.rescale n * 10 ^ m := by
      rw [rescale, rescale, mul_assoc, mul_assoc, ← pow_add, ← pow_add, hsum]
    rw [hleft, Int.mul_tdiv_cancel _ (by positivity)]

theorem rescale_cut_mono (h : v.value ≤ v'.value) :
    (v.cut n).rescale n ≤ (v'.cut n).rescale n := by
  have hv : v.scale ≤ max v.scale v'.scale := le_max_left _ _
  have hv' : v'.scale ≤ max v.scale v'.scale := le_max_right _ _
  rw [rescale_cut hv, rescale_cut hv']
  refine Int.tdiv_le_tdiv (by positivity) (mul_le_mul_of_nonneg_right ?_ (by positivity))
  have hrat : (v.rescale (max v.scale v'.scale) : ℚ) ≤ v'.rescale (max v.scale v'.scale) := by
    rw [rescale_cast hv, rescale_cast hv']
    exact mul_le_mul_of_nonneg_right h (by positivity)
  exact_mod_cast hrat

end ScaledDecimal

theorem digitsValue_take {int frac : List Char} {n : ℕ} (hfrac : ∀ c ∈ frac, c.isDigit = true) :
    digitsValue (int ++ frac.take n) = digitsValue (int ++ frac) / 10 ^ (frac.length - n) := by
  have hsplit : digitsValue (int ++ frac) =
      digitsValue (int ++ frac.take n) * 10 ^ (frac.drop n).length + digitsValue (frac.drop n) := by
    rw [← digitsValue_append, List.append_assoc, List.take_append_drop]
  have hlt : digitsValue (frac.drop n) < 10 ^ (frac.drop n).length :=
    digitsValue_lt fun c hc => hfrac c (List.mem_of_mem_drop hc)
  rw [hsplit, ← List.length_drop, Nat.add_comm, Nat.add_mul_div_right _ _ (by positivity),
    Nat.div_eq_of_lt hlt, Nat.zero_add]

theorem digitsValue_pad {int frac : List Char} {n : ℕ} :
    digitsValue (int ++ (frac ++ List.replicate n '0')) = digitsValue (int ++ frac) * 10 ^ n := by
  rw [← List.append_assoc, digitsValue_append, digitsValue_replicate_zero, List.length_replicate,
    Nat.add_zero]

theorem isDigit_of_fraction {text : String} (h : isDecimalText text = true) :
    ∀ c ∈ ((if text.toList.head? = some '-' then text.toList.drop 1 else text.toList).dropWhile
      Char.isDigit).drop 1, c.isDigit = true := by
  unfold isDecimalText at h
  simp only [Bool.and_eq_true] at h
  obtain ⟨-, h⟩ := h
  rcases hrest : (if text.toList.head? = some '-' then text.toList.drop 1 else
    text.toList).dropWhile Char.isDigit with _ | ⟨point, fraction⟩
  · simp
  · rw [hrest] at h
    simp only [Bool.and_eq_true, List.all_eq_true] at h
    exact h.2

theorem toScaled_eq (text : String) (n : ℕ) :
    toScaled text n = (parseDecimalText text).map fun v => (v.cut n).rescale n := by
  unfold toScaled parseDecimalText
  rw [Option.bind_some]
  split_ifs with htext
  · have hfrac := isDigit_of_fraction htext
    dsimp only
    generalize (if text.toList.head? = some '-' then text.toList.drop 1 else
      text.toList).takeWhile Char.isDigit = int
    generalize ((if text.toList.head? = some '-' then text.toList.drop 1 else
      text.toList).dropWhile Char.isDigit).drop 1 = frac at hfrac ⊢
    rw [Option.map_some]
    refine congrArg some ?_
    unfold ScaledDecimal.cut
    by_cases hn : n < frac.length
    · rw [if_pos hn, if_pos hn, digitsValue_take hfrac]
      simp only [ScaledDecimal.rescale, Nat.sub_self, pow_zero, mul_one]
      split_ifs
      · rw [Int.neg_tdiv]
        push_cast
        rfl
      · push_cast
        rfl
    · rw [if_neg hn, if_neg hn, digitsValue_pad]
      simp only [ScaledDecimal.rescale]
      split_ifs
      · push_cast
        ring
      · push_cast
        ring
  · rfl

inductive OpportunityCriterion
  | eventTypes (set : List MarketEventType)
  | maxPrice (threshold : String)
  | minDropAmount (threshold : String)
  | minDropPercent (threshold : PercentNumber)
  | minAvailable (n : ℕ)
  | maxAvailable (n : ℕ)
  | minIncrease (n : ℕ)
  | stateIn (set : List String)
  | stateNotIn (set : List String)
  | availabilityIn (set : List String)
  | transitionedTo (target : String)
  | monitorTargetIds (ids : List String)
  | marketplaceItemIds (ids : List String)

def OpportunityConditions.criteria (c : OpportunityConditions) : List OpportunityCriterion :=
  (c.eventTypes.map .eventTypes).toList ++
  c.price.toList.flatMap (fun price => (price.maxPrice.map .maxPrice).toList ++
    (price.minDropAmount.map .minDropAmount).toList ++
    (price.minDropPercent.map .minDropPercent).toList) ++
  c.quantity.toList.flatMap (fun quantity => (quantity.minAvailable.map .minAvailable).toList ++
    (quantity.maxAvailable.map .maxAvailable).toList ++
    (quantity.minIncrease.map .minIncrease).toList) ++
  c.listing.toList.flatMap (fun listing => (listing.stateIn.map .stateIn).toList ++
    (listing.stateNotIn.map .stateNotIn).toList ++
    (listing.availabilityIn.map .availabilityIn).toList ++
    (listing.transitionedTo.map .transitionedTo).toList) ++
  c.scope.toList.flatMap (fun scope => (scope.monitorTargetIds.map .monitorTargetIds).toList ++
    (scope.marketplaceItemIds.map .marketplaceItemIds).toList)

namespace OpportunityCriterion

def result (context : OpportunityContext) : OpportunityCriterion → PredicateResult
  | .eventTypes set => eventTypesPredicate set context.event
  | .maxPrice t => maxPricePredicate t context.currentPrice
  | .minDropAmount t => minDropAmountPredicate t context.currentPrice context.previousPrice
  | .minDropPercent t => minDropPercentPredicate t context.currentPrice context.previousPrice
  | .minAvailable n => minAvailablePredicate n context.currentQty
  | .maxAvailable n => maxAvailablePredicate n context.currentQty
  | .minIncrease n => minIncreasePredicate n context.currentQty context.previousQty
  | .stateIn set => stateInPredicate set context.currentState
  | .stateNotIn set => stateNotInPredicate set context.currentState
  | .availabilityIn set => availabilityInPredicate set context.currentAvailability
  | .transitionedTo target =>
    transitionedToPredicate target context.currentState context.previousState
  | .monitorTargetIds ids => monitorTargetIdsPredicate ids context.event.monitorTargetId
  | .marketplaceItemIds ids => marketplaceItemIdsPredicate ids context.event.marketplaceItemId

end OpportunityCriterion

theorem evaluatePredicates_eq (conditions : OpportunityConditions) (context : OpportunityContext) :
    evaluatePredicates conditions context = conditions.criteria.map (·.result context) := by
  simp only [evaluatePredicates, OpportunityConditions.criteria, PriceConditions.predicates,
    QuantityConditions.predicates, ListingConditions.predicates, ScopeConditions.predicates,
    List.map_append, List.map_flatMap, Option.toList_map, List.map_map]
  rfl

theorem evaluateRule_matched {rule : OpportunityRuleDefinition} {context : OpportunityContext}
    {c : {c : OpportunityConditions // c.Valid}} (hc : rule.conditions = .ok c) :
    (evaluateRule rule context).matched = true ↔ isScoreWeight rule.scoreWeight = true
      ∧ ∀ k ∈ c.1.criteria, (k.result context).satisfied = true := by
  have hall : (evaluatePredicates c.1 context).filter (!·.satisfied) = [] ↔
      ∀ k ∈ c.1.criteria, (k.result context).satisfied = true := by
    rw [evaluatePredicates_eq, List.filter_eq_nil_iff, List.forall_mem_map]
    simp
  unfold evaluateRule
  rw [hc]
  dsimp only
  split_ifs with hweight hfailed
  · refine iff_of_false nofun fun h => hfailed (hall.2 h.2)
  · exact iff_of_true rfl ⟨hweight, hall.1 (not_not.1 hfailed)⟩
  · exact iff_of_false nofun fun h => hweight h.1

theorem evaluateRule_error {rule : OpportunityRuleDefinition} {context : OpportunityContext}
    {issues : List ConditionIssue} (h : rule.conditions = .error issues) :
    (evaluateRule rule context).matched = false := by
  unfold evaluateRule
  rw [h]

namespace OpportunityContext

variable (context : OpportunityContext)

def currentDecimal : Option ScaledDecimal :=
  ((context.currentObservation.bind (·.price)).bind parseDecimalText).map (·.cut PRICE_SCALE)

def previousDecimal : Option ScaledDecimal :=
  ((context.previousObservation.bind (·.price)).bind parseDecimalText).map (·.cut PRICE_SCALE)

theorem toScaled_eq_map (text : Option String) : toScaled text PRICE_SCALE =
    ((text.bind parseDecimalText).map (·.cut PRICE_SCALE)).map (·.rescale PRICE_SCALE) := by
  rcases text with _ | text
  · rfl
  · rw [toScaled_eq, Option.bind_some, Option.map_map]
    rfl

theorem currentPrice_eq :
    context.currentPrice = context.currentDecimal.map (·.rescale PRICE_SCALE) :=
  toScaled_eq_map _

theorem previousPrice_eq :
    context.previousPrice = context.previousDecimal.map (·.rescale PRICE_SCALE) :=
  toScaled_eq_map _

end OpportunityContext

namespace OpportunityCriterion

def IsPrice : OpportunityCriterion → Prop
  | .maxPrice _ | .minDropAmount _ | .minDropPercent _ => True
  | _ => False

def Compares (current previous : Option ScaledDecimal) : OpportunityCriterion → Prop
  | .maxPrice t => ∃ c ∈ current, ∃ v ∈ parseDecimalText t, c.value ≤ v.value
  | .minDropAmount t =>
    ∃ c ∈ current, ∃ p ∈ previous, ∃ v ∈ parseDecimalText t, v.value ≤ p.value - c.value
  | .minDropPercent t =>
    ∃ c ∈ current, ∃ p ∈ previous, 0 < p.value ∧ t.value ≤ 100 * (p.value - c.value) / p.value
  | _ => True

def Known (context : OpportunityContext) : OpportunityCriterion → Prop
  | .eventTypes _ | .marketplaceItemIds _ => True
  | .maxPrice _ => context.currentDecimal.isSome
  | .minDropAmount _ | .minDropPercent _ =>
    context.currentDecimal.isSome ∧ context.previousDecimal.isSome
  | .minAvailable _ | .maxAvailable _ => context.currentQty.isSome
  | .minIncrease _ => context.currentQty.isSome ∧ context.previousQty.isSome
  | .stateIn _ | .stateNotIn _ => context.currentState.isSome
  | .availabilityIn _ => context.currentAvailability.isSome
  | .transitionedTo _ => context.currentState.isSome ∧ context.previousState.isSome
  | .monitorTargetIds _ => context.event.monitorTargetId.isSome

def SixDecimals : OpportunityCriterion → Prop
  | .maxPrice t => ∀ v ∈ parseDecimalText t, v.scale ≤ 6
  | .minDropAmount t => ∀ v ∈ parseDecimalText t, v.scale ≤ 6
  | .minDropPercent t => ∃ n : ℕ, t.value = n / 1000000
  | _ => True

end OpportunityCriterion

section Exact

variable {context : OpportunityContext} {current previous : Option ScaledDecimal}

theorem rescale_le_iff {n : ℕ} {v w : ScaledDecimal} (hv : v.scale ≤ n) (hw : w.scale ≤ n) :
    v.rescale n ≤ w.rescale n ↔ v.value ≤ w.value := by
  rw [← Int.cast_le (R := ℚ), ScaledDecimal.rescale_cast hv, ScaledDecimal.rescale_cast hw]
  exact mul_le_mul_iff_left₀ (by positivity)

variable {currentPrice : Option ℤ}

variable {t : String}

theorem maxPrice_satisfied :
    (maxPricePredicate t currentPrice).satisfied = true ↔
      ∃ c ∈ currentPrice, ∃ v ∈ toScaled t PRICE_SCALE, c ≤ v := by
  unfold maxPricePredicate
  rcases currentPrice with _ | c
  · simp [predicate]
  · rcases toScaled t PRICE_SCALE with _ | v
    · simp [predicate]
    · simp [predicate]

variable {previousPrice : Option ℤ}

theorem minDropAmount_satisfied :
    (minDropAmountPredicate t currentPrice previousPrice).satisfied = true ↔
      ∃ c ∈ currentPrice, ∃ p ∈ previousPrice, ∃ v ∈ toScaled t PRICE_SCALE, v ≤ p - c := by
  unfold minDropAmountPredicate
  rcases currentPrice with _ | c
  · simp [predicate]
  · rcases previousPrice with _ | p
    · simp [predicate]
    · rcases toScaled t PRICE_SCALE with _ | v
      · simp [predicate]
      · simp [predicate]

theorem minDropPercent_satisfied {t : PercentNumber} :
    (minDropPercentPredicate t currentPrice previousPrice).satisfied = true ↔
      ∃ c ∈ currentPrice, ∃ p ∈ previousPrice,
        0 < p ∧ thresholdScaled t.value ≤ percentScaled c p := by
  unfold minDropPercentPredicate
  rcases currentPrice with _ | c
  · simp [predicate]
  · rcases previousPrice with _ | p
    · simp [predicate]
    · dsimp only
      split_ifs with hp
      · simp [predicate, hp]
      · simp [not_le.1 hp]

theorem le_tdiv_iff {a b n : ℤ} (hb : 0 < b) (hn : 0 < n) : n ≤ a.tdiv b ↔ n * b ≤ a := by
  rcases le_or_gt 0 a with ha | ha
  · rw [Int.tdiv_eq_ediv_of_nonneg ha, Int.le_ediv_iff_mul_le hb]
  · have hquot : a.tdiv b ≤ 0 := (Int.tdiv_le_tdiv hb ha.le).trans_eq (Int.zero_tdiv b)
    have hprod : 0 < n * b := mul_pos hn hb
    constructor
    · intro h
      omega
    · intro h
      omega

theorem thresholdScaled_eq (n : ℕ) : thresholdScaled ((n : ℚ) / 1000000) = n := by
  rw [thresholdScaled, div_mul_cancel₀ _ (by norm_num), Int.floor_eq_iff]
  constructor
  · push_cast
    linarith
  · push_cast
    linarith

theorem percent_exact {c p : ℤ} {n : ℕ} (hp : 0 < p) (hn : 0 < n) :
    thresholdScaled ((n : ℚ) / 1000000) ≤ percentScaled c p ↔
      (n : ℚ) / 1000000 ≤ 100 * ((p : ℚ) - c) / p := by
  have hp' : (0 : ℚ) < p := by exact_mod_cast hp
  rw [thresholdScaled_eq, percentScaled, le_tdiv_iff hp (by exact_mod_cast hn),
    div_le_div_iff₀ (by norm_num) hp', ← Int.cast_le (R := ℚ)]
  push_cast
  constructor
  · intro h
    linarith
  · intro h
    linarith

theorem exists_mem_map {α β : Type*} {o : Option α} {f : α → β} {P : β → Prop} :
    (∃ y ∈ o.map f, P y) ↔ ∃ x ∈ o, P (f x) := by
  cases o <;> simp

theorem scale_le_of_mem_cut {o : Option ScaledDecimal} {n : ℕ} :
    ∀ v ∈ o.map (·.cut n), v.scale ≤ n := by
  rcases o with _ | v
  · nofun
  · rintro w hw
    obtain rfl := Option.some.inj hw
    exact v.cut_scale_le

theorem toScaled_threshold (h : ∀ v ∈ parseDecimalText t, v.scale ≤ 6) :
    toScaled t PRICE_SCALE = (parseDecimalText t).map (·.rescale PRICE_SCALE) := by
  rw [toScaled_eq]
  rcases hparse : parseDecimalText t with _ | v
  · rfl
  · have hscale : v.scale ≤ PRICE_SCALE := (h v hparse).trans (by decide)
    rw [Option.map_some, Option.map_some, ScaledDecimal.cut_of_le hscale]

theorem rescale_le_sub_iff {n : ℕ} {v p c : ScaledDecimal} (hv : v.scale ≤ n) (hp : p.scale ≤ n)
    (hc : c.scale ≤ n) : v.rescale n ≤ p.rescale n - c.rescale n ↔ v.value ≤ p.value - c.value := by
  rw [← Int.cast_le (R := ℚ), Int.cast_sub, ScaledDecimal.rescale_cast hv,
    ScaledDecimal.rescale_cast hp, ScaledDecimal.rescale_cast hc, ← sub_mul]
  exact mul_le_mul_iff_left₀ (by positivity)

theorem rescale_pos_iff {n : ℕ} {p : ScaledDecimal} (hp : p.scale ≤ n) :
    0 < p.rescale n ↔ 0 < p.value := by
  rw [← Int.cast_pos (R := ℚ), ScaledDecimal.rescale_cast hp]
  exact mul_pos_iff_of_pos_right (by positivity)

theorem drop_rescale {n : ℕ} {p c : ScaledDecimal} (hp : p.scale ≤ n) (hc : c.scale ≤ n) :
    100 * ((p.rescale n : ℚ) - c.rescale n) / p.rescale n =
      100 * (p.value - c.value) / p.value := by
  have hpow : (10 : ℚ) ^ n ≠ 0 := by positivity
  rw [ScaledDecimal.rescale_cast hp, ScaledDecimal.rescale_cast hc, ← sub_mul, ← mul_assoc,
    mul_div_mul_right _ _ hpow]

variable {k : OpportunityCriterion}

theorem result_satisfied_iff (hprice : k.IsPrice) (hsix : k.SixDecimals)
    (hpos : ∀ t, k = .minDropPercent t → 0 < t.value) :
    (k.result context).satisfied = true ↔
      k.Compares context.currentDecimal context.previousDecimal := by
  have hcurrent : ∀ c ∈ context.currentDecimal, c.scale ≤ PRICE_SCALE := scale_le_of_mem_cut
  have hprevious : ∀ p ∈ context.previousDecimal, p.scale ≤ PRICE_SCALE := scale_le_of_mem_cut
  cases k with
  | maxPrice t =>
    rw [OpportunityCriterion.result, maxPrice_satisfied, toScaled_threshold hsix,
      context.currentPrice_eq]
    simp only [exists_mem_map]
    refine exists_congr fun c => and_congr_right fun hc => exists_congr fun v =>
      and_congr_right fun hv => ?_
    exact rescale_le_iff (hcurrent c hc) ((hsix v hv).trans (by decide))
  | minDropAmount t =>
    rw [OpportunityCriterion.result, minDropAmount_satisfied, toScaled_threshold hsix,
      context.currentPrice_eq, context.previousPrice_eq]
    simp only [exists_mem_map]
    refine exists_congr fun c => and_congr_right fun hc => exists_congr fun p =>
      and_congr_right fun hp => exists_congr fun v => and_congr_right fun hv => ?_
    exact rescale_le_sub_iff ((hsix v hv).trans (by decide)) (hprevious p hp) (hcurrent c hc)
  | minDropPercent t =>
    obtain ⟨n, hn⟩ := hsix
    have hn' : 0 < n := by
      have ht := hpos t rfl
      rw [hn] at ht
      rcases Nat.eq_zero_or_pos n with rfl | h
      · norm_num at ht
      · exact h
    rw [OpportunityCriterion.result, minDropPercent_satisfied, context.currentPrice_eq,
      context.previousPrice_eq]
    simp only [exists_mem_map, OpportunityCriterion.Compares, hn]
    refine exists_congr fun c => and_congr_right fun hc => exists_congr fun p =>
      and_congr_right fun hp => ?_
    rw [rescale_pos_iff (hprevious p hp)]
    refine and_congr_right fun hvalue => ?_
    rw [percent_exact ((rescale_pos_iff (hprevious p hp)).2 hvalue) hn',
      drop_rescale (hprevious p hp) (hcurrent c hc)]
  | _ => exact hprice.elim

end Exact

section Satisfied

variable {n : ℕ} {q q' : Option ℤ} {set : List String} {value value' : Option String}
  {label target : String}

theorem inSet_iff : inSet value set = true ↔ ∃ v ∈ value, v ∈ set := by
  cases value <;> simp [inSet]

theorem minAvailable_satisfied :
    (minAvailablePredicate n q).satisfied = true ↔ ∃ x ∈ q, (n : ℤ) ≤ x := by
  cases q <;> simp [minAvailablePredicate, predicate]

theorem maxAvailable_satisfied :
    (maxAvailablePredicate n q).satisfied = true ↔ ∃ x ∈ q, x ≤ (n : ℤ) := by
  cases q <;> simp [maxAvailablePredicate, predicate]

theorem minIncrease_satisfied :
    (minIncreasePredicate n q q').satisfied = true ↔ ∃ x ∈ q, ∃ y ∈ q', (n : ℤ) ≤ x - y := by
  cases q <;> cases q' <;> simp [minIncreasePredicate, predicate]

theorem member_satisfied :
    (memberPredicate label set value).satisfied = true ↔ ∃ v ∈ value, v ∈ set :=
  inSet_iff

theorem stateNotIn_satisfied :
    (stateNotInPredicate set value).satisfied = true ↔ ∃ v ∈ value, v ∉ set := by
  cases value <;> simp [stateNotInPredicate, predicate]

theorem transitionedTo_satisfied : (transitionedToPredicate target value value').satisfied = true ↔
    ∃ v ∈ value, ∃ w ∈ value', w ≠ target ∧ v = target := by
  cases value <;> cases value' <;> simp [transitionedToPredicate, predicate, and_comm]

theorem monitorTargetIds_satisfied :
    (monitorTargetIdsPredicate set value).satisfied = true ↔ ∃ v ∈ value, v ∈ set :=
  inSet_iff

theorem marketplaceItemIds_satisfied {v : String} :
    (marketplaceItemIdsPredicate set v).satisfied = true ↔ v ∈ set := by
  simp [marketplaceItemIdsPredicate, predicate, inSet]

end Satisfied

theorem result_unknown {context : OpportunityContext} {k : OpportunityCriterion}
    (h : ¬ k.Known context) : (k.result context).satisfied = false := by
  rw [Bool.eq_false_iff]
  intro hsatisfied
  apply h
  cases k with
  | eventTypes | marketplaceItemIds => trivial
  | maxPrice t =>
    obtain ⟨c, hc, -⟩ := maxPrice_satisfied.1 hsatisfied
    rw [context.currentPrice_eq] at hc
    exact Option.isSome_map.symm.trans (Option.isSome_of_mem hc)
  | minDropAmount t =>
    obtain ⟨c, hc, p, hp, -⟩ := minDropAmount_satisfied.1 hsatisfied
    rw [context.currentPrice_eq] at hc
    rw [context.previousPrice_eq] at hp
    exact ⟨Option.isSome_map.symm.trans (Option.isSome_of_mem hc),
      Option.isSome_map.symm.trans (Option.isSome_of_mem hp)⟩
  | minDropPercent t =>
    obtain ⟨c, hc, p, hp, -⟩ := minDropPercent_satisfied.1 hsatisfied
    rw [context.currentPrice_eq] at hc
    rw [context.previousPrice_eq] at hp
    exact ⟨Option.isSome_map.symm.trans (Option.isSome_of_mem hc),
      Option.isSome_map.symm.trans (Option.isSome_of_mem hp)⟩
  | minAvailable n =>
    obtain ⟨x, hx, -⟩ := minAvailable_satisfied.1 hsatisfied
    exact Option.isSome_of_mem hx
  | maxAvailable n =>
    obtain ⟨x, hx, -⟩ := maxAvailable_satisfied.1 hsatisfied
    exact Option.isSome_of_mem hx
  | minIncrease n =>
    obtain ⟨x, hx, y, hy, -⟩ := minIncrease_satisfied.1 hsatisfied
    exact ⟨Option.isSome_of_mem hx, Option.isSome_of_mem hy⟩
  | stateIn set =>
    obtain ⟨v, hv, -⟩ := member_satisfied.1 hsatisfied
    exact Option.isSome_of_mem hv
  | stateNotIn set =>
    obtain ⟨v, hv, -⟩ := stateNotIn_satisfied.1 hsatisfied
    exact Option.isSome_of_mem hv
  | availabilityIn set =>
    obtain ⟨v, hv, -⟩ := member_satisfied.1 hsatisfied
    exact Option.isSome_of_mem hv
  | transitionedTo target =>
    obtain ⟨v, hv, w, hw, -⟩ := transitionedTo_satisfied.1 hsatisfied
    exact ⟨Option.isSome_of_mem hv, Option.isSome_of_mem hw⟩
  | monitorTargetIds ids =>
    obtain ⟨v, hv, -⟩ := monitorTargetIds_satisfied.1 hsatisfied
    exact Option.isSome_of_mem hv

inductive OpportunityCriterion.Tightens : OpportunityCriterion → OpportunityCriterion → Prop
  | eventTypes {s s' : List MarketEventType} (h : s' ⊆ s) :
      Tightens (.eventTypes s) (.eventTypes s')
  | maxPrice {t t' : String} {v v' : ScaledDecimal} (hv : parseDecimalText t = some v)
      (hv' : parseDecimalText t' = some v') (h : v'.value ≤ v.value) :
      Tightens (.maxPrice t) (.maxPrice t')
  | minDropAmount {t t' : String} {v v' : ScaledDecimal} (hv : parseDecimalText t = some v)
      (hv' : parseDecimalText t' = some v') (h : v.value ≤ v'.value) :
      Tightens (.minDropAmount t) (.minDropAmount t')
  | minDropPercent {t t' : PercentNumber} (h : t.value ≤ t'.value) :
      Tightens (.minDropPercent t) (.minDropPercent t')
  | minAvailable {n n' : ℕ} (h : n ≤ n') : Tightens (.minAvailable n) (.minAvailable n')
  | maxAvailable {n n' : ℕ} (h : n' ≤ n) : Tightens (.maxAvailable n) (.maxAvailable n')
  | minIncrease {n n' : ℕ} (h : n ≤ n') : Tightens (.minIncrease n) (.minIncrease n')
  | stateIn {s s' : List String} (h : s' ⊆ s) : Tightens (.stateIn s) (.stateIn s')
  | stateNotIn {s s' : List String} (h : s ⊆ s') : Tightens (.stateNotIn s) (.stateNotIn s')
  | availabilityIn {s s' : List String} (h : s' ⊆ s) :
      Tightens (.availabilityIn s) (.availabilityIn s')
  | transitionedTo (target : String) : Tightens (.transitionedTo target) (.transitionedTo target)
  | monitorTargetIds {s s' : List String} (h : s' ⊆ s) :
      Tightens (.monitorTargetIds s) (.monitorTargetIds s')
  | marketplaceItemIds {s s' : List String} (h : s' ⊆ s) :
      Tightens (.marketplaceItemIds s) (.marketplaceItemIds s')

theorem thresholdScaled_mono : Monotone thresholdScaled := fun t t' h =>
  Int.floor_le_floor (by linarith)

theorem toScaled_mono {t t' : String} {v v' : ScaledDecimal} (hv : parseDecimalText t = some v)
    (hv' : parseDecimalText t' = some v') (h : v.value ≤ v'.value) :
    ∃ x x', toScaled t PRICE_SCALE = some x ∧ toScaled t' PRICE_SCALE = some x' ∧ x ≤ x' := by
  rw [toScaled_eq, toScaled_eq, hv, hv']
  exact ⟨_, _, rfl, rfl, ScaledDecimal.rescale_cut_mono h⟩

theorem OpportunityCriterion.Tightens.satisfied {k k' : OpportunityCriterion} (h : k.Tightens k')
    {context : OpportunityContext} (hk : (k'.result context).satisfied = true) :
    (k.result context).satisfied = true := by
  cases h with
  | eventTypes h =>
    simp only [OpportunityCriterion.result, eventTypesPredicate, predicate,
      List.contains_iff_mem] at hk ⊢
    exact List.map_subset _ h hk
  | maxPrice hv hv' h =>
    obtain ⟨x', x, hx', hx, hle⟩ := toScaled_mono hv' hv h
    obtain ⟨c, hc, w, hw, hcw⟩ := maxPrice_satisfied.1 hk
    obtain rfl := Option.some.inj (hx'.symm.trans hw)
    exact maxPrice_satisfied.2 ⟨c, hc, x, hx, hcw.trans hle⟩
  | minDropAmount hv hv' h =>
    obtain ⟨x, x', hx, hx', hle⟩ := toScaled_mono hv hv' h
    obtain ⟨c, hc, p, hp, w, hw, hdrop⟩ := minDropAmount_satisfied.1 hk
    obtain rfl := Option.some.inj (hx'.symm.trans hw)
    exact minDropAmount_satisfied.2 ⟨c, hc, p, hp, x, hx, hle.trans hdrop⟩
  | minDropPercent h =>
    obtain ⟨c, hc, p, hp, hpos, hdrop⟩ := minDropPercent_satisfied.1 hk
    exact minDropPercent_satisfied.2 ⟨c, hc, p, hp, hpos, (thresholdScaled_mono h).trans hdrop⟩
  | minAvailable h =>
    obtain ⟨x, hx, hle⟩ := minAvailable_satisfied.1 hk
    exact minAvailable_satisfied.2 ⟨x, hx, by omega⟩
  | maxAvailable h =>
    obtain ⟨x, hx, hle⟩ := maxAvailable_satisfied.1 hk
    exact maxAvailable_satisfied.2 ⟨x, hx, by omega⟩
  | minIncrease h =>
    obtain ⟨x, hx, y, hy, hle⟩ := minIncrease_satisfied.1 hk
    exact minIncrease_satisfied.2 ⟨x, hx, y, hy, by omega⟩
  | stateIn h =>
    obtain ⟨v, hv, hmem⟩ := member_satisfied.1 hk
    exact member_satisfied.2 ⟨v, hv, h hmem⟩
  | stateNotIn h =>
    obtain ⟨v, hv, hmem⟩ := stateNotIn_satisfied.1 hk
    exact stateNotIn_satisfied.2 ⟨v, hv, fun hs => hmem (h hs)⟩
  | availabilityIn h =>
    obtain ⟨v, hv, hmem⟩ := member_satisfied.1 hk
    exact member_satisfied.2 ⟨v, hv, h hmem⟩
  | transitionedTo => exact hk
  | monitorTargetIds h =>
    obtain ⟨v, hv, hmem⟩ := monitorTargetIds_satisfied.1 hk
    exact monitorTargetIds_satisfied.2 ⟨v, hv, h hmem⟩
  | marketplaceItemIds h =>
    exact marketplaceItemIds_satisfied.2 (h (marketplaceItemIds_satisfied.1 hk))

def OpportunityRuleDefinition.Tightens (rule rule' : OpportunityRuleDefinition) : Prop :=
  ∃ c, rule.conditions = .ok c ∧ rule'.scoreWeight = rule.scoreWeight
    ∧ ∀ c', rule'.conditions = .ok c' →
      ∀ k ∈ c.1.criteria, ∃ k' ∈ c'.1.criteria, k.Tightens k'

theorem OpportunityRuleDefinition.Tightens.matched {rule rule' : OpportunityRuleDefinition}
    (h : rule.Tightens rule') {context : OpportunityContext}
    (hmatched : (evaluateRule rule' context).matched = true) :
    (evaluateRule rule context).matched = true := by
  obtain ⟨c, hc, hweight, htight⟩ := h
  rcases hc' : rule'.conditions with issues | c'
  · rw [evaluateRule_error hc'] at hmatched
    cases hmatched
  · obtain ⟨hvalid, hall⟩ := (evaluateRule_matched hc').1 hmatched
    refine (evaluateRule_matched hc).2 ⟨hweight ▸ hvalid, fun k hk => ?_⟩
    obtain ⟨k', hk', hkk'⟩ := htight c' hc' k hk
    exact hkk'.satisfied (hall k' hk')

theorem minDropPercent_pos {c : OpportunityConditions} (hc : c.Valid) {t : PercentNumber}
    (h : .minDropPercent t ∈ c.criteria) : 0 < t.value := by
  obtain ⟨price, hprice, ht⟩ : ∃ price, c.price = some price ∧ price.minDropPercent = some t := by
    simpa [OpportunityConditions.criteria] using h
  exact ((hc.price price hprice).minDropPercent t ht).1

/-- A rule matches exactly where its criteria are satisfied, prices compared to the twelfth digit,
and no tighter rule matches where the rule does not. -/
theorem opportunity_rules_decide (context : OpportunityContext) :
    (∀ rule c, rule.conditions = .ok c → ((evaluateRule rule context).matched = true ↔
      isScoreWeight rule.scoreWeight = true
        ∧ ∀ k ∈ c.1.criteria, (k.result context).satisfied = true))
    ∧ (∀ c : {c : OpportunityConditions // c.Valid}, ∀ k ∈ c.1.criteria, k.IsPrice →
      k.SixDecimals → ((k.result context).satisfied = true ↔
        k.Compares context.currentDecimal context.previousDecimal))
    ∧ (∀ k : OpportunityCriterion, ¬ k.Known context → (k.result context).satisfied = false)
    ∧ ∀ rule rule' : OpportunityRuleDefinition, rule.Tightens rule' →
      (evaluateRule rule' context).matched = true → (evaluateRule rule context).matched = true := by
  refine ⟨fun rule c hc => evaluateRule_matched hc, fun c k hk hprice hsix => ?_,
    fun k hk => result_unknown hk, fun rule rule' h hmatched => h.matched hmatched⟩
  refine result_satisfied_iff hprice hsix fun t ht => ?_
  subst ht
  exact minDropPercent_pos c.2 hk

namespace CappedPrice

def conditions (maxPrice : String) (h : isDecimalText maxPrice = true) :
    {c : OpportunityConditions // c.Valid} where
  val := { price := some { maxPrice := some maxPrice } }
  property := {
    declares := by simp
    eventTypes := nofun
    price := by
      rintro group hgroup
      obtain rfl := Option.some.inj hgroup
      refine ⟨by simp, ?_, nofun, nofun⟩
      rintro t ht
      obtain rfl := Option.some.inj ht
      exact h
    quantity := nofun
    listing := nofun
    scope := nofun }

def rule (maxPrice : String) (h : isDecimalText maxPrice = true) : OpportunityRuleDefinition where
  conditions := .ok (conditions maxPrice h)
  scoreWeight := "1.0000"

def context (price : String) : OpportunityContext where
  event := ⟨"price_dropped", "item", none⟩
  currentObservation := some { price := some price }

end CappedPrice

open CappedPrice in
theorem capped_price_decided :
    ((OpportunityCriterion.maxPrice "10").result (context "9.5")).satisfied = true ∧
      (evaluateRule (rule "10" (by decide)) (context "9.5")).matched = true := by
  obtain ⟨-, hprice, -, htight⟩ := opportunity_rules_decide (context "9.5")
  constructor
  · have hmem : .maxPrice "10" ∈ (conditions "10" (by decide)).1.criteria := by
      simp [conditions, OpportunityConditions.criteria]
    have hsix : (OpportunityCriterion.maxPrice "10").SixDecimals := by
      intro v hv
      obtain rfl : (⟨10, 0⟩ : ScaledDecimal) = v := Option.some.inj hv
      decide
    refine (hprice _ _ hmem trivial hsix).2 ⟨⟨95, 1⟩, rfl, ⟨10, 0⟩, rfl, ?_⟩
    norm_num [ScaledDecimal.value]
  · refine htight _ (rule "9.75" (by decide)) ⟨_, rfl, rfl, ?_⟩ (by decide +kernel)
    rintro c' hc' k hk
    obtain rfl := Except.ok.inj hc'
    obtain rfl : k = .maxPrice "10" := by
      simpa [conditions, OpportunityConditions.criteria] using hk
    refine ⟨.maxPrice "9.75", by simp [conditions, OpportunityConditions.criteria], ?_⟩
    have hten : parseDecimalText "10" = some ⟨10, 0⟩ := rfl
    have hless : parseDecimalText "9.75" = some ⟨975, 2⟩ := rfl
    exact .maxPrice hten hless (by norm_num [ScaledDecimal.value])

namespace NegativePrice

/-- A price that rose from -10 to -5: by the formula a drop of half. -/
def context : OpportunityContext where
  event := ⟨"price_increased", "item", none⟩
  currentObservation := some { price := some "-5" }
  previousObservation := some { price := some "-10" }

def threshold : PercentNumber := ⟨10, "10"⟩

end NegativePrice

open CappedPrice in
theorem cut_price_matches :
    ((evaluateRule (rule "10" (by decide)) (context "10.0000000000001")).matched = true ∧
      ¬ ∃ c ∈ parseDecimalText "10.0000000000001", ∃ v ∈ parseDecimalText "10",
        c.value ≤ v.value) ∧
    ((OpportunityCriterion.minDropPercent NegativePrice.threshold).result
        NegativePrice.context).satisfied = false ∧
      ∃ c ∈ parseDecimalText "-5", ∃ p ∈ parseDecimalText "-10",
        NegativePrice.threshold.value ≤ 100 * (p.value - c.value) / p.value := by
  refine ⟨⟨by decide +kernel, ?_⟩, by decide +kernel, ⟨-5, 0⟩, rfl, ⟨-10, 0⟩, rfl, ?_⟩
  · rintro ⟨c, hc, v, hv, hle⟩
    obtain rfl : (⟨100000000000001, 13⟩ : ScaledDecimal) = c := Option.some.inj hc
    obtain rfl : (⟨10, 0⟩ : ScaledDecimal) = v := Option.some.inj hv
    norm_num [ScaledDecimal.value] at hle
  · norm_num [ScaledDecimal.value, NegativePrice.threshold]

end Loxep

import Loxep.Lib.ListSums
import Loxep.PostingEngine
import Mathlib.Algebra.BigOperators.Ring.List

/-!
# Templates without a plug

A template with no remainder line is accepted when its coefficients cancel for every value of the
independent amounts.
-/

namespace Loxep

section Symbolic

variable (value : AmountComponent → ℤ)

def evalTotals (totals : List (AmountComponent × ℤ)) : ℤ :=
  (totals.map fun entry => entry.2 * value entry.1).sum

def evalBasis (type : ReadableSourceFactType) (source : PostingAmountSource) : ℤ :=
  evalTotals value (amountBasis type source)

variable {value} {totals : List (AmountComponent × ℤ)} {component : AmountComponent} {x : ℤ}

theorem addComponent_keys (component : AmountComponent) (x : ℤ) (h : (totals.map (·.1)).Nodup) :
    ((addComponent totals component x).map (·.1)).Nodup := by
  unfold addComponent
  split_ifs with hany
  · have hkeys : (totals.map fun entry =>
        if entry.1 = component then (component, entry.2 + x) else entry).map (·.1) =
          totals.map (·.1) := by
      rw [List.map_map]
      refine List.map_congr_left fun entry _ => ?_
      simp only [Function.comp_apply]
      split_ifs with heq
      · exact heq.symm
      · rfl
    rw [hkeys]
    exact h
  · rw [List.map_append, List.nodup_append]
    refine ⟨h, List.nodup_singleton _, fun a ha b hb => ?_⟩
    rw [List.map_singleton, List.mem_singleton] at hb
    rintro rfl
    obtain ⟨entry, hentry, heq⟩ := List.mem_map.1 ha
    exact hany (List.any_eq_true.2 ⟨entry, hentry, by simp [heq, hb]⟩)

theorem evalTotals_update (h : (totals.map (·.1)).Nodup) (hmem : component ∈ totals.map (·.1)) :
    evalTotals value (totals.map fun entry =>
      if entry.1 = component then (component, entry.2 + x) else entry) =
        evalTotals value totals + x * value component := by
  induction totals with
  | nil => simp at hmem
  | cons entry totals ih =>
    rw [List.map_cons, List.nodup_cons] at h
    simp only [evalTotals, List.map_cons, List.sum_cons] at ih ⊢
    by_cases heq : entry.1 = component
    · have hrest : (totals.map fun entry =>
          if entry.1 = component then (component, entry.2 + x) else entry) = totals := by
        conv_rhs => rw [← List.map_id totals]
        refine List.map_congr_left fun other hother => ?_
        rw [if_neg]
        · rfl
        · intro hsame
          exact h.1 (List.mem_map.2 ⟨other, hother, hsame.trans heq.symm⟩)
      rw [hrest, if_pos heq, heq]
      ring
    · have hin : component ∈ totals.map (·.1) := by
        rw [List.map_cons, List.mem_cons] at hmem
        exact hmem.resolve_left fun hc => heq hc.symm
      rw [if_neg heq, ih h.2 hin]
      ring

theorem evalTotals_addComponent (h : (totals.map (·.1)).Nodup) :
    evalTotals value (addComponent totals component x) =
      evalTotals value totals + x * value component := by
  unfold addComponent
  split_ifs with hany
  · obtain ⟨entry, hentry, heq⟩ := List.any_eq_true.1 hany
    exact evalTotals_update h (List.mem_map.2 ⟨entry, hentry, beq_iff_eq.1 heq⟩)
  · simp [evalTotals]

theorem fold_parts (value : AmountComponent → ℤ) (multiplier : ℤ) :
    ∀ (parts : List (AmountComponent × ℤ)) {totals : List (AmountComponent × ℤ)},
      (totals.map (·.1)).Nodup →
      ((parts.foldl (fun totals part => addComponent totals part.1 (part.2 * multiplier))
        totals).map (·.1)).Nodup ∧
      evalTotals value (parts.foldl (fun totals part =>
        addComponent totals part.1 (part.2 * multiplier)) totals) =
          evalTotals value totals + evalTotals value parts * multiplier
  | [], totals, h => ⟨h, by simp [evalTotals]⟩
  | part :: parts, totals, h => by
    obtain ⟨hkeys, heval⟩ := fold_parts value multiplier parts
      (addComponent_keys part.1 (part.2 * multiplier) h)
    refine ⟨hkeys, ?_⟩
    rw [List.foldl_cons, heval, evalTotals_addComponent h]
    simp only [evalTotals, List.map_cons, List.sum_cons]
    ring

theorem fold_lines (value : AmountComponent → ℤ) (type : ReadableSourceFactType) :
    ∀ (lines : List PostingRuleLineRow) {totals : List (AmountComponent × ℤ)},
      (totals.map (·.1)).Nodup →
      evalTotals value (lines.foldl (fun totals line =>
        (amountBasis type line.amountSource).foldl (fun totals part =>
          addComponent totals part.1 (part.2 * line.amountMultiplier)) totals) totals) =
        evalTotals value totals +
          (lines.map fun line => evalBasis value type line.amountSource *
            line.amountMultiplier).sum
  | [], _, _ => by simp
  | line :: lines, totals, h => by
    obtain ⟨hkeys, heval⟩ := fold_parts value line.amountMultiplier
      (amountBasis type line.amountSource) h
    rw [List.foldl_cons, fold_lines value type lines hkeys, heval, List.map_cons, List.sum_cons]
    simp only [evalBasis]
    ring

theorem assertTemplateBalances_eq_ok {type : ReadableSourceFactType}
    {lines : List PostingRuleLineRow} {u : Unit} (h : assertTemplateBalances type lines = .ok u)
    (value : AmountComponent → ℤ) :
    (lines.map fun line => evalBasis value type line.amountSource * line.amountMultiplier).sum =
      0 := by
  have hzero : ∀ entry ∈ componentTotals type lines, entry.2 = 0 := by
    unfold assertTemplateBalances at h
    simp only at h
    split_ifs at h with hempty
    intro entry hentry
    have := List.filter_eq_nil_iff.1 (List.isEmpty_iff.1 hempty) entry hentry
    simpa using this
  have heval : evalTotals value (componentTotals type lines) = 0 := by
    refine List.sum_eq_zero fun y hy => ?_
    obtain ⟨entry, hentry, rfl⟩ := List.mem_map.1 hy
    rw [hzero entry hentry, zero_mul]
  have hnil : (([] : List (AmountComponent × ℤ)).map (·.1)).Nodup := List.nodup_nil
  rw [← heval, componentTotals, fold_lines value type lines hnil]
  simp [evalTotals]

end Symbolic

section Validate

variable {type : ReadableSourceFactType} {lines : List PostingRuleLineRow}

theorem validateLines_sources : ∀ {lines : List PostingRuleLineRow} {seen : List ℕ} {remainders : ℕ}
    {u : Unit}, validateLines type seen remainders lines = .ok u →
    ∀ line ∈ lines, line.amountSource ≠ .remainder →
      line.amountSource ∈ amountSourcesByFactType type
  | [], _, _, _, _, line, hline, _ => by cases hline
  | first :: lines, seen, remainders, u, h, line, hline, hne => by
    simp only [validateLines, Except.bind_eq_ok] at h
    obtain ⟨_, hfirst, hrest⟩ := h
    rcases List.mem_cons.1 hline with rfl | hline
    · simp only [validateLine, Except.bind_eq_ok, if_neg hne, Except.require_eq_ok] at hfirst
      obtain ⟨_, _, _, _, _, hsource, _⟩ := hfirst
      exact hsource
    · exact validateLines_sources hrest line hline hne

theorem validatePostingRuleTemplate_eq_ok {predicates : List SourceFactPredicate} {u : Unit}
    (h : validatePostingRuleTemplate type lines predicates = .ok u)
    (hplain : ∀ line ∈ lines, line.amountSource ≠ .remainder) :
    (∀ line ∈ lines, line.amountSource ∈ amountSourcesByFactType type) ∧
      assertTemplateBalances type lines = .ok () := by
  simp only [validatePostingRuleTemplate, Except.bind_eq_ok] at h
  obtain ⟨_, _, _, hlines, h⟩ := h
  refine ⟨fun line hline => validateLines_sources hlines line hline (hplain line hline), ?_⟩
  rwa [if_pos] at h
  rw [List.all_eq_true]
  intro line hline
  simpa using hplain line hline

end Validate

/-- What rounding to a millionth leaves of a product, half away from zero. -/
def roundingRest (scaled : ℤ) : ℤ :=
  let rest := Rounding.rest scaled.natAbs moneyUnits
  if scaled < 0 then -rest else rest

theorem multiplyDecimals_rest (value multiplier : Money) :
    moneyUnits * multiplyDecimals value multiplier + roundingRest (value * multiplier) =
      value * multiplier := by
  simp only [multiplyDecimals, roundingRest]
  generalize value * multiplier = scaled
  have hrest := Rounding.halfUp_add_rest scaled.natAbs moneyUnits
  rw [Int.natCast_natAbs] at hrest
  by_cases hneg : scaled < 0
  · rw [if_pos hneg, if_pos hneg]
    rw [abs_of_neg hneg] at hrest
    linarith
  · rw [if_neg hneg, if_neg hneg]
    rwa [abs_of_nonneg (not_lt.1 hneg)] at hrest

def SourceFact.amountOf (fact : SourceFact) (source : PostingAmountSource) : Money :=
  (fact.amounts.lookup source).getD 0

def SourceFact.totalGap (fact : SourceFact) : Money :=
  if fact.sourceFactType = .order then
    fact.amountOf .total - (fact.amountOf .subtotal + fact.amountOf .shipping +
      fact.amountOf .tax - fact.amountOf .discount)
  else 0

def assertsTotal (source : PostingAmountSource) : Bool := source == .total || source == .net

/-- How many times the template takes the provider's total, in millionths. -/
def assertedMultiplier (lines : List PostingRuleLineRow) : ℤ :=
  ((lines.filter fun line => assertsTotal line.amountSource).map (·.amountMultiplier)).sum

def RestsCancel (fact : SourceFact) (lines : List PostingRuleLineRow) : Prop :=
  (lines.map fun line =>
    roundingRest (fact.amountOf line.amountSource * line.amountMultiplier)).sum =
      fact.totalGap * assertedMultiplier lines

instance (fact : SourceFact) (lines : List PostingRuleLineRow) :
    Decidable (RestsCancel fact lines) := inferInstanceAs (Decidable (_ = _))

def SourceFact.componentValue (fact : SourceFact) : AmountComponent → Money
  | .subtotal => fact.amountOf .subtotal
  | .shipping => fact.amountOf .shipping
  | .tax => fact.amountOf .tax
  | .discount => fact.amountOf .discount
  | .fee => fact.amountOf .fee
  | .refund => fact.amountOf .refund
  | .net => fact.amountOf .net
  | .amount => fact.amountOf .total
  | .basis => fact.amountOf .costBasis

section Build

variable {fact : SourceFact} {resolved : ResolvedPostingRule} {lines : List PostingRuleLineRow}

variable {t : FactTables} {id : FactId}

variable {source : PostingAmountSource}

theorem lookup_of_read {type : ReadableSourceFactType} (h : t.readReadable type id = some fact)
    (hsource : source ∈ amountSourcesByFactType type)
    (hne : source ≠ .remainder) :
    fact.amounts.lookup source = some (fact.amountOf source) := by
  have hshape := (readReadable_shape h).1
  rw [← hshape, List.mem_append, List.mem_singleton] at hsource
  have hmem : source ∈ fact.amounts.map (·.1) := hsource.resolve_right hne
  obtain ⟨x, hx⟩ : ∃ x, fact.amounts.lookup source = some x := by
    rw [← Option.isSome_iff_exists, List.lookup_isSome_iff]
    obtain ⟨p, hp, heq⟩ := List.mem_map.1 hmem
    exact ⟨p, hp, by simp [heq]⟩
  rw [SourceFact.amountOf, hx, Option.getD_some]

theorem derived_amounts {type : ReadableSourceFactType} (h : t.readReadable type id = some fact) :
    match type with
    | .order => fact.amountOf .net = fact.amountOf .total - fact.amountOf .refund
    | .orderFee => fact.amountOf .total = fact.amountOf .fee ∧
        fact.amountOf .net = fact.amountOf .fee
    | .orderRefund => fact.amountOf .total = fact.amountOf .refund ∧
        fact.amountOf .net = fact.amountOf .refund
    | .expense => fact.amountOf .net = fact.amountOf .total - fact.amountOf .tax
    | .acquisitionCost => fact.amountOf .net = fact.amountOf .total
    | .inventoryMovement => fact.amountOf .quantityTimesBasis = fact.amountOf .costBasis ∧
        fact.amountOf .total = fact.amountOf .costBasis := by
  cases type <;> simp only [FactTables.readReadable, FactTables.readOrder,
    FactTables.readOrderFee, FactTables.readOrderRefund, FactTables.readExpense,
    FactTables.readAcquisitionCost, FactTables.readInventoryMovement, Option.bind_eq_bind,
    Option.bind_eq_some_iff, Option.pure_def, Option.some.injEq] at h
  · obtain ⟨o, -, rfl⟩ := h
    rfl
  · obtain ⟨f, -, o, -, rfl⟩ := h
    exact ⟨rfl, rfl⟩
  · obtain ⟨r, -, o, -, rfl⟩ := h
    exact ⟨rfl, rfl⟩
  · obtain ⟨e, -, rfl⟩ := h
    rfl
  · obtain ⟨c, -, a, -, rfl⟩ := h
    rfl
  · obtain ⟨m, -, i, -, rfl⟩ := h
    exact ⟨rfl, rfl⟩

theorem amountOf_eq {type : ReadableSourceFactType} (h : t.readReadable type id = some fact)
    (hsource : source ∈ amountSourcesByFactType type)
    (hne : source ≠ .remainder) :
    fact.amountOf source = evalBasis fact.componentValue type source +
      if assertsTotal source then fact.totalGap else 0 := by
  have htype := (readReadable_stamp h).1
  have hderived := derived_amounts h
  cases type <;> cases source <;> simp [amountSourcesByFactType] at hsource hne <;>
    simp +decide [evalBasis, evalTotals, amountBasis, SourceFact.componentValue,
      SourceFact.totalGap, htype] <;> simp only at hderived <;> linarith

theorem buildAmountLines_sum (resolved : ResolvedPostingRule) : ∀ {lines : List PostingRuleLineRow},
    (∀ line ∈ lines, line.amountSource ≠ .remainder ∧
      fact.amounts.lookup line.amountSource = some (fact.amountOf line.amountSource)) →
    ∃ built, buildAmountLines fact resolved lines = .ok built ∧
      (built.map (·.amount)).sum = (lines.map fun line =>
        multiplyDecimals (fact.amountOf line.amountSource) line.amountMultiplier).sum
  | [], _ => ⟨[], rfl, rfl⟩
  | line :: lines, h => by
    obtain ⟨hline, hlines⟩ := List.forall_mem_cons.1 h
    obtain ⟨rest, hrest, hsum⟩ := buildAmountLines_sum resolved hlines
    let amount := multiplyDecimals (fact.amountOf line.amountSource) line.amountMultiplier
    refine ⟨if isZeroDecimal amount then rest else instantiate fact line amount :: rest, ?_, ?_⟩
    · rw [buildAmountLines, if_neg hline.1, hline.2]
      simp only [hrest]
      rfl
    · rw [List.map_cons, List.sum_cons, ← hsum]
      by_cases hzero : isZeroDecimal amount
      · have hamount : amount = 0 := beq_iff_eq.1 hzero
        rw [if_pos hzero]
        change _ = amount + _
        rw [hamount, zero_add]
      · rw [if_neg hzero, List.map_cons, List.sum_cons]
        rfl

theorem sum_debits_credits (lines : List BuiltLine) :
    ((lines.filter (·.amount < 0)).map (·.amount)).sum +
      ((lines.filter (0 ≤ ·.amount)).map (·.amount)).sum = (lines.map (·.amount)).sum := by
  induction lines with
  | nil => rfl
  | cons line lines ih =>
    by_cases hneg : line.amount < 0
    · have hpos : ¬ 0 ≤ line.amount := not_le.2 hneg
      rw [List.filter_cons_of_pos (by simpa using hneg),
        List.filter_cons_of_neg (by simpa using hpos)]
      simp only [List.map_cons, List.sum_cons]
      rw [← ih, add_assoc]
    · have hpos : 0 ≤ line.amount := not_lt.1 hneg
      rw [List.filter_cons_of_neg (by simpa using hneg),
        List.filter_cons_of_pos (by simpa using hpos)]
      simp only [List.map_cons, List.sum_cons]
      rw [← ih, add_left_comm]

theorem splitByAllocations_sum (fact : SourceFact) (lines : List BuiltLine) :
    ((splitByAllocations fact lines).map (·.amount)).sum = (lines.map (·.amount)).sum := by
  unfold splitByAllocations
  simp only
  split_ifs
  · rfl
  · split
    · rename_i target htarget
      have hsplit := sum_debits_credits lines
      rw [htarget, List.map_singleton, List.sum_singleton] at hsplit
      have hallocated : ∀ allocations : List Allocation, (allocations.map fun allocation =>
          allocation.amount).sum = sumDecimals (allocations.map (·.amount)) :=
        fun _ => rfl
      split_ifs with _ hzero
      · rfl
      · have hrest := beq_iff_eq.1 hzero
        simp only [List.map_append, List.sum_append, List.map_map, Function.comp_def,
          List.append_nil, hallocated]
        linarith
      · simp only [List.map_append, List.sum_append, List.map_map, Function.comp_def,
          List.map_singleton, List.sum_singleton, hallocated]
        linarith
    · rfl

theorem remainderLine_eq_nil (h : ∀ line ∈ resolved.lines, line.amountSource ≠ .remainder)
    (split : List BuiltLine) : remainderLine fact resolved split = [] := by
  have hnone : resolved.lines.filter (·.amountSource == .remainder) = [] := by
    rw [List.filter_eq_nil_iff]
    intro line hline
    simpa using h line hline
  rw [remainderLine, hnone]
  rfl

theorem buildLines_sum (h : ∀ line ∈ resolved.version.lines, line.amountSource ≠ .remainder ∧
    fact.amounts.lookup line.amountSource = some (fact.amountOf line.amountSource)) :
    ∃ built, buildLines fact resolved = .ok built ∧
      (built.map (·.amount)).sum = (resolved.version.lines.map fun line =>
        multiplyDecimals (fact.amountOf line.amountSource) line.amountMultiplier).sum := by
  have hperm : resolved.lines.Perm resolved.version.lines := List.perm_insertionSort _ _
  have hlines : ∀ line ∈ resolved.lines, line.amountSource ≠ .remainder ∧
      fact.amounts.lookup line.amountSource = some (fact.amountOf line.amountSource) :=
    fun line hline => h line (hperm.mem_iff.1 hline)
  obtain ⟨amounts, hamounts, hsum⟩ := buildAmountLines_sum resolved hlines
  refine ⟨splitByAllocations fact amounts, ?_, ?_⟩
  · simp only [buildLines, Except.bind_eq_ok, Except.pure_eq_ok]
    refine ⟨amounts, hamounts, ?_⟩
    rw [remainderLine_eq_nil fun line hline => (hlines line hline).1, List.append_nil]
  · rw [splitByAllocations_sum, hsum]
    exact (hperm.map _).sum_eq

theorem sum_products {type : ReadableSourceFactType} (hread : t.readReadable type id = some fact)
    (hsources : ∀ line ∈ lines, line.amountSource ∈ amountSourcesByFactType type)
    (hplain : ∀ line ∈ lines, line.amountSource ≠ .remainder)
    (hbalances : assertTemplateBalances type lines = .ok ()) :
    (lines.map fun line => fact.amountOf line.amountSource * line.amountMultiplier).sum =
      fact.totalGap * assertedMultiplier lines := by
  have hsplit : (lines.map fun line =>
      fact.amountOf line.amountSource * line.amountMultiplier) = lines.map fun line =>
        evalBasis fact.componentValue type line.amountSource * line.amountMultiplier +
          fact.totalGap * if assertsTotal line.amountSource then line.amountMultiplier else 0 := by
    refine List.map_congr_left fun line hline => ?_
    rw [amountOf_eq hread (hsources line hline) (hplain line hline)]
    split_ifs <;> ring
  rw [hsplit, List.sum_map_add, assertTemplateBalances_eq_ok hbalances, zero_add,
    List.sum_map_mul_left, assertedMultiplier, sum_map_filter]

/-- The lines of a template accepted without a plug sum to zero exactly when what their roundings
leave over is what the total leaves unexplained. -/
theorem template_balances_iff {t : FactTables} {type : ReadableSourceFactType} {id : FactId}
    {predicates : List SourceFactPredicate}
    (hvalid : validatePostingRuleTemplate type resolved.version.lines predicates = .ok ())
    (hplain : ∀ line ∈ resolved.version.lines, line.amountSource ≠ .remainder)
    (hread : t.readReadable type id = some fact) :
    (∃ built, buildLines fact resolved = .ok built ∧ (built.map (·.amount)).sum = 0) ↔
      RestsCancel fact resolved.version.lines := by
  obtain ⟨hsources, hbalances⟩ := validatePostingRuleTemplate_eq_ok hvalid hplain
  have hproducts := sum_products hread hsources hplain hbalances
  have hlines : ∀ line ∈ resolved.version.lines, line.amountSource ≠ .remainder ∧
      fact.amounts.lookup line.amountSource = some (fact.amountOf line.amountSource) :=
    fun line hline =>
      ⟨hplain line hline, lookup_of_read hread (hsources line hline) (hplain line hline)⟩
  obtain ⟨built, hbuilt, hsum⟩ := buildLines_sum hlines
  have hround : moneyUnits * (built.map (·.amount)).sum + (resolved.version.lines.map fun line =>
      roundingRest (fact.amountOf line.amountSource * line.amountMultiplier)).sum =
        fact.totalGap * assertedMultiplier resolved.version.lines := by
    rw [← hproducts, hsum, ← List.sum_map_mul_left, ← List.sum_map_add]
    simp only [multiplyDecimals_rest]
  have hunits : (moneyUnits : ℤ) ≠ 0 := by decide
  constructor
  · rintro ⟨built', hbuilt', hzero⟩
    cases hbuilt.symm.trans hbuilt'
    rw [hzero, mul_zero, zero_add] at hround
    exact hround
  · intro hrests
    refine ⟨built, hbuilt, ?_⟩
    rw [RestsCancel] at hrests
    rw [hrests, add_eq_right] at hround
    exact (mul_eq_zero.1 hround).resolve_left hunits

theorem restsCancel_of_whole (hgap : fact.totalGap = 0)
    (hwhole : ∀ line ∈ lines, (moneyUnits : ℤ) ∣ line.amountMultiplier) :
    RestsCancel fact lines := by
  have hrest : ∀ line ∈ lines,
      roundingRest (fact.amountOf line.amountSource * line.amountMultiplier) = 0 := by
    intro line hline
    have hdvd : moneyUnits ∣ (fact.amountOf line.amountSource * line.amountMultiplier).natAbs :=
      Int.natCast_dvd.1 ((hwhole line hline).mul_left _)
    simp [roundingRest, Rounding.rest_of_dvd (by decide) hdvd]
  rw [RestsCancel, hgap, zero_mul]
  refine List.sum_eq_zero fun x hx => ?_
  obtain ⟨line, hline, rfl⟩ := List.mem_map.1 hx
  exact hrest line hline

end Build

namespace Small

def cent : FactTables := tables [expense 0 .recorded 10000 ⟨2026, 1, 15⟩]

def thirds : ResolvedPostingRule where
  rule := ⟨0, "expense", .expense, none, 100, .active, some 0⟩
  version := ⟨0, 0, 1, .active, {},
    [⟨1, some "shipping_expense", none, .total, 333333, true, none, none⟩,
      ⟨2, some "marketplace_fees", none, .total, 333333, true, none, none⟩,
      ⟨3, some "suspense", none, .total, 333334, true, none, none⟩,
      ⟨4, some "undeposited_funds", none, .total, -moneyUnits, true, none, none⟩]⟩

def whole : ResolvedPostingRule where
  rule := ⟨0, "expense", .expense, none, 100, .active, some 0⟩
  version := ⟨0, 0, 1, .active, {}, debitCredit "shipping_expense" "undeposited_funds" .total ""⟩

def summed (resolved : ResolvedPostingRule) : Option (Option Money) :=
  (cent.readReadable .expense 0).map fun fact =>
    (buildLines fact resolved).toOption.map fun built => (built.map (·.amount)).sum

end Small

theorem thirds_of_a_cent : ¬ ∀ (t : FactTables) (type : ReadableSourceFactType) (id : FactId)
    (fact : SourceFact) (resolved : ResolvedPostingRule) (predicates : List SourceFactPredicate),
    validatePostingRuleTemplate type resolved.version.lines predicates = .ok () →
    (∀ line ∈ resolved.version.lines, line.amountSource ≠ .remainder) →
    t.readReadable type id = some fact →
    ∃ built, buildLines fact resolved = .ok built ∧ (built.map (·.amount)).sum = 0 := by
  intro hall
  obtain ⟨fact, hfact⟩ : ∃ fact, Small.cent.readReadable .expense 0 = some fact := ⟨_, rfl⟩
  obtain ⟨built, hbuilt, hsum⟩ := hall Small.cent .expense 0 fact Small.thirds []
    (by decide +kernel) (by decide +kernel) hfact
  have hshort : Small.summed Small.thirds = some (some (-1)) := by decide +kernel
  rw [Small.summed, hfact, Option.map_some, hbuilt, Option.some.injEq] at hshort
  have hsame : (0 : Money) = -1 := hsum.symm.trans (Option.some.inj hshort)
  exact absurd hsame (by decide)

theorem cent_balances : ∃ fact, Small.cent.readReadable .expense 0 = some fact ∧
    ∃ built, buildLines fact Small.whole = .ok built ∧ (built.map (·.amount)).sum = 0 := by
  obtain ⟨fact, hfact⟩ : ∃ fact, Small.cent.readReadable .expense 0 = some fact := ⟨_, rfl⟩
  refine ⟨fact, hfact, ?_⟩
  have hvalid : validatePostingRuleTemplate .expense Small.whole.version.lines [] = .ok () := by
    decide +kernel
  have hplain : ∀ line ∈ Small.whole.version.lines, line.amountSource ≠ .remainder := by
    decide +kernel
  refine (template_balances_iff hvalid hplain hfact).2 ?_
  refine restsCancel_of_whole ?_ (by decide +kernel)
  cases hfact
  decide +kernel

/-!
## Templates with a plug

The plug is computed last, from whatever the rounded and split lines left, so the lines of a
template that has one sum to zero whatever its multipliers are. Nothing that is zero is written: not
a rounded line, not the unallocated rest, not the plug.
-/

variable {fact : SourceFact} {resolved : ResolvedPostingRule}

def SourceFact.Carries (fact : SourceFact) (lines : List PostingRuleLineRow) : Prop :=
  ∀ line ∈ lines, line.amountSource ≠ .remainder →
    (fact.amounts.lookup line.amountSource).isSome

instance (fact : SourceFact) (lines : List PostingRuleLineRow) :
    Decidable (fact.Carries lines) := by
  unfold SourceFact.Carries; infer_instance

theorem mem_lines (line : PostingRuleLineRow) :
    line ∈ resolved.lines ↔ line ∈ resolved.version.lines :=
  (List.perm_insertionSort _ _).mem_iff

theorem carries_lines : fact.Carries resolved.lines ↔ fact.Carries resolved.version.lines := by
  simp only [SourceFact.Carries, mem_lines]

theorem buildAmountLines_ok_iff : ∀ {lines : List PostingRuleLineRow},
    (∃ built, buildAmountLines fact resolved lines = .ok built) ↔ fact.Carries lines
  | [] => by simp [buildAmountLines, SourceFact.Carries]
  | line :: lines => by
    have ih : (∃ built, buildAmountLines fact resolved lines = .ok built) ↔ fact.Carries lines :=
      buildAmountLines_ok_iff
    simp only [SourceFact.Carries, List.forall_mem_cons] at ih ⊢
    rw [← ih, buildAmountLines]
    split_ifs with hplug
    · simp [hplug]
    · cases fact.amounts.lookup line.amountSource with
      | none => simp [hplug]
      | some source =>
        cases buildAmountLines fact resolved lines with
        | error e => simp
        | ok rest => simp

theorem buildLines_ok_iff :
    (∃ built, buildLines fact resolved = .ok built) ↔ fact.Carries resolved.version.lines := by
  have hamountLines : (∃ built, buildAmountLines fact resolved resolved.lines = .ok built) ↔
      fact.Carries resolved.lines := buildAmountLines_ok_iff
  rw [← carries_lines, ← hamountLines]
  simp only [buildLines, Except.bind_eq_ok, Except.pure_eq_ok]
  constructor
  · rintro ⟨_, amounts, hamounts, _⟩
    exact ⟨amounts, hamounts⟩
  · rintro ⟨amounts, hamounts⟩
    exact ⟨_, amounts, hamounts, rfl⟩

theorem buildAmountLines_ne_zero : ∀ {lines : List PostingRuleLineRow} {built : List BuiltLine},
    buildAmountLines fact resolved lines = .ok built → ∀ line ∈ built, line.amount ≠ 0
  | [], built, h, line, hline => by
    cases h
    simp at hline
  | first :: lines, built, h, line, hline => by
    rw [buildAmountLines] at h
    split_ifs at h
    · exact buildAmountLines_ne_zero h line hline
    · cases hsource : fact.amounts.lookup first.amountSource with
      | none => simp [hsource] at h
      | some source =>
        simp only [hsource, Except.bind_eq_ok, Except.pure_eq_ok] at h
        obtain ⟨rest, hrest, rfl⟩ := h
        split_ifs at hline with hzero
        · exact buildAmountLines_ne_zero hrest line hline
        · rcases List.mem_cons.1 hline with rfl | hline
          · simpa [isZeroDecimal, instantiate] using hzero
          · exact buildAmountLines_ne_zero hrest line hline

theorem splitByAllocations_zero {lines : List BuiltLine} {line : BuiltLine}
    (hline : line ∈ splitByAllocations fact lines) (hzero : line.amount = 0) :
    line ∈ lines ∨
      ∃ allocation ∈ fact.allocations, allocation.ledgerAccountId.isSome ∧
        allocation.amount = 0 := by
  unfold splitByAllocations at hline
  simp only at hline
  split_ifs at hline
  · exact .inl hline
  · split at hline
    · rename_i target _
      have hallocation : line ∈ (fact.allocations.filter (·.ledgerAccountId.isSome)).map
            (fun allocation => { target with
              accountSystemKey := none
              ledgerAccountId := allocation.ledgerAccountId
              amount := allocation.amount
              economicEntityId := allocation.economicEntityId.orElse fun _ =>
                target.economicEntityId
              dimensionValueId := allocation.dimensionValueId }) →
          ∃ allocation ∈ fact.allocations, allocation.ledgerAccountId.isSome ∧
            allocation.amount = 0 := by
        intro hmem
        obtain ⟨allocation, hallocation, rfl⟩ := List.mem_map.1 hmem
        obtain ⟨hin, haccount⟩ := List.mem_filter.1 hallocation
        exact ⟨allocation, hin, haccount, hzero⟩
      split_ifs at hline with _ hrest
      · exact .inl hline
      · rw [List.append_nil, List.mem_append] at hline
        rcases hline with hline | hline
        · exact .inl (List.mem_of_mem_filter hline)
        · exact .inr (hallocation hline)
      · simp only [List.mem_append, List.mem_singleton] at hline
        rcases hline with (hline | hline) | rfl
        · exact .inl (List.mem_of_mem_filter hline)
        · exact .inr (hallocation hline)
        · exact absurd (beq_iff_eq.2 hzero) hrest
    · exact .inl hline

theorem remainderLine_ne_zero {split : List BuiltLine} :
    ∀ line ∈ remainderLine fact resolved split, line.amount ≠ 0 := by
  intro line hline
  unfold remainderLine at hline
  split at hline
  · simp at hline
  · simp only at hline
    split_ifs at hline with hzero
    · simp at hline
    · rw [List.mem_singleton] at hline
      subst hline
      simpa [isZeroDecimal, instantiate] using hzero

theorem remainderLine_sum (hplug : ∃ line ∈ resolved.version.lines, line.amountSource = .remainder)
    (split : List BuiltLine) :
    ((remainderLine fact resolved split).map (·.amount)).sum = -(split.map (·.amount)).sum := by
  obtain ⟨plug, hmem, hsource⟩ := hplug
  have hne : resolved.lines.filter (·.amountSource == .remainder) ≠ [] := by
    rw [Ne, List.filter_eq_nil_iff]
    intro hnone
    exact hnone plug ((mem_lines plug).2 hmem) (by simp [hsource])
  unfold remainderLine
  rw [List.getLast?_eq_getLast_of_ne_nil hne]
  simp only
  split_ifs with hzero
  · have hnothing : negateDecimal (sumDecimals (split.map (·.amount))) = 0 := beq_iff_eq.1 hzero
    exact hnothing.symm
  · rw [List.map_singleton, List.sum_singleton]
    rfl

/-- Of every template with a plug lines are built whenever the fact has the amounts it names, and
they sum to zero. -/
theorem remainder_balances (fact : SourceFact) (resolved : ResolvedPostingRule)
    (hplug : ∃ line ∈ resolved.version.lines, line.amountSource = .remainder)
    (hallocations : ∀ allocation ∈ fact.allocations, allocation.ledgerAccountId.isSome →
      allocation.amount ≠ 0) :
    ((∃ built, buildLines fact resolved = .ok built) ↔ fact.Carries resolved.version.lines) ∧
      (∀ built, buildLines fact resolved = .ok built →
        (built.map (·.amount)).sum = 0 ∧ ∀ line ∈ built, line.amount ≠ 0) ∧
      ∀ lines, ((splitByAllocations fact lines).map (·.amount)).sum =
        (lines.map (·.amount)).sum := by
  refine ⟨buildLines_ok_iff, fun built hbuilt => ?_, splitByAllocations_sum fact⟩
  simp only [buildLines, Except.bind_eq_ok, Except.pure_eq_ok] at hbuilt
  obtain ⟨amounts, hamounts, rfl⟩ := hbuilt
  constructor
  · rw [List.map_append, List.sum_append, remainderLine_sum hplug, add_neg_cancel]
  · intro line hline hzero
    rcases List.mem_append.1 hline with hline | hline
    · rcases splitByAllocations_zero hline hzero with hline | ⟨a, ha, haccount, hamount⟩
      · exact buildAmountLines_ne_zero hamounts line hline hzero
      · exact hallocations a ha haccount hamount
    · exact remainderLine_ne_zero line hline hzero

section Examples

namespace Plugged

def spent (allocations : List Allocation) : SourceFact where
  sourceFactType := .expense
  sourceFactId := 0
  accountingDate := ⟨2026, 1, 15⟩
  economicEntityId := none
  currency := "USD"
  amounts := [(.total, moneyUnits), (.tax, 0), (.net, moneyUnits)]
  attributes := FactAttributes.none
  matchAmount := moneyUnits
  placeholders := []
  description := ""
  relatedFacts := []
  accountingBookIdOverride := none
  allocations := allocations
  ineligibleReason := none

def third : ResolvedPostingRule where
  rule := ⟨0, "expense", .expense, none, 100, .active, some 0⟩
  version := ⟨0, 0, 1, .active, {},
    [⟨1, some "shipping_expense", none, .total, 333333, true, none, none⟩,
      ⟨2, some "undeposited_funds", none, .remainder, moneyUnits, true, none, none⟩]⟩

end Plugged

theorem allocated_third_balances :
    (∃ built, buildLines (Plugged.spent [⟨some 7, 10000, none, none⟩]) Plugged.third =
      .ok built) ∧
    ∀ built, buildLines (Plugged.spent [⟨some 7, 10000, none, none⟩]) Plugged.third =
      .ok built → (built.map (·.amount)).sum = 0 ∧ ∀ line ∈ built, line.amount ≠ 0 := by
  obtain ⟨hbuilds, hbalances, _⟩ := remainder_balances
    (Plugged.spent [⟨some 7, 10000, none, none⟩]) Plugged.third (by decide) (by decide)
  exact ⟨hbuilds.2 (by decide), hbalances⟩

end Examples

end Loxep

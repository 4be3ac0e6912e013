import Mathlib.Tactic.FieldSimp
import Mathlib.Tactic.Linarith
import Mathlib.Tactic.Ring
import Loxep.RateBudget

/-!
# What a rate budget grants

A reservation lowers the balance at once and is granted when the refill has covered it, so the
balance says how far ahead of the clock the latest grant is. Every window is bounded through the
grants from its start on, which the balance bounds at each call.
-/

namespace Loxep

variable {K : Type*} [Field K] [LinearOrder K] [IsStrictOrderedRing K]
  {options : CreateRateBudgetOptions K} {budget : RateBudget K} {now later : K}
  {grants : List (BudgetGrant K)}

namespace RateBudget

theorem refill_eq (hlast : budget.lastRefillAt ≤ now) (htokens : budget.tokens ≤ options.capacity) :
    budget.refill options now =
      ⟨min options.capacity (budget.tokens + perMs options * (now - budget.lastRefillAt)),
        now⟩ := by
  unfold refill perMs
  dsimp only
  split_ifs with helapsed
  · congr 2
    ring
  · have hnow : now = budget.lastRefillAt := le_antisymm (by linarith) hlast
    subst hnow
    simp [htokens]

theorem refill_refill (hrefill : 0 < options.refillPerSecond) (hlast : budget.lastRefillAt ≤ now)
    (htokens : budget.tokens ≤ options.capacity) (hlater : now ≤ later) :
    (budget.refill options now).refill options later = budget.refill options later := by
  have hrate : 0 < perMs options := div_pos hrefill (by norm_num)
  rw [refill_eq hlast htokens, refill_eq hlater (min_le_left _ _), refill_eq (hlast.trans hlater)
    htokens, ← min_add_add_right, ← min_assoc, min_eq_left (a := options.capacity)]
  · congr 2
    ring
  · exact le_add_of_nonneg_right (mul_nonneg hrate.le (sub_nonneg.2 hlater))

theorem call_cases (hrefill : 0 < options.refillPerSecond) (call : BudgetCall K) :
    ((budget.call options now call).1.grant = none ∧
      ((budget.call options now call).2 = budget ∨
        (budget.call options now call).2 = budget.refill options now)) ∨
    ∃ grant, (budget.call options now call).1.grant = some grant ∧
      (budget.call options now call).2 = { budget.refill options now with
        tokens := (budget.refill options now).tokens - grant.cost } ∧
      0 < grant.cost ∧ grant.cost ≤ options.capacity ∧ grant.calledAt = now ∧
      (grant.cost ≤ (budget.refill options now).tokens ∧ grant.grantedAt = now ∨
        (budget.refill options now).tokens < grant.cost ∧
          perMs options * (grant.grantedAt - now) =
            grant.cost - (budget.refill options now).tokens ∧
          grant.grantedAt - now ≤ grant.maxWaitMs) := by
  cases call with
  | acquire cost maxWaitMs =>
    unfold RateBudget.call acquire assertCost
    by_cases hcost : cost ≤ 0 ∨ options.capacity < cost
    · exact .inl (by simp [hcost, BudgetAnswer.grant])
    have hc := not_or.1 hcost
    simp only [hcost, if_false]
    split_ifs with htokens hwait
    · exact .inr ⟨_, rfl, rfl, not_le.1 hc.1, not_lt.1 hc.2, rfl, .inl ⟨htokens, rfl⟩⟩
    · exact .inl ⟨rfl, .inr rfl⟩
    · refine .inr ⟨_, rfl, rfl, not_le.1 hc.1, not_lt.1 hc.2, rfl, .inr ⟨not_le.1 htokens, ?_, ?_⟩⟩
      · unfold perMs
        field_simp
        ring
      · simpa using hwait
  | tryAcquire cost =>
    unfold RateBudget.call tryAcquire assertCost
    by_cases hcost : cost ≤ 0 ∨ options.capacity < cost
    · exact .inl (by simp [hcost, BudgetAnswer.grant])
    have hc := not_or.1 hcost
    simp only [hcost, if_false]
    split_ifs with htokens
    · exact .inr ⟨_, rfl, rfl, not_le.1 hc.1, not_lt.1 hc.2, rfl, .inl ⟨htokens, rfl⟩⟩
    · exact .inl ⟨rfl, .inr rfl⟩

end RateBudget

open RateBudget

def costSince (grants : List (BudgetGrant K)) (start : K) : K :=
  ((grants.filter fun g => start ≤ g.grantedAt).map (·.cost)).sum

omit [IsStrictOrderedRing K] in
theorem costSince_append (grant : BudgetGrant K) (start : K) :
    costSince (grants ++ [grant]) start =
      costSince grants start + if start ≤ grant.grantedAt then grant.cost else 0 := by
  unfold costSince
  split_ifs with h <;> simp [h]

omit [IsStrictOrderedRing K] in
theorem costWithin_append (grant : BudgetGrant K) (start stop : K) :
    costWithin (grants ++ [grant]) start stop = costWithin grants start stop +
      if start ≤ grant.grantedAt ∧ grant.grantedAt ≤ stop then grant.cost else 0 := by
  unfold costWithin
  by_cases h : start ≤ grant.grantedAt ∧ grant.grantedAt ≤ stop
  · simp [h]
  · rw [if_neg h, List.filter_append, List.filter_cons_of_neg (by simpa using h)]
    simp

omit [IsStrictOrderedRing K] in
theorem costSince_of_lt {start : K} (h : ∀ g ∈ grants, g.grantedAt < start) :
    costSince grants start = 0 := by
  unfold costSince
  rw [List.filter_eq_nil_iff.2 fun g hg => by simpa using h g hg]
  rfl

theorem costWithin_le_costSince (hcost : ∀ g ∈ grants, 0 < g.cost) (start stop : K) :
    costWithin grants start stop ≤ costSince grants start := by
  induction grants with
  | nil => exact le_refl _
  | cons g grants ih =>
    have := ih fun g hg => hcost g (List.mem_cons_of_mem _ hg)
    have := hcost g (by simp)
    simp only [costWithin, costSince, List.filter_cons] at *
    by_cases hstart : start ≤ g.grantedAt <;> by_cases hstop : g.grantedAt ≤ stop <;>
      simp only [hstart, hstop, and_self, and_false, false_and, decide_true, decide_false,
        if_true, Bool.false_eq_true, if_false, List.map_cons, List.sum_cons] <;> linarith

/-- The later of two waits the longer, and neither beyond what its call allowed. -/
def GrantedInTurn (first second : BudgetGrant K) : Prop :=
  first.grantedAt ≤ second.grantedAt ∧
    (second.calledAt < second.grantedAt → first.grantedAt < second.grantedAt)

structure Granted (options : CreateRateBudgetOptions K) (grants : List (BudgetGrant K)) : Prop where
  within : ∀ start stop, start ≤ stop →
    costWithin grants start stop ≤ options.capacity + perMs options * (stop - start)
  turns : grants.Pairwise GrantedInTurn
  waits : ∀ g ∈ grants, g.grantedAt = g.calledAt ∨ g.grantedAt - g.calledAt ≤ g.maxWaitMs

/-- What the balance says of the grants made so far. -/
structure Covered (options : CreateRateBudgetOptions K) (grants : List (BudgetGrant K))
    (budget : RateBudget K) : Prop extends Granted options grants where
  tokens_le : budget.tokens ≤ options.capacity
  costs : ∀ g ∈ grants, 0 < g.cost
  ahead : ∀ g ∈ grants,
    perMs options * (g.grantedAt - budget.lastRefillAt) ≤ max 0 (-budget.tokens)
  since : ∀ start, (∃ g ∈ grants, start ≤ g.grantedAt) → costSince grants start ≤
    options.capacity + perMs options * (budget.lastRefillAt - start) - budget.tokens

theorem Covered.refill (hrefill : 0 < options.refillPerSecond) (h : Covered options grants budget)
    (hlast : budget.lastRefillAt ≤ now) :
    Covered options grants (budget.refill options now) := by
  have hrate : 0 < perMs options := div_pos hrefill (by norm_num)
  have hgain := mul_nonneg hrate.le (sub_nonneg.2 hlast)
  rw [refill_eq hlast h.tokens_le]
  have hmin := min_le_right options.capacity
    (budget.tokens + perMs options * (now - budget.lastRefillAt))
  refine ⟨h.toGranted, min_le_left _ _, h.costs, fun g hg => ?_, fun start hstart => ?_⟩
  · have := h.ahead g hg
    rcases le_max_iff.1 this with h0 | hneg
    · exact le_max_of_le_left (by linarith)
    · exact le_max_of_le_right (by linarith)
  · have := h.since start hstart
    linarith

theorem Covered.grant (hrefill : 0 < options.refillPerSecond) (h : Covered options grants budget)
    {grant : BudgetGrant K} (hpos : 0 < grant.cost) (hcapacity : grant.cost ≤ options.capacity)
    (hdue : grant.cost ≤ budget.tokens ∧ grant.grantedAt = budget.lastRefillAt ∨
      budget.tokens < grant.cost ∧ perMs options * (grant.grantedAt - budget.lastRefillAt) =
        grant.cost - budget.tokens ∧ grant.grantedAt - budget.lastRefillAt ≤ grant.maxWaitMs)
    (hcalled : grant.calledAt = budget.lastRefillAt) :
    Covered options (grants ++ [grant]) { budget with tokens := budget.tokens - grant.cost } := by
  have hrate : 0 < perMs options := div_pos hrefill (by norm_num)
  have htokens := h.tokens_le
  have hdebt : perMs options * (grant.grantedAt - budget.lastRefillAt) =
      max 0 (-(budget.tokens - grant.cost)) := by
    rcases hdue with ⟨hle, hat⟩ | ⟨hlt, hat, -⟩
    · rw [max_eq_left (by linarith), hat, sub_self, mul_zero]
    · rw [max_eq_right (by linarith), hat]
      ring
  have hbefore : ∀ g ∈ grants, GrantedInTurn g grant := fun g hg => by
    have := h.ahead g hg
    rcases hdue with ⟨hle, hat⟩ | ⟨hlt, hat, -⟩
    · rw [max_eq_left (by linarith)] at this
      have := nonpos_of_mul_nonpos_right this hrate
      exact ⟨by linarith, fun hwait => by linarith⟩
    · have hless : perMs options * (g.grantedAt - budget.lastRefillAt) <
          perMs options * (grant.grantedAt - budget.lastRefillAt) := by
        rw [hat]
        exact this.trans_lt (max_lt (by linarith) (by linarith))
      have := lt_of_mul_lt_mul_left hless hrate.le
      exact ⟨by linarith, fun _ => by linarith⟩
  have hsince : ∀ start, (∃ g ∈ grants ++ [grant], start ≤ g.grantedAt) →
      costSince (grants ++ [grant]) start ≤ options.capacity +
        perMs options * (budget.lastRefillAt - start) - (budget.tokens - grant.cost) := by
    intro start hstart
    rw [costSince_append]
    have hif : (if start ≤ grant.grantedAt then grant.cost else 0) ≤ grant.cost := by
      split_ifs <;> linarith
    by_cases hold : ∃ g ∈ grants, start ≤ g.grantedAt
    · have := h.since start hold
      linarith
    · push Not at hold
      -- the grant alone is from `start` on, so `start` is not after the instant it is due
      have hat : start ≤ grant.grantedAt := by
        obtain ⟨g, hg, hle⟩ := hstart
        rcases List.mem_append.1 hg with hg | hg
        · exact absurd hle (not_le.2 (hold g hg))
        · rwa [List.mem_singleton.1 hg] at hle
      have := mul_le_mul_of_nonneg_left (sub_le_sub_right hat budget.lastRefillAt) hrate.le
      rw [costSince_of_lt hold]
      have : perMs options * (start - budget.lastRefillAt) ≤
          options.capacity - budget.tokens := by
        refine this.trans (hdebt.trans_le (max_le ?_ ?_)) <;> linarith
      linarith
  have hcosts : ∀ g ∈ grants ++ [grant], 0 < g.cost := fun g hg => by
    rcases List.mem_append.1 hg with hg | hg
    · exact h.costs g hg
    · rwa [List.mem_singleton.1 hg]
  refine ⟨⟨fun start stop hle => ?_, ?_, ?_⟩, by simp only; linarith, hcosts, ?_, hsince⟩
  · by_cases hin : start ≤ grant.grantedAt ∧ grant.grantedAt ≤ stop
    · have hle := costWithin_le_costSince hcosts start stop
      have := hsince start ⟨grant, by simp, hin.1⟩
      have : perMs options * (grant.grantedAt - start) ≤ perMs options * (stop - start) :=
        mul_le_mul_of_nonneg_left (by linarith [hin.2]) hrate.le
      have := le_max_right 0 (-(budget.tokens - grant.cost))
      linarith
    · rw [costWithin_append, if_neg hin, add_zero]
      exact h.within start stop hle
  · exact List.pairwise_append.2 ⟨h.turns, List.pairwise_singleton _ _, by simpa using hbefore⟩
  · intro g hg
    rcases List.mem_append.1 hg with hg | hg
    · exact h.waits g hg
    · rw [List.mem_singleton.1 hg, hcalled]
      exact hdue.imp And.right (And.right ∘ And.right)
  · intro g hg
    rcases List.mem_append.1 hg with hg | hg
    · rw [← hdebt]
      exact mul_le_mul_of_nonneg_left (sub_le_sub_right (hbefore g hg).1 _) hrate.le
    · rw [List.mem_singleton.1 hg]
      exact hdebt.le

theorem lastRefillAt_refill (hlast : budget.lastRefillAt ≤ now)
    (htokens : budget.tokens ≤ options.capacity) :
    (budget.refill options now).lastRefillAt = now := by
  rw [refill_eq hlast htokens]

theorem Covered.call (hrefill : 0 < options.refillPerSecond) (h : Covered options grants budget)
    (hlast : budget.lastRefillAt ≤ now) (call : BudgetCall K) :
    Covered options (grants ++ (budget.call options now call).1.grant.toList)
        (budget.call options now call).2 ∧
      (budget.call options now call).2.lastRefillAt ≤ now := by
  have hnow := lastRefillAt_refill hlast h.tokens_le
  have hfilled := h.refill hrefill hlast
  rcases call_cases hrefill call with
    ⟨hnone, heq | heq⟩ | ⟨grant, hgrant, heq, hpos, hcapacity, hcalled, hdue⟩
  · rw [hnone, heq]
    exact ⟨by simpa using h, hlast⟩
  · rw [hnone, heq]
    exact ⟨by simpa using hfilled, hnow.le⟩
  · rw [hgrant, heq]
    refine ⟨hfilled.grant hrefill hpos hcapacity ?_ (by rw [hcalled, hnow]), hnow.le⟩
    rwa [hnow]

theorem Covered.answers (hrefill : 0 < options.refillPerSecond) (h : Covered options grants budget)
    (hlast : budget.lastRefillAt ≤ now) (calls : List (TimedCall K)) :
    Granted options (grants ++ grantsOf (budget.answers options now calls)) := by
  induction calls generalizing grants budget now with
  | nil => simpa [RateBudget.answers, grantsOf] using h.toGranted
  | cons timed calls ih =>
    obtain ⟨hnext, hlast⟩ := h.call hrefill
      (hlast.trans (le_add_of_nonneg_right timed.elapsed_nonneg)) timed.call
    have := ih hnext hlast
    rw [List.append_assoc] at this
    rw [RateBudget.answers]
    rcases hgrant : (budget.call options (now + timed.elapsedMs) timed.call).1.grant with _ | grant
      <;> simpa [grantsOf, hgrant] using this

theorem covered_of_created (h : createRateBudget options now = .ok budget) :
    0 < options.refillPerSecond ∧ Covered options [] budget ∧ budget.lastRefillAt ≤ now := by
  unfold createRateBudget at h
  split_ifs at h with hcapacity hrefill
  cases h
  refine ⟨not_le.1 hrefill, ⟨⟨fun start stop hle => ?_, .nil, by simp⟩, le_refl _, by simp,
    by simp, by simp⟩, le_refl _⟩
  have := mul_nonneg (div_pos (not_le.1 hrefill) (by norm_num : (0 : K) < 1000)).le
    (sub_nonneg.2 hle)
  simp only [costWithin, perMs, List.filter_nil, List.map_nil, List.sum_nil]
  linarith [not_le.1 hcapacity]

theorem call_refill (hrefill : 0 < options.refillPerSecond) (hlast : budget.lastRefillAt ≤ now)
    (htokens : budget.tokens ≤ options.capacity) (hlater : now ≤ later) (call : BudgetCall K) :
    ((budget.refill options now).call options later call).1 =
        (budget.call options later call).1 ∧
      (((budget.refill options now).call options later call).2 =
          (budget.call options later call).2 ∨
        ((budget.refill options now).call options later call).2 = budget.refill options now ∧
          (budget.call options later call).2 = budget) := by
  have hsame := refill_refill hrefill hlast htokens hlater
  cases call with
  | acquire cost maxWaitMs =>
    simp only [RateBudget.call, acquire, hsame]
    rcases assertCost options cost with error | _
    · exact ⟨rfl, .inr ⟨rfl, rfl⟩⟩
    · exact ⟨rfl, .inl rfl⟩
  | tryAcquire cost =>
    simp only [RateBudget.call, tryAcquire, hsame]
    rcases assertCost options cost with error | _
    · exact ⟨rfl, .inr ⟨rfl, rfl⟩⟩
    · exact ⟨rfl, .inl rfl⟩

theorem answers_refill (hrefill : 0 < options.refillPerSecond) (hlast : budget.lastRefillAt ≤ now)
    (htokens : budget.tokens ≤ options.capacity) (hlater : now ≤ later) (calls : List (TimedCall K))
    :
    (budget.refill options now).answers options later calls =
      budget.answers options later calls := by
  induction calls generalizing later with
  | nil => rfl
  | cons timed calls ih =>
    have hlater := hlater.trans (le_add_of_nonneg_right timed.elapsed_nonneg)
    obtain ⟨hanswer, hbudget | ⟨hbudget, hkept⟩⟩ :=
      call_refill hrefill hlast htokens hlater timed.call
    · simp only [RateBudget.answers, hanswer, hbudget]
    · simp only [RateBudget.answers, hanswer, hbudget, hkept, ih hlater]

def TimedCall.without (timed refused : TimedCall K) : TimedCall K where
  elapsedMs := refused.elapsedMs + timed.elapsedMs
  elapsed_nonneg := add_nonneg refused.elapsed_nonneg timed.elapsed_nonneg
  call := timed.call

theorem answers_without (hrefill : 0 < options.refillPerSecond) (h : Covered options grants budget)
    (hlast : budget.lastRefillAt ≤ now) {before rest : List (TimedCall K)}
    {refused next : TimedCall K} {earlier later : List (BudgetAnswer K)} {answer : BudgetAnswer K}
    (hlength : earlier.length = before.length)
    (hanswers : budget.answers options now (before ++ refused :: next :: rest) =
      earlier ++ answer :: later) (hrefused : answer.grant = none) :
    budget.answers options now (before ++ next.without refused :: rest) = earlier ++ later := by
  induction before generalizing grants budget now earlier with
  | nil =>
    rw [List.length_eq_zero_iff.1 hlength, List.nil_append, List.nil_append,
      RateBudget.answers, List.cons_eq_cons] at hanswers
    have hnow := hlast.trans (le_add_of_nonneg_right refused.elapsed_nonneg)
    rw [List.length_eq_zero_iff.1 hlength, List.nil_append, List.nil_append, ← hanswers.2]
    have hkept : (budget.call options (now + refused.elapsedMs) refused.call).2 = budget ∨
        (budget.call options (now + refused.elapsedMs) refused.call).2 =
          budget.refill options (now + refused.elapsedMs) := by
      rcases call_cases hrefill refused.call with ⟨-, hkept⟩ | ⟨grant, hgrant, -⟩
      · exact hkept
      · rw [hanswers.1, hrefused] at hgrant
        cases hgrant
    have hsame : (budget.call options (now + refused.elapsedMs) refused.call).2.answers options
        (now + refused.elapsedMs) (next :: rest) =
        budget.answers options (now + refused.elapsedMs) (next :: rest) := by
      rcases hkept with hkept | hkept <;> rw [hkept]
      exact answers_refill hrefill hnow h.tokens_le (le_refl _) _
    rw [hsame]
    simp only [RateBudget.answers, TimedCall.without, add_assoc]
  | cons timed before ih =>
    rcases earlier with _ | ⟨first, earlier⟩
    · simp at hlength
    rw [List.cons_append, List.cons_append, RateBudget.answers, List.cons_eq_cons] at hanswers
    obtain ⟨hnext, hlast⟩ := h.call hrefill
      (hlast.trans (le_add_of_nonneg_right timed.elapsed_nonneg)) timed.call
    rw [List.cons_append, List.cons_append, RateBudget.answers, hanswers.1,
      ih hnext hlast (by simpa using hlength) hanswers.2]

theorem rate_budget_bounded {start : K} (h : createRateBudget options start = .ok budget)
    (calls : List (TimedCall K)) :
    (∀ first t, 0 ≤ t →
      costWithin (grantsOf (budget.answers options start calls)) first (first + t) ≤
        options.capacity + options.refillPerSecond * (t / 1000)) ∧
    (grantsOf (budget.answers options start calls)).Pairwise GrantedInTurn ∧
    (∀ g ∈ grantsOf (budget.answers options start calls),
      g.grantedAt = g.calledAt ∨ g.grantedAt - g.calledAt ≤ g.maxWaitMs) ∧
    ∀ before refused next rest earlier answer later, calls = before ++ refused :: next :: rest →
      earlier.length = before.length →
      budget.answers options start calls = earlier ++ answer :: later → answer.grant = none →
      budget.answers options start (before ++ next.without refused :: rest) =
        earlier ++ later := by
  obtain ⟨hrefill, hcovered, hlast⟩ := covered_of_created h
  have hgranted : Granted options (grantsOf (budget.answers options start calls)) :=
    hcovered.answers hrefill hlast calls
  refine ⟨fun first t ht => ?_, hgranted.turns, hgranted.waits, ?_⟩
  · have := hgranted.within first (first + t) (by linarith)
    unfold perMs at this
    rw [add_sub_cancel_left] at this
    rwa [mul_div_assoc', ← div_mul_eq_mul_div]
  · rintro before refused next rest earlier answer later rfl hlength hanswers hrefused
    exact answers_without hrefill hcovered hlast hlength hanswers hrefused

theorem full_budget_bounded :
    costWithin (grantsOf ((⟨5, 0⟩ : RateBudget ℚ).answers ⟨5, 2, none⟩ 0
      [⟨0, le_refl 0, .acquire 4 none⟩, ⟨0, le_refl 0, .acquire 3 none⟩])) 0 (0 + 1000) ≤
      5 + 2 * (1000 / 1000) :=
  (@rate_budget_bounded ℚ _ _ _ ⟨5, 2, none⟩ ⟨5, 0⟩ 0 rfl _).1 0 1000 (by norm_num)

end Loxep

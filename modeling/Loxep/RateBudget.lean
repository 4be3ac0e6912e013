import Mathlib.Algebra.Order.Field.Basic

/-!
# The rate budget

The token bucket an eBay call is paid from, with exact tokens and an exact timer. Times are in
milliseconds.
-/

namespace Loxep

variable {K : Type*} [Field K] [LinearOrder K] [IsStrictOrderedRing K]

structure CreateRateBudgetOptions (K : Type*) where
  capacity : K
  refillPerSecond : K
  maxWaitMs : Option K

/-- The balance, which is negative while waiters have reserved ahead. -/
structure RateBudget (K : Type*) where
  tokens : K
  lastRefillAt : K

inductive BudgetError (K : Type*)
  | options (message : String)
  | cost (message : String) (cost capacity : K)

def createRateBudget (options : CreateRateBudgetOptions K) (now : K) :
    Except (BudgetError K) (RateBudget K) :=
  if options.capacity ≤ 0 then
    .error (.options "rate budget capacity must be a positive number")
  else if options.refillPerSecond ≤ 0 then
    .error (.options "rate budget refillPerSecond must be a positive number")
  else .ok ⟨options.capacity, now⟩

structure BudgetGrant (K : Type*) where
  calledAt : K
  grantedAt : K
  cost : K
  maxWaitMs : K

inductive BudgetAnswer (K : Type*)
  | granted (grant : BudgetGrant K)
  | rateLimited (requiredWaitMs maxWaitMs : K)
  | unavailable
  | invalid (error : BudgetError K)

def BudgetAnswer.grant : BudgetAnswer K → Option (BudgetGrant K)
  | .granted grant => some grant
  | _ => none

namespace RateBudget

def perMs (options : CreateRateBudgetOptions K) : K := options.refillPerSecond / 1000

variable (options : CreateRateBudgetOptions K) (budget : RateBudget K) (now : K)

def refill : RateBudget K :=
  let elapsedMs := now - budget.lastRefillAt
  if 0 < elapsedMs then
    ⟨min options.capacity (budget.tokens + elapsedMs / 1000 * options.refillPerSecond), now⟩
  else budget

def assertCost (cost : K) : Except (BudgetError K) Unit :=
  if cost ≤ 0 ∨ options.capacity < cost then
    .error (.cost "rate budget cost must be a positive number no greater than capacity"
      cost options.capacity)
  else .ok ()

def acquire (cost : K) (maxWaitMs : Option K) : BudgetAnswer K × RateBudget K :=
  match assertCost options cost with
  | .error error => (.invalid error, budget)
  | .ok () =>
    let budget := budget.refill options now
    let maxWaitMs := maxWaitMs.getD (options.maxWaitMs.getD 30000)
    if cost ≤ budget.tokens then
      (.granted ⟨now, now, cost, maxWaitMs⟩, { budget with tokens := budget.tokens - cost })
    else
      let requiredWaitMs := (cost - budget.tokens) / options.refillPerSecond * 1000
      if maxWaitMs < requiredWaitMs then (.rateLimited requiredWaitMs maxWaitMs, budget)
      else (.granted ⟨now, now + requiredWaitMs, cost, maxWaitMs⟩,
        { budget with tokens := budget.tokens - cost })

def tryAcquire (cost : K) : BudgetAnswer K × RateBudget K :=
  match assertCost options cost with
  | .error error => (.invalid error, budget)
  | .ok () =>
    let budget := budget.refill options now
    if cost ≤ budget.tokens then
      (.granted ⟨now, now, cost, 0⟩, { budget with tokens := budget.tokens - cost })
    else (.unavailable, budget)

end RateBudget

inductive BudgetCall (K : Type*)
  | acquire (cost : K) (maxWaitMs : Option K)
  | tryAcquire (cost : K)

structure TimedCall (K : Type*) [Field K] [LinearOrder K] where
  elapsedMs : K
  elapsed_nonneg : 0 ≤ elapsedMs
  call : BudgetCall K

namespace RateBudget

variable (options : CreateRateBudgetOptions K)

def call (budget : RateBudget K) (now : K) : BudgetCall K → BudgetAnswer K × RateBudget K
  | .acquire cost maxWaitMs => budget.acquire options now cost maxWaitMs
  | .tryAcquire cost => budget.tryAcquire options now cost

def answers (budget : RateBudget K) (now : K) : List (TimedCall K) → List (BudgetAnswer K)
  | [] => []
  | timed :: calls =>
    let now := now + timed.elapsedMs
    (budget.call options now timed.call).1 ::
      answers (budget.call options now timed.call).2 now calls

end RateBudget

def grantsOf (answers : List (BudgetAnswer K)) : List (BudgetGrant K) :=
  answers.filterMap BudgetAnswer.grant

def costWithin (grants : List (BudgetGrant K)) (start stop : K) : K :=
  ((grants.filter fun g => start ≤ g.grantedAt ∧ g.grantedAt ≤ stop).map (·.cost)).sum

end Loxep

import Loxep.DecimalText
import Loxep.Notifications
import Mathlib.Data.Rat.Floor

/-!
# Opportunity rules

The conditions of a rule are up to five groups of predicates over an event and the two observations
it was derived from. A rule matches when every declared predicate is satisfied, and a predicate on
what is unknown is not. Prices are compared as integers of twelve digits after the point.
-/

namespace Loxep

structure PercentNumber where
  value : ℚ
  text : String

structure PriceConditions where
  maxPrice : Option String := none
  minDropAmount : Option String := none
  minDropPercent : Option PercentNumber := none

structure QuantityConditions where
  minAvailable : Option ℕ := none
  maxAvailable : Option ℕ := none
  minIncrease : Option ℕ := none

structure ListingConditions where
  stateIn : Option (List String) := none
  stateNotIn : Option (List String) := none
  availabilityIn : Option (List String) := none
  transitionedTo : Option String := none

structure ScopeConditions where
  monitorTargetIds : Option (List String) := none
  marketplaceItemIds : Option (List String) := none

structure OpportunityConditions where
  eventTypes : Option (List MarketEventType) := none
  price : Option PriceConditions := none
  quantity : Option QuantityConditions := none
  listing : Option ListingConditions := none
  scope : Option ScopeConditions := none

/-- A declared threshold that a column could hold. -/
def IsDecimalString (text : Option String) : Prop := ∀ t ∈ text, isDecimalText t = true

/-- `nonEmptyStrings.optional()`. -/
def NonEmptyStrings (strings : Option (List String)) : Prop :=
  ∀ l ∈ strings, l ≠ [] ∧ ∀ s ∈ l, s ≠ ""

structure PriceConditions.Valid (group : PriceConditions) : Prop where
  declares : group ≠ {}
  maxPrice : IsDecimalString group.maxPrice
  minDropAmount : IsDecimalString group.minDropAmount
  minDropPercent : ∀ p ∈ group.minDropPercent, 0 < p.value ∧ p.value ≤ 100

structure QuantityConditions.Valid (group : QuantityConditions) : Prop where
  declares : group ≠ {}
  minIncrease : ∀ n ∈ group.minIncrease, 0 < n

structure ListingConditions.Valid (group : ListingConditions) : Prop where
  declares : group ≠ {}
  stateIn : NonEmptyStrings group.stateIn
  stateNotIn : NonEmptyStrings group.stateNotIn
  availabilityIn : NonEmptyStrings group.availabilityIn
  transitionedTo : ∀ s ∈ group.transitionedTo, s ≠ ""

structure ScopeConditions.Valid (group : ScopeConditions) : Prop where
  declares : group ≠ {}
  monitorTargetIds : ∀ l ∈ group.monitorTargetIds, l ≠ []
  marketplaceItemIds : ∀ l ∈ group.marketplaceItemIds, l ≠ []

/-- What `opportunityConditionsSchema` accepts. -/
structure OpportunityConditions.Valid (conditions : OpportunityConditions) : Prop where
  declares : conditions ≠ {}
  eventTypes : ∀ l ∈ conditions.eventTypes, l ≠ [] ∧ l.Nodup
  price : ∀ group ∈ conditions.price, group.Valid
  quantity : ∀ group ∈ conditions.quantity, group.Valid
  listing : ∀ group ∈ conditions.listing, group.Valid
  scope : ∀ group ∈ conditions.scope, group.Valid

structure ConditionIssue where
  path : List String
  code : String

abbrev ParsedConditions := Except (List ConditionIssue) {c : OpportunityConditions // c.Valid}

structure OpportunityRuleDefinition where
  conditions : ParsedConditions
  scoreWeight : String

structure OpportunityEventContext where
  eventType : String
  marketplaceItemId : String
  monitorTargetId : Option String := none

structure ObservationSnapshot where
  price : Option String := none
  quantityAvailable : Option ℤ := none
  availability : Option String := none
  listingState : Option String := none

structure OpportunityContext where
  event : OpportunityEventContext
  currentObservation : Option ObservationSnapshot := none
  previousObservation : Option ObservationSnapshot := none

structure OpportunityEvaluation where
  matched : Bool
  score : ℚ
  reasons : List String

def SCORE_SCALE : ℕ := 4
def SCORE_UNIT : ℤ := 10000
def PRICE_SCALE : ℕ := 12

def toScaled (value : Option String) (scale : ℕ) : Option ℤ :=
  value.bind fun value =>
    if isDecimalText value then
      let negative := value.toList.head? = some '-'
      let unsigned := if negative then value.toList.drop 1 else value.toList
      let int := unsigned.takeWhile Char.isDigit
      let frac := (unsigned.dropWhile Char.isDigit).drop 1
      let magnitude : ℤ :=
        if scale < frac.length then digitsValue (int ++ frac.take scale)
        else digitsValue (int ++ (frac ++ List.replicate (scale - frac.length) '0'))
      some (if negative then -magnitude else magnitude)
    else none

def fromScaled (value : ℤ) (scale : ℕ) : String :=
  let digits := (padZeros (scale + 1) value.natAbs).toList
  let int := digits.take (digits.length - scale)
  let frac := ((digits.drop (digits.length - scale)).reverse.dropWhile (· == '0')).reverse
  let body := if frac = [] then int else int ++ '.' :: frac
  String.ofList (if value < 0 then '-' :: body else body)

structure PredicateResult where
  label : String
  satisfied : Bool
  detail : String
  contribution : ℤ

def predicate (label : String) (satisfied : Bool) (detail : String) : PredicateResult :=
  ⟨label, satisfied, detail, SCORE_UNIT⟩

def inSet (value : Option String) (set : List String) : Bool := value.any set.contains

def joined (texts : List String) : String := ", ".intercalate texts

def eventTypesPredicate (set : List MarketEventType) (event : OpportunityEventContext) :
    PredicateResult :=
  predicate "eventTypes" ((set.map (·.text)).contains event.eventType)
    s!"{event.eventType} vs [{joined (set.map (·.text))}]"

def maxPricePredicate (maxPrice : String) (currentPrice : Option ℤ) : PredicateResult :=
  match currentPrice, toScaled maxPrice PRICE_SCALE with
  | some currentPrice, some threshold =>
    predicate "price.maxPrice" (currentPrice ≤ threshold)
      s!"{fromScaled currentPrice PRICE_SCALE} <= {maxPrice}"
  | _, _ => predicate "price.maxPrice" false "current price is unknown"

def minDropAmountPredicate (minDropAmount : String) (currentPrice previousPrice : Option ℤ) :
    PredicateResult :=
  match currentPrice, previousPrice, toScaled minDropAmount PRICE_SCALE with
  | some currentPrice, some previousPrice, some threshold =>
    predicate "price.minDropAmount" (threshold ≤ previousPrice - currentPrice)
      s!"drop {fromScaled (previousPrice - currentPrice) PRICE_SCALE} >= {minDropAmount}"
  | _, _, _ => predicate "price.minDropAmount" false "both observations must carry a price"

def percentScaled (currentPrice previousPrice : ℤ) : ℤ :=
  ((previousPrice - currentPrice) * 100 * 1000000).tdiv previousPrice

/-- `Math.round(threshold * 1_000_000)`. -/
def thresholdScaled (threshold : ℚ) : ℤ := ⌊threshold * 1000000 + 1 / 2⌋

def dropContribution (percentScaled : ℤ) : ℤ :=
  let cappedPercent := if 100000000 < percentScaled then 100000000 else percentScaled
  SCORE_UNIT + if cappedPercent < 0 then 0 else cappedPercent.tdiv 10000

def minDropPercentPredicate (threshold : PercentNumber) (currentPrice previousPrice : Option ℤ) :
    PredicateResult :=
  match currentPrice, previousPrice with
  | some currentPrice, some previousPrice =>
    if previousPrice ≤ 0 then
      predicate "price.minDropPercent" false "previous price is not positive"
    else
      let percent := percentScaled currentPrice previousPrice
      ⟨"price.minDropPercent", thresholdScaled threshold.value ≤ percent,
        s!"{fromScaled percent 6}% >= {threshold.text}%", dropContribution percent⟩
  | _, _ => predicate "price.minDropPercent" false "both observations must carry a price"

def minAvailablePredicate (minAvailable : ℕ) (currentQty : Option ℤ) : PredicateResult :=
  match currentQty with
  | some currentQty =>
    predicate "quantity.minAvailable" (minAvailable ≤ currentQty)
      s!"{currentQty} >= {minAvailable}"
  | none => predicate "quantity.minAvailable" false "current quantity is unknown"

def maxAvailablePredicate (maxAvailable : ℕ) (currentQty : Option ℤ) : PredicateResult :=
  match currentQty with
  | some currentQty =>
    predicate "quantity.maxAvailable" (currentQty ≤ maxAvailable)
      s!"{currentQty} <= {maxAvailable}"
  | none => predicate "quantity.maxAvailable" false "current quantity is unknown"

def minIncreasePredicate (minIncrease : ℕ) (currentQty previousQty : Option ℤ) : PredicateResult :=
  match currentQty, previousQty with
  | some currentQty, some previousQty =>
    predicate "quantity.minIncrease" (minIncrease ≤ currentQty - previousQty)
      s!"increase {currentQty - previousQty} >= {minIncrease}"
  | _, _ => predicate "quantity.minIncrease" false "both observations must carry a quantity"

def memberPredicate (label : String) (set : List String) (value : Option String) :
    PredicateResult :=
  let shown := value.getD "unknown"
  predicate label (inSet value set) s!"{shown} vs [{joined set}]"

def stateInPredicate := memberPredicate "listing.stateIn"
def availabilityInPredicate := memberPredicate "listing.availabilityIn"

def stateNotInPredicate (stateNotIn : List String) (currentState : Option String) :
    PredicateResult :=
  match currentState with
  | some currentState =>
    predicate "listing.stateNotIn" (!stateNotIn.contains currentState)
      s!"{currentState} not in [{joined stateNotIn}]"
  | none => predicate "listing.stateNotIn" false "current listing state is unknown"

def transitionedToPredicate (target : String) (currentState previousState : Option String) :
    PredicateResult :=
  match currentState, previousState with
  | some currentState, some previousState =>
    predicate "listing.transitionedTo" (previousState != target && currentState == target)
      s!"{previousState} -> {currentState} (target {target})"
  | _, _ => predicate "listing.transitionedTo" false "both observations must carry a listing state"

def monitorTargetIdsPredicate (ids : List String) (value : Option String) : PredicateResult :=
  let shown := value.getD "unattributed"
  predicate "scope.monitorTargetIds" (inSet value ids) s!"{shown} vs {ids.length} id(s)"

def marketplaceItemIdsPredicate (ids : List String) (value : String) : PredicateResult :=
  predicate "scope.marketplaceItemIds" (inSet (some value) ids) s!"{value} vs {ids.length} id(s)"

namespace OpportunityContext

variable (context : OpportunityContext)

def currentPrice : Option ℤ := toScaled (context.currentObservation.bind (·.price)) PRICE_SCALE
def previousPrice : Option ℤ := toScaled (context.previousObservation.bind (·.price)) PRICE_SCALE
def currentQty : Option ℤ := context.currentObservation.bind (·.quantityAvailable)
def previousQty : Option ℤ := context.previousObservation.bind (·.quantityAvailable)
def currentState : Option String := context.currentObservation.bind (·.listingState)
def previousState : Option String := context.previousObservation.bind (·.listingState)
def currentAvailability : Option String := context.currentObservation.bind (·.availability)

end OpportunityContext

def PriceConditions.predicates (price : PriceConditions) (context : OpportunityContext) :
    List PredicateResult :=
  (price.maxPrice.map (maxPricePredicate · context.currentPrice)).toList ++
  (price.minDropAmount.map
    (minDropAmountPredicate · context.currentPrice context.previousPrice)).toList ++
  (price.minDropPercent.map
    (minDropPercentPredicate · context.currentPrice context.previousPrice)).toList

def QuantityConditions.predicates (quantity : QuantityConditions) (context : OpportunityContext) :
    List PredicateResult :=
  (quantity.minAvailable.map (minAvailablePredicate · context.currentQty)).toList ++
  (quantity.maxAvailable.map (maxAvailablePredicate · context.currentQty)).toList ++
  (quantity.minIncrease.map
    (minIncreasePredicate · context.currentQty context.previousQty)).toList

def ListingConditions.predicates (listing : ListingConditions) (context : OpportunityContext) :
    List PredicateResult :=
  (listing.stateIn.map (stateInPredicate · context.currentState)).toList ++
  (listing.stateNotIn.map (stateNotInPredicate · context.currentState)).toList ++
  (listing.availabilityIn.map (availabilityInPredicate · context.currentAvailability)).toList ++
  (listing.transitionedTo.map
    (transitionedToPredicate · context.currentState context.previousState)).toList

def ScopeConditions.predicates (scope : ScopeConditions) (context : OpportunityContext) :
    List PredicateResult :=
  (scope.monitorTargetIds.map
    (monitorTargetIdsPredicate · context.event.monitorTargetId)).toList ++
  (scope.marketplaceItemIds.map
    (marketplaceItemIdsPredicate · context.event.marketplaceItemId)).toList

def evaluatePredicates (conditions : OpportunityConditions) (context : OpportunityContext) :
    List PredicateResult :=
  (conditions.eventTypes.map (eventTypesPredicate · context.event)).toList ++
  conditions.price.toList.flatMap (·.predicates context) ++
  conditions.quantity.toList.flatMap (·.predicates context) ++
  conditions.listing.toList.flatMap (·.predicates context) ++
  conditions.scope.toList.flatMap (·.predicates context)

/-- `/^\d{1,6}(\.\d{1,4})?$/`. -/
def isScoreWeight (text : String) : Bool :=
  isDecimalText text && text.toList.head? != some '-' &&
    (text.toList.takeWhile Char.isDigit).length ≤ 6 &&
    ((text.toList.dropWhile Char.isDigit).drop 1).length ≤ 4

def roundToScoreScale (productScaled : ℤ) : ℤ :=
  (productScaled + SCORE_UNIT.tdiv 2).tdiv SCORE_UNIT

def ConditionIssue.text (issue : ConditionIssue) : String :=
  let path := ".".intercalate issue.path
  let shown := if path = "" then "(root)" else path
  s!"{shown}: {issue.code}"

def PredicateResult.reason (result : PredicateResult) : String :=
  s!"{result.label}: {result.detail}"

def evaluateRule (rule : OpportunityRuleDefinition) (context : OpportunityContext) :
    OpportunityEvaluation :=
  match rule.conditions with
  | .error issues =>
    let shown := "; ".intercalate (issues.map (·.text))
    ⟨false, 0, [s!"invalid conditions: {shown}"]⟩
  | .ok conditions =>
    if isScoreWeight rule.scoreWeight then
      let results := evaluatePredicates conditions context
      let failed := results.filter (!·.satisfied)
      if failed ≠ [] then ⟨false, 0, failed.map (·.reason)⟩
      else
        let contributions := (results.map (·.contribution)).sum
        let weightScaled := (toScaled rule.scoreWeight SCORE_SCALE).getD 0
        let score := roundToScoreScale (weightScaled * contributions)
        ⟨true, (score : ℚ) / SCORE_UNIT, results.map (·.reason)⟩
    else
      let weight := rule.scoreWeight
      ⟨false, 0, ["invalid score_weight: \"" ++ weight ++ "\""]⟩

end Loxep

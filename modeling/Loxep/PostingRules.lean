import Loxep.SourceFacts

/-!
# Posting rules, their versions and their line templates

A rule selects a fact type, optionally one book, and points at its current version; a version
carries the predicates and the template. The first rule by priority and code whose active current
version matches the fact wins.
-/

namespace Loxep

abbrev RuleId := ℕ
abbrev VersionId := ℕ

inductive PostingRuleStatus
  | draft
  | active
  | disabled
  deriving DecidableEq

inductive PostingRuleVersionStatus
  | draft
  | active
  | superseded
  deriving DecidableEq

structure PostingRuleLineRow where
  lineNumber : ℕ
  accountSystemKey : Option String
  ledgerAccountId : Option AccountId
  amountSource : PostingAmountSource
  amountMultiplier : Money
  inheritEntity : Bool
  dimensionValueId : Option DimensionValueId
  descriptionTemplate : Option String
  deriving DecidableEq

structure VersionPredicates where
  effectiveFrom : Option CalendarDate := none
  effectiveTo : Option CalendarDate := none
  matchProvider : Option String := none
  matchChannel : Option String := none
  matchEconomicEntityId : Option EntityId := none
  matchFeeType : Option String := none
  matchFeeDirection : Option String := none
  matchMovementKind : Option String := none
  matchSourceKind : Option String := none
  matchExpenseCategory : Option String := none
  matchCapitalize : Option Bool := none
  matchCurrency : Option String := none
  matchMinAmount : Option Money := none
  matchMaxAmount : Option Money := none
  deriving DecidableEq

structure PostingRuleVersionRow where
  id : VersionId
  postingRuleId : RuleId
  version : ℕ
  status : PostingRuleVersionStatus
  predicates : VersionPredicates
  lines : List PostingRuleLineRow
  deriving DecidableEq

/-- What the database freezes once an entry references the version: all but its status and the
date its text stops applying. -/
def PostingRuleVersionRow.frozenText (v : PostingRuleVersionRow) : PostingRuleVersionRow :=
  { v with status := .draft, predicates := { v.predicates with effectiveTo := none } }

structure PostingRuleRow where
  id : RuleId
  code : String
  sourceFactType : ReadableSourceFactType
  accountingBookId : Option BookId
  priority : ℤ
  status : PostingRuleStatus
  currentVersionId : Option VersionId

structure RuleBase where
  rules : List PostingRuleRow
  versions : List PostingRuleVersionRow

def RuleBase.empty : RuleBase := ⟨[], []⟩

structure ResolvedPostingRule where
  rule : PostingRuleRow
  version : PostingRuleVersionRow

/-- A predicate that is set must equal the fact's attribute. -/
def agrees {α : Type} [DecidableEq α] (predicate value : Option α) : Bool :=
  predicate.isNone || decide (predicate = value)

def versionMatches (version : PostingRuleVersionRow) (fact : SourceFact) : Bool :=
  let p := version.predicates
  p.effectiveFrom.all (fun lower => decide (lower ≤ fact.accountingDate)) &&
  p.effectiveTo.all (fun upper => decide (fact.accountingDate ≤ upper)) &&
  agrees p.matchProvider fact.attributes.provider &&
  agrees p.matchChannel fact.attributes.channel &&
  agrees p.matchEconomicEntityId fact.economicEntityId &&
  agrees p.matchFeeType fact.attributes.feeType &&
  agrees p.matchFeeDirection fact.attributes.feeDirection &&
  agrees p.matchMovementKind fact.attributes.movementKind &&
  agrees p.matchSourceKind fact.attributes.sourceKind &&
  agrees p.matchExpenseCategory fact.attributes.expenseCategory &&
  agrees p.matchCapitalize fact.attributes.capitalize &&
  p.matchCurrency.all (fun currency => currency.toUpper == fact.currency.toUpper) &&
  p.matchMinAmount.all (fun least => decide (least ≤ fact.matchAmount)) &&
  p.matchMaxAmount.all (fun most => decide (fact.matchAmount ≤ most))

structure PostingRuleCandidate where
  rule : PostingRuleRow
  matched : Bool
  /-- Why there was no version to judge. -/
  reason : Option String

namespace RuleBase

variable (rb : RuleBase)

def findVersion (id : VersionId) : Option PostingRuleVersionRow :=
  rb.versions.find? (·.id == id)

def findRuleByCode (code : String) : Option PostingRuleRow := rb.rules.find? (·.code == code)

/-- `order by priority, code`. -/
def ruleOrder (a b : PostingRuleRow) : Prop :=
  a.priority < b.priority ∨ (a.priority = b.priority ∧ a.code ≤ b.code)

instance : DecidableRel ruleOrder := fun _ _ => inferInstanceAs (Decidable (_ ∨ _))

def firing (fact : SourceFact) (accountingBookId : BookId) (rule : PostingRuleRow) :
    Option ResolvedPostingRule :=
  if rule.accountingBookId.any (· != accountingBookId) then none
  else do
    let currentVersionId ← rule.currentVersionId
    let version ← rb.findVersion currentVersionId
    if version.status = .active ∧ versionMatches version fact then some ⟨rule, version⟩
    else none

/-- First match wins, by priority and then code. -/
def resolveForFact (fact : SourceFact) (accountingBookId : BookId) :
    Option ResolvedPostingRule :=
  ((rb.rules.filter fun rule =>
    rule.sourceFactType == fact.sourceFactType && rule.status == .active).insertionSort
      ruleOrder).findSome? (rb.firing fact accountingBookId)

def candidate (fact : SourceFact) (accountingBookId : BookId) (rule : PostingRuleRow) :
    PostingRuleCandidate :=
  if rule.accountingBookId.any (· != accountingBookId) then
    ⟨rule, false, some "the rule is narrowed to another book"⟩
  else match rule.currentVersionId with
  | none => ⟨rule, false, some "no active version"⟩
  | some currentVersionId =>
    match rb.findVersion currentVersionId with
    | none => ⟨rule, false, some "current version is missing"⟩
    | some version => ⟨rule, versionMatches version fact, none⟩

def candidatesForFact (fact : SourceFact) (accountingBookId : BookId) :
    List PostingRuleCandidate :=
  ((rb.rules.filter fun rule =>
    rule.sourceFactType == fact.sourceFactType && rule.status == .active).insertionSort
      ruleOrder).map (rb.candidate fact accountingBookId)

theorem resolveForFact_spec {fact : SourceFact} {accountingBookId : BookId}
    {resolved : ResolvedPostingRule} (h : rb.resolveForFact fact accountingBookId = some resolved) :
    resolved.rule ∈ rb.rules ∧ resolved.rule.sourceFactType = fact.sourceFactType ∧
      rb.findVersion resolved.version.id = some resolved.version ∧
      resolved.rule.currentVersionId = some resolved.version.id := by
  obtain ⟨rule, hmem, hfire⟩ := List.exists_of_findSome?_eq_some h
  rw [List.mem_insertionSort, List.mem_filter, Bool.and_eq_true, beq_iff_eq] at hmem
  unfold firing at hfire
  split_ifs at hfire
  simp only [Option.bind_eq_bind, Option.bind_eq_some_iff] at hfire
  obtain ⟨currentVersionId, hcur, version, hver, hfire⟩ := hfire
  split_ifs at hfire
  cases hfire
  have hid : version.id = currentVersionId := by simpa using List.find?_some hver
  exact ⟨hmem.1, hmem.2.1, hid ▸ hver, hid ▸ hcur⟩

end RuleBase

structure CreatePostingRuleInput extends VersionPredicates where
  code : String
  sourceFactType : ReadableSourceFactType
  accountingBookId : Option BookId := none
  priority : ℤ := 100
  lines : List PostingRuleLineRow
  activate : Bool := false

def predicatesUsed (p : VersionPredicates) : List SourceFactPredicate :=
  let columns : List (Bool × SourceFactPredicate) :=
    [(p.matchProvider.isSome, .provider), (p.matchChannel.isSome, .channel),
      (p.matchEconomicEntityId.isSome, .economicEntity), (p.matchFeeType.isSome, .feeType),
      (p.matchFeeDirection.isSome, .feeDirection), (p.matchMovementKind.isSome, .movementKind),
      (p.matchSourceKind.isSome, .sourceKind), (p.matchExpenseCategory.isSome, .expenseCategory),
      (p.matchCapitalize.isSome, .capitalize), (p.matchCurrency.isSome, .currency),
      (p.matchMinAmount.isSome || p.matchMaxAmount.isSome, .amount)]
  (columns.filter (·.1)).map (·.2)

inductive AmountComponent
  | subtotal
  | shipping
  | tax
  | discount
  | fee
  | refund
  | net
  | amount
  | basis
  deriving DecidableEq

def AmountComponent.text : AmountComponent → String
  | .subtotal => "subtotal"
  | .shipping => "shipping"
  | .tax => "tax"
  | .discount => "discount"
  | .fee => "fee"
  | .refund => "refund"
  | .net => "net"
  | .amount => "amount"
  | .basis => "basis"

def amountBasis : ReadableSourceFactType → PostingAmountSource → List (AmountComponent × ℤ)
  | .order, .total => [(.subtotal, 1), (.shipping, 1), (.tax, 1), (.discount, -1)]
  | .order, .subtotal => [(.subtotal, 1)]
  | .order, .shipping => [(.shipping, 1)]
  | .order, .tax => [(.tax, 1)]
  | .order, .discount => [(.discount, 1)]
  | .order, .fee => [(.fee, 1)]
  | .order, .refund => [(.refund, 1)]
  | .order, .net =>
    [(.subtotal, 1), (.shipping, 1), (.tax, 1), (.discount, -1), (.refund, -1)]
  | .orderFee, .fee | .orderFee, .total | .orderFee, .net => [(.fee, 1)]
  | .orderRefund, .refund | .orderRefund, .total | .orderRefund, .net => [(.refund, 1)]
  | .expense, .total => [(.net, 1), (.tax, 1)]
  | .expense, .tax => [(.tax, 1)]
  | .expense, .net => [(.net, 1)]
  | .acquisitionCost, .total | .acquisitionCost, .net => [(.amount, 1)]
  | .inventoryMovement, .costBasis | .inventoryMovement, .quantityTimesBasis
  | .inventoryMovement, .total => [(.basis, 1)]
  | _, _ => []

def addComponent (totals : List (AmountComponent × ℤ)) (component : AmountComponent) (value : ℤ)
    : List (AmountComponent × ℤ) :=
  if totals.any (·.1 == component) then
    totals.map fun entry => if entry.1 = component then (component, entry.2 + value) else entry
  else totals ++ [(component, value)]

def componentTotals (type : ReadableSourceFactType) (lines : List PostingRuleLineRow) :
    List (AmountComponent × ℤ) :=
  lines.foldl (fun totals line =>
    (amountBasis type line.amountSource).foldl (fun totals part =>
      addComponent totals part.1 (part.2 * line.amountMultiplier)) totals) []

def exactCoefficient (coefficient : ℤ) : String :=
  let kept := (formatDecimal coefficient).toList.reverse.dropWhile (· == '0')
  String.ofList ((if kept.head? = some '.' then kept.drop 1 else kept).reverse)

def assertTemplateBalances (type : ReadableSourceFactType) (lines : List PostingRuleLineRow) :
    Result Unit :=
  let offending := (componentTotals type lines).filter fun entry => entry.2 != 0
  if offending.isEmpty then .ok ()
  else .error (.validation ("this template cannot balance for every fact: the " ++
    ", ".intercalate (offending.map fun entry =>
      s!"{entry.1.text} (×{exactCoefficient entry.2})") ++
    " component(s) do not cancel. Add a `remainder` line — the plug that " ++
    "takes whatever value makes the entry balance — or correct the multipliers."))

/-- The `name`s in braces in a description template, in order of appearance. -/
def placeholderNames : Nat → List Char → List String
  | 0, _ => []
  | _ + 1, [] => []
  | fuel + 1, c :: cs =>
    if c = '{' then
      match cs.takeWhile isNameChar, cs.dropWhile isNameChar with
      | n :: ns, '}' :: rest => String.ofList (n :: ns) :: placeholderNames fuel rest
      | _, _ => placeholderNames fuel cs
    else placeholderNames fuel cs

def placeholdersIn (template : String) : List String :=
  placeholderNames template.toList.length template.toList

def ledgerSystemKeys : List String :=
  ["marketplace_clearing", "undeposited_funds", "inventory", "sales_tax_payable",
    "facilitator_tax_clearing", "sales_revenue", "sales_returns", "shipping_income",
    "buyer_fee_income", "cogs", "marketplace_fees", "payment_processing_fees",
    "shipping_expense", "fx_gain_loss", "opening_balance_equity", "suspense"]

def validateLine (type : ReadableSourceFactType) (seen : List ℕ) (remainders : ℕ)
    (line : PostingRuleLineRow) : Result Unit := do
  Except.require (line.lineNumber ∉ seen)
    (AccountingError.validation s!"duplicate line number {line.lineNumber} in the template")
  for placeholder in (line.descriptionTemplate.map placeholdersIn).getD [] do
    Except.require (placeholder ∈ placeholdersByFactType type)
      (AccountingError.validation (s!"\"\x7b{placeholder}\x7d\" is not a placeholder a " ++
        s!"{type.text} fact carries (line {line.lineNumber}). Available: " ++
        ", ".intercalate ((placeholdersByFactType type).map fun n => s!"\x7b{n}\x7d") ++
        ". An unknown placeholder would render as literal text on every " ++
        "line the rule ever writes."))
  if line.amountSource = .remainder then
    Except.require (remainders = 0)
      (AccountingError.validation ("a version may carry at most one `remainder` line: two " ++
        "plugs make the split between them arbitrary, and the database refuses it too"))
  else do
    Except.require (line.amountSource ∈ amountSourcesByFactType type)
      (AccountingError.validation (s!"a {type.text} fact carries no " ++
        s!"\"{line.amountSource.text}\" amount (line {line.lineNumber}). Available: " ++
        ", ".intercalate (((amountSourcesByFactType type).filter (· != .remainder)).map
          PostingAmountSource.text) ++ "."))
    let systemKey := line.accountSystemKey.getD ""
    Except.require (line.accountSystemKey.all (ledgerSystemKeys.contains ·))
      (AccountingError.validation (s!"\"{systemKey}\" is not a Loxep " ++
        s!"system key (line {line.lineNumber}). A rule resolving a handle no seeded account " ++
        "carries is a silent suspense posting, which is exactly the failure the " ++
        "design asks a test to catch rather than a balance nobody looks at."))

def validateLines (type : ReadableSourceFactType) :
    List ℕ → ℕ → List PostingRuleLineRow → Result Unit
  | _, _, [] => .ok ()
  | seen, remainders, line :: lines => do
    validateLine type seen remainders line
    validateLines type (line.lineNumber :: seen)
      (if line.amountSource = .remainder then remainders + 1 else remainders) lines

/-- Everything a version must satisfy before it is written. -/
def validatePostingRuleTemplate (type : ReadableSourceFactType) (lines : List PostingRuleLineRow)
    (predicates : List SourceFactPredicate) :
    Result Unit := do
  for predicate in predicates do
    Except.require (predicate ∈ predicatesByFactType type)
      (AccountingError.validation (s!"predicate \"{predicate.text}\" does not apply to a " ++
        s!"{type.text} fact. A predicate that cannot match is not a harmless no-op: the rule " ++
        "silently never fires. Applicable here: " ++
        ", ".intercalate ((predicatesByFactType type).map SourceFactPredicate.text) ++ "."))
  validateLines type [] 0 lines
  if lines.all (·.amountSource != .remainder) then assertTemplateBalances type lines
  else .ok ()

namespace RuleBase

def activate (rb : RuleBase) (version : PostingRuleVersionRow) : RuleBase where
  rules := rb.rules.map fun rule =>
    if rule.id = version.postingRuleId then
      { rule with currentVersionId := some version.id, status := .active }
    else rule
  versions := rb.versions.map fun v =>
    if v.id = version.id then { v with status := .active }
    else if v.postingRuleId = version.postingRuleId ∧ v.status = .active then
      { v with status := .superseded }
    else v

def createRule (rb : RuleBase) (input : CreatePostingRuleInput) : Result RuleBase := do
  validatePostingRuleTemplate input.sourceFactType input.lines
    (predicatesUsed input.toVersionPredicates)
  Except.require ((rb.findRuleByCode input.code).isNone)
    (AccountingError.database "posting_rules_code_uq")
  let version : PostingRuleVersionRow :=
    { id := rb.versions.length
      postingRuleId := rb.rules.length
      version := 1
      status := .draft
      predicates := { input.toVersionPredicates with
        matchCurrency := input.matchCurrency.map String.toUpper }
      lines := input.lines }
  let inserted : RuleBase :=
    ⟨rb.rules ++ [⟨rb.rules.length, input.code, input.sourceFactType, input.accountingBookId,
      input.priority, .draft, none⟩], rb.versions ++ [version]⟩
  return if input.activate then inserted.activate version else inserted

end RuleBase

/-!
## The shipped posting rules

The rules an installation starts from, seeded by code: a rule whose code exists is left as the
operator has it.
-/

def templateLine (lineNumber : ℕ) (accountSystemKey : String) (amountSource : PostingAmountSource)
    (amountMultiplier : Money) (descriptionTemplate : Option String) : PostingRuleLineRow where
  lineNumber := lineNumber
  accountSystemKey := some accountSystemKey
  ledgerAccountId := none
  amountSource := amountSource
  amountMultiplier := amountMultiplier
  inheritEntity := true
  dimensionValueId := none
  descriptionTemplate := descriptionTemplate

/-- The multipliers `"1"` and `"-1"` in millionths. -/
def one : Money := 1000000

def minusOne : Money := -1000000

def debitCredit (debit credit : String) (source : PostingAmountSource) (description : String) :
    List PostingRuleLineRow :=
  [templateLine 1 debit source one (some description), templateLine 2 credit source minusOne none]

def orderSale : CreatePostingRuleInput where
  code := "order_sale"
  sourceFactType := .order
  activate := true
  lines := [
    templateLine 1 "marketplace_clearing" .total one
      (some "{provider} sale {external_order_number}"),
    templateLine 2 "sales_revenue" .subtotal minusOne none,
    templateLine 3 "shipping_income" .shipping minusOne none,
    templateLine 4 "facilitator_tax_clearing" .tax minusOne none,
    templateLine 5 "sales_revenue" .discount one none,
    templateLine 9 "suspense" .remainder one none]

def orderFeeSellerCharge : CreatePostingRuleInput where
  code := "order_fee_seller_charge"
  sourceFactType := .orderFee
  activate := true
  matchFeeDirection := some "seller_charge"
  lines := debitCredit "marketplace_fees" "marketplace_clearing" .fee
    "{fee_type} fee on {external_order_number}"

def orderFeeBuyerSurcharge : CreatePostingRuleInput where
  code := "order_fee_buyer_surcharge"
  sourceFactType := .orderFee
  activate := true
  matchFeeDirection := some "buyer_surcharge"
  lines := debitCredit "suspense" "buyer_fee_income" .fee
    "{fee_type} surcharge on {external_order_number}"

def orderRefund : CreatePostingRuleInput where
  code := "order_refund"
  sourceFactType := .orderRefund
  activate := true
  lines := debitCredit "sales_returns" "marketplace_clearing" .refund
    "Refund on {external_order_number}"

def expenseRule (code : String) (priority : ℤ) (category : Option String) (debit : String) :
    CreatePostingRuleInput where
  code := code
  sourceFactType := .expense
  priority := priority
  activate := true
  matchExpenseCategory := category
  lines := debitCredit debit "opening_balance_equity" .total "{category} — {payee_name}"

def expensePostage : CreatePostingRuleInput :=
  expenseRule "expense_postage" 50 (some "postage") "shipping_expense"

def expenseShippingSupplies : CreatePostingRuleInput :=
  expenseRule "expense_shipping_supplies" 50 (some "shipping_supplies") "shipping_expense"

def expenseMarketplaceSubscription : CreatePostingRuleInput :=
  expenseRule "expense_marketplace_subscription" 50 (some "marketplace_subscription")
    "marketplace_fees"

def expenseBankFees : CreatePostingRuleInput :=
  expenseRule "expense_bank_fees" 50 (some "bank_fees") "payment_processing_fees"

def expenseUncategorized : CreatePostingRuleInput :=
  expenseRule "expense_uncategorized" 900 none "suspense"

def acquisitionCostCapitalized : CreatePostingRuleInput where
  code := "acquisition_cost_capitalized"
  sourceFactType := .acquisitionCost
  activate := true
  matchCapitalize := some true
  lines := debitCredit "inventory" "opening_balance_equity" .total
    "{cost_type} on {reference_code}"

def acquisitionCostExpensed : CreatePostingRuleInput where
  code := "acquisition_cost_expensed"
  sourceFactType := .acquisitionCost
  activate := true
  matchCapitalize := some false
  lines := debitCredit "suspense" "opening_balance_equity" .total
    "{cost_type} on {reference_code}"

def cogsOnDepletion : CreatePostingRuleInput where
  code := "cogs_on_depletion"
  sourceFactType := .inventoryMovement
  activate := true
  matchMovementKind := some "depletion_sale"
  lines := debitCredit "cogs" "inventory" .quantityTimesBasis "Cost of goods sold — {item_code}"

def cogsDepletionReversed : CreatePostingRuleInput where
  code := "cogs_depletion_reversed"
  sourceFactType := .inventoryMovement
  activate := true
  matchMovementKind := some "reversal"
  lines := debitCredit "inventory" "cogs" .quantityTimesBasis "Reversed depletion — {item_code}"

def defaultPostingRules : List CreatePostingRuleInput :=
  [orderSale, orderFeeSellerCharge, orderFeeBuyerSurcharge, orderRefund, expensePostage,
    expenseShippingSupplies, expenseMarketplaceSubscription, expenseBankFees,
    expenseUncategorized, acquisitionCostCapitalized, acquisitionCostExpensed, cogsOnDepletion,
    cogsDepletionReversed]

def seedRule (rb : RuleBase) (template : CreatePostingRuleInput) : Result RuleBase :=
  match rb.findRuleByCode template.code with
  | some _ => .ok rb
  | none => rb.createRule template

def seedDefaultRules (rb : RuleBase) : Result RuleBase :=
  defaultPostingRules.foldlM seedRule rb

theorem defaultPostingRules_valid : ∀ template ∈ defaultPostingRules,
    validatePostingRuleTemplate template.sourceFactType template.lines
      (predicatesUsed template.toVersionPredicates) = .ok () := by
  decide +kernel

end Loxep

import Loxep.Lib.Runs
import Loxep.PostingRules

/-!
# Concurrent posting rule transactions

`addVersion`, `activateVersion` and `setRuleStatus` judge what they load and only then write, in a
transaction under READ COMMITTED. An activation retires the versions that are active when its first
update starts, waiting for the rows it finds, then raises its own version, and points the rule at
it.
-/

namespace Loxep

structure AddVersionInput extends VersionPredicates where
  postingRuleId : RuleId
  lines : List PostingRuleLineRow
  activate : Bool := false

/-- The version to activate: one that was loaded, or one this transaction has inserted, which
nobody else sees before the commit. -/
inductive ActivationTarget
  | stored (version : PostingRuleVersionRow)
  | inserted (version : PostingRuleVersionRow)

def ActivationTarget.version : ActivationTarget → PostingRuleVersionRow
  | .stored version => version
  | .inserted version => version

/-- `posting_rule_id = … and id <> … and status = 'active'`. -/
def ActivationTarget.retires (target : ActivationTarget) (v : PostingRuleVersionRow) : Bool :=
  v.postingRuleId == target.version.postingRuleId && v.status == .active &&
    match target with
    | .stored version => v.id != version.id
    | .inserted _ => true

inductive RuleCall
  | createRule (input : CreatePostingRuleInput)
  | addVersion (input : AddVersionInput)
  | activateVersion (id : VersionId)
  | setRuleStatus (id : RuleId) (status : PostingRuleStatus)

/-- How far a call has come, with what it has read so far. -/
inductive RuleStage
  | idle
  | requested (call : RuleCall)
  /-- `addVersion`, the rule loaded and the template validated. -/
  | versioning (rule : PostingRuleRow) (input : AddVersionInput)
  /-- The next number taken from the highest one that was committed. -/
  | numbered (version : PostingRuleVersionRow) (activate : Bool)
  /-- `activate`, nothing written yet. -/
  | activating (target : ActivationTarget)
  /-- The first update: rows it found and has not locked, and rows it has retired. -/
  | retiring (target : ActivationTarget) (waiting retired : List VersionId)
  | raising (target : ActivationTarget) (retired : List VersionId)
  | pointing (target : ActivationTarget) (retired : List VersionId)
  /-- `setRuleStatus`, the rule loaded and judged. -/
  | settingStatus (rule : PostingRuleRow) (status : PostingRuleStatus)
  | finished

/-- What the next statement of a call comes to. -/
inductive RuleOutcome
  | goTo (stage : RuleStage)
  /-- The row of a version is locked before the stage is reached. -/
  | lock (row : VersionId) (stage : RuleStage)
  | commit (rb : RuleBase)
  /-- Returned or raised, nothing written. -/
  | finish

namespace RuleOutcome

def ofRead : Result RuleStage → RuleOutcome
  | .ok stage => .goTo stage
  | .error _ => .finish

def ofWrite : Result RuleBase → RuleOutcome
  | .ok rb => .commit rb
  | .error _ => .finish

end RuleOutcome

def checkVersionRow (version : PostingRuleVersionRow) : Result Unit := do
  let p := version.predicates
  Except.require (∀ upper ∈ p.effectiveTo, ∀ lower ∈ p.effectiveFrom, lower ≤ upper)
    (AccountingError.database "posting_rule_versions_effective_range_check")
  Except.require (∀ most ∈ p.matchMaxAmount, ∀ least ∈ p.matchMinAmount, least ≤ most)
    (AccountingError.database "posting_rule_versions_amount_range_check")
  Except.require (∀ line ∈ version.lines,
    line.accountSystemKey.isSome ≠ line.ledgerAccountId.isSome)
    (AccountingError.database "posting_rule_lines_account_check")
  Except.require (∀ line ∈ version.lines, line.amountMultiplier ≠ 0)
    (AccountingError.database "posting_rule_lines_multiplier_check")

namespace RuleBase

variable (rb : RuleBase)

def loadRule (id : RuleId) : Result PostingRuleRow :=
  match rb.rules.find? (·.id == id) with
  | none => .error (.notFound s!"unknown posting rule \"{id}\"")
  | some rule => .ok rule

def loadActivatable (id : VersionId) : Result PostingRuleVersionRow := do
  match rb.findVersion id with
  | none => .error (.notFound s!"unknown posting rule version \"{id}\"")
  | some version =>
    Except.require (version.status ≠ .superseded)
      (AccountingError.immutable (s!"version {version.version} is superseded and may not be " ++
        "reactivated: the honest expression of 'go back to the old rule' is a new version " ++
        "carrying the old text, which keeps the history of what was believed when"))
    return version

def nextVersionNumber (rule : RuleId) : ℕ :=
  ((rb.versions.filter (·.postingRuleId == rule)).map (·.version)).foldr max 0 + 1

def versionRow (rule : PostingRuleRow) (input : AddVersionInput) : PostingRuleVersionRow where
  id := rb.versions.length
  postingRuleId := rule.id
  version := rb.nextVersionNumber rule.id
  status := .draft
  predicates := { input.toVersionPredicates with
    matchCurrency := input.matchCurrency.map String.toUpper }
  lines := input.lines

def insertVersion (version : PostingRuleVersionRow) :
    Result (PostingRuleVersionRow × RuleBase) := do
  Except.require (∀ v ∈ rb.versions,
    (v.postingRuleId, v.version) ≠ (version.postingRuleId, version.version))
    (AccountingError.database "posting_rule_versions_rule_version_uq")
  let version := { version with id := rb.versions.length }
  return (version, { rb with versions := rb.versions ++ [version] })

def activateOver (version : PostingRuleVersionRow) (retired : List VersionId) : RuleBase where
  rules := rb.rules.map fun rule =>
    if rule.id = version.postingRuleId then
      { rule with currentVersionId := some version.id, status := .active }
    else rule
  versions := rb.versions.map fun v =>
    if v.id = version.id then { v with status := .active }
    else if v.id ∈ retired then { v with status := .superseded }
    else v

def commitActivation (retired : List VersionId) : ActivationTarget → Result RuleBase
  | .stored version => .ok (rb.activateOver version retired)
  | .inserted version => (rb.insertVersion version).map fun r => r.2.activateOver r.1 retired

def setStatus (id : RuleId) (status : PostingRuleStatus) : RuleBase :=
  { rb with rules := rb.rules.map fun rule =>
      if rule.id = id then { rule with status := status } else rule }

def isActive (id : VersionId) : Bool := (rb.findVersion id).any (·.status == .active)

end RuleBase

section Proceed

variable (rb : RuleBase)

def loadVersioning (input : AddVersionInput) : Result RuleStage := do
  let rule ← rb.loadRule input.postingRuleId
  validatePostingRuleTemplate rule.sourceFactType input.lines
    (predicatesUsed input.toVersionPredicates)
  return .versioning rule input

def loadSettingStatus (id : RuleId) (status : PostingRuleStatus) : Result RuleStage := do
  let rule ← rb.loadRule id
  Except.require (¬(status = .active ∧ rule.currentVersionId = none))
    (AccountingError.validation (s!"rule {rule.code} has no active version: activating it would " ++
      "make a rule that matches facts and posts nothing"))
  return .settingStatus rule status

/-- What a call does outside its transaction, or all of `createRule`, whose rows are new. -/
def begunRule : RuleCall → RuleOutcome
  | .createRule input => .ofWrite (rb.createRule input)
  | .addVersion input => .ofRead (loadVersioning rb input)
  | .activateVersion id => .ofRead ((rb.loadActivatable id).map fun v => .activating (.stored v))
  | .setRuleStatus id status => .ofRead (loadSettingStatus rb id status)

def insertNumbered (version : PostingRuleVersionRow) : Bool → RuleOutcome
  | true => .ofRead ((checkVersionRow version).map fun _ => .activating (.inserted version))
  | false => .ofWrite do
    checkVersionRow version
    (rb.insertVersion version).map (·.2)

def proceedRule : RuleStage → RuleOutcome
  | .idle => .goTo .idle
  | .requested call => begunRule rb call
  | .versioning rule input => .goTo (.numbered (rb.versionRow rule input) input.activate)
  | .numbered version activate => insertNumbered rb version activate
  | .activating target =>
    .goTo (.retiring target ((rb.versions.filter target.retires).map (·.id)) [])
  | .retiring target [] retired => .goTo (.raising target retired)
  | .retiring target (row :: waiting) retired =>
    -- the row is judged again once its lock is granted
    .lock row (.retiring target waiting (if rb.isActive row then retired ++ [row] else retired))
  | .raising (.stored version) retired => .lock version.id (.pointing (.stored version) retired)
  | .raising (.inserted version) retired => .goTo (.pointing (.inserted version) retired)
  | .pointing target retired => .ofWrite (rb.commitActivation retired target)
  | .settingStatus rule status => .commit (rb.setStatus rule.id status)
  | .finished => .finish

end Proceed

structure RuleSessions where
  base : RuleBase
  holder : VersionId → Option ℕ
  stage : ℕ → RuleStage

inductive RuleAction
  | begin (session : ℕ) (call : RuleCall)
  | proceed (session : ℕ)
  | abort (session : ℕ)

namespace RuleSessions

def initial : RuleSessions where
  base := RuleBase.empty
  holder := fun _ => none
  stage := fun _ => .idle

def setStage (s : RuleSessions) (session : ℕ) (stage : RuleStage) : RuleSessions :=
  { s with stage := fun r => if r = session then stage else s.stage r }

/-- The call ends, and its transaction lets go of its rows. -/
def finish (s : RuleSessions) (session : ℕ) : RuleSessions :=
  { s.setStage session .finished with
    holder := fun row => if s.holder row = some session then none else s.holder row }

def lock (s : RuleSessions) (session : ℕ) (row : VersionId) (stage : RuleStage) : RuleSessions :=
  if s.holder row = none ∨ s.holder row = some session then
    { s.setStage session stage with
      holder := fun r => if r = row then some session else s.holder r }
  else s

def step (s : RuleSessions) : RuleAction → RuleSessions
  | .begin session call =>
    match s.stage session with
    | .idle => s.setStage session (.requested call)
    | _ => s
  | .proceed session =>
    match proceedRule s.base (s.stage session) with
    | .goTo stage => s.setStage session stage
    | .lock row stage => s.lock session row stage
    | .commit base => { s.finish session with base := base }
    | .finish => s.finish session
  | .abort session =>
    match s.stage session with
    | .idle => s
    | _ => s.finish session

end RuleSessions

end Loxep

import Loxep.Journal
import Loxep.Lib.ChildRows

/-!
# The rule guard in the database

The triggers on `posting_rule_versions` and `posting_rule_lines`: once a journal entry references
a version, its text and its line template are frozen. A row statement passes its trigger and then
the tables' constraints, or is refused and changes nothing.
-/

namespace Loxep

/-- A row of `posting_rule_versions`. -/
structure StoredVersion where
  id : VersionId
  postingRuleId : RuleId
  version : ℤ
  status : PostingRuleVersionStatus
  predicates : VersionPredicates
  note : Option String
  createdByUserId : Option String
  createdAt : Timestamp
  deriving DecidableEq

/-- The row without `status` and `effective_to`. -/
def StoredVersion.text (v : StoredVersion) : StoredVersion :=
  { v with status := .draft, predicates := { v.predicates with effectiveTo := none } }

abbrev RuleLineId := ℕ

/-- A row of `posting_rule_lines`. -/
structure StoredRuleLine extends PostingRuleLineRow where
  id : RuleLineId
  postingRuleVersionId : VersionId
  createdAt : Timestamp
  deriving DecidableEq

/-- What a row of `journal_entries` says about the rule that produced it. -/
structure RuleEntry where
  id : EntryId
  status : EntryStatus
  entrySource : EntrySource
  postingRuleVersionId : Option VersionId
  deriving DecidableEq

/-- `status in ('posted', 'reversed')`. -/
def RuleEntry.isPosted (e : RuleEntry) : Bool := e.status == .posted || e.status == .reversed

structure RuleTables where
  versions : List StoredVersion
  lines : List StoredRuleLine
  entries : List RuleEntry
  deriving DecidableEq

namespace RuleTables

def empty : RuleTables := ⟨[], [], []⟩

variable (t : RuleTables)

def findVersion (id : VersionId) : Option StoredVersion := t.versions.find? (·.id == id)

def findLine (id : RuleLineId) : Option StoredRuleLine := t.lines.find? (·.id == id)

def findEntry (id : EntryId) : Option RuleEntry := t.entries.find? (·.id == id)

def linesOf (id : VersionId) : List StoredRuleLine :=
  childrenOf (·.postingRuleVersionId) t.lines id

/-- `EXISTS (SELECT 1 FROM journal_entries e WHERE e.posting_rule_version_id = id)`. -/
def referenced (id : VersionId) : Bool := t.entries.any (·.postingRuleVersionId == some id)

end RuleTables

def postingRuleVersionsImmutable (t : RuleTables) (old : StoredVersion) (new : Option StoredVersion)
    : Except String Unit :=
  if !t.referenced old.id then .ok ()
  else match new with
    | none => .error (s!"posting rule version {old.id} is referenced by posted journal entries " ++
        "and may not be deleted")
    | some new => Except.require (new.text = old.text)
        (s!"posting rule version {old.id} is referenced by posted journal entries and is " ++
          "immutable")

def postingRuleLinesImmutable (t : RuleTables) (op : String) (target : VersionId) :
    Except String Unit :=
  match t.findVersion target with
  | none => .ok ()
  | some _ => Except.require (t.referenced target = false)
      (s!"posting rule version {target} has posted journal entries: {op} on its line template " ++
        "is not permitted")

def ruleEntriesImmutable (op : String) (old : RuleEntry) (new : Option RuleEntry) :
    Except String Unit :=
  Except.require (old.status = .draft ∨ new.any fun new => old.status == .posted &&
      new.status == .reversed && { new with status := old.status } == old)
    (s!"journal_entries is immutable once posted: {op} of a {old.status.text} entry is not " ++
      "permitted")

def checkVersion (v : StoredVersion) : Except String Unit := do
  Except.require (∀ upper ∈ v.predicates.effectiveTo, ∀ lower ∈ v.predicates.effectiveFrom,
    lower ≤ upper) "posting_rule_versions_effective_range_check"
  Except.require (∀ most ∈ v.predicates.matchMaxAmount, ∀ least ∈ v.predicates.matchMinAmount,
    least ≤ most) "posting_rule_versions_amount_range_check"
  Except.require (0 < v.version) "posting_rule_versions_version_check"

def checkRuleLine (l : StoredRuleLine) : Except String Unit := do
  Except.require (l.accountSystemKey.isSome ≠ l.ledgerAccountId.isSome)
    "posting_rule_lines_account_check"
  Except.require (l.amountMultiplier ≠ 0) "posting_rule_lines_multiplier_check"
  Except.require (0 < l.lineNumber) "posting_rule_lines_line_number_check"

def checkRuleEntry (e : RuleEntry) : Except String Unit :=
  Except.require (e.entrySource = .postingRule ↔ e.postingRuleVersionId.isSome)
    "journal_entries_posting_rule_version_check"

/-- The unique keys and the foreign keys between the tables, after a statement. -/
def checkRuleTables (t : RuleTables) : Except String RuleTables := do
  Except.require (t.versions.map (·.id)).Nodup "posting_rule_versions_pkey"
  Except.require (t.lines.map (·.id)).Nodup "posting_rule_lines_pkey"
  Except.require (t.entries.map (·.id)).Nodup "journal_entries_pkey"
  Except.require (t.versions.map fun v => (v.postingRuleId, v.version)).Nodup
    "posting_rule_versions_rule_version_uq"
  Except.require (t.lines.map fun l => (l.postingRuleVersionId, l.lineNumber)).Nodup
    "posting_rule_lines_version_line_uq"
  Except.require ((t.lines.filter (·.amountSource == .remainder)).map
    (·.postingRuleVersionId)).Nodup "posting_rule_lines_version_remainder_uq"
  Except.require (∀ l ∈ t.lines, l.postingRuleVersionId ∈ t.versions.map (·.id))
    "posting_rule_lines_version_fk"
  Except.require (∀ e ∈ t.entries, ∀ id ∈ e.postingRuleVersionId, id ∈ t.versions.map (·.id))
    "journal_entries_posting_rule_version_fk"
  return t

inductive RuleStatement
  | insertVersion (new : StoredVersion)
  | updateVersion (id : VersionId) (new : StoredVersion)
  | deleteVersion (id : VersionId)
  | insertLine (new : StoredRuleLine)
  | updateLine (id : RuleLineId) (new : StoredRuleLine)
  | deleteLine (id : RuleLineId)
  | insertEntry (new : RuleEntry)
  | updateEntry (id : EntryId) (new : RuleEntry)
  | deleteEntry (id : EntryId)

namespace RuleTables

def execute (t : RuleTables) : RuleStatement → Except String RuleTables
  | .insertVersion new => do
    checkVersion new
    checkRuleTables { t with versions := t.versions ++ [new] }
  | .updateVersion id new =>
    match t.findVersion id with
    | none => .ok t
    | some old => do
      postingRuleVersionsImmutable t old (some new)
      checkVersion new
      checkRuleTables { t with versions := replaceRow (·.id) t.versions id new }
  | .deleteVersion id =>
    match t.findVersion id with
    | none => .ok t
    | some old => do
      postingRuleVersionsImmutable t old none
      let rest := { t with versions := t.versions.filter (·.id != id) }
      (t.linesOf id).forM fun l => postingRuleLinesImmutable rest "DELETE" l.postingRuleVersionId
      checkRuleTables { rest with lines := t.lines.filter (·.postingRuleVersionId != id) }
  | .insertLine new => do
    postingRuleLinesImmutable t "INSERT" new.postingRuleVersionId
    checkRuleLine new
    checkRuleTables { t with lines := t.lines ++ [new] }
  | .updateLine id new =>
    match t.findLine id with
    | none => .ok t
    | some _ => do
      postingRuleLinesImmutable t "UPDATE" new.postingRuleVersionId
      checkRuleLine new
      checkRuleTables { t with lines := replaceRow (·.id) t.lines id new }
  | .deleteLine id =>
    match t.findLine id with
    | none => .ok t
    | some old => do
      postingRuleLinesImmutable t "DELETE" old.postingRuleVersionId
      checkRuleTables { t with lines := t.lines.filter (·.id != id) }
  | .insertEntry new => do
    checkRuleEntry new
    checkRuleTables { t with entries := t.entries ++ [new] }
  | .updateEntry id new =>
    match t.findEntry id with
    | none => .ok t
    | some old => do
      ruleEntriesImmutable "UPDATE" old (some new)
      checkRuleEntry new
      checkRuleTables { t with entries := replaceRow (·.id) t.entries id new }
  | .deleteEntry id =>
    match t.findEntry id with
    | none => .ok t
    | some old => do
      ruleEntriesImmutable "DELETE" old none
      checkRuleTables { t with entries := t.entries.filter (·.id != id) }

def step (t : RuleTables) (statement : RuleStatement) : RuleTables :=
  match t.execute statement with
  | .ok t' => t'
  | .error _ => t

end RuleTables

end Loxep

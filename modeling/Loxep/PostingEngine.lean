import Loxep.Journal
import Loxep.Lib.JsonText
import Loxep.Lib.Runs

/-!
# The rule engine: one fact in, at most one journal entry out

`evaluateFact` reads the fact, routes its book, resolves its rule, fingerprints what the rule
consumed, and then leaves the ledger as it is, posts, reverses, or reverses and posts. The
reversal and the posting are two transactions. `evaluateFacts` runs it over a list.
-/

namespace Loxep

/-- Exactly what the rule consumed of a fact: the object whose JSON text is hashed. -/
structure CanonicalFact where
  type : ReadableSourceFactType
  id : FactId
  date : CalendarDate
  entity : Option EntityId
  currency : String
  amounts : List (PostingAmountSource × Money)
  matched : List (String × String)
  allocations : List Allocation

def isHexDigit (c : Char) : Bool := "0123456789abcdef".toList.contains c

/-- `createHash("sha256").update(canonical).digest("hex")`, of which the engine relies on the
alphabet of its output. -/
structure FingerprintHash where
  digest : CanonicalFact → String
  hex : ∀ c, (digest c).toList.all isHexDigit

def ResolvedPostingRule.lines (resolved : ResolvedPostingRule) : List PostingRuleLineRow :=
  resolved.version.lines.insertionSort fun a b => a.lineNumber ≤ b.lineNumber

def consumedSources (lines : List PostingRuleLineRow) : List PostingAmountSource :=
  (((lines.map (·.amountSource)).filter (· != .remainder)).eraseDups).insertionSort
    fun a b => a.text ≤ b.text

def boolText (b : Bool) : String := if b then "true" else "false"

def matchedAttributes (p : VersionPredicates) (a : FactAttributes) : List (String × String) :=
  let columns : List (Bool × String × String) :=
    [(p.matchProvider.isSome, "provider", a.provider.getD "null"),
      (p.matchChannel.isSome, "channel", a.channel.getD "null"),
      (p.matchFeeType.isSome, "feeType", a.feeType.getD "null"),
      (p.matchFeeDirection.isSome, "feeDirection", a.feeDirection.getD "null"),
      (p.matchMovementKind.isSome, "movementKind", a.movementKind.getD "null"),
      (p.matchSourceKind.isSome, "sourceKind", a.sourceKind.getD "null"),
      (p.matchExpenseCategory.isSome, "expenseCategory", a.expenseCategory.getD "null"),
      (p.matchCapitalize.isSome, "capitalize", (a.capitalize.map boolText).getD "null")]
  (columns.filter (·.1)).map (·.2)

def canonicalFact (fact : SourceFact) (resolved : ResolvedPostingRule) : CanonicalFact where
  type := fact.sourceFactType
  id := fact.sourceFactId
  date := fact.accountingDate
  entity := fact.economicEntityId
  currency := fact.currency
  amounts := (consumedSources resolved.lines).map fun source =>
    (source, (fact.amounts.lookup source).getD 0)
  matched := matchedAttributes resolved.version.predicates fact.attributes
  allocations := fact.allocations

def fingerprintFact (hash : FingerprintHash) (fact : SourceFact) (resolved : ResolvedPostingRule)
    : String :=
  hash.digest (canonicalFact fact resolved)

/-- `value.slice(0, 12)`. -/
def prefix12 (value : String) : String := String.ofList (value.toList.take 12)

/-- `pr:<code>:v<version>:<type>:<id>:<fingerprint12>`. -/
def postingKeyFor (ruleCode : String) (version : ℕ) (sourceFactType : String)
    (sourceFactId : FactId) (fingerprint : String) : String :=
  ":".intercalate ["pr", ruleCode, s!"v{version}", sourceFactType, toString sourceFactId,
    prefix12 fingerprint]

structure BuiltLine where
  accountSystemKey : Option String
  ledgerAccountId : Option AccountId
  amount : Money
  description : Option String
  economicEntityId : Option EntityId
  dimensionValueId : Option DimensionValueId

def missingAmountError (fact : SourceFact) (resolved : ResolvedPostingRule)
    (source : PostingAmountSource) : AccountingError :=
  .validation (s!"rule {resolved.rule.code} reads \"{source.text}\" and a " ++
    s!"{fact.sourceFactType.text} fact does not carry it. This is refused at " ++
    "rule-save time; reaching it means a version was written around the service.")

def instantiate (fact : SourceFact) (line : PostingRuleLineRow) (amount : Money) : BuiltLine where
  accountSystemKey := line.accountSystemKey
  ledgerAccountId := line.ledgerAccountId
  amount := amount
  description := line.descriptionTemplate.map fun template =>
    renderTemplate template fact.placeholders
  economicEntityId := if line.inheritEntity then fact.economicEntityId else none
  dimensionValueId := line.dimensionValueId

def buildAmountLines (fact : SourceFact) (resolved : ResolvedPostingRule) :
    List PostingRuleLineRow → Result (List BuiltLine)
  | [] => .ok []
  | line :: lines =>
    if line.amountSource = .remainder then buildAmountLines fact resolved lines
    else
      match fact.amounts.lookup line.amountSource with
      | none => .error (missingAmountError fact resolved line.amountSource)
      | some source => do
        let amount := multiplyDecimals source line.amountMultiplier
        let rest ← buildAmountLines fact resolved lines
        return if isZeroDecimal amount then rest else instantiate fact line amount :: rest

/-- The one debit of an expense entry gives way to a line per allocation naming an account, the
unallocated rest staying on the rule's account. -/
def splitByAllocations (fact : SourceFact) (lines : List BuiltLine) : List BuiltLine :=
  let allocations := fact.allocations.filter (·.ledgerAccountId.isSome)
  if fact.sourceFactType ≠ .expense ∨ allocations = [] then lines
  else
    match lines.filter (0 ≤ ·.amount) with
    | [target] =>
      let allocated := sumDecimals (allocations.map (·.amount))
      if isNegative allocated ≠ isNegative target.amount ∨
          absDecimal target.amount < absDecimal allocated then lines
      else
        let replacement := allocations.map fun allocation =>
          { target with
            accountSystemKey := none
            ledgerAccountId := allocation.ledgerAccountId
            amount := allocation.amount
            economicEntityId := allocation.economicEntityId.orElse fun _ =>
              target.economicEntityId
            dimensionValueId := allocation.dimensionValueId }
        let unallocated := target.amount - allocated
        lines.filter (·.amount < 0) ++ replacement ++
          if isZeroDecimal unallocated then [] else [{ target with amount := unallocated }]
    | _ => lines

def remainderLine (fact : SourceFact) (resolved : ResolvedPostingRule) (split : List BuiltLine) :
    List BuiltLine :=
  match (resolved.lines.filter (·.amountSource == .remainder)).getLast? with
  | none => []
  | some template =>
    let residue := negateDecimal (sumDecimals (split.map (·.amount)))
    if isZeroDecimal residue then [] else [instantiate fact template residue]

def buildLines (fact : SourceFact) (resolved : ResolvedPostingRule) :
    Result (List BuiltLine) := do
  let built ← buildAmountLines fact resolved resolved.lines
  let split := splitByAllocations fact built
  return split ++ remainderLine fact resolved split

def isLiveEntryOf (sourceFactType : String) (sourceFactId : FactId) (e : JournalEntryRow) :
    Bool :=
  e.sourceFactType == some sourceFactType && e.sourceFactId == some sourceFactId &&
    e.entrySource == .postingRule && e.status == .posted && e.reversesEntryId == none

def existingEntryFor (j : Journal) (fact : SourceFact) : Option JournalEntryRow :=
  j.entries.reverse.find? (isLiveEntryOf fact.sourceFactType.text fact.sourceFactId)

def routeBook (setup : Setup) (fact : SourceFact) (installationDefaultBookId : Option BookId) :
    Result (Option AccountingBookRow) :=
  match fact.accountingBookIdOverride with
  | some book => do
    let row ← setup.getBook book
    return some row
  | none =>
    match setup.resolveBookForEntity fact.economicEntityId fact.accountingDate
        installationDefaultBookId with
    | none => .ok none
    | some routing => do
      let row ← setup.getBook routing.accountingBookId
      return some row

inductive UnpostableReason
  | factNotFound
  | factIneligible
  | noRoute
  | noRule
  | noPeriod
  | nothingToPost
  deriving DecidableEq

inductive PostingStatus
  | posted
  | unchanged
  | reposted
  | unpostable
  deriving DecidableEq

structure RuleStamp where
  code : String
  version : ℕ
  postingRuleVersionId : VersionId

structure PostingOutcome where
  sourceFactType : String
  sourceFactId : FactId
  status : PostingStatus
  entry : Option JournalEntryRow := none
  reversalEntry : Option JournalEntryRow := none
  rule : Option RuleStamp := none
  accountingBookId : Option BookId := none
  reason : Option UnpostableReason := none
  explanation : Option String := none

structure EvaluateFactInput where
  sourceFactType : String
  sourceFactId : FactId
  installationDefaultBookId : Option BookId
  allowBackdated : Bool

structure World where
  setup : Setup
  tables : FactTables
  rules : RuleBase
  ledger : Ledger

inductive Judgement
  | settled (outcome : PostingOutcome)
  | ineligible (fact : SourceFact) (reason : String)
  | postable (fact : SourceFact) (book : AccountingBookRow) (resolved : ResolvedPostingRule)

def unpostable (input : EvaluateFactInput) (reason : UnpostableReason) (explanation : String) :
    PostingOutcome where
  sourceFactType := input.sourceFactType
  sourceFactId := input.sourceFactId
  status := .unpostable
  reason := some reason
  explanation := some explanation

def judgeFact (setup : Setup) (rules : RuleBase) (input : EvaluateFactInput) (fact : SourceFact)
    : Result Judgement := do
  match fact.ineligibleReason with
  | some reason => return .ineligible fact reason
  | none =>
    match ← routeBook setup fact input.installationDefaultBookId with
    | none =>
      return .settled (unpostable input .noRoute
        ("no book: the fact carries no entity with a posting_primary book " ++
          "covering its date (nor does any ancestor), and no installation " ++
          "default was supplied. Inventing one silently is how a ledger " ++
          "becomes untrustworthy."))
    | some book =>
      if book.status ≠ .active then
        return .settled (unpostable input .noRoute
          (s!"book {book.code} is archived: an archived book is disabled for " ++
            "new postings, which the design's toggleable-books answer treats " ++
            "the same as no book being routed at all, not an error."))
      else
        match rules.resolveForFact fact book.id with
        | none =>
          return .settled { unpostable input .noRule
            (s!"no active posting rule matches this {fact.sourceFactType.text} in book " ++
              s!"{book.code}. Rule coverage is a named read model, not an error.") with
            accountingBookId := some book.id }
        | some resolved => return .postable fact book resolved

def judge (setup : Setup) (tables : FactTables) (rules : RuleBase) (input : EvaluateFactInput) :
    Result Judgement := do
  match ← tables.read input.sourceFactType input.sourceFactId with
  | none =>
    return .settled (unpostable input .factNotFound
      ("no such fact: it was never ingested, or it was deleted after an " ++
        "entry referenced it (which the ledger deliberately survives)"))
  | some fact => judgeFact setup rules input fact

def toJournalLines (fact : SourceFact) (lines : List BuiltLine) : List JournalLineInput :=
  lines.zipIdx.map fun (line, index) =>
    { ledgerAccountId := line.ledgerAccountId
      accountSystemKey := line.accountSystemKey
      economicEntityId := line.economicEntityId
      lineNumber := some (index + 1)
      description := line.description
      currency := some fact.currency
      amount := line.amount
      dimensions := [] }

def postingInput (fact : SourceFact) (book : AccountingBookRow) (resolved : ResolvedPostingRule)
    (fingerprint : String) (lines : List BuiltLine) (allowBackdated : Bool) : PostEntryInput where
  accountingBookId := some book.id
  economicEntityId := none
  installationDefaultBookId := none
  entryDate := fact.accountingDate
  description := fact.description
  memo := none
  entrySource := .postingRule
  postingRuleVersionId := some resolved.version.id
  postingKey := some (postingKeyFor resolved.rule.code resolved.version.version
    fact.sourceFactType.text fact.sourceFactId fingerprint)
  sourceFactType := some fact.sourceFactType.text
  sourceFactId := some fact.sourceFactId
  sourceFactFingerprint := some fingerprint
  lines := toJournalLines fact lines
  sourceLinks := ⟨fact.sourceFactType.text, fact.sourceFactId, .primary, none, none⟩ ::
    fact.relatedFacts.map fun related =>
      ⟨related.sourceFactType.text, related.sourceFactId, related.role, none, none⟩
  allowBackdated := allowBackdated

def post (setup : Setup) (ledger : Ledger) (fact : SourceFact) (book : AccountingBookRow)
    (resolved : ResolvedPostingRule) (fingerprint : String) (allowBackdated : Bool) :
    Result (PostedEntry × Ledger) := do
  let lines ← buildLines fact resolved
  postEntry setup ledger (postingInput fact book resolved fingerprint lines allowBackdated)

def ruleStamp (resolved : ResolvedPostingRule) : RuleStamp :=
  ⟨resolved.rule.code, resolved.version.version, resolved.version.id⟩

def withdrawalInput (input : EvaluateFactInput) (fact : SourceFact) (reason : String)
    (posted : JournalEntryRow) : ReverseEntryInput where
  journalEntryId := posted.id
  entryDate := some fact.accountingDate
  reason := s!"the source fact is no longer postable: {reason}"
  allowBackdated := input.allowBackdated

def withdraw (setup : Setup) (ledger : Ledger) (input : EvaluateFactInput) (fact : SourceFact)
    (reason : String) : Result PostingOutcome × Ledger :=
  match existingEntryFor ledger.toJournal fact with
  | none => (.ok (unpostable input .factIneligible reason), ledger)
  | some posted =>
    match reverseEntry setup ledger (withdrawalInput input fact reason posted) with
    | .error e => (.error e, ledger)
    | .ok (reversal, ledger') =>
      (.ok { unpostable input .factIneligible
        (s!"{reason}. The entry it had already produced was " ++
          "reversed rather than left standing.") with
        reversalEntry := some reversal.entry }, ledger')

def correctionInput (input : EvaluateFactInput) (fact : SourceFact) (resolved : ResolvedPostingRule)
    (fingerprint : String) (existing : JournalEntryRow) :
    ReverseEntryInput where
  journalEntryId := existing.id
  entryDate := some fact.accountingDate
  reason :=
    let before := (existing.sourceFactFingerprint.map prefix12).getD "none"
    if existing.postingRuleVersionId = some resolved.version.id then
      s!"the source fact changed after posting (fingerprint {before} -> " ++
        prefix12 fingerprint ++ ")"
    else s!"re-posted under rule {resolved.rule.code} v{resolved.version.version}"
  allowBackdated := input.allowBackdated

def correct (setup : Setup) (ledger : Ledger) (input : EvaluateFactInput) (fact : SourceFact)
    (book : AccountingBookRow) (resolved : ResolvedPostingRule) (fingerprint : String)
    (existing : JournalEntryRow) : Result PostingOutcome × Ledger :=
  match reverseEntry setup ledger
      (correctionInput input fact resolved fingerprint existing) with
  | .error e => (.error e, ledger)
  | .ok (reversal, ledger') =>
    match post setup ledger' fact book resolved fingerprint input.allowBackdated with
    | .error e => (.error e, ledger')
    | .ok (posted, ledger'') =>
      (.ok { sourceFactType := input.sourceFactType
             sourceFactId := input.sourceFactId
             status := .reposted
             entry := some posted.entry
             reversalEntry := some reversal.entry
             rule := some (ruleStamp resolved)
             accountingBookId := some book.id }, ledger'')

def enter (setup : Setup) (ledger : Ledger) (input : EvaluateFactInput) (fact : SourceFact)
    (book : AccountingBookRow) (resolved : ResolvedPostingRule) (fingerprint : String) :
    Result PostingOutcome × Ledger :=
  match buildLines fact resolved with
  | .error e => (.error e, ledger)
  | .ok built =>
    if built.length < 2 then
      (.ok { unpostable input .nothingToPost
        (s!"rule {resolved.rule.code} produced {built.length} non-zero line(s) " ++
          "for this fact: every amount it reads is zero, and a zero line is " ++
          "not a posting, it is an empty row") with
        accountingBookId := some book.id }, ledger)
    else
      match post setup ledger fact book resolved fingerprint input.allowBackdated with
      | .error e => (.error e, ledger)
      | .ok (posted, ledger') =>
        (.ok { sourceFactType := input.sourceFactType
               sourceFactId := input.sourceFactId
               status := if posted.reused then .unchanged else .posted
               entry := some posted.entry
               rule := some (ruleStamp resolved)
               accountingBookId := some book.id }, ledger')

def isCurrent (resolved : ResolvedPostingRule) (fingerprint : String) (existing : JournalEntryRow)
    : Bool :=
  existing.sourceFactFingerprint == some fingerprint &&
    existing.postingRuleVersionId == some resolved.version.id

def settle (hash : FingerprintHash) (setup : Setup) (ledger : Ledger) (input : EvaluateFactInput)
    (fact : SourceFact) (book : AccountingBookRow) (resolved : ResolvedPostingRule)
    : Result PostingOutcome × Ledger :=
  let fingerprint := fingerprintFact hash fact resolved
  match existingEntryFor ledger.toJournal fact with
  | none => enter setup ledger input fact book resolved fingerprint
  | some existing =>
    if isCurrent resolved fingerprint existing then
      (.ok { sourceFactType := input.sourceFactType
             sourceFactId := input.sourceFactId
             status := .unchanged
             entry := some existing
             rule := some (ruleStamp resolved)
             accountingBookId := some book.id }, ledger)
    else correct setup ledger input fact book resolved fingerprint existing

/-- The engine's own `evaluateFact`: the outcome or the error raised, and the ledger after it. -/
def evaluate (hash : FingerprintHash) (w : World) (input : EvaluateFactInput) :
    Result PostingOutcome × Ledger :=
  match judge w.setup w.tables w.rules input with
  | .error e => (.error e, w.ledger)
  | .ok (.settled outcome) => (.ok outcome, w.ledger)
  | .ok (.ineligible fact reason) => withdraw w.setup w.ledger input fact reason
  | .ok (.postable fact book resolved) =>
    settle hash w.setup w.ledger input fact book resolved

/-- The exported `evaluateFact`: a routing error becomes an outcome, every other one is
raised. -/
def evaluateFact (hash : FingerprintHash) (w : World) (input : EvaluateFactInput) :
    Result PostingOutcome × Ledger :=
  match evaluate hash w input with
  | (.error e, ledger) =>
    if e.errorClass = .bookRouting then (.ok (unpostable input .noRoute e.message), ledger)
    else (.error e, ledger)
  | (.ok outcome, ledger) => (.ok outcome, ledger)

structure EvaluateOptions where
  installationDefaultBookId : Option BookId
  allowBackdated : Bool

def EvaluateOptions.inputFor (options : EvaluateOptions) (ref : String × FactId) :
    EvaluateFactInput :=
  ⟨ref.1, ref.2, options.installationDefaultBookId, options.allowBackdated⟩

def inputFor (ref : FactRef) (options : EvaluateOptions) : EvaluateFactInput :=
  options.inputFor (ref.1.text, ref.2)

/-- Each reference in turn, through the engine's own `evaluateFact`. -/
def evaluateFacts (hash : FingerprintHash) (options : EvaluateOptions) (w : World) :
    List (String × FactId) → Result (List PostingOutcome) × Ledger
  | [] => (.ok [], w.ledger)
  | ref :: refs =>
    match evaluate hash w (options.inputFor ref) with
    | (.error e, ledger) => (.error e, ledger)
    | (.ok outcome, ledger) =>
      match evaluateFacts hash options { w with ledger := ledger } refs with
      | (.error e, ledger') => (.error e, ledger')
      | (.ok outcomes, ledger') => (.ok (outcome :: outcomes), ledger')

namespace Small

def setup : Setup where
  economicEntities := []
  accountingBooks := [⟨0, "MAIN", "USD", .active⟩]
  bookEntityLinks := []
  ledgerAccounts :=
    [⟨0, 0, "1010", "Undeposited funds", true, some "undeposited_funds", .active⟩,
      ⟨1, 0, "6100", "Shipping", true, some "shipping_expense", .active⟩]
  accountingDimensions := []
  fiscalPeriods := [⟨0, 0, "2026", ⟨2026, 1, 1⟩, ⟨2026, 12, 31⟩, .opened⟩]
  defaultBookId := some 0

def rules : RuleBase where
  rules := [⟨0, "expense", .expense, none, 100, .active, some 0⟩]
  versions := [⟨0, 0, 1, .active, {},
    [⟨1, some "shipping_expense", none, .total, moneyUnits, true, none, none⟩,
      ⟨2, some "undeposited_funds", none, .total, -moneyUnits, true, none, none⟩]⟩]

def expense (id : FactId) (status : ExpenseStatus) (amount : Money) (date : CalendarDate) :
    ExpenseRow :=
  ⟨id, s!"EXP-{id}", "shipping", status, "USD", amount, 0, date, none, none, none, none⟩

def tables (expenses : List ExpenseRow) : FactTables :=
  { FactTables.empty with expenses := expenses }

def recorded (id : FactId) (dollars : ℤ) : ExpenseRow :=
  expense id .recorded (dollars * moneyUnits) ⟨2026, 1, 15⟩

/-- SHA-256 of the canonical JSON of a few expenses under the one rule. -/
def digest (c : CanonicalFact) : String :=
  if c.id = 1 then "b674810929d3ed7d677b66efbde7b1a68ac639f1533c8fb9d413e535e11cf86f"
  else if c.date = ⟨2025, 12, 31⟩ then
    "87d7dcf71a69ce95e6cbbda16292e3b63df52b7a5ea4470145de428033447413"
  else if c.amounts = [(PostingAmountSource.total, (100 * moneyUnits : ℤ))] then
    "5e9f4f44d152dd873ca9bd09c08d7abdb86905a911f0ba1bff84754ecef22a95"
  else if c.amounts = [(PostingAmountSource.total, (120 * moneyUnits : ℤ))] then
    "9501f3c6c9d7c341e5488717b6436c4ed644816a934bc1f8573d5e047ad3313a"
  else "dbe9261f9e94204a6605220bf72c60a7cee56f659069f4d42348d41be178d847"

def hash : FingerprintHash where
  digest := digest
  hex := by
    intro c
    unfold digest
    split_ifs <;> decide +kernel

def options : EvaluateOptions := ⟨some 0, false⟩

def world (expenses : List ExpenseRow) : World := ⟨setup, tables expenses, rules, Ledger.empty⟩

def evaluated (w : World) : World :=
  { w with ledger := (evaluateFact hash w (inputFor (.expense, 0) options)).2 }

def edited (w : World) (dollars : ℤ) : World :=
  { w with tables := tables [recorded 0 dollars] }

def posted : World := evaluated (world [recorded 0 100])

end Small

/-!
## The text a fingerprint is the hash of

`fingerprintFact` hashes the JSON text of the consumed fields, in the order the object names
them: identifiers, dates and amounts as strings, amounts and matched attributes as objects,
allocations as an array of arrays.
-/

namespace JsonTree

def text (s : String) : JsonTree := .str s.toList

def ofId : Option ℕ → JsonTree
  | none => .null
  | some id => text (toString id)

end JsonTree

/-- `[ledgerAccountId, amount, economicEntityId, dimensionValueId]`. -/
def Allocation.json (a : Allocation) : JsonTree :=
  .arr [.ofId a.ledgerAccountId, .text (formatDecimal a.amount), .ofId a.economicEntityId,
    .ofId a.dimensionValueId]

/-- The object `JSON.stringify` is given. -/
def CanonicalFact.json (c : CanonicalFact) : JsonTree :=
  .obj [("type".toList, .text c.type.text), ("id".toList, .text (toString c.id)),
    ("date".toList, .text (toString c.date)), ("entity".toList, .ofId c.entity),
    ("currency".toList, .text c.currency),
    ("amounts".toList, .obj (c.amounts.map fun amount =>
      (amount.1.text.toList, .text (formatDecimal amount.2)))),
    ("matched".toList, .obj (c.matched.map fun matched =>
      (matched.1.toList, .text matched.2))),
    ("allocations".toList, .arr (c.allocations.map Allocation.json))]

/-- `canonical`. -/
def CanonicalFact.canonical (c : CanonicalFact) : String := String.ofList c.json.stringify

def FingerprintHash.ofText (sha256 : String → String)
    (hex : ∀ text, (sha256 text).toList.all isHexDigit) : FingerprintHash where
  digest c := sha256 c.canonical
  hex c := hex c.canonical

/-!
## Concurrent evaluations

`evaluateFact` holds no lock on its fact. It reads the fact, looks up the live entry, reverses
and posts, each in a statement or a transaction of its own, and any number of evaluations may
stand between two of these steps while the fact is edited.
-/

abbrev RunId := ℕ

/-- How far an evaluation has come, with what it has read so far. `seen` is how many entries the
journal held at its look-up. -/
inductive Stage
  | idle
  | started (input : EvaluateFactInput)
  | excluded (input : EvaluateFactInput) (fact : SourceFact) (reason : String)
  | resolved (input : EvaluateFactInput) (fact : SourceFact) (book : AccountingBookRow)
      (resolved : ResolvedPostingRule)
  | withdrawing (input : EvaluateFactInput) (fact : SourceFact) (reason : String)
      (posted : JournalEntryRow)
  | correcting (input : EvaluateFactInput) (fact : SourceFact) (book : AccountingBookRow)
      (resolved : ResolvedPostingRule) (existing : JournalEntryRow) (seen : ℕ)
  | posting (input : EvaluateFactInput) (fact : SourceFact) (book : AccountingBookRow)
      (resolved : ResolvedPostingRule) (seen : ℕ)
  | finished

/-- The tables and the ledger, and where each evaluation stands. -/
structure System where
  world : World
  stage : RunId → Stage

inductive Action
  | edit (tables : FactTables)
  | start (run : RunId) (input : EvaluateFactInput)
  | proceed (run : RunId)
  | abort (run : RunId)

section Step

variable (hash : FingerprintHash)

def lookUp (w : World) (input : EvaluateFactInput) (fact : SourceFact) (book : AccountingBookRow)
    (resolved : ResolvedPostingRule) : Stage :=
  match existingEntryFor w.ledger.toJournal fact with
  | none =>
    match buildLines fact resolved with
    | .error _ => .finished
    | .ok built =>
      if built.length < 2 then .finished
      else .posting input fact book resolved w.ledger.entries.length
  | some existing =>
    if isCurrent resolved (fingerprintFact hash fact resolved) existing then .finished
    else .correcting input fact book resolved existing w.ledger.entries.length

/-- The next step of an evaluation: one read, or one transaction on the ledger. -/
def advance (w : World) : Stage → Stage × Ledger
  | .idle => (.idle, w.ledger)
  | .started input =>
    match judge w.setup w.tables w.rules input with
    | .error _ => (.finished, w.ledger)
    | .ok (.settled _) => (.finished, w.ledger)
    | .ok (.ineligible fact reason) => (.excluded input fact reason, w.ledger)
    | .ok (.postable fact book resolved) => (.resolved input fact book resolved, w.ledger)
  | .excluded input fact reason =>
    match existingEntryFor w.ledger.toJournal fact with
    | none => (.finished, w.ledger)
    | some posted => (.withdrawing input fact reason posted, w.ledger)
  | .resolved input fact book resolved => (lookUp hash w input fact book resolved, w.ledger)
  | .withdrawing input fact reason posted =>
    match reverseEntry w.setup w.ledger (withdrawalInput input fact reason posted) with
    | .error _ => (.finished, w.ledger)
    | .ok (_, ledger) => (.finished, ledger)
  | .correcting input fact book resolved existing seen =>
    match reverseEntry w.setup w.ledger
        (correctionInput input fact resolved (fingerprintFact hash fact resolved) existing) with
    | .error _ => (.finished, w.ledger)
    | .ok (_, ledger) => (.posting input fact book resolved seen, ledger)
  | .posting input fact book resolved _ =>
    match post w.setup w.ledger fact book resolved (fingerprintFact hash fact resolved)
        input.allowBackdated with
    | .error _ => (.finished, w.ledger)
    | .ok (_, ledger) => (.finished, ledger)
  | .finished => (.finished, w.ledger)

namespace System

def initial (setup : Setup) (tables : FactTables) (rules : RuleBase) : System where
  world := ⟨setup, tables, rules, Ledger.empty⟩
  stage := fun _ => .idle

def setStage (s : System) (run : RunId) (stage : Stage) : System :=
  { s with stage := fun r => if r = run then stage else s.stage r }

/-- A transaction that loses a race rolls back and its evaluation raises: it aborts. -/
def step (s : System) : Action → System
  | .edit tables => { s with world := { s.world with tables := tables } }
  | .start run input =>
    match s.stage run with
    | .idle => s.setStage run (.started input)
    | _ => s
  | .proceed run =>
    let next := advance hash s.world (s.stage run)
    { s.setStage run next.1 with world := { s.world with ledger := next.2 } }
  | .abort run =>
    match s.stage run with
    | .idle => s
    | _ => s.setStage run .finished

end System

end Step

/-!
## The posting sweep

One run seeds the shipped rules, selects the first facts with no posted or reversed entry, and
evaluates them in that order. The limit caps one run, and a fact that did not post is selected
again by the next.
-/

def hasEntry (j : Journal) (ref : FactRef) : Bool :=
  j.entries.any fun e => e.sourceFactType == some ref.1.text && e.sourceFactId == some ref.2 &&
    (e.status == .posted || e.status == .reversed)

def unpostedQueue (tables : FactTables) (j : Journal) (types : List ReadableSourceFactType) :
    List FactRef :=
  (tables.backlog types).filter fun ref => !hasEntry j ref

def unpostedFacts (tables : FactTables) (j : Journal) (types : List ReadableSourceFactType)
    (limit : ℕ) : List FactRef :=
  (unpostedQueue tables j types).take (max 1 limit)

def defaultPostFactsLimit : ℕ := 500

structure AccountingPostFactsResult where
  candidates : ℕ
  posted : ℕ
  unchanged : ℕ
  reposted : ℕ
  unpostable : ℕ
  unpostableByReason : UnpostableReason → ℕ
  more : Bool

def countStatus (outcomes : List PostingOutcome) (status : PostingStatus) : ℕ :=
  outcomes.countP (·.status == status)

def sweepResult (limit : ℕ) (candidates : List FactRef) (outcomes : List PostingOutcome) :
    AccountingPostFactsResult where
  candidates := candidates.length
  posted := countStatus outcomes .posted
  unchanged := countStatus outcomes .unchanged
  reposted := countStatus outcomes .reposted
  unpostable := countStatus outcomes .unpostable
  unpostableByReason := fun reason =>
    outcomes.countP fun o => o.status == .unpostable && o.reason == some reason
  more := decide (limit ≤ candidates.length)

/-- The batch a run looks at, once the rules are seeded. -/
def sweepBatch (w : World) (limit : ℕ) : List FactRef :=
  unpostedFacts w.tables w.ledger.toJournal ReadableSourceFactType.all limit

def sweepOptions (setup : Setup) : EvaluateOptions := ⟨setup.defaultBookId, false⟩

def sweepSeeded (hash : FingerprintHash) (w : World) (limit : ℕ) :
    Result AccountingPostFactsResult × World :=
  let candidates := sweepBatch w limit
  match evaluateFacts hash (sweepOptions w.setup) w
      (candidates.map fun ref => (ref.1.text, ref.2)) with
  | (.error e, ledger) => (.error e, { w with ledger := ledger })
  | (.ok outcomes, ledger) =>
    (.ok (sweepResult limit candidates outcomes), { w with ledger := ledger })

def runAccountingPostFactsSweep (hash : FingerprintHash) (w : World) (limit : ℕ) :
    Result AccountingPostFactsResult × World :=
  match seedDefaultRules w.rules with
  | .error e => (.error e, w)
  | .ok rules => sweepSeeded hash { w with rules := rules } limit

end Loxep

import Loxep.DecimalText
import Loxep.Expenses
import Loxep.Lib.KeyedTable

/-!
# Time entries and the rates they are worth

An entry's two rates are looked up once, when it is recorded: by a ladder over the rate card, from
the narrowest scope to the widest. Editing an entry leaves its rates; looking them up again is an
operation of its own. Each operation is one transaction.
-/

namespace Loxep

/-! ## Errors -/

inductive WorkErrorClass
  | validation
  | notFound
  | boundary
  | conflict
  | database

structure WorkError where
  errorClass : WorkErrorClass
  message : String

namespace WorkError

def validation (message : String) : WorkError := ⟨.validation, message⟩

def notFound (message : String) : WorkError := ⟨.notFound, message⟩

def boundary (message : String) : WorkError := ⟨.boundary, message⟩

def conflict (message : String) : WorkError := ⟨.conflict, message⟩

def database (message : String) : WorkError := ⟨.database, message⟩

end WorkError

abbrev WorkResult (α : Type) := Except WorkError α

/-! ## Rows -/

abbrev ProjectId := ℕ
abbrev BillingRateId := ℕ
abbrev TimeEntryId := ℕ

structure ProjectRow where
  id : ProjectId
  counterpartyId : Option CounterpartyId
  economicEntityId : Option EntityId

inductive RateKind
  | bill
  | cost
  deriving DecidableEq

inductive RateSource
  | manual
  | projectPerson
  | project
  | counterparty
  | person
  | activity
  | installation
  | unresolved
  deriving DecidableEq

inductive RateUnit
  | hour
  | day
  | fixed

structure BillingRateRow where
  id : BillingRateId
  scopeKind : RateSource
  projectId : Option ProjectId := none
  counterpartyId : Option CounterpartyId := none
  subjectUserId : Option String := none
  subjectCounterpartyId : Option CounterpartyId := none
  activityCode : Option String := none
  rateKind : RateKind
  currency : String
  amount : Money
  unit : RateUnit := .hour
  effectiveFrom : CalendarDate
  effectiveTo : Option CalendarDate := none

structure TimeEntryRow where
  id : TimeEntryId
  projectId : Option ProjectId
  counterpartyId : Option CounterpartyId
  economicEntityId : Option EntityId
  workedByUserId : Option String
  workedByCounterpartyId : Option CounterpartyId
  workedByLabel : String
  activityCode : Option String
  description : Option String
  workedOn : CalendarDate
  startedAt : Option Timestamp
  endedAt : Option Timestamp
  minutes : ℤ
  billable : Bool
  billableMinutes : ℤ
  currency : Option String
  billRateAmount : Option Money
  billRateSource : RateSource
  costRateAmount : Option Money
  costRateSource : RateSource
  billingRateId : Option BillingRateId
  approvedAt : Option Timestamp := none
  approvedByUserId : Option String := none
  lockedAt : Option Timestamp := none
  createdByUserId : Option String
  createdAt : Timestamp
  updatedAt : Timestamp
  deriving DecidableEq

/-! ## The ladder -/

structure RateResolutionInput where
  rateKind : RateKind
  projectId : Option ProjectId
  counterpartyId : Option CounterpartyId
  workedByUserId : Option String
  workedByCounterpartyId : Option CounterpartyId
  activityCode : Option String
  workedOn : CalendarDate

structure RateResolutionResult where
  amount : Option Money
  currency : Option String
  source : RateSource
  billingRateId : Option BillingRateId
  deriving DecidableEq

def RateResolutionResult.currencyText (rate : RateResolutionResult) : String :=
  rate.currency.getD "null"

/-- A label of the ladder and the rows it looks at, or none to pass it over. -/
structure Rung where
  source : RateSource
  predicate : Option (BillingRateRow → Bool)

namespace RateResolutionInput

variable (input : RateResolutionInput)

def subjectPredicate : Option (BillingRateRow → Bool) :=
  match input.workedByUserId, input.workedByCounterpartyId with
  | some user, _ => some fun rate => rate.subjectUserId == some user
  | none, some counterparty => some fun rate => rate.subjectCounterpartyId == some counterparty
  | none, none => none

def projectPredicate : Option (BillingRateRow → Bool) :=
  input.projectId.map fun project rate => rate.projectId == some project

def buildRungs : List Rung :=
  [⟨.projectPerson, input.projectPredicate.bind fun project =>
      input.subjectPredicate.map fun subject rate => project rate && subject rate⟩,
    ⟨.project, input.projectPredicate⟩,
    ⟨.counterparty, input.counterpartyId.map fun counterparty rate =>
      rate.counterpartyId == some counterparty⟩,
    ⟨.person, input.subjectPredicate⟩,
    ⟨.activity, input.activityCode.map fun code rate => rate.activityCode == some code⟩,
    ⟨.installation, some fun _ => true⟩]

def covers (source : RateSource) (rate : BillingRateRow) : Bool :=
  rate.rateKind == input.rateKind && rate.scopeKind == source &&
    decide (rate.effectiveFrom ≤ input.workedOn) &&
    rate.effectiveTo.all fun last => decide (input.workedOn ≤ last)

end RateResolutionInput

/-- `order by effective_from desc, id desc limit 1`. -/
def latestRate (rates : List BillingRateRow) : Option BillingRateRow :=
  (rates.insertionSort fun a b =>
    toLex (b.effectiveFrom, b.id) ≤ toLex (a.effectiveFrom, a.id)).head?

def unresolvedRate : RateResolutionResult := ⟨none, none, .unresolved, none⟩

def resolveRate (rates : List BillingRateRow) (input : RateResolutionInput) :
    RateResolutionResult :=
  let found := input.buildRungs.findSome? fun rung =>
    rung.predicate.bind fun predicate =>
      (latestRate (rates.filter fun rate => input.covers rung.source rate && predicate rate)).map
        fun rate => ⟨some rate.amount, some rate.currency, rung.source, some rate.id⟩
  found.getD unresolvedRate

/-! ## Inputs -/

abbrev WorkIssue := String × String

namespace WorkIssue

def ofText (path value : String) : List WorkIssue :=
  if value = "" then [(path, "Too small: expected string to have >=1 characters")] else []

def ofPositive (path : String) (value : ℤ) : List WorkIssue :=
  if 0 < value then [] else [(path, "Too small: expected number to be >0")]

def ofNonnegative (path : String) (value : ℤ) : List WorkIssue :=
  if 0 ≤ value then [] else [(path, "Too small: expected number to be >=0")]

def ofDecimal (path value : String) : List WorkIssue :=
  if isDecimalText value then [] else [(path, "expected a plain decimal string")]

def ofCurrency (path value : String) : List WorkIssue :=
  if isAlphabeticCode value then [] else [(path, "expected an ISO-4217 alphabetic code")]

def ofRefinement (holds : Bool) (path message : String) : List WorkIssue :=
  if holds then [] else [(path, message)]

end WorkIssue

/-- What `safeParse` makes of its issues. -/
def refuseIssues (what : String) (issues : List WorkIssue) : WorkResult Unit :=
  Except.require (issues = []) (WorkError.validation (s!"invalid {what}: " ++
    "; ".intercalate (issues.map fun issue => issue.1 ++ ": " ++ issue.2)))

structure RecordTimeEntryInput where
  projectId : Option ProjectId := none
  counterpartyId : Option CounterpartyId := none
  economicEntityId : Option EntityId := none
  workedByUserId : Option String := none
  workedByCounterpartyId : Option CounterpartyId := none
  workedByLabel : String
  activityCode : Option String := none
  description : Option String := none
  workedOn : CalendarDate
  startedAt : Option Timestamp := none
  endedAt : Option Timestamp := none
  minutes : ℤ
  billable : Bool := true
  billableMinutes : Option ℤ := none
  billRateAmount : Option String := none
  costRateAmount : Option String := none
  currency : Option String := none
  createdByUserId : Option String := none

def instantPair (startedAt endedAt : Option Timestamp) : Bool :=
  startedAt.isNone == endedAt.isNone

def instantOrder (startedAt endedAt : Option Timestamp) : Bool :=
  startedAt.all fun start => endedAt.all fun stop => decide (start ≤ stop)

namespace RecordTimeEntryInput

variable (input : RecordTimeEntryInput)

def trimmed : RecordTimeEntryInput :=
  { input with
    workedByLabel := trim input.workedByLabel
    activityCode := input.activityCode.map trim
    description := input.description.map trim }

def issues : List WorkIssue :=
  input.workedByUserId.elim [] (WorkIssue.ofText "workedByUserId")
  ++ WorkIssue.ofText "workedByLabel" input.workedByLabel
  ++ input.activityCode.elim [] (WorkIssue.ofText "activityCode")
  ++ input.description.elim [] (WorkIssue.ofText "description")
  ++ WorkIssue.ofPositive "minutes" input.minutes
  ++ input.billableMinutes.elim [] (WorkIssue.ofNonnegative "billableMinutes")
  ++ input.billRateAmount.elim [] (WorkIssue.ofDecimal "billRateAmount")
  ++ input.costRateAmount.elim [] (WorkIssue.ofDecimal "costRateAmount")
  ++ input.currency.elim [] (WorkIssue.ofCurrency "currency")
  ++ input.createdByUserId.elim [] (WorkIssue.ofText "createdByUserId")
  ++ WorkIssue.ofRefinement (instantPair input.startedAt input.endedAt) "endedAt"
    "startedAt and endedAt are recorded together or not at all (time_entries_instant_pair_check)"
  ++ WorkIssue.ofRefinement (instantOrder input.startedAt input.endedAt) "endedAt"
    "endedAt must not precede startedAt (time_entries_instant_order_check)"
  ++ WorkIssue.ofRefinement
    (input.workedByUserId.isNone || input.workedByCounterpartyId.isNone) "workedByCounterpartyId"
    ("workedByUserId and workedByCounterpartyId are mutually exclusive " ++
      "(time_entries_worked_by_exclusive_check)")
  ++ WorkIssue.ofRefinement
    (!input.billable || input.projectId.isSome || input.counterpartyId.isSome) "billable"
    ("a billable entry needs a project or a counterparty " ++
      "(time_entries_billable_target_check)")
  ++ WorkIssue.ofRefinement
    (input.billableMinutes.all fun minutes => input.billable || minutes == 0) "billableMinutes"
    "billableMinutes must be 0 when billable is false (time_entries_billable_zero_check)"
  ++ WorkIssue.ofRefinement
    ((input.billRateAmount.isNone && input.costRateAmount.isNone) || input.currency.isSome)
    "currency" "currency is required when a manual rate is given"

/-- `recordSchema.safeParse`. -/
def parse : WorkResult RecordTimeEntryInput := do
  refuseIssues "time entry" input.trimmed.issues
  return input.trimmed

def rate (rates : List BillingRateRow) (ladder : RateResolutionInput) (manual : Option String)
    : RateResolutionResult :=
  match manual with
  | some amount => ⟨some (numericOf amount), input.currency, .manual, none⟩
  | none => resolveRate rates ladder

end RecordTimeEntryInput

/-- An absent field is left as it is; `some none` clears it. -/
structure UpdateTimeEntryInput where
  timeEntryId : TimeEntryId
  description : Option (Option String) := none
  activityCode : Option (Option String) := none
  minutes : Option ℤ := none
  billable : Option Bool := none
  billableMinutes : Option ℤ := none
  startedAt : Option (Option Timestamp) := none
  endedAt : Option (Option Timestamp) := none

namespace UpdateTimeEntryInput

variable (input : UpdateTimeEntryInput)

def trimmed : UpdateTimeEntryInput :=
  { input with
    description := input.description.map (Option.map trim)
    activityCode := input.activityCode.map (Option.map trim) }

def issues : List WorkIssue :=
  (input.description.getD none).elim [] (WorkIssue.ofText "description")
  ++ (input.activityCode.getD none).elim [] (WorkIssue.ofText "activityCode")
  ++ input.minutes.elim [] (WorkIssue.ofPositive "minutes")
  ++ input.billableMinutes.elim [] (WorkIssue.ofNonnegative "billableMinutes")

/-- `updateSchema.safeParse`. -/
def parse : WorkResult UpdateTimeEntryInput := do
  refuseIssues "time entry update" input.trimmed.issues
  return input.trimmed

def nextBillable (before : TimeEntryRow) : Bool := input.billable.getD before.billable

def nextBillableMinutes (before : TimeEntryRow) : ℤ :=
  input.billableMinutes.getD (if input.billable = some false then 0 else before.billableMinutes)

/-- The assignments of the `update`. -/
def assign (before : TimeEntryRow) (now : Timestamp) (row : TimeEntryRow) : TimeEntryRow :=
  { row with
    description := input.description.getD row.description
    activityCode := input.activityCode.getD row.activityCode
    minutes := input.minutes.getD row.minutes
    billable := input.billable.getD row.billable
    billableMinutes :=
      if input.billableMinutes.isSome ∨ input.billable = some false
      then input.nextBillableMinutes before else row.billableMinutes
    startedAt := input.startedAt.getD row.startedAt
    endedAt := input.endedAt.getD row.endedAt
    updatedAt := now }

def check (before : TimeEntryRow) : WorkResult Unit := do
  Except.require (before.lockedAt = none) (WorkError.boundary (s!"time entry \"{before.id}\" " ++
    "is locked (attached to an issued invoice line) and cannot be edited"))
  Except.require (input.nextBillable before ∨ input.nextBillableMinutes before = 0)
    (WorkError.validation ("billableMinutes must be 0 when billable is false " ++
      "(time_entries_billable_zero_check)"))
  Except.require (instantPair (input.startedAt.getD before.startedAt)
      (input.endedAt.getD before.endedAt))
    (WorkError.validation ("startedAt and endedAt are recorded together or not at all " ++
      "(time_entries_instant_pair_check)"))
  Except.require (instantOrder (input.startedAt.getD before.startedAt)
      (input.endedAt.getD before.endedAt))
    (WorkError.validation ("endedAt must not precede startedAt " ++
      "(time_entries_instant_order_check)"))

end UpdateTimeEntryInput

/-! ## The tables -/

/-- The largest `integer`. -/
def integerLimit : ℤ := 2147483647

/-- What the operations read and write. -/
structure WorkTables where
  users : List String
  counterparties : List CounterpartyId
  economicEntities : List EntityId
  projects : List ProjectRow
  billingRates : List BillingRateRow
  timeEntries : List TimeEntryRow

def TimeEntryRow.approved (approvedByUserId : String) (now : Timestamp) (row : TimeEntryRow) :
    TimeEntryRow :=
  { row with approvedAt := some now, approvedByUserId := some approvedByUserId, updatedAt := now }

def TimeEntryRow.rerated (bill cost : RateResolutionResult) (now : Timestamp) (row : TimeEntryRow)
    : TimeEntryRow :=
  { row with
    billRateAmount := bill.amount
    billRateSource := bill.source
    costRateAmount := cost.amount
    costRateSource := cost.source
    billingRateId := bill.billingRateId
    currency := bill.currency.or cost.currency
    updatedAt := now }

def TimeEntryRow.locked (now : Timestamp) (row : TimeEntryRow) : TimeEntryRow :=
  { row with lockedAt := some now }

def TimeEntryRow.refusal (row : TimeEntryRow) : Option String :=
  let checks : List (String × Bool) :=
    [("integer out of range",
        decide (row.minutes ≤ integerLimit ∧ row.billableMinutes ≤ integerLimit)),
      ("numeric field overflow", [row.billRateAmount, row.costRateAmount].all fun amount =>
        amount.all fun value => decide (value.natAbs < numericLimit)),
      ("time_entries_bill_rate_pair_check",
        row.billRateAmount.isNone == (row.billRateSource == .unresolved)),
      ("time_entries_billable_minutes_check", decide (0 ≤ row.billableMinutes)),
      ("time_entries_billable_target_check",
        !row.billable || row.projectId.isSome || row.counterpartyId.isSome),
      ("time_entries_billable_zero_check", row.billable || row.billableMinutes == 0),
      ("time_entries_cost_rate_pair_check",
        row.costRateAmount.isNone == (row.costRateSource == .unresolved)),
      ("time_entries_currency_pair_check",
        row.currency.isNone == (row.billRateAmount.isNone && row.costRateAmount.isNone)),
      ("time_entries_instant_order_check", instantOrder row.startedAt row.endedAt),
      ("time_entries_instant_pair_check", instantPair row.startedAt row.endedAt),
      ("time_entries_minutes_check", decide (0 < row.minutes)),
      ("time_entries_worked_by_exclusive_check",
        row.workedByUserId.isNone || row.workedByCounterpartyId.isNone)]
  (checks.find? fun check => !check.2).map (·.1)

namespace WorkTables

variable (t : WorkTables)

def entry (id : TimeEntryId) : Option TimeEntryRow :=
  KeyedTable.get TimeEntryRow.id t.timeEntries id

def danglingKey (row : TimeEntryRow) : Option String :=
  let keys : List (String × Bool) :=
    [("project_id", row.projectId.all fun id => t.projects.any (·.id == id)),
      ("counterparty_id", row.counterpartyId.all (t.counterparties.contains ·)),
      ("economic_entity_id", row.economicEntityId.all (t.economicEntities.contains ·)),
      ("worked_by_user_id", row.workedByUserId.all (t.users.contains ·)),
      ("worked_by_counterparty_id", row.workedByCounterpartyId.all (t.counterparties.contains ·)),
      ("billing_rate_id", row.billingRateId.all fun id => t.billingRates.any (·.id == id)),
      ("approved_by_user_id", row.approvedByUserId.all (t.users.contains ·)),
      ("created_by_user_id", row.createdByUserId.all (t.users.contains ·))]
  (keys.find? fun key => !key.2).map (·.1)

def checkRow (row : TimeEntryRow) : WorkResult Unit :=
  match row.refusal, t.danglingKey row with
  | some check, _ => .error (.database check)
  | none, some key => .error (.database s!"time_entries_{key}_fk")
  | none, none => .ok ()

def load (id : TimeEntryId) : WorkResult TimeEntryRow :=
  match t.entry id with
  | some row => .ok row
  | none => .error (.notFound s!"unknown time entry \"{id}\"")

def loadProjectDefaults (id : ProjectId) : WorkResult ProjectRow :=
  match t.projects.find? (·.id == id) with
  | some row => .ok row
  | none => .error (.notFound s!"unknown project \"{id}\"")

def written (id : TimeEntryId) (assign : TimeEntryRow → TimeEntryRow) : WorkTables :=
  { t with timeEntries := KeyedTable.set TimeEntryRow.id t.timeEntries id assign }

def insertEntry (row : TimeEntryRow) : WorkResult WorkTables := do
  Except.require (t.entry row.id = none) (WorkError.database "time_entries_pkey")
  t.checkRow row
  return { t with timeEntries := t.timeEntries ++ [row] }

/-- `update time_entries set ... where id`. -/
def updateEntry (id : TimeEntryId) (assign : TimeEntryRow → TimeEntryRow) :
    WorkResult WorkTables := do
  match t.entry id with
  | some row => t.checkRow (assign row)
  | none => return t
  return t.written id assign

/-! ## The operations -/

def attribution (value : RecordTimeEntryInput) :
    WorkResult (Option CounterpartyId × Option EntityId) :=
  match value.projectId, value.counterpartyId with
  | some project, none => do
    let defaults ← t.loadProjectDefaults project
    return (defaults.counterpartyId, value.economicEntityId.or defaults.economicEntityId)
  | _, counterparty => .ok (counterparty, value.economicEntityId)

def recordedCurrency (bill cost : RateResolutionResult) : WorkResult (Option String) := do
  Except.require (¬ (bill.currency.isSome ∧ cost.currency.isSome ∧ bill.currency ≠ cost.currency))
    (WorkError.validation ("bill/cost rate currency mismatch: bill resolved in " ++
      s!"\"{bill.currencyText}\", cost resolved in \"{cost.currencyText}\" — one " ++
      "time_entries.currency column cannot hold both"))
  Except.require
    ((bill.amount = none ∧ cost.amount = none) ∨ bill.currency.or cost.currency ≠ none)
    (WorkError.validation "currency could not be determined for a resolved rate")
  return bill.currency.or cost.currency

def record (input : RecordTimeEntryInput) (id : TimeEntryId) (now : Timestamp) :
    WorkResult (TimeEntryRow × WorkTables) := do
  let value ← input.parse
  let (counterpartyId, economicEntityId) ← t.attribution value
  let ladder (rateKind : RateKind) : RateResolutionInput :=
    { rateKind, projectId := value.projectId, counterpartyId,
      workedByUserId := value.workedByUserId,
      workedByCounterpartyId := value.workedByCounterpartyId,
      activityCode := value.activityCode, workedOn := value.workedOn }
  let bill := value.rate t.billingRates (ladder .bill) value.billRateAmount
  let cost := value.rate t.billingRates (ladder .cost) value.costRateAmount
  let currency ← recordedCurrency bill cost
  let row : TimeEntryRow :=
    { id, projectId := value.projectId, counterpartyId, economicEntityId,
      workedByUserId := value.workedByUserId,
      workedByCounterpartyId := value.workedByCounterpartyId,
      workedByLabel := value.workedByLabel,
      activityCode := value.activityCode,
      description := value.description,
      workedOn := value.workedOn,
      startedAt := value.startedAt,
      endedAt := value.endedAt,
      minutes := value.minutes,
      billable := value.billable,
      billableMinutes := value.billableMinutes.getD (if value.billable then value.minutes else 0),
      currency,
      billRateAmount := bill.amount,
      billRateSource := bill.source,
      costRateAmount := cost.amount,
      costRateSource := cost.source,
      billingRateId := bill.billingRateId,
      createdByUserId := value.createdByUserId,
      createdAt := now,
      updatedAt := now }
  let t ← t.insertEntry row
  return (row, t)

def update (input : UpdateTimeEntryInput) (now : Timestamp) :
    WorkResult (TimeEntryRow × WorkTables) := do
  let value ← input.parse
  let before ← t.load value.timeEntryId
  value.check before
  let t ← t.updateEntry before.id (value.assign before now)
  let row ← t.load before.id
  return (row, t)

def approve (id : TimeEntryId) (approvedByUserId : String) (now : Timestamp) :
    WorkResult (TimeEntryRow × WorkTables) := do
  let before ← t.load id
  Except.require (before.lockedAt = none)
    (WorkError.boundary s!"time entry \"{before.id}\" is locked and cannot be re-approved")
  let t ← t.updateEntry before.id (TimeEntryRow.approved approvedByUserId now)
  let row ← t.load before.id
  return (row, t)

def ladderOf (before : TimeEntryRow) (rateKind : RateKind) : RateResolutionInput where
  rateKind
  projectId := before.projectId
  counterpartyId := before.counterpartyId
  workedByUserId := before.workedByUserId
  workedByCounterpartyId := before.workedByCounterpartyId
  activityCode := before.activityCode
  workedOn := before.workedOn

def reresolveRates (id : TimeEntryId) (now : Timestamp) :
    WorkResult (TimeEntryRow × WorkTables) := do
  let before ← t.load id
  Except.require (before.lockedAt = none)
    (WorkError.boundary s!"time entry \"{before.id}\" is locked and cannot be re-resolved")
  let bill := resolveRate t.billingRates (ladderOf before .bill)
  let cost := resolveRate t.billingRates (ladderOf before .cost)
  Except.require (¬ (bill.amount.isSome ∧ cost.amount.isSome ∧ bill.currency ≠ cost.currency))
    (WorkError.validation ("bill/cost rate currency mismatch on re-resolution: bill in " ++
      s!"\"{bill.currencyText}\", cost in \"{cost.currencyText}\""))
  let t ← t.updateEntry before.id (TimeEntryRow.rerated bill cost now)
  let row ← t.load before.id
  return (row, t)

def writeRate (rate : BillingRateRow) : WorkTables :=
  { t with
    billingRates := KeyedTable.upsert BillingRateRow.id t.billingRates rate fun _ => rate }

end WorkTables

/-! ## Calls in a row -/

inductive WorkCall
  | record (input : RecordTimeEntryInput) (id : TimeEntryId) (now : Timestamp)
  | update (input : UpdateTimeEntryInput) (now : Timestamp)
  | approve (id : TimeEntryId) (approvedByUserId : String) (now : Timestamp)
  | reresolveRates (id : TimeEntryId) (now : Timestamp)

namespace WorkCall

def target : WorkCall → TimeEntryId
  | record _ id _ => id
  | update input _ => input.timeEntryId
  | approve id _ _ => id
  | reresolveRates id _ => id

/-- Whether the call gives `billableMinutes`. -/
def statesMinutes : WorkCall → Bool
  | record input _ _ => input.billableMinutes.isSome
  | update input _ => input.billableMinutes.isSome
  | _ => false

def body (t : WorkTables) : WorkCall → WorkResult (TimeEntryRow × WorkTables)
  | record input id now => t.record input id now
  | update input now => t.update input now
  | approve id user now => t.approve id user now
  | reresolveRates id now => t.reresolveRates id now

end WorkCall

/-- `db.transaction`: what a refused call wrote is rolled back. -/
def WorkTables.transaction (t : WorkTables) (call : WorkCall) :
    WorkResult TimeEntryRow × WorkTables :=
  match call.body t with
  | .ok (row, t') => (.ok row, t')
  | .error e => (.error e, t)

inductive WorkAction
  | call (call : WorkCall)
  | lock (id : TimeEntryId) (now : Timestamp)
  | writeRate (rate : BillingRateRow)

structure WorkSystem where
  tables : WorkTables
  stated : List TimeEntryId

namespace WorkSystem

/-- Nothing is recorded yet. -/
def start (t : WorkTables) : WorkSystem := ⟨{ t with timeEntries := [] }, []⟩

def step (s : WorkSystem) : WorkAction → WorkSystem
  | .call call =>
    { tables := (s.tables.transaction call).2
      stated := if call.statesMinutes then call.target :: s.stated else s.stated }
  | .lock id now => { s with tables := s.tables.written id (TimeEntryRow.locked now) }
  | .writeRate rate => { s with tables := s.tables.writeRate rate }

end WorkSystem

end Loxep

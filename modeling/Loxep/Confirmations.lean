import Loxep.Expenses
import Loxep.InventoryItems

/-!
# Confirming candidates into stock

A candidate of disposition `acquisition_cost` is confirmed as a goods cost of a lot, one of
disposition `inventory_intake` as an item of the lot that is seeded with its amount. Both go to the
acquisition that is named, or to a new one, and stamp the candidate once.
-/

namespace Loxep

structure ConfirmTables extends FactTables where
  connections : List ConnectionRow
  documents : List DocumentRow
  candidates : List DocumentLineCandidateRow

structure ConfirmInput where
  now : Timestamp
  newAcquisitionId : AcquisitionId
  documentId : DocumentId
  candidateIds : List CandidateId
  acquisitionId : Option AcquisitionId := none
  title : Option String := none
  sourceKind : Option String := none
  vendorName : Option String := none
  currency : Option String := none
  defaultCurrency : String := "USD"
  economicEntityId : Option EntityId := none
  acquiredAt : Option CalendarDate := none

/-- `confirmInputSchema` and `intakeInputSchema`. -/
def parseConfirm (label : String) (value : ConfirmInput) : InventoryResult Unit := do
  let invalid := fun field => InventoryError.validation s!"invalid {label} input: {field}"
  Except.require (value.candidateIds ≠ []) (invalid "candidateIds")
  Except.require (∀ title ∈ value.title, trim title ≠ "") (invalid "title")
  Except.require (∀ kind ∈ value.sourceKind, trim kind ≠ "") (invalid "sourceKind")
  Except.require (∀ name ∈ value.vendorName, trim name ≠ "") (invalid "vendorName")
  Except.require (∀ code ∈ value.currency, isCurrencyCode (trim code) = true) (invalid "currency")
  Except.require (isCurrencyCode (trim value.defaultCurrency) = true) (invalid "defaultCurrency")

/-- Midnight UTC of the day. -/
def dateFromCalendarDate (date : CalendarDate) : Timestamp := ⟨date, 0⟩

abbrev Confirmable := DocumentLineCandidateRow × Money

namespace ConfirmTables

variable (s : ConfirmTables)

def confirmable (accepts : DocumentLineCandidateRow → Bool) (documentId : DocumentId)
    (id : CandidateId) : Option Confirmable :=
  match s.candidates.find? (·.id == id) with
  | none => none
  | some candidate =>
    if candidate.documentId ≠ documentId then none
    else if candidate.confirmedAt.isSome then none
    else if !accepts candidate then none
    else candidate.lineAmount.map fun amount => (candidate, amount)

def confirmables (accepts : DocumentLineCandidateRow → Bool) (value : ConfirmInput) :
    List Confirmable :=
  value.candidateIds.filterMap (s.confirmable accepts value.documentId)

def resolveAcquisitionTarget (value : ConfirmInput) (document : DocumentRow) :
    InventoryResult (AcquisitionRow × FactTables) :=
  match value.acquisitionId with
  | some id => do
    let acquisition ← s.loadAcquisition id
    Except.require (acquisition.status ≠ "cancelled")
      (InventoryError.conflict (s!"cannot confirm candidates into \"{acquisition.referenceCode}\": " ++
        "it is cancelled. Pick a different lot, or create a new draft."))
    return (acquisition, s.toFactTables)
  | none => do
    Except.require value.title.isSome
      (InventoryError.validation ("confirming candidates into an acquisition requires a title to " ++
        "create a new one (omit it only when passing an existing acquisitionId)"))
    s.createAcquisition s.connections value.now
      { id := value.newAcquisitionId
        title := value.title.getD ""
        sourceKind := (value.sourceKind.map trim).getD "other"
        currency := ((value.currency.map trim).or document.currency).getD
          (trim value.defaultCurrency)
        vendorName := value.vendorName.or document.counterpartyName
        economicEntityId := value.economicEntityId.or document.economicEntityId
        acquiredAt := (value.acquiredAt.or document.documentDate).map dateFromCalendarDate }

def bookCosts (costId : ℕ → FactId) (acquisition : AcquisitionRow) :
    ℕ → List Confirmable → FactTables → InventoryResult (List AcquisitionCostRow × FactTables)
  | _, [], t => .ok ([], t)
  | index, (candidate, amount) :: rest, t => do
    let (cost, t) ← t.addCost
      { id := costId index
        acquisitionId := acquisition.id
        costType := "goods"
        costClass := .goods
        amount := amount
        currency := some acquisition.currency
        incurredAt := candidate.lineDate.map dateFromCalendarDate }
    let (costs, t) ← bookCosts costId acquisition (index + 1) rest t
    return (cost :: costs, t)

def intakeQuantity (candidate : DocumentLineCandidateRow) : Money :=
  match candidate.quantity with
  | none => moneyUnits
  | some quantity => if 0 < quantity then quantity else moneyUnits

def createItems (ids : ℕ → CreateItemIds) (now : Timestamp) (locationId : Option LocationId)
    (acquisition : AcquisitionRow) :
    ℕ → List Confirmable → FactTables → InventoryResult (List InventoryItemRow × FactTables)
  | _, [], t => .ok ([], t)
  | index, (candidate, amount) :: rest, t => do
    let (item, t) ← createItem t now (ids index)
      { label := candidate.description.getD ""
        currency := acquisition.currency
        acquisitionId := some acquisition.id
        locationId := locationId
        quantity := intakeQuantity candidate
        acquisitionCostAmount := some amount
        acquiredAt := candidate.lineDate.map dateFromCalendarDate }
    let (items, t) ← createItems ids now locationId acquisition (index + 1) rest t
    return (item :: items, t)

def stampCandidates (now : Timestamp) (kind : CandidateTargetKind)
    (targets : List (CandidateId × ℕ)) : List DocumentLineCandidateRow :=
  targets.foldl (fun candidates target =>
    stampCandidate candidates target.1 now kind target.2) s.candidates

def loadDocument (id : DocumentId) : InventoryResult DocumentRow :=
  match s.documents.find? (·.id == id) with
  | none => .error (.notFound s!"unknown document \"{id}\"")
  | some document => .ok document

/-- `CONFIRMABLE_AS_ACQUISITION_DISPOSITIONS`. -/
def acceptsCost (candidate : DocumentLineCandidateRow) : Bool :=
  candidate.disposition == .acquisitionCost

/-- `CONFIRMABLE_AS_INTAKE_DISPOSITIONS`, and a description to label the item with. -/
def acceptsIntake (candidate : DocumentLineCandidateRow) : Bool :=
  candidate.disposition == .inventoryIntake && candidate.description.isSome

def confirmCosts (costId : ℕ → FactId) (value : ConfirmInput) (document : DocumentRow)
    (confirmable : List Confirmable) :
    InventoryResult (AcquisitionRow × List AcquisitionCostRow × ConfirmTables) := do
  let (acquisition, t) ← s.resolveAcquisitionTarget value document
  let (costs, t) ← bookCosts costId acquisition 0 confirmable t
  return (acquisition, costs, { s with
    toFactTables := t
    candidates := s.stampCandidates value.now .acquisition
      (confirmable.map fun c => (c.1.id, acquisition.id)) })

def confirmItems (ids : ℕ → CreateItemIds) (value : ConfirmInput) (locationId : Option LocationId)
    (document : DocumentRow) (confirmable : List Confirmable) :
    InventoryResult (AcquisitionRow × List InventoryItemRow × ConfirmTables) := do
  let (acquisition, t) ← s.resolveAcquisitionTarget value document
  let (items, t) ← createItems ids value.now locationId acquisition 0 confirmable t
  return (acquisition, items, { s with
    toFactTables := t
    candidates := s.stampCandidates value.now .inventoryItem
      ((confirmable.map (·.1.id)).zip (items.map (·.id))) })

structure ConfirmResult (α : Type) where
  acquisition : Option AcquisitionRow
  created : List α
  skipped : ℕ

def confirmOrSkip {α : Type} (value : ConfirmInput) (confirmable : List Confirmable)
    (confirmed : InventoryResult (AcquisitionRow × List α × ConfirmTables)) :
    InventoryResult (ConfirmResult α × ConfirmTables) :=
  let skipped := value.candidateIds.length - confirmable.length
  if confirmable.isEmpty ∧ value.acquisitionId = none then .ok (⟨none, [], skipped⟩, s)
  else confirmed.map fun r => (⟨some r.1, r.2.1, skipped⟩, r.2.2)

def confirmCandidatesAsAcquisition (costId : ℕ → FactId) (value : ConfirmInput) :
    InventoryResult (ConfirmResult AcquisitionCostRow × ConfirmTables) := do
  parseConfirm "confirm-candidates-as-acquisition" value
  let document ← s.loadDocument value.documentId
  let confirmable := s.confirmables acceptsCost value
  s.confirmOrSkip value confirmable (s.confirmCosts costId value document confirmable)

def confirmCandidatesAsIntake (ids : ℕ → CreateItemIds) (value : ConfirmInput)
    (locationId : Option LocationId) :
    InventoryResult (ConfirmResult InventoryItemRow × ConfirmTables) := do
  parseConfirm "confirm-candidates-as-intake" value
  let document ← s.loadDocument value.documentId
  let confirmable := s.confirmables acceptsIntake value
  s.confirmOrSkip value confirmable (s.confirmItems ids value locationId document confirmable)

end ConfirmTables

inductive ConfirmAction
  | createAcquisition (now : Timestamp) (input : CreateAcquisitionInput)
  | create (now : Timestamp) (ids : CreateItemIds) (input : CreateItemInput)
  | asAcquisition (costId : ℕ → FactId) (input : ConfirmInput)
  | asIntake (ids : ℕ → CreateItemIds) (input : ConfirmInput) (locationId : Option LocationId)

namespace ConfirmTables

def execute (s : ConfirmTables) : ConfirmAction → InventoryResult ConfirmTables
  | .createAcquisition now input =>
    (s.toFactTables.createAcquisition s.connections now input).map fun r =>
      { s with toFactTables := r.2 }
  | .create now ids input =>
    (createItem s.toFactTables now ids input).map fun r => { s with toFactTables := r.2 }
  | .asAcquisition costId input => (s.confirmCandidatesAsAcquisition costId input).map (·.2)
  | .asIntake ids input locationId =>
    (s.confirmCandidatesAsIntake ids input locationId).map (·.2)

/-- A call that raises rolls its transaction back. -/
def step (s : ConfirmTables) (action : ConfirmAction) : ConfirmTables :=
  match s.execute action with
  | .ok t => t
  | .error _ => s

end ConfirmTables

/-!
## Confirming and editing candidates side by side

A confirmation reads its candidates one after another without a lock, writes its records and stamps
the candidates. An edit reads the candidate, refuses a confirmed one, and writes. What writes a
candidate looks at its key alone, so the writes of a transaction take effect together, at its
commit.
-/

/-- What an expense line, a cost or an item holds of a candidate. -/
structure CandidateEntry where
  candidateId : CandidateId
  kind : CandidateTargetKind
  targetId : ℕ
  amount : Money

inductive ConfirmRoute
  | expense (input : ConfirmExpenseInput)
  | acquisition (costId : ℕ → FactId) (input : ConfirmInput)
  | intake (ids : ℕ → CreateItemIds) (input : ConfirmInput) (locationId : Option LocationId)

namespace ConfirmRoute

def documentId : ConfirmRoute → DocumentId
  | .expense input => input.documentId
  | .acquisition _ input | .intake _ input _ => input.documentId

def candidateIds : ConfirmRoute → List CandidateId
  | .expense input => input.candidateIds
  | .acquisition _ input | .intake _ input _ => input.candidateIds

def namesTarget : ConfirmRoute → Bool
  | .expense input => input.expenseId.isSome
  | .acquisition _ input | .intake _ input _ => input.acquisitionId.isSome

def parse : ConfirmRoute → Bool
  | .expense input => input.candidateIds ≠ []
  | .acquisition _ input =>
    Except.returns (parseConfirm "confirm-candidates-as-acquisition" input)
  | .intake _ input _ => Except.returns (parseConfirm "confirm-candidates-as-intake" input)

end ConfirmRoute

/-- A field that is not given stays, and one that is given as null is cleared. -/
structure UpdateLineInput where
  candidateId : CandidateId
  description : Option (Option String) := none
  quantity : Option (Option Money) := none
  unitAmount : Option (Option Money) := none
  lineAmount : Option (Option Money) := none
  lineDate : Option (Option CalendarDate) := none

/-- The calls that `assertEditable` guards. -/
inductive CandidateEdit
  | setDisposition (candidateId : CandidateId) (disposition : Disposition)
  | updateLine (input : UpdateLineInput)
  | removeLine (candidateId : CandidateId)

namespace CandidateEdit

def candidateId : CandidateEdit → CandidateId
  | .setDisposition id _ | .removeLine id => id
  | .updateLine input => input.candidateId

def parse : CandidateEdit → Bool
  | .updateLine input => decide (∀ given ∈ input.description, ∀ text ∈ given, trim text ≠ "")
  | _ => true

end CandidateEdit

/-- A call of `stampConfirmed`, with the amount of the record that its caller has written in the
same transaction. -/
structure StampConfirmedInput where
  candidateId : CandidateId
  targetKind : CandidateTargetKind
  targetId : ℕ
  now : Timestamp
  record : Option Money := none

def StampConfirmedInput.entry (input : StampConfirmedInput) : List CandidateEntry :=
  input.record.toList.map fun amount =>
    ⟨input.candidateId, input.targetKind, input.targetId, amount⟩

structure CandidateTables where
  expenses : ExpenseTables
  stock : ConfirmTables
  documents : List DocumentRow
  candidates : List DocumentLineCandidateRow

namespace CandidateTables

variable (s : CandidateTables)

def find (id : CandidateId) : Option DocumentLineCandidateRow := s.candidates.find? (·.id == id)

/-- The tables as `@loxep/accounting` sees them. -/
def atExpenses : ExpenseTables :=
  { s.expenses with documents := s.documents, candidates := s.candidates }

/-- The tables as `@loxep/inventory` sees them. -/
def atStock : ConfirmTables :=
  { s.stock with documents := s.documents, candidates := s.candidates }

def confirmable (route : ConfirmRoute) (id : CandidateId) : Option Confirmable :=
  match route with
  | .expense input => s.atExpenses.confirmable input.documentId id
  | .acquisition _ input => s.atStock.confirmable ConfirmTables.acceptsCost input.documentId id
  | .intake _ input _ => s.atStock.confirmable ConfirmTables.acceptsIntake input.documentId id

def lineEntries (lines : List ExpenseLineRow) : List CandidateEntry :=
  lines.filterMap fun line => line.documentLineCandidateId.map fun id =>
    ⟨id, .expense, line.expenseId, line.lineAmount⟩

def costEntries (confirmable : List Confirmable) (costs : List AcquisitionCostRow) :
    List CandidateEntry :=
  confirmable.zipWith (fun c cost =>
    ⟨c.1.id, .acquisition, cost.acquisitionId, cost.amount⟩) costs

def itemEntries (confirmable : List Confirmable) (items : List InventoryItemRow) :
    List CandidateEntry :=
  confirmable.zipWith (fun c item =>
    ⟨c.1.id, .inventoryItem, item.id, item.acquisitionCostAmount⟩) items

def confirm (route : ConfirmRoute) (document : DocumentRow) (confirmable : List Confirmable) :
    Option (CandidateTables × List CandidateEntry) :=
  if confirmable.isEmpty ∧ route.namesTarget = false then some (s, [])
  else match route with
    | .expense input => do
      let t ← (s.atExpenses.confirmOnto input document confirmable).toOption
      -- `expense_lines_document_line_candidate_fk`
      Option.guard (fun _ => decide (∀ c ∈ confirmable, (s.find c.1.id).isSome = true)) ()
      return ({ s with expenses := t, candidates := t.candidates },
        lineEntries (t.lines.drop s.expenses.lines.length))
    | .acquisition costId input => do
      let (_, costs, t) ← (s.atStock.confirmCosts costId input document confirmable).toOption
      return ({ s with stock := t, candidates := t.candidates }, costEntries confirmable costs)
    | .intake ids input locationId => do
      let (_, items, t) ←
        (s.atStock.confirmItems ids input locationId document confirmable).toOption
      return ({ s with stock := t, candidates := t.candidates }, itemEntries confirmable items)

def updateCandidate (id : CandidateId) (f : DocumentLineCandidateRow → DocumentLineCandidateRow) :
    CandidateTables :=
  { s with candidates := s.candidates.map fun c => if c.id = id then f c else c }

/-- What an edit writes; a row that is gone is missed by the read that ends `setDisposition` and
`updateLine`. -/
def edit : CandidateEdit → Option CandidateTables
  | .setDisposition id disposition =>
    if (s.find id).isSome then
      some (s.updateCandidate id fun c => { c with disposition := disposition })
    else none
  | .updateLine input =>
    if (s.find input.candidateId).isSome then
      some (s.updateCandidate input.candidateId fun c =>
        { c with
          description := (input.description.map (·.map trim)).getD c.description
          quantity := input.quantity.getD c.quantity
          unitAmount := input.unitAmount.getD c.unitAmount
          lineAmount := input.lineAmount.getD c.lineAmount
          lineDate := input.lineDate.getD c.lineDate })
    else none
  | .removeLine id =>
    some { s with
      candidates := s.candidates.filter (·.id ≠ id)
      -- the lines' foreign key is set to null
      expenses := { s.expenses with
        lines := s.expenses.lines.map fun line =>
          if line.documentLineCandidateId = some id then
            { line with documentLineCandidateId := none }
          else line } }

/-- What `stampConfirmed` writes. -/
def stampConfirmed (input : StampConfirmedInput) : Option CandidateTables :=
  if (s.find input.candidateId).isSome then
    some { s with
      candidates := stampCandidate s.candidates input.candidateId input.now input.targetKind
        input.targetId }
  else none

end CandidateTables

/-- How far a session's transaction has come. -/
inductive CandidateStage
  | idle
  /-- A confirmation with the candidates it has yet to read, and those it has taken. -/
  | reading (route : ConfirmRoute) (document : DocumentRow) (left : List CandidateId)
    (confirmable : List Confirmable)
  /-- The candidate was read, and is editable. -/
  | editing (edit : CandidateEdit)
  /-- The candidate was read, and is not confirmed. -/
  | stamping (input : StampConfirmedInput)
  /-- The candidate was read, and bears this very stamp. -/
  | stamped (input : StampConfirmedInput)

abbrev CandidateSessionId := ℕ

inductive CandidateAction
  | confirm (session : CandidateSessionId) (route : ConfirmRoute)
  | edit (session : CandidateSessionId) (edit : CandidateEdit)
  | stampConfirmed (session : CandidateSessionId) (input : StampConfirmedInput)
  | read (session : CandidateSessionId)
  | commit (session : CandidateSessionId)
  | abort (session : CandidateSessionId)

structure CandidateSystem where
  tables : CandidateTables
  entered : List CandidateEntry := []
  stage : CandidateSessionId → CandidateStage := fun _ => .idle

namespace CandidateSystem

variable (s : CandidateSystem)

def setStage (session : CandidateSessionId) (stage : CandidateStage) : CandidateSystem :=
  { s with stage := fun other => if other = session then stage else s.stage other }

def committed (tables : CandidateTables) (entries : List CandidateEntry) : CandidateSystem :=
  { s with tables := tables, entered := s.entered ++ entries }

def written (session : CandidateSessionId) : Option (CandidateTables × List CandidateEntry) :=
  match s.stage session with
  | .idle => none
  | .reading _ _ (_ :: _) _ => none
  | .reading route document [] confirmable => s.tables.confirm route document confirmable
  | .editing edit => (s.tables.edit edit).map (·, [])
  | .stamping input => (s.tables.stampConfirmed input).map (·, input.entry)
  | .stamped input => some (s.tables, input.entry)

def beginConfirm (route : ConfirmRoute) : Option CandidateStage :=
  if route.parse then
    (s.tables.documents.find? (·.id == route.documentId)).map fun document =>
      .reading route document route.candidateIds []
  else none

/-- An edit up to its check, `assertEditable`. -/
def beginEdit (edit : CandidateEdit) : Option CandidateStage :=
  if edit.parse then
    (s.tables.find edit.candidateId).bind fun before =>
      if before.confirmedAt.isSome then none else some (.editing edit)
  else none

/-- `stampConfirmed` up to its check. -/
def beginStamp (input : StampConfirmedInput) : Option CandidateStage :=
  (s.tables.find input.candidateId).bind fun before =>
    if before.confirmedAt.isSome then
      if before.targetKind = some input.targetKind ∧ before.targetId = some input.targetId then
        some (.stamped input)
      else none
    else some (.stamping input)

def begin (session : CandidateSessionId) (stage : Option CandidateStage) : CandidateSystem :=
  match s.stage session, stage with
  | .idle, some stage => s.setStage session stage
  | _, _ => s

def read (session : CandidateSessionId) : CandidateSystem :=
  match s.stage session with
  | .reading route document (id :: left) confirmable =>
    s.setStage session (.reading route document left
      (confirmable ++ (s.tables.confirmable route id).toList))
  | _ => s

/-- What fails rolls its transaction back. -/
def commit (session : CandidateSessionId) : CandidateSystem :=
  match s.written session with
  | some (tables, entries) => (s.committed tables entries).setStage session .idle
  | none => s.setStage session .idle

def step : CandidateAction → CandidateSystem
  | .confirm session route => s.begin session (s.beginConfirm route)
  | .edit session edit => s.begin session (s.beginEdit edit)
  | .stampConfirmed session input => s.begin session (s.beginStamp input)
  | .read session => s.read session
  | .commit session => s.commit session
  | .abort session => s.setStage session .idle

end CandidateSystem

end Loxep

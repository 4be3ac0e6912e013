import Loxep.Books
import Loxep.Lib.Ancestry

/-!
# Economic entities

A person, a business or an operating identity, with at most one parent it is part of. A change of
parent is validated by a walk up from the new one, which finds a cycle and stops at a depth.
-/

namespace Loxep

inductive EconomicEntityKind
  | individual
  | soleProprietorship
  | llc
  | partnership
  | corporation
  | assumedName
  | operatingUnit
  | other

structure EntityRow extends EconomicEntityRow where
  name : String
  kind : EconomicEntityKind
  legalName : Option String

inductive DomainErrorClass
  | domainValidation
  | entityNotFound
  | entityHierarchy
  | database

structure DomainError where
  errorClass : DomainErrorClass
  message : String

structure CreateEntityInput where
  name : String
  kind : EconomicEntityKind
  parentEntityId : Option EntityId
  legalName : Option String

structure UpdateEntityPatch where
  name : Option String
  kind : Option EconomicEntityKind
  parentEntityId : Option (Option EntityId)
  legalName : Option (Option String)

def maxParentDepth : ℕ := 32

/-- `z.string().trim().min(1)`, under the message of the call. -/
def parseEntityText (context path value : String) : Except DomainError String :=
  if trim value = "" then .error ⟨.domainValidation, s!"{context}: {path}"⟩ else .ok (trim value)

def parseOptionalEntityText (context path : String) :
    Option String → Except DomainError (Option String)
  | none => .ok none
  | some value => do
    let parsed ← parseEntityText context path value
    return some parsed

section Parents

variable (entities : List EntityRow)

def findEntity (id : EntityId) : Option EntityRow := entities.find? (·.id == id)

/-- `parent_entity_id` of a row. -/
def parentOf (id : EntityId) : Option EntityId := (findEntity entities id).bind (·.parentEntityId)

def walkParents (entityId : Option EntityId) (parentEntityId : EntityId) :
    ℕ → EntityId → Except DomainError Unit
  | 0, _ => .error ⟨.entityHierarchy, s!"parent chain above entity {parentEntityId} exceeds " ++
      s!"the maximum depth of {maxParentDepth}"⟩
  | left + 1, current =>
    match findEntity entities current with
    | none => .error ⟨.entityNotFound, s!"parent economic entity {current} does not exist"⟩
    | some row => do
      Except.require (entityId.isSome → row.parentEntityId ≠ entityId)
        (DomainError.mk .entityHierarchy (s!"setting parent {parentEntityId} on entity " ++
          s!"{entityId.getD 0} would create a cycle"))
      match row.parentEntityId with
      | none => .ok ()
      | some next => walkParents entityId parentEntityId left next

def assertParentValid (entityId : Option EntityId) (parentEntityId : EntityId) :
    Except DomainError Unit := do
  Except.require (entityId ≠ some parentEntityId)
    (DomainError.mk .entityHierarchy
      s!"economic entity {parentEntityId} cannot be its own parent")
  walkParents entities entityId parentEntityId maxParentDepth parentEntityId

def assertOptionalParentValid (entityId : Option EntityId) :
    Option EntityId → Except DomainError Unit
  | none => .ok ()
  | some parent => assertParentValid entities entityId parent

end Parents

def createEntity (entities : List EntityRow) (newId : EntityId) (input : CreateEntityInput) :
    Except DomainError (EntityRow × List EntityRow) := do
  let name ← parseEntityText "invalid economic entity" "name" input.name
  let legalName ← parseOptionalEntityText "invalid economic entity" "legalName" input.legalName
  assertOptionalParentValid entities none input.parentEntityId
  Except.require (newId ∉ entities.map (·.id))
    (DomainError.mk .database "economic_entities_pkey")
  let row : EntityRow := ⟨⟨newId, input.parentEntityId⟩, name, input.kind, legalName⟩
  return (row, entities ++ [row])

/-- What the upsert sets. -/
def patched (patch : UpdateEntityPatch) (name : Option String) (legalName : Option (Option String))
    (existing : EntityRow) : EntityRow :=
  { existing with
    name := name.getD existing.name
    kind := patch.kind.getD existing.kind
    parentEntityId := patch.parentEntityId.getD existing.parentEntityId
    legalName := legalName.getD existing.legalName }

def requireEntity (entities : List EntityRow) (id : EntityId) : Except DomainError EntityRow :=
  match findEntity entities id with
  | none => .error ⟨.entityNotFound, s!"economic entity {id} does not exist"⟩
  | some row => .ok row

/-- `legalName` of a patch, each of its texts parsed. -/
def parseLegalName : Option (Option String) → Except DomainError (Option (Option String))
  | none => .ok none
  | some value => do
    let parsed ← parseOptionalEntityText "invalid economic entity patch" "legalName" value
    return some parsed

def updateEntity (entities : List EntityRow) (id : EntityId) (patch : UpdateEntityPatch) :
    Except DomainError (EntityRow × List EntityRow) := do
  let name ← parseOptionalEntityText "invalid economic entity patch" "name" patch.name
  let legalName ← parseLegalName patch.legalName
  let existing ← requireEntity entities id
  assertOptionalParentValid entities (some id) patch.parentEntityId.join
  return (patched patch name legalName existing,
    entities.map fun e => if e.id = id then patched patch name legalName e else e)

/-!
## The links between books and entities

A `posting_primary` link routes an entity's facts to a book over a range of dates. A new one is
checked upward, against the book the parent routes to, and downward, against the links of every
descendant; a link's end can be set, and an entity can be moved under another parent.
-/

abbrev LinkId := ℕ

structure LinkRow extends BookEntityLinkRow where
  id : LinkId
  dimensionLabel : Option String
  note : Option String

structure LinkEntityInput where
  accountingBookId : BookId
  economicEntityId : EntityId
  linkRole : LinkRole
  effectiveFrom : CalendarDate
  effectiveTo : Option CalendarDate
  dimensionLabel : Option String
  note : Option String

structure EndLinkInput where
  bookEntityLinkId : LinkId
  effectiveTo : CalendarDate

structure RoutingTables where
  economicEntities : List EntityRow
  bookEntityLinks : List LinkRow

/-- `daterange(from, to, '[]') && daterange(from', to', '[]')`, an open end being infinity. -/
def rangesOverlap (a b : BookEntityLinkRow) : Bool :=
  b.effectiveTo.all (fun upper => decide (a.effectiveFrom ≤ upper)) &&
    a.effectiveTo.all fun upper => decide (b.effectiveFrom ≤ upper)

def invalidBookInput (path : String) : AccountingError := .validation s!"invalid book input: {path}"

/-- `z.string().trim().min(1).nullish()`. -/
def parseLinkText (path : String) : Option String → Result (Option String)
  | none => .ok none
  | some value =>
    if trim value = "" then .error (invalidBookInput path) else .ok (some (trim value))

namespace RoutingTables

variable (s : RoutingTables)

/-- The tables as routing reads them. -/
def setup (accountingBooks : List AccountingBookRow) : Setup where
  economicEntities := s.economicEntities.map (·.toEconomicEntityRow)
  accountingBooks := accountingBooks
  bookEntityLinks := s.bookEntityLinks.map (·.toBookEntityLinkRow)
  ledgerAccounts := []
  accountingDimensions := []
  fiscalPeriods := []
  defaultBookId := none

/-- The ancestors of an entity, nearest first. No entity is its own ancestor, so the walk has as
many steps at most as there are entities. -/
def ancestors (id : EntityId) : List EntityId :=
  Ancestry.ancestors (parentOf s.economicEntities)
    (s.economicEntities.map (·.id)).length id

def childrenOf (id : EntityId) : List EntityId :=
  (s.economicEntities.filter (·.parentEntityId == some id)).map (·.id)

/-- The rows a round of the recursive query over the descendants adds. -/
def descendantRound (id : EntityId) : ℕ → List EntityId
  | 0 => s.childrenOf id
  | n + 1 => (descendantRound id n).flatMap s.childrenOf

def conflictingDescendantLink (row : LinkRow) : Option LinkRow :=
  s.bookEntityLinks.find? fun link =>
    (s.ancestors link.economicEntityId).contains row.economicEntityId &&
      link.linkRole == .postingPrimary && link.accountingBookId != row.accountingBookId &&
      rangesOverlap link.toBookEntityLinkRow row.toBookEntityLinkRow

/-- `book_entity_links_primary_no_overlap`. -/
def primaryOverlap (row : LinkRow) : Bool :=
  row.linkRole == .postingPrimary && s.bookEntityLinks.any fun link =>
    link.id != row.id && link.economicEntityId == row.economicEntityId &&
      link.linkRole == .postingPrimary &&
      rangesOverlap link.toBookEntityLinkRow row.toBookEntityLinkRow

end RoutingTables

def bookCode (accountingBooks : List AccountingBookRow) (id : BookId) : String :=
  ((accountingBooks.find? (·.id == id)).map (·.code)).getD ""

def parentBookError (entity : EntityRow) (parentBook book : String) : AccountingError :=
  .validation (s!"\"{entity.name}\" is part of another economic entity whose " ++
    s!"postings go to book {parentBook}, so its own " ++
    s!"postings cannot go to {book}. A child entity's " ++
    "posting_primary book IS its parent's book (owner answer 1): " ++
    "an assumed name's activity is viewable on its own, and its " ++
    "totals land in the parent company's book. Record the " ++
    s!"separate view as a reporting_only link to {book}, or " ++
    "detach the entity from its parent if it is genuinely its " ++
    "own accounting subject.")

def descendantBookError (entity : EntityRow) (book descendant descendantBook : String) :
    AccountingError :=
  .validation (s!"\"{entity.name}\" cannot post to book {book} while its " ++
    s!"part \"{descendant}\" posts to " ++
    s!"{descendantBook} over the same dates. Roll-up requires " ++
    "one book for an entity and everything included in it; move " ++
    "the child link first, or make it reporting_only.")

def assertParentBook (accountingBooks : List AccountingBookRow) (s : RoutingTables)
    (entity : EntityRow) (row : LinkRow) : Result Unit :=
  match entity.parentEntityId with
  | none => .ok ()
  | some parent =>
    match (s.setup accountingBooks).routeThroughEntity parent row.effectiveFrom with
    | none => .ok ()
    | some (parentBook, _, _) => Except.require (parentBook = row.accountingBookId)
        (parentBookError entity (bookCode accountingBooks parentBook)
          (bookCode accountingBooks row.accountingBookId))

def assertDescendantBooks (accountingBooks : List AccountingBookRow) (s : RoutingTables)
    (entity : EntityRow) (row : LinkRow) : Result Unit :=
  match s.conflictingDescendantLink row with
  | none => .ok ()
  | some link => .error (descendantBookError entity (bookCode accountingBooks row.accountingBookId)
      (((findEntity s.economicEntities link.economicEntityId).map (·.name)).getD "")
      (bookCode accountingBooks link.accountingBookId))

def assertRollUp (accountingBooks : List AccountingBookRow) (s : RoutingTables) (entity : EntityRow)
    (row : LinkRow) : Result Unit :=
  if row.linkRole = .postingPrimary then do
    assertParentBook accountingBooks s entity row
    assertDescendantBooks accountingBooks s entity row
  else .ok ()

def primaryOverlapError (entity : EntityRow) (row : LinkRow) : AccountingError :=
  let upper := (row.effectiveTo.map toString).getD "open"
  .conflict (s!"\"{entity.name}\" already has a posting_primary book over dates " ++
    s!"overlapping {row.effectiveFrom}..{upper}. " ++
    "At most one primary book per entity per day is what makes " ++
    "routing deterministic; close the existing link with an " ++
    "effectiveTo before opening the next one, which is how an " ++
    "entity moves books at a date boundary without rewriting " ++
    "history.")

def linkRow (newId : LinkId) (value : LinkEntityInput) (dimensionLabel note : Option String) :
    LinkRow where
  accountingBookId := value.accountingBookId
  economicEntityId := value.economicEntityId
  linkRole := value.linkRole
  effectiveFrom := value.effectiveFrom
  effectiveTo := value.effectiveTo
  id := newId
  dimensionLabel := dimensionLabel
  note := note

def loadLinkedEntity (s : RoutingTables) (id : EntityId) : Result EntityRow :=
  match findEntity s.economicEntities id with
  | none => .error (.notFound s!"unknown economic entity \"{id}\"")
  | some entity => .ok entity

def linkEntity (accountingBooks : List AccountingBookRow) (s : RoutingTables) (newId : LinkId)
    (value : LinkEntityInput) : Result (LinkRow × RoutingTables) := do
  let dimensionLabel ← parseLinkText "dimensionLabel" value.dimensionLabel
  let note ← parseLinkText "note" value.note
  Except.require (∀ upper ∈ value.effectiveTo, value.effectiveFrom ≤ upper)
    (AccountingError.validation ("effectiveTo " ++ (value.effectiveTo.map toString).getD "" ++
      s!" precedes effectiveFrom {value.effectiveFrom}"))
  let book ← (s.setup accountingBooks).getBook value.accountingBookId
  Except.require (book.status = .active)
    (AccountingError.validation
      s!"book {book.code} is archived and cannot receive new entity links")
  let entity ← loadLinkedEntity s value.economicEntityId
  let row := linkRow newId value dimensionLabel note
  assertRollUp accountingBooks s entity row
  Except.require (newId ∉ s.bookEntityLinks.map (·.id))
    (AccountingError.database "book_entity_links_pkey")
  Except.require (s.primaryOverlap row = false) (primaryOverlapError entity row)
  return (row, { s with bookEntityLinks := s.bookEntityLinks ++ [row] })

def loadLink (s : RoutingTables) (id : LinkId) : Result LinkRow :=
  match s.bookEntityLinks.find? (·.id == id) with
  | none => .error (.notFound s!"unknown book/entity link \"{id}\"")
  | some row => .ok row

def endedAt (effectiveTo : CalendarDate) (row : LinkRow) : LinkRow :=
  { row with effectiveTo := some effectiveTo }

def endLink (s : RoutingTables) (input : EndLinkInput) : Result (LinkRow × RoutingTables) := do
  let before ← loadLink s input.bookEntityLinkId
  Except.require (before.effectiveFrom ≤ input.effectiveTo)
    (AccountingError.validation (s!"effectiveTo {input.effectiveTo} precedes the link's " ++
      s!"effectiveFrom {before.effectiveFrom}"))
  Except.require (s.primaryOverlap (endedAt input.effectiveTo before) = false)
    (AccountingError.database "book_entity_links_primary_no_overlap")
  return (endedAt input.effectiveTo before,
    { s with bookEntityLinks := s.bookEntityLinks.map fun link =>
        if link.id = before.id then endedAt input.effectiveTo link else link })

inductive RoutingCall
  | createEntity (newId : EntityId) (input : CreateEntityInput)
  | updateEntity (id : EntityId) (patch : UpdateEntityPatch)
  | linkEntity (accountingBooks : List AccountingBookRow) (newId : LinkId) (value : LinkEntityInput)
  | endLink (input : EndLinkInput)

namespace RoutingTables

variable (s : RoutingTables)

def empty : RoutingTables := ⟨[], []⟩

def perform : RoutingCall → Option RoutingTables
  | .createEntity newId input =>
    (Loxep.createEntity s.economicEntities newId input).toOption.map fun r =>
      { s with economicEntities := r.2 }
  | .updateEntity id patch =>
    (Loxep.updateEntity s.economicEntities id patch).toOption.map fun r =>
      { s with economicEntities := r.2 }
  | .linkEntity accountingBooks newId value =>
    (Loxep.linkEntity accountingBooks s newId value).toOption.map Prod.snd
  | .endLink input => (Loxep.endLink s input).toOption.map Prod.snd

def step (call : RoutingCall) : RoutingTables := (s.perform call).getD s

end RoutingTables

end Loxep

import Loxep.Lib.Sweep
import Loxep.ProviderOperations
import Loxep.RecordSync
import Loxep.Text

/-!
# Mailboxes

The addresses a mail domain is to have, one row for each local part. An address that is removed
keeps its row as a tombstone, and declaring it again resurrects the row under whatever kind it is
declared with. What was created at the provider and when is not touched by either.
-/

namespace Loxep

abbrev MailboxId := ℕ
abbrev SecretId := ℕ

inductive MailboxKind
  | mailbox
  | «alias»
  | catchall
  deriving DecidableEq

def MailboxKind.text : MailboxKind → String
  | .mailbox => "mailbox"
  | .alias => "alias"
  | .catchall => "catchall"

/-- `kind` with `forward_to`, which an alias or a catch-all has and a mailbox has not. -/
inductive MailboxIntent
  | mailbox
  | forwarding (catchall : Bool) (forwardTo : String)
  deriving DecidableEq

/-- A row of `mailboxes`. -/
structure MailboxRow where
  id : MailboxId
  localPart : String
  intent : MailboxIntent
  secretId : Option SecretId := none
  providerCreatedAt : Option Timestamp := none
  desiredDeletedAt : Option Timestamp := none
  deriving DecidableEq

namespace MailboxRow

def markCreated (now : Timestamp) (row : MailboxRow) : MailboxRow :=
  { row with providerCreatedAt := some now }

def clearCreated (row : MailboxRow) : MailboxRow := { row with providerCreatedAt := none }

def withSecret (secretId : SecretId) (row : MailboxRow) : MailboxRow :=
  { row with secretId := some secretId }

def declare (intent : MailboxIntent) (row : MailboxRow) : MailboxRow :=
  { row with intent := intent, desiredDeletedAt := none }

def softDelete (now : Timestamp) (row : MailboxRow) : MailboxRow :=
  { row with desiredDeletedAt := some now }

end MailboxRow

structure MailboxRows where
  rows : List MailboxRow
  identified : (rows.map (·.id)).Nodup
  keyed : (rows.map (·.localPart)).Nodup

namespace MailboxRows

variable (mailboxes : MailboxRows)

def empty : MailboxRows := ⟨[], List.nodup_nil, List.nodup_nil⟩

def get (localPart : String) : Option MailboxRow :=
  mailboxes.rows.find? (·.localPart == localPart)

def live : List MailboxRow := mailboxes.rows.filter (·.desiredDeletedAt.isNone)

def pendingRemovals : List MailboxRow :=
  mailboxes.rows.filter fun row => row.desiredDeletedAt.isSome && row.providerCreatedAt.isSome

def update (f : MailboxRow → MailboxRow) (hid : ∀ row, (f row).id = row.id)
    (hkey : ∀ row, (f row).localPart = row.localPart) : MailboxRows where
  rows := mailboxes.rows.map f
  identified := by
    rw [List.map_map, show (·.id) ∘ f = (·.id) from funext hid]
    exact mailboxes.identified
  keyed := by
    rw [List.map_map, show (·.localPart) ∘ f = (·.localPart) from funext hkey]
    exact mailboxes.keyed

def updateId (id : MailboxId) (f : MailboxRow → MailboxRow) (hid : ∀ row, (f row).id = row.id)
    (hkey : ∀ row, (f row).localPart = row.localPart) : MailboxRows :=
  mailboxes.update (fun row => if row.id = id then f row else row)
    (fun row => by split_ifs <;> simp [hid]) (fun row => by split_ifs <;> simp [hkey])

def markCreated (id : MailboxId) (now : Timestamp) : MailboxRows :=
  mailboxes.updateId id (·.markCreated now) (fun _ => rfl) fun _ => rfl

def clearCreated (id : MailboxId) : MailboxRows :=
  mailboxes.updateId id (·.clearCreated) (fun _ => rfl) fun _ => rfl

def setSecret (id : MailboxId) (secretId : SecretId) : MailboxRows :=
  mailboxes.updateId id (·.withSecret secretId) (fun _ => rfl) fun _ => rfl

def upsert (newId : MailboxId) (localPart : String) (intent : MailboxIntent) :
    InfrastructureResult MailboxRows :=
  match h : mailboxes.get localPart with
  | some row => .ok (mailboxes.updateId row.id (·.declare intent) (fun _ => rfl) fun _ => rfl)
  | none =>
    if hid : newId ∈ mailboxes.rows.map (·.id) then .error (.database "mailboxes_pkey")
    else .ok {
      rows := mailboxes.rows ++ [{ id := newId, localPart := localPart, intent := intent }]
      identified := by
        rw [List.map_append]
        exact mailboxes.identified.append (List.nodup_singleton _) (by simpa using hid)
      keyed := by
        rw [List.map_append]
        refine mailboxes.keyed.append (List.nodup_singleton _) ?_
        have hnone : ∀ row ∈ mailboxes.rows, row.localPart ≠ localPart := by
          simpa [get] using h
        simpa using hnone }

end MailboxRows

/-! ## Input -/

/-- `localPartSchema`. -/
def parseLocalPart (value : String) : InfrastructureResult String := do
  let trimmed := trim value
  Except.require (trimmed ≠ "" ∧ trimmed.length ≤ 64) (InfrastructureError.other "localPart")
  let localPart := trimmed.toLower
  Except.require ('@' ∉ localPart.toList)
    (InfrastructureError.other "a mailbox local part must not contain '@'")
  Except.require (localPart.toList.all (!isSpace ·))
    (InfrastructureError.other "a mailbox local part must not contain whitespace")
  return localPart

/-- `forwardToSchema`. -/
def parseForwardTo (value : String) : InfrastructureResult String := do
  let trimmed := trim value
  Except.require (3 ≤ trimmed.length ∧ trimmed.length ≤ 320)
    (InfrastructureError.other "forwardTo")
  let forwardTo := trimmed.toLower
  Except.require ('@' ∈ forwardTo.toList)
    (InfrastructureError.other "a forwarding address must contain '@'")
  return forwardTo

/-- `assertKindShape`, with the intent of the kind and address it passes. -/
def mailboxIntent (kind : MailboxKind) (forwardTo : Option String) :
    InfrastructureResult MailboxIntent :=
  match kind, forwardTo with
  | .mailbox, none => .ok .mailbox
  | .mailbox, some _ => .error (.validation "a real mailbox must not carry a forwarding address")
  | .alias, some forwardTo => .ok (.forwarding false forwardTo)
  | .catchall, some forwardTo => .ok (.forwarding true forwardTo)
  | kind, none => .error (.validation s!"a \"{kind.text}\" needs a forwarding address")

structure MailboxInput where
  localPart : String
  kind : MailboxKind
  forwardTo : Option String := none

structure MailboxTemplateEntry where
  localPart : String
  intent : MailboxIntent

structure MailboxTemplate where
  id : ℕ
  entries : List MailboxTemplateEntry

structure ApplyTemplateResult where
  created : ℕ := 0
  resurrected : ℕ := 0
  unchanged : ℕ := 0

/-! ## The operations -/

namespace MailboxRows

variable (mailboxes : MailboxRows)

def addMailbox (newId : MailboxId) (input : MailboxInput) : InfrastructureResult MailboxRows := do
  let localPart ← parseLocalPart input.localPart
  let forwardTo ← input.forwardTo.mapM parseForwardTo
  let intent ← mailboxIntent input.kind forwardTo
  mailboxes.upsert newId localPart intent

def removeMailbox (id : MailboxId) (now : Timestamp) : InfrastructureResult MailboxRows := do
  Except.require (id ∈ mailboxes.rows.map (·.id))
    (InfrastructureError.notFound s!"mailbox {id} not found")
  return mailboxes.updateId id (·.softDelete now) (fun _ => rfl) fun _ => rfl

def mergeEntries (newId : String → MailboxId) : List MailboxTemplateEntry → MailboxRows →
    ApplyTemplateResult → InfrastructureResult (MailboxRows × ApplyTemplateResult)
  | [], rows, result => .ok (rows, result)
  | entry :: entries, rows, result =>
    match mailboxes.get entry.localPart with
    | some ⟨_, _, _, _, _, none⟩ =>
      mergeEntries newId entries rows { result with unchanged := result.unchanged + 1 }
    | current => do
      let rows' ← rows.upsert (newId entry.localPart) entry.localPart entry.intent
      mergeEntries newId entries rows'
        (if current.isNone then { result with created := result.created + 1 }
        else { result with resurrected := result.resurrected + 1 })

def applyTemplate (domainName : String) (newId : String → MailboxId)
    (template : Option MailboxTemplate) :
    InfrastructureResult (MailboxRows × ApplyTemplateResult) :=
  match template with
  | none => .error (.validation
      (s!"no mailbox template supplied for \"{domainName}\", and no default template exists"))
  | some template =>
    if template.entries = [] then
      .error (.validation s!"mailbox template {template.id} has no entries")
    else mailboxes.mergeEntries newId template.entries mailboxes {}

end MailboxRows

/-!
## Mailbox sync

A run makes what is live and lacking, then removes what is tombstoned and was created. A mailbox is
an account, whose creation goes through the ledger of operations; an alias or a catch-all is a
routing rule, which is replaced when it is not as declared. What no row describes is left alone.
-/

/-! ### The provider -/

abbrev RoutingRuleId := ℕ

structure MailRoutingRule where
  id : RoutingRuleId
  domainName : String
  isPrefix : Bool
  matchUser : String
  targetAddresses : List String
  catchall : Bool

structure RoutingRuleInput where
  domainName : String
  matchUser : String
  targetAddresses : List String
  catchall : Bool

structure MailAccount where
  users : List String
  rules : List MailRoutingRule
  numbered : (rules.map (·.id)).Nodup

structure MailProvider where
  name : String
  newRuleId : List RoutingRuleId → RoutingRuleId
  fresh : ∀ taken, newRuleId taken ∉ taken

namespace MailAccount

variable (account : MailAccount)

def createUser (address : String) : MailAccount :=
  { account with users := account.users ++ [address] }

def deleteUser (address : String) : MailAccount :=
  { account with users := account.users.filter (· ≠ address) }

def newRule (provider : MailProvider) (input : RoutingRuleInput) : MailRoutingRule where
  id := provider.newRuleId (account.rules.map (·.id))
  domainName := input.domainName
  isPrefix := false
  matchUser := input.matchUser
  targetAddresses := input.targetAddresses
  catchall := input.catchall

def createRoutingRule (provider : MailProvider) (input : RoutingRuleInput) : MailAccount where
  users := account.users
  rules := account.rules ++ [account.newRule provider input]
  numbered := by
    rw [List.map_append]
    refine account.numbered.append (List.nodup_singleton _) ?_
    simpa [newRule] using provider.fresh (account.rules.map (·.id))

def deleteRoutingRule (id : RoutingRuleId) : MailAccount where
  users := account.users
  rules := account.rules.filter (·.id ≠ id)
  numbered := account.numbered.sublist (List.filter_sublist.map _)

end MailAccount

/-! ### The domain -/

structure MailDomain where
  name : String
  provider : MailProvider

structure MailState where
  ownershipVerifiedAt : Option Timestamp
  mailboxes : MailboxRows
  operations : OperationsLedger
  account : MailAccount

namespace MailDomain

variable (domain : MailDomain)

def address (localPart : String) : String := s!"{localPart}@{domain.name}"

def localPart (address : String) : Option String :=
  (address.toList.dropSuffix? ('@' :: domain.name.toList)).map String.ofList

/-- `mail.user.create` for a local part. -/
def userCreate (localPart : String) : LedgeredCreate :=
  mailUserCreate domain.provider.name localPart domain.name

end MailDomain

/-! ### A run -/

inductive MailCall
  | listUsers
  | listRoutingRules
  | createUser (address : String)
  | deleteUser (address : String)
  | createRoutingRule (localPart : String)
  | deleteRoutingRule (id : RoutingRuleId)

structure MailboxSyncRun where
  trigger : ReconcileTrigger
  actorIsAdmin : Option Bool := none
  policyTier : Option WritePolicyTier := none
  runId : ReconcileRunId
  now : Timestamp
  secretId : MailboxId → SecretId
  refuses : MailCall → Option String

/-- What a run has read of the provider: the local parts and the rules of the domain. -/
structure MailListing where
  users : List String
  rules : List MailRoutingRule

def MailListing.ruleFor (seen : MailListing) (localPart : String) : Option MailRoutingRule :=
  (seen.rules.filter (·.matchUser = localPart)).getLast?

def MailRoutingRule.forwards (rule : MailRoutingRule) (catchall : Bool) (forwardTo : String) :
    Bool :=
  rule.targetAddresses = [forwardTo] && rule.catchall == catchall && rule.isPrefix == false

inductive MailboxOutcome
  | unchanged
  | created
  | shortCircuited
  | readBack
  | routingRuleCreated
  | deleted
  | cleared
  deriving DecidableEq

inductive MailboxSyncStatus
  | succeeded
  | partly
  deriving DecidableEq

structure MailboxSyncResult where
  runId : ReconcileRunId
  status : MailboxSyncStatus
  created : ℕ := 0
  routingRulesCreated : ℕ := 0
  deleted : ℕ := 0
  unchanged : ℕ := 0
  unexpected : List String := []
  deriving DecidableEq

/-- `checkWritePolicy`, of which the gate needs no more than whether it blocks. -/
def MailboxSyncRun.writePolicyBlocks (run : MailboxSyncRun) : Bool :=
  match run.policyTier with
  | some tier =>
    !Except.returns (assertWritePolicy .apply run.trigger tier 1 run.actorIsAdmin
      ("allow writes for this Purelymail connection (currently read-only by policy) on " ++
        "/settings/connections to sync mailboxes"))
  | none => false

namespace MailState

variable (s : MailState)

def markCreated (id : MailboxId) (now : Timestamp) : MailState :=
  { s with mailboxes := s.mailboxes.markCreated id now }

def clearCreated (id : MailboxId) : MailState :=
  { s with mailboxes := s.mailboxes.clearCreated id }

def markIfMissing (row : MailboxRow) (now : Timestamp) : MailState :=
  if row.providerCreatedAt.isNone then s.markCreated row.id now else s

def setSecret (id : MailboxId) (secretId : SecretId) : MailState :=
  { s with mailboxes := s.mailboxes.setSecret id secretId }

def withOperations (operations : OperationsLedger) : MailState :=
  { s with operations := operations }

def withAccount (account : MailAccount) : MailState := { s with account := account }

end MailState

namespace MailDomain

variable (domain : MailDomain) (run : MailboxSyncRun) (seen : MailListing)

def listing (account : MailAccount) : MailListing where
  users := account.users.filterMap domain.localPart
  rules := account.rules.filter (·.domainName = domain.name)

def createInput (localPart : String) : BeginInput where
  key := (domain.userCreate localPart).key
  provider := domain.provider.name
  operation := (domain.userCreate localPart).operation
  runId := some run.runId

/-- A mailbox that was not listed, once the ledger has said what to do about it. -/
def createMailbox (row : MailboxRow) (s : MailState) :
    InfrastructureResult MailboxOutcome × MailState :=
  let key := (domain.userCreate row.localPart).key
  let begun := s.operations.begin (domain.createInput run row.localPart) run.now
  match begun.1.decision with
  | .alreadySucceeded =>
    (.ok .shortCircuited, (s.withOperations begun.2).markCreated row.id run.now)
  | .needsReadBack => (.ok .readBack, s.withOperations (begun.2.fail key run.now).2)
  | .proceed =>
    let s' := s.setSecret row.id (run.secretId row.id)
    match run.refuses (.createUser (domain.address row.localPart)) with
    | some kind =>
      (.error (.providerCall kind "mailbox create failed"),
        s'.withOperations (begun.2.fail key run.now).2)
    | none =>
      (.ok .created,
        ((s'.withAccount (s.account.createUser (domain.address row.localPart))).withOperations
          (begun.2.succeed key run.now).2).markCreated row.id run.now)

def createRule (row : MailboxRow) (catchall : Bool) (forwardTo : String) (s : MailState) :
    InfrastructureResult MailboxOutcome × MailState :=
  match run.refuses (.createRoutingRule row.localPart) with
  | some kind => (.error (.other kind), s)
  | none =>
    (.ok .routingRuleCreated,
      (s.withAccount (s.account.createRoutingRule domain.provider
        ⟨domain.name, row.localPart, [forwardTo], catchall⟩)).markCreated row.id run.now)

def ensureRule (row : MailboxRow) (catchall : Bool) (forwardTo : String) (s : MailState) :
    InfrastructureResult MailboxOutcome × MailState :=
  match seen.ruleFor row.localPart with
  | none => domain.createRule run row catchall forwardTo s
  | some rule =>
    if rule.forwards catchall forwardTo then (.ok .unchanged, s.markIfMissing row run.now)
    else
      match run.refuses (.deleteRoutingRule rule.id) with
      | some kind => (.error (.other kind), s)
      | none =>
        domain.createRule run row catchall forwardTo
          (s.withAccount (s.account.deleteRoutingRule rule.id))

def ensureRow (row : MailboxRow) (s : MailState) :
    InfrastructureResult MailboxOutcome × MailState :=
  match row.intent with
  | .mailbox =>
    if row.localPart ∈ seen.users then (.ok .unchanged, s.markIfMissing row run.now)
    else domain.createMailbox run row s
  | .forwarding catchall forwardTo => domain.ensureRule run seen row catchall forwardTo s

def removeRow (row : MailboxRow) (s : MailState) :
    InfrastructureResult MailboxOutcome × MailState :=
  match row.intent with
  | .mailbox =>
    if row.localPart ∈ seen.users then
      match run.refuses (.deleteUser (domain.address row.localPart)) with
      | some kind => (.error (.other kind), s)
      | none =>
        (.ok .deleted, (s.withAccount (s.account.deleteUser
          (domain.address row.localPart))).clearCreated row.id)
    else (.ok .cleared, s.clearCreated row.id)
  | .forwarding _ _ =>
    match seen.ruleFor row.localPart with
    | none => (.ok .cleared, s.clearCreated row.id)
    | some rule =>
      match run.refuses (.deleteRoutingRule rule.id) with
      | some kind => (.error (.other kind), s)
      | none =>
        (.ok .deleted, (s.withAccount (s.account.deleteRoutingRule rule.id)).clearCreated row.id)

def syncRow (row : MailboxRow) : MailState → InfrastructureResult MailboxOutcome × MailState :=
  if row.desiredDeletedAt.isNone then domain.ensureRow run seen row
  else domain.removeRow run seen row

def unexpected (rows : List MailboxRow) : List String :=
  let unintended := fun localParts : List String =>
    localParts.eraseDups.filter (· ∉ rows.map (·.localPart))
  (unintended seen.users ++ unintended (seen.rules.map (·.matchUser))).map domain.address

def runMailboxSync (s : MailState) : InfrastructureResult MailboxSyncResult × MailState :=
  if s.ownershipVerifiedAt.isNone then (.ok { runId := run.runId, status := .succeeded }, s)
  else
    match run.refuses .listUsers, run.refuses .listRoutingRules with
    | some kind, _ | none, some kind => (.error (.other kind), s)
    | none, none =>
      if run.writePolicyBlocks then (.ok { runId := run.runId, status := .partly }, s)
      else
        let seen := domain.listing s.account
        let rows := s.mailboxes.live ++ s.mailboxes.pendingRemovals
        match sweep (domain.syncRow run seen) rows s with
        | (.error e, s') => (.error e, s')
        | (.ok outcomes, s') =>
          (.ok {
            runId := run.runId
            status := .succeeded
            created := outcomes.count .created
            routingRulesCreated := outcomes.count .routingRuleCreated
            deleted := outcomes.count .deleted
            unchanged := outcomes.count .unchanged
            unexpected := domain.unexpected seen rows }, s')

end MailDomain

/-! ### Histories -/

structure MailHistory extends MailState where
  wasMailbox : String → Bool

inductive MailAction
  | addMailbox (newId : MailboxId) (input : MailboxInput)
  | removeMailbox (id : MailboxId) (now : Timestamp)
  | applyTemplate (newId : String → MailboxId) (template : Option MailboxTemplate)
  | runMailboxSync (run : MailboxSyncRun)
  /-- What other jobs, interrupted runs and people at the provider leave behind. -/
  | left (ownershipVerifiedAt : Option Timestamp) (createdAt : MailboxId → Option Timestamp)
      (operations : OperationsLedger) (account : MailAccount)

namespace MailHistory

variable (s : MailHistory)

def declared : InfrastructureResult MailboxRows → MailHistory
  | .error _ => s
  | .ok mailboxes =>
    { s with
      mailboxes := mailboxes
      wasMailbox := fun localPart => s.wasMailbox localPart ||
        (mailboxes.get localPart).any (·.intent = .mailbox) }

def withCreatedAt (mailboxes : MailboxRows) (createdAt : MailboxId → Option Timestamp) :
    MailboxRows :=
  mailboxes.update (fun row => { row with providerCreatedAt := createdAt row.id }) (fun _ => rfl)
    fun _ => rfl

def step (domain : MailDomain) : MailAction → MailHistory
  | .addMailbox newId input => s.declared (s.mailboxes.addMailbox newId input)
  | .removeMailbox id now => s.declared (s.mailboxes.removeMailbox id now)
  | .applyTemplate newId template =>
    s.declared ((s.mailboxes.applyTemplate domain.name newId template).map Prod.fst)
  | .runMailboxSync run => { s with toMailState := (domain.runMailboxSync run s.toMailState).2 }
  | .left ownershipVerifiedAt createdAt operations account =>
    { s with
      ownershipVerifiedAt := ownershipVerifiedAt
      mailboxes := withCreatedAt s.mailboxes createdAt
      operations := operations
      account := account }

/-- No address is declared yet. -/
def start (ownershipVerifiedAt : Option Timestamp) (operations : OperationsLedger)
    (account : MailAccount) : MailHistory :=
  ⟨⟨ownershipVerifiedAt, .empty, operations, account⟩, fun _ => false⟩

end MailHistory

end Loxep

import Loxep.Journal

/-!
# The chart of accounts

Each book has its own accounts. An operator renames, re-codes, reparents and archives them, and
turns an account that carries no lines into a roll-up header; its type and its system key never
change, and nothing is deleted.
-/

namespace Loxep

inductive LedgerAccountType
  | asset
  | liability
  | equity
  | revenue
  | expense
  deriving DecidableEq

/-- An account with the columns its book's statements read. -/
structure ChartAccountRow extends LedgerAccountRow where
  accountType : LedgerAccountType
  accountSubtype : Option String
  parentAccountId : Option AccountId
  isContra : Bool

structure BookTables where
  chart : List ChartAccountRow
  ledger : Ledger

structure CreateAccountInput where
  accountingBookId : BookId
  code : String
  name : String
  accountType : LedgerAccountType
  accountSubtype : Option String
  systemKey : Option String
  parentAccountId : Option AccountId
  isPostable : Bool := true
  isContra : Bool := false

structure UpdateAccountInput where
  ledgerAccountId : AccountId
  code : Option String
  name : Option String
  accountSubtype : Option (Option String)
  parentAccountId : Option (Option AccountId)
  isPostable : Option Bool

def invalidAccountInput (path : String) : AccountingError :=
  .validation s!"invalid account input: {path}"

/-- `z.string().trim().min(1)`. -/
def parseAccountText (path value : String) : Result String :=
  if trim value = "" then .error (invalidAccountInput path) else .ok (trim value)

namespace BookTables

variable (s : BookTables)

/-- The reference tables a call reads, with the chart as it stands. -/
def setup (setup : Setup) : Setup :=
  { setup with ledgerAccounts := s.chart.map (·.toLedgerAccountRow) }

def loadAccount (ledgerAccountId : AccountId) : Result ChartAccountRow :=
  match s.chart.find? (·.id == ledgerAccountId) with
  | none => .error (.notFound s!"unknown ledger account \"{ledgerAccountId}\"")
  | some row => .ok row

def carriesLines (ledgerAccountId : AccountId) : Bool :=
  s.ledger.entries.any fun e => e.lines.any (·.ledgerAccountId == ledgerAccountId)

def assertUnique (row : ChartAccountRow) : Result Unit := do
  Except.require (∀ a ∈ s.chart, a.id ≠ row.id → a.accountingBookId = row.accountingBookId →
      a.code ≠ row.code) (AccountingError.database "ledger_accounts_book_code_uq")
  Except.require (∀ a ∈ s.chart, a.id ≠ row.id → a.accountingBookId = row.accountingBookId →
      row.systemKey.isSome → a.systemKey ≠ row.systemKey)
    (AccountingError.database "ledger_accounts_book_system_key_uq")

end BookTables

def assertParent (s : BookTables) (accountingBookId : BookId) (message : String → String) :
    Option AccountId → Result Unit
  | none => .ok ()
  | some parentAccountId => do
    let parent ← s.loadAccount parentAccountId
    Except.require (parent.accountingBookId = accountingBookId)
      (AccountingError.validation (message parent.code))

def createdAccount (newId : AccountId) (value : CreateAccountInput) (code name : String) :
    ChartAccountRow where
  id := newId
  accountingBookId := value.accountingBookId
  code := code
  name := name
  isPostable := value.isPostable
  systemKey := value.systemKey
  status := .active
  accountType := value.accountType
  accountSubtype := value.accountSubtype
  parentAccountId := value.parentAccountId
  isContra := value.isContra

def createAccount (setup : Setup) (s : BookTables) (newId : AccountId) (value : CreateAccountInput)
    : Result (ChartAccountRow × BookTables) := do
  let code ← parseAccountText "code" value.code
  let name ← parseAccountText "name" value.name
  Except.require (∀ key ∈ value.systemKey, key ∈ ledgerSystemKeys)
    (invalidAccountInput "systemKey")
  let _ ← setup.getBook value.accountingBookId
  assertParent s value.accountingBookId (fun parent =>
    s!"parent account {parent} belongs to another book: a chart " ++
      "hierarchy never crosses books (the composite foreign key " ++
      "refuses it too)") value.parentAccountId
  let row := createdAccount newId value code name
  Except.require (newId ∉ s.chart.map (·.id)) (AccountingError.database "ledger_accounts_pkey")
  s.assertUnique row
  return (row, { s with chart := s.chart ++ [row] })

/-- The columns an update assigns; the type and the system key are not among them. -/
def updatedAccount (value : UpdateAccountInput) (code name : Option String) (a : ChartAccountRow)
    : ChartAccountRow :=
  { a with
    code := code.getD a.code
    name := name.getD a.name
    accountSubtype := value.accountSubtype.getD a.accountSubtype
    parentAccountId := value.parentAccountId.getD a.parentAccountId
    isPostable := value.isPostable.getD a.isPostable }

def BookTables.updateRow (s : BookTables) (id : AccountId) (f : ChartAccountRow → ChartAccountRow)
    : BookTables :=
  { s with chart := s.chart.map fun a => if a.id = id then f a else a }

def parseOptionalAccountText (path : String) : Option String → Result (Option String)
  | none => .ok none
  | some value => do
    let parsed ← parseAccountText path value
    return some parsed

def assertHeaderUnused (s : BookTables) (before : ChartAccountRow) (isPostable : Option Bool) :
    Result Unit :=
  Except.require (isPostable = some false → s.carriesLines before.id = false)
    (AccountingError.validation (s!"account {before.code} already carries journal lines and " ++
      "cannot become a roll-up header: the lines that reference " ++
      "it would be exactly the finding the " ++
      "\"posted lines against non-postable accounts\" report exists " ++
      "to surface"))

def updateAccount (s : BookTables) (value : UpdateAccountInput) :
    Result (ChartAccountRow × BookTables) := do
  let code ← parseOptionalAccountText "code" value.code
  let name ← parseOptionalAccountText "name" value.name
  let before ← s.loadAccount value.ledgerAccountId
  assertParent s before.accountingBookId (fun parent =>
    s!"parent account {parent} belongs to another book") value.parentAccountId.join
  assertHeaderUnused s before value.isPostable
  let after := updatedAccount value code name before
  Except.require (after.parentAccountId ≠ some before.id)
    (AccountingError.database "ledger_accounts_parent_self_check")
  s.assertUnique after
  return (after, s.updateRow before.id (updatedAccount value code name))

def archiveAccount (s : BookTables) (id : AccountId) : Result (ChartAccountRow × BookTables) := do
  let before ← s.loadAccount id
  Except.require (before.systemKey = none)
    (AccountingError.immutable (s!"account {before.code} carries system key " ++
      "\"" ++ before.systemKey.getD "" ++ "\" " ++
      "and may not be archived: every shipped posting rule resolves " ++
      "through that handle, and an archived system account is a rule " ++
      "that plugs to suspense without saying so. Rename it, re-code " ++
      "it, or reparent it instead — those are all free."))
  let archived : ChartAccountRow → ChartAccountRow := fun a => { a with status := .archived }
  return (archived before, s.updateRow before.id archived)

def reactivateAccount (s : BookTables) (id : AccountId) :
    Result (ChartAccountRow × BookTables) := do
  let before ← s.loadAccount id
  let active : ChartAccountRow → ChartAccountRow := fun a => { a with status := .active }
  return (active before, s.updateRow before.id active)

/-- The calls that write the journal or the chart, each run to its end before the next begins. The
other reference tables are read as they stand at the time of the call. -/
inductive BooksCall
  | journal (setup : Setup) (call : JournalCall)
  | createAccount (setup : Setup) (newId : AccountId) (value : CreateAccountInput)
  | updateAccount (value : UpdateAccountInput)
  | archiveAccount (id : AccountId)
  | reactivateAccount (id : AccountId)

def BookTables.perform (s : BookTables) : BooksCall → Result BookTables
  | .journal setup call =>
    (Loxep.perform (s.setup setup) s.ledger call).map fun r => { s with ledger := r.2 }
  | .createAccount setup newId value => (Loxep.createAccount setup s newId value).map Prod.snd
  | .updateAccount value => (Loxep.updateAccount s value).map Prod.snd
  | .archiveAccount id => (Loxep.archiveAccount s id).map Prod.snd
  | .reactivateAccount id => (Loxep.reactivateAccount s id).map Prod.snd

def BookTables.step (s : BookTables) (call : BooksCall) : BookTables :=
  match s.perform call with
  | .ok t => t
  | .error _ => s

end Loxep

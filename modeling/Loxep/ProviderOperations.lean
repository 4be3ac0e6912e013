import Loxep.DriftFindings
import Mathlib.Data.List.Nodup

/-!
# The ledger of provider operations

A task that creates something at a provider inserts a pending row under its key before the call and
updates it after. The row says whether a later attempt may call, reuses the outcome, or has to read
the provider back.
-/

namespace Loxep

def idempotencyKey (provider operation subject : String) : String :=
  s!"{provider}:{operation}:{subject}"

inductive ProviderOperationStatus
  | pending
  | succeeded
  | failed
  deriving DecidableEq

/-- `status` with `completed_at`, which is null exactly while the row is pending. -/
inductive OperationOutcome
  | pending
  | succeeded (completedAt : Timestamp)
  | failed (completedAt : Timestamp)

def OperationOutcome.status : OperationOutcome → ProviderOperationStatus
  | .pending => .pending
  | .succeeded _ => .succeeded
  | .failed _ => .failed

structure ProviderOperationRow where
  idempotencyKey : String
  provider : String
  operation : String
  outcome : OperationOutcome := .pending
  runId : Option ReconcileRunId
  attempts : ℕ := 1
  startedAt : Timestamp
  attempted : 1 ≤ attempts := by decide

def ProviderOperationRow.status (row : ProviderOperationRow) : ProviderOperationStatus :=
  row.outcome.status

/-- `provider_operations`, under its primary key. -/
structure OperationsLedger where
  rows : List ProviderOperationRow
  keyed : (rows.map (·.idempotencyKey)).Nodup

inductive BeginDecision
  | proceed
  | alreadySucceeded
  | needsReadBack
  deriving DecidableEq

structure BeginInput where
  key : String
  provider : String
  operation : String
  runId : Option ReconcileRunId

def ProviderOperationRow.decision (row : ProviderOperationRow) : BeginDecision :=
  if row.attempts = 1 ∧ row.status = .pending then .proceed
  else if row.status = .succeeded then .alreadySucceeded
  else if row.status = .failed then .proceed
  else .needsReadBack

namespace OperationsLedger

variable (ledger : OperationsLedger)

def empty : OperationsLedger := ⟨[], .nil⟩

def get (key : String) : Option ProviderOperationRow :=
  ledger.rows.find? (·.idempotencyKey == key)

def updateKey (key : String) (f : ProviderOperationRow → ProviderOperationRow)
    (hf : ∀ row, (f row).idempotencyKey = row.idempotencyKey) : OperationsLedger where
  rows := ledger.rows.map fun row => if row.idempotencyKey = key then f row else row
  keyed := by
    have hsame : ((ledger.rows.map fun row => if row.idempotencyKey = key then f row else row).map
        (·.idempotencyKey)) = ledger.rows.map (·.idempotencyKey) := by
      rw [List.map_map]
      refine List.map_congr_left fun row _ => ?_
      simp only [Function.comp]
      split_ifs
      · exact hf row
      · rfl
    rw [hsame]
    exact ledger.keyed

def newOperation (input : BeginInput) (now : Timestamp) : ProviderOperationRow where
  idempotencyKey := input.key
  provider := input.provider
  operation := input.operation
  runId := input.runId
  startedAt := now

def attemptAgain (row : ProviderOperationRow) : ProviderOperationRow :=
  { row with attempts := row.attempts + 1, attempted := Nat.le_add_left 1 _ }

def begin (input : BeginInput) (now : Timestamp) : ProviderOperationRow × OperationsLedger :=
  match h : ledger.get input.key with
  | some row => (attemptAgain row, ledger.updateKey input.key attemptAgain fun _ => rfl)
  | none =>
    (newOperation input now, {
      rows := ledger.rows ++ [newOperation input now]
      keyed := by
        have hnew : input.key ∉ ledger.rows.map (·.idempotencyKey) := by
          intro hmem
          obtain ⟨row, hrow, hkey⟩ := List.mem_map.1 hmem
          exact absurd hkey (by simpa using List.find?_eq_none.1 h row hrow)
        rw [List.map_append, List.nodup_append]
        refine ⟨ledger.keyed, List.nodup_singleton _, ?_⟩
        intro key hkey key' hkey'
        obtain rfl := List.mem_singleton.1 hkey'
        rintro rfl
        exact hnew hkey })

def requireRow (key : String) : InfrastructureResult ProviderOperationRow :=
  match ledger.get key with
  | none => .error (.other s!"provider operation {key} not found")
  | some row => .ok row

def complete (key : String) (outcome : OperationOutcome) : OperationsLedger :=
  ledger.updateKey key (fun row => { row with outcome := outcome }) fun _ => rfl

def succeed (key : String) (now : Timestamp) :
    InfrastructureResult ProviderOperationRow × OperationsLedger :=
  ((ledger.complete key (.succeeded now)).requireRow key, ledger.complete key (.succeeded now))

def fail (key : String) (now : Timestamp) :
    InfrastructureResult ProviderOperationRow × OperationsLedger :=
  ((ledger.complete key (.failed now)).requireRow key, ledger.complete key (.failed now))

end OperationsLedger

/-- How a caller resolves a row that is still pending: a token cannot be read back, a mailbox was
listed when the run began, the others are read now. -/
inductive ReadBack
  | unsupported
  | listed
  | fresh
  | freshOrEmpty
  deriving DecidableEq

structure LedgeredCreate where
  provider : String
  operation : String
  subject : String
  readBack : ReadBack
  /-- The success and its step are written inside the block whose handler marks the row failed. -/
  recordsInTry : Bool

def LedgeredCreate.key (create : LedgeredCreate) : String :=
  idempotencyKey create.provider create.operation create.subject

def tokenMint (providerName hostingTargetId name : String) : LedgeredCreate :=
  ⟨providerName, "dns.token.mint", s!"{hostingTargetId}:{name}", .unsupported, false⟩

def mailDomainAdd (providerName domainName : String) : LedgeredCreate :=
  ⟨providerName, "mail.domain.add", domainName, .fresh, true⟩

def mailUserCreate (providerName localPart domainName : String) : LedgeredCreate :=
  ⟨providerName, "mail.user.create", s!"{localPart}@{domainName}", .listed, false⟩

def hostCreate (hostingTargetId : String) : LedgeredCreate :=
  ⟨"dockhand", "host.create", hostingTargetId, .fresh, true⟩

def resourceCreate (proxyResourceId : String) : LedgeredCreate :=
  ⟨"pangolin", "resource.create", proxyResourceId, .fresh, true⟩

def targetCreate (externalResourceId naturalKey : String) : LedgeredCreate :=
  ⟨"pangolin", "target.create", s!"{externalResourceId}:{naturalKey}", .freshOrEmpty, true⟩

def ruleCreate (sourceRow : Option String) (externalResourceId naturalKey : String) :
    LedgeredCreate :=
  ⟨"pangolin", "rule.create", sourceRow.getD s!"{externalResourceId}:{naturalKey}",
    .freshOrEmpty, true⟩

inductive ProviderCall
  | inFlight
  | executed
  | refused
  deriving DecidableEq

inductive CreatePhase
  | idle
  /-- The provider was listed, and the object was not there. -/
  | listed
  /-- Told to proceed, and about to call. -/
  | told
  | calling
  | returned
  /-- The success is recorded, and the handler still in reach. -/
  | recorded
  | raised
  | readingBack
  | readBack (found : Bool)
  /-- Crashed after it was told to proceed, with nothing recorded. -/
  | lost
  | ended
  deriving DecidableEq

/-- A worker that runs one create. It is settled once a read that was made with no call in flight
has seen the object absent. -/
structure CreateWorker where
  phase : CreatePhase := .idle
  call : Option ProviderCall := none
  settled : Bool := false

/-- What the workers share. A key is retried once a worker was told to proceed on its failed row,
until the row is marked failed again. -/
structure LedgerRun (n : ℕ) where
  ledger : OperationsLedger
  workers : Fin n → CreateWorker
  objects : String → Bool
  retried : String → Bool

inductive LedgerAction (n : ℕ)
  | list (w : Fin n)
  | begin (w : Fin n) (runId : Option ReconcileRunId) (now : Timestamp)
  | call (w : Fin n)
  | execute (w : Fin n)
  | refuse (w : Fin n)
  | answer (w : Fin n)
  /-- The worker sees an error, whatever has become of its call. -/
  | raise (w : Fin n)
  | read (w : Fin n)
  | readFails (w : Fin n)
  | record (w : Fin n) (now : Timestamp)
  | crash (w : Fin n)
  /-- Somebody else makes or removes the object. -/
  | outside (key : String) (present : Bool)

def ReadBack.afterBegin (rule : ReadBack) : BeginDecision → CreatePhase
  | .proceed => .told
  | .alreadySucceeded => .ended
  | .needsReadBack =>
    match rule with
    | .unsupported | .listed => .readBack false
    | .fresh | .freshOrEmpty => .readingBack

def ReadBack.ready : ReadBack → CreatePhase
  | .listed => .listed
  | _ => .idle

def CreatePhase.afterCrash : CreatePhase → CreatePhase
  | .told | .calling | .returned | .raised | .lost => .lost
  | _ => .ended

namespace LedgerRun

variable {n : ℕ} (jobs : Fin n → LedgeredCreate) (s : LedgerRun n)

def setWorker (w : Fin n) (worker : CreateWorker) : LedgerRun n :=
  { s with workers := Function.update s.workers w worker }

def setPhase (w : Fin n) (phase : CreatePhase) : LedgerRun n :=
  s.setWorker w { s.workers w with phase := phase }

def NoneInFlight (key : String) : Prop :=
  ∀ w, (jobs w).key = key → (s.workers w).call ≠ some .inFlight

instance (key : String) : Decidable (s.NoneInFlight jobs key) :=
  inferInstanceAs (Decidable (∀ w, (jobs w).key = key → (s.workers w).call ≠ some .inFlight))

def observe (key : String) : LedgerRun n :=
  if s.objects key = false ∧ s.NoneInFlight jobs key then
    { s with
      workers := fun w =>
        if (jobs w).key = key ∧ (s.workers w).phase ≠ .told then
          { s.workers w with settled := true }
        else s.workers w }
  else s

/-- `begin`, and where its decision sends the worker. -/
def beginWorker (w : Fin n) (runId : Option ReconcileRunId) (now : Timestamp) : LedgerRun n :=
  let job := jobs w
  let (row, ledger) := s.ledger.begin ⟨job.key, job.provider, job.operation, runId⟩ now
  let s' := { s with ledger := ledger }.setWorker w
    ⟨job.readBack.afterBegin row.decision, none, false⟩
  if row.decision = .proceed ∧ row.status = .failed then
    { s' with retried := Function.update s.retried job.key true }
  else s'

def recordWorker (w : Fin n) (now : Timestamp) : LedgerRun n :=
  let key := (jobs w).key
  match (s.workers w).phase with
  | .returned =>
    { s with ledger := (s.ledger.succeed key now).2 }.setPhase w
      (if (jobs w).recordsInTry then .recorded else .ended)
  | .readBack true => { s with ledger := (s.ledger.succeed key now).2 }.setPhase w .ended
  | .raised | .readBack false =>
    { s with
      ledger := (s.ledger.fail key now).2
      retried := Function.update s.retried key false }.setPhase w .ended
  | _ => s

def step : LedgerAction n → LedgerRun n
  | .list w =>
    if (jobs w).readBack = .listed ∧ (s.workers w).phase = .idle then
      (s.observe jobs (jobs w).key).setPhase w
        (if s.objects (jobs w).key then .ended else .listed)
    else s
  | .begin w runId now =>
    if (s.workers w).phase = (jobs w).readBack.ready then s.beginWorker jobs w runId now else s
  | .call w =>
    if (s.workers w).phase = .told then s.setWorker w ⟨.calling, some .inFlight, false⟩ else s
  | .execute w =>
    if (s.workers w).call = some .inFlight then
      { s with objects := Function.update s.objects (jobs w).key true }.setWorker w
        { s.workers w with call := some .executed }
    else s
  | .refuse w =>
    if (s.workers w).call = some .inFlight then
      s.setWorker w { s.workers w with call := some .refused }
    else s
  | .answer w =>
    if (s.workers w).phase = .calling ∧ (s.workers w).call = some .executed then
      s.setPhase w .returned
    else s
  | .raise w =>
    if (s.workers w).phase = .calling ∨ (s.workers w).phase = .recorded then
      s.setPhase w .raised
    else s
  | .read w =>
    if (s.workers w).phase = .readingBack then
      (s.observe jobs (jobs w).key).setPhase w (.readBack (s.objects (jobs w).key))
    else s
  | .readFails w =>
    if (s.workers w).phase = .readingBack then
      s.setPhase w (if (jobs w).readBack = .freshOrEmpty then .readBack false else .ended)
    else s
  | .record w now => s.recordWorker jobs w now
  | .crash w => s.setPhase w (s.workers w).phase.afterCrash
  | .outside key present => { s with objects := Function.update s.objects key present }

/-- No worker has begun, and no row is written. -/
def start (objects : String → Bool) : LedgerRun n := ⟨.empty, fun _ => {}, objects, fun _ => false⟩

end LedgerRun

end Loxep

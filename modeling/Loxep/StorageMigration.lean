import Loxep.Lib.Except
import Loxep.Lib.KeyedTable
import Loxep.Lib.Runs

/-!
# Moving media to another backend

A migration copies every object of a backend to another one under its key: copied, read back and
compared with the row, then the row is pointed at the destination. The source copy stays until a
clean-up deletes it. A job may be delivered any number of times, and a crash ends a call between two
steps.
-/

namespace Loxep

abbrev BackendId := ℕ
abbrev MediaObjectId := ℕ
abbrev MigrationId := ℕ
abbrev StorageKey := String
abbrev Bytes := List UInt8

structure MediaObjectRow where
  id : MediaObjectId
  storageBackendId : BackendId
  storageKey : StorageKey
  sizeBytes : ℕ
  sha256 : String
  deriving DecidableEq

inductive StorageMigrationStatus
  | running
  | completed
  | completedWithErrors
  deriving DecidableEq

def StorageMigrationStatus.text : StorageMigrationStatus → String
  | .running => "running"
  | .completed => "completed"
  | .completedWithErrors => "completed_with_errors"

inductive MigrationObjectStatus
  | pending
  | done
  | skipped
  | failed
  deriving DecidableEq

structure MigrationStatusCounts where
  pending : ℕ
  done : ℕ
  skipped : ℕ
  failed : ℕ
  total : ℕ

structure StorageMigrationRow where
  id : MigrationId
  sourceBackendId : BackendId
  destinationBackendId : BackendId
  status : StorageMigrationStatus
  summary : Option MigrationStatusCounts := none

structure MigrationObjectRow where
  migrationId : MigrationId
  mediaObjectId : MediaObjectId
  status : MigrationObjectStatus := .pending
  attemptCount : ℕ := 0
  lastError : Option String := none

def MigrationObjectRow.key (row : MigrationObjectRow) : MigrationId × MediaObjectId :=
  (row.migrationId, row.mediaObjectId)

def MigrationObjectRow.inserted (migrationId : MigrationId) (mediaObjectId : MediaObjectId) :
    MigrationObjectRow := { migrationId, mediaObjectId }

structure MigrationTables where
  backends : List BackendId := []
  media : List MediaObjectRow := []
  migrations : List StorageMigrationRow := []
  objects : List MigrationObjectRow := []

/-- A `StorageError` under its message. -/
abbrev StorageResult (α : Type) := Except String α

structure Settlement where
  status : MigrationObjectStatus
  lastError : Option String

namespace MigrationTables

variable (s : MigrationTables)

def mediaOf (id : MediaObjectId) : Option MediaObjectRow :=
  KeyedTable.get MediaObjectRow.id s.media id

def objectOf (migrationId : MigrationId) (mediaObjectId : MediaObjectId) :
    Option MigrationObjectRow :=
  KeyedTable.get MigrationObjectRow.key s.objects (migrationId, mediaObjectId)

def getMigration (id : MigrationId) : StorageResult StorageMigrationRow :=
  match KeyedTable.get StorageMigrationRow.id s.migrations id with
  | some row => .ok row
  | none => .error s!"unknown storage migration \"{id}\""

def getBackend (id : BackendId) : StorageResult BackendId :=
  if id ∈ s.backends then .ok id else .error s!"unknown storage backend \"{id}\""

def updateObjectRow (migrationId : MigrationId) (mediaObjectId : MediaObjectId)
    (set : MigrationObjectRow → MigrationObjectRow) : MigrationTables :=
  { s with
    objects := KeyedTable.upsert MigrationObjectRow.key s.objects
      (.inserted migrationId mediaObjectId) set }

def settle (migrationId : MigrationId) (mediaObjectId : MediaObjectId) (settlement : Settlement)
    : MigrationTables :=
  s.updateObjectRow migrationId mediaObjectId fun row =>
    { row with status := settlement.status, lastError := settlement.lastError }

def countsFor (migrationId : MigrationId) : MigrationStatusCounts :=
  let rows := s.objects.filter (·.migrationId == migrationId)
  { pending := rows.countP (·.status == .pending)
    done := rows.countP (·.status == .done)
    skipped := rows.countP (·.status == .skipped)
    failed := rows.countP (·.status == .failed)
    total := rows.length }

def updateMigration (row : StorageMigrationRow) (status : StorageMigrationStatus)
    (summary : MigrationStatusCounts) : MigrationTables :=
  { s with
    migrations := KeyedTable.upsert StorageMigrationRow.id s.migrations
      { row with summary := none } fun old => { old with status, summary := some summary } }

def complete (row : StorageMigrationRow) (counts : MigrationStatusCounts) : MigrationTables :=
  s.updateMigration row (if 0 < counts.failed then .completedWithErrors else .completed) counts

def cutOver (migration : StorageMigrationRow) (media : MediaObjectRow) : MigrationTables :=
  MigrationTables.settle { s with
    media := KeyedTable.upsert MediaObjectRow.id s.media media fun row =>
      { row with storageBackendId := migration.destinationBackendId } }
    migration.id media.id ⟨.done, none⟩

end MigrationTables

/-! ## The calls and where they stand -/

/-- `migrateObject`, by what it does next. -/
inductive WorkerStage
  | idle
  /-- The migration and the object's row are read; the attempt is to be counted. -/
  | begun (migration : StorageMigrationRow) (object : MigrationObjectRow)
  | reading (migration : StorageMigrationRow) (mediaObjectId : MediaObjectId)
  /-- The object's row is to be settled, and the completion checked. -/
  | settling (migration : StorageMigrationRow) (mediaObjectId : MediaObjectId)
      (settlement : Settlement)
  | fetching (migration : StorageMigrationRow) (media : MediaObjectRow)
  | copying (migration : StorageMigrationRow) (media : MediaObjectRow) (body : Bytes)
  | copied (migration : StorageMigrationRow) (media : MediaObjectRow)
  | sized (migration : StorageMigrationRow) (media : MediaObjectRow) (sizeBytes : ℕ)
  | verified (migration : StorageMigrationRow) (media : MediaObjectRow)
  /-- The copy is bad and to be deleted. -/
  | rejecting (migration : StorageMigrationRow) (media : MediaObjectRow) (detail : String)
  | checking (migrationId : MigrationId)
  | completing (migration : StorageMigrationRow) (counts : MigrationStatusCounts)

/-- `startMigration`, by what it does next. -/
inductive StarterStage
  | idle
  | created (migration : StorageMigrationRow)
  | listed (migration : StorageMigrationRow) (objects : List MediaObjectId)

structure CleanupResult where
  deleted : ℕ := 0
  skipped : ℕ := 0
  failures : List MediaObjectId := []

/-- `cleanupMigrationSources`, by what it does next. -/
inductive CleanupStage
  | idle
  | opened (migration : StorageMigrationRow)
  | cleaning (migration : StorageMigrationRow) (rows : List MigrationObjectRow)
      (result : CleanupResult)
  /-- The row named the destination; the source copy is to be deleted. -/
  | deleting (migration : StorageMigrationRow) (media : MediaObjectRow)
      (rows : List MigrationObjectRow) (result : CleanupResult)

abbrev MigrationCallId := ℕ

inductive MigrationAction
  | startMigration (call : MigrationCallId) (id : MigrationId) (source destination : BackendId)
  | proceedStart (call : MigrationCallId)
  | crashStart (call : MigrationCallId)
  | migrateObject (call : MigrationCallId) (migrationId : MigrationId)
      (mediaObjectId : MediaObjectId)
  | proceedObject (call : MigrationCallId)
  /-- The call to the backend throws. -/
  | failObject (call : MigrationCallId)
  | crashObject (call : MigrationCallId)
  | cleanup (call : MigrationCallId) (migrationId : MigrationId)
  | proceedCleanup (call : MigrationCallId)
  | failCleanup (call : MigrationCallId)
  | crashCleanup (call : MigrationCallId)

structure MigrationSystem where
  tables : MigrationTables
  store : BackendId → StorageKey → Option Bytes
  starter : MigrationCallId → StarterStage := fun _ => .idle
  worker : MigrationCallId → WorkerStage := fun _ => .idle
  cleaner : MigrationCallId → CleanupStage := fun _ => .idle

namespace MigrationSystem

variable (s : MigrationSystem)

def setStarter (call : MigrationCallId) (stage : StarterStage) : MigrationSystem :=
  { s with starter := fun other => if other = call then stage else s.starter other }

def setWorker (call : MigrationCallId) (stage : WorkerStage) : MigrationSystem :=
  { s with worker := fun other => if other = call then stage else s.worker other }

def setCleaner (call : MigrationCallId) (stage : CleanupStage) : MigrationSystem :=
  { s with cleaner := fun other => if other = call then stage else s.cleaner other }

def setStore (backend : BackendId) (key : StorageKey) (body : Option Bytes) : MigrationSystem :=
  { s with store := fun b k => if b = backend ∧ k = key then body else s.store b k }

/-! ### `startMigration` -/

def start (call : MigrationCallId) (id : MigrationId) (source destination : BackendId) :
    StorageResult MigrationSystem := do
  Except.require (source ≠ destination) "source and destination backends must differ"
  let _ ← s.tables.getBackend source
  let _ ← s.tables.getBackend destination
  Except.require (KeyedTable.get StorageMigrationRow.id s.tables.migrations id = none)
    "storage_migrations_pkey"
  let migration : StorageMigrationRow :=
    { id, sourceBackendId := source, destinationBackendId := destination, status := .running }
  return { s with tables := { s.tables with
      migrations := s.tables.migrations ++ [migration] } }.setStarter call (.created migration)

def proceedStart (call : MigrationCallId) : MigrationSystem :=
  match s.starter call with
  | .idle => s
  | .created migration =>
    let objects := s.tables.media.filter (·.storageBackendId == migration.sourceBackendId)
    s.setStarter call (.listed migration (objects.map (·.id)))
  | .listed migration [] =>
    { s with tables := s.tables.updateMigration migration .completed ⟨0, 0, 0, 0, 0⟩ }.setStarter
      call .idle
  | .listed migration objects =>
    { s with tables := { s.tables with
        objects := s.tables.objects ++
          objects.map (MigrationObjectRow.inserted migration.id) } }.setStarter call .idle

/-! ### `migrateObject` -/

def beginObject (migrationId : MigrationId) (mediaObjectId : MediaObjectId) :
    StorageResult WorkerStage := do
  let migration ← s.tables.getMigration migrationId
  match s.tables.objectOf migrationId mediaObjectId with
  | none => throw (s!"media object \"{mediaObjectId}\" is not part of migration " ++
      s!"\"{migrationId}\"")
  | some object =>
    if object.status = .done ∨ object.status = .skipped then return .idle
    else return .begun migration object

def readMedia (migration : StorageMigrationRow) (mediaObjectId : MediaObjectId) : WorkerStage :=
  match s.tables.mediaOf mediaObjectId with
  | none =>
    .settling migration mediaObjectId ⟨.skipped, some "media object row no longer exists"⟩
  | some media =>
    if media.storageBackendId = migration.destinationBackendId then
      .settling migration mediaObjectId ⟨.done, none⟩
    else if media.storageBackendId ≠ migration.sourceBackendId then
      .settling migration mediaObjectId ⟨.skipped, some
        s!"media object moved to backend \"{media.storageBackendId}\" outside this migration"⟩
    else .fetching migration media

def compare (sha256 : Bytes → String) (migration : StorageMigrationRow) (media : MediaObjectRow)
    (sizeBytes : ℕ) (body : Bytes) : WorkerStage :=
  if sizeBytes ≠ media.sizeBytes then .rejecting migration media
    s!"size mismatch: destination {sizeBytes} != recorded {media.sizeBytes}"
  else if sha256 body ≠ media.sha256 then .rejecting migration media
    s!"sha256 mismatch: destination {sha256 body} != recorded {media.sha256}"
  else .verified migration media

def proceedObject (sha256 : Bytes → String) (call : MigrationCallId) : MigrationSystem :=
  match s.worker call with
  | .idle => s
  | .begun migration object =>
    { s with tables := s.tables.updateObjectRow migration.id object.mediaObjectId fun row =>
        { row with attemptCount := object.attemptCount + 1 } }.setWorker call
      (.reading migration object.mediaObjectId)
  | .reading migration mediaObjectId =>
    s.setWorker call (s.readMedia migration mediaObjectId)
  | .settling migration mediaObjectId settlement =>
    { s with tables := s.tables.settle migration.id mediaObjectId settlement }.setWorker call
      (.checking migration.id)
  | .fetching migration media =>
    match s.store migration.sourceBackendId media.storageKey with
    | some body => s.setWorker call (.copying migration media body)
    | none => s.setWorker call .idle
  | .copying migration media body =>
    (s.setStore migration.destinationBackendId media.storageKey (some body)).setWorker call
      (.copied migration media)
  | .copied migration media =>
    match s.store migration.destinationBackendId media.storageKey with
    | some body => s.setWorker call (.sized migration media body.length)
    | none => s.setWorker call .idle
  | .sized migration media sizeBytes =>
    match s.store migration.destinationBackendId media.storageKey with
    | some body => s.setWorker call (compare sha256 migration media sizeBytes body)
    | none => s.setWorker call .idle
  | .verified migration media =>
    { s with tables := s.tables.cutOver migration media }.setWorker call (.checking migration.id)
  | .rejecting migration media detail =>
    (s.setStore migration.destinationBackendId media.storageKey none).setWorker call
      (.settling migration media.id ⟨.failed, some detail⟩)
  | .checking migrationId =>
    match s.tables.getMigration migrationId with
    | .ok migration =>
      let counts := s.tables.countsFor migrationId
      s.setWorker call (if 0 < counts.pending then .idle else .completing migration counts)
    | .error _ => s.setWorker call .idle
  | .completing migration counts =>
    { s with tables := s.tables.complete migration counts }.setWorker call .idle

/-- A call to a backend throws: that a bad copy cannot be deleted is swallowed. -/
def failObject (call : MigrationCallId) : MigrationSystem :=
  match s.worker call with
  | .rejecting migration media detail =>
    s.setWorker call (.settling migration media.id ⟨.failed, some detail⟩)
  | _ => s.setWorker call .idle

/-! ### `cleanupMigrationSources` -/

def openCleanup (migrationId : MigrationId) : StorageResult CleanupStage := do
  let migration ← s.tables.getMigration migrationId
  Except.require (migration.status ≠ .running)
    (s!"refusing source cleanup: migration \"{migrationId}\" is " ++
      s!"\"{migration.status.text}\", not completed")
  return .opened migration

def proceedCleanup (call : MigrationCallId) : MigrationSystem :=
  match s.cleaner call with
  | .idle => s
  | .opened migration =>
    s.setCleaner call
      (.cleaning migration (s.tables.objects.filter (·.migrationId == migration.id)) {})
  | .cleaning _ [] _ => s.setCleaner call .idle
  | .cleaning migration (row :: rows) result =>
    let skip := s.setCleaner call
      (.cleaning migration rows { result with skipped := result.skipped + 1 })
    if row.status ≠ .done then skip
    else
      match s.tables.mediaOf row.mediaObjectId with
      | none => skip
      | some media =>
        if media.storageBackendId ≠ migration.destinationBackendId then skip
        else s.setCleaner call (.deleting migration media rows result)
  | .deleting migration media rows result =>
    (s.setStore migration.sourceBackendId media.storageKey none).setCleaner call
      (.cleaning migration rows { result with deleted := result.deleted + 1 })

def failCleanup (call : MigrationCallId) : MigrationSystem :=
  match s.cleaner call with
  | .deleting migration media rows result =>
    s.setCleaner call
      (.cleaning migration rows { result with failures := result.failures ++ [media.id] })
  | _ => s.setCleaner call .idle

/-! ### Steps -/

def step (sha256 : Bytes → String) : MigrationAction → MigrationSystem
  | .startMigration call id source destination =>
    match s.starter call, s.start call id source destination with
    | .idle, .ok s' => s'
    | _, _ => s
  | .proceedStart call => s.proceedStart call
  | .crashStart call => s.setStarter call .idle
  | .migrateObject call migrationId mediaObjectId =>
    match s.worker call, s.beginObject migrationId mediaObjectId with
    | .idle, .ok stage => s.setWorker call stage
    | _, _ => s
  | .proceedObject call => s.proceedObject sha256 call
  | .failObject call => s.failObject call
  | .crashObject call => s.setWorker call .idle
  | .cleanup call migrationId =>
    match s.cleaner call, s.openCleanup migrationId with
    | .idle, .ok stage => s.setCleaner call stage
    | _, _ => s
  | .proceedCleanup call => s.proceedCleanup call
  | .failCleanup call => s.failCleanup call
  | .crashCleanup call => s.setCleaner call .idle

end MigrationSystem

/-!
## Storage backends and the default one

The default backend is switched, and a backend disabled, in a transaction under an advisory lock;
backends are registered and enabled without one. A partial unique index and a check stand behind
both. Every statement is a step that waits for rows another transaction has locked.
-/

inductive StorageDriverFamily
  | «local»
  | s3

abbrev BackendSecretId := String

structure StorageBackendRow where
  id : BackendId
  name : String
  driver : StorageDriverFamily
  enabled : Bool := true
  isDefault : Bool := false
  secretId : Option BackendSecretId := none

structure RegisterBackendInput where
  name : String
  driver : StorageDriverFamily
  makeDefault : Bool := false

def backendSecretKey (backendId : BackendId) : BackendSecretId :=
  s!"storage.backend.{backendId}.credentials"

structure BackendTable where
  rows : List StorageBackendRow := []
  nextId : BackendId := 0
  referenced : BackendId → Bool := fun _ => false

namespace BackendTable

variable (t : BackendTable)

def getBackend (id : BackendId) : Option StorageBackendRow :=
  KeyedTable.get StorageBackendRow.id t.rows id

def newRow (input : RegisterBackendInput) : StorageBackendRow :=
  { id := t.nextId, name := input.name, driver := input.driver }

def insertBackend (input : RegisterBackendInput) : BackendTable :=
  { t with rows := t.rows ++ [t.newRow input], nextId := t.nextId + 1 }

def updateBackend (row : StorageBackendRow) (set : StorageBackendRow → StorageBackendRow) :
    BackendTable :=
  { t with
    rows := KeyedTable.upsert StorageBackendRow.id t.rows
      { id := row.id, name := row.name, driver := row.driver } set }

def enableBackend (row : StorageBackendRow) : BackendTable :=
  t.updateBackend row fun row => { row with enabled := true }

def linkSecret (row : StorageBackendRow) : BackendTable :=
  t.updateBackend row fun old => { old with secretId := some (backendSecretKey row.id) }

def deleteBackend (id : BackendId) : BackendTable :=
  if t.referenced id then t else { t with rows := t.rows.filter fun row => decide (row.id ≠ id) }

/-- What the two updates of `setDefaultBackend` have written. -/
def switchDefault (id : BackendId) (cleared : List BackendId) : BackendTable :=
  { t with rows := t.rows.map fun row =>
      if row.id = id then { row with isDefault := true }
      else if row.id ∈ cleared then { row with isDefault := false }
      else row }

def disableBackend (id : BackendId) : BackendTable :=
  { t with
    rows := KeyedTable.set StorageBackendRow.id t.rows id fun row => { row with enabled := false } }

/-- `is_default and id <> $1`. -/
def otherDefaults (id : BackendId) : List BackendId :=
  (t.rows.filter fun row => row.isDefault && decide (row.id ≠ id)).map (·.id)

end BackendTable

/-! ### The calls and where they stand -/

inductive BackendCall
  | registerBackend (input : RegisterBackendInput)
  | enableBackend (id : BackendId)
  | disableBackend (id : BackendId)
  | setDefaultBackend (id : BackendId)

inductive BackendResult
  | returned
  /-- A `StorageBackendError`, under its message. -/
  | refused (message : String)
  /-- A statement or the secret write threw, or the call was cut off. -/
  | failed
  | violated (constraint : String)

/-- The backend that is to become the default, on its own or for `registerBackend`, which reads it
once more. -/
structure DefaultTarget where
  id : BackendId
  registering : Bool := false

/-- A stage is named after the statement that comes next. -/
inductive BackendStage
  | idle
  /-- `registerBackend` inserts the row. -/
  | inserting (input : RegisterBackendInput)
  | writingSecret (row : StorageBackendRow) (makeDefault : Bool)
  | linkingSecret (row : StorageBackendRow) (makeDefault : Bool)
  /-- It deletes the half-registered row. -/
  | rollingBack (id : BackendId)
  /-- It reads the row that it returns. -/
  | returning (id : BackendId)
  /-- `setDefaultBackend` takes the advisory lock. -/
  | electing (target : DefaultTarget)
  /-- It locks the target. -/
  | targeting (target : DefaultTarget)
  | clearing (target : DefaultTarget)
  | marking (target : DefaultTarget) (cleared : List BackendId)
  | electionCommit (target : DefaultTarget) (cleared : List BackendId)
  /-- `enableBackend` reads the row. -/
  | reading (id : BackendId)
  | enabling (row : StorageBackendRow)
  /-- `disableBackend` takes the advisory lock. -/
  | retiring (id : BackendId)
  /-- It locks the row. -/
  | judging (id : BackendId)
  | disabling (id : BackendId)
  | retirementCommit (id : BackendId)
  /-- A transaction throws and is rolled back. -/
  | refusing (message : String)
  | finished (result : BackendResult)

def BackendCall.firstStage : BackendCall → BackendStage
  | .registerBackend input => .inserting input
  | .enableBackend id => .reading id
  | .disableBackend id => .retiring id
  | .setDefaultBackend id => .electing { id }

inductive BackendLock
  | advisory
  | row (id : BackendId)
  /-- The entry of `storage_backends_default_uq`, until it is committed. -/
  | defaultEntry
  deriving DecidableEq

inductive BackendOutcome
  | goTo (stage : BackendStage)
  | lock (locks : List BackendLock) (stage : BackendStage)
  /-- A statement that commits by itself, once the row is free. -/
  | write (id : BackendId) (table : BackendTable) (stage : BackendStage)
  | commit (table : BackendTable) (stage : BackendStage)
  | finish (result : BackendResult)

def unknownBackend (id : BackendId) : BackendResult := .refused s!"unknown storage backend \"{id}\""

section Proceed

variable (t : BackendTable)

/-- What `registerBackend` does with a row that is complete. -/
def registeredStage (id : BackendId) (makeDefault : Bool) : BackendStage :=
  if makeDefault then .electing { id, registering := true } else .returning id

def insertedStage (input : RegisterBackendInput) : BackendStage :=
  match input.driver with
  | .local => registeredStage t.nextId input.makeDefault
  | .s3 => .writingSecret (t.newRow input) input.makeDefault

def readReturned (id : BackendId) : BackendResult :=
  if (t.getBackend id).isSome then .returned else unknownBackend id

def readEnabling (id : BackendId) : BackendOutcome :=
  match t.getBackend id with
  | none => .finish (unknownBackend id)
  | some row => .goTo (.enabling row)

def lockTarget (target : DefaultTarget) : BackendOutcome :=
  match t.getBackend target.id with
  | none => .finish (unknownBackend target.id)
  | some row => .lock [.row target.id]
      (if row.enabled then .clearing target
      else .refusing s!"cannot make disabled backend \"{target.id}\" the default")

def markTarget (target : DefaultTarget) (cleared : List BackendId) : BackendOutcome :=
  if (t.getBackend target.id).any fun row => !row.enabled then
    .finish (.violated "storage_backends_default_enabled_check")
  else if (t.otherDefaults target.id).any fun id => decide (id ∉ cleared) then
    .finish (.violated "storage_backends_default_uq")
  else .lock [.defaultEntry] (.electionCommit target cleared)

def judgeBackend (id : BackendId) : BackendOutcome :=
  match t.getBackend id with
  | none => .finish (unknownBackend id)
  | some row => .lock [.row id]
      (if row.isDefault then .refusing (s!"cannot disable default storage backend \"{id}\"; " ++
        "set another default first")
      else .disabling id)

/-- The update of `disableBackend`, under the check. -/
def writeDisabled (id : BackendId) : BackendOutcome :=
  if (t.getBackend id).any (·.isDefault) then
    .finish (.violated "storage_backends_default_enabled_check")
  else .goTo (.retirementCommit id)

def proceedBackend : BackendStage → BackendOutcome
  | .idle => .goTo .idle
  | .inserting input => .write t.nextId (t.insertBackend input) (insertedStage t input)
  | .writingSecret row makeDefault => .goTo (.linkingSecret row makeDefault)
  | .linkingSecret row makeDefault =>
    .write row.id (t.linkSecret row) (registeredStage row.id makeDefault)
  | .rollingBack id => .write id (t.deleteBackend id) (.finished .failed)
  | .returning id => .finish (readReturned t id)
  | .electing target => .lock [.advisory] (.targeting target)
  | .targeting target => lockTarget t target
  | .clearing target =>
    .lock ((t.otherDefaults target.id).map .row) (.marking target (t.otherDefaults target.id))
  | .marking target cleared => markTarget t target cleared
  | .electionCommit target cleared =>
    .commit (t.switchDefault target.id cleared)
      (if target.registering then .returning target.id else .finished .returned)
  | .reading id => readEnabling t id
  | .enabling row => .write row.id (t.enableBackend row) (.finished .returned)
  | .retiring id => .lock [.advisory] (.judging id)
  | .judging id => judgeBackend t id
  | .disabling id => writeDisabled t id
  | .retirementCommit id => .commit (t.disableBackend id) (.finished .returned)
  | .refusing message => .finish (.refused message)
  | .finished result => .goTo (.finished result)

/-- The statement throws. `registerBackend` takes its row back where the secret or its link is
not written. -/
def failBackend : BackendStage → BackendOutcome
  | .idle => .goTo .idle
  | .finished result => .goTo (.finished result)
  | .writingSecret row _ | .linkingSecret row _ => .goTo (.rollingBack row.id)
  | _ => .finish .failed

/-- The call is cut off. -/
def crashBackend : BackendStage → BackendOutcome
  | .idle => .goTo .idle
  | .finished result => .goTo (.finished result)
  | _ => .finish .failed

end Proceed

/-! ### Steps -/

abbrev BackendCallId := ℕ

inductive BackendAction
  | begin (call : BackendCallId) (request : BackendCall)
  | proceed (call : BackendCallId)
  | fail (call : BackendCallId)
  | crash (call : BackendCallId)
  /-- Media or a migration comes to name the backend, or the last one ceases to. -/
  | refer (id : BackendId) (referenced : Bool)

structure BackendSystem where
  table : BackendTable := {}
  holder : BackendLock → Option BackendCallId := fun _ => none
  stage : BackendCallId → BackendStage := fun _ => .idle

namespace BackendSystem

variable (s : BackendSystem)

def setStage (call : BackendCallId) (stage : BackendStage) : BackendSystem :=
  { s with stage := fun other => if other = call then stage else s.stage other }

def release (call : BackendCallId) : BackendSystem :=
  { s with holder := fun lock => if s.holder lock = some call then none else s.holder lock }

def free (call : BackendCallId) (lock : BackendLock) : Bool := (s.holder lock).all (· == call)

def lock (call : BackendCallId) (locks : List BackendLock) (stage : BackendStage) :
    BackendSystem :=
  if locks.all (s.free call) then
    { s.setStage call stage with
      holder := fun lock => if lock ∈ locks then some call else s.holder lock }
  else s

def write (call : BackendCallId) (id : BackendId) (table : BackendTable) (stage : BackendStage) :
    BackendSystem :=
  if s.free call (.row id) then { s.setStage call stage with table } else s

def take (call : BackendCallId) : BackendOutcome → BackendSystem
  | .goTo stage => s.setStage call stage
  | .lock locks stage => s.lock call locks stage
  | .write id table stage => s.write call id table stage
  | .commit table stage => { (s.setStage call stage).release call with table }
  | .finish result => (s.setStage call (.finished result)).release call

def step : BackendAction → BackendSystem
  | .begin call request =>
    match s.stage call with
    | .idle => s.setStage call request.firstStage
    | _ => s
  | .proceed call => s.take call (proceedBackend s.table (s.stage call))
  | .fail call => s.take call (failBackend (s.stage call))
  | .crash call => s.take call (crashBackend (s.stage call))
  | .refer id referenced =>
    { s with table := { s.table with
        referenced := fun other => if other = id then referenced else s.table.referenced other } }

end BackendSystem

end Loxep

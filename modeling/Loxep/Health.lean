import Loxep.EconomicEntities
import Loxep.Lib.KeyedTable
import Loxep.Lib.Runs

/-!
# Health rows

One row for a subject, written by every probe, adapter, push and report. A call reads the row,
works out the counters and the last transition from it, and upserts them; the read and the write
are two statements and no transaction spans them.
-/

namespace Loxep

inductive DetailValue
  | leaf (text : String)
  | arr (items : List DetailValue)
  | obj (fields : List (String × DetailValue))

/-- `toLowerCase`, of the characters whose lower case has an ASCII letter in it. -/
def lowerChar (c : Char) : Char :=
  if c = 'İ' then 'i' else if c = '\u212a' then 'k' else c.toLower

/-- `key.toLowerCase().replace(/[^a-z0-9]/g, "")`. -/
def normalizeKey (key : String) : String :=
  String.ofList ((key.toList.map lowerChar).filter fun c => c.isLower || c.isDigit)

def FORBIDDEN_DETAIL_KEYS : List String :=
  ["body", "header", "headers", "response", "rawresponse", "html", "payload"]

def EXACT_SENSITIVE_KEYS : List String :=
  ["password", "secret", "token", "accesstoken", "refreshtoken", "clientsecret", "ciphertext",
    "nonce", "authtag", "secretaccesskey", "accesskeyid", "apikey", "privatekey", "passphrase",
    "credentials", "authorization", "cookie", "sessiontoken"]

/-- `text.includes(part)`. -/
def includesText (text part : String) : Bool :=
  text.toList.tails.any fun rest => part.toList.isPrefixOf rest

/-- `text.endsWith(part)`. -/
def endsWithText (text part : String) : Bool := part.toList.isSuffixOf text.toList

def isSensitiveKey (key : String) : Bool :=
  let normalized := normalizeKey key
  EXACT_SENSITIVE_KEYS.contains normalized || includesText normalized "password" ||
    includesText normalized "passphrase" || endsWithText normalized "secret" ||
    endsWithText normalized "token" || endsWithText normalized "apikey" ||
    endsWithText normalized "privatekey"

def REDACTED : DetailValue := .leaf "\"[REDACTED]\""

namespace DetailValue

mutual

def containsForbiddenKey : DetailValue → Bool
  | leaf _ => false
  | arr items => itemsContainForbiddenKey items
  | obj fields => fieldsContainForbiddenKey fields

def itemsContainForbiddenKey : List DetailValue → Bool
  | [] => false
  | item :: items => containsForbiddenKey item || itemsContainForbiddenKey items

def fieldsContainForbiddenKey : List (String × DetailValue) → Bool
  | [] => false
  | (key, value) :: fields => FORBIDDEN_DETAIL_KEYS.contains (normalizeKey key) ||
    containsForbiddenKey value || fieldsContainForbiddenKey fields

end

mutual

def redactJson : DetailValue → DetailValue
  | leaf text => leaf text
  | arr items => arr (redactItems items)
  | obj fields => obj (redactFields fields)

def redactItems : List DetailValue → List DetailValue
  | [] => []
  | item :: items => redactJson item :: redactItems items

def redactFields : List (String × DetailValue) → List (String × DetailValue)
  | [] => []
  | (key, value) :: fields =>
    (key, if isSensitiveKey key then REDACTED else redactJson value) :: redactFields fields

end

mutual

def deepEqual : DetailValue → DetailValue → Bool
  | leaf text, leaf text' => text == text'
  | arr items, arr items' => itemsEqual items items'
  | obj fields, obj fields' => fieldsEqual fields fields'
  | _, _ => false

def itemsEqual : List DetailValue → List DetailValue → Bool
  | [], [] => true
  | item :: items, item' :: items' => deepEqual item item' && itemsEqual items items'
  | _, _ => false

def fieldsEqual : List (String × DetailValue) → List (String × DetailValue) → Bool
  | [], [] => true
  | (key, value) :: fields, (key', value') :: fields' =>
    key == key' && deepEqual value value' && fieldsEqual fields fields'
  | _, _ => false

end

end DetailValue

def guardHealthDetail (detail : DetailValue) : Except DomainError DetailValue := do
  Except.require (¬ detail.containsForbiddenKey) (DomainError.mk .domainValidation
    ("integration_health.detail must not carry a provider response body, " ++
      "a header, or a raw payload — pass a short taxonomy kind and message"))
  Except.require (detail.redactJson.deepEqual detail) (DomainError.mk .domainValidation
    ("integration_health.detail must not carry credential material — a " ++
      "sensitive-shaped key was present"))
  return detail

example : (guardHealthDetail (.obj [("kind", .leaf "\"timeout\"")])).toOption.isSome ∧
    (guardHealthDetail (.obj [("Access-Token", .leaf "\"x\"")])).toOption.isNone ∧
    (guardHealthDetail (.arr [.obj [("raw_response", .leaf "0")]])).toOption.isNone := by decide

inductive HealthSubjectType
  | connection
  | notificationEndpoint
  | storageBackend
  | externalResource
  | hostingTarget
  | managedDomain
  deriving DecidableEq

inductive HealthStatus
  | ok
  | degraded
  | failing
  | unknown
  deriving DecidableEq

inductive HealthSource
  | probe
  | adapter
  | ingest
  | report
  deriving DecidableEq

abbrev HealthSubject := HealthSubjectType × ℕ

structure HealthRow where
  subject : HealthSubject
  status : HealthStatus
  source : HealthSource
  checkedAt : Timestamp
  lastSuccessAt : Option Timestamp
  lastFailureAt : Option Timestamp
  consecutiveFailures : ℕ
  detail : DetailValue
  previousStatus : Option HealthStatus
  statusChangedAt : Option Timestamp
  updatedAt : Timestamp

structure UpsertHealthInput where
  subject : HealthSubject
  status : HealthStatus
  source : HealthSource
  checkedAt : Option Timestamp := none
  detail : Option DetailValue := none

structure HealthCheck where
  subject : HealthSubject
  status : HealthStatus
  source : HealthSource
  checkedAt : Timestamp
  detail : DetailValue

def UpsertHealthInput.parse (input : UpsertHealthInput) (now : Timestamp) :
    Except DomainError HealthCheck := do
  let detail ← guardHealthDetail (input.detail.getD (.obj []))
  return ⟨input.subject, input.status, input.source, input.checkedAt.getD now, detail⟩

namespace HealthCheck

variable (check : HealthCheck)

def rowAfter (existing : Option HealthRow) (now : Timestamp) : HealthRow :=
  let statusChanged := existing.any (·.status != check.status)
  { subject := check.subject
    status := check.status
    source := check.source
    checkedAt := check.checkedAt
    lastSuccessAt :=
      if check.status = .ok then some check.checkedAt else existing.bind (·.lastSuccessAt)
    lastFailureAt :=
      if check.status = .ok then existing.bind (·.lastFailureAt) else some check.checkedAt
    consecutiveFailures :=
      if check.status = .ok then 0 else (existing.elim 0 (·.consecutiveFailures)) + 1
    detail := check.detail
    previousStatus :=
      if statusChanged then existing.map (·.status) else existing.bind (·.previousStatus)
    statusChangedAt :=
      if statusChanged then some check.checkedAt else existing.bind (·.statusChangedAt)
    updatedAt := now }

end HealthCheck

/-- The checks of `integration_health`, and the range of its counter. -/
def HealthRow.refusal (row : HealthRow) : Option String :=
  let checks : List (String × Bool) :=
    [("integer out of range", decide (row.consecutiveFailures ≤ 2147483647)),
      ("integration_health_ok_zero_failures_check",
        (row.status == .ok) == (row.consecutiveFailures == 0)),
      ("integration_health_status_change_distinct_check",
        row.previousStatus.all (· != row.status)),
      ("integration_health_status_change_pairing_check",
        row.previousStatus.isNone == row.statusChangedAt.isNone)]
  (checks.find? fun check => !check.2).map (·.1)

abbrev HealthSessionId := ℕ

inductive HealthStage
  | idle
  | read (check : HealthCheck) (existing : Option HealthRow)

inductive HealthAction
  /-- A call of a free session, up to its read. -/
  | call (session : HealthSessionId) (input : UpsertHealthInput) (now : Timestamp)
  /-- The upsert of an open call. -/
  | write (session : HealthSessionId) (now : Timestamp)
  /-- The process dies, or a statement fails. -/
  | fail (session : HealthSessionId)

structure HealthSystem where
  rows : List HealthRow
  stage : HealthSessionId → HealthStage
  returned : List HealthCheck

namespace HealthSystem

variable (s : HealthSystem)

def start : HealthSystem := ⟨[], fun _ => .idle, []⟩

def findExisting (subject : HealthSubject) : Option HealthRow :=
  KeyedTable.get HealthRow.subject s.rows subject

def setStage (session : HealthSessionId) (stage : HealthStage) : HealthSystem :=
  { s with stage := fun other => if other = session then stage else s.stage other }

/-- `insert ... on conflict do update`, and the call returns; a refused row ends it. -/
def upsert (session : HealthSessionId) (check : HealthCheck) (row : HealthRow) : HealthSystem :=
  if row.refusal.isSome then s.setStage session .idle
  else
    { (s.setStage session .idle) with
      rows := KeyedTable.upsert HealthRow.subject s.rows row fun _ => row
      returned := s.returned ++ [check] }

def step (s : HealthSystem) : HealthAction → HealthSystem
  | .call session input now =>
    match s.stage session, input.parse now with
    | .idle, .ok check => s.setStage session (.read check (s.findExisting check.subject))
    | _, _ => s
  | .write session now =>
    match s.stage session with
    | .idle => s
    | .read check existing => s.upsert session check (check.rowAfter existing now)
  | .fail session => s.setStage session .idle

def returnedOf (subject : HealthSubject) : List HealthCheck :=
  s.returned.filter (·.subject = subject)

end HealthSystem

end Loxep

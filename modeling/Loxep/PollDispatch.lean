import Loxep.MonitorPolls
import Mathlib.Data.List.Sort
import Mathlib.Data.Prod.Lex

/-!
# Dispatching polls

A dispatcher claims the targets that are due, the most urgent first, and moves each on by its
interval; the poll then records how it went, and a failure backs its target off.
-/

namespace Loxep

def MAX_BACKOFF_SECONDS : ℤ := 3600

def backoffSeconds (intervalSeconds : ℤ) (consecutiveErrors : ℕ) : ℤ :=
  min (intervalSeconds * 2 ^ min consecutiveErrors 20) MAX_BACKOFF_SECONDS

def MonitorTargetRow.failed (at' : ℤ) (row : MonitorTargetRow) : MonitorTargetRow :=
  { row with
    lastPollAt := some at'
    consecutiveErrors := row.consecutiveErrors + 1
    backoffUntil := some
      (at' + backoffSeconds row.intervalSeconds (row.consecutiveErrors + 1) * 1000000) }

def MonitorTables.recordPollFailure (t : MonitorTables) (id : MonitorTargetId) (at' : JsDate) :
    PollResult (MonitorTargetRow × MonitorTables) := do
  let at' ← timestamptzLiteral at'
  match t.findTarget id with
  | none => .error (MonitorTables.unknownTargetError id)
  | some row => return (row.failed at', t.writeTarget (row.failed at'))

structure UpdateMonitorTargetInput where
  enabled : Option Bool := none
  intervalSeconds : Option { seconds : ℤ // 0 < seconds ∧ seconds ≤ 2147483647 } := none
  priority : Option ℤ := none
  config : Option ConfigJson := none
  nextPollAt : Option (Option ℤ) := none

def MonitorTargetRow.edited (row : MonitorTargetRow) (input : UpdateMonitorTargetInput) :
    MonitorTargetRow :=
  let row := match input.intervalSeconds with
    | none => row
    | some seconds => { row with intervalSeconds := seconds, interval_int4 := seconds.2.2 }
  { row with
    config := input.config.getD row.config
    nextPollAt := input.nextPollAt.getD row.nextPollAt }

def MonitorTargetRow.claimed (now : ℤ) (row : MonitorTargetRow) : MonitorTargetRow :=
  { row with nextPollAt := some (now + row.intervalSeconds * 1000000) }

/-- The tables, with the columns of a target that only the operator writes. -/
structure DispatchTables extends MonitorTables where
  enabled : MonitorTargetId → Bool
  priority : MonitorTargetId → ℤ

namespace DispatchTables

variable (t : DispatchTables)

def updateTarget (id : MonitorTargetId) (input : UpdateMonitorTargetInput) :
    PollResult DispatchTables :=
  match t.findTarget id with
  | none => .error (MonitorTables.unknownTargetError id)
  | some row => .ok
    { t.writeTarget (row.edited input) with
      enabled := Function.update t.enabled id (input.enabled.getD (t.enabled id))
      priority := Function.update t.priority id (input.priority.getD (t.priority id)) }

def isDue (now : ℤ) (row : MonitorTargetRow) : Bool :=
  t.enabled row.id && row.nextPollAt.any (· ≤ now) && row.backoffUntil.all (· ≤ now)

/-- `order by priority asc, next_poll_at asc`. -/
def urgency (row : MonitorTargetRow) : ℤ ×ₗ ℤ :=
  toLex (t.priority row.id, row.nextPollAt.getD 0)

def unlockedDue (now : ℤ) (locked : MonitorTargetId → Bool) : List MonitorTargetRow :=
  (t.targets.filter fun row => t.isDue now row && !locked row.id).insertionSort
    fun a b => t.urgency a ≤ t.urgency b

/-- One statement: it skips the rows that other transactions hold locked. -/
def claimDueTargets (now : JsDate) (limit : ℕ) (locked : MonitorTargetId → Bool) :
    PollResult (List MonitorTargetRow × DispatchTables) := do
  let now ← timestamptzLiteral now
  let due := (t.unlockedDue now locked).take limit
  let claim (row : MonitorTargetRow) :=
    if row.id ∈ due.map (·.id) then row.claimed now else row
  let claimed := due.map (·.claimed now)
  return (claimed.insertionSort fun a b => toLex (t.urgency a, a.id) ≤ toLex (t.urgency b, b.id),
    { t with targets := t.targets.map claim })

end DispatchTables

inductive DispatchAction
  | claim (now : JsDate) (limit : ℕ) (locked : MonitorTargetId → Bool)
  | success (id : MonitorTargetId) (options : RecordPollSuccessOptions)
  | failure (id : MonitorTargetId) (at' : JsDate)
  | edit (id : MonitorTargetId) (input : UpdateMonitorTargetInput)

inductive PollOutcome
  | succeeded
  | failed (at' intervalSeconds : ℤ)

/-- The tables and, not stored, what was recorded of each target's polls, the latest first. -/
structure DispatchRun extends DispatchTables where
  outcomes : MonitorTargetId → List PollOutcome := fun _ => []

namespace DispatchRun

variable (s : DispatchRun)

def recorded (id : MonitorTargetId) (outcome : PollOutcome) (t : MonitorTables) : DispatchRun where
  toDispatchTables := { s.toDispatchTables with toMonitorTables := t }
  outcomes := Function.update s.outcomes id (outcome :: s.outcomes id)

/-- A call that raises has written nothing. -/
def step : DispatchAction → DispatchRun
  | .claim now limit locked =>
    match s.claimDueTargets now limit locked with
    | .ok (_, t) => { s with toDispatchTables := t }
    | .error _ => s
  | .success id options =>
    match s.recordPollSuccess id options with
    | .ok (_, t) => s.recorded id .succeeded t
    | .error _ => s
  | .failure id at' =>
    match s.recordPollFailure id at' with
    | .ok (row, t) => s.recorded id (.failed at'.epochMicros row.intervalSeconds) t
    | .error _ => s
  | .edit id input =>
    match s.updateTarget id input with
    | .ok t => { s with toDispatchTables := t }
    | .error _ => s

end DispatchRun

end Loxep

import Loxep.Expenses
import Loxep.Lib.KeyedTable
import Loxep.Lib.Pointers

/-!
# Merging counterparties

A merge points a counterparty at its survivor, and with it what already pointed at it. Two rows
are read and checked without a lock; each `update` sees the rows committed before it started, waits
for a row that another transaction has written, and then looks at the row again.
-/

namespace Loxep

inductive CounterpartyErrorClass
  | notFound
  | merge
  | database

structure CounterpartyError where
  errorClass : CounterpartyErrorClass
  message : String

abbrev CounterpartyResult (α : Type) := Except CounterpartyError α

structure CounterpartyRow where
  id : CounterpartyId
  referenceCode : String
  mergedInto : Option CounterpartyId := none
  mergedAt : Option Timestamp := none

/-- `counterparties`, under its primary key. -/
structure MergeTables where
  counterparties : List CounterpartyRow
  ids_nodup : (counterparties.map (·.id)).Nodup

namespace MergeTables

variable (s : MergeTables)

def find (id : CounterpartyId) : Option CounterpartyRow :=
  KeyedTable.get CounterpartyRow.id s.counterparties id

/-- The `merged_into_counterparty_id` of a row. -/
def next (id : CounterpartyId) : Option CounterpartyId := (s.find id).bind (·.mergedInto)

def loadState (id : CounterpartyId) : CounterpartyResult CounterpartyRow :=
  match s.find id with
  | some row => .ok row
  | none => .error ⟨.notFound, s!"unknown counterparty \"{id}\""⟩

def resolve (id : CounterpartyId) : CounterpartyResult CounterpartyId := do
  let row ← s.loadState id
  return row.mergedInto.getD row.id

def referencesToMergedRows : List (CounterpartyId × CounterpartyId) :=
  s.counterparties.filterMap fun row => row.mergedInto.bind fun target =>
    if (s.next target).isSome then some (row.id, target) else none

/-- What is written to every row; an `update` leaves the keys. -/
def mapRows (f : CounterpartyRow → CounterpartyRow) (hf : ∀ row, (f row).id = row.id) :
    MergeTables where
  counterparties := s.counterparties.map f
  ids_nodup := by
    have hids : (s.counterparties.map f).map (·.id) = s.counterparties.map (·.id) := by
      rw [List.map_map]
      exact List.map_congr_left fun row _ => hf row
    rw [hids]
    exact s.ids_nodup

end MergeTables

def checkMerge (loser survivor : CounterpartyRow) : CounterpartyResult Unit := do
  match loser.mergedInto with
  | some other => throw ⟨.merge,
      s!"counterparty \"{loser.referenceCode}\" is already merged into " ++
      s!"\"{other}\": a second merge would build a pointer " ++
      "chain that the documented single-hop resolution cannot follow. " ++
      "Unmerge it first if the original merge was wrong."⟩
  | none =>
    match survivor.mergedInto with
    | some other => throw ⟨.merge,
        s!"cannot merge into counterparty \"{survivor.referenceCode}\": " ++
        s!"it is itself merged into \"{other}\". Merge into the " ++
        "surviving row instead. (This is also what makes a merge cycle " ++
        "unconstructible.)"⟩
    | none => return ()

/-- How far a session's transaction has come. -/
inductive MergeStage
  | idle
  /-- `merge`, the loser read. -/
  | loserRead (loser : CounterpartyRow) (survivorId : CounterpartyId)
  /-- Both rows are read, and the checks passed. -/
  | admitted (loser survivor : CounterpartyRow)
  /-- The compression has seen its rows; those of `done` are written. -/
  | compressing (loser survivor : CounterpartyRow) (left done : List CounterpartyId)
  /-- The loser is written too. -/
  | marked (loser survivor : CounterpartyRow) (done : List CounterpartyId)
  /-- `unmerge`, the row read and found merged. -/
  | unmerging (row : CounterpartyRow)
  | cleared (row : CounterpartyRow)

abbrev MergeSessionId := ℕ

inductive MergeAction
  | merge (session : MergeSessionId) (counterpartyId survivorId : CounterpartyId)
  | unmerge (session : MergeSessionId) (counterpartyId : CounterpartyId)
  | proceed (session : MergeSessionId)
  | commit (session : MergeSessionId) (now : Timestamp)
  | abort (session : MergeSessionId)

/-- The committed rows, who has written which of them, and the open transactions. -/
structure MergeSystem where
  tables : MergeTables
  lockedBy : CounterpartyId → Option MergeSessionId := fun _ => none
  stage : MergeSessionId → MergeStage := fun _ => .idle

namespace MergeSystem

variable (s : MergeSystem)

def setStage (session : MergeSessionId) (stage : MergeStage) : MergeSystem :=
  { s with stage := fun other => if other = session then stage else s.stage other }

def lock (session : MergeSessionId) (id : CounterpartyId) : MergeSystem :=
  { s with lockedBy := fun other => if other = id then some session else s.lockedBy other }

def close (session : MergeSessionId) : MergeSystem :=
  { s with
    lockedBy := fun id => if s.lockedBy id = some session then none else s.lockedBy id
    stage := fun other => if other = session then .idle else s.stage other }

/-- Another transaction has written the row. -/
def waits (session : MergeSessionId) (id : CounterpartyId) : Bool :=
  (s.lockedBy id).any (· != session)

/-- `merge` up to its first read. -/
def beginMerge (counterpartyId survivorId : CounterpartyId) : CounterpartyResult MergeStage := do
  Except.require (counterpartyId ≠ survivorId) (⟨.merge, "a counterparty cannot be merged into " ++
    "itself (counterparties_self_merge_check)"⟩ : CounterpartyError)
  let loser ← s.tables.loadState counterpartyId
  return .loserRead loser survivorId

/-- `unmerge` up to its check. -/
def beginUnmerge (counterpartyId : CounterpartyId) : CounterpartyResult MergeStage := do
  let row ← s.tables.loadState counterpartyId
  Except.require (row.mergedInto ≠ none)
    (⟨.merge, s!"counterparty \"{row.referenceCode}\" is not merged"⟩ : CounterpartyError)
  return .unmerging row

def readSurvivor (loser : CounterpartyRow) (survivorId : CounterpartyId) :
    CounterpartyResult MergeStage := do
  let survivor ← s.tables.loadState survivorId
  checkMerge loser survivor
  return .admitted loser survivor

/-- The rows the compression sees when it starts. -/
def pointingAt (id : CounterpartyId) : List CounterpartyId :=
  (s.tables.counterparties.filter (·.mergedInto == some id)).map (·.id)

def proceed (session : MergeSessionId) : MergeSystem :=
  match s.stage session with
  | .idle => s
  | .loserRead loser survivorId =>
    match s.readSurvivor loser survivorId with
    | .ok stage => s.setStage session stage
    | .error _ => s.close session
  | .admitted loser survivor =>
    s.setStage session (.compressing loser survivor (s.pointingAt loser.id) [])
  | .compressing loser survivor (id :: left) done =>
    if s.waits session id then s
    else if s.tables.next id ≠ some loser.id then
      s.setStage session (.compressing loser survivor left done)
    else if id = survivor.id then s.close session  -- `counterparties_self_merge_check`
    else (s.lock session id).setStage session (.compressing loser survivor left (done ++ [id]))
  | .compressing loser survivor [] done =>
    if s.waits session loser.id then s
    else (s.lock session loser.id).setStage session (.marked loser survivor done)
  | .marked _ _ _ => s
  | .unmerging row =>
    if s.waits session row.id then s
    else (s.lock session row.id).setStage session (.cleared row)
  | .cleared _ => s

def mergeRow (loser survivor : CounterpartyRow) (done : List CounterpartyId) (now : Timestamp)
    (row : CounterpartyRow) : CounterpartyRow :=
  if row.id = loser.id then { row with mergedInto := some survivor.id, mergedAt := some now }
  else if row.id ∈ done then { row with mergedInto := some survivor.id }
  else row

/-- What an unmerge has written. -/
def clearRow (cleared row : CounterpartyRow) : CounterpartyRow :=
  if row.id = cleared.id then { row with mergedInto := none, mergedAt := none } else row

theorem mergeRow_id {loser survivor : CounterpartyRow} {done : List CounterpartyId}
    {now : Timestamp} (row : CounterpartyRow) :
    (mergeRow loser survivor done now row).id = row.id := by
  unfold mergeRow
  split_ifs <;> rfl

theorem clearRow_id {cleared : CounterpartyRow} (row : CounterpartyRow) :
    (clearRow cleared row).id = row.id := by
  unfold clearRow
  split_ifs <;> rfl

def writeRows (f : CounterpartyRow → CounterpartyRow) (hf : ∀ row, (f row).id = row.id) :
    MergeSystem := { s with tables := s.tables.mapRows f hf }

def commit (session : MergeSessionId) (now : Timestamp) : MergeSystem :=
  match s.stage session with
  | .marked loser survivor done =>
    (s.writeRows (mergeRow loser survivor done now) mergeRow_id).close session
  | .cleared row => (s.writeRows (clearRow row) clearRow_id).close session
  | _ => s

def step : MergeAction → MergeSystem
  | .merge session counterpartyId survivorId =>
    match s.stage session, s.beginMerge counterpartyId survivorId with
    | .idle, .ok stage => s.setStage session stage
    | _, _ => s
  | .unmerge session counterpartyId =>
    match s.stage session, s.beginUnmerge counterpartyId with
    | .idle, .ok stage => s.setStage session stage
    | _, _ => s
  | .proceed session => s.proceed session
  | .commit session now => s.commit session now
  | .abort session => s.close session

end MergeSystem

end Loxep

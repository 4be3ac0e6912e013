import Loxep.FactTables

/-!
# Documents and their line candidates

A document is staged as line candidates; an operator gives each a disposition and confirms it
into an expense, an acquisition or an inventory item, which stamps it once.
-/

namespace Loxep

abbrev DocumentId := ℕ
abbrev CandidateId := ℕ

inductive Disposition
  | pending
  | expense
  | acquisitionCost
  | inventoryIntake
  | supplies
  | personal
  | notMine
  | duplicate
  | discarded
  deriving DecidableEq

inductive CandidateTargetKind
  | expense
  | acquisition
  | acquisitionCost
  | inventoryItem
  deriving DecidableEq

structure DocumentRow where
  id : DocumentId
  currency : Option String
  documentDate : Option CalendarDate
  counterpartyName : Option String
  economicEntityId : Option EntityId := none

structure DocumentLineCandidateRow where
  id : CandidateId
  documentId : DocumentId
  description : Option String
  quantity : Option Money
  unitAmount : Option Money
  lineAmount : Option Money
  lineDate : Option CalendarDate
  disposition : Disposition
  confirmedAt : Option Timestamp
  targetKind : Option CandidateTargetKind
  targetId : Option ℕ

def stampCandidate (candidates : List DocumentLineCandidateRow) (id : CandidateId) (now : Timestamp)
    (kind : CandidateTargetKind) (targetId : ℕ) :
    List DocumentLineCandidateRow :=
  candidates.map fun c => if c.id = id then
    { c with confirmedAt := some now, targetKind := some kind, targetId := some targetId } else c

end Loxep

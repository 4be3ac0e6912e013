import Loxep.Lib.Grouping
import Loxep.Materials
import Mathlib.Data.String.Basic

/-!
# Unbilled work

The billable entries and uses that no invoice line is linked to, listed and summed up by currency.
Whether a fact is billed is for a resolver to say. A currency's total is refused where a row of it
has no amount.
-/

namespace Loxep

inductive SourceFactType
  | timeEntry
  | projectMaterialUse

abbrev BilledResolver := SourceFactType → ℕ → Bool

def alwaysUnbilledResolver : BilledResolver := fun _ _ => false

structure UnbilledWorkFilter where
  projectId : Option ProjectId := none
  counterpartyId : Option CounterpartyId := none
  economicEntityId : Option EntityId := none
  limit : Option ℤ := none

namespace UnbilledWorkFilter

variable (filter : UnbilledWorkFilter)

def timePredicates (row : TimeEntryRow) : Bool :=
  filter.projectId.all (fun id => row.projectId == some id)
    && filter.counterpartyId.all (fun id => row.counterpartyId == some id)
    && filter.economicEntityId.all (fun id => row.economicEntityId == some id)

def materialPredicates (row : ProjectMaterialUseRow) : Bool :=
  filter.projectId.all (row.projectId == ·)

/-- `limitClause`. -/
def limited {R : Type} (rows : List R) : List R :=
  match filter.limit with
  | none => rows
  | some limit => rows.take (max 1 limit).toNat

end UnbilledWorkFilter

structure CurrencyTotal where
  currency : String
  count : ℕ
  totalAmount : Option Money

structure UnbilledTimeSummary where
  byCurrency : List CurrencyTotal
  unratedCount : ℕ

structure UnbilledMaterialSummary where
  byCurrency : List CurrencyTotal
  unpricedCount : ℕ

structure UnbilledWorkSummary where
  time : UnbilledTimeSummary
  materials : UnbilledMaterialSummary
  coversSourceTypes : List SourceFactType

structure CurrencyBucket where
  amounts : List Money := []
  count : ℕ := 0
  hasGap : Bool := false

/-- A row is counted; what it comes to is kept, or that it comes to nothing. -/
def CurrencyBucket.add (bucket : CurrencyBucket) (amount : Option Money) : CurrencyBucket where
  amounts := bucket.amounts ++ amount.toList
  count := bucket.count + 1
  hasGap := bucket.hasGap || amount.isNone

def CurrencyBucket.total (currency : String) (bucket : CurrencyBucket) : CurrencyTotal where
  currency
  count := bucket.count
  totalAmount := if bucket.hasGap then none else some (sumDecimals bucket.amounts)

def noCurrency : String := "—"

def swapCase (c : Char) : Char := if c.isUpper then c.toLower else c.toUpper

/-- `localeCompare` on alphabetic codes and the dash: the letters first, then lower case. -/
def localeRank (currency : String) : Bool ×ₗ String ×ₗ String :=
  toLex (currency != noCurrency,
    toLex (currency.toLower, String.ofList (currency.toList.map swapCase)))

def toTotals {R : Type} (currency : R → String) (amount : R → Option Money) (rows : List R) :
    List CurrencyTotal :=
  let buckets := Grouping.group currency
    (fun (bucket : CurrencyBucket) row => bucket.add (amount row)) {} rows
  (buckets.map fun group => group.2.total group.1).insertionSort
    fun a b => localeRank a.currency ≤ localeRank b.currency

namespace MaterialTables

variable (t : MaterialTables) (resolver : BilledResolver) (filter : UnbilledWorkFilter)

/-- `order by worked_on desc, created_at desc`. -/
def newestTime (rows : List TimeEntryRow) : List TimeEntryRow :=
  rows.insertionSort fun a b =>
    toLex (b.workedOn, b.createdAt) ≤ toLex (a.workedOn, a.createdAt)

/-- `order by consumed_on desc, created_at desc`. -/
def newestUses (rows : List ProjectMaterialUseRow) : List ProjectMaterialUseRow :=
  rows.insertionSort fun a b =>
    toLex (b.consumedOn, b.createdAt) ≤ toLex (a.consumedOn, a.createdAt)

def fetchCandidateTime : List TimeEntryRow :=
  filter.limited (newestTime (t.timeEntries.filter fun row =>
    row.billable && row.lockedAt.isNone && filter.timePredicates row))

def fetchCandidateMaterials : List ProjectMaterialUseRow :=
  filter.limited (newestUses (t.materialUses.filter fun row =>
    row.billable && row.lockedAt.isNone && filter.materialPredicates row))

def listUnbilledTime : List TimeEntryRow :=
  (t.fetchCandidateTime filter).filter fun row => !resolver .timeEntry row.id

def listUnbilledMaterials : List ProjectMaterialUseRow :=
  (t.fetchCandidateMaterials filter).filter fun row => !resolver .projectMaterialUse row.id

/-- The resolver is not asked. -/
def listUnratedBillableTime : List TimeEntryRow :=
  filter.limited (newestTime (t.timeEntries.filter fun row =>
    row.billable && row.lockedAt.isNone && row.billRateSource == .unresolved
      && filter.timePredicates row))

end MaterialTables

def TimeEntryRow.bucketCurrency (row : TimeEntryRow) : String := row.currency.getD noCurrency

def MaterialTables.summarize (t : MaterialTables) (resolver : BilledResolver)
    (filter : UnbilledWorkFilter) : UnbilledWorkSummary :=
  let unbilledTime := t.listUnbilledTime resolver filter
  let unbilledMaterials := t.listUnbilledMaterials resolver filter
  { time :=
      { byCurrency :=
          toTotals TimeEntryRow.bucketCurrency timeEntryBillableAmount unbilledTime
        unratedCount := unbilledTime.countP (·.billRateSource == .unresolved) }
    materials :=
      { byCurrency :=
          toTotals ProjectMaterialUseRow.currency materialUseLineAmount unbilledMaterials
        unpricedCount := unbilledMaterials.countP (materialUseLineAmount · == none) }
    coversSourceTypes := [.timeEntry, .projectMaterialUse] }

end Loxep

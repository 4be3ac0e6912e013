import Loxep.UnbilledWork
import Mathlib.Algebra.BigOperators.Group.Finset.Basic

/-!
# When the unbilled summary agrees with its lists

A bucket is a currency as it is written, so two spellings of one currency make two buckets, and an
entry without a rate is counted by what the resolver says of it while the list of such entries does
not ask.
-/

namespace Loxep

def SameCurrency (a b : String) : Prop := a.toUpper = b.toUpper

instance : DecidableRel SameCurrency :=
  fun a b => inferInstanceAs (Decidable (a.toUpper = b.toUpper))

section Buckets

variable {R : Type} {currency : R → String} {amount : R → Option Money} {rows : List R}

def rowsIn (currency : R → String) (rows : List R) (code : String) : List R :=
  rows.filter fun row => SameCurrency (currency row) code

/-- Each row is counted in the bucket of its currency, whose total is the sum of its rows' amounts.
-/
structure BucketsOf (currency : R → String) (amount : R → Option Money) (rows : List R)
    (totals : List CurrencyTotal) : Prop where
  one : ∀ row ∈ rows, ∃! total, total ∈ totals ∧ SameCurrency total.currency (currency row)
  distinct : totals.Pairwise fun a b => ¬ SameCurrency a.currency b.currency
  count : ∀ total ∈ totals, total.count = (rowsIn currency rows total.currency).length
  refused : ∀ total ∈ totals, total.totalAmount = none ↔
    ∃ row ∈ rowsIn currency rows total.currency, amount row = none
  summed : ∀ total ∈ totals, ∀ sum, total.totalAmount = some sum →
    sum = ((rowsIn currency rows total.currency).filterMap amount).sum

def SpelledAlike (currency : R → String) (rows : List R) : Prop :=
  ∀ row ∈ rows, ∀ row' ∈ rows, SameCurrency (currency row) (currency row') →
    currency row = currency row'

theorem foldl_add (rows : List R) (bucket : CurrencyBucket) :
    rows.foldl (fun (bucket : CurrencyBucket) row => bucket.add (amount row)) bucket =
      ⟨bucket.amounts ++ rows.filterMap amount, bucket.count + rows.length,
        bucket.hasGap || rows.any fun row => (amount row).isNone⟩ := by
  induction rows generalizing bucket with
  | nil => simp
  | cons row rows ih =>
    rw [List.foldl_cons, ih]
    rcases hrow : amount row with _ | value
    · simp [CurrencyBucket.add, hrow, add_comm, add_left_comm]
    · simp [CurrencyBucket.add, hrow, add_comm, add_left_comm]

def totalOf (currency : R → String) (amount : R → Option Money) (rows : List R) (code : String) :
    CurrencyTotal :=
  let spelled := Grouping.rowsOf currency rows code
  ⟨code, spelled.length,
    if spelled.any fun row => (amount row).isNone then none
      else some (spelled.filterMap amount).sum⟩

theorem exists_codes (currency : R → String) (amount : R → Option Money) (rows : List R) :
    ∃ codes : List String, codes.Nodup ∧ (∀ code, code ∈ codes ↔ code ∈ rows.map currency) ∧
      (toTotals currency amount rows).Perm (codes.map (totalOf currency amount rows)) := by
  have hgathers : Grouping.Gathers currency
      (fun (bucket : CurrencyBucket) row => bucket.add (amount row)) {} rows _ :=
    Grouping.gathers_group rows
  refine ⟨_, hgathers.keys, hgathers.mem_keys, ?_⟩
  unfold toTotals
  refine (List.perm_insertionSort _ _).trans (List.Perm.of_eq ?_)
  rw [List.map_map]
  refine List.map_congr_left fun group hgroup => ?_
  have hholds := hgathers.holds group.1 group.2 hgroup
  rw [foldl_add] at hholds
  simp only [Function.comp_apply, CurrencyBucket.total, totalOf, hholds, List.nil_append,
    Nat.zero_add, Bool.false_or, sumDecimals]

theorem mem_toTotals {total : CurrencyTotal} :
    total ∈ toTotals currency amount rows ↔
      ∃ row ∈ rows, totalOf currency amount rows (currency row) = total := by
  obtain ⟨codes, -, hcodes, hperm⟩ := exists_codes currency amount rows
  rw [hperm.mem_iff, List.mem_map]
  constructor
  · rintro ⟨code, hcode, rfl⟩
    obtain ⟨row, hrow, rfl⟩ := List.mem_map.1 ((hcodes code).1 hcode)
    exact ⟨row, hrow, rfl⟩
  · rintro ⟨row, hrow, rfl⟩
    exact ⟨_, (hcodes _).2 (List.mem_map_of_mem hrow), rfl⟩

theorem sum_counts (currency : R → String) (amount : R → Option Money) (rows : List R) :
    ((toTotals currency amount rows).map (·.count)).sum = rows.length := by
  obtain ⟨codes, hnodup, hcodes, hperm⟩ := exists_codes currency amount rows
  have hdedup : codes.Perm (rows.map currency).dedup := by
    rw [List.perm_ext_iff_of_nodup hnodup (List.nodup_dedup _)]
    intro code
    rw [hcodes, List.mem_dedup]
  rw [(hperm.map _).sum_eq, List.map_map, (hdedup.map _).sum_eq]
  have hcount : ∀ code, (totalOf currency amount rows code).count =
      (rows.map currency).count code := by
    intro code
    rw [List.count_eq_countP, List.countP_map, List.countP_eq_length_filter]
    refine congrArg List.length (List.filter_congr fun row _ => ?_)
    rw [Function.comp_apply, Bool.beq_eq_decide_eq]
  have hcounts : ((rows.map currency).dedup.map
      ((·.count) ∘ totalOf currency amount rows)) =
      (rows.map currency).dedup.map ((rows.map currency).count ·) :=
    List.map_congr_left fun code _ => hcount code
  rw [hcounts, List.sum_map_count_dedup_eq_length, List.length_map]

theorem rowsOf_eq_rowsIn (h : SpelledAlike currency rows) {row : R} (hrow : row ∈ rows) :
    Grouping.rowsOf currency rows (currency row) = rowsIn currency rows (currency row) := by
  unfold Grouping.rowsOf rowsIn
  refine List.filter_congr fun other hother => decide_eq_decide.2 ⟨fun heq => ?_, fun hsame => ?_⟩
  · rw [heq]
    rfl
  · exact h other hother row hrow hsame

theorem bucketsOf_iff : BucketsOf currency amount rows (toTotals currency amount rows) ↔
    SpelledAlike currency rows := by
  constructor
  · intro hbuckets row hrow row' hrow' hsame
    obtain ⟨total, -, hunique⟩ := hbuckets.one row hrow
    have hown := hunique _ ⟨mem_toTotals.2 ⟨row, hrow, rfl⟩, rfl⟩
    have hother := hunique _ ⟨mem_toTotals.2 ⟨row', hrow', rfl⟩, hsame.symm⟩
    exact congrArg CurrencyTotal.currency (hown.trans hother.symm)
  · intro h
    refine ⟨fun row hrow => ?_, ?_, ?_, ?_, ?_⟩
    · refine ⟨_, ⟨mem_toTotals.2 ⟨row, hrow, rfl⟩, rfl⟩, fun total htotal => ?_⟩
      obtain ⟨other, hother, rfl⟩ := mem_toTotals.1 htotal.1
      rw [h other hother row hrow htotal.2]
    · obtain ⟨codes, hnodup, hcodes, hperm⟩ := exists_codes currency amount rows
      rw [hperm.pairwise_iff fun hab hba => hab hba.symm, List.pairwise_map]
      refine hnodup.imp_of_mem fun {code code'} hcode hcode' hne hsame => hne ?_
      obtain ⟨row, hrow, rfl⟩ := List.mem_map.1 ((hcodes code).1 hcode)
      obtain ⟨row', hrow', rfl⟩ := List.mem_map.1 ((hcodes code').1 hcode')
      exact h row hrow row' hrow' hsame
    · intro total htotal
      obtain ⟨row, hrow, rfl⟩ := mem_toTotals.1 htotal
      exact congrArg List.length (rowsOf_eq_rowsIn h hrow)
    · intro total htotal
      obtain ⟨row, hrow, rfl⟩ := mem_toTotals.1 htotal
      simp only [totalOf, rowsOf_eq_rowsIn h hrow]
      split_ifs with hgap
      · simpa using hgap
      · simpa using hgap
    · intro total htotal sum hsum
      obtain ⟨row, hrow, rfl⟩ := mem_toTotals.1 htotal
      simp only [totalOf, rowsOf_eq_rowsIn h hrow] at hsum ⊢
      split_ifs at hsum
      exact (Option.some.inj hsum).symm

end Buckets

namespace MaterialTables

variable {t : MaterialTables} {resolver : BilledResolver} {filter : UnbilledWorkFilter}

structure SummaryAgrees (t : MaterialTables) (resolver : BilledResolver)
    (filter : UnbilledWorkFilter) : Prop where
  time : BucketsOf TimeEntryRow.bucketCurrency timeEntryBillableAmount
    (t.listUnbilledTime resolver filter) (t.summarize resolver filter).time.byCurrency
  materials : BucketsOf ProjectMaterialUseRow.currency materialUseLineAmount
    (t.listUnbilledMaterials resolver filter) (t.summarize resolver filter).materials.byCurrency
  unrated : (t.summarize resolver filter).time.unratedCount =
    (t.listUnratedBillableTime filter).length
  time_counts : ((t.summarize resolver filter).time.byCurrency.map (·.count)).sum =
    (t.listUnbilledTime resolver filter).length
  material_counts : ((t.summarize resolver filter).materials.byCurrency.map (·.count)).sum =
    (t.listUnbilledMaterials resolver filter).length

theorem summarize_time_iff : BucketsOf TimeEntryRow.bucketCurrency timeEntryBillableAmount
    (t.listUnbilledTime resolver filter) (t.summarize resolver filter).time.byCurrency ↔
      SpelledAlike TimeEntryRow.bucketCurrency (t.listUnbilledTime resolver filter) :=
  bucketsOf_iff

theorem summarize_materials_iff : BucketsOf ProjectMaterialUseRow.currency materialUseLineAmount
    (t.listUnbilledMaterials resolver filter) (t.summarize resolver filter).materials.byCurrency ↔
      SpelledAlike ProjectMaterialUseRow.currency (t.listUnbilledMaterials resolver filter) :=
  bucketsOf_iff

theorem newestTime_perm (rows : List TimeEntryRow) : (newestTime rows).Perm rows :=
  List.perm_insertionSort _ _

theorem unratedCount_eq (hlimit : filter.limit = none) :
    (t.summarize resolver filter).time.unratedCount =
      ((t.listUnratedBillableTime filter).filter
        fun row => !resolver .timeEntry row.id).length := by
  show (t.listUnbilledTime resolver filter).countP (·.billRateSource == .unresolved) = _
  unfold listUnbilledTime listUnratedBillableTime fetchCandidateTime UnbilledWorkFilter.limited
  rw [hlimit]
  simp only [List.countP_filter, ← List.countP_eq_length_filter]
  rw [(newestTime_perm _).countP_eq, (newestTime_perm _).countP_eq, List.countP_filter,
    List.countP_filter]
  refine List.countP_congr fun row _ => ?_
  simp only [Bool.and_eq_true]
  tauto

/-- The summary agrees with its lists exactly if no two rows of a list spell one currency in two
ways and the resolver has billed no entry that has no rate. -/
theorem summary_agrees_iff (hlimit : filter.limit = none) : t.SummaryAgrees resolver filter ↔
    SpelledAlike TimeEntryRow.bucketCurrency (t.listUnbilledTime resolver filter) ∧
    SpelledAlike ProjectMaterialUseRow.currency (t.listUnbilledMaterials resolver filter) ∧
    ∀ row ∈ t.listUnratedBillableTime filter, resolver .timeEntry row.id = false := by
  have hunrated : (t.summarize resolver filter).time.unratedCount =
      (t.listUnratedBillableTime filter).length ↔
        ∀ row ∈ t.listUnratedBillableTime filter, resolver .timeEntry row.id = false := by
    rw [unratedCount_eq hlimit, List.length_filter_eq_length_iff]
    simp
  constructor
  · rintro ⟨htime, hmaterials, hcount, -, -⟩
    exact ⟨summarize_time_iff.1 htime, summarize_materials_iff.1 hmaterials, hunrated.1 hcount⟩
  · rintro ⟨htime, hmaterials, hbilled⟩
    exact ⟨summarize_time_iff.2 htime, summarize_materials_iff.2 hmaterials, hunrated.2 hbilled,
      sum_counts _ _ _, sum_counts _ _ _⟩

end MaterialTables

namespace TwoSpellings

def noon : Timestamp := ⟨⟨2026, 3, 2⟩, 43_200_000_000⟩

def entry (id : TimeEntryId) (currency : String) : TimeEntryRow where
  id := id
  projectId := some 1
  counterpartyId := some 1
  economicEntityId := none
  workedByUserId := none
  workedByCounterpartyId := none
  workedByLabel := "Ada"
  activityCode := none
  description := none
  workedOn := ⟨2026, 3, 2⟩
  startedAt := none
  endedAt := none
  minutes := 60
  billable := true
  billableMinutes := 60
  currency := some currency
  billRateAmount := some 100_000_000
  billRateSource := .manual
  costRateAmount := none
  costRateSource := .unresolved
  billingRateId := none
  createdByUserId := none
  createdAt := noon
  updatedAt := noon

def tables (entries : List TimeEntryRow) : WorkTables :=
  ⟨[], [1], [], [⟨1, some 1, none⟩], [], entries⟩

theorem sameCurrency : SameCurrency "USD" "usd" := by
  refine String.ext ?_
  rw [String.toUpper, String.toUpper, String.toList_map, String.toList_map]
  decide

def materialTables (entries : List TimeEntryRow) : MaterialTables :=
  { tables entries with }

end TwoSpellings

open TwoSpellings

theorem one_hour_agrees :
    (materialTables [entry 1 "USD"]).SummaryAgrees alwaysUnbilledResolver {} := by
  refine (MaterialTables.summary_agrees_iff rfl).2 ⟨?_, ?_, fun _ _ => rfl⟩
  · have hlist : (materialTables [entry 1 "USD"]).listUnbilledTime alwaysUnbilledResolver {} =
        [entry 1 "USD"] := by decide +kernel
    simp [SpelledAlike, hlist]
  · have hlist : (materialTables [entry 1 "USD"]).listUnbilledMaterials alwaysUnbilledResolver {} =
        [] := by decide +kernel
    simp [SpelledAlike, hlist]

theorem two_spellings_apart : ¬ ∀ (t : MaterialTables) (resolver : BilledResolver)
    (filter : UnbilledWorkFilter), filter.limit = none → t.SummaryAgrees resolver filter := by
  intro hall
  have htime := (hall (materialTables [entry 1 "USD", entry 2 "usd"]) alwaysUnbilledResolver {}
    rfl).time
  rw [MaterialTables.summarize_time_iff] at htime
  have hspelled := htime (entry 1 "USD") (by decide +kernel) (entry 2 "usd") (by decide +kernel)
    sameCurrency
  have hne : (entry 1 "USD").bucketCurrency ≠ (entry 2 "usd").bucketCurrency := by decide
  exact hne hspelled

end Loxep

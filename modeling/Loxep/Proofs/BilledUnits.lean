import Loxep.BilledAmounts
import Loxep.Proofs.BillableMinutes

/-!
# What a rate's unit is worth

The ladder freezes the amount of the narrowest rate that covers the day. Its unit is not read, and
the amount is valued by the hour later on.
-/

namespace Loxep

/-- How narrow a scope is. The last two are on no rate. -/
def RateSource.rank : RateSource → ℕ
  | .projectPerson => 0
  | .project => 1
  | .counterparty => 2
  | .person => 3
  | .activity => 4
  | .installation => 5
  | .manual | .unresolved => 6

namespace RateResolutionInput

variable (input : RateResolutionInput)

def IsSubjectOf (rate : BillingRateRow) : Prop :=
  (∃ user, input.workedByUserId = some user ∧ rate.subjectUserId = some user) ∨
    ∃ counterparty, input.workedByUserId = none ∧ input.workedByCounterpartyId = some counterparty ∧
      rate.subjectCounterpartyId = some counterparty

def IsProjectOf (rate : BillingRateRow) : Prop :=
  ∃ project, input.projectId = some project ∧ rate.projectId = some project

def InScope (rate : BillingRateRow) : Prop :=
  match rate.scopeKind with
  | .projectPerson => input.IsProjectOf rate ∧ input.IsSubjectOf rate
  | .project => input.IsProjectOf rate
  | .counterparty => ∃ client, input.counterpartyId = some client ∧ rate.counterpartyId = some client
  | .person => input.IsSubjectOf rate
  | .activity => ∃ code, input.activityCode = some code ∧ rate.activityCode = some code
  | .installation => True
  | .manual | .unresolved => False

/-- The rate is of the kind asked for, covers the day and its scope holds the work. -/
structure Applies (rate : BillingRateRow) : Prop where
  kind : rate.rateKind = input.rateKind
  started : rate.effectiveFrom ≤ input.workedOn
  lasting : ∀ last ∈ rate.effectiveTo, input.workedOn ≤ last
  scope : input.InScope rate

end RateResolutionInput

/-- The rate of the narrowest scope that applies, the latest start winning within a scope. -/
structure Wins (rates : List BillingRateRow) (input : RateResolutionInput) (rate : BillingRateRow)
    : Prop where
  mem : rate ∈ rates
  applies : input.Applies rate
  narrowest : ∀ other ∈ rates, input.Applies other → rate.scopeKind.rank ≤ other.scopeKind.rank
  latest : ∀ other ∈ rates, input.Applies other → other.scopeKind = rate.scopeKind →
    toLex (other.effectiveFrom, other.id) ≤ toLex (rate.effectiveFrom, rate.id)

theorem latestRate_eq_none {rates : List BillingRateRow} :
    latestRate rates = none ↔ rates = [] := by
  unfold latestRate
  rw [List.head?_eq_none_iff, ← List.length_eq_zero_iff, List.length_insertionSort,
    List.length_eq_zero_iff]

theorem latestRate_eq_some {rates : List BillingRateRow} {rate : BillingRateRow}
    (h : latestRate rates = some rate) : rate ∈ rates ∧ ∀ other ∈ rates,
      toLex (other.effectiveFrom, other.id) ≤ toLex (rate.effectiveFrom, rate.id) := by
  unfold latestRate at h
  obtain ⟨rest, hsorted⟩ := List.head?_eq_some_iff.1 h
  have hmem : ∀ other, other ∈ rates ↔ other ∈ rate :: rest := fun other => by
    rw [← hsorted, List.mem_insertionSort]
  have hpairwise : (rate :: rest).Pairwise fun a b =>
      toLex (b.effectiveFrom, b.id) ≤ toLex (a.effectiveFrom, a.id) := by
    rw [← hsorted]
    have : Std.Total fun a b : BillingRateRow =>
        toLex (b.effectiveFrom, b.id) ≤ toLex (a.effectiveFrom, a.id) :=
      ⟨fun a b => le_total _ _⟩
    have : IsTrans BillingRateRow fun a b =>
        toLex (b.effectiveFrom, b.id) ≤ toLex (a.effectiveFrom, a.id) :=
      ⟨fun a b c hab hbc => hbc.trans hab⟩
    exact List.pairwise_insertionSort _ _
  refine ⟨(hmem rate).2 List.mem_cons_self, fun other hother => ?_⟩
  rcases List.mem_cons.1 ((hmem other).1 hother) with rfl | hrest
  · exact le_rfl
  · exact List.rel_of_pairwise_cons hpairwise hrest

namespace RateResolutionInput

variable {input : RateResolutionInput} {rates : List BillingRateRow} {rate : BillingRateRow}

def rungRate (input : RateResolutionInput) (rates : List BillingRateRow) (rung : Rung) :
    Option BillingRateRow :=
  rung.predicate.bind fun predicate =>
    latestRate (rates.filter fun rate => input.covers rung.source rate && predicate rate)

theorem subjectPredicate_iff : (∃ p, input.subjectPredicate = some p ∧ p rate = true) ↔
    input.IsSubjectOf rate := by
  unfold subjectPredicate IsSubjectOf
  rcases input.workedByUserId with _ | user <;>
    rcases input.workedByCounterpartyId with _ | counterparty <;> simp

theorem projectPredicate_iff : (∃ p, input.projectPredicate = some p ∧ p rate = true) ↔
    input.IsProjectOf rate := by
  unfold projectPredicate IsProjectOf
  rcases input.projectId with _ | project <;> simp

theorem both_iff {p q : Option (BillingRateRow → Bool)} :
    (∃ r, (p.bind fun f => q.map fun g rate => f rate && g rate) = some r ∧ r rate = true) ↔
      (∃ f, p = some f ∧ f rate = true) ∧ ∃ g, q = some g ∧ g rate = true := by
  rcases p with _ | f <;> rcases q with _ | g <;> simp

variable {rung : Rung}

theorem inScope_iff_of_mem (h : rung ∈ input.buildRungs) (hscope : rate.scopeKind = rung.source) :
    (∃ p, rung.predicate = some p ∧ p rate = true) ↔ input.InScope rate := by
  simp only [buildRungs, List.mem_cons, List.not_mem_nil, or_false] at h
  rcases h with rfl | rfl | rfl | rfl | rfl | rfl <;> simp only [InScope, hscope]
  · rw [both_iff, projectPredicate_iff, subjectPredicate_iff]
  · exact projectPredicate_iff
  · rcases input.counterpartyId with _ | counterparty <;> simp
  · exact subjectPredicate_iff
  · rcases input.activityCode with _ | code <;> simp
  · simp

theorem applies_iff_covers : input.Applies rate ↔
    input.covers rate.scopeKind rate = true ∧ input.InScope rate := by
  unfold covers
  simp only [Bool.and_eq_true, beq_iff_eq, decide_eq_true_eq, Option.all_eq_true]
  constructor
  · rintro ⟨hkind, hstarted, hlasting, hscope⟩
    exact ⟨⟨⟨⟨hkind, trivial⟩, hstarted⟩, hlasting⟩, hscope⟩
  · rintro ⟨⟨⟨⟨hkind, -⟩, hstarted⟩, hlasting⟩, hscope⟩
    exact ⟨hkind, hstarted, hlasting, hscope⟩

theorem mem_candidates_iff {p : BillingRateRow → Bool} (h : rung ∈ input.buildRungs)
    (hp : rung.predicate = some p) :
    rate ∈ rates.filter (fun rate => input.covers rung.source rate && p rate) ↔
      rate ∈ rates ∧ input.Applies rate ∧ rate.scopeKind = rung.source := by
  rw [List.mem_filter, Bool.and_eq_true, applies_iff_covers]
  refine and_congr_right fun _ => ?_
  constructor
  · rintro ⟨hcovers, hholds⟩
    have hscope : rate.scopeKind = rung.source := by
      unfold covers at hcovers
      simp only [Bool.and_eq_true, beq_iff_eq] at hcovers
      exact hcovers.1.1.2
    exact ⟨⟨hscope ▸ hcovers, (inScope_iff_of_mem h hscope).1 ⟨p, hp, hholds⟩⟩, hscope⟩
  · rintro ⟨⟨hcovers, hin⟩, hscope⟩
    obtain ⟨q, hq, hholds⟩ := (inScope_iff_of_mem h hscope).2 hin
    obtain rfl := Option.some.inj (hp.symm.trans hq)
    exact ⟨hscope ▸ hcovers, hholds⟩

theorem not_applies_of_rungRate (h : rung ∈ input.buildRungs)
    (hnone : input.rungRate rates rung = none) (hrate : rate ∈ rates)
    (hscope : rate.scopeKind = rung.source) : ¬ input.Applies rate := by
  intro happlies
  obtain ⟨p, hp, -⟩ := (inScope_iff_of_mem h hscope).2 happlies.scope
  rw [rungRate, hp, Option.bind_some, latestRate_eq_none] at hnone
  have hmem := (mem_candidates_iff h hp).2 ⟨hrate, happlies, hscope⟩
  rw [hnone] at hmem
  cases hmem

theorem rungRate_eq_some (h : rung ∈ input.buildRungs)
    (hsome : input.rungRate rates rung = some rate) :
    rate ∈ rates ∧ input.Applies rate ∧ rate.scopeKind = rung.source ∧
      ∀ other ∈ rates, input.Applies other → other.scopeKind = rate.scopeKind →
        toLex (other.effectiveFrom, other.id) ≤ toLex (rate.effectiveFrom, rate.id) := by
  obtain ⟨p, hp, hlatest⟩ := Option.bind_eq_some_iff.1 hsome
  obtain ⟨hmem, hall⟩ := latestRate_eq_some hlatest
  obtain ⟨hrate, happlies, hscope⟩ := (mem_candidates_iff h hp).1 hmem
  refine ⟨hrate, happlies, hscope, fun other hother hother' hsame => ?_⟩
  exact hall other ((mem_candidates_iff h hp).2 ⟨hother, hother', hsame.trans hscope⟩)

theorem buildRungs_ranked (input : RateResolutionInput) :
    input.buildRungs.Pairwise fun a b => a.source.rank < b.source.rank := by
  simp [buildRungs, RateSource.rank]

theorem exists_rung (h : input.Applies rate) :
    ∃ rung ∈ input.buildRungs, rate.scopeKind = rung.source := by
  have hscope := h.scope
  unfold InScope at hscope
  rcases hkind : rate.scopeKind <;> rw [hkind] at hscope <;> simp [buildRungs] at hscope ⊢

theorem resolveRate_eq (rates : List BillingRateRow) (input : RateResolutionInput) :
    resolveRate rates input = (input.buildRungs.findSome? fun rung =>
      (input.rungRate rates rung).map fun rate =>
        (⟨some rate.amount, some rate.currency, rung.source, some rate.id⟩ :
          RateResolutionResult)).getD unresolvedRate := by
  unfold resolveRate rungRate
  simp only [Option.map_bind]
  rfl

theorem resolveRate_cases (rates : List BillingRateRow) (input : RateResolutionInput) :
    (∃ rate, Wins rates input rate ∧ resolveRate rates input =
        ⟨some rate.amount, some rate.currency, rate.scopeKind, some rate.id⟩) ∨
      (∀ rate ∈ rates, ¬ input.Applies rate) ∧ resolveRate rates input = unresolvedRate := by
  rw [resolveRate_eq]
  rcases hfound : input.buildRungs.findSome? _ with _ | result
  · refine .inr ⟨fun rate hrate happlies => ?_, rfl⟩
    obtain ⟨rung, hrung, hscope⟩ := exists_rung happlies
    have hnone := List.findSome?_eq_none_iff.1 hfound rung hrung
    rw [Option.map_eq_none_iff] at hnone
    exact not_applies_of_rungRate hrung hnone hrate hscope happlies
  · refine .inl ?_
    obtain ⟨before, rung, after, hsplit, hrung, hbefore⟩ := List.findSome?_eq_some_iff.1 hfound
    obtain ⟨rate, hrate, rfl⟩ := Option.map_eq_some_iff.1 hrung
    have hmem : rung ∈ input.buildRungs := by simp [hsplit]
    obtain ⟨hin, happlies, hscope, hlatest⟩ := rungRate_eq_some hmem hrate
    refine ⟨rate, ⟨hin, happlies, fun other hother hother' => ?_, hlatest⟩, by rw [hscope]; rfl⟩
    obtain ⟨rung', hrung', hscope'⟩ := exists_rung hother'
    have hranked := input.buildRungs_ranked
    rw [hsplit, List.mem_append] at hrung'
    rw [hsplit, List.pairwise_append] at hranked
    rw [hscope, hscope']
    rcases hrung' with hearlier | hlater
    · have hnone := hbefore rung' hearlier
      rw [Option.map_eq_none_iff] at hnone
      have hmem' : rung' ∈ input.buildRungs := by simp [hsplit, hearlier]
      exact absurd hother' (not_applies_of_rungRate hmem' hnone hother hscope')
    · rcases List.mem_cons.1 hlater with rfl | hafter
      · exact le_rfl
      · exact (List.rel_of_pairwise_cons hranked.2.1 hafter).le

theorem resolveRate_of_wins (hkeys : (rates.map (·.id)).Nodup) (h : Wins rates input rate) :
    resolveRate rates input =
      ⟨some rate.amount, some rate.currency, rate.scopeKind, some rate.id⟩ := by
  rcases resolveRate_cases rates input with ⟨found, hfound, heq⟩ | ⟨hnone, -⟩
  · have hrank := le_antisymm (h.narrowest found hfound.mem hfound.applies)
      (hfound.narrowest rate h.mem h.applies)
    have hscope : found.scopeKind = rate.scopeKind := by
      have hf := hfound.applies.scope
      have hr := h.applies.scope
      unfold InScope at hf hr
      revert hf hr hrank
      rcases found.scopeKind <;> rcases rate.scopeKind <;> simp [RateSource.rank]
    have hsame := le_antisymm (h.latest found hfound.mem hfound.applies hscope)
      (hfound.latest rate h.mem h.applies hscope.symm)
    have hid : found.id = rate.id := (Prod.mk.inj (toLex_inj.1 hsame)).2
    obtain rfl := List.inj_on_of_nodup_map hkeys hfound.mem h.mem hid
    exact heq
  · exact absurd h.applies (hnone rate h.mem)

end RateResolutionInput

/-- How long a working day is taken to be: no less than three hours. -/
structure WorkingDay where
  minutes : ℕ
  long : 180 ≤ minutes

def RateUnit.worth (day : WorkingDay) (amount : Money) (minutes : ℤ) : RateUnit → Money
  | .hour => Rounding.nearest (minutes * amount) 60
  | .day => Rounding.nearest (minutes * amount) day.minutes
  | .fixed => amount

def RateUnit.WorthAsHours (amount : Money) (minutes : ℤ) : RateUnit → Prop
  | .hour => True
  | .day => minutes * amount < 30
  | .fixed => -30 ≤ (minutes - 60) * amount ∧ (minutes - 60) * amount < 30

variable {day : WorkingDay}

theorem halfUp_day_eq_iff {n : ℕ} :
    Rounding.halfUp n 60 = Rounding.halfUp n day.minutes ↔ n < 30 := by
  have hlong := day.long
  constructor
  · intro hsame
    by_contra hmany
    obtain ⟨hle, hlt⟩ := (Rounding.halfUp_eq_iff (by omega)).1 hsame.symm
    obtain ⟨hle', hlt'⟩ := (Rounding.halfUp_eq_iff (n := n) (d := 60) (by omega)).1 rfl
    generalize Rounding.halfUp n 60 = k at hle hlt hle' hlt'
    rcases k with _ | k
    · omega
    · have hmul : 180 * k ≤ day.minutes * k := Nat.mul_le_mul_right k hlong
      have hexpand : 2 * day.minutes * (k + 1) = 2 * (day.minutes * k) + 2 * day.minutes := by ring
      omega
  · intro hfew
    rw [(Rounding.halfUp_eq_zero_iff (by omega)).2 (by omega),
      (Rounding.halfUp_eq_zero_iff (by omega)).2 (by omega)]

theorem RateUnit.worth_hour_eq_iff {amount : Money} {minutes : ℤ} (hamount : 0 ≤ amount)
    (hminutes : 0 < minutes) (unit : RateUnit) :
    Rounding.nearest (minutes * amount) 60 = unit.worth day amount minutes ↔
      unit.WorthAsHours amount minutes := by
  obtain ⟨m, rfl⟩ := Int.eq_ofNat_of_zero_le hminutes.le
  obtain ⟨a, rfl⟩ := Int.eq_ofNat_of_zero_le hamount
  cases unit with
  | hour => exact iff_of_true rfl trivial
  | day =>
    simp only [worth, WorthAsHours, ← Nat.cast_mul, Rounding.nearest_natCast, Nat.cast_inj,
      halfUp_day_eq_iff]
    omega
  | fixed =>
    simp only [worth, WorthAsHours, ← Nat.cast_mul, Rounding.nearest_natCast, Nat.cast_inj]
    rw [Rounding.halfUp_eq_iff (by omega), sub_mul, ← Nat.cast_mul]
    omega

/-- What `billing_rates_pkey` and `billing_rates_amount_check` keep of the card. -/
structure WorkTables.CardKept (t : WorkTables) : Prop where
  keys : (t.billingRates.map (·.id)).Nodup
  amounts : ∀ rate ∈ t.billingRates, 0 ≤ rate.amount

/-- The rate of a recorded entry is the one that wins, and its value is by the rate's own unit. -/
structure TimeEntryRow.RatedRight (day : WorkingDay) (t : WorkTables) (row : TimeEntryRow) :
    Prop where
  frozen : ∀ rate, Wins t.billingRates (WorkTables.ladderOf row .bill) rate →
    row.billRateAmount = some rate.amount ∧ row.billRateSource = rate.scopeKind ∧
      row.billingRateId = some rate.id
  unresolved : (∀ rate ∈ t.billingRates, ¬ (WorkTables.ladderOf row .bill).Applies rate) →
    row.billRateAmount = none ∧ row.billRateSource = .unresolved
  valued : ∀ rate, Wins t.billingRates (WorkTables.ladderOf row .bill) rate →
    row.billable = true → 0 < row.billableMinutes →
      timeEntryBillableAmount row = some (rate.unit.worth day rate.amount row.billableMinutes)

theorem WorkTables.record_rate {t : WorkTables} {input : RecordTimeEntryInput} {id : TimeEntryId}
    {now : Timestamp} {r : TimeEntryRow × WorkTables} (h : t.record input id now = .ok r)
    (hown : input.billRateAmount = none) :
    r.1.billRateAmount = (resolveRate t.billingRates (ladderOf r.1 .bill)).amount ∧
      r.1.billRateSource = (resolveRate t.billingRates (ladderOf r.1 .bill)).source ∧
      r.1.billingRateId = (resolveRate t.billingRates (ladderOf r.1 .bill)).billingRateId := by
  simp only [record, RecordTimeEntryInput.parse, Except.bind_eq_ok, Except.pure_eq_ok] at h
  obtain ⟨_, ⟨_, _, rfl⟩, ⟨counterpartyId, economicEntityId⟩, _, currency, _, t', -, rfl⟩ := h
  have hladder : input.trimmed.billRateAmount = none := hown
  simp only [RecordTimeEntryInput.rate, hladder]
  exact ⟨rfl, rfl, rfl⟩

/-- An entry recorded without a rate of its own is rated and valued right exactly if its minutes
come to the same by the hour as by the unit of the rate that wins. -/
theorem rated_right_iff (day : WorkingDay) {t : WorkTables} {input : RecordTimeEntryInput}
    {id : TimeEntryId} {now : Timestamp} {r : TimeEntryRow × WorkTables} (hcard : t.CardKept)
    (h : t.record input id now = .ok r) (hown : input.billRateAmount = none) :
    r.1.RatedRight day t ↔ ∀ rate, Wins t.billingRates (WorkTables.ladderOf r.1 .bill) rate →
      r.1.billable = true → 0 < r.1.billableMinutes →
        rate.unit.WorthAsHours rate.amount r.1.billableMinutes := by
  obtain ⟨hamount, hsource, hid⟩ := WorkTables.record_rate h hown
  have hvalue : ∀ rate, Wins t.billingRates (WorkTables.ladderOf r.1 .bill) rate →
      r.1.billable = true → 0 < r.1.billableMinutes →
      (timeEntryBillableAmount r.1 = some (rate.unit.worth day rate.amount r.1.billableMinutes) ↔
        rate.unit.WorthAsHours rate.amount r.1.billableMinutes) := by
    intro rate hrate hbillable hminutes
    rw [RateResolutionInput.resolveRate_of_wins hcard.keys hrate] at hamount
    rw [timeEntryBillableAmount_eq_some hamount hbillable hminutes, Option.some_inj]
    exact RateUnit.worth_hour_eq_iff (hcard.amounts rate hrate.mem) hminutes rate.unit
  constructor
  · intro hright rate hrate hbillable hminutes
    exact (hvalue rate hrate hbillable hminutes).1 (hright.valued rate hrate hbillable hminutes)
  · intro hworth
    refine ⟨fun rate hrate => ?_, fun hnone => ?_, fun rate hrate hbillable hminutes => ?_⟩
    · rw [hamount, hsource, hid, RateResolutionInput.resolveRate_of_wins hcard.keys hrate]
      exact ⟨rfl, rfl, rfl⟩
    · rw [hamount, hsource]
      rcases RateResolutionInput.resolveRate_cases t.billingRates (WorkTables.ladderOf r.1 .bill)
        with ⟨rate, hrate, -⟩ | ⟨-, heq⟩
      · exact absurd hrate.applies (hnone rate hrate.mem)
      · rw [heq]
        exact ⟨rfl, rfl⟩
    · exact (hvalue rate hrate hbillable hminutes).2 (hworth rate hrate hbillable hminutes)

section Examples

namespace RateCard

def tables (unit : RateUnit) : WorkTables :=
  ⟨[], [1], [], [⟨1, some 1, none⟩],
    [{ id := 1, scopeKind := .installation, rateKind := .bill, currency := "USD",
       amount := 95_000_000, effectiveFrom := ⟨2026, 1, 1⟩ },
     { id := 2, scopeKind := .project, projectId := some 1, rateKind := .bill, currency := "USD",
       amount := 500_000_000, unit := unit, effectiveFrom := ⟨2026, 2, 1⟩ }], []⟩

def halfHour : RecordTimeEntryInput where
  projectId := some 1
  workedByLabel := "Ada"
  workedOn := ⟨2026, 3, 2⟩
  minutes := 30

def clock : Timestamp := ⟨⟨2026, 3, 2⟩, 36_000_000_000⟩

def entry : TimeEntryRow where
  id := 1
  projectId := some 1
  counterpartyId := some 1
  economicEntityId := none
  workedByUserId := none
  workedByCounterpartyId := none
  workedByLabel := "Ada"
  activityCode := none
  description := none
  workedOn := ⟨2026, 3, 2⟩
  startedAt := none
  endedAt := none
  minutes := 30
  billable := true
  billableMinutes := 30
  currency := some "USD"
  billRateAmount := some 500_000_000
  billRateSource := .project
  costRateAmount := none
  costRateSource := .unresolved
  billingRateId := some 2
  createdByUserId := none
  createdAt := clock
  updatedAt := clock

def recorded (unit : RateUnit) : TimeEntryRow × WorkTables :=
  (entry, { tables unit with timeEntries := [entry] })

variable (unit : RateUnit)

theorem record_eq :
    (tables unit).record halfHour 1 clock = .ok (recorded unit) := by
  cases unit <;> rfl

theorem cardKept : (tables unit).CardKept := by
  constructor <;> simp [tables]

theorem resolved :
    resolveRate (tables unit).billingRates (WorkTables.ladderOf entry .bill) =
      ⟨some 500_000_000, some "USD", .project, some 2⟩ := by
  cases unit <;> decide +kernel

theorem of_wins {unit : RateUnit} {rate : BillingRateRow}
    (h : Wins (tables unit).billingRates (WorkTables.ladderOf entry .bill) rate) :
    rate.unit = unit ∧ rate.amount = 500_000_000 := by
  have heq := RateResolutionInput.resolveRate_of_wins (cardKept unit).keys h
  rw [resolved] at heq
  have hid : 2 = rate.id := Option.some.inj (congrArg RateResolutionResult.billingRateId heq)
  have hmem := h.mem
  simp only [tables, List.mem_cons, List.not_mem_nil, or_false] at hmem
  rcases hmem with rfl | rfl
  · cases hid
  · exact ⟨rfl, rfl⟩

end RateCard

open RateCard

theorem hourly_job_rated : (recorded .hour).1.RatedRight ⟨480, by decide⟩ (tables .hour) := by
  refine (rated_right_iff _ (cardKept _) (record_eq _) rfl).2 fun rate hrate _ _ => ?_
  rw [(of_wins hrate).1]
  trivial

theorem fixed_price_halved : ¬ ∀ (day : WorkingDay) (t : WorkTables) (input : RecordTimeEntryInput)
    (id : TimeEntryId) (now : Timestamp) (r : TimeEntryRow × WorkTables), t.CardKept →
    t.record input id now = .ok r → input.billRateAmount = none → r.1.RatedRight day t := by
  intro hall
  have hright := hall ⟨480, by decide⟩ _ _ 1 clock _ (cardKept .fixed) (record_eq .fixed) rfl
  rcases RateResolutionInput.resolveRate_cases (tables .fixed).billingRates
    (WorkTables.ladderOf entry .bill) with ⟨rate, hrate, -⟩ | ⟨-, hnone⟩
  · have hvalued := hright.valued rate hrate rfl (by decide)
    obtain ⟨hunit, hamount⟩ := of_wins hrate
    rw [hunit, hamount] at hvalued
    revert hvalued
    decide
  · rw [resolved] at hnone
    cases hnone

end Examples

end Loxep

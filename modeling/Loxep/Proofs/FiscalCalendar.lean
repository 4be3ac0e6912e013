import Loxep.Lib.Intervals
import Loxep.Books
import Mathlib.Data.List.Range

/-!
# When the fiscal years leave no gap

The boundaries of one year are so many months after its start, but the next year starts from its own
first date, which may lie a day past the last boundary of the year before: the 29th of February of a
leap year, where that year ended with the 27th.
-/

namespace Loxep

section Dates

variable {d b : CalendarDate}

theorem CalendarDate.lt_iff : d < b ↔ d.year < b.year ∨
    d.year = b.year ∧ (d.month < b.month ∨ d.month = b.month ∧ d.day < b.day) := by
  change d.key < b.key ↔ _
  simp only [CalendarDate.key, Prod.Lex.toLex_lt_toLex]

theorem lastDayOfMonth_bounds (year month : ℕ) :
    28 ≤ lastDayOfMonth year month ∧ lastDayOfMonth year month ≤ 31 := by
  unfold lastDayOfMonth
  split_ifs <;> omega

theorem lastDayOfMonth_eq {month : ℕ} (h : month ≠ 2) (year year' : ℕ) :
    lastDayOfMonth year month = lastDayOfMonth year' month := by
  simp only [lastDayOfMonth, if_neg h]

def CalendarDate.months (d : CalendarDate) : ℕ := d.year * 12 + (d.month - 1)

theorem CalendarDate.Valid.lt_iff (hd : d.Valid) (hb : b.Valid) :
    d < b ↔ d.months < b.months ∨ d.months = b.months ∧ d.day < b.day := by
  have hm := hd.month
  have hm' := hb.month
  rw [CalendarDate.lt_iff]
  simp only [CalendarDate.months]
  omega

theorem addMonths_months (d : CalendarDate) (n : ℕ) : (addMonths d n).months = d.months + n := by
  simp only [addMonths, CalendarDate.months]
  omega

theorem addMonths_valid (hd : d.Valid) (n : ℕ) : (addMonths d n).Valid where
  month := by
    simp only [addMonths]
    omega
  day := by
    have hlast := lastDayOfMonth_bounds ((d.year * 12 + (d.month - 1) + n) / 12)
      ((d.year * 12 + (d.month - 1) + n) % 12 + 1)
    have hday := hd.day
    simp only [addMonths]
    omega

theorem addMonths_zero (hd : d.Valid) : addMonths d 0 = d := by
  obtain ⟨year, month, day⟩ := d
  obtain ⟨⟨hmonth, hmonth'⟩, -, hday⟩ := hd
  simp only at hmonth hmonth' hday
  have hyear : (year * 12 + (month - 1) + 0) / 12 = year := by omega
  have hmonth : (year * 12 + (month - 1) + 0) % 12 + 1 = month := by omega
  simp only [addMonths, hyear, hmonth, min_eq_left hday]

theorem addMonths_lt (hd : d.Valid) {m n : ℕ} (h : m < n) : addMonths d m < addMonths d n := by
  rw [(addMonths_valid hd m).lt_iff (addMonths_valid hd n), addMonths_months, addMonths_months]
  omega

theorem le_dayBefore_iff (hd : d.Valid) (hb : b.Valid) (hyear : 1 ≤ b.year) :
    d ≤ dayBefore b ↔ d < b := by
  have hmonth := hb.month
  have hmonth' := hd.month
  have hday := hd.day
  have hday' := hb.day
  rw [← not_lt, CalendarDate.lt_iff, CalendarDate.lt_iff]
  unfold dayBefore
  split_ifs with h1 h2
  · simp only
    omega
  · simp only
    by_cases hsame : d.year = b.year ∧ d.month = b.month - 1
    · rw [hsame.1, hsame.2] at hday
      omega
    · omega
  · simp only
    by_cases hsame : d.month = 12
    · have hlast : lastDayOfMonth d.year 12 = 31 := by simp [lastDayOfMonth]
      rw [hsame, hlast] at hday
      omega
    · omega

theorem yearStart_valid (book : FiscalBookRow) (fiscalYear : ℕ) :
    (book.yearStart fiscalYear).Valid where
  month := book.month_check
  day := by
    have hlast := lastDayOfMonth_bounds fiscalYear book.fiscalYearStartMonth
    have hday := book.day_check
    simp only [FiscalBookRow.yearStart, fiscalYearStartDate]
    omega

end Dates

section Years

variable (book : FiscalBookRow)

/-- A period as the half-open interval up to the next boundary. -/
def periodSlot (fiscalYear i : ℕ) : CalendarDate × CalendarDate :=
  (addMonths (book.yearStart fiscalYear) i, addMonths (book.yearStart fiscalYear) (i + 1))

def yearSlots (fiscalYear periodCount : ℕ) : List (CalendarDate × CalendarDate) :=
  (List.range periodCount).map (periodSlot book fiscalYear)

def runSlots : ℕ → List ℕ → List (CalendarDate × CalendarDate)
  | _, [] => []
  | fiscalYear, periodCount :: periodCounts =>
    yearSlots book fiscalYear periodCount ++ runSlots (fiscalYear + 1) periodCounts

/-- Every year but the last has all twelve periods, and the one after it does not start on a leap
day that it has no counterpart of. -/
def yearsMeet : ℕ → List ℕ → Bool
  | _, [] => true
  | _, [_] => true
  | fiscalYear, periodCount :: periodCounts =>
    periodCount == 12 && !(book.fiscalYearStartMonth == 2 && decide (29 ≤ book.fiscalYearStartDay) &&
      isLeapYear (fiscalYear + 1)) && yearsMeet (fiscalYear + 1) periodCounts

variable {book} {fiscalYear : ℕ}

theorem yearStart_months : (book.yearStart fiscalYear).months =
    fiscalYear * 12 + (book.fiscalYearStartMonth - 1) := rfl

theorem isLeapYear_succ (h : isLeapYear (fiscalYear + 1) = true) :
    isLeapYear fiscalYear = false := by
  simp only [isLeapYear, Bool.and_eq_true, Bool.or_eq_true, beq_iff_eq, bne_iff_ne,
    Bool.and_eq_false_iff, Bool.or_eq_false_iff, beq_eq_false_iff_ne, bne_eq_false_iff_eq] at h ⊢
  omega

theorem addMonths_twelve : addMonths (book.yearStart fiscalYear) 12 =
    ⟨fiscalYear + 1, book.fiscalYearStartMonth,
      min (book.yearStart fiscalYear).day
        (lastDayOfMonth (fiscalYear + 1) book.fiscalYearStartMonth)⟩ := by
  have hmonth := book.month_check
  have hyear : (fiscalYear * 12 + (book.fiscalYearStartMonth - 1) + 12) / 12 = fiscalYear + 1 := by
    omega
  have hmod : (fiscalYear * 12 + (book.fiscalYearStartMonth - 1) + 12) % 12 + 1 =
      book.fiscalYearStartMonth := by omega
  simp only [addMonths, FiscalBookRow.yearStart, fiscalYearStartDate, hyear, hmod]

variable {n : ℕ}

theorem boundary_le (hn : n ≤ 12) :
    addMonths (book.yearStart fiscalYear) n ≤ book.yearStart (fiscalYear + 1) := by
  have hmonth := book.month_check
  have hstart := yearStart_valid book fiscalYear
  rw [← not_lt, (yearStart_valid book _).lt_iff (addMonths_valid hstart n), addMonths_months,
    yearStart_months, yearStart_months]
  rcases hn.lt_or_eq with hlt | rfl
  · omega
  · rw [addMonths_twelve]
    simp only [FiscalBookRow.yearStart, fiscalYearStartDate]
    omega

theorem boundary_eq_iff (hn : n ≤ 12) :
    addMonths (book.yearStart fiscalYear) n = book.yearStart (fiscalYear + 1) ↔
      n = 12 ∧ ¬ (book.fiscalYearStartMonth = 2 ∧ 29 ≤ book.fiscalYearStartDay ∧
        isLeapYear (fiscalYear + 1) = true) := by
  have hday := book.day_check
  rcases hn.lt_or_eq with hlt | rfl
  · refine iff_of_false (fun heq => ?_) fun h => by omega
    have hmonths := congrArg CalendarDate.months heq
    rw [addMonths_months, yearStart_months, yearStart_months] at hmonths
    omega
  rw [addMonths_twelve]
  simp only [FiscalBookRow.yearStart, fiscalYearStartDate, CalendarDate.mk.injEq, true_and]
  by_cases hfeb : book.fiscalYearStartMonth = 2
  · cases hleap : isLeapYear (fiscalYear + 1) with
    | false =>
      simp only [hfeb, lastDayOfMonth, hleap, if_true, Bool.false_eq_true, if_false, and_false,
        not_false_eq_true, iff_true]
      split_ifs <;> omega
    | true =>
      simp only [hfeb, lastDayOfMonth, hleap, isLeapYear_succ hleap, if_true, Bool.false_eq_true,
        if_false, and_true, true_and]
      omega
  · rw [lastDayOfMonth_eq hfeb (fiscalYear + 1) fiscalYear]
    simp [hfeb]

theorem yearSlots_inRow (periodCount : ℕ) :
    Intervals.InRow (yearSlots book fiscalYear periodCount) where
  nonempty := by
    intro x hx
    obtain ⟨i, -, rfl⟩ := List.mem_map.1 hx
    exact addMonths_lt (yearStart_valid book fiscalYear) (Nat.lt_succ_self i)
  ordered := (List.isChain_map _).2 ((List.isChain_range _ _).2 fun _ _ => le_rfl)

theorem yearSlots_abut (periodCount : ℕ) :
    Intervals.Abut (yearSlots book fiscalYear periodCount) :=
  (List.isChain_map _).2 ((List.isChain_range _ _).2 fun _ _ => rfl)

theorem junction_iff {m : ℕ} (hn : 1 ≤ n) (hm : 1 ≤ m) (ns : List ℕ)
    (R : CalendarDate → CalendarDate → Prop) :
    (∀ x ∈ (yearSlots book fiscalYear n).getLast?,
      ∀ y ∈ (runSlots book (fiscalYear + 1) (m :: ns)).head?, R x.2 y.1) ↔
      R (addMonths (book.yearStart fiscalYear) n) (book.yearStart (fiscalYear + 1)) := by
  have hlast : (yearSlots book fiscalYear n).getLast? = some (periodSlot book fiscalYear (n - 1)) := by
    rw [yearSlots, List.getLast?_map, List.getLast?_range, if_neg (by omega)]
    rfl
  have hhead : (runSlots book (fiscalYear + 1) (m :: ns)).head? =
      some (periodSlot book (fiscalYear + 1) 0) := by
    rw [runSlots, List.head?_append, yearSlots, List.head?_map, List.head?_range,
      if_neg (by omega)]
    rfl
  simp only [hlast, hhead, Option.mem_some_iff, forall_eq', periodSlot, Nat.sub_add_cancel hn,
    addMonths_zero (yearStart_valid book (fiscalYear + 1))]

theorem runSlots_inRow : ∀ {periodCounts : List ℕ} {fiscalYear : ℕ},
    (∀ n ∈ periodCounts, 1 ≤ n ∧ n ≤ 12) →
    Intervals.InRow (runSlots book fiscalYear periodCounts)
  | [], _, _ => ⟨by simp [runSlots], List.isChain_nil⟩
  | [n], fiscalYear, _ => by
    rw [runSlots, runSlots, List.append_nil]
    exact yearSlots_inRow n
  | n :: m :: ns, fiscalYear, h => by
    obtain ⟨hn, hm⟩ := h n List.mem_cons_self
    obtain ⟨hnext, -⟩ := h m (by simp)
    have ih : Intervals.InRow (runSlots book (fiscalYear + 1) (m :: ns)) :=
      runSlots_inRow fun k hk => h k (List.mem_cons_of_mem n hk)
    have hyear : Intervals.InRow (yearSlots book fiscalYear n) := yearSlots_inRow n
    refine ⟨fun x hx => ?_, List.isChain_append.2 ⟨hyear.ordered, ih.ordered,
      (junction_iff hn hnext ns (· ≤ ·)).2 (boundary_le hm)⟩⟩
    rcases List.mem_append.1 hx with hx | hx
    · exact hyear.nonempty x hx
    · exact ih.nonempty x hx

theorem runSlots_abut : ∀ {periodCounts : List ℕ} {fiscalYear : ℕ},
    (∀ n ∈ periodCounts, 1 ≤ n ∧ n ≤ 12) →
    (Intervals.Abut (runSlots book fiscalYear periodCounts) ↔
      yearsMeet book fiscalYear periodCounts = true)
  | [], _, _ => iff_of_true List.isChain_nil rfl
  | [n], fiscalYear, _ => by
    rw [runSlots, runSlots, List.append_nil]
    exact iff_of_true (yearSlots_abut n) rfl
  | n :: m :: ns, fiscalYear, h => by
    obtain ⟨hn, hm⟩ := h n List.mem_cons_self
    obtain ⟨hnext, -⟩ := h m (by simp)
    have ih : Intervals.Abut (runSlots book (fiscalYear + 1) (m :: ns)) ↔
        yearsMeet book (fiscalYear + 1) (m :: ns) = true :=
      runSlots_abut fun k hk => h k (List.mem_cons_of_mem n hk)
    have hyear : Intervals.Abut (yearSlots book fiscalYear n) := yearSlots_abut n
    rw [Intervals.Abut, runSlots, List.isChain_append, junction_iff hn hnext ns (· = ·),
      boundary_eq_iff hm, yearsMeet]
    · simp only [Bool.and_eq_true, beq_iff_eq, Bool.not_eq_true', ← ih]
      constructor
      · rintro ⟨-, hrest, htwelve, hleap⟩
        refine ⟨⟨htwelve, ?_⟩, hrest⟩
        simpa [and_assoc] using hleap
      · rintro ⟨⟨htwelve, hleap⟩, hrest⟩
        refine ⟨hyear, hrest, htwelve, ?_⟩
        simpa [and_assoc] using hleap
    · simp

theorem fiscalYearFor_eq {d : CalendarDate} {i : ℕ} (hi : i < 12)
    (hstart : addMonths (book.yearStart fiscalYear) i ≤ d)
    (hend : d < addMonths (book.yearStart fiscalYear) (i + 1)) :
    fiscalYearFor d book.fiscalYearStartMonth book.fiscalYearStartDay = fiscalYear := by
  have hvalid := yearStart_valid book fiscalYear
  have hfirst : book.yearStart fiscalYear ≤ d := by
    refine le_trans ?_ hstart
    rcases Nat.eq_zero_or_pos i with rfl | hpos
    · exact (addMonths_zero hvalid).ge
    · conv_lhs => rw [← addMonths_zero hvalid]
      exact (addMonths_lt hvalid hpos).le
  have hnext : d < book.yearStart (fiscalYear + 1) := hend.trans_le (boundary_le hi)
  have hge : fiscalYear ≤ d.year := by
    rw [← not_lt, CalendarDate.lt_iff] at hfirst
    simp only [FiscalBookRow.yearStart, fiscalYearStartDate] at hfirst
    omega
  have hle : d.year ≤ fiscalYear + 1 := by
    have := CalendarDate.lt_iff.1 hnext
    simp only [FiscalBookRow.yearStart, fiscalYearStartDate] at this
    omega
  rw [fiscalYearFor]
  rcases hge.eq_or_lt with heq | hlt
  · rw [← heq, if_pos]
    exact hfirst
  · have heq : d.year = fiscalYear + 1 := by omega
    rw [heq]
    exact if_neg (not_le.2 hnext)

end Years

section Generate

variable {book : FiscalBookRow} {newId : ℕ → ℕ → PeriodId}

def yearRows (book : FiscalBookRow) (newId : ℕ → ℕ → PeriodId) (fiscalYear periodCount : ℕ) :
    List GeneratedPeriodRow :=
  (List.range periodCount).map (generatedPeriod book (newId fiscalYear) fiscalYear)

def runRows (book : FiscalBookRow) (newId : ℕ → ℕ → PeriodId) :
    ℕ → List ℕ → List GeneratedPeriodRow
  | _, [] => []
  | fiscalYear, periodCount :: periodCounts =>
    yearRows book newId fiscalYear periodCount ++ runRows book newId (fiscalYear + 1) periodCounts

def EndsBefore (book : FiscalBookRow) (fiscalYear i : ℕ) (periods : List GeneratedPeriodRow) :
    Prop :=
  ∀ p ∈ periods, p.accountingBookId = book.id →
    p.fiscalYear < fiscalYear ∨ p.fiscalYear = fiscalYear ∧ p.sequence ≤ i

variable {i : ℕ} {periods after : List GeneratedPeriodRow}

theorem EndsBefore.next_year {fiscalYear : ℕ} (h : EndsBefore book fiscalYear i periods)
    : EndsBefore book (fiscalYear + 1) 0 periods := by
  intro p hp hbook
  have := h p hp hbook
  omega

theorem insertPeriod_eq_ok {fiscalYear : ℕ} (hbefore : EndsBefore book fiscalYear i periods)
    (h : insertPeriod periods (generatedPeriod book (newId fiscalYear) fiscalYear i) = .ok after) :
    after = periods ++ [generatedPeriod book (newId fiscalYear) fiscalYear i] ∧
      EndsBefore book fiscalYear (i + 1) after := by
  have hfree : periods.any
      (generatedPeriod book (newId fiscalYear) fiscalYear i).sameSlot = false := by
    refine List.any_eq_false.2 fun p hp hslot => ?_
    simp only [GeneratedPeriodRow.sameSlot, generatedPeriod, Bool.and_eq_true, beq_iff_eq] at hslot
    have := hbefore p hp hslot.1.1
    omega
  simp only [insertPeriod, hfree, Bool.false_eq_true, if_false, Except.bind_eq_ok,
    Except.require_eq_ok, Except.pure_eq_ok, exists_const] at h
  obtain ⟨-, -, -, -, rfl⟩ := h
  refine ⟨rfl, fun p hp hbook => ?_⟩
  rw [List.mem_append, List.mem_singleton] at hp
  rcases hp with hp | rfl
  · have := hbefore p hp hbook
    omega
  · exact .inr ⟨rfl, le_rfl⟩

theorem insertPeriods_eq_ok {fiscalYear : ℕ} :
    ∀ {n i : ℕ} {periods after : List GeneratedPeriodRow},
    EndsBefore book fiscalYear i periods →
    ((List.range' i n).map (generatedPeriod book (newId fiscalYear) fiscalYear)).foldlM insertPeriod
      periods = .ok after →
    after = periods ++ (List.range' i n).map (generatedPeriod book (newId fiscalYear) fiscalYear) ∧
      EndsBefore book fiscalYear (i + n) after
  | 0, i, periods, after, hbefore, h => by
    simp only [List.range'_zero, List.map_nil, List.foldlM_nil, Except.pure_eq_ok] at h
    subst h
    simpa using hbefore
  | n + 1, i, periods, after, hbefore, h => by
    rw [List.range'_succ, List.map_cons, List.foldlM_cons, Except.bind_eq_ok] at h
    obtain ⟨mid, hmid, hrest⟩ := h
    obtain ⟨rfl, hbefore'⟩ := insertPeriod_eq_ok hbefore hmid
    obtain ⟨rfl, hafter⟩ := insertPeriods_eq_ok hbefore' hrest
    refine ⟨by simp [List.range'_succ], ?_⟩
    rwa [show i + (n + 1) = i + 1 + n by omega]

theorem generateYears_eq_ok {books : List FiscalBookRow}
    (hbook : books.find? (·.id == book.id) = some book) :
    ∀ {periodCounts : List ℕ} {fiscalYear : ℕ} {periods after : List GeneratedPeriodRow},
    EndsBefore book fiscalYear 0 periods →
    generateYears books book.id newId fiscalYear periodCounts periods = .ok after →
    after = periods ++ runRows book newId fiscalYear periodCounts ∧
      (∀ n ∈ periodCounts, 1 ≤ n ∧ n ≤ 12) ∧ (periodCounts ≠ [] → 1900 ≤ fiscalYear)
  | [], fiscalYear, periods, after, _, h => by
    obtain rfl := Except.ok.inj h
    simp [runRows]
  | n :: ns, fiscalYear, periods, after, hbefore, h => by
    simp only [generateYears, generateFiscalYear, parseGenerate, hbook, Except.bind_eq_ok,
      Except.require_eq_ok, Except.pure_eq_ok, exists_const, List.range_eq_range'] at h
    obtain ⟨year, ⟨⟨⟨hyear, -⟩, hcount⟩, mid, hmid, rfl⟩, hrest⟩ := h
    obtain ⟨rfl, hbefore'⟩ := insertPeriods_eq_ok hbefore hmid
    obtain ⟨rfl, hcounts, -⟩ := generateYears_eq_ok hbook hbefore'.next_year hrest
    refine ⟨by simp [runRows, yearRows, List.range_eq_range'], ?_, fun _ => hyear⟩
    intro k hk
    rcases List.mem_cons.1 hk with rfl | hk
    · exact hcount
    · exact hcounts k hk

theorem contains_iff {fiscalYear : ℕ} (hyear : 1 ≤ fiscalYear) {d : CalendarDate} (hd : d.Valid) :
    d ≤ (generatedPeriod book (newId fiscalYear) fiscalYear i).endsOn ↔
      d < (periodSlot book fiscalYear i).2 := by
  have hvalid := addMonths_valid (yearStart_valid book fiscalYear) (i + 1)
  refine le_dayBefore_iff hd hvalid ?_
  simp only [addMonths, FiscalBookRow.yearStart, fiscalYearStartDate]
  omega

theorem periodsContaining_append (before : List GeneratedPeriodRow)
    (h : ∀ p ∈ before, p.accountingBookId ≠ book.id) (d : CalendarDate) :
    periodsContaining (before ++ after) book.id d = periodsContaining after book.id d := by
  have hnone : periodsContaining before book.id d = 0 := by
    refine List.countP_eq_zero.2 fun p hp => ?_
    simp [h p hp]
  rw [periodsContaining, List.countP_append]
  exact (congrArg (· + _) hnone).trans (Nat.zero_add _)

theorem periodsContaining_runRows {d : CalendarDate} (hd : d.Valid) :
    ∀ {periodCounts : List ℕ} {fiscalYear : ℕ}, 1 ≤ fiscalYear →
      periodsContaining (runRows book newId fiscalYear periodCounts) book.id d =
        Intervals.covers (runSlots book fiscalYear periodCounts) d
  | [], _, _ => rfl
  | n :: ns, fiscalYear, hyear => by
    have ih : periodsContaining (runRows book newId (fiscalYear + 1) ns) book.id d =
        Intervals.covers (runSlots book (fiscalYear + 1) ns) d :=
      periodsContaining_runRows hd (hyear.trans (Nat.le_succ _))
    simp only [periodsContaining, Intervals.covers] at ih ⊢
    rw [runRows, runSlots, List.countP_append, List.countP_append, ih, yearRows, yearSlots,
      List.countP_map, List.countP_map]
    congr 1
    refine List.countP_congr fun i _ => ?_
    simp only [Function.comp_apply, Bool.and_eq_true, beq_iff_eq, decide_eq_true_eq,
      contains_iff hyear hd]
    simp [generatedPeriod, periodSlot]

theorem mem_runRows {p : GeneratedPeriodRow} :
    ∀ {periodCounts : List ℕ} {fiscalYear : ℕ}, p ∈ runRows book newId fiscalYear periodCounts →
      ∃ year i, fiscalYear ≤ year ∧ (∃ n ∈ periodCounts, i < n) ∧
        p = generatedPeriod book (newId year) year i ∧
        periodSlot book year i ∈ runSlots book fiscalYear periodCounts
  | [], _, h => by simp [runRows] at h
  | n :: ns, fiscalYear, h => by
    rcases List.mem_append.1 h with h | h
    · obtain ⟨i, hi, rfl⟩ := List.mem_map.1 h
      exact ⟨fiscalYear, i, le_rfl, ⟨n, List.mem_cons_self, List.mem_range.1 hi⟩, rfl,
        List.mem_append_left _ (List.mem_map_of_mem hi)⟩
    · obtain ⟨year, i, hyear, ⟨m, hm, hi⟩, rfl, hslot⟩ := mem_runRows h
      exact ⟨year, i, (Nat.le_succ _).trans hyear, ⟨m, List.mem_cons_of_mem _ hm, hi⟩, rfl,
        List.mem_append_right _ hslot⟩

theorem mem_runSlots (newId : ℕ → ℕ → PeriodId) {x : CalendarDate × CalendarDate} :
    ∀ {periodCounts : List ℕ} {fiscalYear : ℕ}, x ∈ runSlots book fiscalYear periodCounts →
      ∃ year i, fiscalYear ≤ year ∧ x = periodSlot book year i ∧
        generatedPeriod book (newId year) year i ∈ runRows book newId fiscalYear periodCounts
  | [], _, h => by simp [runSlots] at h
  | n :: ns, fiscalYear, h => by
    rcases List.mem_append.1 h with h | h
    · obtain ⟨i, hi, rfl⟩ := List.mem_map.1 h
      exact ⟨fiscalYear, i, le_rfl, rfl, List.mem_append_left _ (List.mem_map_of_mem hi)⟩
    · obtain ⟨year, i, hyear, rfl, hrow⟩ := mem_runSlots newId h
      exact ⟨year, i, (Nat.le_succ _).trans hyear, rfl, List.mem_append_right _ hrow⟩

end Generate

namespace Small

def leapBook : FiscalBookRow := ⟨0, 2, 29, by decide, by decide⟩

def julyBook : FiscalBookRow := ⟨0, 7, 31, by decide, by decide⟩

def numbered (fiscalYear i : ℕ) : PeriodId := fiscalYear * 12 + i

end Small

end Loxep

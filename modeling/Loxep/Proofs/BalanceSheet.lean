import Loxep.Proofs.FiscalCalendar
import Loxep.Proofs.IdempotentPosting
import Loxep.Statements

/-!
# The balance sheet balances

Each line of a window is counted in exactly one section of the sheet or in the earnings, and the two
earnings split at a day boundary that no entry date misses.
-/

namespace Loxep

def isIncome (accountType : LedgerAccountType) : Bool :=
  accountType == .revenue || accountType == .expense

namespace BookTables

variable (s : BookTables)

def postingType (p : JournalEntryRow × JournalLineRow) : Option LedgerAccountType :=
  (s.chart.find? (·.id == p.2.ledgerAccountId)).map (·.accountType)

def windowSum (w : StatementWindow) (q : LedgerAccountType → Bool) : Money :=
  ((s.ledger.postings.filter fun p => entryPredicates w p && (s.postingType p).any q).map
    (·.2.functionalAmount)).sum

def AccountsFit (w : StatementWindow) (accountType : LedgerAccountType) : Prop :=
  ∀ a ∈ s.chart, a.accountingBookId = w.accountingBookId → a.accountType = accountType →
    (s.statementLine w a).amount.natAbs < numericLimit

def IncomeFits (w : StatementWindow) : Prop :=
  let total : Money := ((s.incomePostings w).map (·.2.functionalAmount)).sum
  total.natAbs < numericLimit

end BookTables

section Window

variable {s : BookTables} {w : StatementWindow} {p : JournalEntryRow × JournalLineRow}

theorem mem_postings {j : Journal} : p ∈ j.postings ↔ p.1 ∈ j.entries ∧ p.2 ∈ p.1.lines := by
  simp only [Journal.postings, List.mem_flatMap, List.mem_map]
  constructor
  · rintro ⟨e, he, l, hl, rfl⟩
    exact ⟨he, hl⟩
  · rintro ⟨he, hl⟩
    exact ⟨p.1, he, p.2, hl, rfl⟩

theorem entryPredicates_book (h : entryPredicates w p = true) :
    p.1.accountingBookId = w.accountingBookId := by
  simp only [entryPredicates, Bool.and_eq_true, beq_iff_eq] at h
  exact h.1.1.1.1

theorem ChartHolds.account (hs : ChartHolds s) (hp : p ∈ s.ledger.postings)
    (hw : entryPredicates w p = true) : ∃ a ∈ s.chart, a.id = p.2.ledgerAccountId ∧
      a.accountingBookId = w.accountingBookId ∧ a.isPostable = true ∧
      s.postingType p = some a.accountType := by
  obtain ⟨he, hl⟩ := mem_postings.1 hp
  obtain ⟨a, ha, hid, hbook, hpost⟩ := hs.lines p.1 he p.2 hl
  refine ⟨a, ha, hid, hbook.trans (entryPredicates_book hw), hpost, ?_⟩
  rw [BookTables.postingType, ← hid, find_of_nodup_map hs.ids ha, Option.map_some]

theorem any_accountType (hs : ChartHolds s) (p : JournalEntryRow × JournalLineRow)
    (q : LedgerAccountType → Bool) :
    (s.chart.any fun a => a.id == p.2.ledgerAccountId && q a.accountType) =
      (s.postingType p).any q := by
  rw [Bool.eq_iff_iff, List.any_eq_true]
  simp only [Bool.and_eq_true, beq_iff_eq, BookTables.postingType, Option.any_map]
  constructor
  · rintro ⟨a, ha, hid, hq⟩
    rw [← hid, find_of_nodup_map hs.ids ha]
    exact hq
  · intro h
    cases hfind : s.chart.find? (·.id == p.2.ledgerAccountId) with
    | none =>
      rw [hfind] at h
      cases h
    | some a =>
      rw [hfind] at h
      exact ⟨a, List.mem_of_find?_eq_some hfind, by simpa using List.find?_some hfind, h⟩

theorem incomePostings_sum (hs : ChartHolds s) (w : StatementWindow) :
    ((s.incomePostings w).map (·.2.functionalAmount)).sum = s.windowSum w isIncome := by
  have h : s.incomePostings w = s.ledger.postings.filter fun p =>
      entryPredicates w p && (s.postingType p).any isIncome := by
    refine List.filter_congr fun p _ => ?_
    rw [← any_accountType hs p isIncome]
    rfl
  rw [h, BookTables.windowSum]

theorem windowSum_or {q q' : LedgerAccountType → Bool} (h : ∀ t, ¬ (q t = true ∧ q' t = true)) :
    s.windowSum w (fun t => q t || q' t) = s.windowSum w q + s.windowSum w q' := by
  simp only [BookTables.windowSum, sum_map_filter]
  rw [← List.sum_map_add]
  refine congrArg List.sum (List.map_congr_left fun p _ => ?_)
  cases hw : entryPredicates w p with
  | false => simp
  | true =>
    cases hT : s.postingType p with
    | none => simp
    | some t =>
      have := h t
      cases hq : q t <;> cases hq' : q' t <;> simp_all

theorem statementLine_amount_of_isEmpty {a : ChartAccountRow}
    (h : (s.accountPostings w a.id).isEmpty = true) : (s.statementLine w a).amount = 0 := by
  rw [List.isEmpty_iff] at h
  simp [BookTables.statementLine, h]

theorem statementAccounts_sum (hs : ChartHolds s) (w : StatementWindow) (empty : Bool)
    (accountType : LedgerAccountType) :
    ((s.statementAccounts w empty accountType).map fun a => (s.statementLine w a).amount).sum =
      s.windowSum w (· == accountType) := by
  set accounts := s.statementAccounts w empty accountType with haccounts
  have hkeys : (accounts.map (·.id)).Nodup :=
    (List.filter_sublist.map _).nodup hs.ids
  have hgroups := sum_map_groups (s.ledger.postings.filter (entryPredicates w))
    (·.2.ledgerAccountId) (·.2.functionalAmount) hkeys
  rw [List.map_map] at hgroups
  calc
    _ = (accounts.map ((fun k => (((s.ledger.postings.filter (entryPredicates w)).filter fun p =>
          p.2.ledgerAccountId == k).map (·.2.functionalAmount)).sum) ∘ (·.id))).sum := by
      refine congrArg List.sum (List.map_congr_left fun a _ => ?_)
      simp only [BookTables.statementLine, BookTables.accountPostings, Function.comp_apply,
        List.filter_filter, Bool.and_comm]
    _ = _ := hgroups
    _ = s.windowSum w (· == accountType) := by
      rw [List.filter_filter, BookTables.windowSum]
      congr 2
      refine List.filter_congr fun p hp => ?_
      cases hw : entryPredicates w p with
      | false => simp
      | true =>
        obtain ⟨a, ha, hid, hbook, hpost, htype⟩ := hs.account hp hw
        have hmem : p.2.ledgerAccountId ∈ accounts.map (·.id) ↔ a.accountType = accountType := by
          rw [← hid, List.mem_map]
          constructor
          · rintro ⟨b, hb, hbid⟩
            rw [haccounts, BookTables.statementAccounts, List.mem_filter] at hb
            obtain rfl := List.inj_on_of_nodup_map hs.ids hb.1 ha hbid
            simp only [Bool.and_eq_true, beq_iff_eq] at hb
            exact hb.2.1.1.2
          · intro ht
            have hne : (s.accountPostings w a.id).isEmpty = false := by
              rw [List.isEmpty_eq_false_iff_exists_mem]
              exact ⟨p, List.mem_filter.2 ⟨hp, by simp [hw, hid]⟩⟩
            refine ⟨a, ?_, rfl⟩
            rw [haccounts, BookTables.statementAccounts, List.mem_filter]
            refine ⟨ha, ?_⟩
            simp [hbook, ht, hpost, hne]
        rw [htype, Option.any_some, Bool.and_true, Bool.true_and, decide_eq_decide.2 hmem]
        rfl

theorem balancesByAccount_eq_ok (hs : ChartHolds s) {empty : Bool} {accountType : LedgerAccountType}
    {lines : List StatementLine} :
    s.balancesByAccount w empty accountType = .ok lines ↔ s.AccountsFit w accountType ∧
      ((s.statementAccounts w empty accountType).insertionSort (·.code ≤ ·.code)).map
        (s.statementLine w) = lines := by
  have hfits : (∀ line ∈ ((s.statementAccounts w empty accountType).insertionSort
      (·.code ≤ ·.code)).map (s.statementLine w), line.amount.natAbs < numericLimit) ↔
        s.AccountsFit w accountType := by
    rw [List.forall_mem_map]
    constructor
    · intro h a ha hbook htype
      cases hempty : (s.accountPostings w a.id).isEmpty with
      | true =>
        rw [statementLine_amount_of_isEmpty hempty]
        decide
      | false =>
        obtain ⟨p, hp⟩ := List.isEmpty_eq_false_iff_exists_mem.1 hempty
        obtain ⟨hp, hw⟩ := List.mem_filter.1 hp
        simp only [Bool.and_eq_true, beq_iff_eq] at hw
        obtain ⟨b, hb, hid, -, hpost, -⟩ := hs.account hp hw.1
        obtain rfl := List.inj_on_of_nodup_map hs.ids hb ha (hid.trans hw.2)
        refine h b ((List.perm_insertionSort _ _).mem_iff.2 (List.mem_filter.2 ⟨ha, ?_⟩))
        simp [hbook, htype, hpost, hempty]
    · intro h a ha
      have hmem := (List.perm_insertionSort _ _).mem_iff.1 ha
      simp only [BookTables.statementAccounts, List.mem_filter, Bool.and_eq_true,
        beq_iff_eq] at hmem
      exact h a hmem.1 hmem.2.1.1.1 hmem.2.1.1.2
  unfold BookTables.balancesByAccount
  by_cases h : s.AccountsFit w accountType
  · rw [if_pos (hfits.2 h)]
    simp [h]
  · rw [if_neg (mt hfits.1 h)]
    simp [h]

theorem statementSection_total (hs : ChartHolds s) (w : StatementWindow) (empty : Bool)
    (accountType : LedgerAccountType) (flip : Bool) :
    (statementSection (((s.statementAccounts w empty accountType).insertionSort
      (·.code ≤ ·.code)).map (s.statementLine w)) flip).total =
      if flip then -s.windowSum w (· == accountType) else s.windowSum w (· == accountType) := by
  have hsum : (((s.statementAccounts w empty accountType).insertionSort (·.code ≤ ·.code)).map
      fun a => (s.statementLine w a).amount).sum = s.windowSum w (· == accountType) := by
    rw [← statementAccounts_sum hs w empty accountType]
    exact ((List.perm_insertionSort _ _).map _).sum_eq
  cases flip with
  | false => simpa [statementSection, sumDecimals, Function.comp_def] using hsum
  | true =>
    rw [if_pos rfl, ← hsum, List.sum_neg]
    simp [statementSection, sumDecimals, negateDecimal, Function.comp_def]

theorem netIncomeBetween_eq_ok (hs : ChartHolds s) {x : Money} :
    s.netIncomeBetween w = .ok x ↔ s.IncomeFits w ∧ -s.windowSum w isIncome = x := by
  simp only [BookTables.netIncomeBetween, Except.bind_eq_ok, Except.require_eq_ok,
    Except.pure_eq_ok, exists_const, negateDecimal, incomePostings_sum hs, BookTables.IncomeFits]

end Window

section Year

variable {book : FiscalBookRow} {asOf : CalendarDate}

theorem yearStartOf_valid (book : FiscalBookRow) (asOf : CalendarDate) :
    (book.yearStartOf asOf).Valid := yearStart_valid book _

theorem yearStart_lt {year : ℕ} (h : year < asOf.year) : book.yearStart year < asOf :=
  CalendarDate.lt_iff.2 (.inl h)

theorem year_ge_of_start (h : book.yearStart 1000 ≤ asOf) : 1000 ≤ asOf.year := by
  by_contra hlt
  exact absurd h (not_le.2 (CalendarDate.lt_iff.2 (.inl (by
    simp only [FiscalBookRow.yearStart, fiscalYearStartDate]
    omega))))

theorem yearStartOf_spec (h : book.yearStart 1000 ≤ asOf) :
    1000 ≤ (book.yearStartOf asOf).year ∧ (book.yearStartOf asOf).year ≤ asOf.year ∧
      book.yearStartOf asOf ≤ asOf := by
  have hyear := year_ge_of_start h
  rw [FiscalBookRow.yearStartOf, if_neg (by omega), fiscalYearFor]
  split_ifs with hstart
  · exact ⟨hyear, le_rfl, hstart⟩
  · have hne : asOf.year ≠ 1000 := fun heq => hstart (heq ▸ h)
    refine ⟨?_, ?_, (yearStart_lt (by omega)).le⟩
    · simp only [FiscalBookRow.yearStart, fiscalYearStartDate]
      omega
    · simp only [FiscalBookRow.yearStart, fiscalYearStartDate]
      omega

theorem yearStartLiteral_eq_ok {yearStart d : CalendarDate} :
    yearStartLiteral yearStart = .ok d ↔
      (1000 ≤ yearStart.year ∧ yearStart.year ≤ 9999) ∧ yearStart = d := by
  simp only [yearStartLiteral, Except.bind_eq_ok, Except.require_eq_ok, Except.pure_eq_ok,
    exists_const]

theorem yearStartOf_le (h : 1000 ≤ (book.yearStartOf asOf).year) :
    book.yearStartOf asOf ≤ asOf := by
  have hle : ∀ year, (book.yearStart year).year = year := fun _ => rfl
  unfold FiscalBookRow.yearStartOf at h ⊢
  split_ifs at h ⊢ with hyear
  · rw [hle] at h
    omega
  · unfold fiscalYearFor at h ⊢
    split_ifs at h ⊢ with hstart
    · exact hstart
    · exact (yearStart_lt (by omega)).le

theorem windowSum_split {s : BookTables} {yearStart : CalendarDate} (accountingBookId : BookId)
    (entity : Option EntityId) (hdates : ∀ e ∈ s.ledger.entries, e.entryDate.Valid)
    (hvalid : yearStart.Valid) (hyear : 1 ≤ yearStart.year) (hle : yearStart ≤ asOf)
    (q : LedgerAccountType → Bool) :
    s.windowSum ⟨accountingBookId, none, some (dayBefore yearStart), entity⟩ q +
      s.windowSum ⟨accountingBookId, some yearStart, some asOf, entity⟩ q =
        s.windowSum ⟨accountingBookId, none, some asOf, entity⟩ q := by
  simp only [BookTables.windowSum, sum_map_filter]
  rw [← List.sum_map_add]
  refine congrArg List.sum (List.map_congr_left fun p hp => ?_)
  have hbefore := le_dayBefore_iff (hdates p.1 (mem_postings.1 hp).1) hvalid hyear
  simp only [entryPredicates, Option.all_none, Option.all_some, Bool.and_true, hbefore]
  by_cases hlt : p.1.entryDate < yearStart
  · have hle' : p.1.entryDate ≤ asOf := hlt.le.trans hle
    simp [hlt, not_le.2 hlt, hle']
  · simp [hlt, not_lt.1 hlt]

end Year

section Book

variable {s : BookTables} {w : StatementWindow}

theorem Balanced.functional_sum {lines : List JournalLineRow} (h : Balanced lines) :
    (lines.map (·.functionalAmount)).sum = 0 :=
  sum_map_eq_zero_of_groups h.2

theorem whole_entries_sum_zero (hbal : ∀ e ∈ s.ledger.entries,
      e.accountingBookId = w.accountingBookId → inTheBooks e.status = true → Balanced e.lines)
    (q : JournalEntryRow → Bool) (hwhole : ∀ e ∈ s.ledger.entries, q e = true →
      ∀ l ∈ e.lines, entryPredicates w (e, l) = true →
        ∀ l' ∈ e.lines, entryPredicates w (e, l') = true) :
    ((s.ledger.postings.filter fun p => entryPredicates w p && q p.1).map
      (·.2.functionalAmount)).sum = 0 := by
  have hentry : ∀ e ∈ s.ledger.entries, (((e.lines.map fun l => (e, l)).filter
      fun p => entryPredicates w p && q p.1).map (·.2.functionalAmount)).sum = 0 := by
    intro e he
    by_cases hin : ∃ l ∈ e.lines, (entryPredicates w (e, l) && q e) = true
    · obtain ⟨l, hmem, hl⟩ := hin
      obtain ⟨hl, hq⟩ := Bool.and_eq_true_iff.1 hl
      have hall : ∀ p ∈ e.lines.map fun l => (e, l), (entryPredicates w p && q p.1) = true := by
        rw [List.forall_mem_map]
        intro l' hl'
        rw [hwhole e he hq l hmem hl l' hl', hq]
        rfl
      have hstatus : inTheBooks e.status = true := by
        simp only [entryPredicates, Bool.and_eq_true] at hl
        exact hl.1.1.1.2
      rw [List.filter_eq_self.2 hall, List.map_map]
      exact (hbal e he (entryPredicates_book hl) hstatus).functional_sum
    · have hnone : (e.lines.map fun l => (e, l)).filter
          (fun p => entryPredicates w p && q p.1) = [] := by
        rw [List.filter_eq_nil_iff, List.forall_mem_map]
        exact fun l hl hw => hin ⟨l, hl, hw⟩
      rw [hnone, List.map_nil, List.sum_nil]
  rw [Journal.postings, List.filter_flatMap, List.map_flatMap, List.flatMap, List.sum_flatten,
    List.map_map]
  refine List.sum_eq_zero fun x hx => ?_
  obtain ⟨e, he, rfl⟩ := List.mem_map.1 hx
  exact hentry e he

theorem window_sum_zero (hentity : w.economicEntityId = none) (hbal : ∀ e ∈ s.ledger.entries,
      e.accountingBookId = w.accountingBookId → inTheBooks e.status = true → Balanced e.lines) :
    ((s.ledger.postings.filter (entryPredicates w)).map (·.2.functionalAmount)).sum = 0 := by
  have hwhole := whole_entries_sum_zero hbal (fun _ => true) fun e _ _ l _ hl l' _ => by
    simpa [entryPredicates, hentity] using hl
  simpa using hwhole

theorem windowSum_sections (hs : ChartHolds s) :
    s.windowSum w (· == .asset) + s.windowSum w (· == .liability) +
      s.windowSum w (· == .equity) + s.windowSum w isIncome =
        ((s.ledger.postings.filter (entryPredicates w)).map (·.2.functionalAmount)).sum := by
  rw [← windowSum_or (by intro t; cases t <;> decide),
    ← windowSum_or (by intro t; cases t <;> decide),
    ← windowSum_or (by intro t; cases t <;> decide), BookTables.windowSum]
  congr 2
  refine List.filter_congr fun p hp => ?_
  cases hw : entryPredicates w p with
  | false => rfl
  | true =>
    obtain ⟨a, -, -, -, -, htype⟩ := hs.account hp hw
    rw [htype, Option.any_some, Bool.true_and]
    cases a.accountType <;> rfl

end Book

/-- The sums the sheet casts to its columns: the balances of the accounts it lists, the net income
before the year and the net income of the year. -/
structure SheetFits (s : BookTables) (book : StatementBookRow) (input : BalanceSheetInput) :
    Prop where
  balances : ∀ accountType ∈ [LedgerAccountType.asset, .liability, .equity],
    s.AccountsFit ⟨input.accountingBookId, none, some input.asOf, none⟩ accountType
  retained : s.IncomeFits
    ⟨input.accountingBookId, none, some (dayBefore (book.yearStartOf input.asOf)), none⟩
  current : s.IncomeFits
    ⟨input.accountingBookId, some (book.yearStartOf input.asOf), some input.asOf, none⟩

def yearToDate (book : StatementBookRow) (input : BalanceSheetInput) : IncomeStatementInput where
  accountingBookId := input.accountingBookId
  fromDate := book.yearStartOf input.asOf
  toDate := input.asOf
  filter := input.filter

/-- The sheet has no difference, and its earnings are the net income through its date, the
current ones those of the income statement of the year. -/
structure SheetIdentity (books : List StatementBookRow) (s : BookTables) (book : StatementBookRow)
    (input : BalanceSheetInput) (sheet : BalanceSheet) : Prop where
  difference : sheet.difference = 0
  earnings : sheet.retainedEarnings + sheet.currentEarnings =
    -((s.incomePostings ⟨input.accountingBookId, none, some input.asOf, none⟩).map
      (·.2.functionalAmount)).sum
  current : ∀ statement, incomeStatement books s (yearToDate book input) = .ok statement →
    sheet.currentEarnings = statement.netIncome

def BookBalances (s : BookTables) (accountingBookId : BookId) : Prop :=
  ∀ e ∈ s.ledger.entries, e.accountingBookId = accountingBookId → inTheBooks e.status = true →
    Balanced e.lines

section Sheet

variable {books : List StatementBookRow} {s : BookTables} {book : StatementBookRow}
  {input : BalanceSheetInput}

theorem incomeStatement_netIncome (hs : ChartHolds s)
    (hentity : input.filter.economicEntityId = none) {statement : IncomeStatement}
    (h : incomeStatement books s (yearToDate book input) = .ok statement) :
    statement.netIncome = -s.windowSum
      ⟨input.accountingBookId, some (book.yearStartOf input.asOf), some input.asOf, none⟩
        isIncome := by
  simp only [incomeStatement, yearToDate, hentity, Except.bind_eq_ok, balancesByAccount_eq_ok hs,
    Except.pure_eq_ok] at h
  obtain ⟨_, -, _, ⟨-, rfl⟩, _, ⟨-, rfl⟩, rfl⟩ := h
  have hor : s.windowSum
      ⟨input.accountingBookId, some (book.yearStartOf input.asOf), some input.asOf, none⟩ isIncome =
        _ := windowSum_or (by intro t; cases t <;> decide)
  simp only [statementSection_total hs, sumDecimals, negateDecimal, List.sum_cons, List.sum_nil,
    hor, if_true]
  simp only [Bool.false_eq_true, if_false]
  linarith

theorem balanceSheet_returned (hs : ChartHolds s)
    (hbook : loadStatementBook books input.accountingBookId = .ok book) {sheet : BalanceSheet}
    (h : balanceSheet books s input = .ok sheet) :
    1000 ≤ (book.yearStartOf input.asOf).year ∧
      sheet.retainedEarnings = -s.windowSum ⟨input.accountingBookId, none,
        some (dayBefore (book.yearStartOf input.asOf)), input.filter.economicEntityId⟩ isIncome ∧
      sheet.currentEarnings = -s.windowSum ⟨input.accountingBookId,
        some (book.yearStartOf input.asOf), some input.asOf, input.filter.economicEntityId⟩
          isIncome ∧
      sheet.difference =
        s.windowSum ⟨input.accountingBookId, none, some input.asOf,
          input.filter.economicEntityId⟩ (· == .asset) +
        s.windowSum ⟨input.accountingBookId, none, some input.asOf,
          input.filter.economicEntityId⟩ (· == .liability) +
        s.windowSum ⟨input.accountingBookId, none, some input.asOf,
          input.filter.economicEntityId⟩ (· == .equity) -
        sheet.retainedEarnings - sheet.currentEarnings := by
  simp only [balanceSheet, hbook, Except.bind_eq_ok, balancesByAccount_eq_ok hs,
    netIncomeBetween_eq_ok hs, yearStartLiteral_eq_ok, Except.pure_eq_ok, Except.ok.injEq,
    exists_eq_left'] at h
  obtain ⟨-, -, _, ⟨-, rfl⟩, _, ⟨-, rfl⟩, _, ⟨-, rfl⟩, _, ⟨-, rfl⟩, _, ⟨⟨hyear, -⟩, rfl⟩, _,
    ⟨-, rfl⟩, rfl⟩ := h
  refine ⟨hyear, rfl, rfl, ?_⟩
  simp only [statementSection_total hs, sumDecimals, negateDecimal, List.sum_cons, List.sum_nil,
    if_true, Bool.false_eq_true, if_false]
  ring

theorem balanceSheet_eq_ok (hs : ChartHolds s)
    (hbook : loadStatementBook books input.accountingBookId = .ok book)
    (hentity : input.filter.economicEntityId = none) (hasOf : input.asOf.year ≤ 9999)
    (hyear : book.yearStart 1000 ≤ input.asOf) :
    ((∃ sheet, balanceSheet books s input = .ok sheet) ↔ SheetFits s book input) ∧
      ∀ sheet, balanceSheet books s input = .ok sheet →
        sheet.retainedEarnings = -s.windowSum
            ⟨input.accountingBookId, none, some (dayBefore (book.yearStartOf input.asOf)), none⟩
            isIncome ∧
          sheet.currentEarnings = -s.windowSum
            ⟨input.accountingBookId, some (book.yearStartOf input.asOf), some input.asOf, none⟩
            isIncome ∧
          sheet.difference =
            s.windowSum ⟨input.accountingBookId, none, some input.asOf, none⟩ (· == .asset) +
            s.windowSum ⟨input.accountingBookId, none, some input.asOf, none⟩ (· == .liability) +
            s.windowSum ⟨input.accountingBookId, none, some input.asOf, none⟩ (· == .equity) -
            sheet.retainedEarnings - sheet.currentEarnings := by
  obtain ⟨hge, hle, -⟩ := yearStartOf_spec hyear
  have hliteral : (1000 ≤ (book.yearStartOf input.asOf).year ∧
      (book.yearStartOf input.asOf).year ≤ 9999) := ⟨hge, hle.trans hasOf⟩
  refine ⟨?_, fun sheet h => hentity ▸ (balanceSheet_returned hs hbook h).2⟩
  simp only [balanceSheet, hbook, hentity, assertEntityCoverage, Except.bind_eq_ok,
    balancesByAccount_eq_ok hs, netIncomeBetween_eq_ok hs, yearStartLiteral_eq_ok,
    Except.pure_eq_ok, Except.ok.injEq, exists_eq_left']
  constructor
  · rintro ⟨sheet, -, -, _, ⟨ha, -⟩, _, ⟨hl, -⟩, _, ⟨he, -⟩, _, ⟨hr, -⟩, _, ⟨-, rfl⟩, _, ⟨hc, -⟩, -⟩
    exact ⟨by simpa using ⟨ha, hl, he⟩, hr, hc⟩
  · rintro ⟨hbalances, hr, hc⟩
    simp only [List.forall_mem_cons, List.not_mem_nil, false_implies, implies_true,
      and_true] at hbalances
    obtain ⟨ha, hl, he⟩ := hbalances
    exact ⟨_, (), trivial, _, ⟨ha, rfl⟩, _, ⟨hl, rfl⟩, _, ⟨he, rfl⟩, _, ⟨hr, rfl⟩, _,
      ⟨hliteral, rfl⟩, _, ⟨hc, rfl⟩, rfl⟩

/-- In books whose lines are on postable accounts, for every date in a fiscal year that starts in
1000 or later, the sheet balances and is reported exactly when its sums fit. -/
theorem balance_sheet_identity (hholds : ChartHolds s)
    (hbook : loadStatementBook books input.accountingBookId = .ok book)
    (hentity : input.filter.economicEntityId = none) (hasOf : input.asOf.year ≤ 9999)
    (hyear : book.yearStart 1000 ≤ input.asOf) (hdates : ∀ e ∈ s.ledger.entries, e.entryDate.Valid)
    (hbal : BookBalances s input.accountingBookId) :
    ((∃ sheet, balanceSheet books s input = .ok sheet) ↔ SheetFits s book input) ∧
      ∀ sheet, balanceSheet books s input = .ok sheet →
        SheetIdentity books s book input sheet := by
  obtain ⟨hiff, hsheet⟩ := balanceSheet_eq_ok hholds hbook hentity hasOf hyear
  refine ⟨hiff, fun sheet hok => ?_⟩
  obtain ⟨hretained, hcurrent, hdifference⟩ := hsheet sheet hok
  obtain ⟨hge, -, hle⟩ := yearStartOf_spec hyear
  -- the two earnings are the net income through the date
  have hsplit := windowSum_split input.accountingBookId none hdates
    (yearStartOf_valid book.toFiscalBookRow input.asOf) (Nat.one_le_of_lt hge) hle isIncome
  constructor
  · have hzero := window_sum_zero
      (w := ⟨input.accountingBookId, none, some input.asOf, none⟩) rfl hbal
    rw [← windowSum_sections hholds, ← hsplit] at hzero
    rw [hdifference, hretained, hcurrent]
    linarith
  · rw [incomePostings_sum hholds, ← hsplit, hretained, hcurrent]
    ring
  · intro statement hstatement
    rw [hcurrent, incomeStatement_netIncome hholds hentity hstatement]

end Sheet

namespace Small

def statementChart : List ChartAccountRow :=
  [⟨⟨0, 0, "1010", "Undeposited funds", true, some "undeposited_funds", .active⟩, .asset, none,
      none, false⟩,
    ⟨⟨1, 0, "6100", "Shipping", true, some "shipping_expense", .active⟩, .expense, none, none,
      false⟩]

theorem july_check : 1 ≤ 7 ∧ 7 ≤ 12 := by decide

def statementBook : StatementBookRow :=
  ⟨⟨0, 7, 1, july_check, by decide⟩, "MAIN", "USD", false⟩

def atYearEnd : BalanceSheetInput := ⟨0, ⟨2026, 12, 31⟩, {}⟩

def paid (amount : Money) : BooksCall :=
  .journal setup (.postEntry { shippingEntry none with
    lines :=
      [⟨some 1, none, none, none, none, none, amount, []⟩,
        ⟨some 0, none, none, none, none, none, -amount, []⟩] })

def afterPaying (amounts : List Money) : BookTables :=
  Runs.run BookTables.step ⟨statementChart, Ledger.empty⟩ (amounts.map paid)

def overflowing : List Money := [60000000000000 * moneyUnits, 60000000000000 * moneyUnits]

def onePayment : List Money := [100 * moneyUnits]

theorem dates_of_entries {s : BookTables} (h : ∀ e ∈ s.ledger.entries, e.entryDate = ⟨2026, 1, 15⟩)
    :
    ∀ e ∈ s.ledger.entries, e.entryDate.Valid := by
  intro e he
  rw [h e he]
  exact ⟨by decide, by decide⟩

theorem balances_of_entries {s : BookTables} (h : ∀ e ∈ s.ledger.entries,
      (currencyTotals (·.currency) (·.amount) e.lines).find? (·.2 != 0) = none ∧
        (currencyTotals (·.functionalCurrency) (·.functionalAmount) e.lines).find? (·.2 != 0) =
          none) (accountingBookId : BookId) : BookBalances s accountingBookId := by
  intro e he _ _
  obtain ⟨hamount, hfunctional⟩ := h e he
  exact ⟨currencyTotals_find_none.1 hamount, currencyTotals_find_none.1 hfunctional⟩

end Small

theorem balance_sheet_overflows : ¬ ∀ (chart : List ChartAccountRow) (calls : List BooksCall)
    (books : List StatementBookRow) (book : StatementBookRow) (input : BalanceSheetInput)
    (s : BookTables), (chart.map (·.id)).Nodup →
    loadStatementBook books input.accountingBookId = .ok book →
    input.filter.economicEntityId = none → input.asOf.Valid → input.asOf.year ≤ 9999 →
    s = Runs.run BookTables.step ⟨chart, Ledger.empty⟩ calls →
    (∀ e ∈ s.ledger.entries, e.entryDate.Valid) → BookBalances s input.accountingBookId →
    ∃ sheet, balanceSheet books s input = .ok sheet ∧
      SheetIdentity books s book input sheet := by
  intro hall
  obtain ⟨sheet, hsheet, -⟩ := hall Small.statementChart (Small.overflowing.map Small.paid)
    [Small.statementBook] Small.statementBook Small.atYearEnd (Small.afterPaying Small.overflowing)
    (by decide) rfl rfl ⟨by decide, by decide⟩ (by decide) rfl
    (Small.dates_of_entries (by decide +kernel)) (Small.balances_of_entries (by decide +kernel) 0)
  have hfails : Except.returns (balanceSheet [Small.statementBook]
      (Small.afterPaying Small.overflowing) Small.atYearEnd) = false := by decide +kernel
  rw [hsheet] at hfails
  cases hfails

theorem paid_sheet_balances : ∃ sheet, balanceSheet [Small.statementBook]
    (Small.afterPaying Small.onePayment) Small.atYearEnd = .ok sheet ∧
      sheet.retainedEarnings = -100 * (moneyUnits : ℤ) ∧ SheetIdentity [Small.statementBook]
        (Small.afterPaying Small.onePayment) Small.statementBook Small.atYearEnd sheet := by
  have hreports : (balanceSheet [Small.statementBook] (Small.afterPaying Small.onePayment)
      Small.atYearEnd).toOption.map (·.retainedEarnings) = some (-100 * (moneyUnits : ℤ)) := by
    decide +kernel
  obtain ⟨sheet, hsheet, hretained⟩ := Option.map_eq_some_iff.1 hreports
  rw [Except.toOption_eq_some] at hsheet
  have hbal : BookBalances (Small.afterPaying Small.onePayment)
      Small.atYearEnd.accountingBookId := Small.balances_of_entries (by decide +kernel) 0
  exact ⟨sheet, hsheet, hretained, (balance_sheet_identity
    (chartHolds_run (.start (by decide)) _) rfl rfl (by decide) (by decide)
    (Small.dates_of_entries (by decide +kernel)) hbal).2 sheet hsheet⟩

/-!
## The balance sheet of one entity

The sheet of an entity sums the lines that carry it. Of an entry that several entities share each
sheet has a part, and the gate before the sheet only asks that every line carries some entity.
-/

def JournalEntryRow.isShared (e : JournalEntryRow) : Bool :=
  e.lines.any fun l => e.lines.any fun l' => l.economicEntityId != l'.economicEntityId

namespace BookTables

variable (s : BookTables)

def sharedPostings (accountingBookId : BookId) (asOf : CalendarDate) (entity : EntityId) :
    List (JournalEntryRow × JournalLineRow) :=
  s.ledger.postings.filter fun p =>
    entryPredicates ⟨accountingBookId, none, some asOf, some entity⟩ p && p.1.isShared

def PartsBalance (input : BalanceSheetInput) : Prop :=
  ∀ entity ∈ input.filter.economicEntityId,
    ((s.sharedPostings input.accountingBookId input.asOf entity).map
      (·.2.functionalAmount)).sum = 0

instance (input : BalanceSheetInput) : Decidable (s.PartsBalance input) :=
  inferInstanceAs (Decidable (∀ _ ∈ _, _))

end BookTables

section Sheet

variable {s : BookTables} {w : StatementWindow} {books : List StatementBookRow}
  {input : BalanceSheetInput}

theorem entryPredicates_of_unshared {e : JournalEntryRow} (h : e.isShared = false)
    {l l' : JournalLineRow} (hl : l ∈ e.lines) (hl' : l' ∈ e.lines) :
    entryPredicates w (e, l) = entryPredicates w (e, l') := by
  have hsame : l.economicEntityId = l'.economicEntityId := by
    by_contra hne
    have hshared : e.isShared = true :=
      List.any_eq_true.2 ⟨l, hl, List.any_eq_true.2 ⟨l', hl', by simpa using hne⟩⟩
    rw [h] at hshared
    cases hshared
  simp only [entryPredicates, hsame]

theorem window_sum_shared (hbal : BookBalances s w.accountingBookId) :
    ((s.ledger.postings.filter (entryPredicates w)).map (·.2.functionalAmount)).sum =
      ((s.ledger.postings.filter fun p => entryPredicates w p && p.1.isShared).map
        (·.2.functionalAmount)).sum := by
  have hunshared := whole_entries_sum_zero hbal (fun e => !e.isShared)
    fun e _ hq l hl hw l' hl' => by
      rw [← entryPredicates_of_unshared (by simpa using hq) hl hl']
      exact hw
  have hsplit := sum_map_filter_add_not (s.ledger.postings.filter (entryPredicates w))
    (fun p => p.1.isShared) (·.2.functionalAmount)
  simp only [List.filter_filter] at hsplit
  simp only [Bool.and_comm (entryPredicates w _)] at hunshared ⊢
  rw [← hsplit, hunshared, add_zero]

/-- For every filter and date, a sheet that is returned has no difference exactly when the entity's
parts of the shared entries sum to zero. -/
theorem entity_sheet_iff (hholds : ChartHolds s)
    (hdates : ∀ e ∈ s.ledger.entries, e.entryDate.Valid)
    (hbal : BookBalances s input.accountingBookId) {sheet : BalanceSheet}
    (hsheet : balanceSheet books s input = .ok sheet) :
    sheet.difference = 0 ↔ s.PartsBalance input := by
  obtain ⟨book, hbook⟩ : ∃ book, loadStatementBook books input.accountingBookId = .ok book := by
    simp only [balanceSheet, Except.bind_eq_ok] at hsheet
    obtain ⟨book, hbook, -⟩ := hsheet
    exact ⟨book, hbook⟩
  obtain ⟨hyear, hretained, hcurrent, hdifference⟩ := balanceSheet_returned hholds hbook hsheet
  -- the two earnings are the net income through the date
  have hsplit := windowSum_split input.accountingBookId input.filter.economicEntityId hdates
    (yearStartOf_valid book.toFiscalBookRow input.asOf) (Nat.one_le_of_lt hyear)
    (yearStartOf_le hyear) isIncome
  have hsections := windowSum_sections (w := ⟨input.accountingBookId, none, some input.asOf,
    input.filter.economicEntityId⟩) hholds
  rw [← hsplit] at hsections
  have hwhole : sheet.difference = ((s.ledger.postings.filter (entryPredicates
      ⟨input.accountingBookId, none, some input.asOf, input.filter.economicEntityId⟩)).map
        (·.2.functionalAmount)).sum := by
    rw [← hsections, hdifference, hretained, hcurrent]
    ring
  rw [hwhole]
  unfold BookTables.PartsBalance
  cases hentity : input.filter.economicEntityId with
  | none => exact iff_of_true (window_sum_zero rfl hbal) fun _ h => by cases h
  | some entity =>
    rw [window_sum_shared hbal]
    simp [BookTables.sharedPostings]

end Sheet

namespace Small

/-- A hundred dollars of shipping paid by the first entity. -/
def sharedExpense (allocations : List Allocation) : SourceFact where
  sourceFactType := .expense
  sourceFactId := 0
  accountingDate := ⟨2026, 1, 15⟩
  economicEntityId := some 0
  currency := "USD"
  amounts := [(.total, 100 * moneyUnits), (.tax, 0), (.net, 100 * moneyUnits)]
  attributes := FactAttributes.none
  matchAmount := 100 * moneyUnits
  placeholders := []
  description := ""
  relatedFacts := []
  accountingBookIdOverride := none
  allocations := allocations
  ineligibleReason := none

def postShared (allocations : List Allocation) : BooksCall :=
  let fact := sharedExpense allocations
  .journal setup (.postEntry { shippingEntry none with
    lines := toJournalLines fact (splitByAllocations fact
      [⟨some "shipping_expense", none, 100 * moneyUnits, none, some 0, none⟩,
        ⟨some "undeposited_funds", none, -100 * moneyUnits, none, some 0, none⟩]) })

def afterShared (allocations : List Allocation) : BookTables :=
  Runs.run BookTables.step ⟨statementChart, Ledger.empty⟩ [postShared allocations]

/-- Forty dollars of it are the second entity's. -/
def toOther : List Allocation := [⟨some 1, 40 * moneyUnits, some 1, none⟩]

def toSame : List Allocation := [⟨some 1, 40 * moneyUnits, some 0, none⟩]

def entityBook : StatementBookRow := { statementBook with requiresEntityDimension := true }

def firstEntity : BalanceSheetInput := ⟨0, ⟨2026, 12, 31⟩, ⟨some 0, false⟩⟩

end Small

theorem shared_expense_unbalanced : ¬ ∀ (chart : List ChartAccountRow) (calls : List BooksCall)
    (books : List StatementBookRow) (input : BalanceSheetInput) (s : BookTables)
    (sheet : BalanceSheet), (chart.map (·.id)).Nodup →
    s = Runs.run BookTables.step ⟨chart, Ledger.empty⟩ calls →
    (∀ e ∈ s.ledger.entries, e.entryDate.Valid) → BookBalances s input.accountingBookId →
    balanceSheet books s input = .ok sheet → sheet.difference = 0 := by
  intro hall
  have hreports : (balanceSheet [Small.entityBook] (Small.afterShared Small.toOther)
      Small.firstEntity).toOption.map (·.difference) = some (-40 * (moneyUnits : ℤ)) := by
    decide +kernel
  obtain ⟨sheet, hsheet, hdifference⟩ := Option.map_eq_some_iff.1 hreports
  rw [Except.toOption_eq_some] at hsheet
  have hzero := hall Small.statementChart [Small.postShared Small.toOther] [Small.entityBook]
    Small.firstEntity _ sheet (by decide) rfl
    (Small.dates_of_entries (by decide +kernel)) (Small.balances_of_entries (by decide +kernel) 0)
    hsheet
  rw [hdifference] at hzero
  simp [moneyUnits] at hzero

theorem own_expense_balances : ∃ sheet, balanceSheet [Small.entityBook]
    (Small.afterShared Small.toSame) Small.firstEntity = .ok sheet ∧
      (sheet.difference = 0 ↔ (Small.afterShared Small.toSame).PartsBalance Small.firstEntity) ∧
      sheet.difference = 0 := by
  have hreports : (balanceSheet [Small.entityBook] (Small.afterShared Small.toSame)
      Small.firstEntity).toOption.map (·.difference) = some 0 := by decide +kernel
  obtain ⟨sheet, hsheet, hdifference⟩ := Option.map_eq_some_iff.1 hreports
  rw [Except.toOption_eq_some] at hsheet
  exact ⟨sheet, hsheet, entity_sheet_iff (chartHolds_run (.start (by decide)) _)
    (Small.dates_of_entries (by decide +kernel)) (Small.balances_of_entries (by decide +kernel) _)
    hsheet, hdifference⟩

end Loxep

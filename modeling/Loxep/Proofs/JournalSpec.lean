import Loxep.Journal

/-!
# What posting and reversing do

One specification for each check and each call: what a successful parse yields, when the lines
balance, when a posting is accepted, and what a returned call has written. A ledger after a
successful call is its journal after at most one append and one stamp.
-/

namespace Loxep

theorem Ledger.ext_journal {a b : Ledger} (h : a.toJournal = b.toJournal) : a = b := by
  cases a; cases b; cases h; rfl

section Parse

variable {path value t : String} {o o' : Option String}

theorem parseText_eq_ok : parseText path value = .ok t ↔ trim value ≠ "" ∧ trim value = t := by
  unfold parseText
  split_ifs with h <;> simp [h]

theorem parseOptionalText_eq_ok :
    parseOptionalText path o = .ok o' ↔ (∀ v ∈ o, trim v ≠ "") ∧ o.map trim = o' := by
  cases o with
  | none => simp [parseOptionalText]
  | some v =>
    simp only [parseOptionalText, Except.bind_eq_ok, parseText_eq_ok, Except.pure_eq_ok,
      Option.mem_def, Option.some.injEq, forall_eq', Option.map_some]
    constructor
    · rintro ⟨a, ⟨h, rfl⟩, rfl⟩
      exact ⟨h, rfl⟩
    · rintro ⟨h, rfl⟩
      exact ⟨_, ⟨h, rfl⟩, rfl⟩

def trimmedLine (line : JournalLineInput) : JournalLineInput :=
  { line with
    accountSystemKey := line.accountSystemKey.map trim
    description := line.description.map trim }

def LineWellFormed (line : JournalLineInput) : Prop :=
  (∀ v ∈ line.accountSystemKey, trim v ≠ "") ∧ line.lineNumber ≠ some 0 ∧
    (∀ v ∈ line.description, trim v ≠ "") ∧ (∀ c ∈ line.currency, isAlphabeticCode c) ∧
    line.ledgerAccountId.isNone ≠ line.accountSystemKey.isNone

theorem parseLine_eq_ok {line parsed : JournalLineInput} :
    parseLine line = .ok parsed ↔ LineWellFormed line ∧ trimmedLine line = parsed := by
  unfold parseLine LineWellFormed trimmedLine
  simp only [Except.bind_eq_ok, parseOptionalText_eq_ok, Except.require_eq_ok,
    Except.pure_eq_ok, Option.all_eq_true]
  constructor
  · rintro ⟨key, ⟨hkey, rfl⟩, -, hnum, d, ⟨hd, rfl⟩, -, hcur, -, hacc, rfl⟩
    exact ⟨⟨hkey, hnum, hd, hcur, hacc⟩, rfl⟩
  · rintro ⟨⟨hkey, hnum, hd, hcur, hacc⟩, rfl⟩
    exact ⟨_, ⟨hkey, rfl⟩, ⟨⟩, hnum, _, ⟨hd, rfl⟩, ⟨⟩, hcur, ⟨⟩, hacc, rfl⟩

theorem parseLines_eq_ok : ∀ {lines parsed : List JournalLineInput},
    parseLines lines = .ok parsed ↔
      (∀ line ∈ lines, LineWellFormed line) ∧ lines.map trimmedLine = parsed
  | [], parsed => by simp [parseLines]
  | line :: lines, parsed => by
    simp only [parseLines, Except.bind_eq_ok, parseLine_eq_ok, parseLines_eq_ok,
      Except.pure_eq_ok, List.forall_mem_cons, List.map_cons]
    constructor
    · rintro ⟨p, ⟨hl, rfl⟩, rest, ⟨hr, rfl⟩, rfl⟩
      exact ⟨⟨hl, hr⟩, rfl⟩
    · rintro ⟨⟨hl, hr⟩, rfl⟩
      exact ⟨_, ⟨hl, rfl⟩, _, ⟨hr, rfl⟩, rfl⟩

def trimmedEntry (input : PostEntryInput) : PostEntryInput :=
  { input with
    description := trim input.description
    memo := input.memo.map trim
    postingKey := input.postingKey.map trim
    sourceFactType := input.sourceFactType.map trim
    sourceFactFingerprint := input.sourceFactFingerprint.map trim
    lines := input.lines.map trimmedLine }

structure EntryWellFormed (input : PostEntryInput) : Prop where
  description : trim input.description ≠ ""
  memo : ∀ v ∈ input.memo, trim v ≠ ""
  postingKey : ∀ v ∈ input.postingKey, trim v ≠ ""
  sourceFactType : ∀ v ∈ input.sourceFactType, trim v ≠ ""
  fingerprint : ∀ v ∈ input.sourceFactFingerprint, trim v ≠ ""
  lines : ∀ line ∈ input.lines, LineWellFormed line
  lines_ne : input.lines ≠ []

theorem parseEntry_eq_ok {input value : PostEntryInput} :
    parseEntry input = .ok value ↔ EntryWellFormed input ∧ trimmedEntry input = value := by
  unfold parseEntry trimmedEntry
  simp only [Except.bind_eq_ok, parseText_eq_ok, parseOptionalText_eq_ok, parseLines_eq_ok,
    Except.require_eq_ok, Except.pure_eq_ok]
  constructor
  · rintro ⟨d, ⟨hd, rfl⟩, m, ⟨hm, rfl⟩, k, ⟨hk, rfl⟩, t, ⟨ht, rfl⟩, f, ⟨hf, rfl⟩, l, ⟨hl, rfl⟩,
      -, hne, rfl⟩
    exact ⟨⟨hd, hm, hk, ht, hf, hl, by simpa using hne⟩, rfl⟩
  · rintro ⟨⟨hd, hm, hk, ht, hf, hl, hne⟩, rfl⟩
    exact ⟨_, ⟨hd, rfl⟩, _, ⟨hm, rfl⟩, _, ⟨hk, rfl⟩, _, ⟨ht, rfl⟩, _, ⟨hf, rfl⟩, _, ⟨hl, rfl⟩,
      ⟨⟩, by simpa using hne, rfl⟩

end Parse

section Balance

def totalIn (currency : JournalLineRow → String) (amount : JournalLineRow → Money)
    (lines : List JournalLineRow) (c : String) : Money :=
  ((lines.filter fun line => currency line == c).map amount).sum

def Balanced (lines : List JournalLineRow) : Prop :=
  (∀ c, totalIn (·.currency) (·.amount) lines c = 0) ∧
    ∀ c, totalIn (·.functionalCurrency) (·.functionalAmount) lines c = 0

variable {currency : JournalLineRow → String} {amount : JournalLineRow → Money}
  {lines : List JournalLineRow}

theorem totalIn_eq_zero_of_notMem {c : String} (h : c ∉ lines.map currency) :
    totalIn currency amount lines c = 0 := by
  have : lines.filter (fun line => currency line == c) = [] := by
    rw [List.filter_eq_nil_iff]
    intro line hl hc
    exact h (List.mem_map.2 ⟨line, hl, by simpa using hc⟩)
  simp [totalIn, this]

theorem currencyTotals_find_none :
    (currencyTotals currency amount lines).find? (·.2 != 0) = none ↔
      ∀ c, totalIn currency amount lines c = 0 := by
  unfold currencyTotals
  simp only [List.find?_eq_none, List.mem_map, List.mem_eraseDups]
  constructor
  · intro h c
    by_cases hc : c ∈ lines.map currency
    · have := h _ ⟨c, by simpa using hc, rfl⟩
      simpa [totalIn, sumDecimals] using this
    · exact totalIn_eq_zero_of_notMem hc
  · rintro h x ⟨c, -, rfl⟩
    simpa [totalIn, sumDecimals] using h c

theorem assertBalanced_eq_ok {context : String} {u : Unit} :
    assertBalanced lines context = .ok u ↔ 2 ≤ lines.length ∧ Balanced lines := by
  unfold assertBalanced Balanced
  split_ifs with hlen
  · simp; omega
  · rw [← currencyTotals_find_none, ← currencyTotals_find_none]
    have h2 : 2 ≤ lines.length := by omega
    split
    · rename_i heq
      simp [heq]
    · rename_i heq
      split
      · rename_i heq'
        simp [heq, heq']
      · rename_i heq'
        simp [heq, heq', h2]

end Balance

section Prepare

variable {setup : Setup} {j : Journal} {book : AccountingBookRow}

variable {id : BookId} {date : CalendarDate} {period : FiscalPeriodRow} {allow : Bool} {u : Unit}

theorem resolvePeriodRow_eq_ok :
    setup.resolvePeriodRow id date = .ok period ↔ setup.findPeriod id date = some period := by
  unfold Setup.resolvePeriodRow
  split <;> simp_all

def PeriodTakes (period : FiscalPeriodRow) (allowBackdated isBackdated : Bool) : Prop :=
  (period.status = .opened ∧ isBackdated = false) ∨
    (period.status = .softClosed ∧ allowBackdated = true ∧ isBackdated = true)

theorem assertPeriodAcceptsPosting_eq_ok {flag : Bool} :
    Setup.assertPeriodAcceptsPosting period allow = .ok flag ↔ PeriodTakes period allow flag := by
  unfold Setup.assertPeriodAcceptsPosting PeriodTakes
  rcases h : period.status <;> cases allow <;> cases flag <;> simp

theorem assertHeader_eq_ok {source : EntrySource} {type : Option String} {id : Option FactId}
    {version : Option VersionId} :
    assertHeader source type id version = .ok u ↔
      type.isSome = id.isSome ∧ ((source = .postingRule) ↔ version.isSome) := by
  simp only [assertHeader, Except.bind_eq_ok, Except.require_eq_ok, exists_const]

def CarriesRequiredDimensions (setup : Setup) (book : AccountingBookRow)
    (lines : List JournalLineRow) : Prop :=
  ∀ line ∈ lines, ∀ dimension ∈ setup.requiredDimensions book.id,
    dimension.id ∈ line.dimensions.map (·.1)

theorem assertRequiredDimensions_eq_ok {lines : List JournalLineRow} :
    assertRequiredDimensions setup book lines = .ok u ↔
      CarriesRequiredDimensions setup book lines := by
  unfold assertRequiredDimensions CarriesRequiredDimensions
  simp only []
  split
  · rename_i hnone
    simp only [true_iff]
    intro line hl dimension hd
    have := List.findSome?_eq_none_iff.1 hnone line hl
    rw [Option.map_eq_none_iff, List.find?_eq_none] at this
    simpa using this dimension hd
  · rename_i p hsome
    simp only [reduceCtorEq, false_iff]
    intro h
    obtain ⟨line, hl, hf⟩ := List.exists_of_findSome?_eq_some hsome
    rw [Option.map_eq_some_iff] at hf
    obtain ⟨dimension, hd, -⟩ := hf
    have hmem := h line hl dimension (List.mem_of_find?_eq_some hd)
    have := List.find?_some hd
    simp_all

def CounterUsable (j : Journal) (book : BookId) : Prop :=
  1 ≤ j.nextEntryNumber book ∧ j.nextEntryNumber book ≤ Journal.maxSafeInteger

/-- Every check a posting has to pass under a new key, with what each of them finds. -/
structure Accepts (setup : Setup) (j : Journal) (value : PostEntryInput) (p : PreparedEntry) :
    Prop where
  routed : routeEntryBook setup value = .ok p.book
  resolved : resolveLines setup p.book value.lines = .ok p.lines
  two : 2 ≤ p.lines.length
  balanced : Balanced p.lines
  dimensions : CarriesRequiredDimensions setup p.book p.lines
  period : setup.findPeriod p.book.id value.entryDate = some p.period
  takes : PeriodTakes p.period value.allowBackdated p.isBackdated
  counter : CounterUsable j p.book.id
  stamped : value.sourceFactType.isSome = value.sourceFactId.isSome
  versioned : (value.entrySource = .postingRule) ↔ value.postingRuleVersionId.isSome
  stores : storable p.lines

theorem prepareEntry_eq_ok {value : PostEntryInput} {p : PreparedEntry} :
    prepareEntry setup j value = .ok p ↔ Accepts setup j value p := by
  unfold prepareEntry
  simp only [Except.bind_eq_ok, assertBalanced_eq_ok, assertRequiredDimensions_eq_ok,
    resolvePeriodRow_eq_ok, assertPeriodAcceptsPosting_eq_ok, takeEntryNumber_eq_ok,
    assertHeader_eq_ok, Except.require_eq_ok, Except.pure_eq_ok, exists_const]
  constructor
  · rintro ⟨book, hb, lines, hl, ⟨h2, hbal⟩, hdim, period, hper, flag, hflag, n, ⟨hcnt, -⟩,
      ⟨hst, hver⟩, hsto, rfl⟩
    exact ⟨hb, hl, h2, hbal, hdim, hper, hflag, hcnt, hst, hver, hsto⟩
  · intro h
    exact ⟨_, h.routed, _, h.resolved, ⟨h.two, h.balanced⟩, h.dimensions, _, h.period, _, h.takes,
      _, ⟨h.counter, rfl⟩, ⟨h.stamped, h.versioned⟩, h.stores, rfl⟩

structure AcceptsReversal (setup : Setup) (j : Journal) (original : JournalEntryRow)
    (entryDate : CalendarDate) (allowBackdated : Bool) (p : PreparedReversal) : Prop where
  original_eq : p.original = original
  booked : ∃ book, setup.loadBook original.accountingBookId = .ok book
  lines_ne : original.lines ≠ []
  period : setup.findPeriod original.accountingBookId entryDate = some p.period
  takes : PeriodTakes p.period allowBackdated p.isBackdated
  counter : CounterUsable j original.accountingBookId
  stamped : original.sourceFactType.isSome = original.sourceFactId.isSome
  versioned : (original.entrySource = .postingRule) ↔ original.postingRuleVersionId.isSome

theorem loadBook_id (h : setup.loadBook id = .ok book) : book.id = id :=
  findBook_id (loadBook_eq_ok.1 h).1

theorem prepareReversal_eq_ok {original : JournalEntryRow} {p : PreparedReversal}
    : prepareReversal setup j original date allow = .ok p ↔
      AcceptsReversal setup j original date allow p := by
  unfold prepareReversal
  simp only [Except.bind_eq_ok, resolvePeriodRow_eq_ok, assertPeriodAcceptsPosting_eq_ok,
    takeEntryNumber_eq_ok, assertHeader_eq_ok, Except.require_eq_ok, Except.pure_eq_ok,
    exists_const]
  constructor
  · rintro ⟨book, hb, hne, period, hper, flag, hflag, n, ⟨hcnt, -⟩, ⟨hst, hver⟩, rfl⟩
    rw [loadBook_id hb] at hper hcnt
    exact ⟨rfl, ⟨book, hb⟩, hne, hper, hflag, hcnt, hst, hver⟩
  · rintro ⟨rfl, ⟨book, hb⟩, hne, hper, hflag, hcnt, hst, hver⟩
    refine ⟨book, hb, hne, _, ?_, _, hflag, _, ⟨?_, rfl⟩, ⟨hst, hver⟩, rfl⟩
    · rwa [loadBook_id hb]
    · rwa [loadBook_id hb]

end Prepare

section Calls

variable {setup : Setup} {ledger ledger' : Ledger} {posted : PostedEntry}

theorem postEntry_eq_ok {input : PostEntryInput} :
    postEntry setup ledger input = .ok (posted, ledger') ↔
      EntryWellFormed input ∧
        ((∃ existing, (trimmedEntry input).postingKey.bind ledger.existingByPostingKey =
            some existing ∧ posted = ⟨existing, true⟩ ∧ ledger' = ledger) ∨
          ((trimmedEntry input).postingKey.bind ledger.existingByPostingKey = none ∧
            ∃ p, Accepts setup ledger.toJournal (trimmedEntry input) p ∧
              posted = ⟨postedRow ledger.toJournal (trimmedEntry input) p, false⟩ ∧
              ledger'.toJournal = ledger.toJournal.appendPosted
                (postedRow ledger.toJournal (trimmedEntry input) p))) := by
  unfold postEntry
  simp only [Except.bind_eq_ok, parseEntry_eq_ok]
  constructor
  · rintro ⟨value, ⟨hwf, rfl⟩, h⟩
    refine ⟨hwf, ?_⟩
    split at h
    · rename_i existing hkey
      rw [Except.pure_eq_ok, Prod.mk.injEq] at h
      exact .inl ⟨existing, hkey, h.1.symm, h.2.symm⟩
    · rename_i hkey
      simp only [Except.bind_eq_ok, prepareEntry_eq_ok, Except.pure_eq_ok, Prod.mk.injEq] at h
      obtain ⟨p, hp, rfl, rfl⟩ := h
      exact .inr ⟨hkey, p, hp, rfl, rfl⟩
  · rintro ⟨hwf, h⟩
    refine ⟨_, ⟨hwf, rfl⟩, ?_⟩
    rcases h with ⟨existing, hkey, rfl, rfl⟩ | ⟨hkey, p, hp, rfl, hl⟩
    · split
      · rename_i e he
        rw [he, Option.some.injEq] at hkey
        rw [hkey]
        rfl
      · rename_i he
        rw [he] at hkey
        cases hkey
    · split
      · rename_i e he
        rw [he] at hkey
        cases hkey
      · simp only [Except.bind_eq_ok, prepareEntry_eq_ok, Except.pure_eq_ok, Prod.mk.injEq]
        exact ⟨p, hp, rfl, (Ledger.ext_journal hl).symm⟩

theorem reverseEntry_eq_ok {input : ReverseEntryInput} :
    reverseEntry setup ledger input = .ok (posted, ledger') ↔
      trim input.reason ≠ "" ∧
      ∃ original, ledger.loadEntry input.journalEntryId = .ok original ∧
        (original.status ≠ .draft ∧ original.status ≠ .void) ∧ original.reversesEntryId = none ∧
        ((∃ already, ledger.reversalOf original.id = some already ∧
            posted = ⟨already, true⟩ ∧ ledger' = ledger) ∨
          (ledger.reversalOf original.id = none ∧ original.status = .posted ∧
            (∀ key, original.postingKey = some key →
              ledger.existingByPostingKey ("rev:" ++ key) = none) ∧
            ∃ p, AcceptsReversal setup ledger.toJournal original
                (input.entryDate.getD original.entryDate) input.allowBackdated p ∧
              posted = ⟨reversalRow ledger.toJournal p
                (input.entryDate.getD original.entryDate) (trim input.reason), false⟩ ∧
              ledger'.toJournal = (ledger.toJournal.appendPosted (reversalRow ledger.toJournal p
                (input.entryDate.getD original.entryDate)
                (trim input.reason))).stampReversed original.id)) := by
  unfold reverseEntry loadReversible
  simp only [Except.bind_eq_ok, Except.require_eq_ok, Except.pure_eq_ok, exists_const]
  refine and_congr_right fun _ => ?_
  have hkeys : ∀ (p : PreparedReversal), (∀ key,
      (reversalRow ledger.toJournal p (input.entryDate.getD p.original.entryDate)
        (trim input.reason)).postingKey = some key → ledger.existingByPostingKey key = none) ↔
      ∀ key, p.original.postingKey = some key →
        ledger.existingByPostingKey ("rev:" ++ key) = none := by
    intro p
    simp [reversalRow]
  constructor
  · rintro ⟨original, ⟨found, hload, hst, hrev, rfl⟩, h⟩
    refine ⟨found, hload, hst, hrev, ?_⟩
    split at h
    · rename_i already halready
      rw [Except.pure_eq_ok, Prod.mk.injEq] at h
      exact .inl ⟨already, halready, h.1.symm, h.2.symm⟩
    · rename_i hnone
      simp only [Except.bind_eq_ok, prepareReversal_eq_ok] at h
      obtain ⟨p, hp, h⟩ := h
      obtain rfl := hp.original_eq
      split_ifs at h with hkey
      simp only [Except.bind_eq_ok, Except.require_eq_ok, Except.pure_eq_ok, Prod.mk.injEq,
        exists_const] at h
      obtain ⟨hposted, rfl, rfl⟩ := h
      exact .inr ⟨hnone, hposted, (hkeys p).1 hkey, p, hp, rfl, rfl⟩
  · rintro ⟨original, hload, hst, hrev, h⟩
    refine ⟨original, ⟨original, hload, hst, hrev, rfl⟩, ?_⟩
    rcases h with ⟨already, halready, rfl, rfl⟩ | ⟨hnone, hposted, hkey, p, hp, rfl, hl⟩
    · split
      · rename_i e he
        rw [he, Option.some.injEq] at halready
        rw [halready]
        rfl
      · rename_i he
        rw [he] at halready
        cases halready
    · split
      · rename_i e he
        rw [he] at hnone
        cases hnone
      · simp only [Except.bind_eq_ok, prepareReversal_eq_ok]
        refine ⟨p, hp, ?_⟩
        obtain rfl := hp.original_eq
        rw [dif_pos ((hkeys p).2 hkey)]
        simp only [Except.bind_eq_ok, Except.require_eq_ok, Except.pure_eq_ok, Prod.mk.injEq,
          exists_const, true_and]
        exact ⟨hposted, (Ledger.ext_journal hl).symm⟩

end Calls

end Loxep

import Loxep.Lib.ChildRows
import Loxep.Proofs.IdempotentPosting
import Loxep.Proofs.JournalStateMachine

/-!
# A draft posted later

A draft's accounts are checked when it is created, everything else again when it is posted. What
may happen in between takes no line elsewhere: an account keeps its id, its book and its system
key, and one that carries lines stays postable. It may be archived, though, and posting a draft
does not look at that.
-/

namespace Loxep

/-- What no update of the chart changes. -/
def LedgerAccountRow.handles (a : LedgerAccountRow) : AccountId × BookId × Option String :=
  (a.id, a.accountingBookId, a.systemKey)

def HandlesKept (accounts accounts' : List LedgerAccountRow) : Prop :=
  accounts.map (·.handles) <+: accounts'.map (·.handles)

/-- Since the draft was written: the chart has only grown, and as long as the row of the draft is
a draft it is as it was. -/
structure DraftKept (chart : List ChartAccountRow) (d : JournalEntryRow) (t : BookTables) :
    Prop where
  handles : HandlesKept (chart.map (·.toLedgerAccountRow)) (t.chart.map (·.toLedgerAccountRow))
  known : d.id < t.ledger.entries.length
  asWritten : ∀ e ∈ t.ledger.entries, e.id = d.id → e.status = .draft → e = d

section Kept

variable {setup : Setup} {ledger ledger' : Ledger} {posted : PostedEntry}

def DraftsKept (j j' : Journal) : Prop :=
  j.entries.length ≤ j'.entries.length ∧
    ∀ e ∈ j'.entries, e.status = .draft → e ∈ j.entries ∨ j.entries.length ≤ e.id

theorem draftsKept_refl (j : Journal) : DraftsKept j j := ⟨le_rfl, fun _ he _ => .inl he⟩

theorem DraftsKept.trans {j j' j'' : Journal} (h : DraftsKept j j') (h' : DraftsKept j' j'') :
    DraftsKept j j'' := by
  refine ⟨h.1.trans h'.1, fun e he hdraft => ?_⟩
  rcases h'.2 e he hdraft with he | hid
  · exact h.2 e he hdraft
  · exact .inr (h.1.trans hid)

theorem draftsKept_append {j j' : Journal} {row : JournalEntryRow} (hid : row.id = j.entries.length)
    (h : j'.entries = j.entries ++ [row]) : DraftsKept j j' := by
  unfold DraftsKept
  rw [h, List.length_append]
  refine ⟨by omega, fun e he hdraft => ?_⟩
  rcases List.mem_append.1 he with he | he
  · exact .inl he
  · rw [List.mem_singleton.1 he]
    exact .inr hid.ge

theorem draftsKept_update {j j' : Journal} {id : EntryId}
    {update : JournalEntryRow → JournalEntryRow} (hupdate : ∀ e, (update e).status ≠ .draft)
    (h : j'.entries = (j.updateEntry id update).entries) : DraftsKept j j' := by
  unfold DraftsKept
  rw [h]
  refine ⟨by simp [Journal.updateEntry], fun e he hdraft => ?_⟩
  obtain ⟨e, hmem, rfl⟩ := Journal.mem_updateEntry.1 he
  split_ifs at hdraft ⊢
  · exact absurd hdraft (hupdate e)
  · exact .inl hmem

theorem perform_draftsKept {call : JournalCall}
    (h : perform setup ledger call = .ok (posted, ledger')) :
    DraftsKept ledger.toJournal ledger'.toJournal := by
  cases call with
  | createDraft input =>
    obtain ⟨p, -, -, hl⟩ := createDraft_eq_ok h
    exact draftsKept_append rfl hl
  | postDraft input =>
    obtain ⟨draft, -, number, p, -, -, -, hl, -⟩ := postDraft_eq_ok h
    exact draftsKept_update (fun _ hst => EntryStatus.noConfusion hst) hl
  | voidDraft input =>
    simp only [perform, Except.bind_eq_ok, Except.pure_eq_ok, Prod.exists, Prod.mk.injEq] at h
    obtain ⟨entry, l, h, -, rfl⟩ := h
    obtain ⟨before, -, -, ⟨-, rfl⟩ | ⟨-, hl⟩⟩ := voidDraft_eq_ok h
    · exact draftsKept_refl _
    · exact draftsKept_update (fun _ hst => EntryStatus.noConfusion hst) hl
  | postEntry input =>
    obtain ⟨-, ⟨existing, -, -, rfl⟩ | ⟨-, p, -, -, hl⟩⟩ := postEntry_eq_ok.1 h
    · exact draftsKept_refl _
    · exact draftsKept_append rfl (congrArg Journal.entries hl)
  | reverseEntry input =>
    obtain ⟨-, original, -, -, -, ⟨already, -, -, rfl⟩ | ⟨-, -, -, p, -, -, hl⟩⟩ :=
      reverseEntry_eq_ok.1 h
    · exact draftsKept_refl _
    · rw [hl]
      refine (draftsKept_append rfl rfl).trans
        (@draftsKept_update _ _ original.id reversedFrom (fun _ hst => ?_) rfl)
      cases hst

variable {d : JournalEntryRow}

variable {t : BookTables}

theorem DraftKept.journal {chart : List ChartAccountRow} (h : DraftKept chart d t)
    (hkept : DraftsKept t.ledger.toJournal ledger'.toJournal) :
    DraftKept chart d { t with ledger := ledger' } where
  handles := h.handles
  known := h.known.trans_le hkept.1
  asWritten e he hid hdraft := by
    rcases hkept.2 e he hdraft with he | hnew
    · exact h.asWritten e he hid hdraft
    · rw [hid] at hnew
      exact absurd h.known hnew.not_gt

theorem DraftKept.chart {chart accounts : List ChartAccountRow} (h : DraftKept chart d t)
    (hkept : HandlesKept (t.chart.map (·.toLedgerAccountRow))
      (accounts.map (·.toLedgerAccountRow))) :
    DraftKept chart d { t with chart := accounts } where
  handles := h.handles.trans hkept
  known := h.known
  asWritten := h.asWritten

theorem handlesKept_update {id : AccountId} {f : ChartAccountRow → ChartAccountRow}
    (hf : ∀ a, (f a).toLedgerAccountRow.handles = a.toLedgerAccountRow.handles) :
    HandlesKept (t.chart.map (·.toLedgerAccountRow))
      ((t.updateRow id f).chart.map (·.toLedgerAccountRow)) := by
  have hsame : ((t.updateRow id f).chart.map (·.toLedgerAccountRow)).map (·.handles) =
      (t.chart.map (·.toLedgerAccountRow)).map (·.handles) := by
    simp only [BookTables.updateRow, List.map_map]
    refine List.map_congr_left fun a _ => ?_
    simp only [Function.comp_apply]
    split_ifs
    · exact hf a
    · rfl
  unfold HandlesKept
  exact hsame ▸ List.prefix_rfl

theorem DraftKept.perform {chart : List ChartAccountRow} {s : BookTables} {call : BooksCall}
    (hs : DraftKept chart d s) (h : s.perform call = .ok t) :
    DraftKept chart d t := by
  cases call with
  | journal setup call =>
    obtain ⟨⟨posted, ledger'⟩, hcall, rfl⟩ := Except.map_eq_ok.1 h
    exact hs.journal (perform_draftsKept hcall)
  | createAccount setup newId value =>
    obtain ⟨⟨row, t'⟩, hcall, rfl⟩ := Except.map_eq_ok.1 h
    simp only [createAccount, Except.bind_eq_ok, Except.require_eq_ok, Except.pure_eq_ok,
      Prod.mk.injEq, exists_const] at hcall
    obtain ⟨code, -, name, -, -, book, -, -, -, -, -, -, -, rfl⟩ := hcall
    refine hs.chart ?_
    rw [HandlesKept, List.map_append, List.map_append]
    exact List.prefix_append _ _
  | updateAccount value =>
    obtain ⟨⟨row, t'⟩, hcall, rfl⟩ := Except.map_eq_ok.1 h
    simp only [updateAccount, Except.bind_eq_ok, Except.pure_eq_ok, Prod.mk.injEq] at hcall
    obtain ⟨code, -, name, -, before, -, -, -, -, -, -, -, -, -, -, rfl⟩ := hcall
    exact hs.chart (handlesKept_update fun _ => rfl)
  | archiveAccount id =>
    obtain ⟨⟨row, t'⟩, hcall, rfl⟩ := Except.map_eq_ok.1 h
    simp only [archiveAccount, Except.bind_eq_ok, Except.pure_eq_ok, Prod.mk.injEq] at hcall
    obtain ⟨before, -, -, -, -, rfl⟩ := hcall
    exact hs.chart (handlesKept_update fun _ => rfl)
  | reactivateAccount id =>
    obtain ⟨⟨row, t'⟩, hcall, rfl⟩ := Except.map_eq_ok.1 h
    simp only [reactivateAccount, Except.bind_eq_ok, Except.pure_eq_ok, Prod.mk.injEq] at hcall
    obtain ⟨before, -, -, rfl⟩ := hcall
    exact hs.chart (handlesKept_update fun _ => rfl)

theorem DraftKept.step {chart : List ChartAccountRow} {s : BookTables} (call : BooksCall)
    (hs : DraftKept chart d s) : DraftKept chart d (s.step call) := by
  unfold BookTables.step
  split
  · rename_i t ht
    exact hs.perform ht
  · exact hs

end Kept

section Resolve

variable {setup setup' : Setup} {book : AccountingBookRow}

variable {a : LedgerAccountRow}

theorem HandlesKept.find {accounts accounts' : List LedgerAccountRow}
    (h : HandlesKept accounts accounts') {p : AccountId × BookId × Option String → Bool}
    (ha : accounts.find? (fun a => p a.handles) = some a) :
    ∃ a', accounts'.find? (fun a => p a.handles) = some a' ∧ a'.handles = a.handles := by
  have hfind : (accounts.map (·.handles)).find? p = some a.handles := by
    rw [List.find?_map]
    exact congrArg (Option.map (·.handles)) ha
  have hfind' := List.IsPrefix.find?_eq_some h hfind
  rw [List.find?_map, Option.map_eq_some_iff] at hfind'
  exact hfind'

variable {line : JournalLineInput}

theorem resolveAccount_again (h : HandlesKept setup.ledgerAccounts setup'.ledgerAccounts)
    {position : ℕ}
    (ha : resolveAccount setup book line position = .ok a) :
    ∃ a', resolveAccount setup' book line position = .ok a' ∧ a'.handles = a.handles := by
  unfold resolveAccount at ha ⊢
  cases hid : line.ledgerAccountId with
  | some id =>
    simp only [hid] at ha ⊢
    split at ha
    · rename_i found hfound
      cases ha
      obtain ⟨a', ha', hsame⟩ := h.find (p := fun handles => handles.1 == id) hfound
      refine ⟨a', ?_, hsame⟩
      rw [show setup'.findAccount id = some a' from ha']
    · cases ha
  | none =>
    simp only [hid] at ha ⊢
    split at ha
    · rename_i found hfound
      cases ha
      obtain ⟨a', ha', hsame⟩ := h.find
        (p := fun handles => handles.2.1 == book.id &&
          handles.2.2 == some (line.accountSystemKey.getD "")) hfound
      refine ⟨a', ?_, hsame⟩
      rw [show setup'.findAccountBySystemKey book.id _ = some a' from ha']
    · cases ha

def ActiveIn (accounts : List LedgerAccountRow) (id : AccountId) : Prop :=
  ∀ a ∈ accounts, a.id = id → a.status = .active

theorem resolveLine_again (h : HandlesKept setup.ledgerAccounts setup'.ledgerAccounts)
    (hids : (setup'.ledgerAccounts.map (·.id)).Nodup) {position : ℕ} {l l' : JournalLineRow}
    (hl : resolveLine setup book line position = .ok l)
    (hpost : ∃ a ∈ setup'.ledgerAccounts, a.id = l.ledgerAccountId ∧ a.isPostable = true) :
    resolveLine setup' book line position = .ok l' ↔
      l' = l ∧ ActiveIn setup'.ledgerAccounts l.ledgerAccountId := by
  simp only [resolveLine, assertAccountUsable, Except.bind_eq_ok, Except.require_eq_ok,
    Except.pure_eq_ok, exists_const] at hl ⊢
  obtain ⟨a, ha, ⟨hbook, -, -⟩, currency, hcurrency, hsame, hamount, rfl⟩ := hl
  obtain ⟨a', ha', hhandles⟩ := resolveAccount_again h ha
  obtain ⟨hid, hhandles⟩ := Prod.ext_iff.1 hhandles
  obtain ⟨there, hthere, hthereId, hthere_post⟩ := hpost
  have hmem : a' ∈ setup'.ledgerAccounts := resolveAccount_mem ha'
  have honly : ∀ b ∈ setup'.ledgerAccounts, b.id = a.id → b = a' := fun b hb hbid =>
    eq_of_key hids hmem hb (hbid.trans hid.symm)
  obtain rfl := honly there hthere hthereId
  have hbook' : there.accountingBookId = book.id := (Prod.ext_iff.1 hhandles).1.trans hbook
  have hactive : ActiveIn setup'.ledgerAccounts a.id ↔ there.status = .active := by
    refine ⟨fun hall => hall there hthere hid, fun hst b hb hbid => ?_⟩
    rw [honly b hb hbid]
    exact hst
  constructor
  · rintro ⟨a', ha'', ⟨-, -, hst⟩, currency', hcurrency', -, -, rfl⟩
    cases ha'.symm.trans ha''
    cases hcurrency.symm.trans hcurrency'
    refine ⟨?_, hactive.2 hst⟩
    rw [show there.id = a.id from hid]
  · rintro ⟨rfl, hst⟩
    refine ⟨there, ha', ⟨hbook', hthere_post, hactive.1 hst⟩, currency, hcurrency, hsame, hamount,
      ?_⟩
    rw [show there.id = a.id from hid]

theorem resolveLinesFrom_again (h : HandlesKept setup.ledgerAccounts setup'.ledgerAccounts)
    (hids : (setup'.ledgerAccounts.map (·.id)).Nodup) : ∀ {inputs : List JournalLineInput}
    {position : ℕ} {lines lines' : List JournalLineRow},
    resolveLinesFrom setup book position inputs = .ok lines →
    (∀ l ∈ lines, ∃ a ∈ setup'.ledgerAccounts, a.id = l.ledgerAccountId ∧ a.isPostable = true) →
    (resolveLinesFrom setup' book position inputs = .ok lines' ↔
      lines' = lines ∧ ∀ l ∈ lines, ActiveIn setup'.ledgerAccounts l.ledgerAccountId)
  | [], _, lines, lines', hl, _ => by
    cases hl
    simp [resolveLinesFrom, eq_comm]
  | _ :: _, _, lines, lines', hl, hpost => by
    simp only [resolveLinesFrom, Except.bind_eq_ok, Except.pure_eq_ok] at hl ⊢
    obtain ⟨l, hl, rest, hrest, rfl⟩ := hl
    rw [List.forall_mem_cons] at hpost ⊢
    constructor
    · rintro ⟨l', hl', rest', hrest', rfl⟩
      obtain ⟨rfl, hst⟩ := (resolveLine_again h hids hl hpost.1).1 hl'
      obtain ⟨rfl, hstrest⟩ := (resolveLinesFrom_again h hids hrest hpost.2).1 hrest'
      exact ⟨rfl, hst, hstrest⟩
    · rintro ⟨rfl, hst, hstrest⟩
      exact ⟨l, (resolveLine_again h hids hl hpost.1).2 ⟨rfl, hst⟩, rest,
        (resolveLinesFrom_again h hids hrest hpost.2).2 ⟨rfl, hstrest⟩, rfl⟩

structure RoutesAlike (setup setup' : Setup) : Prop where
  entities : setup'.economicEntities = setup.economicEntities
  books : setup'.accountingBooks = setup.accountingBooks
  links : setup'.bookEntityLinks = setup.bookEntityLinks

theorem RoutesAlike.chain (h : RoutesAlike setup setup') : ∀ (bound : ℕ) (entity : EntityId),
    setup'.chain bound entity = setup.chain bound entity
  | 0, _ => rfl
  | bound + 1, entity => by
    simp only [Setup.chain, h.entities, h.chain bound]

theorem RoutesAlike.loadBook (h : RoutesAlike setup setup') (id : BookId) :
    setup'.loadBook id = setup.loadBook id := by
  simp only [Setup.loadBook, Setup.findBook, h.books]

theorem RoutesAlike.routeEntryBook (h : RoutesAlike setup setup') (value : PostEntryInput) :
    routeEntryBook setup' value = routeEntryBook setup value := by
  simp only [Loxep.routeEntryBook, Setup.resolveBookForEntity, Setup.routeThroughEntity,
    h.loadBook, h.chain, h.links]

theorem loadBook_of_route {value : PostEntryInput} (h : routeEntryBook setup value = .ok book) :
    setup.loadBook book.id = .ok book := by
  have hload : ∀ id, setup.loadBook id = .ok book → setup.loadBook book.id = .ok book := by
    intro id hid
    rw [loadBook_id hid]
    exact hid
  unfold routeEntryBook at h
  split at h
  · exact hload _ h
  · split at h
    · exact hload _ h
    · cases h

end Resolve

section Paths

variable {setup : Setup} {ledger ledger' : Ledger} {j : Journal} {posted : PostedEntry}

variable {allowBackdated : Bool}

theorem preparePosting_eq_ok {draft : JournalEntryRow} {p : PreparedPosting}
    : preparePosting setup j draft allowBackdated = .ok p ↔
      ∃ book, setup.loadBook draft.accountingBookId = .ok book
        ∧ (2 ≤ draft.lines.length ∧ Balanced draft.lines)
        ∧ CarriesRequiredDimensions setup book draft.lines
        ∧ setup.findPeriod book.id draft.entryDate = some p.period
        ∧ PeriodTakes p.period allowBackdated p.isBackdated ∧ CounterUsable j book.id := by
  unfold preparePosting
  simp only [Except.bind_eq_ok, assertBalanced_eq_ok, assertRequiredDimensions_eq_ok,
    resolvePeriodRow_eq_ok, assertPeriodAcceptsPosting_eq_ok, takeEntryNumber_eq_ok,
    Except.pure_eq_ok, exists_const]
  constructor
  · rintro ⟨book, hbook, hbal, hdim, period, hper, flag, hflag, n, ⟨hcnt, -⟩, rfl⟩
    exact ⟨book, hbook, hbal, hdim, hper, hflag, hcnt⟩
  · rintro ⟨book, hbook, hbal, hdim, hper, hflag, hcnt⟩
    exact ⟨book, hbook, hbal, hdim, _, hper, _, hflag, _, ⟨hcnt, rfl⟩, rfl⟩

variable {input : CreateDraftInput}

theorem createDraft_wellFormed (h : createDraft setup ledger input = .ok (posted, ledger'))
    : EntryWellFormed input := by
  simp only [createDraft, Except.bind_eq_ok, parseEntry_eq_ok] at h
  obtain ⟨value, ⟨hwf, -⟩, -⟩ := h
  exact hwf

variable {p : PreparedDraft}

theorem prepareDraft_eq_ok {value : CreateDraftInput} :
    prepareDraft setup value = .ok p ↔ routeEntryBook setup value = .ok p.book
      ∧ resolveLines setup p.book value.lines = .ok p.lines
      ∧ (value.sourceFactType.isSome = value.sourceFactId.isSome
        ∧ ((value.entrySource = .postingRule) ↔ value.postingRuleVersionId.isSome))
      ∧ storable p.lines := by
  unfold prepareDraft
  simp only [Except.bind_eq_ok, assertHeader_eq_ok, Except.require_eq_ok, Except.pure_eq_ok,
    exists_const]
  constructor
  · rintro ⟨book, hbook, lines, hlines, hheader, hstores, rfl⟩
    exact ⟨hbook, hlines, hheader, hstores⟩
  · rintro ⟨hbook, hlines, hheader, hstores⟩
    exact ⟨_, hbook, _, hlines, hheader, hstores, rfl⟩

def directRequest (input : CreateDraftInput) (allowBackdated : Bool) : PostEntryInput :=
  { input with postingKey := none, allowBackdated := allowBackdated }

def PostsAlike (setup : Setup) (ledger : Ledger) (input : CreateDraftInput) (allowBackdated : Bool)
    (posted : PostedEntry) : Prop :=
  ∃ direct ledger', postEntry setup ledger (directRequest input allowBackdated) =
    .ok (direct, ledger') ∧ direct.entry.lines = posted.entry.lines

theorem postsAlike_iff {setup' : Setup} {prepared : PreparedPosting} {d : JournalEntryRow}
    {active : Prop}
    (hwf : EntryWellFormed input) (hdrafted : prepareDraft setup (trimmedEntry input) = .ok p)
    (hroute : routeEntryBook setup' (trimmedEntry input) = .ok p.book)
    (hd : d = draftRow j (trimmedEntry input) p)
    (hposted : preparePosting setup' ledger.toJournal d allowBackdated = .ok prepared) {number : ℕ}
    (hentry : posted.entry = postedFrom number prepared d)
    (hagain : ∀ lines', resolveLines setup' p.book (trimmedEntry input).lines = .ok lines' ↔
      lines' = p.lines ∧ active) :
    PostsAlike setup' ledger input allowBackdated posted ↔ active := by
  obtain ⟨-, -, ⟨hstamped, hversioned⟩, hstores⟩ := prepareDraft_eq_ok.1 hdrafted
  obtain ⟨book, hbook, ⟨htwo, hbalanced⟩, hdims, hperiod, htakes, hcounter⟩ :=
    preparePosting_eq_ok.1 hposted
  subst hd
  obtain rfl : book = p.book := Except.ok.inj (hbook.symm.trans (loadBook_of_route hroute))
  have hperm := inLineOrder_perm p.lines
  have hlines : posted.entry.lines = inLineOrder p.lines := by
    rw [hentry]
    rfl
  have hdirect : EntryWellFormed (directRequest input allowBackdated) :=
    { hwf with postingKey := fun v hv => absurd hv (Option.not_mem_none v) }
  constructor
  · rintro ⟨direct, ledger', hpost, -⟩
    obtain ⟨-, ⟨_, hkey, -, -⟩ | ⟨-, q, hq, -, -⟩⟩ := postEntry_eq_ok.1 hpost
    · cases hkey
    · have hbook : q.book = p.book := Except.ok.inj (hq.routed.symm.trans hroute)
      have hresolved := hq.resolved
      rw [hbook] at hresolved
      exact ((hagain q.lines).1 hresolved).2
  · intro hactive
    have haccepts : Accepts setup' ledger.toJournal
        (trimmedEntry (directRequest input allowBackdated))
        ⟨p.book, p.lines, prepared.period, prepared.isBackdated⟩ :=
      { routed := hroute
        resolved := (hagain p.lines).2 ⟨rfl, hactive⟩
        two := hperm.length_eq ▸ htwo
        balanced := hbalanced.perm hperm
        dimensions := fun line hline => hdims line (hperm.mem_iff.2 hline)
        period := hperiod
        takes := htakes
        counter := hcounter
        stamped := hstamped
        versioned := hversioned
        stores := hstores }
    refine ⟨_, ledger.appendPosted _ rfl rfl fun key hkey => ?_,
      postEntry_eq_ok.2 ⟨hdirect, .inr ⟨rfl, _, haccepts, rfl, rfl⟩⟩, hlines.symm⟩
    cases hkey

end Paths

theorem DraftKept.start {setup : Setup} {s : BookTables} {input : CreateDraftInput}
    {drafted : PostedEntry} {ledger : Ledger}
    (h : createDraft setup s.ledger input = .ok (drafted, ledger)) :
    DraftKept s.chart drafted.entry { s with ledger := ledger } := by
  obtain ⟨p, -, rfl, hl⟩ := createDraft_eq_ok h
  refine ⟨List.prefix_rfl, ?_, fun e he hid _ => ?_⟩
  · rw [hl, List.length_append]
    exact Nat.lt_succ_self _
  · rw [hl, List.mem_append, List.mem_singleton] at he
    rcases he with he | he
    · exact absurd hid (s.ledger.id_lt he).ne
    · exact he

/-- Whatever happens in between, a draft is posted as its request would be at once exactly when
every account on its lines is active then. -/
theorem draft_posted_iff {chart : List ChartAccountRow} (hids : (chart.map (·.id)).Nodup)
    (before : List BooksCall) {s : BookTables}
    (hs : Runs.run BookTables.step ⟨chart, Ledger.empty⟩ before = s) {setup : Setup}
    {input : CreateDraftInput} {drafted : PostedEntry} {ledger : Ledger}
    (hcreate : createDraft (s.setup setup) s.ledger input = .ok (drafted, ledger))
    (between : List BooksCall) {t : BookTables}
    (ht : Runs.run BookTables.step { s with ledger := ledger } between = t) {setup' : Setup}
    (hroutes : RoutesAlike setup setup') {allowBackdated : Bool} {posted : PostedEntry}
    {ledger' : Ledger} (hpost : postDraft (t.setup setup') t.ledger
      ⟨drafted.entry.id, allowBackdated⟩ = .ok (posted, ledger')) :
    PostsAlike (t.setup setup') t.ledger input allowBackdated posted ↔
      ∀ l ∈ drafted.entry.lines, ActiveIn (t.setup setup').ledgerAccounts l.ledgerAccountId := by
  have hdrafting : perform (s.setup setup) s.ledger (.createDraft input) = .ok (drafted, ledger) :=
    hcreate
  have hcharted : ChartHolds t := by
    rw [← hs] at hdrafting ht
    rw [← ht]
    exact chartHolds_run ((chartHolds_run (.start hids) before).journal hdrafting) between
  have hkept : DraftKept s.chart drafted.entry t := by
    rw [← ht]
    exact (Runs.along_of_step (fun _ call h => h.step call) (.start hcreate)).last
  obtain ⟨p, hp, hdrafted, -⟩ := createDraft_eq_ok hcreate
  obtain ⟨d, hd, number, prepared, hid, hdraft, hposted, -, hprepared⟩ :=
    postDraft_eq_ok hpost
  obtain rfl := hkept.asWritten d hd hid hdraft
  have hroute : routeEntryBook (t.setup setup') (trimmedEntry input) = .ok p.book := by
    rw [← (prepareDraft_eq_ok.1 hp).1]
    exact RoutesAlike.routeEntryBook ⟨hroutes.entities, hroutes.books, hroutes.links⟩ _
  have hlines : ∀ l, l ∈ drafted.entry.lines ↔ l ∈ p.lines := by
    intro l
    rw [hdrafted]
    exact (inLineOrder_perm p.lines).mem_iff
  have haccounts : ((t.setup setup').ledgerAccounts.map (·.id)).Nodup := by
    have hmap : (t.setup setup').ledgerAccounts.map (·.id) = t.chart.map (·.id) := List.map_map
    rw [hmap]
    exact hcharted.ids
  have hpostable : ∀ l ∈ p.lines, ∃ a ∈ (t.setup setup').ledgerAccounts,
      a.id = l.ledgerAccountId ∧ a.isPostable = true := by
    intro l hl
    obtain ⟨a, ha, haid, -, hapost⟩ := hcharted.lines _ hd l ((hlines l).2 hl)
    exact ⟨a.toLedgerAccountRow, List.mem_map_of_mem ha, haid, hapost⟩
  have hagain := @resolveLinesFrom_again (s.setup setup) (t.setup setup') p.book hkept.handles
    haccounts (trimmedEntry input).lines 1 p.lines
  refine postsAlike_iff (createDraft_wellFormed hcreate) hp hroute (congrArg (·.entry) hdrafted)
    hprepared (congrArg (·.entry) hposted) fun lines' => ?_
  rw [resolveLines, hagain (prepareDraft_eq_ok.1 hp).2.1 hpostable]
  simp only [hlines]

namespace Small

def draftChart : List ChartAccountRow :=
  [⟨⟨0, 0, "1010", "Undeposited funds", true, some "undeposited_funds", .active⟩, .asset, none,
      none, false⟩,
    ⟨⟨1, 0, "6100", "Shipping", true, none, .active⟩, .expense, none, none, false⟩]

def uncalled : BookTables := ⟨draftChart, Ledger.empty⟩

def afterDraft (between : List BooksCall) : BookTables :=
  match createDraft (uncalled.setup setup) uncalled.ledger (shippingEntry none) with
  | .ok (_, ledger) => Runs.run BookTables.step { uncalled with ledger := ledger } between
  | .error _ => uncalled

def postedAfter (between : List BooksCall) : Result (PostedEntry × Ledger) :=
  postDraft ((afterDraft between).setup setup) (afterDraft between).ledger ⟨0, false⟩

theorem draft_created (between : List BooksCall) : ∃ drafted ledger,
    createDraft (uncalled.setup setup) uncalled.ledger (shippingEntry none) = .ok (drafted, ledger)
      ∧ Runs.run BookTables.step { uncalled with ledger := ledger } between = afterDraft between
      ∧ drafted.entry.id = 0 := by
  have hrun : (createDraft (uncalled.setup setup) uncalled.ledger (shippingEntry none)).toOption.map
      (·.1.entry.id) = some 0 := by
    decide +kernel
  obtain ⟨⟨drafted, ledger⟩, hcreate, hid⟩ := Option.map_eq_some_iff.1 hrun
  have hcreate := Except.toOption_eq_some.1 hcreate
  exact ⟨drafted, ledger, hcreate, by rw [afterDraft, hcreate], hid⟩

def archivedSince : List BooksCall := [.archiveAccount 1]

def renamedSince : List BooksCall := [.updateAccount ⟨1, none, some "Postage", none, none, none⟩]

end Small

open Loxep.Small in
theorem archived_account_posted : ¬ ∀ (chart : List ChartAccountRow) (before : List BooksCall)
    (s : BookTables) (setup : Setup) (input : CreateDraftInput) (drafted : PostedEntry)
    (ledger : Ledger) (between : List BooksCall) (t : BookTables) (allowBackdated : Bool)
    (posted : PostedEntry) (ledger' : Ledger), (chart.map (·.id)).Nodup →
    Runs.run BookTables.step ⟨chart, Ledger.empty⟩ before = s →
    createDraft (s.setup setup) s.ledger input = .ok (drafted, ledger) →
    Runs.run BookTables.step { s with ledger := ledger } between = t →
    postDraft (t.setup setup) t.ledger ⟨drafted.entry.id, allowBackdated⟩ =
      .ok (posted, ledger') → PostsAlike (t.setup setup) t.ledger input allowBackdated posted := by
  intro hall
  obtain ⟨drafted, ledger, hcreate, hafter, hid⟩ := draft_created archivedSince
  have hposts : Except.returns (postedAfter archivedSince) = true := by decide +kernel
  obtain ⟨⟨posted, ledger'⟩, hpost⟩ := Except.returns_iff.1 hposts
  obtain ⟨direct, ledger'', hdirect, -⟩ := hall draftChart [] uncalled setup (shippingEntry none)
    drafted ledger archivedSince _ false posted ledger' (by decide) rfl hcreate hafter
    (by rw [hid]; exact hpost)
  have hraises : Except.returns (postEntry ((afterDraft archivedSince).setup setup)
      (afterDraft archivedSince).ledger (directRequest (shippingEntry none) false)) = false := by
    decide +kernel
  rw [hdirect] at hraises
  cases hraises

open Loxep.Small in
theorem renamed_account_posted : ∃ posted, PostsAlike ((afterDraft renamedSince).setup setup)
    (afterDraft renamedSince).ledger (shippingEntry none) false posted := by
  obtain ⟨drafted, ledger, hcreate, hafter, hid⟩ := draft_created renamedSince
  have hposts : Except.returns (postedAfter renamedSince) = true := by decide +kernel
  obtain ⟨⟨posted, ledger'⟩, hpost⟩ := Except.returns_iff.1 hposts
  have hchart : (draftChart.map (·.id)).Nodup := by decide
  have hactive : ∀ a ∈ ((afterDraft renamedSince).setup setup).ledgerAccounts,
      a.status = .active := by
    decide +kernel
  exact ⟨posted, (draft_posted_iff hchart [] rfl hcreate renamedSince hafter ⟨rfl, rfl, rfl⟩
    (by rw [hid]; exact hpost)).2 fun l _ a ha _ => hactive a ha⟩

end Loxep

import Loxep.JournalTransactions
import Loxep.Proofs.LiveEntries

/-!
# The journal as a state machine

Whatever the calls and their interleaving, the journal numbers the entries of a book without gap or
duplicate, keeps every entry in the books balanced and reverses an entry at most once. The lock on
the book carries the numbering; the row triggers carry the reversals.
-/

namespace Loxep

def JournalEntryRow.booked (e : JournalEntryRow) : Bool :=
  e.status == .posted || e.status == .reversed

theorem booked_iff {e : JournalEntryRow} :
    e.booked = true ↔ e.status = .posted ∨ e.status = .reversed := by
  simp [JournalEntryRow.booked]

def postedNumbers (b : BookId) (entries : List JournalEntryRow) : List (Option ℕ) :=
  (entries.filter fun e => e.accountingBookId == b && e.booked).map (·.entryNumber)

structure JournalSound (j : Journal) : Prop where
  numbers : ∀ b, ∃ n, (postedNumbers b j.entries).Perm ((List.range' 1 n).map some)
  balanced : ∀ e ∈ j.entries, e.booked → 2 ≤ e.lines.length ∧ Balanced e.lines
  one_reversal : ∀ r ∈ j.entries, ∀ r' ∈ j.entries, r.reversesEntryId.isSome →
    r.reversesEntryId = r'.reversesEntryId → r = r'
  not_reversed : ∀ r ∈ j.entries, ∀ r' ∈ j.entries, r.reversesEntryId.isSome →
    r'.reversesEntryId ≠ some r.id
  negates : ∀ r ∈ j.entries, ∀ e ∈ j.entries, r.reversesEntryId = some e.id →
    r.lines = e.lines.map negateLine
  nets : ∀ r ∈ j.entries, ∀ e ∈ j.entries, r.reversesEntryId = some e.id →
    ∀ account, accountNet e.lines account + accountNet r.lines account = 0

/-- No call changes these of an entry, and none takes it out of the books. -/
structure Keeps (e e' : JournalEntryRow) : Prop where
  id : e'.id = e.id
  lines : e'.lines = e.lines
  book : e'.accountingBookId = e.accountingBookId
  reverses : e'.reversesEntryId = e.reversesEntryId
  booked : e.booked → e'.booked

theorem Keeps.refl (e : JournalEntryRow) : Keeps e e := ⟨rfl, rfl, rfl, rfl, fun h => h⟩

theorem Keeps.trans {e e' e'' : JournalEntryRow} (h : Keeps e e') (h' : Keeps e' e'') :
    Keeps e e'' :=
  ⟨h'.id.trans h.id, h'.lines.trans h.lines, h'.book.trans h.book, h'.reverses.trans h.reverses,
    fun hb => h'.booked (h.booked hb)⟩

def Stored (j : Journal) (e : JournalEntryRow) : Prop := ∃ e' ∈ j.entries, Keeps e e'

def Extends (j j' : Journal) : Prop := ∀ e ∈ j.entries, Stored j' e

theorem Stored.mono {j j' : Journal} {e : JournalEntryRow} (h : Extends j j') (hs : Stored j e)
    : Stored j' e := by
  obtain ⟨e', he', hk⟩ := hs
  obtain ⟨e'', he'', hk'⟩ := h e' he'
  exact ⟨e'', he'', hk.trans hk'⟩

theorem stored_of_mem {j : Journal} {e : JournalEntryRow} (h : e ∈ j.entries) : Stored j e :=
  ⟨e, h, .refl e⟩

section Numbers

variable {b : BookId} {l : List JournalEntryRow}

theorem postedNumbers_append (l l' : List JournalEntryRow) :
    postedNumbers b (l ++ l') = postedNumbers b l ++ postedNumbers b l' := by
  simp [postedNumbers]

theorem postedNumbers_map {f : JournalEntryRow → JournalEntryRow}
    (h : ∀ e ∈ l, (f e).accountingBookId = e.accountingBookId ∧ (f e).booked = e.booked ∧
      (f e).entryNumber = e.entryNumber) : postedNumbers b (l.map f) = postedNumbers b l := by
  induction l with
  | nil => rfl
  | cons e l ih =>
    obtain ⟨hb, hbk, hn⟩ := h e (by simp)
    have ih := ih fun e he => h e (by simp [he])
    simp only [postedNumbers, List.map_cons, List.filter_cons, hb, hbk] at ih ⊢
    split_ifs
    · rw [List.map_cons, List.map_cons, ih, hn]
    · exact ih

theorem postedNumbers_confirm (b : BookId) (update : JournalEntryRow → JournalEntryRow)
    {d : JournalEntryRow} (hids : (l.map (·.id)).Nodup) (hd : d ∈ l) (hdraft : d.booked = false)
    (hbooked : (update d).booked = true) (hbook : (update d).accountingBookId = d.accountingBookId)
    :
    (postedNumbers b (l.map fun e => if e.id = d.id then update e else e)).Perm
      (postedNumbers b l ++ if d.accountingBookId = b then [(update d).entryNumber] else []) := by
  obtain ⟨l₁, l₂, rfl⟩ := List.append_of_mem hd
  simp only [List.map_append, List.map_cons, List.nodup_append, List.nodup_cons, List.mem_map,
    List.mem_cons] at hids
  have hkeep : ∀ l' : List JournalEntryRow, (∀ e ∈ l', e.id ≠ d.id) →
      l'.map (fun e => if e.id = d.id then update e else e) = l' := by
    intro l' h
    conv_rhs => rw [← List.map_id l']
    exact List.map_congr_left fun e he => if_neg (h e he)
  have h₁ : ∀ e ∈ l₁, e.id ≠ d.id := fun e he =>
    hids.2.2 e.id ⟨e, he, rfl⟩ d.id (.inl rfl)
  have h₂ : ∀ e ∈ l₂, e.id ≠ d.id := fun e he heq => hids.2.1.1 ⟨e, he, heq⟩
  rw [List.map_append, List.map_cons, hkeep l₁ h₁, hkeep l₂ h₂, if_pos rfl,
    List.append_cons l₁ (update d), List.append_cons l₁ d]
  simp only [postedNumbers_append]
  have hd' : postedNumbers b [d] = [] := by simp [postedNumbers, hdraft]
  have hu : postedNumbers b [update d] =
      if d.accountingBookId = b then [(update d).entryNumber] else [] := by
    simp only [postedNumbers, List.filter_cons, hbooked, hbook, Bool.and_true, beq_iff_eq,
      List.filter_nil]
    split_ifs <;> rfl
  rw [hd', hu, List.append_nil, List.append_assoc, List.append_assoc]
  exact (List.perm_append_comm).append_left _

end Numbers

def NumberedWrite.Ready (j : Journal) (book : BookId) : NumberedWrite → Prop
  | .post _ p => p.book.id = book ∧ 2 ≤ p.lines.length ∧ Balanced p.lines
  | .confirm draft _ => Stored j draft ∧ draft.accountingBookId = book ∧
      2 ≤ draft.lines.length ∧ Balanced draft.lines
  | .reverse p _ _ => Stored j p.original ∧ p.original.accountingBookId = book ∧
      p.original.reversesEntryId = none

def TxStage.Current (s : JournalSessions) (tx : TxId) : TxStage → Prop
  | .confirming draft _ => Stored s.journal draft
  | .reversing original _ => Stored s.journal original ∧ original.reversesEntryId = none
  | .correcting original _ => Stored s.journal original ∧ original.reversesEntryId = none
  | .numbered book number write => s.holder book = some tx ∧
      s.journal.nextEntryNumber book = number ∧ write.Ready s.journal book
  | _ => True

structure InOrder (j : Journal) : Prop where
  ids : j.entries.map (·.id) = List.range j.entries.length
  counter : ∀ b, 1 ≤ j.nextEntryNumber b
  numbers : ∀ b, (postedNumbers b j.entries).Perm
    ((List.range' 1 (j.nextEntryNumber b - 1)).map some)
  balanced : ∀ e ∈ j.entries, e.booked → 2 ≤ e.lines.length ∧ Balanced e.lines
  one_reversal : (j.entries.filterMap (·.reversesEntryId)).Nodup
  original : ∀ r ∈ j.entries, ∀ id, r.reversesEntryId = some id → ∃ e ∈ j.entries,
    e.id = id ∧ e.status = .reversed ∧ e.reversesEntryId = none ∧
      r.lines = e.lines.map negateLine

structure Valid (s : JournalSessions) : Prop where
  journal : InOrder s.journal
  current : ∀ tx, (s.stage tx).Current s tx
  held : ∀ b tx, s.holder b = some tx → ∃ n w, s.stage tx = .numbered b n w

section Writes

variable {j : Journal} {row e e' : JournalEntryRow} {id : EntryId} {next : BookId → ℕ}
  {update : JournalEntryRow → JournalEntryRow}

theorem InOrder.nodup (h : InOrder j) : (j.entries.map (·.id)).Nodup := by
  rw [h.ids]
  exact List.nodup_range

theorem InOrder.eq_of_id (h : InOrder j) (he : e ∈ j.entries) (he' : e' ∈ j.entries)
    (hid : e.id = e'.id) : e = e' :=
  List.inj_on_of_nodup_map h.nodup he he' hid

theorem InOrder.id_lt (h : InOrder j) (he : e ∈ j.entries) : e.id < j.entries.length := by
  have : e.id ∈ j.entries.map (·.id) := List.mem_map_of_mem he
  rwa [h.ids, List.mem_range] at this

theorem extends_append : Extends j ⟨j.entries ++ [row], next⟩ := fun e he =>
  ⟨e, List.mem_append_left _ he, .refl e⟩

theorem extends_update (next : BookId → ℕ) (hkeep : ∀ e ∈ j.entries, e.id = id → Keeps e (update e))
    :
    Extends j ⟨(j.updateEntry id update).entries, next⟩ := by
  intro e he
  refine ⟨_, Journal.mem_updateEntry.2 ⟨e, he, rfl⟩, ?_⟩
  split_ifs with h
  · exact hkeep e he h
  · exact .refl e

theorem InOrder.append (h : InOrder j) (hid : row.id = j.entries.length) (hnext : ∀ b, 1 ≤ next b)
    (hnum : ∀ b, ((List.range' 1 (next b - 1)).map some : List (Option ℕ)) =
      (List.range' 1 (j.nextEntryNumber b - 1)).map some ++ postedNumbers b [row])
    (hbal : row.booked → 2 ≤ row.lines.length ∧ Balanced row.lines)
    (hrev : ∀ id, row.reversesEntryId = some id → (∀ r ∈ j.entries, r.reversesEntryId ≠ some id) ∧
      ∃ e ∈ j.entries, e.id = id ∧ e.status = .reversed ∧ e.reversesEntryId = none ∧
        row.lines = e.lines.map negateLine) : InOrder ⟨j.entries ++ [row], next⟩ where
  ids := by
    simp only [List.map_append, List.map_cons, List.map_nil, List.length_append,
      List.length_singleton, List.range_succ, h.ids, hid]
  counter := hnext
  numbers b := by
    rw [postedNumbers_append, hnum]
    exact (h.numbers b).append_right _
  balanced e he hb := by
    rcases List.mem_append.1 he with he | he
    · exact h.balanced e he hb
    · obtain rfl := List.mem_singleton.1 he
      exact hbal hb
  one_reversal := by
    rw [List.filterMap_append, List.nodup_append]
    refine ⟨h.one_reversal, ?_, ?_⟩
    · rcases hr : row.reversesEntryId with _ | id <;> simp [hr]
    · rintro a ha b hb rfl
      simp only [List.mem_filterMap, List.mem_singleton, exists_eq_left] at ha hb
      obtain ⟨r, hr, hra⟩ := ha
      exact (hrev a hb).1 r hr hra
  original r hr id hrid := by
    rcases List.mem_append.1 hr with hr | hr
    · obtain ⟨e, he, hrest⟩ := h.original r hr id hrid
      exact ⟨e, List.mem_append_left _ he, hrest⟩
    · obtain rfl := List.mem_singleton.1 hr
      obtain ⟨-, e, he, hrest⟩ := hrev id hrid
      exact ⟨e, List.mem_append_left _ he, hrest⟩

theorem InOrder.updateEntry (h : InOrder j) (hnext : ∀ b, 1 ≤ next b)
    (hnum : ∀ b, (postedNumbers b (j.updateEntry id update).entries).Perm
      ((List.range' 1 (next b - 1)).map some))
    (hkeep : ∀ e ∈ j.entries, e.id = id → Keeps e (update e))
    (hreversed : ∀ e ∈ j.entries, e.id = id → e.status = .reversed →
      (update e).status = .reversed)
    (hbal : ∀ e ∈ j.entries, e.id = id → (update e).booked →
      2 ≤ e.lines.length ∧ Balanced e.lines) :
    InOrder ⟨(j.updateEntry id update).entries, next⟩ := by
  have hcol : ∀ {α : Type} (f : JournalEntryRow → α), (∀ e e', Keeps e e' → f e' = f e) →
      (j.updateEntry id update).entries.map f = j.entries.map f := by
    intro α f hf
    simp only [Journal.updateEntry, List.map_map]
    refine List.map_congr_left fun e he => ?_
    simp only [Function.comp_apply]
    split_ifs with hid
    · exact hf _ _ (hkeep e he hid)
    · rfl
  refine ⟨?_, hnext, hnum, ?_, ?_, ?_⟩
  · rw [hcol _ fun e e' hk => hk.id, h.ids]
    simp [Journal.updateEntry]
  · intro e' he' hb
    obtain ⟨e, he, rfl⟩ := Journal.mem_updateEntry.1 he'
    split_ifs at hb ⊢ with hid
    · rw [(hkeep e he hid).lines]
      exact hbal e he hid hb
    · exact h.balanced e he hb
  · have hmap := congrArg (List.filterMap fun r => r)
      (hcol (·.reversesEntryId) fun e e' hk => hk.reverses)
    rw [List.filterMap_map, List.filterMap_map] at hmap
    exact (congrArg List.Nodup hmap).mpr h.one_reversal
  · intro r' hr' n hn
    obtain ⟨r, hr, rfl⟩ := Journal.mem_updateEntry.1 hr'
    have hk : Keeps r (if r.id = id then update r else r) := by
      split_ifs with hid
      · exact hkeep r hr hid
      · exact .refl r
    rw [hk.reverses] at hn
    obtain ⟨e, he, hid, hst, hnone, hlines⟩ := h.original r hr n hn
    refine ⟨_, Journal.mem_updateEntry.2 ⟨e, he, rfl⟩, ?_⟩
    have hk' : Keeps e (if e.id = id then update e else e) := by
      split_ifs with hid'
      · exact hkeep e he hid'
      · exact .refl e
    refine ⟨hk'.id.trans hid, ?_, hk'.reverses.trans hnone, ?_⟩
    · split_ifs with hid'
      · exact hreversed e he hid' hst
      · exact hst
    · rw [hk.lines, hk'.lines, hlines]

end Writes

section Reads

variable {setup : Setup} {j : Journal} {stage next : TxStage} {book : BookId}
  {write : NumberedWrite}

theorem ofRead_eq_goTo {x : Result (Option TxStage)} :
    TxOutcome.ofRead x = .goTo next ↔ x = .ok (some next) := by
  rcases x with e | _ | stage <;> simp [TxOutcome.ofRead]

theorem ofRead_ne_lock {x : Result (Option TxStage)} : TxOutcome.ofRead x ≠ .lock book write := by
  rcases x with e | _ | stage <;> simp [TxOutcome.ofRead]

theorem ofRead_ne_commit {x : Result (Option TxStage)} : TxOutcome.ofRead x ≠ .commit j := by
  rcases x with e | _ | stage <;> simp [TxOutcome.ofRead]

variable {x : Result (BookId × NumberedWrite)}

theorem ofCheck_eq_lock :
    TxOutcome.ofCheck x = .lock book write ↔ x = .ok (book, write) := by
  rcases x with e | ⟨b, w⟩ <;> simp [TxOutcome.ofCheck]

theorem ofCheck_ne_goTo :
    TxOutcome.ofCheck x ≠ .goTo next := by
  rcases x with e | ⟨b, w⟩ <;> simp [TxOutcome.ofCheck]

theorem ofCheck_ne_commit :
    TxOutcome.ofCheck x ≠ .commit j := by
  rcases x with e | ⟨b, w⟩ <;> simp [TxOutcome.ofCheck]

theorem loadReversible_eq_ok {id : EntryId} {original : JournalEntryRow}
    (h : loadReversible j id = .ok original) :
    original ∈ j.entries ∧ original.reversesEntryId = none := by
  simp only [loadReversible, Except.bind_eq_ok, Except.require_eq_ok, Except.pure_eq_ok,
    exists_const] at h
  obtain ⟨e, he, -, hrev, rfl⟩ := h
  exact ⟨(loadEntry_eq_ok he).1, hrev⟩

theorem begun_current {s : JournalSessions} {tx : TxId} {call : JournalCall}
    (h : begun setup s.journal call = .ok (some next)) : next.Current s tx := by
  cases call with
  | createDraft input =>
    simp only [begun, Except.bind_eq_ok, Except.pure_eq_ok, Option.some.injEq] at h
    obtain ⟨value, -, p, -, rfl⟩ := h
    trivial
  | postDraft input =>
    simp only [begun, Except.bind_eq_ok, Except.pure_eq_ok, Option.some.injEq] at h
    obtain ⟨draft, hload, rfl⟩ := h
    exact stored_of_mem (loadEntry_eq_ok (loadDraft_eq_ok.1 hload).1).1
  | voidDraft input =>
    simp only [begun, Except.bind_eq_ok, Except.require_eq_ok, exists_const] at h
    obtain ⟨-, before, -, h⟩ := h
    split_ifs at h
    · simp [Except.pure_eq_ok] at h
    · simp only [Except.bind_eq_ok, Except.require_eq_ok, Except.pure_eq_ok, exists_const,
        Option.some.injEq] at h
      obtain ⟨-, rfl⟩ := h
      trivial
  | postEntry input =>
    simp only [begun, Except.bind_eq_ok] at h
    obtain ⟨value, -, h⟩ := h
    split at h <;> simp only [Except.pure_eq_ok, reduceCtorEq, Option.some.injEq] at h
    subst h
    trivial
  | reverseEntry input =>
    simp only [begun, Except.bind_eq_ok, Except.require_eq_ok, Except.pure_eq_ok, exists_const,
      Option.some.injEq] at h
    obtain ⟨-, original, hload, rfl⟩ := h
    obtain ⟨hmem, hrev⟩ := loadReversible_eq_ok hload
    exact ⟨stored_of_mem hmem, hrev⟩

theorem NumberedWrite.commit_ends (j : Journal) (n : ℕ) (write : NumberedWrite) :
    (∃ j', write.commit j n = .commit j') ∨ write.commit j n = .finish := by
  cases write <;> simp only [NumberedWrite.commit] <;> split_ifs <;> simp

theorem proceed_goTo {s : JournalSessions} {tx : TxId} (hcur : stage.Current s tx)
    (h : proceed setup s.journal stage = .goTo next) :
    next.Current s tx ∧ ∀ b n w, stage ≠ .numbered b n w := by
  cases stage with
  | idle =>
    cases h
    exact ⟨trivial, by simp⟩
  | requested call => exact ⟨begun_current (ofRead_eq_goTo.1 h), by simp⟩
  | drafting value p =>
    simp only [proceed] at h
    split_ifs at h
  | posting value => exact absurd h ofCheck_ne_goTo
  | confirming draft allow => exact absurd h ofCheck_ne_goTo
  | voiding before =>
    simp only [proceed] at h
    split_ifs at h
  | reversing original input =>
    simp only [proceed] at h
    split at h <;> cases h
    exact ⟨hcur, by simp⟩
  | correcting original input => exact absurd h ofCheck_ne_goTo
  | numbered b n w =>
    rcases w.commit_ends s.journal n with ⟨j', h'⟩ | h' <;>
      rw [proceed, h'] at h <;> cases h
  | finished => cases h

theorem proceed_lock {s : JournalSessions} {tx : TxId} (hcur : stage.Current s tx)
    (h : proceed setup s.journal stage = .lock book write) :
    write.Ready s.journal book ∧ ∀ b n w, stage ≠ .numbered b n w := by
  cases stage with
  | idle => cases h
  | requested call => exact absurd h ofRead_ne_lock
  | drafting value p =>
    simp only [proceed] at h
    split_ifs at h
  | posting value =>
    have h := ofCheck_eq_lock.1 h
    simp only [checkedPost, Except.bind_eq_ok, prepareEntry_eq_ok, Except.pure_eq_ok,
      Prod.mk.injEq] at h
    obtain ⟨p, hp, rfl, rfl⟩ := h
    exact ⟨⟨rfl, hp.two, hp.balanced⟩, by simp⟩
  | confirming draft allow =>
    have h := ofCheck_eq_lock.1 h
    simp only [checkedConfirm, preparePosting, Except.bind_eq_ok, assertBalanced_eq_ok,
      Except.pure_eq_ok, Prod.mk.injEq] at h
    obtain ⟨p, ⟨_, -, -, hbal, -⟩, rfl, rfl⟩ := h
    exact ⟨⟨hcur, rfl, hbal⟩, by simp⟩
  | voiding before =>
    simp only [proceed] at h
    split_ifs at h
  | reversing original input =>
    simp only [proceed] at h
    split at h <;> cases h
  | correcting original input =>
    have h := ofCheck_eq_lock.1 h
    simp only [checkedReverse, Except.bind_eq_ok, prepareReversal_eq_ok, Except.pure_eq_ok,
      Prod.mk.injEq] at h
    obtain ⟨p, hp, rfl, rfl⟩ := h
    obtain rfl := hp.original_eq
    exact ⟨⟨hcur.1, rfl, hcur.2⟩, by simp⟩
  | numbered b n w =>
    rcases w.commit_ends s.journal n with ⟨j', h'⟩ | h' <;>
      rw [proceed, h'] at h <;> cases h
  | finished => cases h

theorem proceed_commit {j' : Journal} (h : proceed setup j stage = .commit j') :
    (∃ value p, stage = .drafting value p ∧ j' = j.appendDraft (draftRow j value p)) ∨
    (∃ before, stage = .voiding before ∧ storedStatus j before.id = some .draft ∧
      j' = j.stampVoid before.id) ∨
    ∃ b n w, stage = .numbered b n w ∧ w.commit j n = .commit j' := by
  cases stage with
  | idle => cases h
  | finished => cases h
  | requested call => exact absurd h ofRead_ne_commit
  | drafting value p =>
    simp only [proceed] at h
    split_ifs at h
    cases h
    exact .inl ⟨value, p, rfl, rfl⟩
  | posting value => exact absurd h ofCheck_ne_commit
  | confirming draft allow => exact absurd h ofCheck_ne_commit
  | voiding before =>
    simp only [proceed] at h
    split_ifs at h with hst
    cases h
    exact .inr (.inl ⟨before, rfl, hst, rfl⟩)
  | reversing original input =>
    simp only [proceed] at h
    split at h <;> cases h
  | correcting original input => exact absurd h ofCheck_ne_commit
  | numbered b n w => exact .inr (.inr ⟨b, n, w, rfl, h⟩)

end Reads

section Commits

variable {j j' : Journal} {row e : JournalEntryRow} {id : EntryId} {book : BookId}

theorem inLineOrder_perm (lines : List JournalLineRow) : (inLineOrder lines).Perm lines :=
  List.perm_insertionSort _ _

theorem Balanced.perm {lines lines' : List JournalLineRow} (h : lines.Perm lines')
    (hb : Balanced lines) : Balanced lines' := by
  have htotal : ∀ (currency : JournalLineRow → String) (amount : JournalLineRow → Money) c,
      totalIn currency amount lines' c = totalIn currency amount lines c := fun _ _ _ =>
    (((h.filter _).map _).sum_eq).symm
  exact ⟨fun c => (htotal _ _ c).trans (hb.1 c), fun c => (htotal _ _ c).trans (hb.2 c)⟩

theorem Balanced.negate {lines : List JournalLineRow} (hb : Balanced lines) :
    Balanced (lines.map negateLine) := by
  constructor <;> intro c
  · have hneg := congrArg Neg.neg (hb.1 c)
    simp only [totalIn, List.filter_map, List.map_map, Function.comp_def, negateLine,
      negateDecimal, List.sum_neg, neg_zero] at hneg ⊢
    exact hneg
  · have hneg := congrArg Neg.neg (hb.2 c)
    simp only [totalIn, List.filter_map, List.map_map, Function.comp_def, negateLine,
      negateDecimal, List.sum_neg, neg_zero] at hneg ⊢
    exact hneg

theorem storedStatus_eq {status : EntryStatus} (h : InOrder j)
    (hst : storedStatus j id = some status) (he : e ∈ j.entries) (hid : e.id = id)
    : e.status = status := by
  simp only [storedStatus, Option.map_eq_some_iff] at hst
  obtain ⟨found, hfound, rfl⟩ := hst
  have hf : found.id = id := by simpa using List.find?_some hfound
  rw [h.eq_of_id he (List.mem_of_find?_eq_some hfound) (hid.trans hf.symm)]

theorem range_take {b : BookId} (h : 1 ≤ j.nextEntryNumber book) :
    ((List.range' 1 ((if b = book then j.nextEntryNumber b + 1 else j.nextEntryNumber b) - 1)).map
        some : List (Option ℕ)) =
      (List.range' 1 (j.nextEntryNumber b - 1)).map some ++
        if book = b then [some (j.nextEntryNumber book)] else [] := by
  by_cases hb : book = b
  · subst hb
    rw [if_pos rfl, if_pos rfl]
    obtain ⟨n, hn⟩ := Nat.exists_eq_add_of_le h
    rw [hn, show 1 + n + 1 - 1 = n + 1 by omega, show 1 + n - 1 = n by omega,
      List.range'_concat, List.map_append]
    simp
  · rw [if_neg hb, if_neg (Ne.symm hb), List.append_nil]

structure Commits (j j' : Journal) (locked : BookId → Prop) : Prop where
  inOrder : InOrder j'
  extend : Extends j j'
  counters : ∀ b, ¬ locked b → j'.nextEntryNumber b = j.nextEntryNumber b

theorem commits_draft {value : CreateDraftInput} {p : PreparedDraft} (h : InOrder j)
    (locked : BookId → Prop) : Commits j (j.appendDraft (draftRow j value p)) locked where
  inOrder := by
    refine h.append rfl h.counter (fun b => ?_) (by simp [draftRow, JournalEntryRow.booked])
      (by simp [draftRow])
    simp [postedNumbers, draftRow, JournalEntryRow.booked]
  extend := extends_append
  counters _ _ := rfl

theorem commits_void (h : InOrder j) (hst : storedStatus j id = some .draft)
    (locked : BookId → Prop) : Commits j (j.stampVoid id) locked := by
  have hdraft : ∀ e ∈ j.entries, e.id = id → e.status = .draft := fun e he hid =>
    storedStatus_eq h hst he hid
  have hkeep : ∀ e ∈ j.entries, e.id = id → Keeps e (Journal.voided e) := fun e he hid =>
    ⟨rfl, rfl, rfl, rfl, by simp [JournalEntryRow.booked, hdraft e he hid]⟩
  refine ⟨h.updateEntry h.counter (fun b => ?_) hkeep ?_ ?_, extends_update _ hkeep, fun _ _ => rfl⟩
  · have hsame : postedNumbers b (j.updateEntry id Journal.voided).entries =
        postedNumbers b j.entries := by
      refine postedNumbers_map fun e he => ?_
      split_ifs with hid
      · refine ⟨rfl, ?_, rfl⟩
        simp only [JournalEntryRow.booked, Journal.voided, hdraft e he hid]
        rfl
      · exact ⟨rfl, rfl, rfl⟩
    rw [hsame]
    exact h.numbers b
  · intro e he hid hrev
    rw [hdraft e he hid] at hrev
    cases hrev
  · simp [JournalEntryRow.booked, Journal.voided]

variable {n : ℕ}

theorem commits_post {value : PostEntryInput} {p : PreparedEntry} (h : InOrder j)
    (hbook : p.book.id = book) (hn : j.nextEntryNumber book = n) (h2 : 2 ≤ p.lines.length)
    (hbal : Balanced p.lines) : Commits j
      (j.appendPosted { postedRow j value p with entryNumber := some n }) (· = book) where
  inOrder := by
    subst hbook hn
    refine h.append rfl (fun b => ?_) (fun b => ?_) (fun _ => ?_) (by simp [postedRow])
    · simp only []
      split_ifs
      · omega
      · exact h.counter b
    · simp only []
      rw [show (postedRow j value p).accountingBookId = p.book.id from rfl,
        range_take (h.counter _)]
      congr 1
      simp only [postedNumbers, List.filter_cons, JournalEntryRow.booked, postedRow]
      split_ifs <;> simp_all
    · exact ⟨h2.trans_eq (inLineOrder_perm p.lines).length_eq.symm,
        hbal.perm (inLineOrder_perm p.lines).symm⟩
  extend := extends_append
  counters b hb := by
    simp only [Journal.appendPosted, postedRow, hbook]
    exact if_neg hb

theorem commits_confirm {draft : JournalEntryRow} {p : PreparedPosting} (h : InOrder j)
    (hstored : Stored j draft) (hst : storedStatus j draft.id = some .draft)
    (hbook : draft.accountingBookId = book) (hn : j.nextEntryNumber book = n)
    (h2 : 2 ≤ draft.lines.length) (hbal : Balanced draft.lines) :
    Commits j (j.markPosted draft n p) (· = book) := by
  obtain ⟨d, hd, hk⟩ := hstored
  subst hbook hn
  have hdraft : d.status = .draft := storedStatus_eq h hst hd hk.id
  have honly : ∀ e ∈ j.entries, e.id = draft.id → e = d := fun e he hid =>
    h.eq_of_id he hd (hid.trans hk.id.symm)
  have hkeep : ∀ e ∈ j.entries, e.id = draft.id →
      Keeps e (postedFrom (j.nextEntryNumber draft.accountingBookId) p e) := fun e _ _ =>
    ⟨rfl, rfl, rfl, rfl, fun _ => rfl⟩
  refine ⟨h.updateEntry (fun b => ?_) (fun b => ?_) hkeep ?_ ?_, extends_update _ hkeep, ?_⟩
  · split_ifs
    · omega
    · exact h.counter b
  · rw [range_take (h.counter _), Journal.updateEntry, ← hk.id]
    have hperm := postedNumbers_confirm b
      (postedFrom (j.nextEntryNumber draft.accountingBookId) p) h.nodup hd
      (by simp [JournalEntryRow.booked, hdraft]) rfl rfl
    rw [hk.book] at hperm
    exact hperm.trans ((h.numbers b).append_right _)
  · intro e he hid hrev
    rw [honly e he hid, hdraft] at hrev
    cases hrev
  · intro e he hid _
    rw [honly e he hid, hk.lines]
    exact ⟨h2, hbal⟩
  · intro b hb
    exact if_neg hb

def reversedFrom (e : JournalEntryRow) : JournalEntryRow := { e with status := .reversed }

theorem stampReversed_append (hne : row.id ≠ id) :
    (j.appendPosted row).stampReversed id =
      ⟨(j.updateEntry id reversedFrom).entries ++ [row],
        (j.appendPosted row).nextEntryNumber⟩ := by
  simp only [Journal.stampReversed, Journal.appendPosted, Journal.updateEntry, reversedFrom,
    List.map_append, List.map_cons, List.map_nil, if_neg hne]

theorem commits_reverse {p : PreparedReversal} {date : CalendarDate} {reason : String}
    (h : InOrder j) (hstored : Stored j p.original)
    (hst : storedStatus j p.original.id = some .posted) (hbook : p.original.accountingBookId = book)
    (hn : j.nextEntryNumber book = n) (hnone : p.original.reversesEntryId = none) :
    Commits j ((j.appendPosted { reversalRow j p date reason with
      entryNumber := some n }).stampReversed p.original.id) (· = book) := by
  obtain ⟨o, ho, hk⟩ := hstored
  subst hbook hn
  have hposted : o.status = .posted := storedStatus_eq h hst ho hk.id
  have hbooked : o.booked = true := booked_iff.2 (.inl hposted)
  have honly : ∀ e ∈ j.entries, e.id = p.original.id → e = o := fun e he hid =>
    h.eq_of_id he ho (hid.trans hk.id.symm)
  have hkeep : ∀ e ∈ j.entries, e.id = p.original.id → Keeps e (reversedFrom e) := fun e _ _ =>
    ⟨rfl, rfl, rfl, rfl, fun _ => rfl⟩
  -- no committed row reverses the original: it would carry the stamp already
  have hfirst : ∀ r ∈ j.entries, r.reversesEntryId ≠ some p.original.id := by
    intro r hr hrid
    obtain ⟨e, he, hid, hrev, -⟩ := h.original r hr _ hrid
    rw [honly e he hid, hposted] at hrev
    cases hrev
  have hnum : ∀ b, postedNumbers b (j.updateEntry p.original.id reversedFrom).entries =
      postedNumbers b j.entries := fun b => postedNumbers_map fun e he => by
    split_ifs with hid
    · rw [honly e he hid]
      exact ⟨rfl, hbooked.symm, rfl⟩
    · exact ⟨rfl, rfl, rfl⟩
  have hstamped : InOrder ⟨(j.updateEntry p.original.id reversedFrom).entries,
      j.nextEntryNumber⟩ := by
    refine h.updateEntry h.counter (fun b => ?_) hkeep (fun _ _ _ _ => rfl) ?_
    · rw [hnum]
      exact h.numbers b
    · intro e he hid _
      rw [honly e he hid]
      exact h.balanced o ho hbooked
  have hlt : p.original.id < j.entries.length := hk.id ▸ h.id_lt ho
  rw [stampReversed_append (Nat.ne_of_gt hlt)]
  refine ⟨hstamped.append ?_ (fun b => ?_) (fun b => ?_) (fun _ => ?_) ?_, ?_, ?_⟩
  · simp [Journal.updateEntry, reversalRow]
  · simp only [Journal.appendPosted]
    split_ifs
    · omega
    · exact h.counter b
  · simp only [Journal.appendPosted]
    rw [show (reversalRow j p date reason).accountingBookId = p.original.accountingBookId from rfl,
      range_take (h.counter _)]
    congr 1
    simp only [postedNumbers, List.filter_cons, JournalEntryRow.booked, reversalRow]
    split_ifs <;> simp_all
  · obtain ⟨h2, hbal⟩ := h.balanced o ho hbooked
    simp only [reversalRow, List.length_map, ← hk.lines]
    exact ⟨h2, hbal.negate⟩
  · intro id hid
    obtain rfl : p.original.id = id := by simpa [reversalRow] using hid
    refine ⟨?_, reversedFrom o, Journal.mem_updateEntry.2 ⟨o, ho, if_pos hk.id⟩, hk.id, rfl,
      hk.reverses.trans hnone, ?_⟩
    · intro r' hr'
      obtain ⟨r, hr, rfl⟩ := Journal.mem_updateEntry.1 hr'
      split_ifs
      · exact hfirst r hr
      · exact hfirst r hr
    · simp only [reversalRow, reversedFrom, hk.lines]
  · intro e he
    exact (extends_update j.nextEntryNumber hkeep e he).mono extends_append
  · intro b hb
    exact if_neg hb

theorem NumberedWrite.commits {write : NumberedWrite} (h : InOrder j)
    (hn : j.nextEntryNumber book = n) (hready : write.Ready j book)
    (hw : write.commit j n = .commit j') : Commits j j' (· = book) := by
  cases write with
  | post value p =>
    simp only [NumberedWrite.commit] at hw
    split_ifs at hw
    cases hw
    exact commits_post h hready.1 hn hready.2.1 hready.2.2
  | confirm draft p =>
    simp only [NumberedWrite.commit] at hw
    split_ifs at hw with hst
    cases hw
    obtain ⟨hstored, hbook, h2, hbal⟩ := hready
    exact commits_confirm h hstored hst hbook hn h2 hbal
  | reverse p date reason =>
    simp only [NumberedWrite.commit] at hw
    split_ifs at hw with hst
    cases hw
    obtain ⟨hstored, hbook, hnone⟩ := hready
    exact commits_reverse h hstored hst.2 hbook hn hnone

theorem proceed_commits {setup : Setup} {s : JournalSessions} {tx : TxId} (hv : Valid s)
    (h : proceed setup s.journal (s.stage tx) = .commit j') :
    Commits s.journal j' fun b => s.holder b = some tx := by
  have hcur := hv.current tx
  rcases proceed_commit h with ⟨value, p, -, rfl⟩ | ⟨before, -, hst, rfl⟩ |
    ⟨b, n, w, hstage, hw⟩
  · exact commits_draft hv.journal _
  · exact commits_void hv.journal hst _
  · rw [hstage] at hcur
    obtain ⟨hheld, hn, hready⟩ := hcur
    obtain ⟨hin, hext, hcnt⟩ := w.commits hv.journal hn hready hw
    exact ⟨hin, hext, fun b' hb' => hcnt b' fun heq => hb' (heq ▸ hheld)⟩

end Commits

section Step

variable {setup : Setup} {s s' : JournalSessions} {tx t : TxId} {stage : TxStage}

theorem NumberedWrite.Ready.mono {j j' : Journal} {book : BookId} {write : NumberedWrite}
    (hext : Extends j j') (h : write.Ready j book) : write.Ready j' book := by
  cases write with
  | post value p => exact h
  | confirm draft p => exact ⟨h.1.mono hext, h.2⟩
  | reverse p date reason => exact ⟨h.1.mono hext, h.2⟩

theorem TxStage.Current.mono (hext : Extends s.journal s'.journal)
    (hheld : ∀ b, s.holder b = some tx → s'.holder b = some tx ∧
      s'.journal.nextEntryNumber b = s.journal.nextEntryNumber b)
    (h : stage.Current s tx) : stage.Current s' tx := by
  cases stage with
  | confirming draft allow => exact Stored.mono hext h
  | reversing original input => exact ⟨h.1.mono hext, h.2⟩
  | correcting original input => exact ⟨h.1.mono hext, h.2⟩
  | numbered b n w =>
    obtain ⟨hb, hn, hready⟩ := h
    obtain ⟨hb', hn'⟩ := hheld b hb
    exact ⟨hb', hn'.trans hn, hready.mono hext⟩
  | _ => trivial

theorem extends_refl (j : Journal) : Extends j j := fun _ he => stored_of_mem he

theorem Valid.setStage (hv : Valid s) (hcur : stage.Current s tx)
    (hfree : ∀ b n w, s.stage tx ≠ .numbered b n w) : Valid (s.setStage tx stage) where
  journal := hv.journal
  current t := by
    have hsame : ∀ {st : TxStage}, st.Current s t → st.Current (s.setStage tx stage) t :=
      fun h => h.mono (extends_refl s.journal) fun b hb => ⟨hb, rfl⟩
    by_cases ht : t = tx
    · subst ht
      simpa [JournalSessions.setStage] using hsame hcur
    · simpa [JournalSessions.setStage, ht] using hsame (hv.current t)
  held b t ht := by
    obtain ⟨n, w, hst⟩ := hv.held b t ht
    refine ⟨n, w, ?_⟩
    simp only [JournalSessions.setStage]
    rw [if_neg, hst]
    rintro rfl
    exact hfree b n w hst

theorem Valid.finish {j' : Journal} (hv : Valid s)
    (h : Commits s.journal j' fun b => s.holder b = some tx) :
    Valid { s.finish tx with journal := j' } where
  journal := h.inOrder
  current t := by
    simp only [JournalSessions.finish]
    split_ifs with ht
    · trivial
    · refine (hv.current t).mono h.extend fun b hb => ?_
      have hne : s.holder b ≠ some tx := by
        rw [hb, ne_eq, Option.some.injEq]
        exact ht
      exact ⟨(if_neg hne).trans hb, h.counters b hne⟩
  held b t ht := by
    simp only [JournalSessions.finish] at ht ⊢
    split_ifs at ht with hb
    obtain ⟨n, w, hst⟩ := hv.held b t ht
    refine ⟨n, w, ?_⟩
    rw [if_neg, hst]
    rintro rfl
    exact hb ht

theorem Valid.finish_unchanged (hv : Valid s) (tx : TxId) : Valid (s.finish tx) :=
  hv.finish ⟨hv.journal, extends_refl _, fun _ _ => rfl⟩

theorem Valid.lock {book : BookId} {write : NumberedWrite} (hv : Valid s)
    (hready : write.Ready s.journal book) (hfree : ∀ b n w, s.stage tx ≠ .numbered b n w) :
    Valid (s.lock tx book write) := by
  unfold JournalSessions.lock
  split
  · exact hv
  · rename_i hnone
    refine ⟨hv.journal, fun t => ?_, fun b t ht => ?_⟩
    · simp only [JournalSessions.setStage]
      split_ifs with ht
      · exact ⟨if_pos rfl |>.trans (ht ▸ rfl), rfl, hready⟩
      · refine TxStage.Current.mono (s := s) (extends_refl s.journal) (fun b hb => ⟨?_, rfl⟩)
          (hv.current t)
        rw [← hb]
        refine if_neg ?_
        rintro rfl
        rw [hnone] at hb
        cases hb
    · simp only [JournalSessions.setStage] at ht ⊢
      split_ifs at ht with hb
      · cases ht
        subst hb
        exact ⟨_, _, if_pos rfl⟩
      · obtain ⟨n, w, hst⟩ := hv.held b t ht
        refine ⟨n, w, ?_⟩
        rw [if_neg, hst]
        rintro rfl
        exact hfree b n w hst

theorem Valid.step (hv : Valid s) (action : JournalAction) : Valid (s.step setup action) := by
  cases action with
  | begin tx call =>
    simp only [JournalSessions.step]
    split
    · rename_i hidle
      exact hv.setStage trivial (by simp [hidle])
    · exact hv
  | proceed tx =>
    simp only [JournalSessions.step]
    cases h : proceed setup s.journal (s.stage tx) with
    | goTo stage =>
      obtain ⟨hcur, hfree⟩ := proceed_goTo (hv.current tx) h
      exact hv.setStage hcur hfree
    | lock book write =>
      obtain ⟨hready, hfree⟩ := proceed_lock (hv.current tx) h
      exact hv.lock hready hfree
    | commit journal => exact hv.finish (proceed_commits hv h)
    | finish => exact hv.finish_unchanged tx
  | abort tx =>
    simp only [JournalSessions.step]
    split
    · exact hv
    · exact hv.finish_unchanged tx

theorem valid_initial : Valid JournalSessions.initial where
  journal := by
    constructor <;> simp [JournalSessions.initial, Ledger.empty, postedNumbers]
  current _ := trivial
  held _ _ h := by cases h

end Step

theorem InOrder.journalSound {j : Journal} (h : InOrder j) : JournalSound j where
  numbers b := ⟨_, h.numbers b⟩
  balanced := h.balanced
  one_reversal r hr r' hr' hsome heq := by
    obtain ⟨id, hid⟩ := Option.isSome_iff_exists.1 hsome
    exact eq_of_nodup_filterMap h.one_reversal hr hr' hid (heq ▸ hid)
  not_reversed r hr r' hr' hsome hrev := by
    obtain ⟨e, he, hid, -, hnone, -⟩ := h.original r' hr' _ hrev
    rw [h.eq_of_id he hr hid] at hnone
    rw [hnone] at hsome
    cases hsome
  negates r hr e he hrev := by
    obtain ⟨o, ho, hid, -, -, hlines⟩ := h.original r hr _ hrev
    rw [hlines, h.eq_of_id ho he hid]
  nets r hr e he hrev account := by
    obtain ⟨o, ho, hid, -, -, hlines⟩ := h.original r hr _ hrev
    rw [hlines, h.eq_of_id ho he hid, accountNet_negateLine, add_neg_cancel]

/-- Whatever the calls, their interleaving and their aborts, the journal is in order in every
state the run passes. -/
theorem journal_sound (setup : Setup) (actions : List JournalAction) :
    Runs.Along (JournalSessions.step setup) (fun s => JournalSound s.journal)
      JournalSessions.initial actions :=
  have hvalid : Runs.Along (JournalSessions.step setup) Valid JournalSessions.initial actions :=
    Runs.along_of_step (fun _ action hv => hv.step action) valid_initial
  hvalid.mono fun _ hv => hv.journal.journalSound

end Loxep

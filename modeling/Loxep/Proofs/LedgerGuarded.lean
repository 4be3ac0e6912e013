import Loxep.LedgerGuard
import Loxep.Lib.Runs
import Mathlib.Data.List.Dedup

/-!
# What the ledger's guard keeps

The trigger on lines and the deferred check look an updated line up by the entry it moves to. So a
line can leave a posted entry for a draft, and nothing looks at the entry it left.
-/

namespace Loxep

def LedgerTables.posted (t : LedgerTables) (id : EntryId) : Bool :=
  t.entries.any fun e => e.id == id && e.isPosted

/-- At least one line, and nothing over in any currency. -/
structure LinesBalanced (lines : List StoredLine) : Prop where
  some_line : lines ≠ []
  per_currency : ∀ currency, ((lines.filter (·.currency == currency)).map (·.amount)).sum = 0
  functional : ∀ currency,
    ((lines.filter (·.functionalCurrency == currency)).map (·.functionalAmount)).sum = 0

/-- The committed tables, and all those the committed statements have passed, the oldest first. -/
structure LedgerHistory where
  passed : List LedgerTables
  current : LedgerTables

namespace LedgerHistory

def start : LedgerHistory := ⟨[.empty], .empty⟩

variable (h : LedgerHistory)

def step (transaction : LedgerTransaction) : LedgerHistory :=
  match runTransaction transaction.periods h.current transaction.statements with
  | .ok passed => ⟨h.passed ++ passed, passed.getLastD h.current⟩
  | .error _ => h

def linesWhenPosted (id : EntryId) : Option (List StoredLine) :=
  (h.passed.find? (·.posted id)).map (·.linesOf id)

/-- Every posted entry balances, with the lines it had when it was posted. -/
structure Intact : Prop where
  balanced : ∀ e ∈ h.current.entries, e.isPosted = true → LinesBalanced (h.current.linesOf e.id)
  kept : ∀ e ∈ h.current.entries, e.isPosted = true →
    h.linesWhenPosted e.id = some (h.current.linesOf e.id)

end LedgerHistory

def LedgerTables.leavesPosted (t : LedgerTables) : RowStatement → Bool
  | .updateLine id new => (t.findLine id).all fun old =>
      !t.posted old.journalEntryId || new.journalEntryId == old.journalEntryId
  | _ => true

def allLeavePosted (periods : List FiscalPeriodRow) : LedgerTables → List RowStatement → Bool
  | _, [] => true
  | t, statement :: rest => t.leavesPosted statement &&
      match execute periods t statement with
      | .ok (t', _) => allLeavePosted periods t' rest
      | .error _ => true

def LedgerHistory.LeavesPosted (h : LedgerHistory) (transaction : LedgerTransaction) : Prop :=
  Except.returns (runTransaction transaction.periods h.current transaction.statements) = true →
    allLeavePosted transaction.periods h.current transaction.statements = true

instance (h : LedgerHistory) (transaction : LedgerTransaction) :
    Decidable (h.LeavesPosted transaction) :=
  inferInstanceAs (Decidable (_ → _))

section Statement

variable {periods : List FiscalPeriodRow} {t t' u : LedgerTables} {statement : RowStatement}
  {fired : List EntryId}

structure Keyed (t : LedgerTables) : Prop where
  entry_ids : (t.entries.map (·.id)).Nodup
  line_ids : (t.lines.map (·.id)).Nodup

def Writable (t : LedgerTables) (id : EntryId) : Prop :=
  ∀ e, t.findEntry id = some e → e.status = .draft

/-- What a statement does that the triggers and the constraints let through. -/
inductive Effect (t : LedgerTables) : RowStatement → LedgerTables → List EntryId → Prop
  | insertEntry {new : StoredEntry} :
      Effect t (.insertEntry new) { t with entries := t.entries ++ [new] } [new.id]
  | updateEntry {id : EntryId} {new old : StoredEntry} (found : t.findEntry id = some old)
      (allowed : old.status = .draft ∨ isReversalStamp old new = true) :
      Effect t (.updateEntry id new)
        { t with entries := t.entries.map fun e => if e.id = id then new else e } [new.id]
  | deleteEntry {id : EntryId} {old : StoredEntry} (found : t.findEntry id = some old)
      (draft : old.status = .draft) : Effect t (.deleteEntry id)
        ⟨t.entries.filter (·.id != id), t.lines.filter (·.journalEntryId != id)⟩
        ((t.linesOf id).map (·.journalEntryId))
  | insertLine {new : StoredLine} (writable : Writable t new.journalEntryId) :
      Effect t (.insertLine new) { t with lines := t.lines ++ [new] } [new.journalEntryId]
  | updateLine {id : LineId} {new old : StoredLine} (found : t.findLine id = some old)
      (writable : Writable t new.journalEntryId) : Effect t (.updateLine id new)
        { t with lines := t.lines.map fun l => if l.id = id then new else l }
        [new.journalEntryId]
  | deleteLine {id : LineId} {old : StoredLine} (found : t.findLine id = some old)
      (writable : Writable t old.journalEntryId) : Effect t (.deleteLine id)
        { t with lines := t.lines.filter (·.id != id) } [old.journalEntryId]
  | missing {statement : RowStatement}
      (missing : ∀ id new, statement = .updateLine id new → t.findLine id = none) :
      Effect t statement t []

theorem checkTables_eq_ok (h : checkTables t = .ok t') : t' = t ∧ Keyed t := by
  simp only [checkTables, Except.bind_eq_ok, Except.require_eq_ok, Except.pure_eq_ok,
    exists_const] at h
  obtain ⟨hentries, hlines, -, -, -, -, -, rfl⟩ := h
  exact ⟨rfl, hentries, hlines⟩

variable {op : String} {new : StoredEntry} {id' : EntryId}

theorem journalLinesImmutable_eq_ok {target : EntryId} {u : Unit}
    (h : journalLinesImmutable t op target = .ok u) : Writable t target := by
  intro e he
  unfold journalLinesImmutable at h
  rw [he] at h
  exact Except.require_eq_ok.1 h

variable {old e : StoredEntry} {id : EntryId}

theorem journalEntriesImmutable_eq_ok {new : Option StoredEntry} {u : Unit}
    (h : journalEntriesImmutable op old new = .ok u) :
    old.status = .draft ∨ new.any (isReversalStamp old) = true :=
  Except.require_eq_ok.1 h

theorem execute_effect (hk : Keyed t) (h : execute periods t statement = .ok (t', fired)) :
    Effect t statement t' fired ∧ Keyed t' := by
  cases statement with
  | insertEntry new =>
    simp only [execute, Except.bind_eq_ok, Except.pure_eq_ok, Prod.mk.injEq] at h
    obtain ⟨_, -, _, -, _, hcheck, rfl, rfl⟩ := h
    obtain ⟨rfl, hkeyed⟩ := checkTables_eq_ok hcheck
    exact ⟨.insertEntry, hkeyed⟩
  | updateEntry id new =>
    cases hfound : t.findEntry id with
    | none =>
      simp only [execute, hfound, Except.ok.injEq, Prod.mk.injEq] at h
      obtain ⟨rfl, rfl⟩ := h
      exact ⟨.missing fun _ _ heq => RowStatement.noConfusion heq, hk⟩
    | some old =>
      simp only [execute, hfound, Except.bind_eq_ok, Except.pure_eq_ok, Prod.mk.injEq] at h
      obtain ⟨_, himm, _, -, _, -, _, hcheck, rfl, rfl⟩ := h
      obtain ⟨rfl, hkeyed⟩ := checkTables_eq_ok hcheck
      exact ⟨.updateEntry hfound (journalEntriesImmutable_eq_ok himm), hkeyed⟩
  | deleteEntry id =>
    cases hfound : t.findEntry id with
    | none =>
      simp only [execute, hfound, Except.ok.injEq, Prod.mk.injEq] at h
      obtain ⟨rfl, rfl⟩ := h
      exact ⟨.missing fun _ _ heq => RowStatement.noConfusion heq, hk⟩
    | some old =>
      simp only [execute, hfound, Except.bind_eq_ok, Except.pure_eq_ok, Prod.mk.injEq] at h
      obtain ⟨_, himm, _, -, _, hcheck, rfl, rfl⟩ := h
      obtain ⟨rfl, hkeyed⟩ := checkTables_eq_ok hcheck
      have hdraft := (journalEntriesImmutable_eq_ok himm).resolve_right (by simp)
      exact ⟨.deleteEntry hfound hdraft, hkeyed⟩
  | insertLine new =>
    simp only [execute, Except.bind_eq_ok, Except.pure_eq_ok, Prod.mk.injEq] at h
    obtain ⟨_, himm, _, -, _, hcheck, rfl, rfl⟩ := h
    obtain ⟨rfl, hkeyed⟩ := checkTables_eq_ok hcheck
    exact ⟨.insertLine (journalLinesImmutable_eq_ok himm), hkeyed⟩
  | updateLine id new =>
    cases hfound : t.findLine id with
    | none =>
      simp only [execute, hfound, Except.ok.injEq, Prod.mk.injEq] at h
      obtain ⟨rfl, rfl⟩ := h
      refine ⟨.missing fun id' new' heq => ?_, hk⟩
      cases heq
      exact hfound
    | some old =>
      simp only [execute, hfound, Except.bind_eq_ok, Except.pure_eq_ok, Prod.mk.injEq] at h
      obtain ⟨_, himm, _, -, _, hcheck, rfl, rfl⟩ := h
      obtain ⟨rfl, hkeyed⟩ := checkTables_eq_ok hcheck
      exact ⟨.updateLine hfound (journalLinesImmutable_eq_ok himm), hkeyed⟩
  | deleteLine id =>
    cases hfound : t.findLine id with
    | none =>
      simp only [execute, hfound, Except.ok.injEq, Prod.mk.injEq] at h
      obtain ⟨rfl, rfl⟩ := h
      exact ⟨.missing fun _ _ heq => RowStatement.noConfusion heq, hk⟩
    | some old =>
      simp only [execute, hfound, Except.bind_eq_ok, Except.pure_eq_ok, Prod.mk.injEq] at h
      obtain ⟨_, himm, _, hcheck, rfl, rfl⟩ := h
      obtain ⟨rfl, hkeyed⟩ := checkTables_eq_ok hcheck
      exact ⟨.deleteLine hfound (journalLinesImmutable_eq_ok himm), hkeyed⟩

theorem findEntry_id (h : t.findEntry id = some e) :
    e.id = id := by
  have hid := @List.find?_some _ (fun e : StoredEntry => e.id == id) _ _ h
  exact beq_iff_eq.1 hid

theorem findLine_id {id : LineId} {l : StoredLine} (h : t.findLine id = some l) : l.id = id := by
  have hid := @List.find?_some _ (fun l : StoredLine => l.id == id) _ _ h
  exact beq_iff_eq.1 hid

theorem mem_posted (hk : Keyed t) (hp : t.posted id = true) :
    ∃ e, t.findEntry id = some e ∧ e.isPosted = true := by
  obtain ⟨e, hmem, he⟩ := List.any_eq_true.1 hp
  rw [Bool.and_eq_true, beq_iff_eq] at he
  cases hfound : t.findEntry id with
  | none => exact absurd (beq_iff_eq.2 he.1) (List.find?_eq_none.1 hfound e hmem)
  | some first =>
    have hfirst : first = e := List.inj_on_of_nodup_map hk.entry_ids
      (List.mem_of_find?_eq_some hfound) hmem ((findEntry_id hfound).trans he.1.symm)
    exact ⟨first, rfl, hfirst ▸ he.2⟩

theorem posted_of_mem (he : e ∈ t.entries) (hp : e.isPosted = true) :
    t.posted e.id = true :=
  List.any_eq_true.2 ⟨e, he, by simp [hp]⟩

theorem not_draft_of_isPosted (hp : e.isPosted = true) : e.status ≠ .draft := by
  intro hdraft
  simp [StoredEntry.isPosted, hdraft] at hp

theorem Writable.not_posted (hk : Keyed t) (h : Writable t id) :
    t.posted id = false := by
  rw [← Bool.not_eq_true]
  intro hp
  obtain ⟨e, he, hpost⟩ := mem_posted hk hp
  exact not_draft_of_isPosted hpost (h e he)

def Shrinks (t t' : LedgerTables) : Prop :=
  ∀ id, t.posted id = true → t'.posted id = true ∧ (t'.linesOf id).Sublist (t.linesOf id)

theorem Shrinks.refl (t : LedgerTables) : Shrinks t t := fun _ hp => ⟨hp, .refl _⟩

theorem Shrinks.trans (h : Shrinks t u) (h' : Shrinks u t') : Shrinks t t' := by
  intro id hp
  obtain ⟨hpu, hsub⟩ := h id hp
  obtain ⟨hp', hsub'⟩ := h' id hpu
  exact ⟨hp', hsub'.trans hsub⟩

/-- The entries of `t` posted there have the same lines in `t'`. -/
def KeepsLines (t t' : LedgerTables) : Prop :=
  ∀ id, t.posted id = true → t'.linesOf id = t.linesOf id

theorem isReversalStamp_iff : isReversalStamp old new = true ↔
    old.status = .posted ∧ new.status = .reversed ∧
      { new with status := old.status, updatedAt := old.updatedAt } = old := by
  simp [isReversalStamp, and_assoc]

theorem posted_updated (hk : Keyed t) (found : t.findEntry id' = some old)
    (allowed : old.status = .draft ∨ isReversalStamp old new = true) (hp : t.posted id = true) :
    LedgerTables.posted { t with entries := t.entries.map fun e => if e.id = id' then new else e }
      id = true := by
  obtain ⟨e, he, hpost⟩ := mem_posted hk hp
  have hmem := List.mem_of_find?_eq_some he
  by_cases hid : id = id'
  · subst hid
    obtain rfl := Option.some.inj (found.symm.trans he)
    obtain ⟨-, hreversed, hsame⟩ := isReversalStamp_iff.1
      (allowed.resolve_left (not_draft_of_isPosted hpost))
    have hnew : new.id = id := (congrArg StoredEntry.id hsame).trans (findEntry_id he)
    refine List.any_eq_true.2 ⟨new, List.mem_map.2 ⟨old, hmem, if_pos (findEntry_id he)⟩, ?_⟩
    simp [hnew, StoredEntry.isPosted, hreversed]
  · have hother : e.id ≠ id' := fun h => hid ((findEntry_id he).symm.trans h)
    refine List.any_eq_true.2 ⟨e, List.mem_map.2 ⟨e, hmem, if_neg hother⟩, ?_⟩
    simp [findEntry_id he, hpost]

theorem posted_deleted (hk : Keyed t) {lines} (found : t.findEntry id' = some old)
    (draft : old.status = .draft) (hp : t.posted id = true) :
    id ≠ id' ∧ LedgerTables.posted ⟨t.entries.filter (·.id != id'), lines⟩ id = true := by
  obtain ⟨e, he, hpost⟩ := mem_posted hk hp
  have hid : id ≠ id' := by
    rintro rfl
    obtain rfl := Option.some.inj (found.symm.trans he)
    exact not_draft_of_isPosted hpost draft
  refine ⟨hid, List.any_eq_true.2 ⟨e, List.mem_filter.2 ⟨List.mem_of_find?_eq_some he, ?_⟩, ?_⟩⟩
  · simp [findEntry_id he, hid]
  · simp [findEntry_id he, hpost]

theorem linesOf_updated {lineId : LineId} {new : StoredLine} (hnew : new.journalEntryId ≠ id) :
    LedgerTables.linesOf { t with lines := t.lines.map fun l => if l.id = lineId then new else l }
      id = (t.linesOf id).filter (·.id != lineId) := by
  simp only [LedgerTables.linesOf]
  induction t.lines with
  | nil => rfl
  | cons l rest ih =>
    rw [List.map_cons, List.filter_cons, List.filter_cons, ih]
    by_cases hl : l.id = lineId <;> by_cases he : l.journalEntryId = id <;>
      simp [hl, he, hnew]

def linesLeft (lines : List StoredLine) : RowStatement → List StoredLine
  | .updateLine id _ => lines.filter (·.id != id)
  | _ => lines

theorem Effect.posted_lines (hk : Keyed t) (h : Effect t statement t' fired)
    (hp : t.posted id = true) :
    t'.posted id = true ∧ t'.linesOf id = linesLeft (t.linesOf id) statement := by
  cases h with
  | insertEntry =>
    refine ⟨?_, rfl⟩
    obtain ⟨e, he, hid⟩ := List.any_eq_true.1 hp
    exact List.any_eq_true.2 ⟨e, List.mem_append_left _ he, hid⟩
  | updateEntry found allowed => exact ⟨posted_updated hk found allowed hp, rfl⟩
  | @deleteEntry id' _ found draft =>
    obtain ⟨hid, hpost⟩ := posted_deleted hk found draft hp
    refine ⟨hpost, ?_⟩
    simp only [LedgerTables.linesOf, List.filter_filter, linesLeft]
    refine List.filter_congr fun l _ => ?_
    by_cases hl : l.journalEntryId = id
    · simp [hl, hid]
    · simp [hl]
  | @insertLine new writable =>
    refine ⟨hp, ?_⟩
    have hother : new.journalEntryId ≠ id := by
      rintro rfl
      rw [writable.not_posted hk] at hp
      cases hp
    simp [LedgerTables.linesOf, List.filter_append, hother, linesLeft]
  | @updateLine lineId new _ found writable =>
    refine ⟨hp, linesOf_updated ?_⟩
    rintro rfl
    rw [writable.not_posted hk] at hp
    cases hp
  | @deleteLine lineId old found writable =>
    refine ⟨hp, ?_⟩
    simp only [LedgerTables.linesOf, List.filter_filter, linesLeft]
    refine List.filter_congr fun l hl => ?_
    by_cases hsame : l.id = lineId
    · have hold : l = old := List.inj_on_of_nodup_map hk.line_ids hl
        (List.mem_of_find?_eq_some found) (hsame.trans (findLine_id found).symm)
      have hother : l.journalEntryId ≠ id := by
        rintro rfl
        rw [hold, writable.not_posted hk] at hp
        cases hp
      simp [hother]
    · simp [hsame]
  | missing missing =>
    refine ⟨hp, ?_⟩
    cases statement with
    | updateLine lineId new =>
      have hnone := List.find?_eq_none.1 (missing lineId new rfl)
      refine (List.filter_eq_self.2 fun l hl => ?_).symm
      have hl' := hnone l (List.mem_of_mem_filter hl)
      rw [beq_iff_eq] at hl'
      exact bne_iff_ne.2 hl'
    | _ => rfl

theorem Effect.shrinks (hk : Keyed t) (h : Effect t statement t' fired) : Shrinks t t' := by
  intro id hp
  obtain ⟨hp', hlines⟩ := h.posted_lines hk hp
  refine ⟨hp', ?_⟩
  rw [hlines]
  cases statement with
  | updateLine lineId new => exact List.filter_sublist
  | _ => exact .refl _

theorem Effect.keepsLines_iff (hk : Keyed t) (h : Effect t statement t' fired) :
    KeepsLines t t' ↔ t.leavesPosted statement = true := by
  cases statement with
  | updateLine lineId new =>
    cases h with
    | @updateLine _ _ old found writable =>
      have hnew := writable.not_posted hk
      have hmem := List.mem_of_find?_eq_some found
      simp only [LedgerTables.leavesPosted, found, Option.all_some, Bool.or_eq_true,
        Bool.not_eq_true', beq_iff_eq]
      constructor
      · intro hkeeps
        refine .inl (Bool.not_eq_true _ ▸ fun hp => ?_)
        have hold : old ∈ t.linesOf old.journalEntryId :=
          List.mem_filter.2 ⟨hmem, beq_self_eq_true _⟩
        have hlines := (Effect.updateLine found writable).posted_lines hk hp
        rw [← hkeeps _ hp, hlines.2] at hold
        exact absurd (findLine_id found) (bne_iff_ne.1 (List.mem_filter.1 hold).2)
      · intro hstays id hp
        have hlines := (Effect.updateLine found writable).posted_lines hk hp
        rw [hlines.2, linesLeft, List.filter_eq_self]
        intro l hl
        obtain ⟨hl, hid⟩ := List.mem_filter.1 hl
        rw [bne_iff_ne]
        intro hsame
        obtain rfl : l = old := List.inj_on_of_nodup_map hk.line_ids hl hmem
          (hsame.trans (findLine_id found).symm)
        rw [beq_iff_eq] at hid
        subst hid
        rcases hstays with hnot | hback
        · rw [hnot] at hp
          cases hp
        · rw [← hback, hnew] at hp
          cases hp
    | missing missing =>
      refine iff_of_true (fun _ _ => rfl) ?_
      rw [LedgerTables.leavesPosted, missing lineId new rfl]
      rfl
  | _ => exact iff_of_true (fun _ hp => (h.posted_lines hk hp).2) rfl

theorem Effect.newly_posted (h : Effect t statement t' fired) (hp : t'.posted id = true)
    : t.posted id = true ∨ id ∈ fired := by
  obtain ⟨e, he, hpost⟩ := List.any_eq_true.1 hp
  rw [Bool.and_eq_true, beq_iff_eq] at hpost
  obtain ⟨rfl, hpost⟩ := hpost
  cases h with
  | insertEntry =>
    rcases List.mem_append.1 he with he | he
    · exact .inl (posted_of_mem he hpost)
    · exact .inr (List.mem_singleton.1 he ▸ List.mem_singleton_self _)
  | @updateEntry id' new _ found allowed =>
    obtain ⟨before, hbefore, rfl⟩ := List.mem_map.1 he
    split_ifs with hid
    · exact .inr (List.mem_singleton_self _)
    · rw [if_neg hid] at hpost
      exact .inl (posted_of_mem hbefore hpost)
  | deleteEntry found draft => exact .inl (posted_of_mem (List.mem_of_mem_filter he) hpost)
  | _ => exact .inl (posted_of_mem he hpost)

end Statement

section Transaction

variable {periods : List FiscalPeriodRow} {t : LedgerTables} {statements : List RowStatement}
  {passed : List LedgerTables} {queue : List EntryId}

structure Executed (periods : List FiscalPeriodRow) (t : LedgerTables)
    (statements : List RowStatement) (passed : List LedgerTables) (queue : List EntryId) :
    Prop where
  keyed : Keyed (passed.getLastD t)
  shrinks : (t :: passed).Pairwise Shrinks
  last_shrinks : ∀ u ∈ t :: passed, Shrinks u (passed.getLastD t)
  newly_posted : ∀ id, (passed.getLastD t).posted id = true → t.posted id = true ∨ id ∈ queue
  keepsLines_iff : (∀ u ∈ t :: passed, KeepsLines u (passed.getLastD t)) ↔
    allLeavePosted periods t statements = true

theorem Executed.nil (hk : Keyed t) : Executed periods t [] [] [] where
  keyed := hk
  shrinks := List.pairwise_singleton _ _
  last_shrinks u hu := by
    rw [List.mem_singleton.1 hu]
    exact .refl _
  newly_posted _ hp := .inl hp
  keepsLines_iff := by
    refine iff_of_true (fun u hu => ?_) rfl
    rw [List.mem_singleton.1 hu]
    exact fun _ _ => rfl

theorem Executed.cons {statement : RowStatement} {t' : LedgerTables} {fired : List EntryId}
    (hk : Keyed t) (hfirst : execute periods t statement = .ok (t', fired))
    (hrest : Executed periods t' statements passed queue) :
    Executed periods t (statement :: statements) (t' :: passed) (fired ++ queue) := by
  obtain ⟨heffect, -⟩ := execute_effect hk hfirst
  have hshrinks := heffect.shrinks hk
  refine ⟨?_, ?_, ?_, ?_, ?_⟩
  · rw [List.getLastD_cons]
    exact hrest.keyed
  · refine List.pairwise_cons.2 ⟨fun u hu => ?_, hrest.shrinks⟩
    rcases List.mem_cons.1 hu with rfl | hu
    · exact hshrinks
    · exact hshrinks.trans ((List.pairwise_cons.1 hrest.shrinks).1 u hu)
  · rw [List.getLastD_cons]
    intro u hu
    rcases List.mem_cons.1 hu with rfl | hu
    · exact hshrinks.trans (hrest.last_shrinks t' List.mem_cons_self)
    · exact hrest.last_shrinks u hu
  · rw [List.getLastD_cons]
    intro id hp
    rcases hrest.newly_posted id hp with hp | hqueue
    · exact (heffect.newly_posted hp).imp_right (List.mem_append_left _)
    · exact .inr (List.mem_append_right _ hqueue)
  · rw [List.getLastD_cons, allLeavePosted, hfirst, Bool.and_eq_true,
      ← heffect.keepsLines_iff hk, ← hrest.keepsLines_iff, List.forall_mem_cons]
    refine and_congr_left fun hlater => ?_
    have hnext := hlater t' List.mem_cons_self
    constructor
    · intro hkeeps id hp
      rw [← hkeeps id hp, hnext id (hshrinks id hp).1]
    · intro hkeeps id hp
      rw [hnext id (hshrinks id hp).1, hkeeps id hp]

theorem executeAll_executed (hk : Keyed t)
    (h : executeAll periods t statements = .ok (passed, queue)) :
    Executed periods t statements passed queue := by
  induction statements generalizing t passed queue with
  | nil =>
    cases h
    exact .nil hk
  | cons statement rest ih =>
    simp only [executeAll, Except.bind_eq_ok, Except.pure_eq_ok, Prod.mk.injEq] at h
    obtain ⟨⟨t', fired⟩, hfirst, ⟨passed', queue'⟩, hrest, rfl, rfl⟩ := h
    exact .cons hk hfirst (ih (execute_effect hk hfirst).2 hrest)

theorem offending_eq_none_iff {amounts : List (String × Money)} : offending amounts = none ↔
    ∀ currency, ((amounts.filter (·.1 == currency)).map (·.2)).sum = 0 := by
  simp only [offending, List.find?_eq_none, List.forall_mem_map, List.mem_dedup, bne_iff_ne,
    ne_eq, not_not]
  constructor
  · intro h currency
    by_cases hmem : currency ∈ amounts.map (·.1)
    · obtain ⟨row, hrow, rfl⟩ := List.mem_map.1 hmem
      exact h row hrow
    · have hnone : amounts.filter (·.1 == currency) = [] := by
        rw [List.filter_eq_nil_iff]
        intro row hrow hcurrency
        exact hmem (List.mem_map.2 ⟨row, hrow, beq_iff_eq.1 hcurrency⟩)
      rw [hnone]
      rfl
  · intro h row _
    exact h row.1

theorem sum_amounts (lines : List StoredLine) (key : StoredLine → String)
    (amount : StoredLine → Money) (currency : String) :
    (((lines.map fun l => (key l, amount l)).filter (·.1 == currency)).map (·.2)).sum =
      ((lines.filter (key · == currency)).map amount).sum := by
  rw [List.filter_map, List.map_map]
  rfl

theorem journalEntryBalanced_eq_ok {id : EntryId} {u : Unit} (hk : Keyed t)
    (h : journalEntryBalanced t id = .ok u) (hp : t.posted id = true) :
    LinesBalanced (t.linesOf id) := by
  obtain ⟨e, he, hpost⟩ := mem_posted hk hp
  simp only [journalEntryBalanced, he, hpost, Bool.not_true, Bool.false_eq_true, ↓reduceIte,
    Except.bind_eq_ok, Except.require_eq_ok, exists_const] at h
  obtain ⟨hlines, h⟩ := h
  split at h
  · cases h
  · rename_i hamounts
    split at h
    · cases h
    · rename_i hfunctional
      refine ⟨hlines, fun currency => ?_, fun currency => ?_⟩
      · rw [← sum_amounts]
        exact offending_eq_none_iff.1 hamounts currency
      · rw [← sum_amounts]
        exact offending_eq_none_iff.1 hfunctional currency

theorem forM_eq_ok {α : Type} {f : α → Guarded Unit} : ∀ {l : List α} {u : Unit},
    l.forM f = .ok u → ∀ a ∈ l, f a = .ok ()
  | [], _, _ => fun _ ha => absurd ha List.not_mem_nil
  | a :: rest, _, h => by
    obtain ⟨_, hfirst, hrest⟩ := Except.bind_eq_ok.1 h
    exact List.forall_mem_cons.2 ⟨hfirst, forM_eq_ok hrest⟩

theorem runTransaction_eq_ok (hk : Keyed t) (h : runTransaction periods t statements = .ok passed) :
    ∃ queue, Executed periods t statements passed queue ∧
      ∀ id ∈ queue, journalEntryBalanced (passed.getLastD t) id = .ok () := by
  simp only [runTransaction, Except.bind_eq_ok, Except.pure_eq_ok] at h
  obtain ⟨⟨passed', queue⟩, hall, _, hqueue, rfl⟩ := h
  exact ⟨queue, executeAll_executed hk hall, forM_eq_ok hqueue⟩

end Transaction

theorem find?_rel {α : Type} {R : α → α → Prop} (hrefl : ∀ a, R a a) {p : α → Bool} {a b : α} :
    ∀ {l : List α}, l.Pairwise R → l.find? p = some a → b ∈ l → p b = true → R a b
  | [], _, h, _, _ => by cases h
  | c :: rest, hl, h, hb, hp => by
    rw [List.find?_cons] at h
    split at h
    · cases h
      rcases List.mem_cons.1 hb with rfl | hb
      · exact hrefl _
      · exact (List.pairwise_cons.1 hl).1 b hb
    · rename_i hc
      rcases List.mem_cons.1 hb with rfl | hb
      · rw [hp] at hc
        cases hc
      · exact find?_rel hrefl (List.pairwise_cons.1 hl).2 h hb hp

namespace LedgerHistory

variable {h : LedgerHistory} {transaction : LedgerTransaction} {passed : List LedgerTables}

structure Ordered (h : LedgerHistory) : Prop where
  keyed : Keyed h.current
  current_mem : h.current ∈ h.passed
  shrinks : h.passed.Pairwise Shrinks
  last_shrinks : ∀ t ∈ h.passed, Shrinks t h.current

theorem start_ordered : start.Ordered where
  keyed := ⟨List.nodup_nil, List.nodup_nil⟩
  current_mem := List.mem_singleton_self _
  shrinks := List.pairwise_singleton _ _
  last_shrinks t ht := by
    rw [List.mem_singleton.1 ht]
    exact .refl _

theorem start_intact : start.Intact where
  balanced e he := by cases he
  kept e he := by cases he

theorem first_posted {id : EntryId} {first : LedgerTables}
    (hfirst : h.passed.find? (·.posted id) = some first) : first.posted id = true := by
  have hp := @List.find?_some _ (fun t : LedgerTables => t.posted id) _ _ hfirst
  exact hp

theorem getLastD_mem {t : LedgerTables} : passed.getLastD t ∈ t :: passed := by
  rw [List.getLastD_eq_getLast?]
  cases hlast : passed.getLast? with
  | none => exact List.mem_cons_self
  | some last => exact List.mem_cons_of_mem _ (List.mem_of_getLast? hlast)

theorem Ordered.committed (ho : h.Ordered) {queue : List EntryId}
    (hx : Executed transaction.periods h.current transaction.statements passed queue) :
    Ordered ⟨h.passed ++ passed, passed.getLastD h.current⟩ where
  keyed := hx.keyed
  current_mem := by
    rcases List.mem_cons.1 (@getLastD_mem passed h.current) with hlast | hlast
    · rw [hlast]
      exact List.mem_append_left _ ho.current_mem
    · exact List.mem_append_right _ hlast
  shrinks := by
    obtain ⟨hfirst, hrest⟩ := List.pairwise_cons.1 hx.shrinks
    exact List.pairwise_append.2 ⟨ho.shrinks, hrest, fun t ht u hu =>
      (ho.last_shrinks t ht).trans (hfirst u hu)⟩
  last_shrinks t ht := by
    rcases List.mem_append.1 ht with ht | ht
    · exact (ho.last_shrinks t ht).trans (hx.last_shrinks _ List.mem_cons_self)
    · exact hx.last_shrinks t (List.mem_cons_of_mem _ ht)

theorem Ordered.step (ho : h.Ordered) (transaction : LedgerTransaction) :
    (h.step transaction).Ordered := by
  unfold LedgerHistory.step
  split
  · rename_i passed hrun
    obtain ⟨queue, hx, -⟩ := runTransaction_eq_ok ho.keyed hrun
    exact ho.committed hx
  · exact ho

theorem Ordered.kept_since (ho : h.Ordered) (hi : h.Intact) {t : LedgerTables} (ht : t ∈ h.passed)
    : KeepsLines t h.current := by
  intro id hp
  obtain ⟨hcurrent, hsub⟩ := ho.last_shrinks t ht id hp
  obtain ⟨e, he, hpost⟩ := mem_posted ho.keyed hcurrent
  have hkept := hi.kept e (List.mem_of_find?_eq_some he) hpost
  rw [findEntry_id he, linesWhenPosted, Option.map_eq_some_iff] at hkept
  obtain ⟨first, hfirst, hlines⟩ := hkept
  have hsince := (find?_rel Shrinks.refl ho.shrinks hfirst ht hp id (first_posted hfirst)).2
  rw [hlines] at hsince
  exact hsub.antisymm hsince

theorem Intact.committed (hi : h.Intact) (ho : h.Ordered) {queue : List EntryId}
    (hx : Executed transaction.periods h.current transaction.statements passed queue)
    (hchecked : ∀ id ∈ queue, journalEntryBalanced (passed.getLastD h.current) id = .ok ())
    (hkeeps : ∀ u ∈ h.current :: passed, KeepsLines u (passed.getLastD h.current)) :
    Intact ⟨h.passed ++ passed, passed.getLastD h.current⟩ where
  balanced := by
    intro e he hpost
    have hp := posted_of_mem he hpost
    rcases hx.newly_posted e.id hp with hbefore | hqueued
    · obtain ⟨e', he', hpost'⟩ := mem_posted ho.keyed hbefore
      have hbalanced := hi.balanced e' (List.mem_of_find?_eq_some he') hpost'
      rw [findEntry_id he', ← hkeeps _ List.mem_cons_self _ hbefore] at hbalanced
      exact hbalanced
    · exact journalEntryBalanced_eq_ok hx.keyed (hchecked e.id hqueued) hp
  kept := by
    intro e he hpost
    have hmem := (ho.committed hx).current_mem
    have hp := posted_of_mem he hpost
    have hsome : ((h.passed ++ passed).find? (·.posted e.id)).isSome = true :=
      List.find?_isSome.2 ⟨_, hmem, hp⟩
    obtain ⟨first, hfirst⟩ := Option.isSome_iff_exists.1 hsome
    have hpfirst := @first_posted ⟨h.passed ++ passed, h.current⟩ _ _ hfirst
    rw [linesWhenPosted, hfirst, Option.map_some, Option.some.injEq]
    rcases List.mem_append.1 (List.mem_of_find?_eq_some hfirst) with hold | hnew
    · rw [hkeeps _ List.mem_cons_self _ (ho.last_shrinks first hold _ hpfirst).1,
        ho.kept_since hi hold _ hpfirst]
    · exact (hkeeps first (List.mem_cons_of_mem _ hnew) _ hpfirst).symm

theorem step_intact_iff (ho : h.Ordered) (hi : h.Intact) :
    (h.step transaction).Intact ↔ h.LeavesPosted transaction := by
  unfold LedgerHistory.step LeavesPosted
  cases hrun : runTransaction transaction.periods h.current transaction.statements with
  | error e => exact iff_of_true hi fun hreturns => by cases hreturns
  | ok passed =>
    obtain ⟨queue, hx, hchecked⟩ := runTransaction_eq_ok ho.keyed hrun
    have hcommitted := ho.committed hx
    rw [forall_prop_of_true (by rfl), ← hx.keepsLines_iff]
    constructor
    · intro hintact u hu
      refine hcommitted.kept_since hintact ?_
      rcases List.mem_cons.1 hu with rfl | hu
      · exact List.mem_append_left _ ho.current_mem
      · exact List.mem_append_right _ hu
    · exact hi.committed ho hx hchecked

end LedgerHistory

/-- From empty tables on, every committed state is intact exactly when no committed statement has
moved a line of a posted entry to another. -/
theorem ledger_guard_iff (transactions : List LedgerTransaction) :
    Runs.Along LedgerHistory.step LedgerHistory.Intact .start transactions ↔
      Runs.Meets LedgerHistory.step LedgerHistory.LeavesPosted .start transactions :=
  Runs.along_iff_meets (fun _ transaction (ho : LedgerHistory.Ordered _) _ => ho.step transaction)
    (fun _ _ ho hi => LedgerHistory.step_intact_iff ho hi) LedgerHistory.start_ordered
    LedgerHistory.start_intact

namespace GuardedLedger

def january : FiscalPeriodRow := ⟨0, 0, "2026-01", ⟨2026, 1, 1⟩, ⟨2026, 1, 31⟩, .opened⟩

def entry (id : EntryId) (status : EntryStatus) : StoredEntry where
  id := id
  accountingBookId := 0
  entryNumber := some (id + 1)
  fiscalPeriodId := some 0
  entryDate := ⟨2026, 1, 5⟩
  status := status
  entrySource := .manual
  postingKey := none
  sourceFactType := none
  sourceFactId := none
  sourceFactFingerprint := none
  reversesEntryId := none
  isBackdated := false
  description := "rent"
  memo := none
  postedAt := some ⟨⟨2026, 1, 5⟩, 0⟩
  postedByUserId := none
  createdByUserId := none
  createdAt := ⟨⟨2026, 1, 5⟩, 0⟩
  updatedAt := ⟨⟨2026, 1, 5⟩, 0⟩

def line (id : LineId) (entryId : EntryId) (amount : Money) : StoredLine where
  id := id
  journalEntryId := entryId
  accountingBookId := 0
  ledgerAccountId := id
  economicEntityId := none
  lineNumber := id + 1
  description := none
  currency := "USD"
  amount := amount
  functionalCurrency := "USD"
  functionalAmount := amount
  fxRate := 1000000000000
  fxRateSource := .unity
  fxRateAt := none
  createdAt := ⟨⟨2026, 1, 5⟩, 0⟩

def posting : LedgerTransaction where
  periods := [january]
  statements := [.insertEntry (entry 0 .draft), .insertLine (line 0 0 (100 * moneyUnits)),
    .insertLine (line 1 0 (-100 * moneyUnits)), .updateEntry 0 (entry 0 .posted)]

def moving : LedgerTransaction where
  periods := [january]
  statements := [.insertEntry (entry 1 .draft), .updateLine 1 (line 1 1 (-100 * moneyUnits))]

def moved : LedgerTables where
  entries := [entry 0 .posted, entry 1 .draft]
  lines := [line 0 0 (100 * moneyUnits), line 1 1 (-100 * moneyUnits)]

end GuardedLedger

theorem posted_line_moved_to_draft : ¬ ∀ transactions : List LedgerTransaction,
    Runs.Along LedgerHistory.step LedgerHistory.Intact .start transactions := by
  intro hall
  have hcurrent : (Runs.run LedgerHistory.step .start
      [GuardedLedger.posting, GuardedLedger.moving]).current = GuardedLedger.moved := by
    decide +kernel
  have hintact := (hall [GuardedLedger.posting, GuardedLedger.moving]).last
  have hbalanced := hintact.balanced (GuardedLedger.entry 0 .posted)
    (by rw [hcurrent]; exact List.mem_cons_self) rfl
  rw [hcurrent] at hbalanced
  exact absurd (hbalanced.per_currency "USD") (by decide +kernel)

/-! ## The headers of posted entries -/

/-- A posted entry of `t` is in `t'` as it was, or stamped as reversed. -/
def KeepsHeaders (t t' : LedgerTables) : Prop :=
  ∀ e ∈ t.entries, e.isPosted = true → ∃ e' ∈ t'.entries, e' = e ∨ isReversalStamp e e' = true

section Headers

variable {periods : List FiscalPeriodRow} {t t' u : LedgerTables} {statement : RowStatement}
  {statements : List RowStatement} {passed : List LedgerTables} {fired queue : List EntryId}

theorem KeepsHeaders.refl (t : LedgerTables) : KeepsHeaders t t := fun e he _ => ⟨e, he, .inl rfl⟩

theorem KeepsHeaders.trans (h : KeepsHeaders t u) (h' : KeepsHeaders u t') :
    KeepsHeaders t t' := by
  intro e he hp
  obtain ⟨e', he', rfl | hstamp⟩ := h e he hp
  · exact h' e' he' hp
  · have hreversed := (isReversalStamp_iff.1 hstamp).2.1
    obtain ⟨e'', he'', rfl | hagain⟩ := h' e' he' (by simp [StoredEntry.isPosted, hreversed])
    · exact ⟨e'', he'', .inr hstamp⟩
    · -- a reversed entry is stamped no more
      have hposted := (isReversalStamp_iff.1 hagain).1
      rw [hreversed] at hposted
      cases hposted

theorem Effect.keepsHeaders (hk : Keyed t) (h : Effect t statement t' fired) :
    KeepsHeaders t t' := by
  intro e he hp
  cases h with
  | insertEntry => exact ⟨e, List.mem_append_left _ he, .inl rfl⟩
  | @updateEntry id new old found allowed =>
    by_cases hid : e.id = id
    · have hold : e = old := List.inj_on_of_nodup_map hk.entry_ids he
        (List.mem_of_find?_eq_some found) (hid.trans (findEntry_id found).symm)
      refine ⟨new, List.mem_map.2 ⟨e, he, if_pos hid⟩, .inr ?_⟩
      exact hold ▸ allowed.resolve_left (hold ▸ not_draft_of_isPosted hp)
    · exact ⟨e, List.mem_map.2 ⟨e, he, if_neg hid⟩, .inl rfl⟩
  | @deleteEntry id old found draft =>
    refine ⟨e, List.mem_filter.2 ⟨he, bne_iff_ne.2 fun hid => ?_⟩, .inl rfl⟩
    have hold : e = old := List.inj_on_of_nodup_map hk.entry_ids he
      (List.mem_of_find?_eq_some found) (hid.trans (findEntry_id found).symm)
    exact not_draft_of_isPosted hp (hold ▸ draft)
  | _ => exact ⟨e, he, .inl rfl⟩

theorem executeAll_keepsHeaders (hk : Keyed t)
    (h : executeAll periods t statements = .ok (passed, queue)) :
    ∀ u ∈ t :: passed, KeepsHeaders u (passed.getLastD t) := by
  induction statements generalizing t passed queue with
  | nil =>
    cases h
    intro u hu
    rw [List.mem_singleton.1 hu]
    exact .refl _
  | cons statement rest ih =>
    simp only [executeAll, Except.bind_eq_ok, Except.pure_eq_ok, Prod.mk.injEq] at h
    obtain ⟨⟨t', fired⟩, hfirst, ⟨passed', queue'⟩, hrest, rfl, rfl⟩ := h
    obtain ⟨heffect, hk'⟩ := execute_effect hk hfirst
    have hlast := ih hk' hrest
    intro u hu
    rw [List.getLastD_cons]
    rcases List.mem_cons.1 hu with rfl | hu
    · exact (heffect.keepsHeaders hk).trans (hlast t' List.mem_cons_self)
    · exact hlast u hu

end Headers

namespace LedgerHistory

variable {h : LedgerHistory}

def HeadersKept (h : LedgerHistory) : Prop :=
  h.Ordered ∧ ∀ t ∈ h.passed, KeepsHeaders t h.current

theorem start_headersKept : start.HeadersKept := by
  refine ⟨start_ordered, fun t ht => ?_⟩
  rw [List.mem_singleton.1 ht]
  exact .refl _

theorem HeadersKept.step (hs : h.HeadersKept) (transaction : LedgerTransaction) :
    (h.step transaction).HeadersKept := by
  refine ⟨hs.1.step transaction, ?_⟩
  unfold LedgerHistory.step
  split
  next passed hrun =>
    simp only [runTransaction, Except.bind_eq_ok, Except.pure_eq_ok] at hrun
    obtain ⟨⟨passed', queue⟩, hall, _, -, rfl⟩ := hrun
    have hlast := executeAll_keepsHeaders hs.1.keyed hall
    intro t ht
    rcases List.mem_append.1 ht with ht | ht
    · exact (hs.2 t ht).trans (hlast _ List.mem_cons_self)
    · exact hlast t (List.mem_cons_of_mem _ ht)
  next => exact hs.2

end LedgerHistory

/-- Whatever is committed, an entry that was posted once stays, with the header it had or stamped
as reversed, and with no line that it did not have. -/
theorem posted_entries_stay (transactions : List LedgerTransaction) :
    Runs.Along LedgerHistory.step (fun h => ∀ t ∈ h.passed, ∀ e ∈ t.entries, e.isPosted = true →
      (∃ e' ∈ h.current.entries, e' = e ∨ isReversalStamp e e' = true) ∧
        (h.current.linesOf e.id).Sublist (t.linesOf e.id)) .start transactions := by
  have hkept : Runs.Along LedgerHistory.step LedgerHistory.HeadersKept .start transactions :=
    Runs.along_of_step (fun _ transaction hs => hs.step transaction) LedgerHistory.start_headersKept
  exact hkept.mono fun _ hs t ht e he hp =>
    ⟨hs.2 t ht e he hp, (hs.1.last_shrinks t ht e.id (posted_of_mem he hp)).2⟩

end Loxep

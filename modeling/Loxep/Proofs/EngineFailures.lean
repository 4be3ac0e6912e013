import Loxep.Proofs.LiveEntries

/-!
# Evaluations that fail

A stale entry is reversed in one transaction and the current one posted in the next, and the checks
of the two differ. So the checks of each are stated apart, an evaluation returns exactly when those
on its path pass, and a refused posting after an accepted reversal alone leaves a trace.
-/

namespace Loxep

section Passes

variable {hash : FingerprintHash} {setup : Setup} {ledger ledger' : Ledger} {j j' : Journal}
  {fact : SourceFact} {book : AccountingBookRow} {resolved : ResolvedPostingRule} {allow : Bool}
  {e : JournalEntryRow}

def PostingPasses (hash : FingerprintHash) (setup : Setup) (j : Journal) (fact : SourceFact)
    (book : AccountingBookRow) (resolved : ResolvedPostingRule) (allow : Bool) : Prop :=
  ∃ built, buildLines fact resolved = .ok built ∧
    EntryWellFormed (postingInput fact book resolved (fingerprintFact hash fact resolved) built
      allow) ∧
    (j.existingByPostingKey (mintedKey hash fact resolved) = none →
      ∃ p, PostAccepted hash setup j fact book resolved built allow p)

theorem post_returns_iff :
    (∃ posted ledger', post setup ledger fact book resolved (fingerprintFact hash fact resolved)
      allow = .ok (posted, ledger')) ↔
      PostingPasses hash setup ledger.toJournal fact book resolved allow := by
  constructor
  · rintro ⟨posted, ledger', h⟩
    obtain ⟨built, hbuilt, hwf, hcase⟩ := (post_eq_ok hash).1 h
    refine ⟨built, hbuilt, hwf, fun hnone => ?_⟩
    rcases hcase with ⟨existing, hsome, -⟩ | ⟨-, p, hp, -⟩
    · rw [hnone] at hsome
      cases hsome
    · exact ⟨p, hp⟩
  · rintro ⟨built, hbuilt, hwf, hpass⟩
    rcases hkey : ledger.existingByPostingKey (mintedKey hash fact resolved) with _ | existing
    · obtain ⟨p, hp⟩ := hpass hkey
      refine ⟨_, ledger.appendPosted (engineRow hash ledger.toJournal fact book resolved built
        allow p) rfl rfl ?_, (post_eq_ok hash).2 ⟨built, hbuilt, hwf, .inr ⟨hkey, p, hp, rfl, rfl⟩⟩⟩
      intro key hk
      rw [engineRow_postingKey, Option.some.injEq] at hk
      rwa [← hk]
    · exact ⟨_, ledger, (post_eq_ok hash).2
        ⟨built, hbuilt, hwf, .inl ⟨existing, hkey, rfl, rfl⟩⟩⟩

theorem PostingPasses.congr (hcounter : j.nextEntryNumber = j'.nextEntryNumber)
    (hkey : j'.existingByPostingKey (mintedKey hash fact resolved) = none →
      j.existingByPostingKey (mintedKey hash fact resolved) = none)
    (h : PostingPasses hash setup j fact book resolved allow) :
    PostingPasses hash setup j' fact book resolved allow := by
  obtain ⟨built, hbuilt, hwf, hpass⟩ := h
  refine ⟨built, hbuilt, hwf, fun hnone => ?_⟩
  obtain ⟨p, hp⟩ := hpass (hkey hnone)
  refine ⟨p, { hp with counter := ?_ }⟩
  have hc := hp.counter
  unfold CounterUsable at hc ⊢
  rwa [hcounter] at hc

def ReversalPasses (setup : Setup) (j : Journal) (e : JournalEntryRow) (entryDate : CalendarDate)
    (allow : Bool) : Prop :=
  j.reversalOf e.id = none ∧
    (∀ key, e.postingKey = some key → j.existingByPostingKey ("rev:" ++ key) = none) ∧
    ∃ p, AcceptsReversal setup j e entryDate allow p

theorem loadEntry_of_mem (he : e ∈ ledger.entries) : ledger.loadEntry e.id = .ok e := by
  unfold Journal.loadEntry
  split
  · rename_i hnone
    rw [List.find?_eq_none] at hnone
    exact absurd (beq_self_eq_true e.id) (hnone e he)
  · rename_i found hfound
    have hid : found.id = e.id := by simpa using List.find?_some hfound
    rw [ledger.eq_of_id (List.mem_of_find?_eq_some hfound) he hid]

theorem reverseEntry_returns_iff {value : ReverseEntryInput} (he : e ∈ ledger.entries)
    (hposted : e.status = .posted) (hnot : e.reversesEntryId = none)
    (hid : value.journalEntryId = e.id) (hreason : trim value.reason ≠ "") :
    (∃ reversal ledger', reverseEntry setup ledger value = .ok (reversal, ledger')) ↔
      ledger.reversalOf e.id ≠ none ∨ ReversalPasses setup ledger.toJournal e
        (value.entryDate.getD e.entryDate) value.allowBackdated := by
  have hload : ledger.loadEntry value.journalEntryId = .ok e := hid ▸ loadEntry_of_mem he
  constructor
  · rintro ⟨reversal, ledger', h⟩
    obtain ⟨-, original, hload', -, -, hcase⟩ := reverseEntry_eq_ok.1 h
    rw [hload, Except.ok.injEq] at hload'
    subst hload'
    rcases hcase with ⟨already, hsome, -⟩ | ⟨hnone, -, hkey, p, hp, -⟩
    · exact .inl (by rw [hsome]; simp)
    · exact .inr ⟨hnone, hkey, p, hp⟩
  · intro h
    have hst : e.status ≠ .draft ∧ e.status ≠ .void := by
      rw [hposted]
      decide
    rcases hrev : ledger.reversalOf e.id with _ | already
    · rw [hrev] at h
      obtain ⟨-, hkey, p, hp⟩ := h.resolve_left (by simp)
      have horig := hp.original_eq
      refine ⟨_, (ledger.appendPosted (reversalRow ledger.toJournal p
        (value.entryDate.getD e.entryDate) (trim value.reason)) rfl rfl ?_).stampReversed e.id,
        reverseEntry_eq_ok.2 ⟨hreason, e, hload, hst, hnot,
          .inr ⟨hrev, hposted, hkey, p, hp, rfl, rfl⟩⟩⟩
      intro key hk
      simp only [reversalRow, horig, Option.map_eq_some_iff] at hk
      obtain ⟨minted, hminted, rfl⟩ := hk
      exact hkey minted hminted
    · exact ⟨_, ledger, reverseEntry_eq_ok.2 ⟨hreason, e, hload, hst, hnot,
        .inl ⟨already, hrev, rfl, rfl⟩⟩⟩

end Passes

section Routing

open Loxep.Except

/-- The exported `evaluateFact` turns such an error into an outcome. -/
def NotRouting {α : Type} (x : Result α) : Prop :=
  RaisesOnly (fun e : AccountingError => e.errorClass ≠ .bookRouting) x

variable {setup : Setup} {j : Journal} {book : AccountingBookRow}

theorem parseText_notRouting (path value : String) : NotRouting (parseText path value) := by
  unfold parseText
  split_ifs
  · exact raisesOnly_error (by rintro ⟨⟩)
  · exact raisesOnly_ok _

theorem parseOptionalText_notRouting (path : String) :
    ∀ value, NotRouting (parseOptionalText path value)
  | none => raisesOnly_ok _
  | some value => (parseText_notRouting path value).bind fun _ => raisesOnly_ok _

variable (line : JournalLineInput) (id : BookId) (lines : List JournalLineRow)

theorem parseLine_notRouting : NotRouting (parseLine line) :=
  (parseOptionalText_notRouting _ _).bind fun _ =>
    (raisesOnly_require (by rintro ⟨⟩)).bind fun _ =>
      (parseOptionalText_notRouting _ _).bind fun _ =>
        (raisesOnly_require (by rintro ⟨⟩)).bind fun _ =>
          (raisesOnly_require (by rintro ⟨⟩)).bind fun _ =>
            raisesOnly_ok _

theorem parseLines_notRouting : ∀ lines, NotRouting (parseLines lines)
  | [] => raisesOnly_ok _
  | line :: lines => (parseLine_notRouting line).bind fun _ =>
    (parseLines_notRouting lines).bind fun _ => raisesOnly_ok _

theorem parseEntry_notRouting (input : PostEntryInput) : NotRouting (parseEntry input) :=
  (parseText_notRouting _ _).bind fun _ =>
    (parseOptionalText_notRouting _ _).bind fun _ =>
      (parseOptionalText_notRouting _ _).bind fun _ =>
        (parseOptionalText_notRouting _ _).bind fun _ =>
          (parseOptionalText_notRouting _ _).bind fun _ =>
            (parseLines_notRouting _).bind fun _ =>
              (raisesOnly_require (by rintro ⟨⟩)).bind fun _ => raisesOnly_ok _

theorem assertSupportedCurrency_notRouting (value context : String) :
    NotRouting (Setup.assertSupportedCurrency value context) := by
  refine RaisesOnly.bind ?_ fun currency => ?_
  · unfold Setup.normalizeCurrency
    simp only []
    split_ifs
    · exact raisesOnly_ok _
    · exact raisesOnly_error (by rintro ⟨⟩)
  · split_ifs
    · exact raisesOnly_ok _
    · exact raisesOnly_error (by rintro ⟨⟩)

theorem loadBook_notRouting : NotRouting (setup.loadBook id) := by
  unfold Setup.loadBook
  split
  · exact raisesOnly_error (by rintro ⟨⟩)
  · split_ifs
    · exact raisesOnly_error (by rintro ⟨⟩)
    · exact (assertSupportedCurrency_notRouting _ _).bind fun _ => raisesOnly_ok _

theorem resolveAccount_notRouting (position : ℕ) :
    NotRouting (resolveAccount setup book line position) := by
  unfold resolveAccount
  split
  · split
    · exact raisesOnly_ok _
    · exact raisesOnly_error (by rintro ⟨⟩)
  · simp only []
    split
    · exact raisesOnly_ok _
    · exact raisesOnly_error (by rintro ⟨⟩)

theorem assertAccountUsable_notRouting (account : LedgerAccountRow) :
    NotRouting (assertAccountUsable book account) :=
  (raisesOnly_require (by rintro ⟨⟩)).bind fun _ =>
    (raisesOnly_require (by rintro ⟨⟩)).bind fun _ =>
      raisesOnly_require (by rintro ⟨⟩)

theorem resolveLine_notRouting (position : ℕ) :
    NotRouting (resolveLine setup book line position) :=
  (resolveAccount_notRouting line position).bind fun account =>
    (assertAccountUsable_notRouting account).bind fun _ =>
      (assertSupportedCurrency_notRouting _ _).bind fun _ =>
        (raisesOnly_require (by rintro ⟨⟩)).bind fun _ =>
          (raisesOnly_require (by rintro ⟨⟩)).bind fun _ =>
            raisesOnly_ok _

theorem resolveLinesFrom_notRouting :
    ∀ (position : ℕ) (lines), NotRouting (resolveLinesFrom setup book position lines)
  | _, [] => raisesOnly_ok _
  | position, line :: lines => (resolveLine_notRouting line position).bind fun _ =>
    (resolveLinesFrom_notRouting (position + 1) lines).bind fun _ => raisesOnly_ok _

theorem assertBalanced_notRouting (context : String) :
    NotRouting (assertBalanced lines context) := by
  unfold assertBalanced
  split_ifs
  · exact raisesOnly_error (by rintro ⟨⟩)
  · split
    · exact raisesOnly_error (by rintro ⟨⟩)
    · split
      · exact raisesOnly_error (by rintro ⟨⟩)
      · exact raisesOnly_ok _

theorem assertRequiredDimensions_notRouting :
    NotRouting (assertRequiredDimensions setup book lines) := by
  unfold assertRequiredDimensions
  simp only []
  split
  · exact raisesOnly_ok _
  · exact raisesOnly_error (by rintro ⟨⟩)

theorem resolvePeriodRow_notRouting (date : CalendarDate) :
    NotRouting (setup.resolvePeriodRow id date) := by
  unfold Setup.resolvePeriodRow
  split
  · exact raisesOnly_error (by rintro ⟨⟩)
  · exact raisesOnly_ok _

theorem assertPeriodAcceptsPosting_notRouting (period : FiscalPeriodRow) (allow : Bool) :
    NotRouting (Setup.assertPeriodAcceptsPosting period allow) := by
  unfold Setup.assertPeriodAcceptsPosting
  split_ifs
  · exact raisesOnly_error (by rintro ⟨⟩)
  · exact raisesOnly_ok _
  · exact raisesOnly_error (by rintro ⟨⟩)
  · exact raisesOnly_ok _

theorem assertHeader_notRouting (source : EntrySource) (type : Option String) (id : Option FactId)
    (version : Option VersionId) :
    NotRouting (assertHeader source type id version) :=
  (raisesOnly_require (by rintro ⟨⟩)).bind fun _ =>
    raisesOnly_require (by rintro ⟨⟩)

theorem prepareEntry_notRouting {value : PostEntryInput} {id : BookId}
    (hbook : value.accountingBookId = some id) : NotRouting (prepareEntry setup j value) := by
  refine RaisesOnly.bind ?_ fun book => ?_
  · unfold routeEntryBook
    rw [hbook]
    exact loadBook_notRouting id
  · exact (resolveLinesFrom_notRouting 1 _).bind fun lines =>
      (assertBalanced_notRouting lines _).bind fun _ =>
        (assertRequiredDimensions_notRouting lines).bind fun _ =>
          (resolvePeriodRow_notRouting _ _).bind fun period =>
            (assertPeriodAcceptsPosting_notRouting period _).bind fun _ =>
              RaisesOnly.bind ((raisesOnly_require (by rintro ⟨⟩)).bind
                fun _ => raisesOnly_ok _) fun _ =>
                  (assertHeader_notRouting _ _ _ _).bind fun _ =>
                    (raisesOnly_require (by rintro ⟨⟩)).bind fun _ =>
                      raisesOnly_ok _

theorem buildAmountLines_notRouting (fact : SourceFact) (resolved : ResolvedPostingRule) :
    ∀ lines, NotRouting (buildAmountLines fact resolved lines)
  | [] => raisesOnly_ok _
  | line :: lines => by
    have ih := buildAmountLines_notRouting fact resolved lines
    unfold buildAmountLines
    split_ifs
    · exact ih
    · split
      · exact raisesOnly_error (by rintro ⟨⟩)
      · exact ih.bind fun _ => raisesOnly_ok _

theorem postEntry_notRouting {ledger : Ledger} {input : PostEntryInput} {id : BookId}
    (hbook : input.accountingBookId = some id) : NotRouting (postEntry setup ledger input) := by
  intro err h
  unfold postEntry at h
  rcases bind_eq_error.1 h with h | ⟨value, hvalue, h⟩
  · exact parseEntry_notRouting _ _ h
  · have hv : value.accountingBookId = some id := by
      rw [← (parseEntry_eq_ok.1 hvalue).2]
      exact hbook
    split at h
    · cases h
    · rcases bind_eq_error.1 h with h | ⟨_, _, h⟩
      · exact prepareEntry_notRouting hv _ h
      · cases h

theorem post_notRouting {ledger : Ledger} {fact : SourceFact} {resolved : ResolvedPostingRule}
    {fingerprint : String} {allow : Bool} :
    NotRouting (post setup ledger fact book resolved fingerprint allow) := by
  refine RaisesOnly.bind ?_ fun built => postEntry_notRouting rfl
  exact (buildAmountLines_notRouting fact resolved _).bind fun _ => raisesOnly_ok _

end Routing

section Returns

variable {hash : FingerprintHash} {w : World} {input : EvaluateFactInput} {fact : SourceFact}
  {book : AccountingBookRow} {resolved : ResolvedPostingRule} {e : JournalEntryRow}

theorem withdrawal_reason_ne (reason : String) :
    trim (withdrawalInput input fact reason e).reason ≠ "" := by
  have ht : 't' ∈ (withdrawalInput input fact reason e).reason.toList := by
    simp only [withdrawalInput, String.toList_append, List.mem_append]
    exact .inl (by decide)
  exact trim_ne_empty ht (by decide)

theorem correction_reason_ne (fingerprint : String) :
    trim (correctionInput input fact resolved fingerprint e).reason ≠ "" := by
  have ht : 't' ∈ (correctionInput input fact resolved fingerprint e).reason.toList := by
    simp only [correctionInput]
    split_ifs <;> simp only [String.toList_append, List.mem_append, or_assoc] <;>
      exact .inl (by decide)
  exact trim_ne_empty ht (by decide)

theorem liveEntryOf_mem (h : liveEntryOf w input = some e) :
    e ∈ w.ledger.entries ∧ e.status = .posted ∧ e.reversesEntryId = none := by
  obtain ⟨hmem, hlive⟩ := mem_liveEntries.1 (List.mem_of_getLast? h)
  obtain ⟨-, -, -, hst, hrev⟩ := isLiveEntryOf_iff.1 hlive
  exact ⟨hmem, hst, hrev⟩

def CanReverse (w : World) (input : EvaluateFactInput) (fact : SourceFact) (e : JournalEntryRow)
    : Prop :=
  w.ledger.reversalOf e.id ≠ none ∨
    ReversalPasses w.setup w.ledger.toJournal e fact.accountingDate input.allowBackdated

def CanRepost (hash : FingerprintHash) (w : World) (input : EvaluateFactInput) (fact : SourceFact)
    (book : AccountingBookRow) (resolved : ResolvedPostingRule) (e : JournalEntryRow) : Prop :=
  if w.ledger.reversalOf e.id ≠ none then
    PostingPasses hash w.setup w.ledger.toJournal fact book resolved input.allowBackdated
  else PostingPasses hash w.setup (w.ledger.toJournal.withNumberTaken e.accountingBookId) fact
    book resolved input.allowBackdated

theorem canRepost_iff (hlive : liveEntryOf w input = some e) {value : ReverseEntryInput}
    (hid : value.journalEntryId = e.id) {reversal : PostedEntry} {ledger₁ : Ledger}
    (h : reverseEntry w.setup w.ledger value = .ok (reversal, ledger₁)) :
    CanRepost hash w input fact book resolved e ↔
      PostingPasses hash w.setup ledger₁.toJournal fact book resolved input.allowBackdated := by
  obtain ⟨hmem, -, -⟩ := liveEntryOf_mem hlive
  unfold CanRepost
  split_ifs with hrev
  · obtain ⟨-, original, hload, -, -, hcase⟩ := reverseEntry_eq_ok.1 h
    obtain ⟨hmem', hid'⟩ := loadEntry_eq_ok hload
    obtain rfl : original = e := w.ledger.eq_of_id hmem' hmem (hid'.trans hid)
    rcases hcase with ⟨-, -, -, rfl⟩ | ⟨hnone, -⟩
    · rfl
    · exact absurd hnone hrev
  · obtain ⟨r, -, hr, hwith, hnext⟩ := reverseEntry_standing hmem hid
      (reversalOf_none.1 (not_not.1 hrev)) h
    exact ⟨fun hpass => hpass.congr hnext.symm (existingByPostingKey_withReversal hmem hr hwith).1,
      fun hpass => hpass.congr hnext (existingByPostingKey_withReversal hmem hr hwith).2⟩

theorem withdrawal_returns_iff (hlive : liveEntryOf w input = some e) (reason : String) :
    (∃ reversal ledger', reverseEntry w.setup w.ledger (withdrawalInput input fact reason e) =
      .ok (reversal, ledger')) ↔ CanReverse w input fact e := by
  obtain ⟨hmem, hst, hnot⟩ := liveEntryOf_mem hlive
  exact reverseEntry_returns_iff hmem hst hnot rfl (withdrawal_reason_ne reason)

theorem correction_returns_iff (hlive : liveEntryOf w input = some e)
    (resolved : ResolvedPostingRule) (fingerprint : String) :
    (∃ reversal ledger', reverseEntry w.setup w.ledger
      (correctionInput input fact resolved fingerprint e) = .ok (reversal, ledger')) ↔
      CanReverse w input fact e := by
  obtain ⟨hmem, hst, hnot⟩ := liveEntryOf_mem hlive
  exact reverseEntry_returns_iff hmem hst hnot rfl (correction_reason_ne fingerprint)

def Returns (hash : FingerprintHash) (w : World) (input : EvaluateFactInput) : Prop :=
  match judge w.setup w.tables w.rules input with
  | .error _ => False
  | .ok (.settled _) => True
  | .ok (.ineligible fact _) => ∀ e, liveEntryOf w input = some e → CanReverse w input fact e
  | .ok (.postable fact book resolved) =>
    match liveEntryOf w input with
    | none => ∃ built, buildLines fact resolved = .ok built ∧ (built.length < 2 ∨
        PostingPasses hash w.setup w.ledger.toJournal fact book resolved input.allowBackdated)
    | some e => isCurrent resolved (fingerprintFact hash fact resolved) e = true ∨
        (CanReverse w input fact e ∧ CanRepost hash w input fact book resolved e)

theorem withdraw_returns_iff {reason : String}
    (hread : w.tables.read input.sourceFactType input.sourceFactId = .ok (some fact)) :
    (∃ outcome, (withdraw w.setup w.ledger input fact reason).1 = .ok outcome) ↔
      ∀ e, liveEntryOf w input = some e → CanReverse w input fact e := by
  have hlive := existingEntryFor_of_read hread
  unfold withdraw
  rw [hlive]
  rcases hl : liveEntryOf w input with _ | e
  · simp
  · simp only [Option.some.injEq, forall_eq']
    rw [← withdrawal_returns_iff hl reason]
    split
    · rename_i herr
      simp [herr]
    · rename_i hok
      simp [hok]

theorem correct_returns_iff (hlive : liveEntryOf w input = some e) :
    (∃ outcome, (correct w.setup w.ledger input fact book resolved
      (fingerprintFact hash fact resolved) e).1 = .ok outcome) ↔
      CanReverse w input fact e ∧ CanRepost hash w input fact book resolved e := by
  rw [← correction_returns_iff hlive resolved (fingerprintFact hash fact resolved)]
  unfold correct
  split
  · rename_i herr
    simp [herr]
  · rename_i reversal ledger₁ hok
    rw [canRepost_iff hlive rfl hok, ← post_returns_iff]
    split
    · rename_i herr
      simp [herr]
    · rename_i hpost
      simp [hok, hpost]

theorem enter_returns_iff :
    (∃ outcome, (enter w.setup w.ledger input fact book resolved
      (fingerprintFact hash fact resolved)).1 = .ok outcome) ↔
      ∃ built, buildLines fact resolved = .ok built ∧ (built.length < 2 ∨
        PostingPasses hash w.setup w.ledger.toJournal fact book resolved
          input.allowBackdated) := by
  rw [← post_returns_iff]
  unfold enter
  split
  · rename_i herr
    simp [herr]
  · rename_i built hbuilt
    simp only [hbuilt, Except.ok.injEq, exists_eq_left']
    by_cases hlen : built.length < 2
    · rw [if_pos hlen]
      exact iff_of_true ⟨_, rfl⟩ (.inl hlen)
    · rw [if_neg hlen]
      split
      · rename_i herr
        rw [herr]
        exact iff_of_false (by rintro ⟨outcome, h⟩; cases h)
          (by rintro (h | ⟨posted, ledger', h⟩); exacts [hlen h, by cases h])
      · rename_i hpost
        rw [hpost]
        exact iff_of_true ⟨_, rfl⟩ (.inr ⟨_, _, rfl⟩)

theorem evaluate_returns_iff :
    (∃ outcome, (evaluate hash w input).1 = .ok outcome) ↔ Returns hash w input := by
  unfold evaluate Returns
  rcases hjudge : judge w.setup w.tables w.rules input with err | (o | ⟨fact, why⟩ | ⟨fact, book, res⟩)
  · simp
  · simp
  · exact withdraw_returns_iff (judge_ineligible hjudge)
  · simp only [settle, existingEntryFor_of_read (judge_postable.1 hjudge).1]
    rcases hl : liveEntryOf w input with _ | e
    · exact enter_returns_iff
    · simp only []
      by_cases hcur : isCurrent res (fingerprintFact hash fact res) e = true
      · simp [hcur]
      · rw [if_neg hcur, or_iff_right hcur]
        exact correct_returns_iff hl

theorem evaluateFact_of_returned {outcome : PostingOutcome}
    (h : (evaluate hash w input).1 = .ok outcome) :
    evaluateFact hash w input = (.ok outcome, (evaluate hash w input).2) := by
  unfold evaluateFact
  rcases heval : evaluate hash w input with ⟨r, ledger'⟩
  rw [heval] at h
  cases h
  rfl

end Returns

section Atomic

variable {hash : FingerprintHash} {w : World} {input : EvaluateFactInput} {fact : SourceFact}
  {book : AccountingBookRow} {resolved : ResolvedPostingRule} {e : JournalEntryRow}

def StrandsReversal (hash : FingerprintHash) (w : World) (input : EvaluateFactInput) : Prop :=
  ∃ fact book resolved e,
    judge w.setup w.tables w.rules input = .ok (.postable fact book resolved) ∧
      liveEntryOf w input = some e ∧
      isCurrent resolved (fingerprintFact hash fact resolved) e = false ∧
      ReversalPasses w.setup w.ledger.toJournal e fact.accountingDate input.allowBackdated ∧
      ¬ PostingPasses hash w.setup (w.ledger.toJournal.withNumberTaken e.accountingBookId) fact
        book resolved input.allowBackdated

theorem correct_error (hlive : liveEntryOf w input = some e)
    (h : ∀ outcome, (correct w.setup w.ledger input fact book resolved
      (fingerprintFact hash fact resolved) e).1 ≠ .ok outcome) :
    (correct w.setup w.ledger input fact book resolved
      (fingerprintFact hash fact resolved) e).2 = w.ledger ↔
      ¬ ReversalPasses w.setup w.ledger.toJournal e fact.accountingDate input.allowBackdated := by
  obtain ⟨hmem, -, -⟩ := liveEntryOf_mem hlive
  have hiff : (∃ reversal ledger', reverseEntry w.setup w.ledger (correctionInput input fact
      resolved (fingerprintFact hash fact resolved) e) = .ok (reversal, ledger')) ↔
      CanReverse w input fact e := correction_returns_iff hlive resolved _
  unfold correct at h ⊢
  split
  · rename_i herr
    rw [herr] at hiff
    have hno : ¬ CanReverse w input fact e := fun hcan => by simpa using hiff.2 hcan
    exact ⟨fun _ hpass => hno (.inr hpass), fun _ => rfl⟩
  · rename_i reversal ledger₁ hok
    rw [hok] at h
    simp only [] at h
    split at h
    · rename_i herr
      have hcan : CanReverse w input fact e := hiff.1 ⟨reversal, ledger₁, hok⟩
      by_cases hrev : w.ledger.reversalOf e.id = none
      · obtain ⟨r, -, -, hwith, -⟩ := reverseEntry_standing hmem rfl (reversalOf_none.1 hrev) hok
        have hpass := hcan.resolve_left (not_not.2 hrev)
        have hlen : ledger₁.entries.length = w.ledger.entries.length + 1 := by
          rw [hwith.1]
          simp
        constructor
        · rintro rfl
          omega
        · intro hno
          exact absurd hpass hno
      · obtain ⟨-, original, hload, -, -, hcase⟩ := reverseEntry_eq_ok.1 hok
        obtain ⟨hmem', hid'⟩ := loadEntry_eq_ok hload
        obtain rfl : original = e := w.ledger.eq_of_id hmem' hmem hid'
        rcases hcase with ⟨-, -, -, rfl⟩ | ⟨hnone, -⟩
        · exact ⟨fun _ hpass => hrev hpass.1, fun _ => rfl⟩
        · exact absurd hnone hrev
    · exact absurd rfl (h _)

theorem enter_error {fingerprint : String}
    (h : ∀ outcome, (enter w.setup w.ledger input fact book resolved fingerprint).1 ≠
      .ok outcome) :
    (enter w.setup w.ledger input fact book resolved fingerprint).2 = w.ledger := by
  unfold enter at h ⊢
  split
  · rfl
  · rename_i hbuilt
    rw [hbuilt] at h
    simp only [] at h
    split_ifs at h ⊢ with hlen
    · rfl
    · split at h
      · rfl
      · exact absurd rfl (h _)

theorem withdraw_error {reason : String}
    (h : ∀ outcome, (withdraw w.setup w.ledger input fact reason).1 ≠ .ok outcome) :
    (withdraw w.setup w.ledger input fact reason).2 = w.ledger := by
  unfold withdraw at h ⊢
  split
  · rfl
  · rename_i hsome
    rw [hsome] at h
    simp only [] at h
    split
    · rfl
    · rename_i hrev
      rw [hrev] at h
      exact absurd rfl (h _)

theorem evaluate_error_iff (h : ∀ outcome, (evaluate hash w input).1 ≠ .ok outcome) :
    (evaluate hash w input).2 = w.ledger ↔ ¬ StrandsReversal hash w input := by
  have hreturns : ¬ Returns hash w input := by
    rw [← evaluate_returns_iff]
    rintro ⟨outcome, hok⟩
    exact h outcome hok
  unfold evaluate StrandsReversal at *
  rcases hjudge : judge w.setup w.tables w.rules input with
    err | (o | ⟨fact, why⟩ | ⟨fact, book, resolved⟩)
  · simp
  · simp
  · rw [hjudge] at h
    simp [withdraw_error h]
  · rw [hjudge] at h
    simp only [settle, existingEntryFor_of_read (judge_postable.1 hjudge).1] at h ⊢
    rcases hl : liveEntryOf w input with _ | e
    · rw [hl] at h
      simp [enter_error h]
    · rw [hl] at h
      simp only [] at h ⊢
      by_cases hcur : isCurrent resolved (fingerprintFact hash fact resolved) e = true
      · simp [hcur]
      · rw [if_neg hcur] at h ⊢
        rw [correct_error hl h]
        refine not_congr ⟨fun hpass => ?_, ?_⟩
        · refine ⟨fact, book, resolved, e, rfl, rfl, Bool.eq_false_iff.2 hcur, hpass, fun hpost => ?_⟩
          refine hreturns ?_
          simp only [Returns, hjudge, hl]
          refine .inr ⟨.inr hpass, ?_⟩
          rw [CanRepost, if_neg (not_not.2 hpass.1)]
          exact hpost
        · rintro ⟨fact', book', resolved', e', hj, he, -, hpass, -⟩
          rw [Except.ok.injEq, Judgement.postable.injEq] at hj
          obtain ⟨rfl, rfl, rfl⟩ := hj
          rw [Option.some.injEq] at he
          exact he ▸ hpass

theorem StrandsReversal.raises (h : StrandsReversal hash w input) :
    ∃ err, (evaluateFact hash w input).1 = .error err := by
  obtain ⟨fact, book, resolved, e, hjudge, hlive, hcur, hpass, hpost⟩ := h
  obtain ⟨reversal, ledger₁, hrev⟩ := (correction_returns_iff hlive resolved
    (fingerprintFact hash fact resolved)).2 (.inr hpass)
  have hrepost : ¬ PostingPasses hash w.setup ledger₁.toJournal fact book resolved
      input.allowBackdated := by
    rw [← canRepost_iff hlive rfl hrev, CanRepost, if_neg (not_not.2 hpass.1)]
    exact hpost
  rcases hp : post w.setup ledger₁ fact book resolved (fingerprintFact hash fact resolved)
    input.allowBackdated with err | ⟨posted, ledger'⟩
  · have heval : evaluate hash w input = (.error err, ledger₁) := by
      simp only [evaluate, hjudge, settle,
        existingEntryFor_of_read (judge_postable.1 hjudge).1, hlive, hcur, Bool.false_eq_true,
        if_false, correct, hrev, hp]
    refine ⟨err, ?_⟩
    simp only [evaluateFact, heval, if_neg (post_notRouting err hp)]
  · exact absurd (post_returns_iff.1 ⟨posted, ledger', hp⟩) hrepost

/-- An evaluation that ends in an error leaves the ledger as it was, unless it strands a
reversal. -/
theorem failed_evaluation_atomic_iff :
    (∀ err, (evaluateFact hash w input).1 = .error err →
      (evaluateFact hash w input).2 = w.ledger) ↔ ¬ StrandsReversal hash w input := by
  rw [evaluateFact_ledger]
  constructor
  · intro h hstrands
    obtain ⟨err, herr⟩ := hstrands.raises
    have hno : ∀ outcome, (evaluate hash w input).1 ≠ .ok outcome := by
      intro outcome hok
      rw [evaluateFact_of_returned hok] at herr
      cases herr
    exact (evaluate_error_iff hno).1 (h err herr) hstrands
  · intro h err herr
    refine (evaluate_error_iff ?_).2 h
    intro outcome hok
    rw [evaluateFact_of_returned hok] at herr
    cases herr

end Atomic

namespace Small

def archived (w : World) : World :=
  { w with setup := { w.setup with ledgerAccounts := w.setup.ledgerAccounts.map fun account =>
      if account.id = 1 then { account with status := .archived } else account } }

def stranded : World := archived (edited posted 120)

end Small

theorem failed_evaluation_withdraws :
    ∃ err, (evaluateFact Small.hash Small.stranded (inputFor (.expense, 0) Small.options)).1 =
        .error err ∧
      liveEntries Small.stranded.ledger.toJournal "expense" 0 ≠ [] ∧
      liveEntries (evaluateFact Small.hash Small.stranded
        (inputFor (.expense, 0) Small.options)).2.toJournal "expense" 0 = [] ∧
      (evaluateFact Small.hash Small.stranded (inputFor (.expense, 0) Small.options)).2 ≠
        Small.stranded.ledger := by
  obtain ⟨hraises, hbefore, hafter⟩ : Except.returns (evaluateFact Small.hash Small.stranded
      (inputFor (.expense, 0) Small.options)).1 = false ∧
        liveEntries Small.stranded.ledger.toJournal "expense" 0 ≠ [] ∧
        liveEntries (evaluateFact Small.hash Small.stranded
          (inputFor (.expense, 0) Small.options)).2.toJournal "expense" 0 = [] := by
    decide +kernel
  obtain ⟨err, herr⟩ := Except.not_returns_iff.1 hraises
  exact ⟨err, herr, hbefore, hafter, fun hsame => hbefore (hsame ▸ hafter)⟩

section Batch

variable (hash : FingerprintHash) (options : EvaluateOptions)

def evaluateEach : World → List (String × FactId) → List (Result PostingOutcome) × Ledger
  | w, [] => ([], w.ledger)
  | w, ref :: refs =>
    let result := evaluateFact hash w (options.inputFor ref)
    let rest := evaluateEach { w with ledger := result.2 } refs
    (result.1 :: rest.1, rest.2)

def Isolated (w : World) (refs : List (String × FactId)) : Prop :=
  ∃ outcomes, evaluateFacts hash options w refs =
      (.ok outcomes, (evaluateEach hash options w refs).2) ∧
    (evaluateEach hash options w refs).1 = outcomes.map .ok ∧ outcomes.length = refs.length

/-- Every reference passes, at its turn, the checks of its evaluation. -/
def AllReturn : World → List (String × FactId) → Prop
  | _, [] => True
  | w, ref :: refs => Returns hash w (options.inputFor ref) ∧
      AllReturn { w with ledger := (evaluateFact hash w (options.inputFor ref)).2 } refs

variable {hash options}

theorem evaluateFacts_returns_iff : ∀ {refs : List (String × FactId)} {w : World},
    (∃ outcomes, (evaluateFacts hash options w refs).1 = .ok outcomes)
      ↔ AllReturn hash options w refs
  | [], w => by
    simp [evaluateFacts, AllReturn]
  | ref :: refs, w => by
    rw [AllReturn, ← evaluateFacts_returns_iff, ← evaluate_returns_iff, evaluateFact_ledger]
    rcases heval : evaluate hash w (options.inputFor ref) with ⟨err | outcome, ledger₁⟩
    · simp [evaluateFacts, heval]
    · rcases hrest : evaluateFacts hash options { w with ledger := ledger₁ } refs with
        ⟨err | outcomes, ledger₂⟩
      · simp [evaluateFacts, heval, hrest]
      · simp [evaluateFacts, heval, hrest]

theorem evaluateFacts_eq_each : ∀ {refs : List (String × FactId)} {w : World}
    {outcomes : List PostingOutcome}, (evaluateFacts hash options w refs).1 = .ok outcomes →
      (evaluateFacts hash options w refs).2 = (evaluateEach hash options w refs).2
        ∧ (evaluateEach hash options w refs).1 = outcomes.map .ok
        ∧ outcomes.length = refs.length
  | [], w, outcomes, h => by
    cases h
    exact ⟨rfl, rfl, rfl⟩
  | ref :: refs, w, outcomes, h => by
    rcases heval : evaluate hash w (options.inputFor ref) with ⟨err | outcome, ledger₁⟩
    · simp [evaluateFacts, heval] at h
    · have hfact := evaluateFact_of_returned (congrArg Prod.fst heval)
      rw [heval] at hfact
      rcases hrest : evaluateFacts hash options { w with ledger := ledger₁ } refs with
        ⟨err | rest, ledger₂⟩
      · simp [evaluateFacts, heval, hrest] at h
      · have hrec := evaluateFacts_eq_each (congrArg Prod.fst hrest)
        simp only [evaluateFacts, heval, hrest, Except.ok.injEq] at h
        subst h
        simp only [evaluateFacts, heval, hrest, evaluateEach, hfact]
        rw [hrest] at hrec
        obtain ⟨hledger, heach, hlen⟩ := hrec
        exact ⟨hledger, by rw [heach, List.map_cons], by rw [List.length_cons, hlen, List.length_cons]⟩

/-- A batch is isolated exactly when every reference passes, at its turn, the checks of its
evaluation. -/
theorem isolated_iff_allReturn {refs : List (String × FactId)} {w : World} :
    Isolated hash options w refs ↔ AllReturn hash options w refs := by
  rw [← evaluateFacts_returns_iff]
  unfold Isolated
  constructor
  · rintro ⟨outcomes, hok, -⟩
    exact ⟨outcomes, congrArg Prod.fst hok⟩
  · rintro ⟨outcomes, hok⟩
    obtain ⟨hledger, heach, hlen⟩ := evaluateFacts_eq_each hok
    exact ⟨outcomes, Prod.ext hok hledger, heach, hlen⟩

end Batch

namespace Small

def untimely : World :=
  world [expense 0 .recorded (100 * moneyUnits) ⟨2025, 12, 31⟩, recorded 1 100]

end Small

theorem batch_stops_at_missing_period :
    ∃ err, (evaluateFacts Small.hash Small.options Small.untimely
        [("expense", 0), ("expense", 1)]).1 = .error err ∧
      (evaluateFacts Small.hash Small.options Small.untimely
        [("expense", 0), ("expense", 1)]).2.entries = [] ∧
      (evaluateFact Small.hash Small.untimely
        (Small.options.inputFor ("expense", 1))).1.map (·.status) = .ok .posted ∧
      ¬ Isolated Small.hash Small.options Small.untimely [("expense", 0), ("expense", 1)] := by
  obtain ⟨hraises, hnone, hposted⟩ : Except.returns (evaluateFacts Small.hash Small.options
      Small.untimely [("expense", 0), ("expense", 1)]).1 = false ∧
        (evaluateFacts Small.hash Small.options Small.untimely
          [("expense", 0), ("expense", 1)]).2.entries = [] ∧
        (evaluateFact Small.hash Small.untimely
          (Small.options.inputFor ("expense", 1))).1.map (·.status) = .ok .posted := by
    decide +kernel
  obtain ⟨err, herr⟩ := Except.not_returns_iff.1 hraises
  refine ⟨err, herr, hnone, hposted, ?_⟩
  intro hisolated
  unfold Isolated at hisolated
  obtain ⟨outcomes, hok, -⟩ := hisolated
  have hfst := congrArg Prod.fst hok
  rw [herr] at hfst
  simp at hfst

end Loxep

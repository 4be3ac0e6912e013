import Loxep.Proofs.LiveEntries

/-!
# Posting convergence

One fact is edited, its rules change, and it is evaluated again and again from an empty ledger.
-/

namespace Loxep

section Returned

variable {hash : FingerprintHash} {w : World} {input : EvaluateFactInput}
  {outcome : PostingOutcome} {ledger' : Ledger}

inductive Returned (hash : FingerprintHash) (w : World) (input : EvaluateFactInput)
    (fact : SourceFact) (book : AccountingBookRow) (resolved : ResolvedPostingRule) :
    Ledger → Prop
  | stood {e : JournalEntryRow} (live : liveEntryOf w input = some e)
      (current : isCurrent resolved (fingerprintFact hash fact resolved) e = true) :
      Returned hash w input fact book resolved w.ledger
  | entered {posted : PostedEntry} {ledger' : Ledger} (none_live : liveEntryOf w input = none)
      (post_ok : post w.setup w.ledger fact book resolved (fingerprintFact hash fact resolved)
        input.allowBackdated = .ok (posted, ledger')) :
      Returned hash w input fact book resolved ledger'
  | corrected {e : JournalEntryRow} {value : ReverseEntryInput} {reversal posted : PostedEntry}
      {ledger₁ ledger' : Ledger} (live : liveEntryOf w input = some e)
      (stale : isCurrent resolved (fingerprintFact hash fact resolved) e = false)
      (names : value.journalEntryId = e.id)
      (reversed : reverseEntry w.setup w.ledger value = .ok (reversal, ledger₁))
      (post_ok : post w.setup ledger₁ fact book resolved (fingerprintFact hash fact resolved)
        input.allowBackdated = .ok (posted, ledger')) :
      Returned hash w input fact book resolved ledger'

theorem settle_returned {fact : SourceFact} {book : AccountingBookRow}
    {resolved : ResolvedPostingRule}
    (hread : w.tables.read input.sourceFactType input.sourceFactId = .ok (some fact))
    (h : settle hash w.setup w.ledger input fact book resolved = (.ok outcome, ledger'))
    (hst : outcome.status ≠ .unpostable) :
    Returned hash w input fact book resolved ledger' := by
  have hlive := existingEntryFor_of_read hread
  unfold settle at h
  simp only [] at h
  split at h
  · rename_i hnone
    unfold enter at h
    split at h
    · cases h
    · split_ifs at h
      · cases h
        exact absurd rfl hst
      · split at h
        · cases h
        · rename_i hpost
          cases h
          exact .entered (hlive ▸ hnone) hpost
  · rename_i existing hsome
    split_ifs at h with hcur
    · cases h
      exact .stood (hlive ▸ hsome) hcur
    · unfold correct at h
      split at h
      · cases h
      · rename_i hrev
        split at h
        · cases h
        · rename_i hpost
          cases h
          exact .corrected (hlive ▸ hsome) (Bool.eq_false_iff.2 hcur) rfl hrev hpost

theorem evaluateFact_returned (h : evaluateFact hash w input = (.ok outcome, ledger'))
    (hst : outcome.status ≠ .unpostable) :
    ∃ fact book resolved,
      judge w.setup w.tables w.rules input = .ok (.postable fact book resolved) ∧
        Returned hash w input fact book resolved ledger' := by
  unfold evaluateFact at h
  split at h
  · split_ifs at h
    · cases h
      exact absurd rfl hst
    · cases h
  · rename_i heval
    cases h
    unfold evaluate at heval
    split at heval
    · cases heval
    · rename_i hjudge
      cases heval
      exact absurd (judge_settled hjudge) hst
    · unfold withdraw at heval
      split at heval
      · cases heval
        exact absurd rfl hst
      · split at heval
        · cases heval
        · cases heval
          exact absurd rfl hst
    · rename_i fact book resolved hjudge
      exact ⟨fact, book, resolved, hjudge,
        settle_returned (judge_postable.1 hjudge).1 heval hst⟩

end Returned

section History

variable (hash : FingerprintHash) (ref : FactRef) (ph : Placeholders) (seen : Set CanonicalFact)

def KeepsPlaceholders (tables : FactTables) : Prop :=
  ∀ fact, tables.readReadable ref.1 ref.2 = some fact → fact.placeholders = ph

def KeepsUsedVersions (j : Journal) (rules rules' : RuleBase) : Prop :=
  ∀ e ∈ j.entries, ∀ id, e.postingRuleVersionId = some id →
    (rules'.findVersion id).map PostingRuleVersionRow.frozenText =
      (rules.findVersion id).map PostingRuleVersionRow.frozenText

/-- What the evaluation fingerprints, if it gets that far, is in `seen`. -/
def Fingerprints (w : World) (input : EvaluateFactInput) : Prop :=
  ∀ fact book resolved, judge w.setup w.tables w.rules input =
    .ok (.postable fact book resolved) → canonicalFact fact resolved ∈ seen

/-- Any order of edits of the fact, changes of the rules, and evaluations of the fact. -/
inductive History : World → Prop
  | start {setup : Setup} {tables : FactTables} {rules : RuleBase}
      (keeps : KeepsPlaceholders ref ph tables) : History ⟨setup, tables, rules, Ledger.empty⟩
  | edit {w : World} {tables : FactTables} (history : History w)
      (keeps : KeepsPlaceholders ref ph tables) : History { w with tables := tables }
  | changeRules {w : World} {rules : RuleBase} (history : History w)
      (keeps : KeepsUsedVersions w.ledger.toJournal w.rules rules) :
      History { w with rules := rules }
  | evaluate {w : World} {options : EvaluateOptions} (history : History w)
      (fingerprints : Fingerprints seen w (inputFor ref options)) :
      History { w with ledger := (evaluateFact hash w (inputFor ref options)).2 }

/-- What a live entry was written from, as the current setup and rules still know it. -/
structure WrittenFrom (setup : Setup) (rules : RuleBase) (e : JournalEntryRow) (fact : SourceFact)
    (resolved : ResolvedPostingRule) (book : AccountingBookRow) (built : List BuiltLine)
    : Prop where
  mem_seen : canonicalFact fact resolved ∈ seen
  placeholders : fact.placeholders = ph
  amounts : fact.amounts.map (·.1) ++ [.remainder] = amountSourcesByFactType ref.1
  fingerprint : e.sourceFactFingerprint = some (fingerprintFact hash fact resolved)
  version : e.postingRuleVersionId = some resolved.version.id
  frozen : (rules.findVersion resolved.version.id).map PostingRuleVersionRow.frozenText =
    some resolved.version.frozenText
  booked : setup.findBook e.accountingBookId = some book
  builds : buildLines fact resolved = .ok built
  states : List.Forall₂ (StatesLine setup book) built e.lines

structure Kept (w : World) : Prop where
  keeps : KeepsPlaceholders ref ph w.tables
  one_live : (w.live ref).length ≤ 1
  written : ∀ e ∈ w.live ref, ∃ fact resolved book built,
    WrittenFrom hash ref ph seen w.setup w.rules e fact resolved book built
  reversed : ∀ r ∈ w.ledger.entries, ∀ id, r.reversesEntryId = some id →
    ∃ e ∈ w.ledger.entries, e.id = id ∧ e.status = .reversed
  net : ∀ account, entriesNet w.ledger.entries account = entriesNet (w.live ref) account

variable {hash ref ph seen} {w : World} {options : EvaluateOptions}

theorem liveEntryOf_inputFor :
    liveEntryOf w (inputFor ref options) = (w.live ref).getLast? := rfl

variable {e : JournalEntryRow}

theorem Kept.live_eq (h : Kept hash ref ph seen w)
    (he : liveEntryOf w (inputFor ref options) = some e) : w.live ref = [e] := by
  rw [liveEntryOf_inputFor] at he
  have hlen := h.one_live
  rcases hl : w.live ref with _ | ⟨x, _ | ⟨y, l⟩⟩
  · rw [hl] at he
    cases he
  · rw [hl] at he
    simpa using he
  · rw [hl] at hlen
    simp at hlen

theorem live_eq_nil (he : liveEntryOf w (inputFor ref options) = none) : w.live ref = [] :=
  List.getLast?_eq_none_iff.1 he

theorem Kept.unreversed (h : Kept hash ref ph seen w) (he : e ∈ w.live ref)
    : ∀ r ∈ w.ledger.entries, r.reversesEntryId ≠ some e.id := by
  intro r hr hrev
  obtain ⟨hmem, hlive⟩ := mem_liveEntries.1 he
  rw [Stamped.not_live h.reversed hmem hr hrev] at hlive
  cases hlive

theorem Kept.reverse (h : Kept hash ref ph seen w) {value : ReverseEntryInput}
    {reversal : PostedEntry} {ledger' : Ledger} (he : w.live ref = [e])
    (hid : value.journalEntryId = e.id)
    (hrev : reverseEntry w.setup w.ledger value = .ok (reversal, ledger')) :
    Kept hash ref ph seen { w with ledger := ledger' } ∧
      liveEntries ledger'.toJournal ref.1.text ref.2 = [] ∧
      ∃ r, Reverses r e ∧ WithReversal w.ledger.entries e r ledger'.entries := by
  have hmemlive : e ∈ w.live ref := he ▸ List.mem_singleton_self e
  obtain ⟨hmem, -⟩ := mem_liveEntries.1 hmemlive
  obtain ⟨r, -, hr, hwith, -⟩ := reverseEntry_standing hmem hid (h.unreversed hmemlive) hrev
  have hlive : liveEntries ledger'.toJournal ref.1.text ref.2 = [] := by
    refine liveEntries_withReversal hwith hr fun x hx hxl => ?_
    have : x ∈ w.live ref := mem_liveEntries.2 ⟨hx, hxl⟩
    rw [he, List.mem_singleton] at this
    rw [this]
  refine ⟨⟨h.keeps, ?_, ?_, ?_, ?_⟩, hlive, r, hr, hwith⟩
  · simp only [World.live, hlive, List.length_nil, zero_le]
  · simp only [World.live, hlive, List.not_mem_nil, false_imp_iff, implies_true]
  · exact Stamped.withReversal h.reversed hmem hr hwith
  · intro account
    simp only [World.live, hlive, entriesNet_nil]
    rw [entriesNet_withReversal hwith hr, h.net account, he, entriesNet_singleton, sub_self]

variable {posted : PostedEntry}

theorem post_live {fact : SourceFact} {book : AccountingBookRow} {resolved : ResolvedPostingRule}
    {ledger' : Ledger} (hkeeps : KeepsPlaceholders ref ph w.tables)
    (hjudge : judge w.setup w.tables w.rules (inputFor ref options) =
      .ok (.postable fact book resolved)) (hseen : canonicalFact fact resolved ∈ seen)
    (hpost : post w.setup w.ledger fact book resolved (fingerprintFact hash fact resolved)
      options.allowBackdated = .ok (posted, ledger')) :
    (w.ledger.existingByPostingKey (mintedKey hash fact resolved) ≠ none ∧ ledger' = w.ledger) ∨
      (w.ledger.existingByPostingKey (mintedKey hash fact resolved) = none ∧
        ∃ row built, ledger'.entries = w.ledger.entries ++ [row] ∧
          isLiveEntryOf ref.1.text ref.2 row = true ∧ row.accountingBookId = book.id ∧
          WrittenFrom hash ref ph seen w.setup w.rules row fact resolved book built) := by
  obtain ⟨type, id⟩ := ref
  obtain ⟨hread, -, hroute, -, hres⟩ := judge_postable.1 hjudge
  obtain ⟨htype, hid, hreadable⟩ := read_stamp hread
  obtain rfl : fact.sourceFactType = type := ReadableSourceFactType.text_injective htype
  obtain rfl : fact.sourceFactId = id := hid
  obtain ⟨built, hbuilt, -, hcase⟩ := (post_eq_ok hash).1 hpost
  rcases hcase with ⟨existing, hex, -, rfl⟩ | ⟨hnone, p, hp, -, hl⟩
  · exact .inl ⟨by rw [hex]; simp, rfl⟩
  · have hfound := routeBook_found hroute
    obtain ⟨hbook, horder, hall⟩ := hp.states hash hbuilt hfound
    refine .inr ⟨hnone, _, built, congrArg Journal.entries hl, engineRow_live,
      congrArg AccountingBookRow.id hbook, ?_⟩
    · refine ⟨hseen, hkeeps fact hreadable, (readReadable_shape hreadable).1,
        engineRow_fingerprint hash, rfl, ?_, ?_, hbuilt, ?_⟩
      · rw [(RuleBase.resolveForFact_spec w.rules hres).2.2.1]
        rfl
      · change w.setup.findBook p.book.id = some book
        rw [hbook]
        exact hfound
      · change List.Forall₂ (StatesLine w.setup book) built (inLineOrder p.lines)
        rw [horder]
        exact hall

theorem Kept.post (h : Kept hash ref ph seen w) (hnil : w.live ref = []) {fact : SourceFact}
    {book : AccountingBookRow} {resolved : ResolvedPostingRule} {ledger' : Ledger}
    (hjudge : judge w.setup w.tables w.rules (inputFor ref options) =
      .ok (.postable fact book resolved)) (hseen : canonicalFact fact resolved ∈ seen)
    (hpost : Loxep.post w.setup w.ledger fact book resolved (fingerprintFact hash fact resolved)
      options.allowBackdated = .ok (posted, ledger')) :
    Kept hash ref ph seen { w with ledger := ledger' } := by
  rcases post_live h.keeps hjudge hseen hpost with ⟨-, rfl⟩ | ⟨-, row, built, hent, hrow, -, hw⟩
  · exact h
  · have hlive : liveEntries ledger'.toJournal ref.1.text ref.2 = [row] := by
      rw [liveEntries_append hent, hrow]
      have : liveEntries w.ledger.toJournal ref.1.text ref.2 = [] := hnil
      rw [this]
      rfl
    refine ⟨h.keeps, ?_, ?_, ?_, ?_⟩
    · simp only [World.live, hlive, List.length_singleton, le_refl]
    · intro e he
      rw [World.live, hlive, List.mem_singleton] at he
      subst he
      exact ⟨fact, resolved, book, built, hw⟩
    · exact Stamped.append h.reversed hent (isLiveEntryOf_iff.1 hrow).2.2.2.2
    · intro account
      have hnet : entriesNet w.ledger.entries account = 0 := by
        rw [h.net account, hnil, entriesNet_nil]
      simp only [World.live, hent, hlive, entriesNet_append, hnet, zero_add]

theorem Kept.evaluate (h : Kept hash ref ph seen w)
    (hseen : Fingerprints seen w (inputFor ref options)) :
    Kept hash ref ph seen
      { w with ledger := (evaluateFact hash w (inputFor ref options)).2 } := by
  rw [evaluateFact_ledger]
  generalize hl : (Loxep.evaluate hash w (inputFor ref options)).2 = ledger'
  have hm : Moved hash w (inputFor ref options) ledger' := hl ▸ evaluate_moved
  cases hm with
  | stayed => exact h
  | withdrew live names reversed => exact (h.reverse (h.live_eq live) names reversed).1
  | entered judged none_live post_ok =>
    exact h.post (live_eq_nil none_live) judged (hseen _ _ _ judged) post_ok
  | corrected judged live names reversed post_ok =>
    obtain ⟨h₁, hnil, -⟩ := h.reverse (h.live_eq live) names reversed
    exact h₁.post hnil judged (hseen _ _ _ judged) post_ok

theorem History.kept {w : World} (history : History hash ref ph seen w) :
    Kept hash ref ph seen w := by
  induction history with
  | start keeps =>
    refine ⟨keeps, by simp [World.live, liveEntries, Ledger.empty], ?_, ?_, ?_⟩
    · simp [World.live, liveEntries, Ledger.empty]
    · simp [Ledger.empty]
    · simp [World.live, liveEntries, Ledger.empty]
  | edit _ keeps h => exact ⟨keeps, h.one_live, h.written, h.reversed, h.net⟩
  | changeRules _ keeps h =>
    refine ⟨h.keeps, h.one_live, fun e he => ?_, h.reversed, h.net⟩
    obtain ⟨fact, resolved, book, built, hw⟩ := h.written e he
    refine ⟨fact, resolved, book, built, { hw with frozen := ?_ }⟩
    rw [← hw.frozen]
    exact keeps e (mem_liveEntries.1 he).1 _ hw.version
  | evaluate _ fingerprints h => exact h.evaluate fingerprints

end History

section Converged

variable (hash : FingerprintHash) (ref : FactRef) {ph : Placeholders} {seen : Set CanonicalFact}

def CarriesDimension (b : BuiltLine) (row : JournalLineRow) : Prop :=
  ∀ value, b.dimensionValueId = some value → value ∈ row.dimensions.map (·.2)

/-- The fact has one live entry, in the book routing selects, with exactly the lines the current
rule version builds; its other entries come to nothing on every account. -/
def Converged (w : World) (options : EvaluateOptions) : Prop :=
  ∃ fact book resolved built e,
    judge w.setup w.tables w.rules (inputFor ref options) = .ok (.postable fact book resolved) ∧
      buildLines fact resolved = .ok built ∧ w.live ref = [e] ∧ e.accountingBookId = book.id ∧
      List.Forall₂ (fun b row => StatesLine w.setup book b row ∧ CarriesDimension b row)
        built e.lines ∧
      ∀ account, entriesNet (w.ledger.entries.filter fun x =>
        !isLiveEntryOf ref.1.text ref.2 x) account = 0

/-- What the engine needs to find before it: the live entry is current and in the routed book, or
no live entry is current and no entry at all carries the key about to be minted. And no line to
be written names a dimension value, which the engine does not hand on. -/
def CallsForNewKey (w : World) (options : EvaluateOptions) : Prop :=
  ∀ fact book resolved built,
    judge w.setup w.tables w.rules (inputFor ref options) = .ok (.postable fact book resolved) →
    buildLines fact resolved = .ok built →
      (∀ b ∈ built, b.dimensionValueId = none) ∧
        ((∃ e ∈ w.live ref, isCurrent resolved (fingerprintFact hash fact resolved) e = true ∧
            e.accountingBookId = book.id) ∨
          ((∀ e ∈ w.live ref, isCurrent resolved (fingerprintFact hash fact resolved) e = false) ∧
            w.ledger.existingByPostingKey (mintedKey hash fact resolved) = none))

variable {hash ref} {w : World} {options : EvaluateOptions} {fact : SourceFact}
  {book : AccountingBookRow} {resolved : ResolvedPostingRule}

variable {built : List BuiltLine}

theorem forall₂_carries_iff {setup : Setup} {rows : List JournalLineRow}
    (h : List.Forall₂ (StatesLine setup book) built rows) :
    List.Forall₂ (fun b row => StatesLine setup book b row ∧ CarriesDimension b row) built rows ↔
      ∀ b ∈ built, b.dimensionValueId = none := by
  induction h with
  | nil => simp
  | @cons b row built rows hb _ ih =>
    have hcarries : CarriesDimension b row ↔ b.dimensionValueId = none := by
      unfold CarriesDimension
      rw [hb.undimensioned]
      cases b.dimensionValueId <;> simp
    rw [List.forall₂_cons, ih, List.forall_mem_cons, hcarries]
    exact ⟨fun h => ⟨h.1.2, h.2⟩, fun h => ⟨⟨hb, h.1⟩, h.2⟩⟩

theorem Kept.converged_iff (h : Kept hash ref ph seen w)
    (hjudge : judge w.setup w.tables w.rules (inputFor ref options) =
      .ok (.postable fact book resolved)) (hbuilt : buildLines fact resolved = .ok built)
    (hstates : ∀ e ∈ w.live ref, e.accountingBookId = book.id →
      List.Forall₂ (StatesLine w.setup book) built e.lines) :
    Converged ref w options ↔ (∀ b ∈ built, b.dimensionValueId = none) ∧
      ∃ e ∈ w.live ref, e.accountingBookId = book.id := by
  constructor
  · rintro ⟨fact', book', resolved', built', e, hjudge', hbuilt', hlive, hbook, hall, -⟩
    rw [hjudge, Except.ok.injEq, Judgement.postable.injEq] at hjudge'
    obtain ⟨rfl, rfl, rfl⟩ := hjudge'
    rw [hbuilt, Except.ok.injEq] at hbuilt'
    subst hbuilt'
    have he : e ∈ w.live ref := hlive ▸ List.mem_singleton_self e
    exact ⟨(forall₂_carries_iff (hstates e he hbook)).1 hall, e, he, hbook⟩
  · rintro ⟨hdim, e, he, hbook⟩
    have hlive : w.live ref = [e] := by
      obtain ⟨x, hx⟩ := List.length_eq_one_iff.1
        (le_antisymm h.one_live (List.length_pos_of_mem he))
      rw [hx, List.mem_singleton] at he
      rw [hx, he]
    refine ⟨fact, book, resolved, built, e, hjudge, hbuilt, hlive, hbook,
      (forall₂_carries_iff (hstates e he hbook)).2 hdim, fun account => ?_⟩
    have hsplit := entriesNet_filter_add (isLiveEntryOf ref.1.text ref.2) w.ledger.entries account
    have hnet := h.net account
    rw [World.live, liveEntries] at hnet
    rwa [hnet, add_eq_left] at hsplit

theorem Kept.current_states (h : Kept hash ref ph seen w) (hinj : Set.InjOn hash.digest seen)
    (hseen : Fingerprints seen w (inputFor ref options))
    (hjudge : judge w.setup w.tables w.rules (inputFor ref options) =
      .ok (.postable fact book resolved)) {e : JournalEntryRow} (he : e ∈ w.live ref)
    (hcur : isCurrent resolved (fingerprintFact hash fact resolved) e = true) :
    ∃ built, buildLines fact resolved = .ok built ∧ (e.accountingBookId = book.id →
      List.Forall₂ (StatesLine w.setup book) built e.lines) := by
  obtain ⟨type, id⟩ := ref
  obtain ⟨hread, -, hroute, -, hres⟩ := judge_postable.1 hjudge
  obtain ⟨htype, hid, hreadable⟩ := read_stamp hread
  obtain rfl : fact.sourceFactType = type := ReadableSourceFactType.text_injective htype
  obtain rfl : fact.sourceFactId = id := hid
  obtain ⟨fact₀, resolved₀, book₀, built, hw⟩ := h.written e he
  rw [isCurrent, Bool.and_eq_true, beq_iff_eq, beq_iff_eq, hw.fingerprint, hw.version,
    Option.some.injEq, Option.some.injEq] at hcur
  have hcanon : canonicalFact fact₀ resolved₀ = canonicalFact fact resolved :=
    hinj hw.mem_seen (hseen _ _ _ hjudge) hcur.1
  have hlines : resolved₀.lines = resolved.lines := by
    have hfrozen := hw.frozen
    rw [hcur.2, (RuleBase.resolveForFact_spec w.rules hres).2.2.1, Option.map_some,
      Option.some.injEq] at hfrozen
    exact (resolved_lines_of_frozenText hfrozen).symm
  have hshape : SameShape fact₀ fact := by
    refine ⟨?_, hw.placeholders.trans (h.keeps fact hreadable).symm⟩
    exact List.append_cancel_right (hw.amounts.trans (readReadable_shape hreadable).1.symm)
  refine ⟨built, buildLines_congr hshape hcanon hlines hw.builds, fun hbook => ?_⟩
  have hfound := hw.booked
  rw [hbook, routeBook_found hroute, Option.some.injEq] at hfound
  rw [hfound]
  exact hw.states

theorem Kept.post_converged_iff (h : Kept hash ref ph seen w) (hnil : w.live ref = [])
    (hjudge : judge w.setup w.tables w.rules (inputFor ref options) =
      .ok (.postable fact book resolved)) (hseen : canonicalFact fact resolved ∈ seen)
    {posted : PostedEntry} {ledger' : Ledger}
    (hpost : Loxep.post w.setup w.ledger fact book resolved (fingerprintFact hash fact resolved)
      options.allowBackdated = .ok (posted, ledger'))
    (hbuilt : buildLines fact resolved = .ok built) :
    Converged ref { w with ledger := ledger' } options ↔
      (∀ b ∈ built, b.dimensionValueId = none) ∧
        w.ledger.existingByPostingKey (mintedKey hash fact resolved) = none := by
  have hkept := h.post hnil hjudge hseen hpost
  rcases post_live h.keeps hjudge hseen hpost with
    ⟨hkey, rfl⟩ | ⟨hkey, row, built', hent, hrow, hbook, hw⟩
  · rw [hkept.converged_iff hjudge hbuilt]
    · have hlive : liveEntries w.ledger.toJournal ref.1.text ref.2 = [] := hnil
      simp [World.live, hlive, hkey]
    · intro e he
      rw [hnil] at he
      cases he
  · have hlive : liveEntries ledger'.toJournal ref.1.text ref.2 = [row] := by
      rw [liveEntries_append hent, hrow]
      change w.live ref ++ _ = _
      rw [hnil]
      rfl
    rw [hkept.converged_iff hjudge hbuilt]
    · simp [World.live, hlive, hbook, hkey]
    · intro e he _
      rw [World.live, hlive, List.mem_singleton] at he
      have := hw.builds
      rw [hbuilt, Except.ok.injEq] at this
      rw [he, this]
      exact hw.states

/-- Whenever an evaluation returns with an entry, the books of the fact are converged exactly when
the engine had found its entry current and in place, or was free to mint a key. -/
theorem converged_iff_callsForNewKey (hinj : Set.InjOn hash.digest seen)
    (history : History hash ref ph seen w) (hseen : Fingerprints seen w (inputFor ref options))
    {outcome : PostingOutcome} {ledger' : Ledger}
    (heval : evaluateFact hash w (inputFor ref options) = (.ok outcome, ledger'))
    (hst : outcome.status ≠ .unpostable) :
    Converged ref { w with ledger := ledger' } options ↔ CallsForNewKey hash ref w options := by
  have h := history.kept
  obtain ⟨fact, book, resolved, hjudge, hret⟩ := evaluateFact_returned heval hst
  have hmem := hseen _ _ _ hjudge
  have hcalls : ∀ {built}, buildLines fact resolved = .ok built →
      (CallsForNewKey hash ref w options ↔ (∀ b ∈ built, b.dimensionValueId = none) ∧
        ((∃ e ∈ w.live ref, isCurrent resolved (fingerprintFact hash fact resolved) e = true ∧
            e.accountingBookId = book.id) ∨
          ((∀ e ∈ w.live ref, isCurrent resolved (fingerprintFact hash fact resolved) e = false) ∧
            w.ledger.existingByPostingKey (mintedKey hash fact resolved) = none))) := by
    intro built hbuilt
    refine ⟨fun hc => hc _ _ _ _ hjudge hbuilt, fun hc => ?_⟩
    intro fact' book' resolved' built' hjudge' hbuilt'
    rw [hjudge, Except.ok.injEq, Judgement.postable.injEq] at hjudge'
    obtain ⟨rfl, rfl, rfl⟩ := hjudge'
    rw [hbuilt, Except.ok.injEq] at hbuilt'
    exact hbuilt' ▸ hc
  cases hret with
  | @stood e live current =>
    have hlive := h.live_eq live
    have he : e ∈ w.live ref := hlive ▸ List.mem_singleton_self e
    obtain ⟨built, hbuilt, hstates⟩ := h.current_states hinj hseen hjudge he current
    rw [hcalls hbuilt, h.converged_iff hjudge hbuilt]
    · simp [hlive, current]
    · intro x hx
      rw [hlive, List.mem_singleton] at hx
      exact hx ▸ hstates
  | entered none_live post_ok =>
    obtain ⟨built, hbuilt, -⟩ := (post_eq_ok hash).1 post_ok
    have hnil := live_eq_nil none_live
    rw [hcalls hbuilt, h.post_converged_iff hnil hjudge hmem post_ok hbuilt]
    simp [hnil]
  | @corrected e value reversal posted ledger₁ ledger' live stale names reversed post_ok =>
    obtain ⟨built, hbuilt, -⟩ := (post_eq_ok hash).1 post_ok
    have hlive := h.live_eq live
    have he : e ∈ w.live ref := hlive ▸ List.mem_singleton_self e
    obtain ⟨h₁, hnil, r, hr, hwith⟩ := h.reverse hlive names reversed
    rw [hcalls hbuilt, h₁.post_converged_iff hnil hjudge hmem post_ok hbuilt,
      existingByPostingKey_withReversal (mem_liveEntries.1 he).1 hr hwith]
    simp [hlive, stale]

end Converged

namespace Small

def canonical (dollars : ℤ) : CanonicalFact :=
  ⟨.expense, 0, ⟨2026, 1, 15⟩, none, "USD", [(.total, dollars * moneyUnits)], [], []⟩

def placeholders : Placeholders :=
  [("reference_code", "EXP-0"), ("payee_name", ""), ("category", "shipping")]

def seen : Set CanonicalFact := {canonical 100, canonical 120}

def returned : World := edited (evaluated (edited posted 120)) 100

theorem digest_injOn : Set.InjOn hash.digest seen := by
  rintro _ (rfl | rfl) _ (rfl | rfl) h
  · rfl
  · exact absurd h (by decide +kernel)
  · exact absurd h (by decide +kernel)
  · rfl

theorem keepsPlaceholders (dollars : ℤ) :
    KeepsPlaceholders (.expense, 0) placeholders (tables [recorded 0 dollars]) := by
  intro fact h
  cases h
  rfl

theorem fingerprints {dollars : ℤ} (h : canonical dollars ∈ seen) (ledger : Ledger) :
    Fingerprints seen ⟨setup, tables [recorded 0 dollars], rules, ledger⟩
      (inputFor (.expense, 0) options) := by
  intro fact book resolved hjudge
  cases hjudge
  exact h

theorem history_posted : History hash (.expense, 0) placeholders seen posted :=
  .evaluate (.start (keepsPlaceholders 100)) (fingerprints (.inl rfl) _)

theorem history_returned : History hash (.expense, 0) placeholders seen returned :=
  .edit (.evaluate (.edit history_posted (keepsPlaceholders 120)) (fingerprints (.inr rfl) _))
    (keepsPlaceholders 100)

theorem evaluateFact_of_status (w : World) {status : PostingStatus}
    (h : (evaluateFact hash w (inputFor (.expense, 0) options)).1.map (·.status) = .ok status) :
    ∃ outcome, evaluateFact hash w (inputFor (.expense, 0) options) =
      (.ok outcome, (evaluated w).ledger) ∧ outcome.status = status := by
  unfold evaluated
  rcases heval : evaluateFact hash w (inputFor (.expense, 0) options) with ⟨_ | outcome, ledger'⟩
  · rw [heval] at h
    cases h
  · rw [heval] at h
    exact ⟨outcome, rfl, by simpa [Except.map] using h⟩

end Small

theorem reposted_without_live_entry :
    ∃ outcome, Set.InjOn Small.hash.digest Small.seen ∧
      Set.InjOn (prefix12 ∘ Small.hash.digest) Small.seen ∧
      History Small.hash (.expense, 0) Small.placeholders Small.seen Small.returned ∧
      Fingerprints Small.seen Small.returned (inputFor (.expense, 0) Small.options) ∧
      evaluateFact Small.hash Small.returned (inputFor (.expense, 0) Small.options) =
        (.ok outcome, (Small.evaluated Small.returned).ledger) ∧ outcome.status = .reposted ∧
      World.live (.expense, 0) (Small.evaluated Small.returned) = [] ∧
      ¬ Converged (.expense, 0) (Small.evaluated Small.returned) Small.options := by
  obtain ⟨hreposted, hlive⟩ : (evaluateFact Small.hash Small.returned
      (inputFor (.expense, 0) Small.options)).1.map (·.status) = .ok .reposted ∧
        World.live (.expense, 0) (Small.evaluated Small.returned) = [] := by decide +kernel
  obtain ⟨outcome, heval, hst⟩ := Small.evaluateFact_of_status Small.returned hreposted
  refine ⟨outcome, Small.digest_injOn, ?_, Small.history_returned, Small.fingerprints (.inl rfl) _,
    heval, hst, hlive, ?_⟩
  · rintro _ (rfl | rfl) _ (rfl | rfl) h
    · rfl
    · exact absurd h (by decide +kernel)
    · exact absurd h (by decide +kernel)
    · rfl
  · rintro ⟨fact, book, resolved, built, e, -, -, hone, -⟩
    rw [hlive] at hone
    cases hone

theorem converged_after_correction :
    ∃ outcome ledger', evaluateFact Small.hash (Small.edited Small.posted 120)
        (inputFor (.expense, 0) Small.options) = (.ok outcome, ledger') ∧
      (Converged (.expense, 0) { Small.edited Small.posted 120 with ledger := ledger' }
          Small.options ↔
        CallsForNewKey Small.hash (.expense, 0) (Small.edited Small.posted 120) Small.options) := by
  have hreposted : (evaluateFact Small.hash (Small.edited Small.posted 120)
      (inputFor (.expense, 0) Small.options)).1.map (·.status) = .ok .reposted := by decide +kernel
  obtain ⟨outcome, heval, hst⟩ :=
    Small.evaluateFact_of_status (Small.edited Small.posted 120) hreposted
  have hne : outcome.status ≠ .unpostable := by
    rw [hst]
    decide
  have hseen : Fingerprints Small.seen (Small.edited Small.posted 120)
      (inputFor (.expense, 0) Small.options) := Small.fingerprints (.inr rfl) Small.posted.ledger
  have hiff := converged_iff_callsForNewKey Small.digest_injOn
    (.edit Small.history_posted (Small.keepsPlaceholders 120)) hseen heval hne
  exact ⟨outcome, _, heval, hiff⟩

end Loxep

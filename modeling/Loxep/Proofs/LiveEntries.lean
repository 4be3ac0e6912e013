import Loxep.Proofs.EngineSpec
import Mathlib.Algebra.BigOperators.Group.List.Basic

/-!
# The live entries of a fact

What one transaction of the engine does to them: a reversal takes the live entry out and appends
its negation, a posting under a new key appends the one live entry. Nothing else changes.
-/

namespace Loxep

section Net

def accountNet (lines : List JournalLineRow) (account : AccountId) : Money :=
  ((lines.filter fun line => line.ledgerAccountId == account).map (·.amount)).sum

def entriesNet (entries : List JournalEntryRow) (account : AccountId) : Money :=
  (entries.map fun e => accountNet e.lines account).sum

variable {account : AccountId}

@[simp] theorem entriesNet_nil : entriesNet [] account = 0 := rfl

@[simp] theorem entriesNet_append (l l' : List JournalEntryRow) :
    entriesNet (l ++ l') account = entriesNet l account + entriesNet l' account := by
  simp [entriesNet]

@[simp] theorem entriesNet_singleton (e : JournalEntryRow) :
    entriesNet [e] account = accountNet e.lines account := by
  simp [entriesNet]

theorem accountNet_negateLine (lines : List JournalLineRow) :
    accountNet (lines.map negateLine) account = -accountNet lines account := by
  simp only [accountNet, List.filter_map, Function.comp_def, List.map_map, negateLine,
    negateDecimal]
  rw [List.sum_neg, List.map_map]
  rfl

theorem entriesNet_filter_add (p : JournalEntryRow → Bool) (l : List JournalEntryRow)
    (account : AccountId) :
    entriesNet (l.filter p) account + entriesNet (l.filter fun e => !p e) account =
      entriesNet l account := by
  rw [← entriesNet_append]
  exact ((List.filter_append_perm p l).map _).sum_eq

end Net

section Live

def liveEntries (j : Journal) (type : String) (id : FactId) : List JournalEntryRow :=
  j.entries.filter (isLiveEntryOf type id)

variable {j : Journal} {type : String} {id : FactId} {e : JournalEntryRow}

theorem isLiveEntryOf_iff : isLiveEntryOf type id e = true ↔
    e.sourceFactType = some type ∧ e.sourceFactId = some id ∧ e.entrySource = .postingRule ∧
      e.status = .posted ∧ e.reversesEntryId = none := by
  simp [isLiveEntryOf, and_assoc]

theorem mem_liveEntries :
    e ∈ liveEntries j type id ↔ e ∈ j.entries ∧ isLiveEntryOf type id e = true := List.mem_filter

theorem liveEntries_eq_nil :
    liveEntries j type id = [] ↔ ∀ e ∈ j.entries, isLiveEntryOf type id e = false := by
  simp [liveEntries, List.filter_eq_nil_iff]

theorem isLiveEntryOf_unique {ref ref' : FactRef} (h : isLiveEntryOf ref.1.text ref.2 e = true)
    (h' : isLiveEntryOf ref'.1.text ref'.2 e = true) : ref = ref' := by
  obtain ⟨htype, hid, -⟩ := isLiveEntryOf_iff.1 h
  obtain ⟨htype', hid', -⟩ := isLiveEntryOf_iff.1 h'
  rw [htype, Option.some.injEq] at htype'
  rw [hid, Option.some.injEq] at hid'
  exact Prod.ext (ReadableSourceFactType.text_injective htype') hid'

theorem existingEntryFor_eq (fact : SourceFact) :
    existingEntryFor j fact =
      (liveEntries j fact.sourceFactType.text fact.sourceFactId).getLast? := by
  rw [existingEntryFor, liveEntries, List.getLast?_eq_head?_reverse, ← List.filter_reverse,
    List.head?_filter]

end Live

section Reverse

variable {setup : Setup} {ledger ledger' : Ledger} {posted : PostedEntry}
  {e r : JournalEntryRow} {type : String} {id : FactId}

structure Reverses (r e : JournalEntryRow) : Prop where
  status : r.status = .posted
  reverses : r.reversesEntryId = some e.id
  type : r.sourceFactType = e.sourceFactType
  factId : r.sourceFactId = e.sourceFactId
  source : r.entrySource = e.entrySource
  version : r.postingRuleVersionId = e.postingRuleVersionId
  key : r.postingKey = e.postingKey.map ("rev:" ++ ·)
  book : r.accountingBookId = e.accountingBookId
  lines : r.lines = e.lines.map negateLine

def stamp (id : EntryId) (e : JournalEntryRow) : JournalEntryRow :=
  if e.id = id then { e with status := .reversed } else e

def WithReversal (entries : List JournalEntryRow) (e r : JournalEntryRow)
    (entries' : List JournalEntryRow) : Prop :=
  entries' = (entries ++ [r]).map (stamp e.id) ∧ r.id = entries.length

def Journal.withNumberTaken (j : Journal) (book : BookId) : Journal where
  entries := j.entries
  nextEntryNumber := fun b => if b = book then j.nextEntryNumber b + 1 else j.nextEntryNumber b

variable (n : EntryId)

theorem stamp_lines : (stamp n e).lines = e.lines := by
  unfold stamp
  split_ifs <;> rfl

theorem stamp_of_ne {n : EntryId} (h : e.id ≠ n) : stamp n e = e := if_neg h

theorem stamp_id : (stamp n e).id = e.id := by
  unfold stamp
  split_ifs <;> rfl

theorem stamp_postingKey : (stamp n e).postingKey = e.postingKey := by
  unfold stamp
  split_ifs <;> rfl

theorem stamp_reversesEntryId :
    (stamp n e).reversesEntryId = e.reversesEntryId := by
  unfold stamp
  split_ifs <;> rfl

theorem isLiveEntryOf_stamp {n : EntryId} : isLiveEntryOf type id (stamp n e) = true ↔
    e.id ≠ n ∧ isLiveEntryOf type id e = true := by
  unfold stamp
  split_ifs with h
  · simp [isLiveEntryOf_iff, h]
  · simp [h]

theorem reverseEntry_standing {input : ReverseEntryInput} (he : e ∈ ledger.entries)
    (hid : input.journalEntryId = e.id) (hno : ∀ r ∈ ledger.entries, r.reversesEntryId ≠ some e.id)
    (h : reverseEntry setup ledger input = .ok (posted, ledger')) :
    ∃ r, posted = ⟨r, false⟩ ∧ Reverses r e ∧ WithReversal ledger.entries e r ledger'.entries ∧
      ledger'.nextEntryNumber =
        (ledger.toJournal.withNumberTaken e.accountingBookId).nextEntryNumber := by
  rw [reverseEntry_eq_ok] at h
  obtain ⟨-, original, hload, -, -, hcase⟩ := h
  obtain ⟨hmem, hoid⟩ := loadEntry_eq_ok hload
  obtain rfl : original = e := ledger.eq_of_id hmem he (hoid.trans hid)
  rcases hcase with ⟨already, halready, -⟩ | ⟨-, -, -, p, hp, rfl, hl⟩
  · have hfound : already ∈ ledger.entries ∧ already.reversesEntryId = some original.id :=
      ⟨List.mem_of_find?_eq_some halready, by simpa using List.find?_some halready⟩
    exact absurd hfound.2 (hno already hfound.1)
  · have horig := hp.original_eq
    refine ⟨_, rfl, ⟨rfl, ?_, ?_, ?_, ?_, ?_, ?_, ?_, ?_⟩, ⟨congrArg Journal.entries hl, rfl⟩,
      (congrArg Journal.nextEntryNumber hl).trans ?_⟩ <;> rw [← horig] <;> rfl

theorem liveEntries_withReversal (h : WithReversal ledger.entries e r ledger'.entries)
    (hr : Reverses r e) (hlive : ∀ x ∈ ledger.entries, isLiveEntryOf type id x = true → x.id = e.id) :
    liveEntries ledger'.toJournal type id = [] := by
  rw [liveEntries_eq_nil, h.1]
  intro x hx
  rw [List.mem_map] at hx
  obtain ⟨y, hy, rfl⟩ := hx
  rw [Bool.eq_false_iff]
  intro hlive'
  obtain ⟨hne, hy'⟩ := isLiveEntryOf_stamp.1 hlive'
  rw [List.mem_append, List.mem_singleton] at hy
  rcases hy with hy | rfl
  · exact hne (hlive y hy hy')
  · have := (isLiveEntryOf_iff.1 hy').2.2.2.2
    rw [hr.reverses] at this
    cases this

theorem entriesNet_withReversal {account : AccountId} {entries' : List JournalEntryRow}
    (h : WithReversal ledger.entries e r entries') (hr : Reverses r e) :
    entriesNet entries' account =
      entriesNet ledger.entries account - accountNet e.lines account := by
  rw [h.1]
  have hmap : ∀ l : List JournalEntryRow, entriesNet (l.map (stamp e.id)) account =
      entriesNet l account := by
    intro l
    simp only [entriesNet, List.map_map, Function.comp_def, stamp_lines]
  rw [hmap, entriesNet_append, entriesNet_singleton, hr.lines, accountNet_negateLine]
  ring

theorem mem_withReversal {entries entries' : List JournalEntryRow}
    (h : WithReversal entries e r entries') (hlt : e.id < entries.length) {x : JournalEntryRow} :
    x ∈ entries' ↔ x = r ∨ ∃ y ∈ entries, stamp e.id y = x := by
  rw [h.1, List.map_append, List.map_singleton, List.mem_append, List.mem_singleton, List.mem_map,
    stamp_of_ne (h.2 ▸ hlt.ne'), or_comm]

def Stamped (j : Journal) : Prop :=
  ∀ r ∈ j.entries, ∀ id, r.reversesEntryId = some id →
    ∃ e ∈ j.entries, e.id = id ∧ e.status = .reversed

section

variable (hst : Stamped ledger.toJournal)
include hst

theorem Stamped.append {row : JournalEntryRow} (h : ledger'.entries = ledger.entries ++ [row])
    (hrow : row.reversesEntryId = none) :
    Stamped ledger'.toJournal := by
  intro x hx n hn
  simp only [h, List.mem_append, List.mem_singleton] at hx ⊢
  rcases hx with hx | rfl
  · obtain ⟨e, he, hrest⟩ := hst x hx n hn
    exact ⟨e, .inl he, hrest⟩
  · rw [hrow] at hn
    cases hn

theorem Stamped.withReversal (hmem : e ∈ ledger.entries) (hr : Reverses r e)
    (h : WithReversal ledger.entries e r ledger'.entries) :
    Stamped ledger'.toJournal := by
  have hmem' := @mem_withReversal e r _ _ h (ledger.id_lt hmem)
  intro x hx n hn
  rcases hmem'.1 hx with rfl | ⟨y, hy, rfl⟩
  · rw [hr.reverses, Option.some.injEq] at hn
    refine ⟨stamp e.id e, hmem'.2 (.inr ⟨e, hmem, rfl⟩), (stamp_id _).trans hn, ?_⟩
    simp [stamp]
  · rw [stamp_reversesEntryId] at hn
    obtain ⟨z, hz, hzid, hzst⟩ := hst y hy n hn
    refine ⟨stamp e.id z, hmem'.2 (.inr ⟨z, hz, rfl⟩), (stamp_id _).trans hzid, ?_⟩
    unfold stamp
    split_ifs
    · rfl
    · exact hzst

theorem Stamped.not_live {x : JournalEntryRow} (hx : x ∈ ledger.entries) (hr : r ∈ ledger.entries)
    (hrev : r.reversesEntryId = some x.id) :
    isLiveEntryOf type id x = false := by
  obtain ⟨e, he, hid, hreversed⟩ := hst r hr x.id hrev
  rw [Bool.eq_false_iff]
  intro hlive
  rw [ledger.eq_of_id he hx hid, (isLiveEntryOf_iff.1 hlive).2.2.2.1] at hreversed
  cases hreversed

theorem reverseEntry_live {input : ReverseEntryInput}
    (h : reverseEntry setup ledger input = .ok (posted, ledger')) :
    Stamped ledger'.toJournal ∧ ledger.entries.length ≤ ledger'.entries.length ∧
      ∀ type id, liveEntries ledger'.toJournal type id =
        (liveEntries ledger.toJournal type id).filter fun x => x.id != input.journalEntryId := by
  obtain ⟨-, original, hload, -, -, hcase⟩ := reverseEntry_eq_ok.1 h
  obtain ⟨hmem, hid⟩ := loadEntry_eq_ok hload
  rcases hcase with ⟨already, halready, -, rfl⟩ | ⟨hnone, -⟩
  · refine ⟨hst, le_rfl, fun type id => (List.filter_eq_self.2 fun x hx => ?_).symm⟩
    obtain ⟨hx, hlive⟩ := mem_liveEntries.1 hx
    rw [bne_iff_ne]
    intro hxid
    have hrev : already.reversesEntryId = some x.id := by
      rw [hxid, ← hid]
      simpa using List.find?_some halready
    rw [hst.not_live hx (List.mem_of_find?_eq_some halready) hrev] at hlive
    cases hlive
  · obtain ⟨r, -, hr, hwith, -⟩ :=
      reverseEntry_standing hmem hid.symm (reversalOf_none.1 hnone) h
    refine ⟨hst.withReversal hmem hr hwith, ?_, fun type id => ?_⟩
    · rw [hwith.1, List.length_map, List.length_append]
      omega
    · have hne : ∀ x ∈ (ledger.entries ++ [r]).filter fun x =>
          isLiveEntryOf type id (stamp original.id x), stamp original.id x = x := by
        intro x hx
        exact stamp_of_ne (isLiveEntryOf_stamp.1 (List.mem_filter.1 hx).2).1
      have hrlive : isLiveEntryOf type id r = false := by
        rw [Bool.eq_false_iff]
        intro hlive
        have := (isLiveEntryOf_iff.1 hlive).2.2.2.2
        rw [hr.reverses] at this
        cases this
      have hstamp : ∀ x, isLiveEntryOf type id (stamp original.id x) =
          (x.id != input.journalEntryId && isLiveEntryOf type id x) := by
        intro x
        rw [Bool.eq_iff_iff, isLiveEntryOf_stamp, hid]
        simp
      simp only [liveEntries, hwith.1, List.filter_map, Function.comp_def]
      rw [List.map_congr_left hne, List.map_id']
      simp only [hstamp, List.filter_append, List.filter_cons, hrlive, Bool.and_false,
        Bool.false_eq_true, if_false, List.filter_nil, List.append_nil, List.filter_filter]

end

theorem existingByPostingKey_withReversal {hash : FingerprintHash} {fact : SourceFact}
    {resolved : ResolvedPostingRule} (hmem : e ∈ ledger.entries) (hr : Reverses r e)
    (h : WithReversal ledger.entries e r ledger'.entries) :
    ledger'.existingByPostingKey (mintedKey hash fact resolved) = none ↔
      ledger.existingByPostingKey (mintedKey hash fact resolved) = none := by
  rw [existingByPostingKey_none, existingByPostingKey_none]
  have hmem' := @mem_withReversal e r _ _ h (ledger.id_lt hmem)
  constructor
  · intro hno x hx
    have := hno (stamp e.id x) (hmem'.2 (.inr ⟨x, hx, rfl⟩))
    rwa [stamp_postingKey] at this
  · intro hno x hx
    rcases hmem'.1 hx with rfl | ⟨y, hy, rfl⟩
    · rw [hr.key]
      intro hkey
      obtain ⟨key, -, hkey⟩ := Option.map_eq_some_iff.1 hkey
      exact reversal_key_ne hkey
    · rw [stamp_postingKey]
      exact hno y hy

end Reverse

section Post

variable {ledger ledger' : Ledger} {row : JournalEntryRow} {type : String} {id : FactId}

theorem liveEntries_append (h : ledger'.entries = ledger.entries ++ [row]) :
    liveEntries ledger'.toJournal type id = liveEntries ledger.toJournal type id ++
      if isLiveEntryOf type id row then [row] else [] := by
  simp only [liveEntries, h, List.filter_append, List.filter_cons, List.filter_nil]

variable {allow : Bool}

variable {book : AccountingBookRow}

variable {resolved : ResolvedPostingRule}

theorem engineRow_live {hash : FingerprintHash} {j : Journal} {fact : SourceFact}
    {built : List BuiltLine} {p : PreparedEntry} :
    isLiveEntryOf fact.sourceFactType.text fact.sourceFactId
      (engineRow hash j fact book resolved built allow p) = true := by
  rw [isLiveEntryOf_iff]
  exact ⟨engineRow_sourceFactType hash, rfl, rfl, rfl, rfl⟩

theorem post_live_append {hash : FingerprintHash} {setup : Setup} {fact : SourceFact}
    {posted : PostedEntry}
    (h : post setup ledger fact book resolved (fingerprintFact hash fact resolved) allow =
      .ok (posted, ledger')) :
    (ledger.existingByPostingKey (mintedKey hash fact resolved) ≠ none ∧ ledger' = ledger) ∨
      (ledger.existingByPostingKey (mintedKey hash fact resolved) = none ∧
        ∃ row, ledger'.entries = ledger.entries ++ [row] ∧ row.id = ledger.entries.length ∧
          isLiveEntryOf fact.sourceFactType.text fact.sourceFactId row = true) := by
  obtain ⟨built, -, -, hcase⟩ := (post_eq_ok hash).1 h
  rcases hcase with ⟨existing, hex, -, rfl⟩ | ⟨hnone, p, -, -, hl⟩
  · exact .inl ⟨by rw [hex]; simp, rfl⟩
  · exact .inr ⟨hnone, _, congrArg Journal.entries hl, rfl, engineRow_live⟩

end Post

section Evaluate

variable {hash : FingerprintHash} {w : World} {input : EvaluateFactInput} {fact : SourceFact}

theorem read_stamp {t : FactTables} {type : String} {id : FactId}
    (h : t.read type id = .ok (some fact)) :
    fact.sourceFactType.text = type ∧ fact.sourceFactId = id ∧
      t.readReadable fact.sourceFactType id = some fact := by
  unfold FactTables.read at h
  split at h
  · cases h
  · rename_i readable hof
    split_ifs at h
    rw [Except.ok.injEq] at h
    obtain ⟨htype, hid⟩ := readReadable_stamp h
    refine ⟨?_, hid, htype ▸ h⟩
    rw [htype, ReadableSourceFactType.ofText_eq_some hof]

theorem judge_ineligible {reason : String}
    (h : judge w.setup w.tables w.rules input = .ok (.ineligible fact reason)) :
    w.tables.read input.sourceFactType input.sourceFactId = .ok (some fact) := by
  simp only [judge, Except.bind_eq_ok] at h
  obtain ⟨found, hread, h⟩ := h
  rcases found with _ | f
  · cases h
  · simp only [judgeFact] at h
    split at h
    · simp only [Except.pure_eq_ok, Judgement.ineligible.injEq] at h
      rw [← h.1]
      exact hread
    · simp only [Except.bind_eq_ok] at h
      obtain ⟨routed, -, h⟩ := h
      split at h
      · cases h
      · split_ifs at h
        · cases h
        · split at h <;> cases h

theorem judge_settled {o : PostingOutcome}
    (h : judge w.setup w.tables w.rules input = .ok (.settled o)) : o.status = .unpostable := by
  simp only [judge, Except.bind_eq_ok] at h
  obtain ⟨found, -, h⟩ := h
  rcases found with _ | fact
  · simp only [Except.pure_eq_ok, Judgement.settled.injEq] at h
    rw [← h]
    rfl
  · simp only [judgeFact] at h
    split at h
    · simp [pure, Except.pure] at h
    · simp only [Except.bind_eq_ok] at h
      obtain ⟨routed, -, h⟩ := h
      split at h
      · simp only [Except.pure_eq_ok, Judgement.settled.injEq] at h
        rw [← h]
        rfl
      · split_ifs at h
        · simp only [Except.pure_eq_ok, Judgement.settled.injEq] at h
          rw [← h]
          rfl
        · split at h
          · simp only [Except.pure_eq_ok, Judgement.settled.injEq] at h
            rw [← h]
            rfl
          · simp [pure, Except.pure] at h

def World.live (ref : FactRef) (w : World) : List JournalEntryRow :=
  liveEntries w.ledger.toJournal ref.1.text ref.2

def liveEntryOf (w : World) (input : EvaluateFactInput) : Option JournalEntryRow :=
  (liveEntries w.ledger.toJournal input.sourceFactType input.sourceFactId).getLast?

theorem existingEntryFor_of_read
    (h : w.tables.read input.sourceFactType input.sourceFactId = .ok (some fact)) :
    existingEntryFor w.ledger.toJournal fact = liveEntryOf w input := by
  obtain ⟨htype, hid, -⟩ := read_stamp h
  rw [existingEntryFor_eq, htype, hid, liveEntryOf]

inductive Moved (hash : FingerprintHash) (w : World) (input : EvaluateFactInput) :
    Ledger → Prop
  | stayed : Moved hash w input w.ledger
  | withdrew {e : JournalEntryRow} {value : ReverseEntryInput} {reversal : PostedEntry}
      {ledger' : Ledger} (live : liveEntryOf w input = some e)
      (names : value.journalEntryId = e.id)
      (reversed : reverseEntry w.setup w.ledger value = .ok (reversal, ledger')) :
      Moved hash w input ledger'
  | entered {fact : SourceFact} {book : AccountingBookRow} {resolved : ResolvedPostingRule}
      {posted : PostedEntry} {ledger' : Ledger}
      (judged : judge w.setup w.tables w.rules input = .ok (.postable fact book resolved))
      (none_live : liveEntryOf w input = none)
      (post_ok : post w.setup w.ledger fact book resolved (fingerprintFact hash fact resolved)
        input.allowBackdated = .ok (posted, ledger')) : Moved hash w input ledger'
  | corrected {fact : SourceFact} {book : AccountingBookRow} {resolved : ResolvedPostingRule}
      {e : JournalEntryRow} {value : ReverseEntryInput} {reversal posted : PostedEntry}
      {ledger₁ ledger' : Ledger}
      (judged : judge w.setup w.tables w.rules input = .ok (.postable fact book resolved))
      (live : liveEntryOf w input = some e) (names : value.journalEntryId = e.id)
      (reversed : reverseEntry w.setup w.ledger value = .ok (reversal, ledger₁))
      (post_ok : post w.setup ledger₁ fact book resolved (fingerprintFact hash fact resolved)
        input.allowBackdated = .ok (posted, ledger')) : Moved hash w input ledger'

theorem evaluate_moved : Moved hash w input (evaluate hash w input).2 := by
  unfold evaluate
  split
  · exact .stayed
  · exact .stayed
  · rename_i fact reason hjudge
    have hlive := existingEntryFor_of_read (judge_ineligible hjudge)
    unfold withdraw
    split
    · exact .stayed
    · rename_i posted hposted
      split
      · exact .stayed
      · rename_i hrev
        exact .withdrew (hlive ▸ hposted) rfl hrev
  · rename_i fact book resolved hjudge
    have hlive := existingEntryFor_of_read (judge_postable.1 hjudge).1
    unfold settle
    simp only []
    split
    · rename_i hnone
      unfold enter
      split
      · exact .stayed
      · split_ifs
        · exact .stayed
        · split
          · exact .stayed
          · rename_i hpost
            exact .entered hjudge (hlive ▸ hnone) hpost
    · rename_i existing hsome
      split_ifs
      · exact .stayed
      · unfold correct
        split
        · exact .stayed
        · rename_i hrev
          split
          · exact .withdrew (hlive ▸ hsome) rfl hrev
          · rename_i hpost
            exact .corrected hjudge (hlive ▸ hsome) rfl hrev hpost

theorem evaluateFact_ledger (hash : FingerprintHash) (w : World) (input : EvaluateFactInput) :
    (evaluateFact hash w input).2 = (evaluate hash w input).2 := by
  unfold evaluateFact
  split
  · rename_i h
    rw [h]
    split_ifs <;> rfl
  · rename_i h
    rw [h]

end Evaluate

end Loxep

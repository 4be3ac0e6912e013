import Loxep.Proofs.SweepProgress

/-!
# What a fixpoint of the sweep says about the books

The sweep looks only at facts with no entry, so it posts a fact once and never returns to it.
-/

namespace Loxep

section Call

variable {hash : FingerprintHash} {w : World} {ref ref' : FactRef} {e : JournalEntryRow}

/-- The entry the current state of a fact calls for: its book, its date and its lines. -/
structure Call where
  book : AccountingBookRow
  date : CalendarDate
  lines : List BuiltLine

def World.callsFor (w : World) (ref : FactRef) : Option Call :=
  match judge w.setup w.tables w.rules (inputFor ref (sweepOptions w.setup)) with
  | .ok (.postable fact book resolved) =>
    match buildLines fact resolved with
    | .ok built => if built.length < 2 then none else some ⟨book, fact.accountingDate, built⟩
    | .error _ => none
  | _ => none

structure StatesCall (setup : Setup) (call : Call) (e : JournalEntryRow) : Prop where
  book : e.accountingBookId = call.book.id
  date : e.entryDate = call.date
  lines : List.Forall₂ (StatesLine setup call.book) call.lines e.lines

def Right (w : World) : Prop :=
  ∀ ref, match w.callsFor ref with
    | none => w.live ref = []
    | some call => ∃ e, w.live ref = [e] ∧ StatesCall w.setup call e

def Names (ref : FactRef) (key : String) : Prop :=
  ∃ code version fingerprint, (∀ c ∈ fingerprint.toList, isHexDigit c = true)
    ∧ key = postingKeyFor code version ref.1.text ref.2 fingerprint

theorem Names.unique {key : String} (h : Names ref key) (h' : Names ref' key) : ref = ref' := by
  obtain ⟨code, version, fingerprint, hf, rfl⟩ := h
  obtain ⟨code', version', fingerprint', hf', hkey⟩ := h'
  obtain ⟨htype, hid⟩ := postingKeyFor_fact hf hf' hkey
  exact Prod.ext htype hid

structure Posted (w : World) (ref : FactRef) (e : JournalEntryRow) : Prop where
  live : isLiveEntryOf ref.1.text ref.2 e = true
  states : ∃ call, w.callsFor ref = some call ∧ StatesCall w.setup call e
  named : ∀ key, e.postingKey = some key → Names ref key

/-- The invariant: every entry is a fact's one live entry, and states what the fact calls for. -/
structure AllPosted (w : World) : Prop where
  posted : ∀ e ∈ w.ledger.entries, ∃ ref, Posted w ref e
  one_live : ∀ ref, (w.live ref).length ≤ 1

theorem hasEntry_of_live (h : e ∈ w.ledger.entries)
    (hlive : isLiveEntryOf ref.1.text ref.2 e = true) :
    hasEntry w.ledger.toJournal ref = true := by
  obtain ⟨htype, hid, -, hst, -⟩ := isLiveEntryOf_iff.1 hlive
  exact List.any_eq_true.2 ⟨e, h, by simp [htype, hid, hst]⟩

theorem AllPosted.live_eq_nil_iff (h : AllPosted w) :
    w.live ref = [] ↔ hasEntry w.ledger.toJournal ref = false := by
  constructor
  · intro hnil
    rw [Bool.eq_false_iff]
    intro hhas
    obtain ⟨e, hmem, he⟩ := List.any_eq_true.1 hhas
    obtain ⟨ref', hp⟩ := h.posted e hmem
    obtain ⟨htype, hid, -⟩ := isLiveEntryOf_iff.1 hp.live
    simp only [htype, hid, Bool.and_eq_true, beq_iff_eq, Option.some.injEq] at he
    have href : ref' = ref :=
      Prod.ext (ReadableSourceFactType.text_injective he.1.1) he.1.2
    have : e ∈ w.live ref := mem_liveEntries.2 ⟨hmem, href ▸ hp.live⟩
    rw [hnil] at this
    cases this
  · intro hno
    refine liveEntries_eq_nil.2 fun e he => ?_
    rw [Bool.eq_false_iff]
    intro hlive
    rw [hasEntry_of_live he hlive] at hno
    cases hno

theorem AllPosted.right (h : AllPosted w)
    (hnone : ∀ ref, hasEntry w.ledger.toJournal ref = false → w.callsFor ref = none) :
    Right w := by
  intro ref
  rcases hlive : w.live ref with _ | ⟨e, rest⟩
  · rw [hnone ref (h.live_eq_nil_iff.1 hlive)]
  · have hone := h.one_live ref
    rw [hlive] at hone
    obtain rfl : rest = [] := List.eq_nil_of_length_eq_zero (by simpa using hone)
    obtain ⟨hmem, hl⟩ := mem_liveEntries.1 (show e ∈ w.live ref by rw [hlive]; simp)
    obtain ⟨ref', hp⟩ := h.posted e hmem
    obtain rfl := isLiveEntryOf_unique hp.live hl
    obtain ⟨call, hcall, hstates⟩ := hp.states
    rw [hcall]
    exact ⟨e, rfl, hstates⟩

end Call

section Batch

variable {hash : FingerprintHash} {w : World} {ref : FactRef} {e : JournalEntryRow}

variable {fact : SourceFact} {book : AccountingBookRow} {resolved : ResolvedPostingRule}
  {ledger' : Ledger}

variable {input : EvaluateFactInput} {built : List BuiltLine} {p : PreparedEntry}

theorem evaluate_current
    (hjudge : judge w.setup w.tables w.rules input = .ok (.postable fact book resolved))
    (hlive : liveEntryOf w input = some e)
    (hcur : isCurrent resolved (fingerprintFact hash fact resolved) e = true) :
    (evaluate hash w input).2 = w.ledger := by
  simp only [evaluate, hjudge, settle, existingEntryFor_of_read (judge_postable.1 hjudge).1, hlive,
    hcur, if_true]

theorem PostsEntry.posted
    (h : PostsEntry hash w (inputFor ref (sweepOptions w.setup)) ledger' fact book resolved built p) :
    Posted { w with ledger := ledger' } ref
      (engineRow hash w.ledger.toJournal fact book resolved built
        (inputFor ref (sweepOptions w.setup)).allowBackdated p) := by
  obtain ⟨type, id⟩ := ref
  obtain ⟨hread, -, hroute, -⟩ := judge_postable.1 h.judged
  obtain ⟨htype, hid, -⟩ := read_stamp hread
  obtain rfl : fact.sourceFactType = type := ReadableSourceFactType.text_injective htype
  obtain rfl : fact.sourceFactId = id := hid
  obtain ⟨hbook, horder, hall⟩ := h.accepted.states hash h.builds (routeBook_found hroute)
  refine ⟨engineRow_live, ⟨⟨book, fact.accountingDate, built⟩, ?_, ?_⟩, ?_⟩
  · have hlen : ¬ built.length < 2 := by
      have := h.accepted.two
      rw [hall.length_eq]
      omega
    unfold World.callsFor
    simp only [h.judged, h.builds, if_neg hlen]
  · refine ⟨congrArg AccountingBookRow.id hbook, rfl, ?_⟩
    change List.Forall₂ (StatesLine w.setup book) built (inLineOrder p.lines)
    rw [horder]
    exact hall
  · intro key hkey
    rw [engineRow_postingKey, Option.some.injEq] at hkey
    exact ⟨_, _, _, fingerprint_hex hash fact resolved, hkey.symm⟩

theorem PostsEntry.isCurrent (_ : PostsEntry hash w input ledger' fact book resolved built p) :
    isCurrent resolved (fingerprintFact hash fact resolved)
      (engineRow hash w.ledger.toJournal fact book resolved built input.allowBackdated p) =
      true := by
  unfold Loxep.isCurrent
  rw [engineRow_fingerprint]
  simp [engineRow, postedRow, postingValue, trimmedEntry, postingInput]

/-- In the middle of a batch the invariant holds, and what the batch itself wrote is current. -/
structure Sweeping (hash : FingerprintHash) (w : World) (ledger : Ledger) : Prop where
  all : AllPosted { w with ledger := ledger }
  current : ∀ e ∈ ledger.entries, e ∈ w.ledger.entries ∨ ∃ ref fact book resolved,
    judge w.setup w.tables w.rules (inputFor ref (sweepOptions w.setup)) =
        .ok (.postable fact book resolved)
      ∧ isLiveEntryOf ref.1.text ref.2 e = true
      ∧ isCurrent resolved (fingerprintFact hash fact resolved) e = true

theorem AllPosted.append {row : JournalEntryRow} (h : AllPosted w)
    (hent : ledger'.entries = w.ledger.entries ++ [row])
    (hrow : Posted { w with ledger := ledger' } ref row) (hnil : w.live ref = []) :
    AllPosted { w with ledger := ledger' } := by
  refine ⟨fun e he => ?_, fun ref' => ?_⟩
  · simp only [hent, List.mem_append, List.mem_singleton] at he
    rcases he with he | rfl
    · obtain ⟨r, hp⟩ := h.posted e he
      exact ⟨r, hp.live, hp.states, hp.named⟩
    · exact ⟨ref, hrow⟩
  · have hone := h.one_live ref'
    rw [World.live, liveEntries_append hent, List.length_append]
    by_cases hr : isLiveEntryOf ref'.1.text ref'.2 row = true
    · obtain rfl := isLiveEntryOf_unique hrow.live hr
      have hlen : (liveEntries w.ledger.toJournal ref.1.text ref.2).length = 0 := by
        rw [show liveEntries w.ledger.toJournal ref.1.text ref.2 = [] from hnil]
        rfl
      rw [hlen, if_pos hr]
      simp
    · rw [if_neg hr]
      exact hone

theorem Sweeping.step {ledger : Ledger} (h : Sweeping hash w ledger)
    (hno : hasEntry w.ledger.toJournal ref = false) :
    Sweeping hash w (evaluate hash { w with ledger := ledger }
      (inputFor ref (sweepOptions w.setup))).2 := by
  rcases hlive : liveEntryOf { w with ledger := ledger } (inputFor ref (sweepOptions w.setup))
    with _ | e
  · rcases @evaluate_unposted hash _ _ hlive with
      ⟨-, hsame⟩ | ⟨-, fact, book, resolved, built, p, hentry⟩
    · rw [hsame]
      exact h
    · refine ⟨h.all.append hentry.entries hentry.posted (List.getLast?_eq_none_iff.1 hlive), ?_⟩
      intro e he
      rw [hentry.entries, List.mem_append, List.mem_singleton] at he
      rcases he with he | rfl
      · exact h.current e he
      · exact .inr ⟨ref, fact, book, resolved, hentry.judged, hentry.posted.live, hentry.isCurrent⟩
  · obtain ⟨hmem, hl⟩ := mem_liveEntries.1 (List.mem_of_getLast? hlive)
    rcases h.current e hmem with hold | ⟨ref', fact, book, resolved, hjudge, hl', hcur⟩
    · rw [hasEntry_of_live hold hl] at hno
      cases hno
    · obtain rfl := isLiveEntryOf_unique hl' hl
      rw [evaluate_current (w := { w with ledger := ledger }) hjudge hlive hcur]
      exact h

theorem Sweeping.batch : ∀ {refs : List FactRef} {ledger : Ledger}, Sweeping hash w ledger →
    (∀ ref ∈ refs, hasEntry w.ledger.toJournal ref = false) →
      Sweeping hash w (evaluateFacts hash (sweepOptions w.setup) { w with ledger := ledger }
        (names refs)).2
  | [], ledger, h, _ => h
  | ref :: refs, ledger, h, hno => by
    obtain ⟨hhead, htail⟩ := List.forall_mem_cons.1 hno
    have hstep := h.step hhead
    have heq : names (ref :: refs) = (ref.1.text, ref.2) :: names refs := rfl
    rw [heq]
    rcases heval : evaluate hash { w with ledger := ledger } (inputFor ref (sweepOptions w.setup))
      with ⟨err | o, ledger₁⟩
    · rw [evaluateFacts_cons_error heval]
      rwa [heval] at hstep
    · rw [evaluateFacts_cons_ledger heval]
      rw [heval] at hstep
      exact hstep.batch htail

theorem AllPosted.swept (h : AllPosted w) (limit : ℕ) : AllPosted (w.swept hash limit) := by
  have hstart : Sweeping hash w w.ledger := ⟨h, fun e he => .inl he⟩
  refine (hstart.batch fun ref hr => ?_).all
  exact (mem_queue.1 (List.mem_of_mem_take hr)).2

end Batch

section History

variable {hash : FingerprintHash} {w : World} {limit : ℕ}

/-- Any order of edits of the fact tables that pass the guard and of runs of the sweep. -/
inductive SweepHistory (hash : FingerprintHash) (guard : World → FactTables → Prop) :
    World → Prop
  | start (setup : Setup) (tables : FactTables) (rules : RuleBase) :
      SweepHistory hash guard ⟨setup, tables, rules, Ledger.empty⟩
  | edit {w : World} {tables : FactTables} (history : SweepHistory hash guard w)
      (guarded : guard w tables) : SweepHistory hash guard { w with tables := tables }
  | sweep {w : World} (history : SweepHistory hash guard w) (limit : ℕ) :
      SweepHistory hash guard (runAccountingPostFactsSweep hash w limit).2

def KeepsCalls (w : World) (tables : FactTables) : Prop :=
  ∀ ref, hasEntry w.ledger.toJournal ref = true →
    World.callsFor { w with tables := tables } ref = w.callsFor ref

/-- In the queue, each fact that calls for an entry has fewer than `limit` facts before it that
call for none. -/
def Unstarved (w : World) (limit : ℕ) : Prop :=
  ∀ before ref after, w.queue = before ++ ref :: after → (w.callsFor ref).isSome →
    (before.filter fun r => (w.callsFor r).isNone).length < max 1 limit

def SeededOrEmpty (w : World) : Prop := w.ledger.entries = [] ∨ Seeded w.rules

theorem seeded_of_seeded (h : Seeded w.rules) : w.seeded = w := by
  unfold World.seeded
  rw [seedDefaultRules_of_seeded h]

theorem seeded_edit {tables : FactTables} (h : Seeded w.rules) :
    World.seeded { w with tables := tables } = { w with tables := tables } :=
  seeded_of_seeded h

theorem seeded_rules (w : World) : Seeded w.seeded.rules := by
  obtain ⟨rules, hrules⟩ := seedDefaultRules_returns w.rules
  unfold World.seeded
  rw [hrules]
  exact seeded_of_seed hrules

theorem allPosted_of_entries_nil (h : w.ledger.entries = []) : AllPosted w := by
  refine ⟨fun e he => ?_, fun ref => ?_⟩
  · rw [h] at he
    cases he
  · simp [World.live, liveEntries, h]

theorem AllPosted.seed (h : AllPosted w) (hs : SeededOrEmpty w) : AllPosted w.seeded := by
  rcases hs with hnil | hseeded
  · refine allPosted_of_entries_nil ?_
    rw [seeded_ledger]
    exact hnil
  · rw [seeded_of_seeded hseeded]
    exact h

theorem SweepHistory.allPosted : ∀ {w : World}, SweepHistory hash KeepsCalls w →
    AllPosted w ∧ SeededOrEmpty w
  | _, .start setup tables rules => ⟨allPosted_of_entries_nil rfl, .inl rfl⟩
  | _, @SweepHistory.edit _ _ w tables history keeps => by
    obtain ⟨h, hs⟩ := history.allPosted
    refine ⟨⟨fun e he => ?_, h.one_live⟩, hs⟩
    obtain ⟨ref, hp⟩ := h.posted e he
    obtain ⟨call, hcall, hstates⟩ := hp.states
    refine ⟨ref, hp.live, ⟨call, ?_, hstates⟩, hp.named⟩
    rw [keeps ref (hasEntry_of_live he hp.live)]
    exact hcall
  | _, .sweep history limit => by
    obtain ⟨h, hs⟩ := history.allPosted
    rw [run_eq]
    exact ⟨(h.seed hs).swept limit, .inr (seeded_rules _)⟩

variable {ref : FactRef}

theorem callsFor_of_posts (h : w.posts hash ref = true)
    (hno : hasEntry w.ledger.toJournal ref = false) : (w.callsFor ref).isSome := by
  rcases evaluate_unposted (liveEntryOf_of_not_hasEntry (sweepOptions w.setup) hno) with
    ⟨hp, -⟩ | ⟨-, fact, book, resolved, built, p, hentry⟩
  · rw [World.posts, hp] at h
    cases h
  · obtain ⟨call, hcall, -⟩ := hentry.posted.states
    have hcall' : w.callsFor ref = some call := hcall
    rw [hcall']
    rfl

theorem AllPosted.posts (h : AllPosted w) (hno : hasEntry w.ledger.toJournal ref = false)
    (hcalls : (w.callsFor ref).isSome)
    (hreturn : Returns hash w (inputFor ref (sweepOptions w.setup))) :
    w.posts hash ref = true := by
  have hlive := liveEntryOf_of_not_hasEntry (sweepOptions w.setup) hno
  unfold World.callsFor at hcalls
  split at hcalls
  · rename_i fact book resolved hjudge
    unfold Returns at hreturn
    rw [hjudge, hlive] at hreturn
    obtain ⟨built, hbuilt, hpass⟩ := hreturn
    rw [hbuilt] at hcalls
    have hlen : ¬ built.length < 2 := by
      intro hlt
      simp [hlt] at hcalls
    obtain ⟨posted, ledger', hpost⟩ := post_returns_iff.2 (hpass.resolve_left hlen)
    have hfresh : posted.reused = false := by
      obtain ⟨_, -, -, hcase⟩ := (post_eq_ok hash).1 hpost
      rcases hcase with ⟨existing, hfound, -⟩ | ⟨-, p, -, rfl, -⟩
      · obtain ⟨hmem, hkey⟩ := existingByPostingKey_some hfound
        obtain ⟨ref', hp⟩ := h.posted existing hmem
        obtain ⟨htype, hid, -⟩ := read_stamp (judge_postable.1 hjudge).1
        have hname : Names ref (mintedKey hash fact resolved) := by
          refine ⟨resolved.rule.code, resolved.version.version, _,
            fingerprint_hex hash fact resolved, ?_⟩
          rw [mintedKey, htype, hid]
          rfl
        obtain rfl := (hp.named _ hkey).unique hname
        rw [hasEntry_of_live hmem hp.live] at hno
        cases hno
      · rfl
    have heval : evaluate hash w (inputFor ref (sweepOptions w.setup)) =
        enter w.setup w.ledger (inputFor ref (sweepOptions w.setup)) fact book resolved
          (fingerprintFact hash fact resolved) := by
      simp only [evaluate, hjudge, settle, existingEntryFor_of_read (judge_postable.1 hjudge).1,
        hlive]
    unfold enter at heval
    simp only [hbuilt, if_neg hlen, hpost, hfresh, Bool.false_eq_true, if_false] at heval
    unfold World.posts Loxep.posts
    rw [evaluateFact_of_returned (congrArg Prod.fst heval)]
    rfl
  · cases hcalls

theorem allReturn_stuck {options : EvaluateOptions} :
    ∀ {refs : List FactRef} {rest : List (String × FactId)},
      AllReturn hash options w (names refs ++ rest) → (∀ r ∈ refs, Stuck hash options w r) →
        (∀ r ∈ refs, Returns hash w (inputFor r options)) ∧ AllReturn hash options w rest
  | [], rest, h, _ => ⟨by simp, h⟩
  | r :: refs, rest, h, hstuck => by
    obtain ⟨hhead, htail⟩ := List.forall_mem_cons.1 hstuck
    obtain ⟨hreturn, hrest⟩ : Returns hash w (inputFor r options)
      ∧ AllReturn hash options
        { w with ledger := (evaluateFact hash w (inputFor r options)).2 } (names refs ++ rest) := h
    rw [evaluateFact_ledger, hhead.ledger] at hrest
    obtain ⟨hall, hlast⟩ := allReturn_stuck hrest htail
    exact ⟨List.forall_mem_cons.2 ⟨hreturn, hall⟩, hlast⟩

theorem AllPosted.nothing_called (h : AllPosted w) (hreach : Unstarved w limit)
    (hreturn : AllReturn hash (sweepOptions w.setup) w (names (w.queue.take (max 1 limit))))
    (hsame : w.swept hash limit = w) (hno : hasEntry w.ledger.toJournal ref = false) :
    w.callsFor ref = none := by
  by_contra hcalls
  have hisSome : (w.callsFor ref).isSome := Option.isSome_iff_ne_none.2 hcalls
  have hqueue : ref ∈ w.queue := by
    unfold World.callsFor at hisSome
    split at hisSome
    · rename_i fact book resolved hjudge
      obtain ⟨hread, hok, -⟩ := judge_postable.1 hjudge
      obtain ⟨htype, -, hreadable⟩ := read_stamp hread
      have htype' : fact.sourceFactType = ref.1 := ReadableSourceFactType.text_injective htype
      rw [htype'] at hreadable
      exact mem_queue.2 ⟨mem_backlogIds hreadable hok, hno⟩
    · cases hisSome
  -- the first fact of the queue that calls for an entry
  have hfind : (w.queue.find? fun r => (w.callsFor r).isSome).isSome := by
    rw [List.find?_isSome]
    exact ⟨ref, hqueue, hisSome⟩
  obtain ⟨first, hfirst⟩ := Option.isSome_iff_exists.1 hfind
  obtain ⟨hp, before, after, hsplit, hbefore⟩ := List.find?_eq_some_iff_append.1 hfirst
  have hnone : ∀ r ∈ before, (w.callsFor r).isNone = true := fun r hr => by
    simpa using hbefore r hr
  have hlen : before.length < max 1 limit := by
    have := hreach before first after hsplit hp
    rwa [List.filter_eq_self.2 hnone] at this
  have hmem : ∀ r ∈ before, hasEntry w.ledger.toJournal r = false := fun r hr =>
    (mem_queue.1 (hsplit ▸ List.mem_append_left _ hr)).2
  have hstill : ∀ r ∈ before, w.posts hash r = false := by
    intro r hr
    rw [Bool.eq_false_iff]
    intro hposts
    have := callsFor_of_posts hposts (hmem r hr)
    have hn := hnone r hr
    rw [Option.isNone_iff_eq_none] at hn
    rw [hn] at this
    cases this
  have hfirstno : hasEntry w.ledger.toJournal first = false :=
    (mem_queue.1 (hsplit ▸ List.mem_append_right _ List.mem_cons_self)).2
  obtain ⟨n, hn⟩ := Nat.exists_eq_add_of_lt hlen
  have htake : w.queue.take (max 1 limit) = before ++ first :: after.take n := by
    rw [hsplit, List.take_append, List.take_of_length_le hlen.le, hn]
    have hsub : before.length + n + 1 - before.length = n + 1 := by omega
    rw [hsub, List.take_succ_cons]
  rw [htake, names, List.map_append, List.map_cons] at hreturn
  obtain ⟨hall, hlast⟩ := allReturn_stuck hreturn (queue_stuck hsplit hstill)
  have hposts := h.posts hfirstno hp hlast.1
  have hgrow := batch_grows hsplit hposts hstill hlen hall
  rw [hsame] at hgrow
  exact lt_irrefl _ hgrow

/-- At a fixpoint of the sweep the books are right: a run that changes nothing and has no fact of
its batch raise, after a history whose edits left posted facts alone, with nothing starved. -/
theorem fixpoint_right (history : SweepHistory hash KeepsCalls w)
    (hreturns : AllReturn hash (sweepOptions w.setup) w (names (w.queue.take (max 1 limit))))
    (hfix : (runAccountingPostFactsSweep hash w limit).2 = w) (hreach : Unstarved w limit) :
    Right w := by
  obtain ⟨h, hs⟩ := history.allPosted
  have hseeded : w.seeded = w := by
    rw [run_eq] at hfix
    have hrules := congrArg World.rules hfix
    exact seeded_of_seeded (hrules ▸ seeded_rules w)
  have hsame : w.swept hash limit = w := by
    rw [run_eq, hseeded] at hfix
    exact hfix
  exact h.right fun ref hno => h.nothing_called hreach hreturns hsame hno

end History

namespace Small

def voided : FactTables := tables [expense 0 .void (100 * moneyUnits) ⟨2026, 1, 15⟩]

def sweptOnce (w : World) : World := (runAccountingPostFactsSweep hash w defaultPostFactsLimit).2

theorem sweptOnce_seeded (w : World) : Seeded (sweptOnce w).rules := by
  unfold sweptOnce
  rw [run_eq]
  exact seeded_rules w

theorem sweptOnce_history {guard : World → FactTables → Prop} {w : World}
    (history : SweepHistory hash guard w) : SweepHistory hash guard (sweptOnce w) :=
  .sweep history _

def voidedAfterSweep : World := { sweptOnce (world [recorded 0 100]) with tables := voided }

end Small

theorem voided_keeps_entry :
    SweepHistory Small.hash (fun _ _ => True) Small.voidedAfterSweep
      ∧ (∃ result, (runAccountingPostFactsSweep Small.hash Small.voidedAfterSweep
        defaultPostFactsLimit).1 = .ok result)
      ∧ (runAccountingPostFactsSweep Small.hash Small.voidedAfterSweep defaultPostFactsLimit).2 =
        Small.voidedAfterSweep
      ∧ ¬ Right Small.voidedAfterSweep := by
  have hseeded : Small.voidedAfterSweep.seeded = Small.voidedAfterSweep := by
    unfold Small.voidedAfterSweep
    exact seeded_edit (Small.sweptOnce_seeded _)
  obtain ⟨hempty, hcalls, hlive⟩ : Small.voidedAfterSweep.queue.isEmpty = true
      ∧ (Small.voidedAfterSweep.callsFor (.expense, 0)).isNone = true
      ∧ Small.voidedAfterSweep.live (.expense, 0) ≠ [] := by decide +kernel
  have hqueue : Small.voidedAfterSweep.queue = [] := List.isEmpty_iff.1 hempty
  refine ⟨.edit (Small.sweptOnce_history (.start _ _ _)) trivial, ?_, ?_, ?_⟩
  · exact run_returns_of_queue_nil (hseeded.symm ▸ hqueue)
  · rw [run_eq, hseeded, swept_of_queue_nil hqueue]
  · intro hright
    have := hright (.expense, 0)
    rw [Option.isNone_iff_eq_none.1 hcalls] at this
    exact hlive this

theorem swept_expense_right : Right (Small.sweptOnce (Small.world [Small.recorded 0 100])) := by
  have hseeded := seeded_of_seeded (Small.sweptOnce_seeded (Small.world [Small.recorded 0 100]))
  have hqueue : (Small.sweptOnce (Small.world [Small.recorded 0 100])).queue = [] :=
    List.isEmpty_iff.1 (by decide +kernel)
  have hfix : (runAccountingPostFactsSweep Small.hash (Small.sweptOnce (Small.world
      [Small.recorded 0 100])) defaultPostFactsLimit).2 =
        Small.sweptOnce (Small.world [Small.recorded 0 100]) := by
    rw [run_eq, hseeded, swept_of_queue_nil hqueue]
  have hreach : Unstarved (Small.sweptOnce (Small.world [Small.recorded 0 100]))
      defaultPostFactsLimit := by
    intro before ref after hsplit
    rw [hqueue] at hsplit
    simp at hsplit
  exact fixpoint_right (Small.sweptOnce_history (.start _ _ _)) (allReturn_of_queue_nil hqueue)
    hfix hreach

end Loxep

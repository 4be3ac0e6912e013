import Loxep.Proofs.EngineFailures

/-!
# One live entry under concurrent evaluations

An evaluation decides on what it read and posts later. Nothing in the engine prevents that: the
posting key is unique for one state of the fact.
-/

namespace Loxep

section Advance

variable {hash : FingerprintHash} {w : World}

def Quiet : Stage → Prop
  | .correcting .. => False
  | .posting .. => False
  | _ => True

/-- What a step reads or writes, and where it leaves the evaluation. -/
inductive Advances (hash : FingerprintHash) (w : World) : Stage → Stage → Ledger → Prop
  | rests {stage stage' : Stage} (quiet : Quiet stage') : Advances hash w stage stage' w.ledger
  | foundNone {input : EvaluateFactInput} {fact : SourceFact} {book : AccountingBookRow}
      {resolved : ResolvedPostingRule}
      (none_live : existingEntryFor w.ledger.toJournal fact = none) :
      Advances hash w (.resolved input fact book resolved)
        (.posting input fact book resolved w.ledger.entries.length) w.ledger
  | foundStale {input : EvaluateFactInput} {fact : SourceFact} {book : AccountingBookRow}
      {resolved : ResolvedPostingRule} {existing : JournalEntryRow}
      (live : existingEntryFor w.ledger.toJournal fact = some existing) :
      Advances hash w (.resolved input fact book resolved)
        (.correcting input fact book resolved existing w.ledger.entries.length) w.ledger
  | withdrew {input : EvaluateFactInput} {fact : SourceFact} {reason : String}
      {posted : JournalEntryRow} {reversal : PostedEntry} {ledger' : Ledger}
      (reversed : reverseEntry w.setup w.ledger (withdrawalInput input fact reason posted) =
        .ok (reversal, ledger')) :
      Advances hash w (.withdrawing input fact reason posted) .finished ledger'
  | corrected {input : EvaluateFactInput} {fact : SourceFact} {book : AccountingBookRow}
      {resolved : ResolvedPostingRule} {existing : JournalEntryRow} {seen : ℕ}
      {reversal : PostedEntry} {ledger' : Ledger}
      (reversed : reverseEntry w.setup w.ledger (correctionInput input fact resolved
        (fingerprintFact hash fact resolved) existing) = .ok (reversal, ledger')) :
      Advances hash w (.correcting input fact book resolved existing seen)
        (.posting input fact book resolved seen) ledger'
  | posted {input : EvaluateFactInput} {fact : SourceFact} {book : AccountingBookRow}
      {resolved : ResolvedPostingRule} {seen : ℕ} {posted : PostedEntry} {ledger' : Ledger}
      (post_ok : post w.setup w.ledger fact book resolved (fingerprintFact hash fact resolved)
        input.allowBackdated = .ok (posted, ledger')) :
      Advances hash w (.posting input fact book resolved seen) .finished ledger'

theorem lookUp_advances {input : EvaluateFactInput} {fact : SourceFact} {book : AccountingBookRow}
    {resolved : ResolvedPostingRule} :
    Advances hash w (.resolved input fact book resolved)
      (lookUp hash w input fact book resolved) w.ledger := by
  unfold lookUp
  split
  · rename_i hnone
    split
    · exact .rests trivial
    · split_ifs
      · exact .rests trivial
      · exact .foundNone hnone
  · rename_i hsome
    split_ifs
    · exact .rests trivial
    · exact .foundStale hsome

theorem advance_advances : ∀ stage : Stage,
    Advances hash w stage (advance hash w stage).1 (advance hash w stage).2
  | .idle => .rests trivial
  | .started input => by
    unfold advance
    simp only []
    split <;> exact .rests trivial
  | .excluded input fact reason => by
    unfold advance
    simp only []
    split <;> exact .rests trivial
  | .resolved input fact book resolved => lookUp_advances
  | .withdrawing input fact reason posted => by
    unfold advance
    simp only []
    split
    · exact .rests trivial
    · exact .withdrew ‹_›
  | .correcting input fact book resolved existing seen => by
    unfold advance
    simp only []
    split
    · exact .rests trivial
    · exact .corrected ‹_›
  | .posting input fact book resolved seen => by
    unfold advance
    simp only []
    split
    · exact .rests trivial
    · exact .posted ‹_›
  | .finished => .rests trivial

end Advance

section Sound

variable (ref : FactRef) (w : World)

def Looked (seen : ℕ) (spared : Option EntryId) : Prop :=
  seen ≤ w.ledger.entries.length ∧ ∀ e ∈ w.live ref, e.id < seen → spared = some e.id

def StageSound : Stage → Prop
  | .correcting _ fact _ _ existing seen =>
    (fact.sourceFactType, fact.sourceFactId) = ref → Looked ref w seen (some existing.id)
  | .posting _ fact _ _ seen =>
    (fact.sourceFactType, fact.sourceFactId) = ref → Looked ref w seen none
  | _ => True

structure Sound (s : System) : Prop where
  stamped : Stamped s.world.ledger.toJournal
  stages : ∀ run, StageSound ref s.world (s.stage run)

def SingleLive (s : System) : Prop := (s.world.live ref).length ≤ 1

variable {ref w} {ledger' : Ledger}

theorem Quiet.sound {stage : Stage} (h : Quiet stage) : StageSound ref w stage := by
  cases stage <;> trivial

structure Grew (ref : FactRef) (w : World) (ledger' : Ledger) : Prop where
  length : w.ledger.entries.length ≤ ledger'.entries.length
  live : ∀ e ∈ liveEntries ledger'.toJournal ref.1.text ref.2,
    e ∈ w.live ref ∨ w.ledger.entries.length ≤ e.id

theorem Looked.grew (hg : Grew ref w ledger') {seen : ℕ} {spared : Option EntryId}
    (h : Looked ref w seen spared) : Looked ref { w with ledger := ledger' } seen spared := by
  refine ⟨h.1.trans hg.length, fun e he hlt => ?_⟩
  rcases hg.live e he with hlive | hnew
  · exact h.2 e hlive hlt
  · exact absurd (hlt.trans_le h.1) (not_lt.2 hnew)

theorem StageSound.grew (hg : Grew ref w ledger') :
    ∀ {stage : Stage}, StageSound ref w stage → StageSound ref { w with ledger := ledger' } stage
  | .correcting .., h => fun href => (h href).grew hg
  | .posting .., h => fun href => (h href).grew hg
  | .idle, _ => trivial
  | .started _, _ => trivial
  | .excluded .., _ => trivial
  | .resolved .., _ => trivial
  | .withdrawing .., _ => trivial
  | .finished, _ => trivial

theorem live_of_ref {fact : SourceFact} (href : (fact.sourceFactType, fact.sourceFactId) = ref) :
    w.live ref = liveEntries w.ledger.toJournal fact.sourceFactType.text fact.sourceFactId := by
  rw [← href]
  rfl

end Sound

section Step

variable {hash : FingerprintHash} {ref : FactRef}

/-- The evaluation's posting passes every check under a new key, while an entry posted since its
look-up is live. -/
def Overtaken (hash : FingerprintHash) (ref : FactRef) (s : System) : Action → Prop
  | .proceed run =>
    match s.stage run with
    | .posting input fact book resolved seen =>
      (fact.sourceFactType, fact.sourceFactId) = ref ∧
        PostingPasses hash s.world.setup s.world.ledger.toJournal fact book resolved
          input.allowBackdated ∧
        s.world.ledger.existingByPostingKey (mintedKey hash fact resolved) = none ∧
        ∃ e ∈ s.world.live ref, seen ≤ e.id
    | _ => False
  | _ => False

variable {w : World} {ledger' : Ledger}

theorem grew_of_reversal (hst : Stamped w.ledger.toJournal) {value : ReverseEntryInput}
    {reversal : PostedEntry} (h : reverseEntry w.setup w.ledger value = .ok (reversal, ledger')) :
    Stamped ledger'.toJournal ∧ Grew ref w ledger' ∧
      (liveEntries ledger'.toJournal ref.1.text ref.2).length ≤ (w.live ref).length ∧
      ∀ e ∈ liveEntries ledger'.toJournal ref.1.text ref.2,
        e ∈ w.live ref ∧ e.id ≠ value.journalEntryId := by
  obtain ⟨hst', hlen, hlive⟩ := reverseEntry_live hst h
  have hmem : ∀ e ∈ liveEntries ledger'.toJournal ref.1.text ref.2,
      e ∈ w.live ref ∧ e.id ≠ value.journalEntryId := by
    intro e he
    rw [hlive, List.mem_filter] at he
    exact ⟨he.1, by simpa using he.2⟩
  refine ⟨hst', ⟨hlen, fun e he => .inl (hmem e he).1⟩, ?_, hmem⟩
  rw [hlive]
  exact List.length_filter_le _ _

variable {posted : PostedEntry}

theorem grew_of_posting (hst : Stamped w.ledger.toJournal) {fact : SourceFact}
    {book : AccountingBookRow} {resolved : ResolvedPostingRule} {allow : Bool}
    (h : post w.setup w.ledger fact book resolved (fingerprintFact hash fact resolved) allow =
      .ok (posted, ledger')) : Stamped ledger'.toJournal ∧ Grew ref w ledger' := by
  rcases post_live_append h with ⟨-, rfl⟩ | ⟨-, row, hent, hid, hrow⟩
  · exact ⟨hst, le_rfl, fun e he => .inl he⟩
  · refine ⟨hst.append hent (isLiveEntryOf_iff.1 hrow).2.2.2.2, ?_, fun e he => ?_⟩
    · rw [hent, List.length_append]
      omega
    · rw [liveEntries_append hent, List.mem_append] at he
      rcases he with he | he
      · exact .inl he
      · split_ifs at he
        · rw [List.mem_singleton.1 he, hid]
          exact .inr le_rfl
        · cases he

theorem live_of_posting {fact : SourceFact} {book : AccountingBookRow}
    {resolved : ResolvedPostingRule} {allow : Bool}
    (h : post w.setup w.ledger fact book resolved (fingerprintFact hash fact resolved) allow =
      .ok (posted, ledger')) :
    (liveEntries ledger'.toJournal ref.1.text ref.2).length =
      (w.live ref).length +
        if (fact.sourceFactType, fact.sourceFactId) = ref ∧
          w.ledger.existingByPostingKey (mintedKey hash fact resolved) = none then 1 else 0 := by
  rcases post_live_append h with ⟨hkey, rfl⟩ | ⟨hkey, row, hent, -, hrow⟩
  · rw [if_neg (fun hc => hkey hc.2)]
    rfl
  · rw [liveEntries_append hent, List.length_append]
    by_cases href : (fact.sourceFactType, fact.sourceFactId) = ref
    · subst href
      rw [if_pos hrow, if_pos ⟨rfl, hkey⟩]
      rfl
    · have hother : ¬ isLiveEntryOf ref.1.text ref.2 row = true := fun hc => href
        (@isLiveEntryOf_unique row (fact.sourceFactType, fact.sourceFactId) ref hrow hc)
      rw [if_neg hother, if_neg (fun hc => href hc.1)]
      rfl

theorem sound_initial {setup : Setup} {tables : FactTables} {rules : RuleBase} :
    Sound ref (System.initial setup tables rules) :=
  ⟨by simp [Stamped, System.initial, Ledger.empty], fun _ => trivial⟩

theorem singleLive_initial {setup : Setup} {tables : FactTables} {rules : RuleBase} :
    SingleLive ref (System.initial setup tables rules) := by
  simp [SingleLive, System.initial, World.live, liveEntries, Ledger.empty]

variable {s : System}

theorem Sound.setStage (h : Sound ref s) {run : RunId} {stage : Stage}
    (hq : StageSound ref s.world stage) : Sound ref (s.setStage run stage) := by
  refine ⟨h.stamped, fun r => ?_⟩
  simp only [System.setStage]
  split_ifs
  · exact hq
  · exact h.stages r

theorem Sound.proceed (h : Sound ref s) {run : RunId} {stage' : Stage}
    (hst : Stamped ledger'.toJournal) (hg : Grew ref s.world ledger')
    (hnext : StageSound ref { s.world with ledger := ledger' } stage') :
    Sound ref { s.setStage run stage' with world := { s.world with ledger := ledger' } } := by
  refine ⟨hst, fun r => ?_⟩
  simp only [System.setStage]
  split_ifs
  · exact hnext
  · exact (h.stages r).grew hg

theorem live_le_one (h : (w.live ref).length ≤ 1) {e : JournalEntryRow}
    (he : (w.live ref).getLast? = some e) : ∀ x ∈ w.live ref, x = e := by
  intro x hx
  rcases hl : w.live ref with _ | ⟨y, _ | ⟨z, l⟩⟩
  · rw [hl] at hx
    cases hx
  · rw [hl] at he hx
    simp only [List.getLast?_singleton, Option.some.injEq] at he
    rw [List.mem_singleton.1 hx, he]
  · rw [hl] at h
    simp at h

theorem Sound.step (h : Sound ref s) (hone : SingleLive ref s) :
    ∀ a : Action, Sound ref (s.step hash a)
  | .edit tables => ⟨h.stamped, fun run => (h.stages run).grew ⟨le_rfl, fun e he => .inl he⟩⟩
  | .start run input => by
    unfold System.step
    simp only []
    split
    · exact h.setStage trivial
    · exact h
  | .abort run => by
    unfold System.step
    simp only []
    split
    · exact h
    · exact h.setStage trivial
  | .proceed run => by
    have hstep : Advances hash s.world (s.stage run) (advance hash s.world (s.stage run)).1
      (advance hash s.world (s.stage run)).2 := advance_advances _
    have hsame : Grew ref s.world s.world.ledger := ⟨le_rfl, fun e he => .inl he⟩
    have hstage := h.stages run
    unfold System.step
    simp only []
    generalize (advance hash s.world (s.stage run)).1 = stage' at hstep ⊢
    generalize (advance hash s.world (s.stage run)).2 = ledger' at hstep ⊢
    generalize s.stage run = stage at hstep hstage
    cases hstep with
    | rests quiet => exact h.proceed h.stamped hsame quiet.sound
    | @foundNone input fact book resolved none_live =>
      refine h.proceed h.stamped hsame fun href => ⟨le_rfl, fun e he _ => ?_⟩
      have hnil : s.world.live ref = [] := by
        rw [live_of_ref href]
        rw [existingEntryFor_eq] at none_live
        exact List.getLast?_eq_none_iff.1 none_live
      change e ∈ s.world.live ref at he
      rw [hnil] at he
      cases he
    | @foundStale input fact book resolved existing live =>
      refine h.proceed h.stamped hsame fun href => ⟨le_rfl, fun e he _ => ?_⟩
      rw [existingEntryFor_eq, ← live_of_ref href] at live
      rw [live_le_one hone live e he]
    | withdrew reversed =>
      obtain ⟨hst, hg, -⟩ := grew_of_reversal h.stamped reversed
      exact h.proceed hst hg trivial
    | @corrected input fact book resolved existing seen reversal ledger' reversed =>
      obtain ⟨hst, hg, -, hleft⟩ := grew_of_reversal h.stamped reversed
      refine h.proceed hst hg fun href => ⟨(hstage href).1.trans hg.length, fun e he hlt => ?_⟩
      obtain ⟨hlive, hne⟩ := hleft e he
      have hspared := (hstage href).2 e hlive hlt
      exact absurd (Option.some.inj hspared).symm hne
    | posted post_ok =>
      obtain ⟨hst, hg⟩ := grew_of_posting h.stamped post_ok
      exact h.proceed hst hg trivial

theorem Advances.live_le {stage stage' : Stage} (h : Advances hash w stage stage' ledger')
    (hst : Stamped w.ledger.toJournal)
    (hno : ∀ input fact book resolved seen, stage ≠ .posting input fact book resolved seen) :
    (liveEntries ledger'.toJournal ref.1.text ref.2).length ≤ (w.live ref).length := by
  cases h with
  | rests _ => exact le_rfl
  | foundNone _ => exact le_rfl
  | foundStale _ => exact le_rfl
  | withdrew reversed => exact (grew_of_reversal hst reversed).2.2.1
  | corrected reversed => exact (grew_of_reversal hst reversed).2.2.1
  | posted _ => exact absurd rfl (hno _ _ _ _ _)

theorem singleLive_posting_iff {input : EvaluateFactInput} {fact : SourceFact}
    {book : AccountingBookRow} {resolved : ResolvedPostingRule} {seen : ℕ}
    (hone : (w.live ref).length ≤ 1)
    (hsound : StageSound ref w (.posting input fact book resolved seen)) :
    (liveEntries (advance hash w (.posting input fact book resolved seen)).2.toJournal
      ref.1.text ref.2).length ≤ 1 ↔
      ¬ ((fact.sourceFactType, fact.sourceFactId) = ref ∧
        PostingPasses hash w.setup w.ledger.toJournal fact book resolved input.allowBackdated ∧
        w.ledger.existingByPostingKey (mintedKey hash fact resolved) = none ∧
        ∃ e ∈ w.live ref, seen ≤ e.id) := by
  unfold advance
  simp only []
  split
  · rename_i hpost
    refine iff_of_true hone fun hover => ?_
    obtain ⟨posted, ledger', hok⟩ := post_returns_iff.2 hover.2.1
    rw [hpost] at hok
    cases hok
  · rename_i posted ledger' hpost
    rw [live_of_posting hpost]
    by_cases hnew : (fact.sourceFactType, fact.sourceFactId) = ref ∧
      w.ledger.existingByPostingKey (mintedKey hash fact resolved) = none
    · rw [if_pos hnew]
      have hpass := post_returns_iff.1 ⟨posted, ledger', hpost⟩
      rcases hl : w.live ref with _ | ⟨e, l⟩
      · simp
      · refine iff_of_false (by simp) (not_not.2 ⟨hnew.1, hpass, hnew.2, e, List.mem_cons_self, ?_⟩)
        have hnone := (hsound hnew.1).2 e (hl ▸ List.mem_cons_self)
        by_contra hlt
        cases hnone (not_le.1 hlt)
    · rw [if_neg hnew]
      exact iff_of_true hone fun hover => hnew ⟨hover.1, hover.2.2.1⟩

theorem singleLive_step_iff (h : Sound ref s) (hone : SingleLive ref s) (a : Action)
    : SingleLive ref (s.step hash a) ↔ ¬ Overtaken hash ref s a := by
  cases a with
  | edit tables => exact iff_of_true hone id
  | start run input =>
    refine iff_of_true ?_ id
    unfold System.step
    simp only []
    split <;> exact hone
  | abort run =>
    refine iff_of_true ?_ id
    unfold System.step
    simp only []
    split <;> exact hone
  | proceed run =>
    have hstep : Advances hash s.world (s.stage run) (advance hash s.world (s.stage run)).1
      (advance hash s.world (s.stage run)).2 := advance_advances _
    have hstage := h.stages run
    simp only [Overtaken]
    split
    · rename_i input fact book resolved seen hposting
      rw [hposting] at hstage
      have hiff := @singleLive_posting_iff hash ref _ input fact book resolved seen hone hstage
      rw [← hposting] at hiff
      exact hiff
    · rename_i hno
      refine iff_of_true ?_ id
      exact (hstep.live_le h.stamped fun input fact book resolved seen hposting =>
        hno input fact book resolved seen hposting).trans hone

end Step

section Runs

variable (hash : FingerprintHash) (ref : FactRef) (setup : Setup) (tables : FactTables)
  (rules : RuleBase) (actions : List Action)

/-- A fact has at most one live entry all along a run exactly when no evaluation in it posts a new
entry while one posted since its look-up is live. -/
theorem single_live_iff :
    Runs.Along (System.step hash) (SingleLive ref) (System.initial setup tables rules) actions ↔
      Runs.Meets (System.step hash) (fun s a => ¬ Overtaken hash ref s a)
        (System.initial setup tables rules) actions :=
  Runs.along_iff_meets (fun _ a h hone => h.step hone a)
    (fun _ a h hone => singleLive_step_iff h hone a) sound_initial singleLive_initial

/-- The world after so many steps of one evaluation with nothing in between. -/
def solo : ℕ → World → Stage → World
  | 0, w, _ => w
  | n + 1, w, stage =>
    solo n { w with ledger := (advance hash w stage).2 } (advance hash w stage).1

theorem run_solo (run : RunId) : ∀ (n : ℕ) (s : System),
    (Runs.run (System.step hash) s (List.replicate n (.proceed run))).world =
      solo hash n s.world (s.stage run)
  | 0, s => rfl
  | n + 1, s => by
    rw [List.replicate_succ, Runs.run_cons, run_solo run n]
    simp only [System.step, System.setStage, if_pos, solo]

theorem solo_finished (w : World) : ∀ n, (solo hash n w .finished).ledger = w.ledger
  | 0 => rfl
  | n + 1 => solo_finished w n

/-- The steps of one evaluation come to `evaluate`. -/
theorem solo_eq_evaluate (w : World) (input : EvaluateFactInput) :
    (solo hash 4 w (.started input)).ledger = (evaluate hash w input).2 := by
  rw [solo]
  simp only [advance, evaluate]
  rcases judge w.setup w.tables w.rules input with _ | _ | ⟨fact, reason⟩ | ⟨fact, book, resolved⟩
  · exact solo_finished hash w 3
  · exact solo_finished hash w 3
  · rw [solo]
    simp only [advance, withdraw]
    rcases existingEntryFor w.ledger.toJournal fact with _ | posted
    · exact solo_finished hash w 2
    · rw [solo]
      simp only [advance]
      rcases reverseEntry w.setup w.ledger (withdrawalInput input fact reason posted) with
        _ | ⟨reversal, ledger'⟩
      · exact solo_finished hash w 1
      · exact solo_finished hash { w with ledger := ledger' } 1
  · rw [solo]
    simp only [advance, settle, lookUp]
    rcases existingEntryFor w.ledger.toJournal fact with _ | existing
    · simp only [enter]
      rcases buildLines fact resolved with _ | built
      · exact solo_finished hash w 2
      · simp only []
        split_ifs
        · exact solo_finished hash w 2
        · rw [solo]
          simp only [advance]
          rcases post w.setup w.ledger fact book resolved (fingerprintFact hash fact resolved)
            input.allowBackdated with _ | ⟨posted, ledger'⟩
          · exact solo_finished hash w 1
          · exact solo_finished hash { w with ledger := ledger' } 1
    · simp only []
      split_ifs
      · exact solo_finished hash w 2
      · rw [solo]
        simp only [advance, correct]
        rcases reverseEntry w.setup w.ledger (correctionInput input fact resolved
          (fingerprintFact hash fact resolved) existing) with _ | ⟨reversal, ledger₁⟩
        · exact solo_finished hash w 1
        · rw [solo]
          simp only [advance]
          rcases post w.setup ledger₁ fact book resolved (fingerprintFact hash fact resolved)
            input.allowBackdated with _ | ⟨posted, ledger'⟩
          · rfl
          · rfl

/-- An evaluation that nobody interleaves with leaves the ledger `evaluateFact` leaves. -/
theorem run_alone (s : System) (run : RunId) (hidle : s.stage run = .idle)
    (input : EvaluateFactInput) :
    (Runs.run (System.step hash) s
      (.start run input :: List.replicate 4 (.proceed run))).world.ledger =
      (evaluateFact hash s.world input).2 := by
  rw [Runs.run_cons, run_solo, evaluateFact_ledger, ← solo_eq_evaluate]
  simp only [System.step, hidle, System.setStage, if_pos]

end Runs

namespace Small

def unevaluated : System := System.initial setup (tables [recorded 0 100]) rules

def race : List Action :=
  [.start 0 (inputFor (.expense, 0) options), .proceed 0, .proceed 0,
    .edit (tables [recorded 0 120]),
    .start 1 (inputFor (.expense, 0) options), .proceed 1, .proceed 1, .proceed 0, .proceed 1]

end Small

theorem race_posts_twice :
    ¬ SingleLive (.expense, 0) (Runs.run (System.step Small.hash) Small.unevaluated Small.race) ∧
      ((Runs.run (System.step Small.hash) Small.unevaluated Small.race).world.live
        (.expense, 0)).map (fun e => e.lines.map (·.amount)) =
        [[100 * (moneyUnits : ℤ), -100 * moneyUnits], [120 * (moneyUnits : ℤ), -120 * moneyUnits]] := by
  unfold SingleLive
  decide +kernel

theorem evaluated_alone : (Runs.run (System.step Small.hash) Small.unevaluated
    (.start 0 (inputFor (.expense, 0) Small.options) ::
      List.replicate 4 (.proceed 0))).world.ledger =
      (evaluateFact Small.hash Small.unevaluated.world
        (inputFor (.expense, 0) Small.options)).2 :=
  run_alone _ Small.unevaluated 0 rfl _

end Loxep

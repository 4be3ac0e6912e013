import Loxep.DocumentSessions
import Loxep.Lib.Runs

/-!
# A document's status is derived from its lines

The counts are cached by the transaction that changes the lines, as it has read them.
-/

namespace Loxep

open DocumentSystem

section Counts

variable {counts counts' : DocumentCounts} {status status' : DocumentStatus}

theorem deriveDocumentStatus_of_empty (h : counts.total = 0) :
    deriveDocumentStatus counts status = status := if_pos h

theorem deriveDocumentStatus_ne_discarded (h : counts.total ≠ 0) :
    deriveDocumentStatus counts status ≠ .discarded := by
  unfold deriveDocumentStatus
  rw [if_neg h]
  split_ifs <;> exact fun heq => nomatch heq

theorem deriveDocumentStatus_pending_ne_discarded :
    deriveDocumentStatus counts .pending ≠ .discarded := by
  by_cases h : counts.total = 0
  · rw [deriveDocumentStatus_of_empty h]
    exact fun heq => nomatch heq
  · exact deriveDocumentStatus_ne_discarded h

theorem deriveDocumentStatus_eq_iff (htotal : counts.total ≠ 0)
    (hsame : counts'.total = counts.total) (hconfirmed : counts'.confirmed = counts.confirmed) :
    deriveDocumentStatus counts status = deriveDocumentStatus counts' status' ↔
      (counts.pending = 0 ↔ counts'.pending = 0) := by
  unfold deriveDocumentStatus
  rw [hsame, hconfirmed, if_neg htotal, if_neg htotal]
  split_ifs with hpending hpending' <;> simp [*]

end Counts

/-- The cached counts and status are those of the lines; a discarded document has nothing pending
and nothing confirmed. -/
structure StatusDerived (document : StagedDocumentRow) (lines : List DocumentLineRow)
    (untouched : Bool) : Prop where
  lineCount : document.lineCount = (countLines lines).total
  confirmedCount : document.confirmedCount = (countLines lines).confirmed
  status : document.status = deriveDocumentStatus (countLines lines) .pending ∨
    document.status = .discarded ∧ untouched = true ∧
      (countLines lines).confirmed = 0 ∧ (countLines lines).pending = 0

namespace DocumentSystem

def Derived (s : DocumentSystem) : Prop := StatusDerived s.document s.lines s.untouched

/-- The counts a transaction has read are still those of the lines it leaves, as far as they are
cached; where it leaves none, the document was not under review. -/
def countsStand (status : DocumentStatus) (counts now : DocumentCounts) : Bool :=
  counts.total == now.total && counts.confirmed == now.confirmed &&
    if now.total = 0 then status == .pending || status == .discarded
    else decide (counts.pending = 0 ↔ now.pending = 0)

/-- No line is confirmed, and what is pending is among the lines that a discard has swept. -/
def sweepsAll (s : DocumentSystem) (done : List CandidateId) : Bool :=
  s.lines.all fun row => !row.isConfirmed && (done.contains row.id || !row.isPending)

def commitsDerived (s : DocumentSystem) : DocumentAction → Bool
  | .commit session =>
    match s.stage session with
    | .cached tx done counts =>
      s.missesReload tx done ||
        countsStand s.document.status counts (countLines (s.written tx done counts).lines)
    | .swept _ done => s.sweepsAll done
    | _ => true
  | _ => true

variable {s : DocumentSystem} {session : DocumentSessionId}
variable {parser : StoredMediaId → DocumentKind → ParseResult}

theorem written_document {tx : LineTransaction} {done : List LineWrite} {counts : DocumentCounts} :
    (s.written tx done counts).document.lineCount = counts.total ∧
      (s.written tx done counts).document.confirmedCount = counts.confirmed ∧
      (s.written tx done counts).document.status =
        deriveDocumentStatus counts s.document.status := by
  unfold written
  rcases tx.result with _ | result <;> exact ⟨rfl, rfl, rfl⟩

theorem statusDerived_written_iff (h : Derived s) {tx : LineTransaction} {done : List LineWrite}
    {counts : DocumentCounts} :
    Derived (s.written tx done counts) ↔
      countsStand s.document.status counts
        (countLines (s.written tx done counts).lines) = true := by
  obtain ⟨hlines, hconfirmed, hstatus⟩ := @written_document s tx done counts
  unfold countsStand
  simp only [Bool.and_eq_true, beq_iff_eq]
  by_cases hempty : (countLines (s.written tx done counts).lines).total = 0
  · rw [if_pos hempty, Bool.or_eq_true, beq_iff_eq, beq_iff_eq]
    have hnil : (s.written tx done counts).lines = [] := List.length_eq_zero_iff.1 hempty
    constructor
    · intro hafter
      have htotal := hlines.symm.trans hafter.lineCount
      refine ⟨⟨htotal, hconfirmed.symm.trans hafter.confirmedCount⟩, ?_⟩
      rw [deriveDocumentStatus_of_empty (htotal.trans hempty)] at hstatus
      rw [← hstatus]
      rcases hafter.status with heq | ⟨heq, -⟩
      · rw [deriveDocumentStatus_of_empty hempty] at heq
        exact Or.inl heq
      · exact Or.inr heq
    · rintro ⟨⟨htotal, hsame⟩, hbefore⟩
      refine ⟨hlines.trans htotal, hconfirmed.trans hsame, ?_⟩
      rw [hstatus, deriveDocumentStatus_of_empty (htotal.trans hempty),
        deriveDocumentStatus_of_empty hempty]
      rcases hbefore with heq | heq
      · exact Or.inl heq
      · have huntouched : s.untouched = true := by
          rcases h.status with hderived | ⟨-, huntouched, -⟩
          · exact absurd (hderived.symm.trans heq) deriveDocumentStatus_pending_ne_discarded
          · exact huntouched
        refine Or.inr ⟨heq, ?_, ?_⟩
        · show (s.untouched && !addsOrReopens s.lines (s.written tx done counts).lines) = true
          rw [huntouched, hnil]
          rfl
        · rw [hnil]
          exact ⟨rfl, rfl⟩
  · rw [if_neg hempty, decide_eq_true_iff]
    constructor
    · intro hafter
      have htotal := hlines.symm.trans hafter.lineCount
      have hsame := hconfirmed.symm.trans hafter.confirmedCount
      have hne : counts.total ≠ 0 := fun heq => hempty (htotal.symm.trans heq)
      refine ⟨⟨htotal, hsame⟩, ?_⟩
      rcases hafter.status with heq | ⟨heq, -⟩
      · exact (deriveDocumentStatus_eq_iff hne htotal.symm hsame.symm).1 (hstatus.symm.trans heq)
      · exact absurd (hstatus.symm.trans heq) (deriveDocumentStatus_ne_discarded hne)
    · rintro ⟨⟨htotal, hsame⟩, hpending⟩
      have hne : counts.total ≠ 0 := fun heq => hempty (htotal.symm.trans heq)
      refine ⟨hlines.trans htotal, hconfirmed.trans hsame, Or.inl (hstatus.trans ?_)⟩
      exact (deriveDocumentStatus_eq_iff hne htotal.symm hsame.symm).2 hpending

variable {reason : Option String}

theorem countLines_discarded {done : List CandidateId} :
    (countLines (s.discarded reason done).lines).total = (countLines s.lines).total ∧
      (countLines (s.discarded reason done).lines).confirmed = (countLines s.lines).confirmed := by
  constructor
  · exact List.length_map ..
  · show List.countP _ (List.map _ s.lines) = _
    rw [List.countP_map]
    refine List.countP_congr fun row _ => ?_
    simp only [Function.comp]
    split_ifs <;> rfl

theorem discarded_settled_iff {done : List CandidateId} :
    (countLines (s.discarded reason done).lines).confirmed = 0 ∧
      (countLines (s.discarded reason done).lines).pending = 0 ↔ s.sweepsAll done = true := by
  simp only [countLines, discarded, List.countP_map, List.countP_eq_zero, sweepsAll,
    List.all_eq_true, Function.comp_apply, ← forall₂_and]
  refine forall₂_congr fun row _ => ?_
  by_cases hmem : row.id ∈ done
  · simp [hmem, DocumentLineRow.isPending, DocumentLineRow.isConfirmed, DocumentLineRow.isResolved]
  · simp [hmem]

theorem statusDerived_discarded_iff (h : Derived s) {done : List CandidateId} :
    Derived (s.discarded reason done) ↔ s.sweepsAll done = true := by
  obtain ⟨htotal, hconfirmed⟩ := @countLines_discarded s reason done
  rw [← discarded_settled_iff]
  constructor
  · intro hafter
    rcases hafter.status with heq | ⟨-, -, hnone⟩
    · exact absurd heq.symm deriveDocumentStatus_pending_ne_discarded
    · exact hnone
  · intro hnone
    refine ⟨?_, ?_, Or.inr ⟨rfl, rfl, hnone⟩⟩
    · rw [htotal]
      exact h.lineCount
    · rw [hconfirmed]
      exact h.confirmedCount

theorem commit_derived_iff (h : Derived s) :
    Derived (s.commit session) ↔ s.commitsDerived (.commit session) = true := by
  rcases hstage : s.stage session with _ | ⟨tx, left, done⟩ | ⟨tx, done, counts⟩ |
    ⟨tx, done, counts⟩ | reason | ⟨reason, left, done⟩ | ⟨reason, done⟩ | _
  case cached =>
    simp only [commit, commitsDerived, hstage]
    rcases hmisses : s.missesReload tx done with _ | _
    · rw [if_neg Bool.false_ne_true, Bool.false_or]
      exact statusDerived_written_iff h
    · rw [if_pos rfl, Bool.true_or]
      exact iff_of_true h rfl
  case swept =>
    simp only [commit, commitsDerived, hstage]
    exact statusDerived_discarded_iff h
  all_goals
    simp only [commit, commitsDerived, hstage]
    exact iff_of_true h trivial

theorem write_frame {tx : LineTransaction} {w : LineWrite} {left done : List LineWrite} :
    (s.write session tx w left done).document = s.document ∧
      (s.write session tx w left done).lines = s.lines ∧
      (s.write session tx w left done).untouched = s.untouched := by
  unfold write
  cases w <;> simp only <;> split_ifs <;> exact ⟨rfl, rfl, rfl⟩

theorem proceed_frame : (s.proceed session).document = s.document ∧
    (s.proceed session).lines = s.lines ∧ (s.proceed session).untouched = s.untouched := by
  unfold proceed
  split
  case h_5 => exact write_frame
  all_goals
    try split_ifs
    all_goals exact ⟨rfl, rfl, rfl⟩

theorem step_derived_iff (h : Derived s) {action : DocumentAction} :
    Derived (s.step parser action) ↔ s.commitsDerived action = true := by
  cases action with
  | call session call =>
    simp only [step]
    split <;> exact iff_of_true h rfl
  | proceed session =>
    obtain ⟨hdocument, hlines, huntouched⟩ := @proceed_frame s session
    have hafter : Derived (s.proceed session) := by
      unfold Derived
      rw [hdocument, hlines, huntouched]
      exact h
    exact iff_of_true hafter rfl
  | commit session => exact commit_derived_iff h
  | abort session => exact iff_of_true h rfl

/-- Counts and status are derived in every committed state exactly as long as every commit finds
its counts standing. -/
theorem status_derived_iff {actions : List DocumentAction} :
    Runs.Along (DocumentSystem.step · parser) Derived s actions ↔ Derived s ∧
      Runs.Meets (DocumentSystem.step · parser) (fun s action => s.commitsDerived action = true) s
        actions := by
  have hany : ∀ (s : DocumentSystem) (_ : DocumentAction), True → Derived s → True :=
    fun _ _ _ _ => trivial
  have hiff : ∀ h : Derived s,
      (Runs.Along (DocumentSystem.step · parser) Derived s actions ↔
        Runs.Meets (DocumentSystem.step · parser)
          (fun s action => s.commitsDerived action = true) s actions) := fun h =>
    Runs.along_iff_meets hany (fun _ _ _ hp => step_derived_iff hp) trivial h
  constructor
  · intro hrun
    exact ⟨hrun.head, (hiff hrun.head).1 hrun⟩
  · rintro ⟨h, hmeets⟩
    exact (hiff h).2 hmeets

end DocumentSystem

section Examples

def twoLines : DocumentSystem where
  document :=
    { documentKind := .receipt
      mediaObjectId := some 1
      status := .review
      lineCount := 2 }
  lines := [{ id := 1, lineNumber := 1 }, { id := 2, lineNumber := 2 }]

def noText : StoredMediaId → DocumentKind → ParseResult := fun _ _ =>
  { parserId := "manual", lines := [] }

def resolveBoth : List DocumentAction :=
  [.call 0 (.setDisposition 1 .personal), .call 1 (.setDisposition 2 .personal), .proceed 0,
    .proceed 1, .proceed 0, .proceed 1, .proceed 0, .commit 0, .proceed 1, .commit 1]

theorem status_stale : ¬ ∀ (parser : StoredMediaId → DocumentKind → ParseResult)
    (s : DocumentSystem) (actions : List DocumentAction), s.Derived →
    (∀ session, s.stage session = .idle) →
    (∀ session, (Runs.run (DocumentSystem.step · parser) s actions).stage session = .idle) →
    (Runs.run (DocumentSystem.step · parser) s actions).Derived := by
  intro hall
  have hstart : twoLines.Derived := ⟨rfl, rfl, Or.inl rfl⟩
  have hclosed : ∀ session, (Runs.run (DocumentSystem.step · noText) twoLines
      resolveBoth).stage session = .idle := by
    rintro (_ | _ | session) <;> rfl
  have hend := hall noText twoLines resolveBoth hstart (fun _ => rfl) hclosed
  have hstatus : (Runs.run (DocumentSystem.step · noText) twoLines resolveBoth).document.status =
      .review := by decide +kernel
  have hcounts : countLines (Runs.run (DocumentSystem.step · noText) twoLines resolveBoth).lines =
      ⟨2, 0, 0⟩ := by decide +kernel
  rcases hend.status with heq | ⟨heq, -⟩
  · rw [hstatus, hcounts] at heq
    cases heq
  · rw [hstatus] at heq
    cases heq

end Examples

end Loxep

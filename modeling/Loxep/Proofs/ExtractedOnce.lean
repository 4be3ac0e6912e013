import Loxep.DocumentSessions
import Loxep.Lib.ListSums
import Loxep.Lib.Runs

/-!
# When an extraction leaves its lines once

An extraction appends the lines of its result after the cached count. It fails where one of these
numbers is in use, and it does not look whether an earlier delivery has left the lines already. The
numbers of the lines are distinct in any case.
-/

namespace Loxep

open DocumentSystem

namespace LineWrite

variable {lines : List DocumentLineRow} {writes : List LineWrite} {w : LineWrite}

def numbers (lines : List DocumentLineRow) : List ℕ := lines.map (·.lineNumber)

theorem numbers_updateLine {id : CandidateId} {f : DocumentLineRow → DocumentLineRow}
    (hf : ∀ row, (f row).lineNumber = row.lineNumber) :
    numbers (updateLine lines id f) = numbers lines := by
  unfold numbers updateLine
  rw [List.map_map]
  refine List.map_congr_left fun row _ => ?_
  simp only [Function.comp]
  split_ifs
  · exact hf row
  · rfl

theorem numbers_apply :
    (numbers (apply lines w)).Sublist (numbers lines ++ insertedNumbers [w]) := by
  cases w with
  | insert row =>
    show (numbers (lines ++ [row])).Sublist _
    rw [numbers, List.map_append]
    exact List.Sublist.refl _
  | delete id =>
    have hnone : insertedNumbers [.delete id] = [] := rfl
    rw [hnone, List.append_nil]
    exact List.filter_sublist.map _
  | _ =>
    rw [apply, numbers_updateLine]
    · exact List.sublist_append_left _ _
    · exact fun _ => rfl

theorem insertedNumbers_append {more : List LineWrite} :
    insertedNumbers (writes ++ more) = insertedNumbers writes ++ insertedNumbers more :=
  List.filterMap_append ..

theorem numbers_applyAll : ∀ {writes : List LineWrite} {lines : List DocumentLineRow},
    (numbers (applyAll lines writes)).Sublist (numbers lines ++ insertedNumbers writes)
  | [], lines => List.sublist_append_left _ _
  | w :: writes, lines => by
    have hrest : (numbers (applyAll (apply lines w) writes)).Sublist
        (numbers (apply lines w) ++ insertedNumbers writes) := numbers_applyAll
    refine hrest.trans ?_
    rw [show w :: writes = [w] ++ writes from rfl, insertedNumbers_append, ← List.append_assoc]
    exact numbers_apply.append_right _

theorem applyAll_insert {rows : List DocumentLineRow} :
    applyAll lines (rows.map .insert) = lines ++ rows := by
  induction rows generalizing lines with
  | nil => exact (List.append_nil lines).symm
  | cons row rows ih =>
    rw [List.map_cons, applyAll, List.foldl_cons]
    refine (@ih (lines ++ [row])).trans ?_
    rw [List.append_assoc]
    rfl

end LineWrite

def HoldsEach (values : List CandidateInsertValue) (lines : List DocumentLineRow) : Prop :=
  ∀ index value, values[index]? = some value → ∃ row,
    lines.filter (·.extracted == some index) = [row] ∧ row.toCandidateInsertValue = value

def otherLines (lines : List DocumentLineRow) : List DocumentLineRow :=
  lines.filter (·.extracted.isNone)

namespace DocumentSystem

def collides (s : DocumentSystem) (session : DocumentSessionId) (n : ℕ) (done : List LineWrite)
    : Bool :=
  isFree (s.numberLock n) session &&
    decide (n ∈ s.lines.map (·.lineNumber) ++ LineWrite.insertedNumbers done)

/-- An extraction does not fail on an insert, and when it commits, the document holds each
extracted line once beside the lines from elsewhere. -/
def ExtractsOnce (s : DocumentSystem) : DocumentAction → Prop
  | .proceed session =>
    match s.stage session with
    | .writing tx (.insert _ :: _) _ => tx.extracts = true →
        (s.proceed session).stage session ≠ .idle
    | _ => True
  | .commit session =>
    match s.stage session with
    | .cached tx _ _ => tx.extracts = true → ∀ result ∈ tx.result,
        HoldsEach result.insertValues (s.commit session).lines ∧
          otherLines (s.commit session).lines = otherLines s.lines
    | _ => True
  | _ => True

/-- What an extraction has to find: its numbers free when it inserts, and none of its lines in the
document when it commits. -/
def findsNone (s : DocumentSystem) : DocumentAction → Bool
  | .proceed session =>
    match s.stage session with
    | .writing tx (.insert row :: _) done =>
      !tx.extracts || !s.collides session row.lineNumber done
    | _ => true
  | .commit session =>
    match s.stage session with
    | .cached tx _ _ => !tx.extracts || tx.result.all fun result =>
        s.lines.all fun row => row.extracted.all fun index =>
          decide (result.insertValues.length ≤ index)
    | _ => true
  | _ => true

end DocumentSystem

def DocumentStage.transaction :
    DocumentStage → Option (LineTransaction × List LineWrite × List LineWrite)
  | .writing tx left done => some (tx, done, left)
  | .counted tx done _ | .cached tx done _ => some (tx, done, [])
  | _ => none

/-- The numbers a transaction has inserted are its own, distinct and not in use; an extraction
inserts the lines of its result. -/
structure HoldsNumbers (lines : List DocumentLineRow) (numberLock : ℕ → Option DocumentSessionId)
    (session : DocumentSessionId) (tx : LineTransaction) (done left : List LineWrite) : Prop where
  distinct : (LineWrite.insertedNumbers done).Nodup
  held : ∀ n ∈ LineWrite.insertedNumbers done,
    numberLock n = some session ∧ n ∉ LineWrite.numbers lines
  extraction : tx.extracts = true → tx.reloads = none ∧ ∃ result start ids,
    tx.result = some result ∧ done ++ left = insertCandidates start ids true result.insertValues

structure NumbersHeld (s : DocumentSystem) : Prop where
  distinct : (LineWrite.numbers s.lines).Nodup
  sessions : ∀ session tx done left, (s.stage session).transaction = some (tx, done, left) →
    HoldsNumbers s.lines s.numberLock session tx done left

namespace DocumentSystem

variable {s : DocumentSystem} {session other : DocumentSessionId}
variable {parser : StoredMediaId → DocumentKind → ParseResult}
variable {tx : LineTransaction} {done left : List LineWrite} {w : LineWrite}

variable {stage : DocumentStage}

section

variable (h : NumbersHeld s)
include h

theorem numbersHeld_setStage (hstage : ∀ tx done left, stage.transaction = some (tx, done, left) →
      HoldsNumbers s.lines s.numberLock session tx done left) :
    NumbersHeld (s.setStage session stage) := by
  refine ⟨h.distinct, fun other tx done left htx => ?_⟩
  by_cases hother : other = session
  · have heq : (s.setStage session stage).stage other = stage := if_pos hother
    rw [heq] at htx
    rw [hother]
    exact hstage tx done left htx
  · have heq : (s.setStage session stage).stage other = s.stage other := if_neg hother
    rw [heq] at htx
    exact h.sessions other tx done left htx

theorem numbersHeld_close {s' : DocumentSystem} (hstage : s'.stage = s.stage)
    (hlock : s'.numberLock = s.numberLock) (hdistinct : (LineWrite.numbers s'.lines).Nodup)
    (hnew : ∀ n, n ∈ LineWrite.numbers s'.lines → n ∈ LineWrite.numbers s.lines ∨
      s.numberLock n = some session) : NumbersHeld (s'.close session) := by
  refine ⟨hdistinct, fun other tx done left htx => ?_⟩
  by_cases hother : other = session
  · have heq : (s'.close session).stage other = .idle := if_pos hother
    rw [heq] at htx
    cases htx
  · have heq : (s'.close session).stage other = s.stage other := by
      rw [← hstage]
      exact if_neg hother
    rw [heq] at htx
    have hholds := h.sessions other tx done left htx
    refine ⟨hholds.distinct, fun n hn => ⟨?_, fun hmem => ?_⟩, hholds.extraction⟩
    · show released (s'.numberLock n) session = some other
      rw [hlock, (hholds.held n hn).1, released, if_neg]
      exact fun heq => hother (Option.some.inj heq)
    · rcases hnew n hmem with hold | hown
      · exact (hholds.held n hn).2 hold
      · rw [(hholds.held n hn).1] at hown
        exact hother (Option.some.inj hown)

theorem numbersHeld_end : NumbersHeld (s.close session) :=
  numbersHeld_close h rfl rfl h.distinct fun _ hn => Or.inl hn

theorem numbersHeld_written {counts : DocumentCounts}
    (htx : (s.stage session).transaction = some (tx, done, left)) :
    NumbersHeld ((s.written tx done counts).close session) := by
  have hholds := h.sessions session tx done left htx
  have hsub : (LineWrite.numbers (s.written tx done counts).lines).Sublist
      (LineWrite.numbers s.lines ++ LineWrite.insertedNumbers done) := LineWrite.numbers_applyAll
  refine numbersHeld_close h rfl rfl (List.Nodup.sublist hsub ?_) fun n hn => ?_
  · refine List.nodup_append.2 ⟨h.distinct, hholds.distinct, fun n hn m hm heq => ?_⟩
    exact (hholds.held m hm).2 (heq ▸ hn)
  · rcases List.mem_append.1 (hsub.subset hn) with hold | hnew
    · exact Or.inl hold
    · exact Or.inr (hholds.held n hnew).1

theorem numbersHeld_discarded {reason : Option String} {done : List CandidateId}
    : NumbersHeld ((s.discarded reason done).close session) := by
  have hnumbers :
      LineWrite.numbers (s.discarded reason done).lines = LineWrite.numbers s.lines := by
    unfold LineWrite.numbers discarded
    rw [List.map_map]
    refine List.map_congr_left fun row _ => ?_
    simp only [Function.comp]
    split_ifs <;> rfl
  refine numbersHeld_close h rfl rfl ?_ fun n hn => ?_
  · rw [hnumbers]
    exact h.distinct
  · rw [hnumbers] at hn
    exact Or.inl hn

end

theorem insertedNumbers_concat : LineWrite.insertedNumbers (done ++ [w]) =
    LineWrite.insertedNumbers done ++ LineWrite.insertedNumbers [w] :=
  LineWrite.insertedNumbers_append

theorem isInsert_of_extraction {start : ℕ} {ids : ℕ → CandidateId}
    {values : List CandidateInsertValue}
    (h : done ++ w :: left = insertCandidates start ids true values) :
    ∃ row, w = .insert row := by
  have hmem : w ∈ insertCandidates start ids true values := by
    rw [← h]
    exact List.mem_append_right _ List.mem_cons_self
  obtain ⟨row, -, rfl⟩ := List.mem_map.1 hmem
  exact ⟨row, rfl⟩

section

variable (h : NumbersHeld s)
include h

theorem numbersHeld_insert {row : DocumentLineRow}
    (hstage : s.stage session = .writing tx (.insert row :: left) done)
    (hfree : isFree (s.numberLock row.lineNumber) session = true)
    (hunused : row.lineNumber ∉ s.lines.map (·.lineNumber) ++ LineWrite.insertedNumbers done) :
    NumbersHeld ((s.holdNumber session row.lineNumber).setStage session
      (.writing tx left (done ++ [.insert row]))) := by
  have hheld : NumbersHeld (s.holdNumber session row.lineNumber) := by
    refine ⟨h.distinct, fun other tx done left htx => ?_⟩
    have hholds := h.sessions other tx done left htx
    refine ⟨hholds.distinct, fun n hn => ⟨?_, (hholds.held n hn).2⟩, hholds.extraction⟩
    show (if n = row.lineNumber then some session else s.numberLock n) = some other
    have hlock := (hholds.held n hn).1
    split_ifs with heq
    · rw [← heq, hlock, isFree, Option.all_some, beq_iff_eq] at hfree
      rw [hfree]
    · exact hlock
  have hholds := h.sessions session tx done (.insert row :: left) (by rw [hstage]; rfl)
  rw [List.mem_append, not_or] at hunused
  refine numbersHeld_setStage hheld fun tx' done' left' htx => ?_
  obtain ⟨rfl, rfl, rfl⟩ : tx = tx' ∧ done ++ [.insert row] = done' ∧ left = left' := by
    simpa [DocumentStage.transaction] using htx
  refine ⟨?_, fun n hn => ?_, fun hextracts => ?_⟩
  · rw [insertedNumbers_concat]
    exact List.nodup_append.2 ⟨hholds.distinct, List.nodup_singleton _, fun n hn m hm heq =>
      hunused.2 (List.mem_singleton.1 hm ▸ heq ▸ hn)⟩
  · rw [insertedNumbers_concat] at hn
    show (if n = row.lineNumber then some session else s.numberLock n) = some session ∧ _
    rcases List.mem_append.1 hn with hold | hnew
    · rw [(hholds.held n hold).1, ite_self]
      exact ⟨rfl, (hholds.held n hold).2⟩
    · obtain rfl := List.mem_singleton.1 hnew
      rw [if_pos rfl]
      exact ⟨rfl, hunused.1⟩
  · rw [List.append_assoc]
    exact hholds.extraction hextracts

section

variable (hstage : s.stage session = .writing tx (w :: left) done)
include hstage

theorem numbersHeld_update {id : CandidateId} (hw : LineWrite.insertedNumbers [w] = []) :
    NumbersHeld ((s.lockLine session id).setStage session (.writing tx left (done ++ [w]))) := by
  have hlocked : NumbersHeld (s.lockLine session id) := ⟨h.distinct, h.sessions⟩
  have hholds := h.sessions session tx done (w :: left) (by rw [hstage]; rfl)
  refine numbersHeld_setStage hlocked fun tx' done' left' htx => ?_
  obtain ⟨rfl, rfl, rfl⟩ : tx = tx' ∧ done ++ [w] = done' ∧ left = left' := by
    simpa [DocumentStage.transaction] using htx
  have hsame : LineWrite.insertedNumbers (done ++ [w]) = LineWrite.insertedNumbers done := by
    rw [insertedNumbers_concat, hw, List.append_nil]
  refine ⟨hsame ▸ hholds.distinct, fun n hn => hholds.held n (hsame ▸ hn), fun hextracts => ?_⟩
  rw [List.append_assoc]
  exact hholds.extraction hextracts

theorem numbersHeld_skip (hw : ∀ row, w ≠ .insert row) :
    NumbersHeld (s.setStage session (.writing tx left done)) := by
  have hholds := h.sessions session tx done (w :: left) (by rw [hstage]; rfl)
  refine numbersHeld_setStage h fun tx' done' left' htx => ?_
  obtain ⟨rfl, rfl, rfl⟩ : tx = tx' ∧ done = done' ∧ left = left' := by
    simpa [DocumentStage.transaction] using htx
  refine ⟨hholds.distinct, hholds.held, fun hextracts => ?_⟩
  obtain ⟨-, result, start, ids, -, heq⟩ := hholds.extraction hextracts
  obtain ⟨row, hrow⟩ := isInsert_of_extraction heq
  exact absurd hrow (hw row)

theorem numbersHeld_write :
    NumbersHeld (s.write session tx w left done) := by
  unfold write
  cases w with
  | insert row =>
    simp only
    split_ifs with hwaits hused
    · exact h
    · exact numbersHeld_end h
    · exact numbersHeld_insert h hstage (by simpa using hwaits) hused
  | _ =>
    simp only
    split_ifs
    · exact h
    · exact numbersHeld_update h hstage rfl
    · exact numbersHeld_skip h hstage fun row heq => nomatch heq

end

theorem numbersHeld_counted {counts : DocumentCounts}
    (hstage : (s.stage session).transaction = some (tx, done, []))
    (hnext : stage = .counted tx done counts ∨ stage = .cached tx done counts) :
    NumbersHeld (s.setStage session stage) := by
  refine numbersHeld_setStage h fun tx' done' left' htx => ?_
  have heq : tx = tx' ∧ done = done' ∧ [] = left' := by
    rcases hnext with rfl | rfl <;> simpa [DocumentStage.transaction] using htx
  obtain ⟨rfl, rfl, rfl⟩ := heq
  exact h.sessions session _ _ _ hstage

theorem numbersHeld_free (hstage : stage.transaction = none)
    : NumbersHeld (s.setStage session stage) := by
  refine numbersHeld_setStage h fun tx done left htx => ?_
  rw [hstage] at htx
  cases htx

theorem numbersHeld_proceed : NumbersHeld (s.proceed session) := by
  unfold proceed
  have hdocument : NumbersHeld (s.lockDocument session) := ⟨h.distinct, h.sessions⟩
  rcases hstage : s.stage session with _ | ⟨tx, _ | ⟨w, left⟩, done⟩ | ⟨tx, done, counts⟩ |
    ⟨tx, done, counts⟩ | reason | ⟨reason, _ | ⟨id, left⟩, done⟩ | ⟨reason, done⟩ | _
  · exact h
  · simp only
    split_ifs
    · exact numbersHeld_free h rfl
    · exact hdocument
    · exact h
    · exact numbersHeld_counted h (by rw [hstage]; rfl) (Or.inl rfl)
  · exact numbersHeld_write h hstage
  · simp only
    split_ifs
    · have htx : ((s.lockDocument session).stage session).transaction = some (tx, done, []) := by
        rw [show (s.lockDocument session).stage = s.stage from rfl, hstage]
        rfl
      exact numbersHeld_counted hdocument htx (Or.inr rfl)
    · exact h
  · exact h
  · exact numbersHeld_free h rfl
  · simp only
    split_ifs
    · exact numbersHeld_free hdocument rfl
    · exact h
  · simp only
    have hline : NumbersHeld (s.lockLine session id) := ⟨h.distinct, h.sessions⟩
    split_ifs
    · exact h
    · exact numbersHeld_free hline rfl
    · exact numbersHeld_free h rfl
  · exact h
  · exact h

end

theorem holdsNumbers_writing {tx' : LineTransaction} {writes : List LineWrite}
    (htx : (DocumentStage.writing tx' writes []).transaction = some (tx, done, left))
    (hextraction : tx'.extracts = true → tx'.reloads = none ∧ ∃ result start ids,
      tx'.result = some result ∧ writes = insertCandidates start ids true result.insertValues) :
    HoldsNumbers s.lines s.numberLock session tx done left := by
  obtain ⟨rfl, rfl, rfl⟩ : tx' = tx ∧ [] = done ∧ writes = left := by
    simpa [DocumentStage.transaction] using htx
  exact ⟨List.nodup_nil, fun n hn => absurd hn List.not_mem_nil, hextraction⟩

theorem numbersHeld_begin {call : DocumentCall} (hbegin : s.begin parser call = some stage)
    (htx : stage.transaction = some (tx, done, left)) :
    HoldsNumbers s.lines s.numberLock session tx done left := by
  cases call with
  | recordParseResult result ids =>
    obtain rfl := Option.some.inj hbegin
    exact holdsNumbers_writing htx nofun
  | runDocumentTextExtraction ids =>
    simp only [begin] at hbegin
    split at hbegin
    · cases hbegin
    · split_ifs at hbegin
      obtain rfl := Option.some.inj hbegin
      exact holdsNumbers_writing htx fun _ => ⟨rfl, _, _, _, rfl, rfl⟩
  | stageCsvRows rows ids =>
    obtain ⟨values, -, rfl⟩ := Option.map_eq_some_iff.1 hbegin
    exact holdsNumbers_writing htx nofun
  | addLine input id =>
    simp only [begin] at hbegin
    split_ifs at hbegin
    obtain rfl := Option.some.inj hbegin
    exact holdsNumbers_writing htx nofun
  | bulkSetDisposition ids disposition =>
    obtain rfl := Option.some.inj hbegin
    exact holdsNumbers_writing htx nofun
  | discard reason =>
    simp only [begin] at hbegin
    split_ifs at hbegin
    obtain rfl := Option.some.inj hbegin
    cases htx
  | _ =>
    simp only [begin] at hbegin
    obtain ⟨before, -, hbegin⟩ := Option.bind_eq_some_iff.1 hbegin
    split_ifs at hbegin
    obtain rfl := Option.some.inj hbegin
    exact holdsNumbers_writing htx nofun

theorem numbersHeld_step {action : DocumentAction} (h : NumbersHeld s) :
    NumbersHeld (s.step parser action) := by
  cases action with
  | call session call =>
    simp only [step]
    split
    · rename_i hbegin
      exact numbersHeld_setStage h fun tx done left htx => numbersHeld_begin hbegin htx
    · exact h
  | proceed session => exact numbersHeld_proceed h
  | commit session =>
    simp only [step, commit]
    split
    · rename_i tx done counts hstage
      split_ifs
      · exact numbersHeld_end h
      · have htx : (s.stage session).transaction = some (tx, done, []) := by
          rw [hstage]
          rfl
        exact numbersHeld_written h htx
    · exact numbersHeld_discarded h
    · exact numbersHeld_end h
    · exact h
  | abort session => exact numbersHeld_end h

end DocumentSystem

section ExtractedRows

variable {start : ℕ} {ids : ℕ → CandidateId} {values : List CandidateInsertValue}
variable {lines : List DocumentLineRow}

theorem nodup_extracted :
    ((values.mapIdx (candidateLine start ids true)).map (·.extracted)).Nodup := by
  rw [map_mapIdx]
  exact nodup_mapIdx (fun i j _ _ h => Option.some.inj h) values

theorem filter_extracted {index : ℕ} {value : CandidateInsertValue}
    (h : values[index]? = some value) :
    (values.mapIdx (candidateLine start ids true)).filter (·.extracted == some index) =
      [candidateLine start ids true index value] := by
  obtain ⟨hlt, hvalue⟩ := List.getElem?_eq_some_iff.1 h
  have hmem : candidateLine start ids true index value ∈
      values.mapIdx (candidateLine start ids true) :=
    List.mem_mapIdx.2 ⟨index, hlt, by rw [hvalue]⟩
  refine Eq.trans (List.filter_congr fun row _ => ?_) (filter_key_eq nodup_extracted hmem)
  show (row.extracted == some index) = decide (row.extracted = some index)
  rw [Bool.eq_iff_iff, beq_iff_eq, decide_eq_true_eq]

theorem holdsEach_append_iff :
    HoldsEach values (lines ++ values.mapIdx (candidateLine start ids true)) ↔
      ∀ index < values.length, lines.filter (·.extracted == some index) = [] := by
  unfold HoldsEach
  constructor
  · intro h index hlt
    have hvalue : values[index]? = some values[index] := List.getElem?_eq_getElem hlt
    obtain ⟨row, hrow, -⟩ := h index _ hvalue
    rw [List.filter_append, filter_extracted hvalue] at hrow
    have hlength := congrArg List.length hrow
    rw [List.length_append, List.length_singleton, List.length_singleton] at hlength
    exact List.eq_nil_of_length_eq_zero (by omega)
  · intro h index value hvalue
    obtain ⟨hlt, -⟩ := List.getElem?_eq_some_iff.1 hvalue
    refine ⟨candidateLine start ids true index value, ?_, rfl⟩
    rw [List.filter_append, h index hlt, filter_extracted hvalue, List.nil_append]

theorem otherLines_append :
    otherLines (lines ++ values.mapIdx (candidateLine start ids true)) = otherLines lines := by
  have hnone : (values.mapIdx (candidateLine start ids true)).filter (·.extracted.isNone) = [] := by
    refine List.filter_eq_nil_iff.2 fun row hrow => ?_
    obtain ⟨index, hlt, rfl⟩ := List.mem_mapIdx.1 hrow
    exact Bool.false_ne_true
  rw [otherLines, List.filter_append, hnone, List.append_nil]
  rfl

theorem holdsNone_iff {n : ℕ} :
    (lines.all fun row => row.extracted.all fun index => decide (n ≤ index)) = true ↔
      ∀ index < n, lines.filter (·.extracted == some index) = [] := by
  simp only [List.all_eq_true, Option.all_eq_true, decide_eq_true_eq, List.filter_eq_nil_iff,
    beq_iff_eq]
  constructor
  · intro h index hlt row hrow heq
    have hle := h row hrow index heq
    omega
  · intro h row hrow index heq
    by_contra hlt
    exact h index (by omega) row hrow heq

end ExtractedRows

namespace DocumentSystem

variable {s : DocumentSystem} {session other : DocumentSessionId}
variable {parser : StoredMediaId → DocumentKind → ParseResult}
variable {tx : LineTransaction} {done left : List LineWrite} {w : LineWrite}

theorem write_insert_ne_idle_iff {row : DocumentLineRow}
    (hstage : s.stage session = .writing tx (.insert row :: left) done) :
    (s.write session tx (.insert row) left done).stage session ≠ .idle ↔
      s.collides session row.lineNumber done = false := by
  unfold write collides
  simp only
  rcases hfree : isFree (s.numberLock row.lineNumber) session with _ | _
  · rw [if_pos (by simp), Bool.false_and, hstage]
    exact iff_of_true nofun rfl
  · rw [if_neg (by simp), Bool.true_and, decide_eq_false_iff_not]
    split_ifs with hused
    · refine iff_of_false (fun hne => hne ?_) (not_not_intro hused)
      exact if_pos rfl
    · refine iff_of_true (fun hidle => ?_) hused
      have hwriting : (DocumentStage.writing tx left (done ++ [.insert row])) = .idle := by
        rw [← hidle]
        exact (if_pos rfl).symm
      cases hwriting

theorem proceed_extractsOnce_iff :
    s.ExtractsOnce (.proceed session) ↔ s.findsNone (.proceed session) = true := by
  rcases hstage : s.stage session with _ | ⟨tx, _ | ⟨_ | _ | _ | _ | _, left⟩, done⟩ | _ | _ | _ |
    _ | _ | _
  case writing.cons.insert row =>
    have hproceed : s.proceed session = s.write session tx (.insert row) left done := by
      simp only [proceed, hstage]
    simp only [ExtractsOnce, findsNone, hstage]
    rw [hproceed, write_insert_ne_idle_iff hstage]
    rcases tx.extracts with _ | _ <;> simp
  all_goals
    simp only [ExtractsOnce, findsNone, hstage]

theorem commit_extractsOnce_iff (h : NumbersHeld s) :
    s.ExtractsOnce (.commit session) ↔ s.findsNone (.commit session) = true := by
  rcases hstage : s.stage session with _ | _ | _ | ⟨tx, done, counts⟩ | _ | _ | _ | _
  case cached =>
    simp only [ExtractsOnce, findsNone, hstage]
    rcases hextracts : tx.extracts with _ | _
    · exact iff_of_true nofun rfl
    have hholds := h.sessions session tx done [] (by rw [hstage]; rfl)
    obtain ⟨hreloads, result, start, ids, hresult, hdone⟩ := hholds.extraction hextracts
    rw [List.append_nil] at hdone
    have hlines : (s.commit session).lines =
        s.lines ++ result.insertValues.mapIdx (candidateLine start ids true) := by
      have hfinds : s.missesReload tx done = false := by rw [missesReload, hreloads]; rfl
      simp only [commit, hstage, hfinds, Bool.false_eq_true, if_false]
      show LineWrite.applyAll s.lines done = _
      rw [hdone, insertCandidates, LineWrite.applyAll_insert]
    rw [hresult, hlines]
    simp only [Option.mem_def, Option.some.injEq, forall_eq', otherLines_append, and_true,
      holdsEach_append_iff, true_implies, Bool.not_true, Bool.false_or, Option.all_some,
      holdsNone_iff]
  all_goals
    simp only [ExtractsOnce, findsNone, hstage]

theorem step_extractsOnce_iff {action : DocumentAction} (h : NumbersHeld s) :
    s.ExtractsOnce action ↔ s.findsNone action = true := by
  cases action with
  | call session call => exact iff_of_true trivial rfl
  | proceed session => exact proceed_extractsOnce_iff
  | commit session => exact commit_extractsOnce_iff h
  | abort session => exact iff_of_true trivial rfl

theorem numbersHeld_rest (hdistinct : (LineWrite.numbers s.lines).Nodup)
    (hrest : ∀ session, s.stage session = .idle) : NumbersHeld s := by
  refine ⟨hdistinct, fun session tx done left htx => ?_⟩
  rw [hrest session] at htx
  cases htx

end DocumentSystem

section Examples

def uploadedReceipt : DocumentSystem where
  document :=
    { documentKind := .receipt
      mediaObjectId := some 1
      lineCount := 1 }
  lines := [{ id := 1, lineNumber := 1, description := some "tip" }]

def readsLine : StoredMediaId → DocumentKind → ParseResult := fun _ _ =>
  { parserId := "tesseract"
    lines := [{ description := some "coffee", confidence := 900 }] }

def deliver (session : DocumentSessionId) (id : CandidateId) : List DocumentAction :=
  .call session (.runDocumentTextExtraction fun _ => id) ::
    List.replicate 4 (.proceed session) ++ [.commit session]

end Examples

end Loxep

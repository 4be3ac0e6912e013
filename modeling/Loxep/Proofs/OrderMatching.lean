import Loxep.Journal
import Loxep.Lib.ChildRows
import Loxep.OrderFacts

/-!
# The rows an order's lines take

Going through the lines of an observation, the first line a row is a candidate for takes it. Every
line is written, over the row it takes or as a new row, and no two rows of the order collide while
the lines are written one after another.
-/

namespace Loxep

namespace LineIds

variable {ids : LineIds} {n k : ℤ} {id : OrderLineId}

theorem at_concat : LineIds.at (ids ++ [(n, id)]) k = if k = n then some id else ids.at k := by
  unfold LineIds.at
  by_cases h : k = n
  · simp [h]
  · simp [h, Ne.symm h]

theorem at_cons : LineIds.at ((n, id) :: ids) k =
    (ids.at k).or (if k = n then some id else none) := by
  unfold LineIds.at
  rw [List.reverse_cons, List.find?_append]
  by_cases h : k = n
  · subst h
    generalize List.find? (fun entry : ℤ × OrderLineId => entry.1 == k) ids.reverse = found
    cases found <;> simp
  · generalize List.find? (fun entry : ℤ × OrderLineId => entry.1 == k) ids.reverse = found
    cases found <;> simp [h, Ne.symm h]

end LineIds

structure LinesSound (rows : List StoredOrderLine) (nextRowId : ℕ) : Prop where
  ids_nodup : (rows.map (·.id)).Nodup
  ids_lt : ∀ row ∈ rows, row.id < nextRowId
  numbers_nodup : (rows.map (·.lineNumber)).Nodup
  numbers_pos : ∀ row ∈ rows, 0 < row.lineNumber
  externals_nodup : (rows.filterMap (·.externalLineId)).Nodup

structure LinesStorable (lines : List CommerceOrderLineFact) : Prop where
  numbers_nodup : (lines.map (·.lineNumber)).Nodup
  numbers_pos : ∀ line ∈ lines, 0 < line.lineNumber
  externals_nodup : (lines.filterMap (·.externalLineId)).Nodup
  quantities : ∀ line ∈ lines, 0 < line.values.quantity

section Candidates

variable {existing : List StoredOrderLine} {nextRowId : ℕ} {line line' : CommerceOrderLineFact}
  {row : StoredOrderLine}

theorem candidateFor_mem (h : candidateFor existing line = some row) : row ∈ existing := by
  unfold candidateFor at h
  rcases hext : line.externalLineId with _ | externalLineId <;> rw [hext] at h
  · exact List.mem_of_find?_eq_some h
  · exact List.mem_of_find?_eq_some h

theorem candidateFor_external (hs : LinesSound existing nextRowId) {externalLineId : String}
    (hline : line.externalLineId = some externalLineId) :
    candidateFor existing line = some row ↔
      row ∈ existing ∧ row.externalLineId = some externalLineId := by
  unfold candidateFor
  rw [hline]
  constructor
  · intro h
    have hext := List.find?_some h
    exact ⟨List.mem_of_find?_eq_some h, by simpa using hext⟩
  · rintro ⟨hrow, hext⟩
    rcases hfound : existing.find? (·.externalLineId == some externalLineId) with _ | first
    · have hnot := List.find?_eq_none.1 hfound row hrow
      simp [hext] at hnot
    · have hfirst := List.find?_some hfound
      have hsame := eq_of_nodup_filterMap hs.externals_nodup (List.mem_of_find?_eq_some hfound)
        hrow (by simpa using hfirst) hext
      simp only [hfound, hsame]

theorem candidateFor_number (hs : LinesSound existing nextRowId)
    (hline : line.externalLineId = none) :
    candidateFor existing line = some row ↔
      row ∈ existing ∧ row.lineNumber = line.lineNumber := by
  unfold candidateFor
  rw [hline]
  exact find?_key_eq_some_iff hs.numbers_nodup

theorem LinesSound.candidate (hs : LinesSound existing nextRowId) {id : OrderLineId}
    (h : .write line id ∈ existing) : candidateFor existing line = some (.write line id) := by
  rcases hext : line.externalLineId with _ | externalLineId
  · exact (candidateFor_number hs hext).2 ⟨h, rfl⟩
  · exact (candidateFor_external hs hext).2 ⟨h, hext⟩

end Candidates

section Matching

variable {existing : List StoredOrderLine} {matched : List OrderLineId}
  {line : CommerceOrderLineFact} {lines rest : List CommerceOrderLineFact} {id : OrderLineId}
  {n : ℤ}

def takenRow (existing : List StoredOrderLine) (matched : List OrderLineId)
    (line : CommerceOrderLineFact) : Option StoredOrderLine :=
  (candidateFor existing line).filter fun row => decide (row.id ∉ matched)

def matchedAfter (existing : List StoredOrderLine) (matched : List OrderLineId)
    (line : CommerceOrderLineFact) : List OrderLineId :=
  (takenRow existing matched line).elim matched (·.id :: matched)

theorem takenRow_eq_some {row : StoredOrderLine} : takenRow existing matched line = some row ↔
    candidateFor existing line = some row ∧ row.id ∉ matched := by
  unfold takenRow
  rw [Option.filter_eq_some_iff, decide_eq_true_eq]

theorem matchLines_cons : matchLines existing matched (line :: rest) =
    ((takenRow existing matched line).map fun row => (line.lineNumber, row.id)).toList
      ++ matchLines existing (matchedAfter existing matched line) rest := by
  rw [matchLines, matchedAfter, takenRow]
  rcases candidateFor existing line with _ | row
  · rfl
  · by_cases h : row.id ∈ matched
    · simp [h, Option.filter]
    · simp [h, Option.filter]

theorem mem_matchLines_ids : id ∈ (matchLines existing matched lines).map (·.2) ↔
    id ∉ matched ∧ ∃ line ∈ lines, ∃ row, candidateFor existing line = some row ∧ row.id = id := by
  induction lines generalizing matched with
  | nil => simp [matchLines]
  | cons line rest ih =>
    rw [matchLines_cons, List.map_append, List.mem_append, ih, matchedAfter]
    rcases htaken : takenRow existing matched line with _ | row
    · simp only [Option.map_none, Option.toList_none, List.map_nil, List.not_mem_nil, false_or,
        Option.elim]
      refine and_congr_right fun hid => ?_
      refine ⟨fun ⟨l, hl, h⟩ => ⟨l, List.mem_cons_of_mem _ hl, h⟩, ?_⟩
      rintro ⟨l, hl, row, hrow, rfl⟩
      rcases List.mem_cons.1 hl with rfl | hl
      · have hsome := takenRow_eq_some.2 ⟨hrow, hid⟩
        rw [htaken] at hsome
        cases hsome
      · exact ⟨l, hl, row, hrow, rfl⟩
    · obtain ⟨hcandidate, hfree⟩ := takenRow_eq_some.1 htaken
      simp only [Option.map_some, Option.toList_some, List.map_cons, List.map_nil,
        List.mem_cons, List.not_mem_nil, or_false, Option.elim, not_or]
      constructor
      · rintro (rfl | ⟨⟨-, hid⟩, l, hl, h⟩)
        · exact ⟨hfree, line, .inl rfl, row, hcandidate, rfl⟩
        · exact ⟨hid, l, .inr hl, h⟩
      · rintro ⟨hid, l, hl, row', hrow', rfl⟩
        by_cases hsame : row'.id = row.id
        · exact .inl hsame
        · rcases hl with rfl | hl
          · rw [hcandidate] at hrow'
            cases hrow'
            exact absurd rfl hsame
          · exact .inr ⟨⟨hsame, hid⟩, l, hl, row', hrow', rfl⟩

theorem at_of_notMem (h : n ∉ lines.map (·.lineNumber)) :
    (matchLines existing matched lines).at n = none := by
  induction lines generalizing matched with
  | nil => rfl
  | cons line rest ih =>
    rw [List.map_cons, List.mem_cons, not_or] at h
    rw [matchLines_cons]
    rcases takenRow existing matched line with _ | row
    · exact ih h.2
    · simp only [Option.map_some, Option.toList_some, List.singleton_append, LineIds.at_cons,
        ih h.2, if_neg h.1, Option.or_none]

theorem at_head (h : ((line :: rest).map (·.lineNumber)).Nodup) :
    (matchLines existing matched (line :: rest)).at line.lineNumber =
      (takenRow existing matched line).map (·.id) := by
  rw [List.map_cons, List.nodup_cons] at h
  rw [matchLines_cons]
  rcases takenRow existing matched line with _ | row
  · exact at_of_notMem h.1
  · simp only [Option.map_some, Option.toList_some, List.singleton_append, LineIds.at_cons,
      at_of_notMem h.1, if_true, Option.none_or]

theorem at_tail (h : n ≠ line.lineNumber) :
    (matchLines existing matched (line :: rest)).at n =
      (matchLines existing (matchedAfter existing matched line) rest).at n := by
  rw [matchLines_cons]
  rcases takenRow existing matched line with _ | row
  · rfl
  · simp only [Option.map_some, Option.toList_some, List.singleton_append, LineIds.at_cons,
      if_neg h, Option.or_none]

end Matching

section Takers

variable {existing : List StoredOrderLine} {nextRowId : ℕ} {matched : List OrderLineId}
  {line : CommerceOrderLineFact} {before lines after : List CommerceOrderLineFact}
  {row : StoredOrderLine} {id : OrderLineId}

theorem mem_matchedAfter : id ∈ matchedAfter existing matched line ↔
    id ∈ matched ∨ ∃ row, candidateFor existing line = some row ∧ row.id = id := by
  unfold matchedAfter
  rcases htaken : takenRow existing matched line with _ | row
  · simp only [Option.elim]
    refine ⟨.inl, ?_⟩
    rintro (h | ⟨row, hrow, rfl⟩)
    · exact h
    · by_contra hfree
      have hsome := takenRow_eq_some.2 ⟨hrow, hfree⟩
      rw [htaken] at hsome
      cases hsome
  · have hcandidate := (takenRow_eq_some.1 htaken).1
    simp only [Option.elim, List.mem_cons, hcandidate, Option.some.injEq, exists_eq_left']
    exact ⟨fun h => h.elim (fun h => .inr h.symm) .inl, fun h => h.elim .inr fun h => .inl h.symm⟩

theorem at_eq_candidate_iff (hs : LinesSound existing nextRowId)
    (hnumbers : ((before ++ line :: after).map (·.lineNumber)).Nodup)
    (hcandidate : candidateFor existing line = some row) :
    (matchLines existing matched (before ++ line :: after)).at line.lineNumber = some row.id ↔
      row.id ∉ matched ∧ ∀ other ∈ before, candidateFor existing other ≠ some row := by
  induction before generalizing matched with
  | nil =>
    rw [List.nil_append, at_head hnumbers, takenRow, hcandidate]
    by_cases hfree : row.id ∈ matched <;> simp [hfree, Option.filter]
  | cons first before ih =>
    rw [List.cons_append, List.map_cons, List.nodup_cons] at hnumbers
    have hne : line.lineNumber ≠ first.lineNumber := by
      intro heq
      exact hnumbers.1 (heq ▸ List.mem_map_of_mem (by simp))
    rw [List.cons_append, at_tail hne, ih hnumbers.2, mem_matchedAfter, not_or, and_assoc]
    refine and_congr_right fun _ => ?_
    rw [List.forall_mem_cons]
    refine and_congr_left fun _ => not_congr ⟨?_, fun h => ⟨row, h, rfl⟩⟩
    rintro ⟨other, hother, hid⟩
    rw [hother, eq_of_key hs.ids_nodup (candidateFor_mem hcandidate) (candidateFor_mem hother) hid]

theorem candidate_of_at (hnumbers : (lines.map (·.lineNumber)).Nodup) (hline : line ∈ lines)
    (hat : (matchLines existing matched lines).at line.lineNumber = some id) :
    ∃ row, candidateFor existing line = some row ∧ row.id = id := by
  induction lines generalizing matched with
  | nil => cases hline
  | cons first rest ih =>
    rcases List.mem_cons.1 hline with rfl | hline
    · rw [at_head hnumbers, Option.map_eq_some_iff] at hat
      obtain ⟨row, htaken, hid⟩ := hat
      exact ⟨row, (takenRow_eq_some.1 htaken).1, hid⟩
    · rw [List.map_cons, List.nodup_cons] at hnumbers
      have hne : line.lineNumber ≠ first.lineNumber :=
        fun heq => hnumbers.1 (heq ▸ List.mem_map_of_mem hline)
      rw [at_tail hne] at hat
      exact ih hnumbers.2 hline hat

end Takers

/-- The lines are being written: those of `done` have been, and the rows that those of `rest` take
are parked. -/
structure Rewriting (matches' : LineIds) (start : ℕ) (existing : List StoredOrderLine)
    (matched : List OrderLineId) (done rest : List CommerceOrderLineFact) (state : LineRewrite)
    : Prop where
  mem_rows : ∀ row, row ∈ state.rows ↔
    (∃ line ∈ done, ∃ id, state.lineIdByNumber.at line.lineNumber = some id
      ∧ row = .write line id)
    ∨ ∃ old ∈ existing, old.id ∈ (matchLines existing matched rest).map (·.2) ∧ row = old.park
  ids_nodup : (state.rows.map (·.id)).Nodup
  ids_lt : ∀ row ∈ state.rows, row.id < state.nextRowId
  start_le : start ≤ state.nextRowId
  assigned : ∀ line ∈ done, ∃ id, state.lineIdByNumber.at line.lineNumber = some id
    ∧ (matches'.at line.lineNumber).elim (start ≤ id) (· = id)

section Writing

variable {matches' : LineIds} {start : ℕ} {existing : List StoredOrderLine}
  {matched : List OrderLineId} {done rest : List CommerceOrderLineFact}
  {line : CommerceOrderLineFact} {state : LineRewrite} {row old : StoredOrderLine}

theorem StoredOrderLine.park_id : row.park.id = row.id := by
  unfold park
  split_ifs <;> rfl

theorem StoredOrderLine.park_external : row.park.externalLineId = row.externalLineId := by
  unfold park
  split_ifs <;> rfl

theorem StoredOrderLine.park_neg (h : 0 < row.lineNumber) : row.park.lineNumber < 0 := by
  rw [park, if_pos h]
  exact neg_neg_of_pos h

theorem checkLineRow_ok {others : List StoredOrderLine} (hquantity : 0 < row.values.quantity)
    (hnumber : ∀ other ∈ others, other.lineNumber ≠ row.lineNumber)
    (hexternal : ∀ externalLineId, row.externalLineId = some externalLineId →
      ∀ other ∈ others, other.externalLineId ≠ some externalLineId) :
    checkLineRow others row = .ok () := by
  have hnumbers : row.lineNumber ∉ others.map (·.lineNumber) := by
    rw [List.mem_map]
    rintro ⟨other, hother, heq⟩
    exact hnumber other hother heq
  have hexternals : row.externalLineId = none
      ∨ row.externalLineId ∉ others.map (·.externalLineId) := by
    rcases hrow : row.externalLineId with _ | externalLineId
    · exact .inl rfl
    · refine .inr fun hmem => ?_
      obtain ⟨other, hother, heq⟩ := List.mem_map.1 hmem
      exact hexternal _ hrow other hother heq
  rw [checkLineRow, Except.require_of hquantity, Except.require_of hnumbers,
    Except.require_of hexternals]
  rfl

theorem Rewriting.checked (hs : LinesSound existing start)
    (hl : LinesStorable (done ++ line :: rest))
    (h : Rewriting matches' start existing matched done (line :: rest) state)
    (others : List StoredOrderLine) (hothers : ∀ other ∈ others, other ∈ state.rows)
    (htaken : ∀ old, takenRow existing matched line = some old →
      ∀ other ∈ others, other.id ≠ old.id) (id : OrderLineId) :
    checkLineRow others (.write line id) = .ok () := by
  have hmem : line ∈ done ++ line :: rest := List.mem_append_right _ List.mem_cons_self
  have hnumbers := hl.numbers_nodup
  rw [List.map_append, List.map_cons, List.nodup_append] at hnumbers
  have hdone : ∀ other ∈ done, other.lineNumber ≠ line.lineNumber :=
    fun other hother => hnumbers.2.2 _ (List.mem_map_of_mem hother) _ List.mem_cons_self
  refine checkLineRow_ok (hl.quantities line hmem) (fun other hother => ?_)
    fun externalLineId hexternal other hother hsame => ?_
  · rcases (h.mem_rows other).1 (hothers other hother) with ⟨l, hl', id', -, rfl⟩ | ⟨old, hold, -, rfl⟩
    · exact hdone l hl'
    · exact ((StoredOrderLine.park_neg (hs.numbers_pos old hold)).trans
        (hl.numbers_pos line hmem)).ne
  · rcases (h.mem_rows other).1 (hothers other hother) with
      ⟨l, hl', id', -, rfl⟩ | ⟨old, hold, hpending, rfl⟩
    · have heq := eq_of_nodup_filterMap hl.externals_nodup (List.mem_append_left _ hl') hmem hsame
        hexternal
      exact hdone l hl' (by rw [heq])
    · rw [StoredOrderLine.park_external] at hsame
      have hcandidate := (candidateFor_external hs hexternal).2 ⟨hold, hsame⟩
      have hfree := (mem_matchLines_ids.1 hpending).1
      exact htaken old (takenRow_eq_some.2 ⟨hcandidate, hfree⟩) _ hother
        StoredOrderLine.park_id

section

variable (hl : LinesStorable (done ++ line :: rest))
include hl

theorem numbers_apart :
    ∀ other ∈ done, other.lineNumber ≠ line.lineNumber := by
  have hnumbers := hl.numbers_nodup
  rw [List.map_append, List.map_cons, List.nodup_append] at hnumbers
  exact fun other hother => hnumbers.2.2 _ (List.mem_map_of_mem hother) _ List.mem_cons_self

theorem Rewriting.assign (h : Rewriting matches' start existing matched done (line :: rest) state)
    {id : OrderLineId} (hid : (matches'.at line.lineNumber).elim (start ≤ id) (· = id)) :
    ∀ l ∈ done ++ [line], ∃ id', LineIds.at (state.lineIdByNumber ++ [(line.lineNumber, id)])
        l.lineNumber = some id'
      ∧ (matches'.at l.lineNumber).elim (start ≤ id') (· = id') := by
  intro l hmem
  rcases List.mem_append.1 hmem with hmem | hmem
  · rw [LineIds.at_concat, if_neg (numbers_apart hl l hmem)]
    exact h.assigned l hmem
  · rw [List.mem_singleton.1 hmem, LineIds.at_concat, if_pos rfl]
    exact ⟨id, rfl, hid⟩

theorem written_concat {ids : LineIds} {id : OrderLineId}
    : (∃ l ∈ done ++ [line], ∃ id', LineIds.at (ids ++ [(line.lineNumber, id)])
        l.lineNumber = some id' ∧ row = .write l id') ↔
      (∃ l ∈ done, ∃ id', ids.at l.lineNumber = some id' ∧ row = .write l id')
        ∨ row = .write line id := by
  constructor
  · rintro ⟨l, hmem, id', hat, rfl⟩
    rw [LineIds.at_concat] at hat
    rcases List.mem_append.1 hmem with hmem | hmem
    · rw [if_neg (numbers_apart hl l hmem)] at hat
      exact .inl ⟨l, hmem, id', hat, rfl⟩
    · rw [List.mem_singleton.1 hmem] at hat ⊢
      rw [if_pos rfl, Option.some.injEq] at hat
      exact .inr (by rw [hat])
  · rintro (⟨l, hmem, id', hat, rfl⟩ | rfl)
    · refine ⟨l, List.mem_append_left _ hmem, id', ?_, rfl⟩
      rw [LineIds.at_concat, if_neg (numbers_apart hl l hmem)]
      exact hat
    · exact ⟨line, by simp, id, by rw [LineIds.at_concat, if_pos rfl], rfl⟩

end

theorem Rewriting.insert (hs : LinesSound existing start)
    (hl : LinesStorable (done ++ line :: rest)) (htaken : takenRow existing matched line = none)
    (hat : matches'.at line.lineNumber = none)
    (h : Rewriting matches' start existing matched done (line :: rest) state) :
    ∃ state', state.writeLine matches' line = .ok state'
      ∧ Rewriting matches' start existing matched (done ++ [line]) rest state' := by
  have hcheck := h.checked hs hl state.rows (fun _ h => h)
    (fun old hold => by rw [htaken] at hold; cases hold) state.nextRowId
  have hpending : matchLines existing matched (line :: rest) = matchLines existing matched rest := by
    rw [matchLines_cons, matchedAfter, htaken]
    rfl
  refine ⟨⟨state.rows ++ [.write line state.nextRowId], state.nextRowId + 1,
    state.lineIdByNumber ++ [(line.lineNumber, state.nextRowId)]⟩, ?_, ?_, ?_, ?_, ?_, ?_⟩
  · rw [LineRewrite.writeLine, hat]
    simp only [hcheck]
    rfl
  · intro row
    rw [List.mem_append, List.mem_singleton, h.mem_rows, written_concat hl, hpending]
    exact or_right_comm
  · rw [List.map_append, List.nodup_append]
    refine ⟨h.ids_nodup, List.nodup_singleton _, fun id hid id' hid' => ?_⟩
    obtain ⟨row, hrow, rfl⟩ := List.mem_map.1 hid
    rw [List.map_singleton, List.mem_singleton] at hid'
    rw [hid']
    exact (h.ids_lt row hrow).ne
  · intro row hrow
    rcases List.mem_append.1 hrow with hrow | hrow
    · exact (h.ids_lt row hrow).trans (Nat.lt_succ_self _)
    · rw [List.mem_singleton.1 hrow]
      exact Nat.lt_succ_self _
  · exact h.start_le.trans (Nat.le_succ _)
  · refine h.assign hl ?_
    rw [hat]
    exact h.start_le

theorem Rewriting.overwrite (hs : LinesSound existing start)
    (hl : LinesStorable (done ++ line :: rest)) (htaken : takenRow existing matched line = some old)
    (hat : matches'.at line.lineNumber = some old.id)
    (h : Rewriting matches' start existing matched done (line :: rest) state) :
    ∃ state', state.writeLine matches' line = .ok state'
      ∧ Rewriting matches' start existing (old.id :: matched) (done ++ [line]) rest state' := by
  obtain ⟨hcandidate, hfree⟩ := takenRow_eq_some.1 htaken
  have hold := candidateFor_mem hcandidate
  have hcheck := h.checked hs hl (state.rows.filter (·.id != old.id))
    (fun _ h => (List.mem_filter.1 h).1) (fun taken htaken' other hother => by
      rw [htaken] at htaken'
      cases htaken'
      simpa using (List.mem_filter.1 hother).2) old.id
  have hids : ∀ id, id ∈ (matchLines existing matched (line :: rest)).map (·.2) ↔
      id = old.id ∨ id ∈ (matchLines existing (old.id :: matched) rest).map (·.2) := by
    intro id
    rw [matchLines_cons, matchedAfter, htaken]
    simp
  have hparked : old.park ∈ state.rows :=
    (h.mem_rows _).2 (.inr ⟨old, hold, (hids _).2 (.inl rfl), rfl⟩)
  have honly : ∀ row ∈ state.rows, row.id = old.id → row = old.park := fun row hrow heq =>
    eq_of_key h.ids_nodup hparked hrow (heq.trans StoredOrderLine.park_id.symm)
  set replace : StoredOrderLine → StoredOrderLine :=
    fun row => if row.id = old.id then .write line old.id else row with hreplace
  have hreplaceId : ∀ row, (replace row).id = row.id := by
    intro row
    simp only [hreplace]
    split_ifs with heq
    · exact heq.symm
    · rfl
  have hmem : ∀ row, row ∈ state.rows.map replace ↔
      row = .write line old.id ∨ row ∈ state.rows ∧ row.id ≠ old.id := by
    intro row
    rw [List.mem_map]
    constructor
    · rintro ⟨row, hrow, rfl⟩
      simp only [hreplace]
      split_ifs with heq
      · exact .inl rfl
      · exact .inr ⟨hrow, heq⟩
    · rintro (rfl | ⟨hrow, hne⟩)
      · exact ⟨old.park, hparked, by simp only [hreplace, StoredOrderLine.park_id, if_true]⟩
      · exact ⟨row, hrow, by simp only [hreplace, if_neg hne]⟩
  refine ⟨⟨state.rows.map replace, state.nextRowId,
    state.lineIdByNumber ++ [(line.lineNumber, old.id)]⟩, ?_, ?_, ?_, ?_, ?_, ?_⟩
  · rw [LineRewrite.writeLine, hat]
    simp only [hcheck]
    rfl
  · intro row
    rw [hmem, written_concat hl]
    constructor
    · rintro (rfl | ⟨hrow, hne⟩)
      · exact .inl (.inr rfl)
      · rcases (h.mem_rows row).1 hrow with hwritten | ⟨old', hold', hpending, rfl⟩
        · exact .inl (.inl hwritten)
        · rw [StoredOrderLine.park_id] at hne
          exact .inr ⟨old', hold', ((hids _).1 hpending).resolve_left hne, rfl⟩
    · rintro ((hwritten | rfl) | ⟨old', hold', hpending, rfl⟩)
      · refine .inr ⟨(h.mem_rows row).2 (.inl hwritten), fun heq => ?_⟩
        have hsame := honly row ((h.mem_rows row).2 (.inl hwritten)) heq
        obtain ⟨l, hl', id, -, rfl⟩ := hwritten
        have hneg := StoredOrderLine.park_neg (hs.numbers_pos old hold)
        have hpos := hl.numbers_pos l (List.mem_append_left _ hl')
        rw [← hsame] at hneg
        exact absurd hpos hneg.not_gt
      · exact .inl rfl
      · refine .inr ⟨(h.mem_rows _).2 (.inr ⟨old', hold', (hids _).2 (.inr hpending), rfl⟩), ?_⟩
        rw [StoredOrderLine.park_id]
        exact fun heq => (mem_matchLines_ids.1 hpending).1 (by rw [heq]; exact List.mem_cons_self)
  · rw [List.map_map]
    simp only [Function.comp_def, hreplaceId]
    exact h.ids_nodup
  · intro row hrow
    obtain ⟨old', hold', rfl⟩ := List.mem_map.1 hrow
    rw [hreplaceId]
    exact h.ids_lt old' hold'
  · exact h.start_le
  · refine h.assign hl ?_
    rw [hat]
    rfl

theorem Rewriting.step (hs : LinesSound existing start) (hl : LinesStorable (done ++ line :: rest))
    (hat : matches'.at line.lineNumber = (takenRow existing matched line).map (·.id))
    (h : Rewriting matches' start existing matched done (line :: rest) state) :
    ∃ state', state.writeLine matches' line = .ok state'
      ∧ Rewriting matches' start existing (matchedAfter existing matched line)
        (done ++ [line]) rest state' := by
  unfold matchedAfter
  rcases htaken : takenRow existing matched line with _ | old
  · rw [htaken] at hat
    exact h.insert hs hl htaken hat
  · rw [htaken] at hat
    exact h.overwrite hs hl htaken hat

theorem Rewriting.run (hs : LinesSound existing start) {lines : List CommerceOrderLineFact}
    (hl : LinesStorable lines) : ∀ {rest matched done state}, done ++ rest = lines →
    (∀ line ∈ rest, matches'.at line.lineNumber =
      (matchLines existing matched rest).at line.lineNumber) →
    Rewriting matches' start existing matched done rest state →
    ∃ result matched', state.writeLines matches' rest = .ok result
      ∧ Rewriting matches' start existing matched' lines [] result
  | [], matched, done, state, hdone, _, h => by
    rw [List.append_nil] at hdone
    subst hdone
    exact ⟨state, matched, rfl, h⟩
  | line :: rest, matched, done, state, hdone, hat, h => by
    have hl' : LinesStorable (done ++ line :: rest) := by rwa [hdone]
    have hnumbers : ((line :: rest).map (·.lineNumber)).Nodup := by
      have hall := hl'.numbers_nodup
      rw [List.map_append, List.nodup_append] at hall
      exact hall.2.1
    have hhead := hat line List.mem_cons_self
    rw [at_head hnumbers] at hhead
    obtain ⟨state', hwrite, h'⟩ := h.step hs hl' hhead
    have htail : ∀ l ∈ rest, matches'.at l.lineNumber =
        (matchLines existing (matchedAfter existing matched line) rest).at l.lineNumber := by
      intro l hmem
      rw [hat l (List.mem_cons_of_mem _ hmem)]
      refine at_tail fun heq => ?_
      rw [List.map_cons, List.nodup_cons] at hnumbers
      exact hnumbers.1 (heq ▸ List.mem_map_of_mem hmem)
    obtain ⟨result, matched', hresult, hfinal⟩ :=
      Rewriting.run hs hl (by rw [List.append_assoc]; exact hdone) htail h'
    refine ⟨result, matched', ?_, hfinal⟩
    rw [LineRewrite.writeLines, hwrite]
    exact hresult

structure LinesWritten (existing : List StoredOrderLine) (start : ℕ)
    (lines : List CommerceOrderLineFact) (result : LineRewrite) : Prop where
  mem_rows : ∀ row, row ∈ result.rows ↔ ∃ line ∈ lines, ∃ id,
    result.lineIdByNumber.at line.lineNumber = some id ∧ row = .write line id
  ids_nodup : (result.rows.map (·.id)).Nodup
  ids_lt : ∀ row ∈ result.rows, row.id < result.nextRowId
  start_le : start ≤ result.nextRowId
  assigned : ∀ line ∈ lines, ∃ id, result.lineIdByNumber.at line.lineNumber = some id
    ∧ ((matchLines existing [] lines).at line.lineNumber).elim (start ≤ id) (· = id)

def OrphansFree (references : List InboundReference) (existing : List StoredOrderLine)
    (lines : List CommerceOrderLineFact) : Prop :=
  ∀ row ∈ existing, (∀ line ∈ lines, candidateFor existing line ≠ some row) →
    ∀ reference ∈ references, reference.id ≠ row.id

variable {references : List InboundReference}

theorem deleteRows_eq_ok {ids : List ℕ} {u : PUnit} :
    deleteRows references ids = .ok u ↔ ∀ reference ∈ references, reference.id ∉ ids := by
  unfold deleteRows
  split
  · rename_i hnone
    simpa using List.find?_eq_none.1 hnone
  · rename_i reference hfound
    have hmem := List.find?_some hfound
    simp only [decide_eq_true_eq] at hmem
    simp only [reduceCtorEq, false_iff, not_forall, not_not]
    exact ⟨reference, List.mem_of_find?_eq_some hfound, hmem⟩

theorem taken_iff (hs : LinesSound existing start) {lines : List CommerceOrderLineFact}
    (hold : old ∈ existing) : old.id ∈ (matchLines existing [] lines).map (·.2) ↔
      ∃ line ∈ lines, candidateFor existing line = some old := by
  rw [mem_matchLines_ids]
  constructor
  · rintro ⟨-, line, hline, row, hrow, hid⟩
    exact ⟨line, hline, by rw [hrow, eq_of_key hs.ids_nodup hold (candidateFor_mem hrow) hid]⟩
  · rintro ⟨line, hline, hrow⟩
    exact ⟨List.not_mem_nil, line, hline, old, hrow, rfl⟩

theorem orphans_free_iff (hs : LinesSound existing start) {lines : List CommerceOrderLineFact} :
    deleteRows references ((existing.filter fun row =>
        !decide (row.id ∈ (matchLines existing [] lines).map (·.2))).map (·.id)) = .ok () ↔
      OrphansFree references existing lines := by
  rw [deleteRows_eq_ok]
  constructor
  · intro h row hrow huntaken reference href hid
    refine h reference href (List.mem_map.2 ⟨row, List.mem_filter.2 ⟨hrow, ?_⟩, hid.symm⟩)
    have hnot : row.id ∉ (matchLines existing [] lines).map (·.2) := by
      rw [taken_iff hs hrow]
      rintro ⟨line, hline, hcandidate⟩
      exact huntaken line hline hcandidate
    simpa using hnot
  · intro h reference href hmem
    obtain ⟨row, hrow, hid⟩ := List.mem_map.1 hmem
    obtain ⟨hrow, hnot⟩ := List.mem_filter.1 hrow
    refine h row hrow (fun line hline hcandidate => ?_) reference href hid.symm
    have htaken := (taken_iff hs hrow).2 ⟨line, hline, hcandidate⟩
    simp [htaken] at hnot

theorem rewriteLines_ok (hs : LinesSound existing start) {lines : List CommerceOrderLineFact}
    (hl : LinesStorable lines) (hfree : OrphansFree references existing lines) :
    ∃ result, rewriteLines references existing start lines = .ok result
      ∧ LinesWritten existing start lines result := by
  set kept := existing.filter fun row =>
    decide (row.id ∈ (matchLines existing [] lines).map (·.2)) with hkept
  set parked := if matchLines existing [] lines = [] then kept
    else kept.map StoredOrderLine.park with hparked
  have hmem : ∀ row, row ∈ parked ↔ ∃ old ∈ existing,
      old.id ∈ (matchLines existing [] lines).map (·.2) ∧ row = old.park := by
    intro row
    rw [hparked]
    split_ifs with hnone
    · simp [hkept, hnone]
    · simp only [hkept, List.mem_map, List.mem_filter, decide_eq_true_eq]
      constructor
      · rintro ⟨old, ⟨hold, htaken⟩, rfl⟩
        exact ⟨old, hold, htaken, rfl⟩
      · rintro ⟨old, hold, htaken, rfl⟩
        exact ⟨old, ⟨hold, htaken⟩, rfl⟩
  have hids : (parked.map (·.id)).Sublist (existing.map (·.id)) := by
    rw [hparked]
    split_ifs
    · exact List.filter_sublist.map _
    · rw [List.map_map]
      simp only [Function.comp_def, StoredOrderLine.park_id]
      exact List.filter_sublist.map _
  have hinitial : Rewriting (matchLines existing [] lines) start existing [] [] lines
      ⟨parked, start, []⟩ := by
    refine ⟨fun row => ?_, hs.ids_nodup.sublist hids, fun row hrow => ?_, le_rfl,
      fun _ hline => absurd hline List.not_mem_nil⟩
    · rw [hmem]
      simp
    · obtain ⟨old, hold, -, rfl⟩ := (hmem row).1 hrow
      rw [StoredOrderLine.park_id]
      exact hs.ids_lt old hold
  obtain ⟨result, matched', hresult, hfinal⟩ :=
    hinitial.run hs hl (List.nil_append _) fun _ _ => rfl
  refine ⟨result, ?_, fun row => ?_, hfinal.ids_nodup, hfinal.ids_lt, hfinal.start_le,
    hfinal.assigned⟩
  · have hdelete := (orphans_free_iff hs).2 hfree
    unfold rewriteLines
    simp only [hdelete]
    exact hresult
  · rw [hfinal.mem_rows]
    simp [matchLines]

namespace LinesWritten

variable {lines : List CommerceOrderLineFact} {result : LineRewrite}

theorem perm (hl : LinesStorable lines) (h : LinesWritten existing start lines result) :
    result.rows.Perm (lines.map fun line =>
      .write line ((result.lineIdByNumber.at line.lineNumber).getD 0)) := by
  have hnumbers : ((lines.map fun line => StoredOrderLine.write line
      ((result.lineIdByNumber.at line.lineNumber).getD 0)).map (·.lineNumber)).Nodup := by
    rw [List.map_map]
    exact hl.numbers_nodup
  rw [List.perm_ext_iff_of_nodup (List.Nodup.of_map _ h.ids_nodup) (List.Nodup.of_map _ hnumbers)]
  intro row
  rw [h.mem_rows, List.mem_map]
  constructor
  · rintro ⟨line, hline, id, hat, rfl⟩
    exact ⟨line, hline, by rw [hat]; rfl⟩
  · rintro ⟨line, hline, rfl⟩
    obtain ⟨id, hat, -⟩ := h.assigned line hline
    exact ⟨line, hline, id, hat, by rw [hat]; rfl⟩

theorem mem_of_at (h : LinesWritten existing start lines result) (hline : line ∈ lines)
    {id : OrderLineId} (hat : result.lineIdByNumber.at line.lineNumber = some id) :
    .write line id ∈ result.rows :=
  (h.mem_rows _).2 ⟨line, hline, id, hat, rfl⟩

theorem sound (hl : LinesStorable lines) (h : LinesWritten existing start lines result) :
    LinesSound result.rows result.nextRowId where
  ids_nodup := h.ids_nodup
  ids_lt := h.ids_lt
  numbers_nodup := by
    rw [((h.perm hl).map _).nodup_iff, List.map_map]
    exact hl.numbers_nodup
  numbers_pos row hrow := by
    obtain ⟨line, hline, id, -, rfl⟩ := (h.mem_rows row).1 hrow
    exact hl.numbers_pos line hline
  externals_nodup := by
    rw [((h.perm hl).filterMap _).nodup_iff, List.filterMap_map]
    exact hl.externals_nodup

theorem id_kept_iff (hs : LinesSound existing start) (hl : LinesStorable lines)
    (h : LinesWritten existing start lines result) :
    (∀ old ∈ existing, old.externalLineId.isSome → ∀ row ∈ result.rows,
        row.externalLineId = old.externalLineId → row.id = old.id) ↔
      lines.Pairwise fun other line => other.externalLineId = none → ∀ old ∈ existing,
        old.externalLineId.isSome → old.externalLineId = line.externalLineId →
          old.lineNumber ≠ other.lineNumber := by
  constructor
  · intro hkept
    rw [List.pairwise_iff_forall_sublist]
    intro other line hsub hother old hold hsome hexternal hnumber
    obtain ⟨first, second, hlines, hfirst, hsecond⟩ := List.cons_sublist_iff.1 hsub
    obtain ⟨middle, after, rfl⟩ := List.append_of_mem (List.singleton_sublist.1 hsecond)
    have hlines' : lines = (first ++ middle) ++ line :: after := by
      rw [hlines, List.append_assoc]
    have hline : line ∈ lines := hlines' ▸ by simp
    obtain ⟨externalLineId, hext⟩ := Option.isSome_iff_exists.1 hsome
    have hcandidate := (candidateFor_external hs (hexternal ▸ hext)).2 ⟨hold, hext⟩
    have hstolen := (candidateFor_number hs hother).2 ⟨hold, hnumber⟩
    obtain ⟨id, hat, hid⟩ := h.assigned line hline
    have hsame : id = old.id := hkept old hold hsome _ (h.mem_of_at hline hat) hexternal.symm
    rcases htaken : (matchLines existing [] lines).at line.lineNumber with _ | id'
    · rw [htaken] at hid
      have hlt := hs.ids_lt old hold
      exact absurd (hsame ▸ hid : start ≤ old.id) hlt.not_ge
    · obtain ⟨row, hrow, hrowId⟩ := candidate_of_at hl.numbers_nodup hline htaken
      rw [hcandidate, Option.some.injEq] at hrow
      subst hrow
      have hnumbers := hl.numbers_nodup
      rw [hlines'] at hnumbers htaken
      rw [← hrowId, at_eq_candidate_iff hs hnumbers hcandidate] at htaken
      exact htaken.2 other (List.mem_append_left _ hfirst) hstolen
  · intro hpairwise old hold hsome row hrow hexternal
    obtain ⟨line, hline, id, hat, rfl⟩ := (h.mem_rows row).1 hrow
    obtain ⟨externalLineId, hext⟩ := Option.isSome_iff_exists.1 hsome
    have hlineExt : line.externalLineId = some externalLineId := hext ▸ hexternal
    have hcandidate := (candidateFor_external hs hlineExt).2 ⟨hold, hext⟩
    obtain ⟨before, after, rfl⟩ := List.append_of_mem hline
    have htaken : (matchLines existing [] (before ++ line :: after)).at line.lineNumber =
        some old.id := (at_eq_candidate_iff hs hl.numbers_nodup hcandidate).2
      ⟨List.not_mem_nil, fun other hother hsame => by
        rcases hnone : other.externalLineId with _ | otherId
        · have hapart := (List.pairwise_append.1 hpairwise).2.2 other hother line
            List.mem_cons_self hnone old hold hsome hexternal.symm
          exact hapart ((candidateFor_number hs hnone).1 hsame).2
        · have hotherExt := ((candidateFor_external hs hnone).1 hsame).2
          have hsameLine := eq_of_nodup_filterMap hl.externals_nodup
            (List.mem_append_left _ hother) hline hnone (hlineExt.trans (hext.symm.trans hotherExt))
          exact numbers_apart hl other hother (by rw [hsameLine])⟩
    obtain ⟨id', hat', hid⟩ := h.assigned line hline
    rw [htaken] at hid
    rw [hat, Option.some.injEq] at hat'
    have hid' : old.id = id' := hid
    exact hat'.trans hid'.symm

theorem kept {nextRowId : ℕ} (hs : LinesSound existing nextRowId) (hl : LinesStorable lines)
    (hown : ∀ line ∈ lines, ∃ id, .write line id ∈ existing)
    (h : LinesWritten existing start lines result) :
    ∀ line ∈ lines, ∀ id, .write line id ∈ existing →
      result.lineIdByNumber.at line.lineNumber = some id := by
  intro line hline id hrow
  obtain ⟨id', hat, hid⟩ := h.assigned line hline
  obtain ⟨before, after, hlines⟩ := List.append_of_mem hline
  have hnumbers := hl.numbers_nodup
  rw [hlines] at hnumbers
  have htaken : (matchLines existing [] lines).at line.lineNumber = some id := by
    rw [hlines]
    refine (at_eq_candidate_iff hs hnumbers (hs.candidate hrow)).2
      ⟨List.not_mem_nil, fun other hother hsteals => ?_⟩
    obtain ⟨otherId, hotherRow⟩ := hown other (hlines ▸ List.mem_append_left _ hother)
    rw [hs.candidate hotherRow, Option.some.injEq] at hsteals
    have hstorable : LinesStorable (before ++ line :: after) := hlines ▸ hl
    exact numbers_apart hstorable other hother (congrArg StoredOrderLine.lineNumber hsteals)
  rw [htaken] at hid
  have hid' : id = id' := hid
  rw [hat, hid']

theorem kept_perm {nextRowId : ℕ} (hs : LinesSound existing nextRowId) (hl : LinesStorable lines)
    (hown : ∀ line ∈ lines, ∃ id, .write line id ∈ existing)
    (hall : ∀ row ∈ existing, ∃ line ∈ lines, row = .write line row.id)
    (h : LinesWritten existing start lines result) : result.rows.Perm existing := by
  rw [List.perm_ext_iff_of_nodup (List.Nodup.of_map _ h.ids_nodup)
    (List.Nodup.of_map _ hs.ids_nodup)]
  intro row
  rw [h.mem_rows]
  constructor
  · rintro ⟨line, hline, id, hat, rfl⟩
    obtain ⟨own, hrow⟩ := hown line hline
    rw [h.kept hs hl hown line hline own hrow, Option.some.injEq] at hat
    exact hat ▸ hrow
  · intro hrow
    obtain ⟨line, hline, heq⟩ := hall row hrow
    rw [heq] at hrow
    exact ⟨line, hline, row.id, h.kept hs hl hown line hline row.id hrow, heq⟩

theorem again (hl : LinesStorable lines) (h : LinesWritten existing start lines result) {start' : ℕ}
    {result' : LineRewrite} (h' : LinesWritten result.rows start' lines result') :
    (∀ line ∈ lines, result'.lineIdByNumber.at line.lineNumber =
        result.lineIdByNumber.at line.lineNumber)
      ∧ result'.rows.Perm result.rows := by
  have hown : ∀ line ∈ lines, ∃ id, .write line id ∈ result.rows := by
    intro line hline
    obtain ⟨id, hat, -⟩ := h.assigned line hline
    exact ⟨id, h.mem_of_at hline hat⟩
  refine ⟨fun line hline => ?_, h'.kept_perm (h.sound hl) hl hown fun row hrow => ?_⟩
  · obtain ⟨id, hat, -⟩ := h.assigned line hline
    rw [hat]
    exact h'.kept (h.sound hl) hl hown line hline id (h.mem_of_at hline hat)
  · obtain ⟨line, hline, id, -, rfl⟩ := (h.mem_rows row).1 hrow
    exact ⟨line, hline, rfl⟩

theorem orphansFree_again (hl : LinesStorable lines) (h : LinesWritten existing start lines result)
    {references : List InboundReference} :
    OrphansFree references result.rows lines := by
  intro row hrow huntaken
  obtain ⟨line, hline, id, -, rfl⟩ := (h.mem_rows row).1 hrow
  exact absurd ((h.sound hl).candidate hrow) (huntaken line hline)

end LinesWritten

end Writing

end Loxep

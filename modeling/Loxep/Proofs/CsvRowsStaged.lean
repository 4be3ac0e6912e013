import Loxep.CsvStaging
import Loxep.DecimalText
import Loxep.Lib.ListSums

/-!
# When a CSV import is staged

Every row goes into the one insert, so a value that a normalizer lets through and a column refuses
fails them all. What a column rounds, pads or cuts is stored without a warning of its own.
-/

namespace Loxep.CsvStaging

open CsvCandidateInput

variable {csv : CsvImport} {row : List CsvCell}
variable {lines after : List DocumentLineRow} {lineCount : ℕ} {ids : ℕ → CandidateId}

def threeLetters (currency : String) : Prop :=
  currency.length = 3 ∧ currency.toList.all Char.isAlpha = true

/-- What six decimals hold of an amount, without rounding. -/
def exactAmount (amount : String) : Option Money :=
  ((parseDecimalText amount).filter (·.scale ≤ 6)).map (·.rescale 6)

/-- The table can store the date, the amount and the currency of the row. -/
structure Storable (csv : CsvImport) (row : List CsvCell) : Prop where
  date : trimCell (csv.rawDate row) ≠ [] →
    ∃ d ∈ normalizeDateString (csv.rawDate row), isCalendarDate d = true
  amount : trimCell (csv.rawAmount row) ≠ [] → ∃ m ∈ normalizeMoneyString (csv.rawAmount row),
    ∃ units ∈ exactAmount m, units.natAbs < numericLimit
  currency : ∀ c ∈ csv.currency row, threeLetters c

/-- A row that is storable is staged with its values, another is pending with a warning. -/
structure Settles (csv : CsvImport) (row : List CsvCell) (c : CandidateInsertValue) : Prop where
  kept : Storable csv row → c.lineDate = normalizeDateString (csv.rawDate row) ∧
    c.lineAmount = (normalizeMoneyString (csv.rawAmount row)).bind exactAmount ∧
    c.currency = csv.currency row
  pending : ¬ Storable csv row → c.disposition = .pending ∧ csv.rowWarnings row ≠ []

/-- A date that cannot be read, or an amount that is missing or cannot be read. -/
def Unread (csv : CsvImport) (row : List CsvCell) : Prop :=
  trimCell (csv.rawDate row) ≠ [] ∧ normalizeDateString (csv.rawDate row) = none ∨
    normalizeMoneyString (csv.rawAmount row) = none

/-- No column refuses what is read of the row. -/
structure Accepted (csv : CsvImport) (row : List CsvCell) : Prop where
  text : (∀ t ∈ csv.payeeName row, isText t = true) ∧ ∀ t ∈ csv.description row, isText t = true
  date : ∀ d ∈ normalizeDateString (csv.rawDate row), isCalendarDate d = true
  amount : ∀ m ∈ normalizeMoneyString (csv.rawAmount row), fitsNumeric m = true
  currency : ∀ c ∈ csv.currency row, fitsChar3 c = true

/-- And what a column would alter comes with a warning. -/
structure LetsThrough (csv : CsvImport) (row : List CsvCell) : Prop extends Accepted csv row where
  altered : Unread csv row ∨
    (∀ m ∈ normalizeMoneyString (csv.rawAmount row), (exactAmount m).isSome) ∧
      ∀ c ∈ csv.currency row, threeLetters c

/-- So many numbers after the cached count are in use by none of the lines. -/
def NumbersFree (lines : List DocumentLineRow) (lineCount rows : ℕ) : Prop :=
  ∀ index < rows, lineCount + 1 + index ∉ lines.map (·.lineNumber)

theorem numericOf_eq_exact {amount : String} {units : Money} (h : units ∈ exactAmount amount) :
    numericOf amount = units := by
  obtain ⟨d, hd, rfl⟩ := Option.map_eq_some_iff.1 h
  obtain ⟨hparsed, hscale⟩ := Option.filter_eq_some_iff.1 hd
  unfold parseDecimalText at hparsed
  split_ifs at hparsed
  obtain rfl := Option.some.inj hparsed
  have hexact : ∀ n s, s ≤ 6 →
      Rounding.halfUp (n * moneyUnits) (10 ^ s) = n * 10 ^ (6 - s) := fun n s hs => by
    have hunits : moneyUnits = 10 ^ (6 - s) * 10 ^ s := by
      rw [← pow_add, Nat.sub_add_cancel hs]
      rfl
    rw [hunits, ← mul_assoc, Rounding.halfUp_mul_self (by positivity)]
  simp only [numericOf, ScaledDecimal.rescale]
  rw [hexact _ _ (by simpa using hscale)]
  split_ifs <;> push_cast <;> ring

theorem char3_eq {c : String} (h : c.length = 3) : char3 c = c := by
  have hlength : c.toList.length ≤ 3 := h.le
  rw [char3, h, List.take_of_length_le hlength]
  simp

theorem map_numericOf {amount : Option String}
    (h : ∀ m ∈ amount, ∃ units, exactAmount m = some units) :
    amount.map numericOf = amount.bind exactAmount := by
  rcases amount with _ | m
  · rfl
  · obtain ⟨units, hunits⟩ := h m rfl
    rw [Option.map_some, Option.bind_some, hunits, numericOf_eq_exact hunits]

theorem map_char3 {currency : Option String} (h : ∀ c ∈ currency, c.length = 3) :
    currency.map char3 = currency := by
  rcases currency with _ | c
  · rfl
  · rw [Option.map_some, char3_eq (h c rfl)]

theorem textOf_ne_empty {cell : CsvCell} {text : String} (h : textOf cell = some text) :
    text ≠ "" := by
  unfold textOf at h
  split_ifs at h with hblank
  obtain rfl := Option.some.inj h
  exact fun hempty => hblank (by simpa using congrArg String.toList hempty)

theorem isText_folded {index : ℕ} : (csv.mapCsvRow row index).folded.all isText = true ↔
    (∀ t ∈ csv.payeeName row, isText t = true) ∧ ∀ t ∈ csv.description row, isText t = true := by
  rcases hpayee : csv.payeeName row with _ | payee <;>
    rcases hdescription : csv.description row with _ | description
  all_goals simp only [folded, CsvImport.mapCsvRow_payeeName, CsvImport.mapCsvRow_description,
    hpayee, hdescription]
  case some.some =>
    rw [if_pos ⟨textOf_ne_empty hpayee, textOf_ne_empty hdescription⟩]
    simp [isText, toString]
  all_goals simp

theorem normalizeMoneyString_blank {raw : CsvCell} (h : trimCell raw = []) :
    normalizeMoneyString raw = none := by
  unfold normalizeMoneyString
  rw [h]
  rfl

theorem rowWarnings_ne_nil_iff : csv.rowWarnings row ≠ [] ↔ Unread csv row := by
  unfold CsvImport.rowWarnings Unread
  by_cases hblank : trimCell (csv.rawAmount row) = []
  · simp [hblank, normalizeMoneyString_blank hblank]
  · by_cases hdate : trimCell (csv.rawDate row) ≠ [] ∧ normalizeDateString (csv.rawDate row) = none
    · simp [hdate]
    · by_cases hread : normalizeMoneyString (csv.rawAmount row) = none <;>
        simp [hdate, hblank, hread]

theorem insertValue_eq_ok {input : CsvCandidateInput} {c : CandidateInsertValue} :
    input.insertValue = .ok c ↔ input.folded.all isText = true ∧
      input.lineAmount.all fitsNumeric = true ∧ input.currency.all fitsChar3 = true ∧
      input.lineDate.all isCalendarDate = true ∧ input.storedValue = c := by
  simp only [insertValue, Except.bind_eq_ok, Except.require_eq_ok, Except.pure_eq_ok,
    exists_const]

theorem exactAmount_of_storable {m : String} (h : Storable csv row)
    (hread : normalizeMoneyString (csv.rawAmount row) = some m) :
    ∃ units, exactAmount m = some units := by
  have hcell : trimCell (csv.rawAmount row) ≠ [] := fun hblank => by
    rw [normalizeMoneyString_blank hblank] at hread
    cases hread
  obtain ⟨m', hm', units, hunits, hlimit⟩ := h.amount hcell
  rw [hread] at hm'
  cases hm'
  exact ⟨units, hunits⟩

theorem storable_of_read (h : LetsThrough csv row) (hread : ¬ Unread csv row) :
    Storable csv row := by
  obtain ⟨hexact, hletters⟩ := h.altered.resolve_left hread
  refine ⟨fun hdate => ?_, fun _ => ?_, hletters⟩
  · rcases hd : normalizeDateString (csv.rawDate row) with _ | d
    · exact absurd (.inl ⟨hdate, hd⟩) hread
    · exact ⟨d, rfl, h.date d hd⟩
  · rcases hm : normalizeMoneyString (csv.rawAmount row) with _ | m
    · exact absurd (.inr hm) hread
    · obtain ⟨units, hunits⟩ := Option.isSome_iff_exists.1 (hexact m hm)
      have hfits := h.amount m hm
      rw [fitsNumeric, numericOf_eq_exact hunits, decide_eq_true_eq] at hfits
      exact ⟨m, rfl, units, hunits, hfits⟩

theorem settles_stored (h : LetsThrough csv row) :
    Settles csv row (csv.mapCsvRow row 0).storedValue := by
  refine ⟨fun hstorable => ?_, fun hstorable => ?_⟩
  · simp only [storedValue, CsvImport.mapCsvRow_lineDate, CsvImport.mapCsvRow_lineAmount,
      CsvImport.mapCsvRow_currency, true_and]
    exact ⟨map_numericOf fun m hm => exactAmount_of_storable hstorable hm,
      map_char3 fun c hc => (hstorable.currency c hc).1⟩
  · have hwarned : csv.rowWarnings row ≠ [] :=
      rowWarnings_ne_nil_iff.2 (by_contra fun hread => hstorable (storable_of_read h hread))
    exact ⟨if_neg fun hexpense => hwarned (List.isEmpty_iff.1 hexpense.1), hwarned⟩

theorem accepted_iff {c : CandidateInsertValue} :
    (csv.mapCsvRow row 0).insertValue = .ok c ↔
      Accepted csv row ∧ (csv.mapCsvRow row 0).storedValue = c := by
  rw [insertValue_eq_ok, isText_folded]
  simp only [CsvImport.mapCsvRow_lineAmount, CsvImport.mapCsvRow_lineDate,
    CsvImport.mapCsvRow_currency, Option.all_eq_true]
  exact ⟨fun ⟨htext, hamount, hcurrency, hdate, hc⟩ => ⟨⟨htext, hdate, hamount, hcurrency⟩, hc⟩,
    fun ⟨h, hc⟩ => ⟨h.text, h.amount, h.currency, h.date, hc⟩⟩

theorem settles_iff : (∃ c, (csv.mapCsvRow row 0).insertValue = .ok c ∧ Settles csv row c) ↔
    LetsThrough csv row := by
  simp only [accepted_iff]
  constructor
  · rintro ⟨c, ⟨haccepted, -⟩, hsettles⟩
    refine ⟨haccepted, ?_⟩
    by_cases hstorable : Storable csv row
    · refine .inr ⟨fun m hm => ?_, hstorable.currency⟩
      obtain ⟨units, hunits⟩ := exactAmount_of_storable hstorable hm
      exact Option.isSome_iff_exists.2 ⟨units, hunits⟩
    · exact .inl (rowWarnings_ne_nil_iff.1 (hsettles.pending hstorable).2)
  · intro h
    exact ⟨_, ⟨h.toAccepted, rfl⟩, settles_stored h⟩

theorem stageCsvRows_eq_ok : stageCsvRows lines lineCount ids csv.mapCsvRows = .ok after ↔
    ∃ values, csv.parsed.rows.mapM (fun row => (csv.mapCsvRow row 0).insertValue) = .ok values ∧
      NumbersFree lines lineCount csv.parsed.rows.length ∧
      lines ++ values.mapIdx (candidateLine (lineCount + 1) ids false) = after := by
  simp only [stageCsvRows, Except.bind_eq_ok, Except.require_eq_ok, Except.pure_eq_ok,
    exists_const]
  refine exists_congr fun values => ?_
  -- the number a row has within the import is read by no column
  have hrows : csv.mapCsvRows.map insertValue =
      csv.parsed.rows.map fun row => (csv.mapCsvRow row 0).insertValue :=
    @map_mapIdx_eq_map _ _ _ (fun i row => csv.mapCsvRow row i) insertValue _ (fun _ _ => rfl) _
  rw [Except.mapM_eq_ok, Except.mapM_eq_ok, hrows]
  refine and_congr_right fun hvalues => and_congr_left fun _ => ?_
  have hlength : csv.parsed.rows.length = values.length := by
    simpa using congrArg List.length hvalues
  rw [NumbersFree, hlength]
  constructor
  · intro h index hlt
    exact h _ (List.mem_mapIdx.2 ⟨index, hlt, rfl⟩)
  · intro h row hrow
    obtain ⟨index, hlt, rfl⟩ := List.mem_mapIdx.1 hrow
    exact h index hlt

section Import

variable (text : List Char) (mapping : CsvColumnMapping) (currency : Option String)
  (runtime : CsvRuntime) (lines : List DocumentLineRow) (lineCount : ℕ) (ids : ℕ → CandidateId)

/-- An import is refused as a whole or adds a line for each row. -/
theorem staged_or_refused :
    let csv : CsvImport := { runtime with
      parsed := parseCsvText text, mapping, defaultCurrency := currency }
    (∃ staged, stageCsvRows lines lineCount ids csv.mapCsvRows = .ok (lines ++ staged) ∧
      staged.map (·.lineNumber) =
        List.range' (lineCount + 1) (parseCsvText text).rows.length) ↔
      (∀ row ∈ (parseCsvText text).rows, Accepted csv row) ∧
        NumbersFree lines lineCount (parseCsvText text).rows.length := by
  intro csv
  simp only [stageCsvRows_eq_ok]
  constructor
  · rintro ⟨_, ⟨values, hvalues, hfree, -⟩, -⟩
    refine ⟨fun row hrow => ?_, hfree⟩
    obtain ⟨c, hc⟩ := Except.mapM_returns_iff.1 ⟨values, hvalues⟩ row hrow
    exact (accepted_iff.1 hc).1
  · rintro ⟨haccepted, hfree⟩
    obtain ⟨values, hvalues⟩ := Except.mapM_returns_iff.2 fun row hrow =>
      ⟨_, accepted_iff.2 ⟨haccepted row hrow, rfl⟩⟩
    refine ⟨_, ⟨values, hvalues, hfree, rfl⟩, ?_⟩
    have hlength : (parseCsvText text).rows.length = values.length := by
      simpa using congrArg List.length (Except.mapM_eq_ok.1 hvalues)
    rw [map_mapIdx, hlength]
    refine List.ext_getElem (by simp) fun i _ _ => ?_
    simp [candidateLine]

/-- Every row is kept exactly or left pending with a warning, if and only if no row is let through
that a column refuses or alters in silence. -/
theorem staged_iff :
    let csv : CsvImport := { runtime with
      parsed := parseCsvText text, mapping, defaultCurrency := currency }
    (∃ staged, stageCsvRows lines lineCount ids csv.mapCsvRows = .ok (lines ++ staged) ∧
      List.Forall₂ (Settles csv) (parseCsvText text).rows
        (staged.map (·.toCandidateInsertValue))) ↔
      (∀ row ∈ (parseCsvText text).rows, LetsThrough csv row) ∧
        NumbersFree lines lineCount (parseCsvText text).rows.length := by
  intro csv
  have hlines : ∀ values : List CandidateInsertValue,
      (values.mapIdx (candidateLine (lineCount + 1) ids false)).map (·.toCandidateInsertValue) =
        values := fun values =>
    (@map_mapIdx_eq_map _ _ _ (candidateLine (lineCount + 1) ids false) (·.toCandidateInsertValue)
      id (fun _ _ => rfl) values).trans (List.map_id values)
  have hsettles := @Except.mapM_forall₂_iff _ _ _ (fun row => (csv.mapCsvRow row 0).insertValue)
    (parseCsvText text).rows (Settles csv)
  simp only [settles_iff] at hsettles
  rw [← hsettles]
  simp only [stageCsvRows_eq_ok, List.append_cancel_left_eq]
  constructor
  · rintro ⟨_, ⟨values, hvalues, hfree, rfl⟩, hall⟩
    exact ⟨⟨values, hvalues, hlines values ▸ hall⟩, hfree⟩
  · rintro ⟨⟨values, hvalues, hall⟩, hfree⟩
    exact ⟨_, ⟨values, hvalues, hfree, rfl⟩, (hlines values).symm ▸ hall⟩

end Import

namespace ThirtiethOfFebruary

def text : List Char := "date,amount\n2026-02-30,12.00\n2026-02-27,5.00".toList

def table : CsvImport where
  toUpperCase := String.toUpper
  toLowerCase := String.toLower
  sha256 := fun _ => "9f86d081884c7d659a2feaa0c55ad015"
  parsed := parseCsvText text
  mapping := { date := some "date".toList, amount := some "amount".toList }
  defaultCurrency := some "USD"

end ThirtiethOfFebruary

theorem bad_date_blocks_import :
    ¬ ∃ after, stageCsvRows [] 0 (fun index => index) ThirtiethOfFebruary.table.mapCsvRows =
      .ok after := by
  rw [← Except.returns_iff]
  decide +kernel

end Loxep.CsvStaging

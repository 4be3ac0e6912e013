import Mathlib.Tactic.Common
import Loxep.CsvText

/-!
# A table read back from its CSV text

The scan takes a field over whatever stands behind it, then a row, then the table; the line ends
are settled on the way, since none is cut in two by a field or by a row of two fields.
-/

namespace Loxep

variable {row : List CsvCell} {value field text rest : List Char}

def doubled (value : CsvCell) : List Char :=
  value.flatMap fun c => if c = '"' then ['"', '"'] else [c]

def PlainChar (c : Char) : Prop := c ≠ ',' ∧ c ≠ '"' ∧ c ≠ '\r' ∧ c ≠ '\n'

inductive FieldText : CsvCell → List Char → Prop
  | plain {value : CsvCell} : (∀ c ∈ value, PlainChar c) → FieldText value value
  | quoted {value : CsvCell} : FieldText value ('"' :: doubled value ++ ['"'])

inductive RowText : List CsvCell → List Char → Prop
  | last {value : CsvCell} {text : List Char} : FieldText value text → RowText [value] text
  | cons {value : CsvCell} {text rest : List Char} {row : List CsvCell} :
      FieldText value text → RowText row rest → RowText (value :: row) (text ++ ',' :: rest)

def lineEnds : List (List Char) := [['\n'], ['\r', '\n'], ['\r']]

/-- A rendering of a table, the last row with or without a line end. -/
inductive TableText : List (List CsvCell) → List Char → Prop
  | last {row : List CsvCell} {text lineEnd : List Char} :
      RowText row text → lineEnd ∈ [] :: lineEnds → TableText [row] (text ++ lineEnd)
  | cons {row : List CsvCell} {text lineEnd rest : List Char} {table : List (List CsvCell)} :
      RowText row text → lineEnd ∈ lineEnds → TableText table rest →
      TableText (row :: table) (text ++ (lineEnd ++ rest))

theorem lineFeeds_cons {c : Char} (hc : c ≠ '\r') :
    lineFeeds (c :: text) = c :: lineFeeds text := by
  simp [lineFeeds, dropReturns, hc]

theorem lineFeeds_return (h : text.head? ≠ some '\n') :
    lineFeeds ('\r' :: text) = '\n' :: lineFeeds text := by
  simp [lineFeeds, dropReturns, h]

theorem lineFeeds_pair (h : text.head? = some '\n') :
    lineFeeds ('\r' :: text) = lineFeeds text := by
  simp [lineFeeds, dropReturns, h]

theorem lineFeeds_ne_quote (h : text.head? ≠ some '"') : (lineFeeds text).head? ≠ some '"' := by
  rcases text with _ | ⟨c, text⟩
  · simp [lineFeeds, dropReturns]
  by_cases hc : c = '\r'
  · subst hc
    by_cases hpair : text.head? = some '\n'
    · obtain ⟨text, rfl⟩ : ∃ rest, text = '\n' :: rest := by
        rcases text with _ | ⟨d, text⟩ <;> simp_all
      simp [lineFeeds_pair hpair, lineFeeds_cons]
    · simp [lineFeeds_return hpair]
  · simpa [lineFeeds_cons hc] using h

theorem head_doubled : (doubled value ++ '"' :: rest).head? = some '\n' ↔
    value.head? = some '\n' := by
  rcases value with _ | ⟨c, value⟩
  · simp [doubled]
  · by_cases hc : c = '"' <;> simp [doubled, hc]

theorem scan_quoted (hrest : rest.head? ≠ some '"') :
    scanRows true field row (lineFeeds (doubled value ++ '"' :: rest)) =
      scanRows false (field ++ lineFeeds value) row (lineFeeds rest) := by
  induction value generalizing field with
  | nil =>
    rw [doubled, List.flatMap_nil, List.nil_append, lineFeeds_cons (by decide), scanRows,
      if_pos rfl, if_neg (lineFeeds_ne_quote hrest)]
    simp [lineFeeds, dropReturns]
  | cons c value ih =>
    by_cases hquote : c = '"'
    · subst hquote
      have hdoubled : doubled ('"' :: value) = '"' :: '"' :: doubled value := rfl
      rw [hdoubled, List.cons_append, List.cons_append, lineFeeds_cons (by decide),
        lineFeeds_cons (by decide), scanRows, if_pos rfl, if_pos List.head?_cons, List.tail_cons,
        ih, lineFeeds_cons (by decide)]
      simp
    have hdoubled : doubled (c :: value) = c :: doubled value := by simp [doubled, hquote]
    rw [hdoubled, List.cons_append]
    by_cases hreturn : c = '\r'
    · subst hreturn
      by_cases hpair : value.head? = some '\n'
      · rw [lineFeeds_pair (head_doubled.2 hpair), lineFeeds_pair hpair, ih]
      · rw [lineFeeds_return (mt head_doubled.1 hpair), lineFeeds_return hpair, scanRows,
          if_neg (by decide), ih]
        simp
    · rw [lineFeeds_cons hreturn, lineFeeds_cons hreturn, scanRows, if_neg hquote, ih]
      simp

theorem scan_plain (hplain : ∀ c ∈ value, PlainChar c) :
    scanRows false field row (lineFeeds (value ++ rest)) =
      scanRows false (field ++ lineFeeds value) row (lineFeeds rest) := by
  induction value generalizing field with
  | nil => simp [lineFeeds, dropReturns]
  | cons c value ih =>
    obtain ⟨hcomma, hquote, hreturn, hfeed⟩ := hplain c (by simp)
    rw [List.cons_append, lineFeeds_cons hreturn, lineFeeds_cons hreturn, scanRows, if_neg hquote,
      if_neg hcomma, if_neg hfeed, ih fun d hd => hplain d (List.mem_cons_of_mem _ hd)]
    simp

theorem scan_field (h : FieldText value text) (hrest : rest.head? ≠ some '"') :
    scanRows false [] row (lineFeeds (text ++ rest)) =
      scanRows false (lineFeeds value) row (lineFeeds rest) := by
  cases h with
  | plain hplain => simpa using @scan_plain row value [] rest hplain
  | quoted =>
    rw [List.cons_append, List.cons_append, lineFeeds_cons (by decide), scanRows, if_pos rfl,
      List.append_assoc]
    simpa using @scan_quoted row value [] rest hrest

theorem scan_row {cells : List CsvCell} (h : RowText cells text) (hrest : rest.head? ≠ some '"') :
    ∃ front last, cells.map lineFeeds = front ++ [last] ∧
      scanRows false [] row (lineFeeds (text ++ rest)) =
        scanRows false last (row ++ front) (lineFeeds rest) := by
  induction h generalizing row with
  | last hfield => exact ⟨[], _, rfl, by rw [scan_field hfield hrest, List.append_nil]⟩
  | @cons value text tail cells hfield _ ih =>
    obtain ⟨front, last, hcells, hscan⟩ := @ih (row ++ [lineFeeds value])
    refine ⟨lineFeeds value :: front, last, by rw [List.map_cons, hcells, List.cons_append], ?_⟩
    rw [List.append_assoc, scan_field hfield (by simp), List.cons_append,
      lineFeeds_cons (by decide), scanRows, if_neg (by decide), if_pos rfl, hscan]
    simp

theorem lineFeeds_lineEnd {lineEnd : List Char} (h : lineEnd ∈ lineEnds)
    (hrest : rest.head? ≠ some '\n') : lineFeeds (lineEnd ++ rest) = '\n' :: lineFeeds rest := by
  simp only [lineEnds, List.mem_cons, List.not_mem_nil, or_false] at h
  rcases h with rfl | rfl | rfl
  · exact lineFeeds_cons (by decide)
  · exact (lineFeeds_pair rfl).trans (lineFeeds_cons (by decide))
  · exact lineFeeds_return hrest

theorem head_row {cells : List CsvCell} (h : RowText cells text) (hwide : 2 ≤ cells.length) :
    (text ++ rest).head? ≠ some '\n' := by
  cases h with
  | last _ => simp at hwide
  | @cons value _ _ _ hfield _ =>
    cases hfield with
    | quoted => simp
    | plain hplain =>
      rcases value with _ | ⟨c, value⟩
      · simp
      · simpa using (hplain c (by simp)).2.2.2

variable {table : List (List CsvCell)}

theorem head_table (h : TableText table text) (hwide : ∀ cells ∈ table, 2 ≤ cells.length)
    : text.head? ≠ some '\n' := by
  cases h with
  | last hrow _ => exact head_row hrow (hwide _ (by simp))
  | cons hrow _ _ => exact head_row hrow (hwide _ (by simp))

theorem scan_table (h : TableText table text) (hwide : ∀ cells ∈ table, 2 ≤ cells.length) :
    scanRows false [] [] (lineFeeds text) = table.map (·.map lineFeeds) := by
  have hend : ∀ lineEnd ∈ lineEnds, ∀ rest, (lineEnd ++ rest).head? ≠ some '"' := by
    simp [lineEnds]
  induction h with
  | @last cells text lineEnd hrow hlineEnd =>
    have hfront : ∀ front : List CsvCell, ∀ last, cells.map lineFeeds = front ++ [last] →
        front ≠ [] := by
      rintro front last hcells rfl
      have := congrArg List.length hcells
      have := hwide _ (List.mem_singleton.2 rfl)
      simp at *
      omega
    rcases List.mem_cons.1 hlineEnd with rfl | hlineEnd
    · obtain ⟨front, last, hcells, hscan⟩ := @scan_row [] _ [] _ hrow (by simp)
      rw [hscan, List.nil_append]
      have hnil : lineFeeds [] = [] := rfl
      rw [hnil, scanRows, if_neg fun hboth => hfront _ _ hcells hboth.2]
      simp [hcells]
    · have := hend lineEnd hlineEnd []
      rw [List.append_nil] at this
      obtain ⟨front, last, hcells, hscan⟩ := @scan_row [] _ lineEnd _ hrow this
      have hfeed := @lineFeeds_lineEnd [] lineEnd hlineEnd (by simp)
      rw [List.append_nil] at hfeed
      rw [hscan, hfeed, scanRows, if_neg (by decide), if_neg (by decide), if_pos rfl]
      simp [hcells, lineFeeds, dropReturns, scanRows]
  | @cons cells text lineEnd tail table hrow hlineEnd htable ih =>
    have hrows := fun c hc => hwide c (List.mem_cons_of_mem _ hc)
    obtain ⟨front, last, hcells, hscan⟩ :=
      @scan_row [] _ (lineEnd ++ tail) _ hrow (hend lineEnd hlineEnd tail)
    rw [hscan, lineFeeds_lineEnd hlineEnd (head_table htable hrows), scanRows,
      if_neg (by decide), if_neg (by decide), if_pos rfl, ih hrows]
    simp [hcells]

theorem lineFeeds_concat {c : Char} (hreturn : c ≠ '\r') (hfeed : c ≠ '\n') :
    lineFeeds (text ++ [c]) = lineFeeds text ++ [c] := by
  induction text with
  | nil => exact lineFeeds_cons hreturn
  | cons d text ih =>
    rw [List.cons_append]
    by_cases hd : d = '\r'
    · subst hd
      have hhead : (text ++ [c]).head? = some '\n' ↔ text.head? = some '\n' := by
        rcases text with _ | ⟨e, text⟩ <;> simp [hfeed]
      by_cases hpair : text.head? = some '\n'
      · rw [lineFeeds_pair (hhead.2 hpair), lineFeeds_pair hpair, ih]
      · rw [lineFeeds_return (mt hhead.1 hpair), lineFeeds_return hpair, ih, List.cons_append]
    · rw [lineFeeds_cons hd, lineFeeds_cons hd, ih, List.cons_append]

theorem trimCell_lineFeeds {cell : CsvCell} (h : trimCell cell = cell) :
    trimCell (lineFeeds cell) = lineFeeds cell := by
  have hfront : cell.dropWhile isSpace = cell :=
    (List.dropWhile_suffix _).eq_of_length_le <| by
      conv_lhs => rw [← h]
      exact (List.rdropWhile_prefix _ _).length_le
  rw [trimCell, hfront] at h
  have hcr : isSpace '\r' = true := by decide
  have hlf : isSpace '\n' = true := by decide
  rcases cell.eq_nil_or_concat with rfl | ⟨front, last, rfl⟩
  · rfl
  rw [List.concat_eq_append] at *
  have hlast : isSpace last = false := by
    by_contra hspace
    rw [List.rdropWhile_concat_pos _ _ _ (by simpa using hspace)] at h
    have := congrArg List.length h
    have := (List.rdropWhile_prefix isSpace front).length_le
    simp at *
    omega
  have hends := @lineFeeds_concat front last
    (by rintro rfl; simp [hcr] at hlast) (by rintro rfl; simp [hlf] at hlast)
  have hfirst : (lineFeeds (front ++ [last])).dropWhile isSpace = lineFeeds (front ++ [last]) := by
    rcases hcell : front ++ [last] with _ | ⟨c, cell⟩
    · rfl
    rw [hcell] at hfront
    have hc : isSpace c = false := by
      by_contra hspace
      rw [List.dropWhile_cons_of_pos (by simpa using hspace)] at hfront
      have := congrArg List.length hfront
      have := (List.dropWhile_suffix isSpace (l := cell)).length_le
      simp at *
      omega
    rw [lineFeeds_cons (by rintro rfl; simp [hcr] at hc), List.dropWhile_cons_of_neg (by simp [hc])]
  rw [trimCell, hfirst, hends, List.rdropWhile_concat_neg _ _ _ (by simp [hlast])]

theorem padRow_eq {width : ℕ} (h : row.length = width) : padRow width row = row := by
  rw [padRow, h, Nat.sub_self, List.replicate_zero, List.append_nil, ← h, List.take_length]

theorem parseCsvText_rendered {headers : List CsvCell} {rows : List (List CsvCell)}
    (h : TableText (headers :: rows) text) (hwide : 2 ≤ headers.length)
    (hrows : ∀ row ∈ rows, row.length = headers.length)
    (htrimmed : ∀ header ∈ headers, trimCell header = header) :
    parseCsvText text = ⟨headers.map lineFeeds, rows.map (·.map lineFeeds)⟩ := by
  have hall : ∀ row ∈ headers :: rows, 2 ≤ row.length := by
    intro row hrow
    rcases List.mem_cons.1 hrow with rfl | hrow
    · exact hwide
    · exact (hrows row hrow).symm ▸ hwide
  have hkept : ((headers :: rows).map (·.map lineFeeds)).filter (· ≠ [[]]) =
      (headers :: rows).map (·.map lineFeeds) := by
    rw [List.filter_eq_self]
    intro cells hcells
    obtain ⟨row, hrow, rfl⟩ := List.mem_map.1 hcells
    have := hall row hrow
    refine decide_eq_true fun hblank => ?_
    have := congrArg List.length hblank
    simp at this
    omega
  have hheaders : (headers.map lineFeeds).map trimCell = headers.map lineFeeds := by
    rw [List.map_map]
    exact List.map_congr_left fun header hheader => trimCell_lineFeeds (htrimmed header hheader)
  unfold parseCsvText
  rw [scan_table h hall, hkept]
  simp only [List.map_cons, hheaders, List.length_map, CsvParseResult.mk.injEq, true_and]
  rw [List.map_map]
  exact List.map_congr_left fun row hrow => padRow_eq (by simp [hrows row hrow])

theorem quoted_return_read :
    parseCsvText ((['a'] ++ ',' :: ['b']) ++ (['\r', '\n'] ++
      ((('"' :: doubled ['x', '\r', '"'] ++ ['"']) ++ ',' :: []) ++ []))) =
      ⟨[['a'], ['b']], [[['x', '\n', '"'], []]]⟩ :=
  @parseCsvText_rendered _ [['a'], ['b']] [[['x', '\r', '"'], []]]
    (.cons (.cons (.plain (by simp [PlainChar])) (.last (.plain (by simp [PlainChar]))))
      (by simp [lineEnds]) (.last (.cons .quoted (.last (.plain (by simp)))) (by simp)))
    (by decide) (by simp) (by decide)

end Loxep

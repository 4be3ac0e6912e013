import Loxep.Proofs.EngineSpec
import Loxep.Proofs.TemplateBalance

/-!
# What a fingerprint covers

The hashed text can be read back, so two facts with one fingerprint agree on every consumed
field. Lines are built from those fields alone, the text of a line apart. The book is routed from
the entity and the date, which are among them, unless the fact names a book itself, which is not.
-/

namespace Loxep

section Texts

theorem PostingAmountSource.text_injective {a b : PostingAmountSource} (h : a.text = b.text) :
    a = b := by
  cases a <;> cases b <;> first | rfl | exact absurd h (by decide)

theorem value_of_padded (zeros n : ℕ) :
    Nat.ofDigitChars 10 (List.replicate zeros '0' ++ (toString n).toList) 0 = n := by
  rw [Nat.ofDigitChars_append, Nat.ofDigitChars_replicate_zero, mul_zero]
  simp [Nat.ofDigitChars_ten_toDigits]

variable {zeros n : ℕ} {c : Char}

theorem isDigit_of_mem_padded (h : c ∈ List.replicate zeros '0' ++ (toString n).toList)
    : c.isDigit := by
  rcases List.mem_append.1 h with h | h
  · rw [List.eq_of_mem_replicate h]
    decide
  · have hd : c ∈ Nat.toDigits 10 n := by simpa using h
    exact Nat.isDigit_of_mem_toDigits (by decide) (by decide) hd

theorem notMem_padded (hc : c.isDigit = false) :
    c ∉ List.replicate zeros '0' ++ (toString n).toList := by
  intro h
  simp [isDigit_of_mem_padded h] at hc

theorem padded_inj {zeros' n' : ℕ} (h : List.replicate zeros '0' ++ (toString n).toList =
      List.replicate zeros' '0' ++ (toString n').toList) : n = n' := by
  have hvalue := congrArg (Nat.ofDigitChars 10 · 0) h
  simpa only [value_of_padded] using hvalue

theorem dateText_injective {d d' : CalendarDate} (h : toString d = toString d') : d = d' := by
  have hl := congrArg String.toList h
  have hsplit : ∀ d : CalendarDate, (toString d).toList =
      (padZeros 4 d.year).toList ++ '-' :: ((padZeros 2 d.month).toList ++ '-' ::
        (padZeros 2 d.day).toList) := by
    intro d
    show (s!"{padZeros 4 d.year}-{padZeros 2 d.month}-{padZeros 2 d.day}").toList = _
    have htext : ∀ s : String, toString s = s := fun _ => rfl
    have hdash : "-".toList = ['-'] := rfl
    simp only [String.toList_append, List.append_assoc, htext, hdash, List.cons_append,
      List.nil_append]
  have hdash : ∀ width n : ℕ, '-' ∉ (padZeros width n).toList := by
    intro width n
    rw [padZeros, String.toList_ofList]
    exact notMem_padded (by decide)
  rw [hsplit, hsplit] at hl
  obtain ⟨hyear, hl⟩ := Separator.first_field_inj (hdash _ _) (hdash _ _) hl
  obtain ⟨hmonth, hday⟩ := Separator.first_field_inj (hdash _ _) (hdash _ _) hl
  simp only [padZeros, String.toList_ofList] at hyear hmonth hday
  rw [CalendarDate.mk.injEq]
  exact ⟨padded_inj hyear, padded_inj hmonth, padded_inj hday⟩

def paddedDigits (value : ℤ) : List Char :=
  List.replicate (7 - (toString value.natAbs).toList.length) '0' ++
    (toString value.natAbs).toList

theorem formatDecimal_toList (value : ℤ) :
    (formatDecimal value).toList =
      ((if value < 0 then ['-'] else []) ++
        (paddedDigits value).take ((paddedDigits value).length - 6)) ++ '.' ::
          (paddedDigits value).drop ((paddedDigits value).length - 6) := by
  unfold formatDecimal
  simp only [paddedDigits]
  split_ifs <;> simp

theorem formatDecimal_injective {value value' : ℤ} (h : formatDecimal value = formatDecimal value')
    : value = value' := by
  have hl := congrArg String.toList h
  rw [formatDecimal_toList, formatDecimal_toList] at hl
  have htake : ∀ {c : Char} {v : ℤ} {k : ℕ}, c.isDigit = false →
      c ∉ (paddedDigits v).take k := fun hc hmem =>
    notMem_padded hc (List.mem_of_mem_take hmem)
  have hpoint : ∀ v : ℤ, '.' ∉ (if v < 0 then ['-'] else []) ++
      (paddedDigits v).take ((paddedDigits v).length - 6) := by
    intro v hmem
    rcases List.mem_append.1 hmem with hmem | hmem
    · split_ifs at hmem <;> simp at hmem
    · exact htake (by decide) hmem
  obtain ⟨hwhole, hfraction⟩ := Separator.first_field_inj (hpoint value) (hpoint value') hl
  have hdigits : ∀ {whole whole' : List Char},
      (paddedDigits value).take ((paddedDigits value).length - 6) = whole →
      (paddedDigits value').take ((paddedDigits value').length - 6) = whole' → whole = whole' →
      value.natAbs = value'.natAbs := by
    rintro _ _ rfl rfl heq
    have hpadded : paddedDigits value = paddedDigits value' := by
      rw [← List.take_append_drop ((paddedDigits value).length - 6) (paddedDigits value), heq,
        hfraction, List.take_append_drop]
    exact padded_inj hpadded
  by_cases hneg : value < 0 <;> by_cases hneg' : value' < 0
  · rw [if_pos hneg, if_pos hneg'] at hwhole
    have := hdigits rfl rfl (List.append_cancel_left hwhole)
    omega
  · rw [if_pos hneg, if_neg hneg', List.nil_append] at hwhole
    exact absurd (hwhole ▸ List.mem_append_left _ (List.mem_singleton_self '-'))
      (htake (by decide))
  · rw [if_neg hneg, if_pos hneg', List.nil_append] at hwhole
    exact absurd (hwhole.symm ▸ List.mem_append_left _ (List.mem_singleton_self '-'))
      (htake (by decide))
  · rw [if_neg hneg, if_neg hneg', List.nil_append, List.nil_append] at hwhole
    have := hdigits rfl rfl hwhole
    omega

end Texts

section Canonical

theorem JsonTree.text_inj {s s' : String} (h : JsonTree.text s = JsonTree.text s') : s = s' :=
  String.toList_injective (JsonTree.str.inj h)

theorem JsonTree.ofId_inj : ∀ {id id' : Option ℕ}, JsonTree.ofId id = JsonTree.ofId id' → id = id'
  | none, none, _ => rfl
  | none, some _, h => by simp [JsonTree.ofId, JsonTree.text] at h
  | some _, none, h => by simp [JsonTree.ofId, JsonTree.text] at h
  | some id, some id', h => by
    rw [toString_injective (congrArg String.toList (JsonTree.text_inj h))]

theorem Allocation.json_injective : Function.Injective Allocation.json := by
  rintro ⟨account, amount, entity, dimension⟩ ⟨account', amount', entity', dimension'⟩ h
  simp only [Allocation.json, JsonTree.arr.injEq, List.cons.injEq, and_true] at h
  obtain ⟨haccount, hamount, hentity, hdimension⟩ := h
  rw [JsonTree.ofId_inj haccount, formatDecimal_injective (JsonTree.text_inj hamount),
    JsonTree.ofId_inj hentity, JsonTree.ofId_inj hdimension]

theorem CanonicalFact.json_injective : Function.Injective CanonicalFact.json := by
  intro c c' h
  simp only [CanonicalFact.json, JsonTree.obj.injEq, List.cons.injEq, Prod.mk.injEq, true_and,
    and_true, JsonTree.arr.injEq] at h
  obtain ⟨htype, hid, hdate, hentity, hcurrency, hamounts, hmatched, hallocations⟩ := h
  have hamount : Function.Injective fun amount : PostingAmountSource × Money =>
      (amount.1.text.toList, JsonTree.text (formatDecimal amount.2)) := by
    rintro ⟨source, value⟩ ⟨source', value'⟩ heq
    obtain ⟨hsource, hvalue⟩ := Prod.mk.inj heq
    simp only at hsource hvalue
    rw [PostingAmountSource.text_injective (String.toList_injective hsource),
      formatDecimal_injective (JsonTree.text_inj hvalue)]
  have hattribute : Function.Injective fun matched : String × String =>
      (matched.1.toList, JsonTree.text matched.2) := by
    rintro ⟨name, value⟩ ⟨name', value'⟩ heq
    obtain ⟨hname, hvalue⟩ := Prod.mk.inj heq
    simp only at hname hvalue
    rw [String.toList_injective hname, JsonTree.text_inj hvalue]
  rcases c with ⟨type, id, date, entity, currency, amounts, matched, allocations⟩
  rcases c' with ⟨type', id', date', entity', currency', amounts', matched', allocations'⟩
  rw [CanonicalFact.mk.injEq]
  exact ⟨ReadableSourceFactType.text_injective (JsonTree.text_inj htype),
    toString_injective (congrArg String.toList (JsonTree.text_inj hid)),
    dateText_injective (JsonTree.text_inj hdate), JsonTree.ofId_inj hentity,
    JsonTree.text_inj hcurrency, List.map_injective_iff.2 hamount hamounts, List.map_injective_iff.2 hattribute hmatched,
    List.map_injective_iff.2 Allocation.json_injective hallocations⟩

theorem CanonicalFact.canonical_injective : Function.Injective CanonicalFact.canonical := by
  intro c c' h
  have hl := congrArg String.toList h
  simp only [CanonicalFact.canonical, String.toList_ofList] at hl
  exact CanonicalFact.json_injective (JsonTree.stringify_injective hl)

end Canonical

def BuiltLine.plain (line : BuiltLine) : BuiltLine := { line with description := none }

def postedLines (fact : SourceFact) (resolved : ResolvedPostingRule) : Option (List BuiltLine) :=
  (buildLines fact resolved).toOption.map fun built => built.map BuiltLine.plain

/-- The two facts make one entry: the same lines on the same date, in the same currency and book. -/
structure SameEntry (fact fact' : SourceFact) (resolved : ResolvedPostingRule) : Prop where
  lines : postedLines fact resolved = postedLines fact' resolved
  date : fact.accountingDate = fact'.accountingDate
  currency : fact.currency = fact'.currency
  book : ∀ (setup : Setup) (installationDefaultBookId : Option BookId),
    routeBook setup fact installationDefaultBookId =
      routeBook setup fact' installationDefaultBookId

section Lines

variable {fact fact' : SourceFact} {resolved : ResolvedPostingRule}

variable (line : BuiltLine) (lines : List BuiltLine)

@[simp] theorem plain_amount : line.plain.amount = line.amount := rfl

theorem plain_instantiate (hentity : fact.economicEntityId = fact'.economicEntityId)
    (line : PostingRuleLineRow) (amount : Money) :
    (instantiate fact line amount).plain = (instantiate fact' line amount).plain := by
  simp [BuiltLine.plain, instantiate, hentity]

theorem map_plain_amount :
    (lines.map BuiltLine.plain).map (·.amount) = lines.map (·.amount) := by
  simp [Function.comp_def]

theorem filter_plain (p : Money → Bool) (lines : List BuiltLine) :
    (lines.map BuiltLine.plain).filter (fun line => p line.amount) =
      (lines.filter fun line => p line.amount).map BuiltLine.plain := by
  rw [List.filter_map]
  rfl

theorem plain_splitByAllocations :
    (splitByAllocations fact lines).map BuiltLine.plain =
      splitByAllocations fact (lines.map BuiltLine.plain) := by
  have hnegative := filter_plain (fun amount => decide (amount < 0)) lines
  have hdebits := filter_plain (fun amount => decide (0 ≤ amount)) lines
  unfold splitByAllocations
  simp only [hnegative, hdebits]
  split_ifs
  · rfl
  · generalize lines.filter (fun line => decide (0 ≤ line.amount)) = debits
    rcases debits with _ | ⟨target, _ | ⟨second, rest⟩⟩
    · rfl
    · simp only [List.map_cons, List.map_nil]
      rw [apply_ite (List.map BuiltLine.plain)]
      refine ite_congr rfl (fun _ => rfl) fun _ => ?_
      rw [List.map_append, List.map_append, List.map_map, apply_ite (List.map BuiltLine.plain)]
      rfl
    · rfl

theorem plain_remainderLine (hentity : fact.economicEntityId = fact'.economicEntityId)
    {split split' : List BuiltLine}
    (hsplit : split.map BuiltLine.plain = split'.map BuiltLine.plain) :
    (remainderLine fact resolved split).map BuiltLine.plain =
      (remainderLine fact' resolved split').map BuiltLine.plain := by
  unfold remainderLine
  cases (resolved.lines.filter (·.amountSource == .remainder)).getLast? with
  | none => rfl
  | some template =>
    simp only [← map_plain_amount split, hsplit, map_plain_amount split']
    split_ifs
    · rfl
    · rw [List.map_singleton, List.map_singleton, plain_instantiate hentity]

theorem lookup_of_canonical (hcanon : canonicalFact fact resolved = canonicalFact fact' resolved)
    (hcarries : fact.Carries resolved.lines) (hcarries' : fact'.Carries resolved.lines)
    {line : PostingRuleLineRow} (hline : line ∈ resolved.lines)
    (hplug : line.amountSource ≠ .remainder) :
    fact.amounts.lookup line.amountSource = fact'.amounts.lookup line.amountSource := by
  have hmap := congrArg CanonicalFact.amounts hcanon
  have heq := List.map_inj_left.1 hmap line.amountSource
    (mem_consumedSources.2 ⟨⟨line, hline, rfl⟩, hplug⟩)
  obtain ⟨amount, hamount⟩ := Option.isSome_iff_exists.1 (hcarries line hline hplug)
  obtain ⟨amount', hamount'⟩ := Option.isSome_iff_exists.1 (hcarries' line hline hplug)
  have hsame : (fact.amounts.lookup line.amountSource).getD 0 =
      (fact'.amounts.lookup line.amountSource).getD 0 := (Prod.mk.inj heq).2
  rw [hamount, hamount', Option.getD_some, Option.getD_some] at hsame
  rw [hamount, hamount', hsame]

theorem plain_buildAmountLines (hcanon : canonicalFact fact resolved = canonicalFact fact' resolved)
    (hcarries : fact.Carries resolved.lines) (hcarries' : fact'.Carries resolved.lines) :
    ∀ {lines : List PostingRuleLineRow} {built built' : List BuiltLine}, lines ⊆ resolved.lines →
      buildAmountLines fact resolved lines = .ok built →
      buildAmountLines fact' resolved lines = .ok built' →
      built.map BuiltLine.plain = built'.map BuiltLine.plain
  | [], built, built', _, h, h' => by
    cases h
    cases h'
    rfl
  | line :: lines, built, built', hsub, h, h' => by
    have hline := hsub List.mem_cons_self
    have hrest := List.subset_of_cons_subset hsub
    have ih : ∀ {built built' : List BuiltLine}, buildAmountLines fact resolved lines = .ok built →
        buildAmountLines fact' resolved lines = .ok built' →
        built.map BuiltLine.plain = built'.map BuiltLine.plain :=
      plain_buildAmountLines hcanon hcarries hcarries' hrest
    rw [buildAmountLines] at h h'
    by_cases hplug : line.amountSource = .remainder
    · rw [if_pos hplug] at h h'
      exact ih h h'
    · rw [if_neg hplug] at h h'
      rw [← lookup_of_canonical hcanon hcarries hcarries' hline hplug] at h'
      cases hsource : fact.amounts.lookup line.amountSource with
      | none => simp [hsource] at h
      | some source =>
        simp only [hsource, Except.bind_eq_ok, Except.pure_eq_ok] at h h'
        obtain ⟨rest, hbuilt, rfl⟩ := h
        obtain ⟨rest', hbuilt', rfl⟩ := h'
        have htail := ih hbuilt hbuilt'
        split_ifs
        · exact htail
        · rw [List.map_cons, List.map_cons, htail,
            plain_instantiate (congrArg CanonicalFact.entity hcanon)]

theorem plain_buildLines (hcanon : canonicalFact fact resolved = canonicalFact fact' resolved)
    {built built' : List BuiltLine} (h : buildLines fact resolved = .ok built)
    (h' : buildLines fact' resolved = .ok built') :
    built.map BuiltLine.plain = built'.map BuiltLine.plain := by
  have hcarries := carries_lines.2 (buildLines_ok_iff.1 ⟨built, h⟩)
  have hcarries' := carries_lines.2 (buildLines_ok_iff.1 ⟨built', h'⟩)
  simp only [buildLines, Except.bind_eq_ok, Except.pure_eq_ok] at h h'
  obtain ⟨amounts, hamounts, rfl⟩ := h
  obtain ⟨amounts', hamounts', rfl⟩ := h'
  have hsplit : (splitByAllocations fact amounts).map BuiltLine.plain =
      (splitByAllocations fact' amounts').map BuiltLine.plain := by
    rw [plain_splitByAllocations, plain_splitByAllocations,
      plain_buildAmountLines hcanon hcarries hcarries' (List.Subset.refl _) hamounts hamounts',
      splitByAllocations_congr hcanon]
  rw [List.map_append, List.map_append, hsplit,
    plain_remainderLine (congrArg CanonicalFact.entity hcanon) hsplit]

theorem postedLines_eq_iff (hcanon : canonicalFact fact resolved = canonicalFact fact' resolved) :
    postedLines fact resolved = postedLines fact' resolved ↔
      (fact.Carries resolved.version.lines ↔ fact'.Carries resolved.version.lines) := by
  have hbuilds : ∀ fact : SourceFact, fact.Carries resolved.version.lines ↔
      ∃ built, buildLines fact resolved = .ok built := fun _ => buildLines_ok_iff.symm
  rw [hbuilds, hbuilds]
  unfold postedLines
  cases h : buildLines fact resolved with
  | error e =>
    cases h' : buildLines fact' resolved with
    | error e' => simp [Except.toOption]
    | ok built' => simp [Except.toOption]
  | ok built =>
    cases h' : buildLines fact' resolved with
    | error e' => simp [Except.toOption]
    | ok built' => simpa [Except.toOption] using plain_buildLines hcanon h h'

end Lines

section Book

variable {fact fact' : SourceFact} {resolved : ResolvedPostingRule}

theorem unknownBookError_inj {book book' : BookId}
    (h : Setup.unknownBookError book = Setup.unknownBookError book') : book = book' := by
  have hl := congrArg (fun e : AccountingError => e.message.toList) h
  simp only [Setup.unknownBookError, AccountingError.notFound, String.toList_append,
    List.append_cancel_left_eq, List.append_cancel_right_eq] at hl
  exact toString_injective hl

def Setup.none : Setup := ⟨[], [], [], [], [], [], Option.none⟩

theorem routeBook_none (fact : SourceFact) :
    routeBook Setup.none fact none = match fact.accountingBookIdOverride with
      | some book => .error (Setup.unknownBookError book)
      | none => .ok none := by
  unfold routeBook
  cases fact.accountingBookIdOverride with
  | some book => rfl
  | none =>
    cases fact.economicEntityId with
    | none => rfl
    | some entity => rfl

theorem routeBook_eq_iff (hentity : fact.economicEntityId = fact'.economicEntityId)
    (hdate : fact.accountingDate = fact'.accountingDate) :
    (∀ (setup : Setup) (installationDefaultBookId : Option BookId),
      routeBook setup fact installationDefaultBookId =
        routeBook setup fact' installationDefaultBookId) ↔
      fact.accountingBookIdOverride = fact'.accountingBookIdOverride := by
  constructor
  · intro h
    have hnone := h Setup.none none
    rw [routeBook_none, routeBook_none] at hnone
    cases hbook : fact.accountingBookIdOverride with
    | none =>
      cases hbook' : fact'.accountingBookIdOverride with
      | none => rfl
      | some book' => simp [hbook, hbook'] at hnone
    | some book =>
      cases hbook' : fact'.accountingBookIdOverride with
      | none => simp [hbook, hbook'] at hnone
      | some book' =>
        simp only [hbook, hbook', Except.error.injEq] at hnone
        rw [unknownBookError_inj hnone]
  · intro h setup installationDefaultBookId
    unfold routeBook
    rw [h, hentity, hdate]

end Book

section Complete

variable {sha256 : String → String} {hex : ∀ text, (sha256 text).toList.all isHexDigit}
  {fact fact' : SourceFact} {resolved : ResolvedPostingRule}

theorem canonicalFact_of_fingerprint (hcollision : sha256 (canonicalFact fact resolved).canonical =
        sha256 (canonicalFact fact' resolved).canonical →
      (canonicalFact fact resolved).canonical = (canonicalFact fact' resolved).canonical)
    (h : fingerprintFact (.ofText sha256 hex) fact resolved =
      fingerprintFact (.ofText sha256 hex) fact' resolved) :
    canonicalFact fact resolved = canonicalFact fact' resolved :=
  CanonicalFact.canonical_injective (hcollision h)

/-- Two facts with one fingerprint make one entry under the version exactly when they name the
same book and both or neither have the amounts the version names. -/
theorem fingerprint_complete_iff (hcollision : sha256 (canonicalFact fact resolved).canonical =
        sha256 (canonicalFact fact' resolved).canonical →
      (canonicalFact fact resolved).canonical = (canonicalFact fact' resolved).canonical)
    (h : fingerprintFact (.ofText sha256 hex) fact resolved =
      fingerprintFact (.ofText sha256 hex) fact' resolved) :
    SameEntry fact fact' resolved ↔
      fact.accountingBookIdOverride = fact'.accountingBookIdOverride ∧
        (fact.Carries resolved.version.lines ↔ fact'.Carries resolved.version.lines) := by
  have hcanon := canonicalFact_of_fingerprint hcollision h
  have hdate : fact.accountingDate = fact'.accountingDate := congrArg CanonicalFact.date hcanon
  have hentity : fact.economicEntityId = fact'.economicEntityId :=
    congrArg CanonicalFact.entity hcanon
  constructor
  · intro hsame
    exact ⟨(routeBook_eq_iff hentity hdate).1 hsame.book,
      (postedLines_eq_iff hcanon).1 hsame.lines⟩
  · rintro ⟨hbook, hcarries⟩
    exact ⟨(postedLines_eq_iff hcanon).2 hcarries, hdate, congrArg CanonicalFact.currency hcanon,
      (routeBook_eq_iff hentity hdate).2 hbook⟩

end Complete

section Examples

namespace Small

def rule : ResolvedPostingRule := ⟨rules.rules.head (by decide), rules.versions.head (by decide)⟩

def filed (payee : String) (book : Option BookId) : ExpenseRow :=
  { recorded 0 100 with payeeName := some payee, accountingBookId := book }

def filedFact (payee : String) (book : Option BookId) : Option SourceFact :=
  (tables [filed payee book]).readReadable .expense 0

end Small

theorem moved_expense_keeps_fingerprint : ∃ fact fact',
    Small.filedFact "UPS" none = some fact ∧ Small.filedFact "UPS" (some 1) = some fact' ∧
      (∀ hash, fingerprintFact hash fact Small.rule = fingerprintFact hash fact' Small.rule) ∧
      ¬ SameEntry fact fact' Small.rule := by
  refine ⟨_, _, rfl, rfl, fun hash => rfl, fun hsame => ?_⟩
  have hbook := hsame.book Setup.none none
  rw [routeBook_none, routeBook_none] at hbook
  cases hbook

namespace Small

def sha256 (_ : String) : String :=
  "4d9f236839136a8f6ed5be4f4005a76512a6cbba393237a4a77889e7917b9905"

theorem sha256_hex (text : String) : (sha256 text).toList.all isHexDigit := by
  unfold sha256
  decide +kernel

end Small

theorem corrected_payee_same_entry : ∃ fact fact',
    Small.filedFact "UPS" none = some fact ∧ Small.filedFact "Post" none = some fact' ∧
      (canonicalFact fact Small.rule).canonical =
        "\x7b\"type\":\"expense\",\"id\":\"0\",\"date\":\"2026-01-15\",\"entity\":null," ++
          "\"currency\":\"USD\",\"amounts\":\x7b\"total\":\"100.000000\"\x7d," ++
          "\"matched\":\x7b\x7d,\"allocations\":[]\x7d" ∧
      SameEntry fact fact' Small.rule := by
  refine ⟨_, _, rfl, rfl, by decide +kernel, ?_⟩
  refine (@fingerprint_complete_iff Small.sha256 Small.sha256_hex _ _ _ ?_ ?_).2 ⟨?_, ?_⟩
  · exact fun _ => rfl
  · rfl
  · rfl
  · exact Iff.rfl

end Examples

end Loxep

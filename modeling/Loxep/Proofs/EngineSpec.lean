import Loxep.Lib.Separator
import Loxep.PostingEngine
import Loxep.Proofs.JournalSpec

/-!
# The engine and its keys

What a posting key says of its fact, and what the engine asks the journal for.
-/

/-!
## What a posting key says

A minted key survives the journal's trimming, is never a reversal's key, and names the fact it
was minted for: the type and the id are read back from its right end, where no field holds a
colon.
-/

namespace Loxep

section Chars

variable {c : Char}

theorem isHexDigit_iff : isHexDigit c = true ↔ c ∈ "0123456789abcdef".toList := by
  simp [isHexDigit]

theorem isSpace_of_isHexDigit (h : isHexDigit c = true) : isSpace c = false := by
  have hall : ("0123456789abcdef".toList.all fun c => !isSpace c) = true := by decide
  have hc := List.all_eq_true.1 hall c (isHexDigit_iff.1 h)
  rwa [Bool.not_eq_true'] at hc

theorem colon_not_hex : isHexDigit ':' = false := by decide

theorem colon_notMem_toString (n : ℕ) : ':' ∉ (toString n).toList := by
  intro h
  have hd : (':' : Char) ∈ Nat.toDigits 10 n := by simpa using h
  exact absurd (Nat.isDigit_of_mem_toDigits (by decide) (by decide) hd) (by decide)

theorem toString_injective {m n : ℕ} (h : (toString m).toList = (toString n).toList) :
    m = n := by
  have hd : Nat.toDigits 10 m = Nat.toDigits 10 n := by simpa using h
  have := congrArg (Nat.ofDigitChars 10 · 0) hd
  simpa [Nat.ofDigitChars_ten_toDigits] using this

theorem colon_notMem_text (t : ReadableSourceFactType) : ':' ∉ t.text.toList := by
  cases t <;> decide

end Chars

section Key

variable (hash : FingerprintHash)

theorem fingerprint_hex (fact : SourceFact) (resolved : ResolvedPostingRule) :
    ∀ c ∈ (fingerprintFact hash fact resolved).toList, isHexDigit c = true := by
  have := hash.hex (canonicalFact fact resolved)
  rwa [List.all_eq_true] at this

variable {value type : String}

theorem prefix12_hex (h : ∀ c ∈ value.toList, isHexDigit c = true) :
    ∀ c ∈ (prefix12 value).toList, isHexDigit c = true := by
  intro c hc
  rw [prefix12, String.toList_ofList] at hc
  exact h c (List.mem_of_mem_take hc)

theorem colon_notMem_prefix12 (h : ∀ c ∈ value.toList, isHexDigit c = true) :
    ':' ∉ (prefix12 value).toList := by
  intro hc
  exact absurd (prefix12_hex h _ hc) (by simp [colon_not_hex])

theorem postingKeyFor_toList (code : String) (version : ℕ) (type : String) (id : FactId)
    (fingerprint : String) :
    (postingKeyFor code version type id fingerprint).toList =
      ('p' :: 'r' :: ':' :: (code.toList ++ ':' :: s!"v{version}".toList)) ++ ':' ::
        (type.toList ++ ':' :: ((toString id).toList ++ ':' :: (prefix12 fingerprint).toList)) := by
  simp [postingKeyFor]

variable {code fingerprint : String} {version : ℕ} {id : FactId}

theorem trim_postingKeyFor (h : ∀ c ∈ fingerprint.toList, isHexDigit c = true) :
    trim (postingKeyFor code version type id fingerprint) =
      postingKeyFor code version type id fingerprint := by
  refine trim_eq_self (fun c hc => ?_) fun c hc => ?_
  · rw [postingKeyFor_toList] at hc
    obtain rfl : c = 'p' := by simpa using hc.symm
    decide
  · have hsplit : (postingKeyFor code version type id fingerprint).toList =
        ('p' :: 'r' :: ':' :: (code.toList ++ ':' :: s!"v{version}".toList) ++ ':' ::
          (type.toList ++ ':' :: (toString id).toList)) ++ ':' :: (prefix12 fingerprint).toList := by
      rw [postingKeyFor_toList]
      simp
    rw [hsplit, List.getLast?_append_of_ne_nil _ (List.cons_ne_nil _ _)] at hc
    rcases List.mem_cons.1 (List.mem_of_getLast? hc) with rfl | hmem
    · decide
    · exact isSpace_of_isHexDigit (prefix12_hex h c hmem)

theorem reversal_key_ne {key : String}
    : "rev:" ++ key ≠ postingKeyFor code version type id fingerprint := by
  intro h
  have := congrArg String.toList h
  rw [postingKeyFor_toList] at this
  simp at this

theorem postingKeyFor_fact {code' : String} {version' : ℕ} {type type' : ReadableSourceFactType}
    {id' : FactId} {fingerprint' : String} (hf : ∀ c ∈ fingerprint.toList, isHexDigit c = true)
    (hf' : ∀ c ∈ fingerprint'.toList, isHexDigit c = true)
    (h : postingKeyFor code version type.text id fingerprint =
      postingKeyFor code' version' type'.text id' fingerprint') : type = type' ∧ id = id' := by
  have hl := congrArg String.toList h
  rw [postingKeyFor_toList, postingKeyFor_toList] at hl
  obtain ⟨-, ht, hi, -⟩ := Separator.last_three_fields_inj (colon_notMem_text type)
    (colon_notMem_text type') (colon_notMem_toString id) (colon_notMem_toString id')
    (colon_notMem_prefix12 hf) (colon_notMem_prefix12 hf') hl
  exact ⟨ReadableSourceFactType.text_injective (String.toList_injective ht),
    toString_injective hi⟩

end Key

/-!
## What the engine asks the journal for

The lines of a rule-produced entry state the built lines one by one, and the built lines depend
on nothing but what the fingerprint covers, the version's frozen text and the placeholders. One
specification says what a returned `post` has written.
-/

section Build

variable {fact fact' : SourceFact} {resolved resolved' : ResolvedPostingRule}
  {built : List BuiltLine}

def Rendered (b : BuiltLine) : Prop := b.description.map trim = b.description

theorem instantiate_rendered (fact : SourceFact) (line : PostingRuleLineRow) (amount : Money) :
    Rendered (instantiate fact line amount) := by
  unfold Rendered instantiate
  cases line.descriptionTemplate <;> simp [trim_renderTemplate]

theorem buildAmountLines_rendered : ∀ {lines : List PostingRuleLineRow} {built : List BuiltLine},
    buildAmountLines fact resolved lines = .ok built → ∀ b ∈ built, Rendered b
  | [], built, h => by
    cases h
    simp
  | line :: lines, built, h => by
    unfold buildAmountLines at h
    split_ifs at h with hrem
    · exact buildAmountLines_rendered h
    · split at h
      · cases h
      · simp only [Except.bind_eq_ok, Except.pure_eq_ok] at h
        obtain ⟨rest, hrest, rfl⟩ := h
        have ih := buildAmountLines_rendered hrest
        split_ifs
        · exact ih
        · exact List.forall_mem_cons.2 ⟨instantiate_rendered _ _ _, ih⟩

theorem splitByAllocations_rendered {lines : List BuiltLine} (h : ∀ b ∈ lines, Rendered b) :
    ∀ b ∈ splitByAllocations fact lines, Rendered b := by
  unfold splitByAllocations
  simp only []
  split_ifs with hskip
  · exact h
  · split
    · rename_i target htarget
      have ht : Rendered target := h target
        (List.mem_of_mem_filter (htarget ▸ List.mem_singleton_self target))
      split_ifs with hover hzero
      · exact h
      · intro b hb
        simp only [List.mem_append, List.not_mem_nil, or_false, List.mem_map] at hb
        rcases hb with hb | ⟨allocation, -, rfl⟩
        · exact h b (List.mem_of_mem_filter hb)
        · exact ht
      · intro b hb
        simp only [List.mem_append, List.mem_singleton, List.mem_map] at hb
        rcases hb with (hb | ⟨allocation, -, rfl⟩) | rfl
        · exact h b (List.mem_of_mem_filter hb)
        · exact ht
        · exact ht
    · exact h

theorem buildLines_rendered (h : buildLines fact resolved = .ok built) :
    ∀ b ∈ built, Rendered b := by
  simp only [buildLines, Except.bind_eq_ok, Except.pure_eq_ok] at h
  obtain ⟨amounts, hamounts, rfl⟩ := h
  intro b hb
  rcases List.mem_append.1 hb with hb | hb
  · exact splitByAllocations_rendered (buildAmountLines_rendered hamounts) b hb
  · unfold remainderLine at hb
    split at hb
    · simp at hb
    · simp only [] at hb
      split_ifs at hb
      · simp at hb
      · rw [List.mem_singleton] at hb
        exact hb ▸ instantiate_rendered _ _ _

variable {source : PostingAmountSource}

theorem mem_consumedSources {lines : List PostingRuleLineRow} :
    source ∈ consumedSources lines ↔
      (∃ line ∈ lines, line.amountSource = source) ∧ source ≠ .remainder := by
  simp [consumedSources, List.mem_insertionSort]

def SameShape (fact fact' : SourceFact) : Prop :=
  fact.amounts.map (·.1) = fact'.amounts.map (·.1) ∧ fact.placeholders = fact'.placeholders

theorem lookup_isSome_iff {α β : Type} [BEq α] [LawfulBEq α] {a : α} :
    ∀ {l : List (α × β)}, (l.lookup a).isSome ↔ a ∈ l.map (·.1)
  | [] => by simp
  | (k, v) :: l => by
    rw [List.lookup_cons]
    by_cases h : a = k
    · simp [h]
    · have : (a == k) = false := by simpa using h
      rw [this]
      simp [h, lookup_isSome_iff (l := l)]

theorem lookup_congr (hshape : SameShape fact fact')
    (hcanon : canonicalFact fact resolved = canonicalFact fact' resolved')
    (hlines : resolved.lines = resolved'.lines) (hs : source ∈ consumedSources resolved.lines) :
    fact.amounts.lookup source = fact'.amounts.lookup source := by
  have hmap := congrArg CanonicalFact.amounts hcanon
  simp only [canonicalFact, ← hlines] at hmap
  have heq := (List.map_inj_left.1 hmap) source hs
  have hget : (fact.amounts.lookup source).getD 0 = (fact'.amounts.lookup source).getD 0 :=
    (Prod.mk.injEq _ _ _ _ ▸ heq).2
  have hsome : (fact.amounts.lookup source).isSome = (fact'.amounts.lookup source).isSome := by
    rw [Bool.eq_iff_iff, lookup_isSome_iff, lookup_isSome_iff, hshape.1]
  cases h : fact.amounts.lookup source <;> cases h' : fact'.amounts.lookup source <;>
    simp_all

theorem instantiate_congr (hshape : SameShape fact fact')
    (hcanon : canonicalFact fact resolved = canonicalFact fact' resolved')
    (line : PostingRuleLineRow) (amount : Money) :
    instantiate fact line amount = instantiate fact' line amount := by
  have hentity : fact.economicEntityId = fact'.economicEntityId :=
    congrArg CanonicalFact.entity hcanon
  simp only [instantiate, hshape.2, hentity]

theorem buildAmountLines_congr (hshape : SameShape fact fact')
    (hcanon : canonicalFact fact resolved = canonicalFact fact' resolved')
    (hlines : resolved.lines = resolved'.lines) :
    ∀ {lines : List PostingRuleLineRow} {built : List BuiltLine}, lines ⊆ resolved.lines →
      buildAmountLines fact resolved lines = .ok built →
      buildAmountLines fact' resolved' lines = .ok built
  | [], _, _, h => h
  | line :: lines, built, hsub, h => by
    have hline := hsub List.mem_cons_self
    have hrest := List.subset_of_cons_subset hsub
    unfold buildAmountLines at h ⊢
    split_ifs at h ⊢ with hrem
    · exact buildAmountLines_congr hshape hcanon hlines hrest h
    · rw [← lookup_congr hshape hcanon hlines
        (mem_consumedSources.2 ⟨⟨line, hline, rfl⟩, hrem⟩)]
      split at h
      · cases h
      · rename_i source hsource
        simp only [Except.bind_eq_ok, Except.pure_eq_ok] at h ⊢
        obtain ⟨rest, hbuilt, rfl⟩ := h
        refine ⟨rest, buildAmountLines_congr hshape hcanon hlines hrest hbuilt, ?_⟩
        rw [instantiate_congr hshape hcanon]

theorem splitByAllocations_congr
    (hcanon : canonicalFact fact resolved = canonicalFact fact' resolved') (lines : List BuiltLine)
    : splitByAllocations fact lines = splitByAllocations fact' lines := by
  have htype : fact.sourceFactType = fact'.sourceFactType := congrArg CanonicalFact.type hcanon
  have hallocations : fact.allocations = fact'.allocations :=
    congrArg CanonicalFact.allocations hcanon
  simp only [splitByAllocations, htype, hallocations]

theorem buildLines_congr (hshape : SameShape fact fact')
    (hcanon : canonicalFact fact resolved = canonicalFact fact' resolved')
    (hlines : resolved.lines = resolved'.lines) (h : buildLines fact resolved = .ok built) :
    buildLines fact' resolved' = .ok built := by
  simp only [buildLines, Except.bind_eq_ok, Except.pure_eq_ok] at h ⊢
  obtain ⟨amounts, hamounts, rfl⟩ := h
  refine ⟨amounts, ?_, ?_⟩
  · rw [← hlines]
    exact buildAmountLines_congr hshape hcanon hlines (List.Subset.refl _) hamounts
  · simp only [remainderLine, splitByAllocations_congr hcanon, hlines,
      instantiate_congr hshape hcanon]

theorem resolved_lines_of_frozenText {v v' : PostingRuleVersionRow} {r r' : PostingRuleRow}
    (h : v.frozenText = v'.frozenText) :
    (⟨r, v⟩ : ResolvedPostingRule).lines = (⟨r', v'⟩ : ResolvedPostingRule).lines := by
  have : v.lines = v'.lines := by
    have := congrArg PostingRuleVersionRow.lines h
    simpa [PostingRuleVersionRow.frozenText] using this
  simp only [ResolvedPostingRule.lines, this]

end Build

section Rows

variable {setup : Setup} {book : AccountingBookRow}

def builtAccount (setup : Setup) (book : AccountingBookRow) (b : BuiltLine) :
    Option LedgerAccountRow :=
  match b.ledgerAccountId with
  | some id => setup.findAccount id
  | none => setup.findAccountBySystemKey book.id ((b.accountSystemKey.map trim).getD "")

/-- The row states the built line in the book: its amount, its account, its entity, its text. -/
structure StatesLine (setup : Setup) (book : AccountingBookRow) (b : BuiltLine)
    (row : JournalLineRow) : Prop where
  amount : row.amount = b.amount
  functionalAmount : row.functionalAmount = b.amount
  description : row.description = b.description
  entity : row.economicEntityId = b.economicEntityId
  undimensioned : row.dimensions = []
  account : ∃ account, builtAccount setup book b = some account ∧
    row.ledgerAccountId = account.id ∧ account.accountingBookId = book.id

variable {account : LedgerAccountRow}

theorem resolveAccount_eq_ok {line : JournalLineInput} {position : ℕ} :
    resolveAccount setup book line position = .ok account ↔
      (match line.ledgerAccountId with
        | some id => setup.findAccount id
        | none => setup.findAccountBySystemKey book.id (line.accountSystemKey.getD "")) =
        some account := by
  unfold resolveAccount
  cases line.ledgerAccountId with
  | none =>
    simp only []
    split <;> simp_all
  | some id =>
    simp only []
    split <;> simp_all

theorem assertAccountUsable_eq_ok {u : Unit} :
    assertAccountUsable book account = .ok u ↔ account.accountingBookId = book.id ∧
      account.isPostable = true ∧ account.status = .active := by
  simp only [assertAccountUsable, Except.bind_eq_ok, Except.require_eq_ok, exists_const]

theorem resolveLine_states {fact : SourceFact} {b : BuiltLine} (hb : Rendered b) {index : ℕ}
    {row : JournalLineRow}
    (h : resolveLine setup book (trimmedLine ⟨b.ledgerAccountId, b.accountSystemKey,
      b.economicEntityId, some (index + 1), b.description, some fact.currency, b.amount, []⟩)
        (index + 1) = .ok row) :
    StatesLine setup book b row ∧ row.lineNumber = index + 1 := by
  simp only [resolveLine, Except.bind_eq_ok, resolveAccount_eq_ok, assertAccountUsable_eq_ok,
    Except.require_eq_ok, Except.pure_eq_ok, exists_const, trimmedLine] at h
  obtain ⟨account, hacc, ⟨hbook, -, -⟩, currency, -, -, -, -, rfl⟩ := h
  refine ⟨⟨rfl, rfl, hb, rfl, rfl, account, ?_, rfl, hbook⟩, rfl⟩
  unfold builtAccount
  exact hacc

theorem resolveLinesFrom_states (fact : SourceFact) :
    ∀ {built : List BuiltLine} (index : ℕ) {rows : List JournalLineRow},
      (∀ b ∈ built, Rendered b) →
      resolveLinesFrom setup book (index + 1) (((built.zipIdx index).map fun (line, i) =>
        (⟨line.ledgerAccountId, line.accountSystemKey, line.economicEntityId, some (i + 1),
          line.description, some fact.currency, line.amount, []⟩ : JournalLineInput)).map
            trimmedLine) = .ok rows →
      List.Forall₂ (StatesLine setup book) built rows ∧
        rows.map (·.lineNumber) = List.range' (index + 1) rows.length
  | [], index, rows, _, h => by
    simp only [List.zipIdx_nil, List.map_nil, resolveLinesFrom, Except.ok.injEq] at h
    subst h
    exact ⟨.nil, rfl⟩
  | b :: built, index, rows, hr, h => by
    simp only [List.zipIdx_cons, List.map_cons, resolveLinesFrom, Except.bind_eq_ok,
      Except.pure_eq_ok] at h
    obtain ⟨row, hrow, rest, hrest, rfl⟩ := h
    obtain ⟨hb, hbs⟩ := List.forall_mem_cons.1 hr
    obtain ⟨hstates, hnum⟩ := resolveLine_states hb hrow
    obtain ⟨hall, hnums⟩ := resolveLinesFrom_states fact (index + 1) hbs hrest
    refine ⟨.cons hstates hall, ?_⟩
    rw [List.map_cons, hnum, hnums]
    rfl

theorem inLineOrder_of_range {rows : List JournalLineRow} {start : ℕ}
    (h : rows.map (·.lineNumber) = List.range' start rows.length) : inLineOrder rows = rows := by
  unfold inLineOrder
  refine List.Pairwise.insertionSort_eq ?_
  have hsorted : (rows.map (·.lineNumber)).Pairwise (· ≤ ·) := by
    rw [h]
    exact List.pairwise_le_range'
  exact List.pairwise_map.1 hsorted

end Rows

section Post

variable {setup : Setup} {ledger ledger' : Ledger} {fact : SourceFact}
  {book : AccountingBookRow} {resolved : ResolvedPostingRule} {allow : Bool}
  (hash : FingerprintHash)

def mintedKey (fact : SourceFact) (resolved : ResolvedPostingRule) : String :=
  postingKeyFor resolved.rule.code resolved.version.version fact.sourceFactType.text
    fact.sourceFactId (fingerprintFact hash fact resolved)

def postingValue (fact : SourceFact) (book : AccountingBookRow) (resolved : ResolvedPostingRule)
    (built : List BuiltLine) (allow : Bool) : PostEntryInput :=
  trimmedEntry (postingInput fact book resolved (fingerprintFact hash fact resolved) built allow)

theorem trim_fingerprint : trim (fingerprintFact hash fact resolved) =
    fingerprintFact hash fact resolved :=
  trim_eq_self
    (fun c hc => isSpace_of_isHexDigit (fingerprint_hex hash _ _ c (List.mem_of_head? hc)))
    fun c hc => isSpace_of_isHexDigit (fingerprint_hex hash _ _ c (List.mem_of_getLast? hc))

theorem trim_text (t : ReadableSourceFactType) : trim t.text = t.text := by
  cases t <;> decide

theorem postingValue_postingKey {built : List BuiltLine} :
    (postingValue hash fact book resolved built allow).postingKey =
      some (mintedKey hash fact resolved) := by
  simp only [postingValue, trimmedEntry, postingInput, mintedKey, Option.map_some,
    trim_postingKeyFor (fingerprint_hex hash fact resolved)]

theorem postingValue_sourceFactType {built : List BuiltLine} :
    (postingValue hash fact book resolved built allow).sourceFactType =
      some fact.sourceFactType.text := by
  simp only [postingValue, trimmedEntry, postingInput, Option.map_some, trim_text]

theorem postingValue_fingerprint {built : List BuiltLine} :
    (postingValue hash fact book resolved built allow).sourceFactFingerprint =
      some (fingerprintFact hash fact resolved) := by
  simp only [postingValue, trimmedEntry, postingInput, Option.map_some, trim_fingerprint]

def PostAccepted (setup : Setup) (j : Journal) (fact : SourceFact) (book : AccountingBookRow)
    (resolved : ResolvedPostingRule) (built : List BuiltLine) (allow : Bool) (p : PreparedEntry)
    : Prop :=
  Accepts setup j (postingValue hash fact book resolved built allow) p

def engineRow (j : Journal) (fact : SourceFact) (book : AccountingBookRow)
    (resolved : ResolvedPostingRule) (built : List BuiltLine) (allow : Bool) (p : PreparedEntry)
    : JournalEntryRow :=
  postedRow j (postingValue hash fact book resolved built allow) p

section EngineRow

variable {j : Journal} {built : List BuiltLine} {p : PreparedEntry}

theorem engineRow_postingKey :
    (engineRow hash j fact book resolved built allow p).postingKey =
      some (mintedKey hash fact resolved) :=
  @postingValue_postingKey fact book resolved allow hash built

theorem engineRow_fingerprint :
    (engineRow hash j fact book resolved built allow p).sourceFactFingerprint =
      some (fingerprintFact hash fact resolved) :=
  @postingValue_fingerprint fact book resolved allow hash built

theorem engineRow_sourceFactType :
    (engineRow hash j fact book resolved built allow p).sourceFactType =
      some fact.sourceFactType.text :=
  @postingValue_sourceFactType fact book resolved allow hash built

end EngineRow

theorem post_eq_ok {posted : PostedEntry} :
    post setup ledger fact book resolved (fingerprintFact hash fact resolved) allow =
        .ok (posted, ledger') ↔
      ∃ built, buildLines fact resolved = .ok built ∧
        EntryWellFormed (postingInput fact book resolved (fingerprintFact hash fact resolved)
          built allow) ∧
        ((∃ existing, ledger.existingByPostingKey (mintedKey hash fact resolved) =
            some existing ∧ posted = ⟨existing, true⟩ ∧ ledger' = ledger) ∨
          (ledger.existingByPostingKey (mintedKey hash fact resolved) = none ∧
            ∃ p, PostAccepted hash setup ledger.toJournal fact book resolved built allow p ∧
              posted = ⟨engineRow hash ledger.toJournal fact book resolved built allow p, false⟩ ∧
              ledger'.toJournal = ledger.toJournal.appendPosted
                (engineRow hash ledger.toJournal fact book resolved built allow p))) := by
  simp only [post, Except.bind_eq_ok, postEntry_eq_ok]
  have hkey : ∀ built, (trimmedEntry (postingInput fact book resolved
      (fingerprintFact hash fact resolved) built allow)).postingKey.bind
        ledger.existingByPostingKey =
      ledger.existingByPostingKey (mintedKey hash fact resolved) := by
    intro built
    have hmint : (postingValue hash fact book resolved built allow).postingKey =
      some (mintedKey hash fact resolved) := postingValue_postingKey hash
    rw [postingValue] at hmint
    rw [hmint]
    rfl
  simp only [hkey]
  rfl

theorem PostAccepted.states {j : Journal} {built : List BuiltLine} {p : PreparedEntry}
    (h : PostAccepted hash setup j fact book resolved built allow p)
    (hbuilt : buildLines fact resolved = .ok built) (hfound : setup.findBook book.id = some book) :
    p.book = book ∧ inLineOrder p.lines = p.lines ∧
      List.Forall₂ (StatesLine setup book) built p.lines := by
  have hbook : p.book = book := by
    have hr := h.routed
    simp only [routeEntryBook, postingValue, trimmedEntry, postingInput] at hr
    have := (loadBook_eq_ok.1 hr).1
    rw [hfound] at this
    exact (Option.some.inj this).symm
  have hres := h.resolved
  rw [hbook] at hres
  obtain ⟨hall, hnums⟩ := resolveLinesFrom_states fact 0 (buildLines_rendered hbuilt) hres
  exact ⟨hbook, inLineOrder_of_range hnums, hall⟩

end Post

section Route

variable {setup : Setup} {fact : SourceFact} {book : AccountingBookRow}

theorem getBook_found {id : BookId} (h : setup.getBook id = .ok book) :
    setup.findBook book.id = some book := by
  have hf := getBook_eq_ok.1 h
  rwa [findBook_id hf]

theorem routeBook_found {default : Option BookId}
    (h : routeBook setup fact default = .ok (some book)) : setup.findBook book.id = some book := by
  unfold routeBook at h
  split at h
  · simp only [Except.bind_eq_ok, Except.pure_eq_ok, Option.some.injEq] at h
    obtain ⟨row, hrow, rfl⟩ := h
    exact getBook_found hrow
  · split at h
    · cases h
    · simp only [Except.bind_eq_ok, Except.pure_eq_ok, Option.some.injEq] at h
      obtain ⟨row, hrow, rfl⟩ := h
      exact getBook_found hrow

theorem judge_postable {tables : FactTables} {rules : RuleBase} {input : EvaluateFactInput}
    {resolved : ResolvedPostingRule} :
    judge setup tables rules input = .ok (.postable fact book resolved) ↔
      tables.read input.sourceFactType input.sourceFactId = .ok (some fact) ∧
        fact.ineligibleReason = none ∧
        routeBook setup fact input.installationDefaultBookId = .ok (some book) ∧
        book.status = .active ∧ rules.resolveForFact fact book.id = some resolved := by
  simp only [judge, Except.bind_eq_ok]
  constructor
  · rintro ⟨found, hread, h⟩
    rcases found with _ | f
    · cases h
    simp only [judgeFact] at h
    rcases hin : f.ineligibleReason with _ | why
    · rw [hin] at h
      simp only [Except.bind_eq_ok] at h
      obtain ⟨routed, hroute, h⟩ := h
      rcases routed with _ | b
      · cases h
      simp only [] at h
      split_ifs at h with hactive
      · cases h
      · split at h
        · cases h
        · rename_i res hres
          simp only [Except.pure_eq_ok, Judgement.postable.injEq] at h
          obtain ⟨rfl, rfl, rfl⟩ := h
          exact ⟨hread, hin, hroute, not_not.1 hactive, hres⟩
    · rw [hin] at h
      cases h
  · rintro ⟨hread, hin, hroute, hactive, hres⟩
    refine ⟨some fact, hread, ?_⟩
    simp only [judgeFact, hin, Except.bind_eq_ok]
    refine ⟨some book, hroute, ?_⟩
    simp [hactive, hres, pure, Except.pure]

end Route

end Loxep

import Loxep.Proofs.EngineFailures

/-!
# When the sweep makes progress

A fact with no entry can only post or leave the ledger alone. So what a run does to the ledger is
decided by the first fact of the queue that posts: the run posts something exactly when that fact
is within the limit and nothing before it raises.
-/

namespace Loxep

section Seed

variable {rb : RuleBase}

variable {template : CreatePostingRuleInput} {code : String} {rb' : RuleBase}

theorem createRule_returns
    (hvalid : validatePostingRuleTemplate template.sourceFactType template.lines
      (predicatesUsed template.toVersionPredicates) = .ok ())
    (hnew : rb.findRuleByCode template.code = none) : ∃ rb', rb.createRule template = .ok rb' := by
  unfold RuleBase.createRule
  simp only [Except.bind_eq_ok, hvalid, hnew, Except.require_eq_ok, Except.pure_eq_ok]
  exact ⟨_, (), trivial, ⟨⟩, rfl, rfl⟩

theorem seedRules_returns : ∀ (templates : List CreatePostingRuleInput) (rb : RuleBase),
    (∀ template ∈ templates, validatePostingRuleTemplate template.sourceFactType template.lines
      (predicatesUsed template.toVersionPredicates) = .ok ())
    → ∃ rb', templates.foldlM seedRule rb = .ok rb'
  | [], rb, _ => ⟨rb, rfl⟩
  | template :: templates, rb, hvalid => by
    obtain ⟨hhead, htail⟩ := List.forall_mem_cons.1 hvalid
    have hstep : ∃ rb', seedRule rb template = .ok rb' := by
      unfold seedRule
      split
      · exact ⟨rb, rfl⟩
      · rename_i hnew
        exact createRule_returns hhead hnew
    obtain ⟨rb', hrb'⟩ := hstep
    obtain ⟨rb'', hrb''⟩ := seedRules_returns templates rb' htail
    refine ⟨rb'', ?_⟩
    rw [List.foldlM_cons, Except.bind_eq_ok]
    exact ⟨rb', hrb', hrb''⟩

theorem seedDefaultRules_returns (rb : RuleBase) : ∃ rb', seedDefaultRules rb = .ok rb' :=
  seedRules_returns _ rb defaultPostingRules_valid

def Seeded (rb : RuleBase) : Prop :=
  ∀ template ∈ defaultPostingRules, ∃ rule ∈ rb.rules, rule.code = template.code

theorem findRuleByCode_isSome :
    (rb.findRuleByCode code).isSome ↔ ∃ rule ∈ rb.rules, rule.code = code := by
  simp [RuleBase.findRuleByCode, List.find?_isSome]

theorem exists_code_activate {version : PostingRuleVersionRow}
    (h : ∃ rule ∈ rb.rules, rule.code = code) :
    ∃ rule ∈ (rb.activate version).rules, rule.code = code := by
  obtain ⟨rule, hmem, rfl⟩ := h
  refine ⟨_, List.mem_map_of_mem hmem, ?_⟩
  split_ifs <;> rfl

theorem seedRule_codes (h : seedRule rb template = .ok rb') :
    (∃ rule ∈ rb'.rules, rule.code = template.code)
      ∧ ∀ code, (∃ rule ∈ rb.rules, rule.code = code) → ∃ rule ∈ rb'.rules, rule.code = code := by
  unfold seedRule at h
  split at h
  · rename_i found hfound
    cases h
    refine ⟨findRuleByCode_isSome.1 ?_, fun code hcode => hcode⟩
    rw [hfound]
    rfl
  · simp only [RuleBase.createRule, Except.bind_eq_ok, Except.require_eq_ok,
      Except.pure_eq_ok] at h
    obtain ⟨-, -, -, -, rfl⟩ := h
    have hcodes : (∃ rule ∈ rb.rules ++ [(⟨rb.rules.length, template.code, template.sourceFactType,
        template.accountingBookId, template.priority, .draft, none⟩ : PostingRuleRow)],
          rule.code = template.code)
        ∧ ∀ code, (∃ rule ∈ rb.rules, rule.code = code) →
          ∃ rule ∈ rb.rules ++ [(⟨rb.rules.length, template.code, template.sourceFactType,
            template.accountingBookId, template.priority, .draft, none⟩ : PostingRuleRow)],
            rule.code = code := by
      refine ⟨⟨_, List.mem_append_right _ (List.mem_singleton_self _), rfl⟩, ?_⟩
      rintro code ⟨rule, hmem, hcode⟩
      exact ⟨rule, List.mem_append_left _ hmem, hcode⟩
    split_ifs
    · exact ⟨exists_code_activate hcodes.1, fun code hcode =>
        exists_code_activate (hcodes.2 code hcode)⟩
    · exact hcodes

theorem seedRules_codes : ∀ {templates : List CreatePostingRuleInput} {rb rb' : RuleBase},
    templates.foldlM seedRule rb = .ok rb' →
      (∀ template ∈ templates, ∃ rule ∈ rb'.rules, rule.code = template.code)
        ∧ ∀ code, (∃ rule ∈ rb.rules, rule.code = code) →
          ∃ rule ∈ rb'.rules, rule.code = code
  | [], rb, rb', h => by
    cases h
    exact ⟨by simp, fun code hcode => hcode⟩
  | template :: templates, rb, rb', h => by
    rw [List.foldlM_cons, Except.bind_eq_ok] at h
    obtain ⟨rb₁, hhead, htail⟩ := h
    obtain ⟨htaken, hkept⟩ := seedRule_codes hhead
    obtain ⟨hrest, hkept'⟩ := seedRules_codes htail
    refine ⟨List.forall_mem_cons.2 ⟨hkept' _ htaken, hrest⟩, fun code hcode => ?_⟩
    exact hkept' code (hkept code hcode)

theorem seedRules_of_codes : ∀ {templates : List CreatePostingRuleInput} {rb : RuleBase},
    (∀ template ∈ templates, ∃ rule ∈ rb.rules, rule.code = template.code) →
      templates.foldlM seedRule rb = .ok rb
  | [], rb, _ => rfl
  | template :: templates, rb, h => by
    obtain ⟨hhead, htail⟩ := List.forall_mem_cons.1 h
    obtain ⟨found, hfound⟩ := Option.isSome_iff_exists.1 (findRuleByCode_isSome.2 hhead)
    rw [List.foldlM_cons, Except.bind_eq_ok]
    refine ⟨rb, ?_, seedRules_of_codes htail⟩
    unfold seedRule
    rw [hfound]

theorem seeded_of_seed (h : seedDefaultRules rb = .ok rb') : Seeded rb' :=
  (seedRules_codes h).1

theorem seedDefaultRules_of_seeded (h : Seeded rb) :
    seedDefaultRules rb = .ok rb := seedRules_of_codes h

end Seed

section Unposted

variable {hash : FingerprintHash} {w : World} {input : EvaluateFactInput} {fact : SourceFact}
  {book : AccountingBookRow} {resolved : ResolvedPostingRule}

def posts (hash : FingerprintHash) (w : World) (input : EvaluateFactInput) : Bool :=
  match (evaluateFact hash w input).1 with
  | .ok outcome => outcome.status == .posted
  | .error _ => false

structure PostsEntry (hash : FingerprintHash) (w : World) (input : EvaluateFactInput)
    (ledger' : Ledger) (fact : SourceFact) (book : AccountingBookRow)
    (resolved : ResolvedPostingRule) (built : List BuiltLine) (p : PreparedEntry) : Prop where
  judged : judge w.setup w.tables w.rules input = .ok (.postable fact book resolved)
  builds : buildLines fact resolved = .ok built
  accepted : PostAccepted hash w.setup w.ledger.toJournal fact book resolved built
    input.allowBackdated p
  written : ledger'.toJournal = w.ledger.toJournal.appendPosted
    (engineRow hash w.ledger.toJournal fact book resolved built input.allowBackdated p)

theorem enter_cases (hjudge : judge w.setup w.tables w.rules input =
      .ok (.postable fact book resolved)) :
    ((enter w.setup w.ledger input fact book resolved (fingerprintFact hash fact resolved)).2 =
        w.ledger
      ∧ ∀ o, (enter w.setup w.ledger input fact book resolved
          (fingerprintFact hash fact resolved)).1 = .ok o → o.status ≠ .posted)
    ∨ ∃ o built p, (enter w.setup w.ledger input fact book resolved
          (fingerprintFact hash fact resolved)).1 = .ok o
      ∧ o.status = .posted
      ∧ PostsEntry hash w input (enter w.setup w.ledger input fact book resolved
          (fingerprintFact hash fact resolved)).2 fact book resolved built p := by
  unfold enter
  split
  · exact .inl ⟨rfl, fun o ho => by cases ho⟩
  · split_ifs
    · refine .inl ⟨rfl, fun o ho => ?_⟩
      cases ho
      rintro ⟨⟩
    · split
      · exact .inl ⟨rfl, fun o ho => by cases ho⟩
      · rename_i hpost
        obtain ⟨built, hbuilt, -, hcase⟩ := (post_eq_ok hash).1 hpost
        rcases hcase with ⟨existing, -, rfl, rfl⟩ | ⟨-, p, hp, rfl, hl⟩
        · refine .inl ⟨rfl, fun o ho => ?_⟩
          cases ho
          rintro ⟨⟩
        · exact .inr ⟨_, built, p, rfl, rfl, hjudge, hbuilt, hp, hl⟩

theorem evaluate_unposted (hlive : liveEntryOf w input = none) :
    (posts hash w input = false ∧ (evaluate hash w input).2 = w.ledger)
    ∨ (posts hash w input = true
      ∧ ∃ fact book resolved built p,
        PostsEntry hash w input (evaluate hash w input).2 fact book resolved built p) := by
  have hposts : ∀ o, (evaluate hash w input).1 = .ok o →
      posts hash w input = (o.status == .posted) := by
    intro o ho
    rw [posts, evaluateFact_of_returned ho]
  have hnot : (∀ o, (evaluate hash w input).1 = .ok o → o.status ≠ .posted) →
      posts hash w input = false := by
    intro h
    rcases ho : (evaluate hash w input).1 with err | o
    · unfold posts evaluateFact
      rcases heval : evaluate hash w input with ⟨r, ledger'⟩
      rw [heval] at ho
      rw [show r = .error err from ho]
      simp only []
      split_ifs
      · rfl
      · rfl
    · rw [hposts o ho]
      simpa using h o ho
  rcases hjudge : judge w.setup w.tables w.rules input with
    err | (o | ⟨fact, why⟩ | ⟨fact, book, resolved⟩)
  · have heval : evaluate hash w input = (.error err, w.ledger) := by simp only [evaluate, hjudge]
    exact .inl ⟨hnot (by simp [heval]), by rw [heval]⟩
  · have heval : evaluate hash w input = (.ok o, w.ledger) := by simp only [evaluate, hjudge]
    refine .inl ⟨hnot ?_, by rw [heval]⟩
    rintro o' ho'
    rw [heval] at ho'
    cases ho'
    rw [judge_settled hjudge]
    decide
  · have heval : evaluate hash w input = (.ok (unpostable input .factIneligible why), w.ledger) := by
      simp only [evaluate, hjudge, withdraw, existingEntryFor_of_read (judge_ineligible hjudge),
        hlive]
    refine .inl ⟨hnot ?_, by rw [heval]⟩
    rintro o' ho'
    rw [heval] at ho'
    cases ho'
    rintro ⟨⟩
  · have heval : evaluate hash w input = enter w.setup w.ledger input fact book resolved
        (fingerprintFact hash fact resolved) := by
      simp only [evaluate, hjudge, settle, existingEntryFor_of_read (judge_postable.1 hjudge).1,
        hlive]
    rcases enter_cases hjudge with ⟨hsame, hne⟩ | ⟨o, built, p, ho, hst, hentry⟩
    · rw [← heval] at hsame hne
      exact .inl ⟨hnot hne, hsame⟩
    · rw [← heval] at ho hentry
      exact .inr ⟨by rw [hposts o ho, hst]; rfl, fact, book, resolved, built, p, hentry⟩

theorem PostsEntry.entries {ledger' : Ledger} {built : List BuiltLine} {p : PreparedEntry}
    (h : PostsEntry hash w input ledger' fact book resolved built p) :
    ledger'.entries = w.ledger.entries
      ++ [engineRow hash w.ledger.toJournal fact book resolved built input.allowBackdated p] :=
  congrArg Journal.entries h.written

end Unposted

section Grows

variable {hash : FingerprintHash} {setup : Setup} {ledger ledger' : Ledger}

theorem reverseEntry_length {value : ReverseEntryInput} {reversal : PostedEntry}
    (h : reverseEntry setup ledger value = .ok (reversal, ledger')) :
    ledger.entries.length ≤ ledger'.entries.length := by
  obtain ⟨-, original, -, -, -, hcase⟩ := reverseEntry_eq_ok.1 h
  rcases hcase with ⟨-, -, -, rfl⟩ | ⟨-, -, -, p, -, -, hl⟩
  · exact le_rfl
  · rw [hl]
    simp [Journal.stampReversed, Journal.appendPosted]

theorem post_length {fact : SourceFact} {book : AccountingBookRow} {resolved : ResolvedPostingRule}
    {allow : Bool} {posted : PostedEntry}
    (h : post setup ledger fact book resolved (fingerprintFact hash fact resolved) allow =
      .ok (posted, ledger')) : ledger.entries.length ≤ ledger'.entries.length := by
  obtain ⟨built, -, -, hcase⟩ := (post_eq_ok hash).1 h
  rcases hcase with ⟨-, -, -, rfl⟩ | ⟨-, p, -, -, hl⟩
  · exact le_rfl
  · rw [hl]
    simp [Journal.appendPosted]

theorem evaluate_length (hash : FingerprintHash) (w : World) (input : EvaluateFactInput) :
    w.ledger.entries.length ≤ (evaluate hash w input).2.entries.length := by
  generalize hl : (evaluate hash w input).2 = ledger'
  have h : Moved hash w input ledger' := hl ▸ evaluate_moved
  cases h with
  | stayed => exact le_rfl
  | withdrew live names reversed => exact reverseEntry_length reversed
  | entered judged none_live post_ok => exact post_length post_ok
  | corrected judged live names reversed post_ok =>
    exact (reverseEntry_length reversed).trans (post_length post_ok)

theorem evaluateFacts_cons_error {options : EvaluateOptions} {w : World} {ref : String × FactId}
    {refs : List (String × FactId)} {err : AccountingError}
    (h : evaluate hash w (options.inputFor ref) = (.error err, ledger')) :
    evaluateFacts hash options w (ref :: refs) = (.error err, ledger') := by
  simp only [evaluateFacts, h]

theorem evaluateFacts_cons_ledger {options : EvaluateOptions} {w : World} {ref : String × FactId}
    {refs : List (String × FactId)} {outcome : PostingOutcome}
    (h : evaluate hash w (options.inputFor ref) = (.ok outcome, ledger')) :
    (evaluateFacts hash options w (ref :: refs)).2 =
      (evaluateFacts hash options { w with ledger := ledger' } refs).2 := by
  simp only [evaluateFacts, h]
  split
  · rename_i hrest
    rw [hrest]
  · rename_i hrest
    rw [hrest]

theorem evaluateFacts_length (hash : FingerprintHash) (options : EvaluateOptions) :
    ∀ (refs : List (String × FactId)) (w : World),
      w.ledger.entries.length ≤ (evaluateFacts hash options w refs).2.entries.length
  | [], w => le_rfl
  | ref :: refs, w => by
    have hstep := evaluate_length hash w (options.inputFor ref)
    rcases heval : evaluate hash w (options.inputFor ref) with ⟨err | outcome, ledger₁⟩
    · rw [evaluateFacts_cons_error heval]
      rwa [heval] at hstep
    · rw [evaluateFacts_cons_ledger heval]
      rw [heval] at hstep
      exact hstep.trans (evaluateFacts_length hash options refs { w with ledger := ledger₁ })

end Grows

section Batch

variable {hash : FingerprintHash} {options : EvaluateOptions} {w : World}

def names (refs : List FactRef) : List (String × FactId) := refs.map fun ref => (ref.1.text, ref.2)

theorem liveEntryOf_of_not_hasEntry (options : EvaluateOptions) {ref : FactRef}
    (h : hasEntry w.ledger.toJournal ref = false) :
    liveEntryOf w (inputFor ref options) = none := by
  refine List.getLast?_eq_none_iff.2 (liveEntries_eq_nil.2 fun e he => ?_)
  have := List.any_eq_false.1 h e he
  rw [Bool.eq_false_iff]
  intro hlive
  obtain ⟨htype, hid, -, hst, -⟩ := isLiveEntryOf_iff.1 hlive
  refine this ?_
  have htype' : e.sourceFactType = some ref.1.text := htype
  have hid' : e.sourceFactId = some ref.2 := hid
  simp [htype', hid', hst]

def Stuck (hash : FingerprintHash) (options : EvaluateOptions) (w : World) (ref : FactRef) : Prop :=
  hasEntry w.ledger.toJournal ref = false ∧ posts hash w (inputFor ref options) = false

theorem Stuck.ledger {ref : FactRef} (h : Stuck hash options w ref) :
    (evaluate hash w (inputFor ref options)).2 = w.ledger := by
  rcases evaluate_unposted (liveEntryOf_of_not_hasEntry options h.1) with
    ⟨-, hl⟩ | ⟨hp, -⟩
  · exact hl
  · rw [h.2] at hp
    cases hp

theorem evaluateFacts_stuck_append : ∀ {refs : List FactRef} (rest : List (String × FactId)),
    (∀ ref ∈ refs, Stuck hash options w ref) →
      ((evaluateFacts hash options w (names refs ++ rest)).2 = w.ledger
        ∧ ∃ ref ∈ refs, ¬ Returns hash w (inputFor ref options))
      ∨ ((evaluateFacts hash options w (names refs ++ rest)).2 =
          (evaluateFacts hash options w rest).2
        ∧ ∀ ref ∈ refs, Returns hash w (inputFor ref options))
  | [], rest, _ => .inr ⟨rfl, by simp⟩
  | ref :: refs, rest, hstuck => by
    obtain ⟨hhead, htail⟩ := List.forall_mem_cons.1 hstuck
    have hledger := hhead.ledger
    have hret := @evaluate_returns_iff hash w (inputFor ref options)
    have heq : names (ref :: refs) ++ rest = (ref.1.text, ref.2) :: (names refs ++ rest) := rfl
    rw [heq]
    rcases heval : evaluate hash w (inputFor ref options) with ⟨err | o, ledger₁⟩
    · rw [heval] at hledger hret
      refine .inl ⟨?_, ref, List.mem_cons_self, ?_⟩
      · rw [evaluateFacts_cons_error heval]
        exact hledger
      · rw [← hret]
        simp
    · rw [heval] at hledger hret
      obtain rfl : ledger₁ = w.ledger := hledger
      have hok : Returns hash w (inputFor ref options) := hret.1 ⟨o, rfl⟩
      rw [evaluateFacts_cons_ledger heval]
      rcases evaluateFacts_stuck_append rest htail with ⟨hsame, r, hr, hno⟩ | ⟨hsame, hall⟩
      · exact .inl ⟨hsame, r, List.mem_cons_of_mem _ hr, hno⟩
      · exact .inr ⟨hsame, List.forall_mem_cons.2 ⟨hok, hall⟩⟩

variable {refs : List FactRef}

theorem evaluateFacts_stuck (h : ∀ ref ∈ refs, Stuck hash options w ref) :
    (evaluateFacts hash options w (names refs)).2 = w.ledger := by
  have happend := evaluateFacts_stuck_append [] h
  rw [List.append_nil] at happend
  rcases happend with ⟨hsame, -⟩ | ⟨hsame, -⟩
  · exact hsame
  · exact hsame

theorem evaluateFacts_raise (rest : List (String × FactId))
    (h : ∀ ref ∈ refs, Stuck hash options w ref)
    (hraise : ∃ ref ∈ refs, ¬ Returns hash w (inputFor ref options)) :
    (evaluateFacts hash options w (names refs ++ rest)).2 = w.ledger := by
  obtain ⟨ref, hmem, hno⟩ := hraise
  rcases evaluateFacts_stuck_append rest h with ⟨hsame, -⟩ | ⟨-, hall⟩
  · exact hsame
  · exact absurd (hall ref hmem) hno

theorem evaluateFacts_reach (rest : List (String × FactId))
    (h : ∀ ref ∈ refs, Stuck hash options w ref)
    (hreturn : ∀ ref ∈ refs, Returns hash w (inputFor ref options)) :
    (evaluateFacts hash options w (names refs ++ rest)).2 =
      (evaluateFacts hash options w rest).2 := by
  rcases evaluateFacts_stuck_append rest h with ⟨-, ref, hmem, hno⟩ | ⟨hsame, -⟩
  · exact absurd (hreturn ref hmem) hno
  · exact hsame

theorem evaluateFacts_posts {ref : FactRef} (rest : List (String × FactId))
    (hno : hasEntry w.ledger.toJournal ref = false)
    (hposts : posts hash w (inputFor ref options) = true) :
    w.ledger.entries.length <
      (evaluateFacts hash options w ((ref.1.text, ref.2) :: rest)).2.entries.length := by
  rcases evaluate_unposted (liveEntryOf_of_not_hasEntry options hno) with
    ⟨hp, -⟩ | ⟨-, fact, book, resolved, built, p, hentry⟩
  · rw [hposts] at hp
    cases hp
  · have hlen := congrArg List.length hentry.entries
    rw [List.length_append, List.length_singleton] at hlen
    rcases heval : evaluate hash w (inputFor ref options) with ⟨err | o, ledger₁⟩
    · rw [evaluateFacts_cons_error heval]
      rw [heval] at hlen
      simp only [] at hlen ⊢
      omega
    · rw [evaluateFacts_cons_ledger heval]
      rw [heval] at hlen
      have hrest := evaluateFacts_length hash options rest { w with ledger := ledger₁ }
      simp only [] at hlen hrest ⊢
      omega

end Batch

section Queue

variable {t : FactTables} {ref : FactRef} {fact : SourceFact}

theorem mem_ids_of_find {α : Type} {key : α → ℕ} {rows : List α} {id : ℕ} {row : α}
    (h : rows.find? (key · == id) = some row) : row ∈ rows ∧ key row = id :=
  ⟨List.mem_of_find?_eq_some h, by simpa using List.find?_some h⟩

theorem movementIneligibility_none {kind : MovementKind} {reversed : Option MovementKind}
    (h : movementIneligibility kind reversed = none) :
    kind = .depletionSale ∨ kind = .reversal := by
  cases kind with
  | depletionSale => exact .inl rfl
  | reversal => exact .inr rfl
  | _ => cases h

theorem mem_backlogIds {type : ReadableSourceFactType} {id : FactId}
    (h : t.readReadable type id = some fact) (hok : fact.ineligibleReason = none) :
    id ∈ t.backlogIds type := by
  cases type <;> simp only [FactTables.readReadable, FactTables.readOrder,
    FactTables.readOrderFee, FactTables.readOrderRefund, FactTables.readExpense,
    FactTables.readAcquisitionCost, FactTables.readInventoryMovement, Option.bind_eq_bind,
    Option.bind_eq_some_iff, Option.pure_def, Option.some.injEq] at h
  · obtain ⟨o, ho, -⟩ := h
    obtain ⟨hmem, rfl⟩ := mem_ids_of_find ho
    exact List.mem_map_of_mem hmem
  · obtain ⟨f, hf, -⟩ := h
    obtain ⟨hmem, rfl⟩ := mem_ids_of_find hf
    exact List.mem_map_of_mem hmem
  · obtain ⟨r, hr, -⟩ := h
    obtain ⟨hmem, rfl⟩ := mem_ids_of_find hr
    exact List.mem_map_of_mem hmem
  · obtain ⟨e, he, rfl⟩ := h
    obtain ⟨hmem, rfl⟩ := mem_ids_of_find he
    have hvoid : e.status ≠ .void := by
      rintro hv
      simp [hv] at hok
    exact List.mem_map_of_mem (List.mem_filter.2 ⟨hmem, by simpa using hvoid⟩)
  · obtain ⟨c, hc, -⟩ := h
    obtain ⟨hmem, rfl⟩ := mem_ids_of_find hc
    exact List.mem_map_of_mem hmem
  · obtain ⟨m, hm, i, -, rfl⟩ := h
    obtain ⟨hmem, rfl⟩ := mem_ids_of_find hm
    have hkind := movementIneligibility_none hok
    exact List.mem_map_of_mem (List.mem_filter.2 ⟨hmem, by simpa using hkind⟩)

theorem mem_backlog_all : ref ∈ t.backlog ReadableSourceFactType.all ↔
    ref.2 ∈ t.backlogIds ref.1 := by
  unfold FactTables.backlog
  rw [List.mem_insertionSort, List.mem_flatMap]
  constructor
  · rintro ⟨type, -, hmem⟩
    obtain ⟨id, hid, rfl⟩ := List.mem_map.1 hmem
    exact hid
  · intro h
    have htype : ref.1 ∈ ReadableSourceFactType.all := by
      cases ref.1 <;> decide
    exact ⟨ref.1, htype, List.mem_map.2 ⟨ref.2, h, rfl⟩⟩

end Queue

section Run

variable (hash : FingerprintHash) (w : World) (limit : ℕ)

def World.seeded : World :=
  match seedDefaultRules w.rules with
  | .ok rules => { w with rules := rules }
  | .error _ => w

/-- Everything the run could select, in order. -/
def World.queue : List FactRef :=
  unpostedQueue w.tables w.ledger.toJournal ReadableSourceFactType.all

def World.swept : World :=
  { w with ledger := (evaluateFacts hash (sweepOptions w.setup) w
      (names (w.queue.take (max 1 limit)))).2 }

def World.posts (ref : FactRef) : Bool :=
  Loxep.posts hash w (inputFor ref (sweepOptions w.setup))

def PostsNothing : Prop := (runAccountingPostFactsSweep hash w limit).2.ledger = w.ledger

def NothingLeft : Prop :=
  ∀ ref, hasEntry w.ledger.toJournal ref = false → w.posts hash ref = false

/-- The first fact of the queue that posts, if there is one, is among the first `limit`, and
nothing before it raises. -/
def FirstInReach : Prop :=
  ∀ before ref after, w.queue = before ++ ref :: after → w.posts hash ref = true →
    (∀ r ∈ before, w.posts hash r = false) → before.length < max 1 limit
      ∧ ∀ r ∈ before, Returns hash w (inputFor r (sweepOptions w.setup))

variable {hash w limit}

theorem mem_queue {ref : FactRef} : ref ∈ w.queue ↔
    ref.2 ∈ w.tables.backlogIds ref.1 ∧ hasEntry w.ledger.toJournal ref = false := by
  simp [World.queue, unpostedQueue, List.mem_filter, mem_backlog_all]

theorem mem_queue_of_posts {ref : FactRef} (hno : hasEntry w.ledger.toJournal ref = false)
    (hposts : w.posts hash ref = true) : ref ∈ w.queue := by
  rcases evaluate_unposted (liveEntryOf_of_not_hasEntry (sweepOptions w.setup) hno) with
    ⟨hp, -⟩ | ⟨-, fact, book, resolved, built, p, hentry⟩
  · rw [World.posts, hp] at hposts
    cases hposts
  · obtain ⟨hread, hok, -⟩ := judge_postable.1 hentry.judged
    obtain ⟨htype, -, hreadable⟩ := read_stamp hread
    have htype' : fact.sourceFactType = ref.1 := ReadableSourceFactType.text_injective htype
    rw [htype'] at hreadable
    exact mem_queue.2 ⟨mem_backlogIds hreadable hok, hno⟩

theorem run_eq : (runAccountingPostFactsSweep hash w limit).2 = w.seeded.swept hash limit := by
  obtain ⟨rules, hrules⟩ := seedDefaultRules_returns w.rules
  have hseeded : w.seeded = { w with rules := rules } := by
    unfold World.seeded
    rw [hrules]
  rw [hseeded]
  unfold runAccountingPostFactsSweep World.swept
  rw [hrules]
  have hledger : ∀ {ledger : Ledger}, (evaluateFacts hash (sweepOptions w.setup)
      { w with rules := rules } (names (World.queue { w with rules := rules } |>.take
        (max 1 limit)))).2 = ledger →
      ({ w with rules := rules, ledger := ledger } : World) =
        { w with rules := rules, ledger := (evaluateFacts hash (sweepOptions w.setup)
          { w with rules := rules } (names (World.queue { w with rules := rules } |>.take
            (max 1 limit)))).2 } := by
    rintro ledger rfl
    rfl
  simp only [sweepSeeded]
  split
  · rename_i heval
    exact hledger (congrArg Prod.snd heval)
  · rename_i heval
    exact hledger (congrArg Prod.snd heval)

theorem allReturn_of_queue_nil (h : w.queue = []) :
    AllReturn hash (sweepOptions w.setup) w (names (w.queue.take (max 1 limit))) := by
  rw [h, List.take_nil]
  trivial

theorem seeded_ledger : w.seeded.ledger = w.ledger := by
  unfold World.seeded
  split <;> rfl

theorem swept_of_queue_nil (h : w.queue = []) : w.swept hash limit = w := by
  unfold World.swept
  rw [h, List.take_nil]
  rfl

theorem run_returns_of_queue_nil (h : w.seeded.queue = []) :
    ∃ result, (runAccountingPostFactsSweep hash w limit).1 = .ok result := by
  obtain ⟨rules, hrules⟩ := seedDefaultRules_returns w.rules
  unfold World.seeded at h
  rw [hrules] at h
  have hbatch : sweepBatch { w with rules := rules } limit = [] := by
    change (World.queue { w with rules := rules }).take (max 1 limit) = []
    rw [h, List.take_nil]
  unfold runAccountingPostFactsSweep
  rw [hrules]
  simp only [sweepSeeded, hbatch, List.map_nil, evaluateFacts]
  exact ⟨_, rfl⟩

theorem queue_stuck {refs rest : List FactRef} (h : w.queue = refs ++ rest)
    (hno : ∀ r ∈ refs, w.posts hash r = false) :
    ∀ r ∈ refs, Stuck hash (sweepOptions w.setup) w r := by
  intro r hr
  have hmem : r ∈ w.queue := h ▸ List.mem_append_left rest hr
  exact ⟨(mem_queue.1 hmem).2, hno r hr⟩

variable {before after : List FactRef}

theorem batch_unchanged {ref : FactRef} (hqueue : w.queue = before ++ ref :: after)
    (hno : ∀ r ∈ before, w.posts hash r = false) (hout : before.length < max 1 limit →
      ∃ r ∈ before, ¬ Returns hash w (inputFor r (sweepOptions w.setup))) :
    w.swept hash limit = w := by
  unfold World.swept
  suffices hsame : (evaluateFacts hash (sweepOptions w.setup) w
      (names (w.queue.take (max 1 limit)))).2 = w.ledger by rw [hsame]
  have hstuck := queue_stuck hqueue hno
  by_cases hlen : before.length < max 1 limit
  · have htake : w.queue.take (max 1 limit) =
        before ++ (ref :: after).take (max 1 limit - before.length) := by
      rw [hqueue, List.take_append, List.take_of_length_le hlen.le]
    rw [htake, names, List.map_append]
    exact evaluateFacts_raise _ hstuck (hout hlen)
  · have htake : w.queue.take (max 1 limit) = before.take (max 1 limit) := by
      rw [hqueue, List.take_append_of_le_length (not_lt.1 hlen)]
    rw [htake]
    exact evaluateFacts_stuck fun r hr => hstuck r (List.mem_of_mem_take hr)

theorem batch_grows {ref : FactRef} (hqueue : w.queue = before ++ ref :: after)
    (hposts : w.posts hash ref = true) (hno : ∀ r ∈ before, w.posts hash r = false)
    (hlen : before.length < max 1 limit)
    (hreturn : ∀ r ∈ before, Returns hash w (inputFor r (sweepOptions w.setup))) :
    w.ledger.entries.length < (w.swept hash limit).ledger.entries.length := by
  unfold World.swept
  have hmem : ref ∈ w.queue := by
    rw [hqueue]
    exact List.mem_append_right _ List.mem_cons_self
  have htake : ∃ rest, w.queue.take (max 1 limit) = before ++ ref :: rest := by
    obtain ⟨n, hn⟩ := Nat.exists_eq_add_of_lt hlen
    refine ⟨after.take n, ?_⟩
    rw [hqueue, List.take_append, List.take_of_length_le hlen.le, hn]
    have hsub : before.length + n + 1 - before.length = n + 1 := by omega
    rw [hsub, List.take_succ_cons]
  obtain ⟨rest, htake⟩ := htake
  rw [htake, names, List.map_append, List.map_cons]
  have hreach := evaluateFacts_reach ((ref.1.text, ref.2) :: names rest)
    (queue_stuck hqueue hno) hreturn
  have hgrow := @evaluateFacts_posts hash _ _ _ (names rest) (mem_queue.1 hmem).2 hposts
  rw [← hreach] at hgrow
  exact hgrow

theorem swept_progress_iff :
    ((w.swept hash limit).ledger = w.ledger → NothingLeft hash (w.swept hash limit))
      ↔ FirstInReach hash w limit := by
  constructor
  · intro h before ref after hqueue hposts hno
    by_contra hout
    have hsame : w.swept hash limit = w := by
      refine batch_unchanged hqueue hno fun hlen => ?_
      by_contra hall
      push Not at hall
      exact hout ⟨hlen, hall⟩
    rw [hsame] at h
    have hmem : ref ∈ w.queue := by
      rw [hqueue]
      exact List.mem_append_right _ List.mem_cons_self
    exact absurd hposts (Bool.eq_false_iff.1 (h rfl ref (mem_queue.1 hmem).2))
  · intro hreach hsame ref hno
    have hswept : w.swept hash limit = w := by
      unfold World.swept at hsame ⊢
      simp only [] at hsame
      rw [hsame]
    rw [hswept] at hno ⊢
    by_contra hposts
    rw [Bool.not_eq_false] at hposts
    -- the first fact of the queue that posts
    have hfind : (w.queue.find? (w.posts hash)).isSome := by
      rw [List.find?_isSome]
      exact ⟨ref, mem_queue_of_posts hno hposts, hposts⟩
    obtain ⟨first, hfirst⟩ := Option.isSome_iff_exists.1 hfind
    obtain ⟨hp, before, after, hqueue, hbefore⟩ := List.find?_eq_some_iff_append.1 hfirst
    have hstuck : ∀ r ∈ before, w.posts hash r = false := fun r hr => by
      simpa using hbefore r hr
    obtain ⟨hlen, hreturn⟩ := hreach before first after hqueue hp hstuck
    have hgrow := batch_grows hqueue hp hstuck hlen hreturn
    rw [hsame] at hgrow
    exact lt_irrefl _ hgrow

/-- A run that posts nothing leaves nothing postable behind, exactly when the first fact that
posts was in reach of it. -/
theorem sweep_progress_iff :
    (PostsNothing hash w limit → NothingLeft hash (runAccountingPostFactsSweep hash w limit).2)
      ↔ FirstInReach hash w.seeded limit := by
  unfold PostsNothing
  rw [run_eq, ← swept_progress_iff, seeded_ledger]

end Run

namespace Small

def blocked : World :=
  world [expense 0 .draft (100 * moneyUnits) ⟨2026, 1, 15⟩, recorded 1 100]

end Small

theorem draft_starves_recorded :
    PostsNothing Small.hash Small.blocked 1
      ∧ World.posts Small.hash (runAccountingPostFactsSweep Small.hash Small.blocked 1).2
        (.expense, 1) = true
      ∧ ¬ NothingLeft Small.hash (runAccountingPostFactsSweep Small.hash Small.blocked 1).2 := by
  obtain ⟨hqueue, hdraft, hposts, hno⟩ :
      Small.blocked.seeded.queue = [(.expense, 0)] ++ [(.expense, 1)]
        ∧ Small.blocked.seeded.posts Small.hash (.expense, 0) = false
        ∧ Small.blocked.seeded.posts Small.hash (.expense, 1) = true
        ∧ hasEntry Small.blocked.seeded.ledger.toJournal (.expense, 1) = false := by
    decide +kernel
  have hswept : Small.blocked.seeded.swept Small.hash 1 = Small.blocked.seeded := by
    refine batch_unchanged hqueue ?_ fun hlen => ?_
    · intro r hr
      rw [List.mem_singleton] at hr
      rw [hr, hdraft]
    · simp at hlen
  unfold PostsNothing
  rw [run_eq, hswept]
  refine ⟨seeded_ledger, hposts, fun hleft => ?_⟩
  rw [hleft (.expense, 1) hno] at hposts
  cases hposts

end Loxep

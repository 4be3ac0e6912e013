import Loxep.Lib.ChildRows
import Loxep.Lib.LeftOver
import Loxep.Lib.Separator
import Loxep.RecordSync

/-!
# Record sync and ownership

How a diff pairs intents with observed records, and which of these an apply run may touch.
-/

/-!
## What a diff pairs

Within one type and name every intent is matched, paired or missing, and every observed record is
matched, paired or unexpected, once each. A matched pair agrees on type, name and content; of a
pair by position neither content is among what is left of the other side.
-/

namespace Loxep

theorem DnsLabel.ext_text {a b : DnsLabel} (h : a.text = b.text) : a = b := by
  cases a
  cases b
  simp_all

variable {type type' name name' : DnsLabel} {op : DnsApplyOperation}

theorem pairKey_inj (h : pairKey type name = pairKey type' name') :
    type = type' ∧ name = name' := by
  have hlist : type.text.toList ++ ' ' :: name.text.toList =
      type'.text.toList ++ ' ' :: name'.text.toList := by
    simpa [pairKey, toString] using congrArg String.toList h
  obtain ⟨htype, hname⟩ := Separator.first_field_inj type.plain type'.plain hlist
  exact ⟨DnsLabel.ext_text (String.toList_injective htype),
    DnsLabel.ext_text (String.toList_injective hname)⟩

theorem recordKey_inj {content content' : String}
    (h : recordKey type name content = recordKey type' name' content') :
    type = type' ∧ name = name' ∧ content = content' := by
  have hlist : type.text.toList ++ ' ' :: (name.text.toList ++ ' ' :: content.toList) =
      type'.text.toList ++ ' ' :: (name'.text.toList ++ ' ' :: content'.toList) := by
    simpa [recordKey, toString] using congrArg String.toList h
  obtain ⟨htype, hrest⟩ := Separator.first_field_inj type.plain type'.plain hlist
  obtain ⟨hname, hcontent⟩ := Separator.first_field_inj name.plain name'.plain hrest
  exact ⟨DnsLabel.ext_text (String.toList_injective htype),
    DnsLabel.ext_text (String.toList_injective hname), String.toList_injective hcontent⟩

section Group

variable {intent : List IntentRecord} {observed : List ObservedDnsRecord} {r : IntentRecord}
  {o : ObservedDnsRecord}

theorem matchByContent_none (h : observed.find? (·.content == r.content) = none) :
    matchByContent (r :: intent) observed =
      ⟨(matchByContent intent observed).matched,
        r :: (matchByContent intent observed).unmatchedIntent,
        (matchByContent intent observed).leftoverObserved⟩ := by
  simp only [matchByContent, h]

theorem matchByContent_some (h : observed.find? (·.content == r.content) = some o) :
    matchByContent (r :: intent) observed =
      ⟨(r, o) :: (matchByContent intent (observed.eraseP (·.content == r.content))).matched,
        (matchByContent intent (observed.eraseP (·.content == r.content))).unmatchedIntent,
        (matchByContent intent (observed.eraseP (·.content == r.content))).leftoverObserved⟩ := by
  simp only [matchByContent, h]

variable (intent observed)

theorem unmatchedIntent_eq : (matchByContent intent observed).unmatchedIntent =
    leftOver (·.content) intent (observed.map (·.content)) := by
  induction intent generalizing observed with
  | nil => rfl
  | cons r intent ih =>
    unfold leftOver
    rcases hfind : observed.find? (·.content == r.content) with _ | o
    · have hnone : r.content ∉ observed.map (·.content) := by
        rw [List.find?_eq_none] at hfind
        simpa using hfind
      rw [matchByContent_none hfind, if_neg hnone, ih]
    · have hmem : r.content ∈ observed.map (·.content) := by
        have ho := List.find?_some hfind
        exact List.mem_map.2 ⟨o, List.mem_of_find?_eq_some hfind, by simpa using ho⟩
      rw [matchByContent_some hfind, if_pos hmem, ih, map_eraseP_eq]

theorem leftoverObserved_eq : (matchByContent intent observed).leftoverObserved =
    leftOver (·.content) observed (intent.map (·.content)) := by
  induction intent generalizing observed with
  | nil => exact (leftOver_no_keys observed).symm
  | cons r intent ih =>
    rw [List.map_cons, leftOver_cons_key]
    rcases hfind : observed.find? (·.content == r.content) with _ | o
    · have herase : observed.eraseP (·.content == r.content) = observed :=
        List.eraseP_of_forall_not (List.find?_eq_none.1 hfind)
      rw [matchByContent_none hfind, herase, ih]
    · rw [matchByContent_some hfind, ih]

theorem matched_observed_perm : observed.Perm
    ((matchByContent intent observed).matched.map (·.2) ++
      (matchByContent intent observed).leftoverObserved) := by
  induction intent generalizing observed with
  | nil => exact .refl _
  | cons r intent ih =>
    rcases hfind : observed.find? (·.content == r.content) with _ | o
    · rw [matchByContent_none hfind]
      exact ih observed
    · rw [matchByContent_some hfind]
      exact (perm_cons_eraseP hfind).trans ((ih _).cons o)

theorem matched_intent_perm : intent.Perm
    ((matchByContent intent observed).matched.map (·.1) ++
      (matchByContent intent observed).unmatchedIntent) := by
  induction intent generalizing observed with
  | nil => exact .refl _
  | cons r intent ih =>
    rcases hfind : observed.find? (·.content == r.content) with _ | o
    · rw [matchByContent_none hfind]
      exact ((ih observed).cons r).trans List.perm_middle.symm
    · rw [matchByContent_some hfind]
      exact (ih _).cons r

theorem matched_content : ∀ p ∈ (matchByContent intent observed).matched,
    p.1.content = p.2.content := by
  induction intent generalizing observed with
  | nil => simp [matchByContent]
  | cons r intent ih =>
    rcases hfind : observed.find? (·.content == r.content) with _ | o
    · rw [matchByContent_none hfind]
      exact ih observed
    · have ho := List.find?_some hfind
      rw [matchByContent_some hfind, List.forall_mem_cons]
      exact ⟨(beq_iff_eq.1 ho).symm, ih _⟩

end Group

section Groups

variable (live : List IntentRecord) (observed : List ObservedDnsRecord) (key : String)

def intentAt : List IntentRecord := live.filter (·.pairKey == key)

def observedAt : List ObservedDnsRecord := observed.filter (·.pairKey == key)

def groupDiff : DnsDiff := diffGroup (intentAt live key) (observedAt observed key)

def leftIntents : List IntentRecord :=
  leftOver (·.content) (intentAt live key) ((observedAt observed key).map (·.content))

def leftRecords : List ObservedDnsRecord :=
  leftOver (·.content) (observedAt observed key) ((intentAt live key).map (·.content))

def takenByPlace : List (IntentRecord × ObservedDnsRecord) :=
  (leftIntents live observed key).zip (leftRecords live observed key)

variable {live observed key} {r : IntentRecord} {o : ObservedDnsRecord} {e : ModifiedDiff}

theorem mem_intentAt : r ∈ intentAt live key ↔ r ∈ live ∧ r.pairKey = key := by
  simp [intentAt]

theorem mem_observedAt : o ∈ observedAt observed key ↔ o ∈ observed ∧ o.pairKey = key := by
  simp [observedAt]

theorem groupDiff_modified : (groupDiff live observed key).modified =
    ((matchByContent (intentAt live key) (observedAt observed key)).matched.filter fun p =>
        changedAttributes p.1 p.2 ≠ []).map modifiedOf ++
      (takenByPlace live observed key).map modifiedOf := by
  simp only [groupDiff, diffGroup, ContentMatches.paired, takenByPlace, leftIntents, leftRecords,
    unmatchedIntent_eq, leftoverObserved_eq]

theorem groupDiff_missing : (groupDiff live observed key).missing =
    (leftIntents live observed key).drop (leftRecords live observed key).length := by
  simp only [groupDiff, diffGroup, leftIntents, leftRecords, unmatchedIntent_eq,
    leftoverObserved_eq]

theorem groupDiff_of_notMem (h : key ∉ intentKeys live) :
    (groupDiff live observed key).modified = [] ∧ (groupDiff live observed key).missing = [] := by
  have hnone : intentAt live key = [] := by
    rw [intentAt, List.filter_eq_nil_iff]
    intro r hr hkey
    refine h (List.mem_eraseDups.2 (List.mem_map.2 ⟨r, hr, ?_⟩))
    simpa using hkey
  simp [groupDiff, diffGroup, hnone, matchByContent, ContentMatches.paired]

theorem mem_modified : e ∈ (diffDnsRecords live observed).modified ↔
    ∃ key, e ∈ (groupDiff live observed key).modified := by
  simp only [diffDnsRecords, DnsDiff.join, List.mem_flatMap, List.mem_map]
  constructor
  · rintro ⟨_, ⟨key, -, rfl⟩, he⟩
    exact ⟨key, he⟩
  · rintro ⟨key, he⟩
    refine ⟨_, ⟨key, ?_, rfl⟩, he⟩
    by_contra hkey
    simp [(groupDiff_of_notMem hkey).1] at he

theorem mem_missing : r ∈ (diffDnsRecords live observed).missing ↔
    ∃ key, r ∈ (groupDiff live observed key).missing := by
  simp only [diffDnsRecords, DnsDiff.join, List.mem_flatMap, List.mem_map]
  constructor
  · rintro ⟨_, ⟨key, -, rfl⟩, he⟩
    exact ⟨key, he⟩
  · rintro ⟨key, he⟩
    refine ⟨_, ⟨key, ?_, rfl⟩, he⟩
    by_contra hkey
    simp [(groupDiff_of_notMem hkey).2] at he

theorem mem_leftIntents (h : r ∈ leftIntents live observed key) : r ∈ live ∧ r.pairKey = key :=
  mem_intentAt.1 ((leftOver_sublist _ _).subset h)

theorem mem_leftRecords (h : o ∈ leftRecords live observed key) : o ∈ observed ∧ o.pairKey = key :=
  mem_observedAt.1 ((leftOver_sublist _ _).subset h)

theorem modified_of_taken (h : (r, o) ∈ takenByPlace live observed key) :
    modifiedOf (r, o) ∈ (diffDnsRecords live observed).modified := by
  refine mem_modified.2 ⟨key, ?_⟩
  rw [groupDiff_modified, List.mem_append]
  exact .inr (List.mem_map_of_mem h)

theorem mem_matched {p : IntentRecord × ObservedDnsRecord}
    (h : p ∈ (matchByContent (intentAt live key) (observedAt observed key)).matched) :
    (p.1 ∈ live ∧ p.1.pairKey = key) ∧ (p.2 ∈ observed ∧ p.2.pairKey = key) ∧
      p.1.content = p.2.content := by
  refine ⟨mem_intentAt.1 ?_, mem_observedAt.1 ?_, matched_content _ _ p h⟩
  · rw [(matched_intent_perm _ (observedAt observed key)).mem_iff, List.mem_append]
    exact .inl (List.mem_map_of_mem h)
  · rw [(matched_observed_perm (intentAt live key) _).mem_iff, List.mem_append]
    exact .inl (List.mem_map_of_mem h)

theorem modified_cases (h : e ∈ (diffDnsRecords live observed).modified) :
    e.intent ∈ live ∧ e.observed ∈ observed ∧ e.intent.pairKey = e.observed.pairKey ∧
      (e.intent.content = e.observed.content ∧ changedAttributes e.intent e.observed ≠ [] ∨
        ∃ key, (e.intent, e.observed) ∈ takenByPlace live observed key) := by
  obtain ⟨key, h⟩ := mem_modified.1 h
  rw [groupDiff_modified, List.mem_append, List.mem_map, List.mem_map] at h
  rcases h with ⟨p, hp, rfl⟩ | ⟨p, hp, rfl⟩
  · obtain ⟨hp, hchanged⟩ := List.mem_filter.1 hp
    obtain ⟨⟨hr, hrkey⟩, ⟨ho, hokey⟩, hcontent⟩ := mem_matched hp
    exact ⟨hr, ho, hrkey.trans hokey.symm, .inl ⟨hcontent, of_decide_eq_true hchanged⟩⟩
  · obtain ⟨hr, ho⟩ := List.of_mem_zip hp
    obtain ⟨hr, hrkey⟩ := mem_leftIntents hr
    obtain ⟨ho, hokey⟩ := mem_leftRecords ho
    exact ⟨hr, ho, hrkey.trans hokey.symm, .inr ⟨key, hp⟩⟩

end Groups

/-!
## Records an apply run may touch

A record belongs to the reconciler when a tombstone names it, or a live row that is not manual
describes it.
-/

section Spec

def Describes (r : IntentRecord) (o : ObservedDnsRecord) : Prop :=
  r.type = o.type ∧ r.name = o.name ∧
    (r.content = o.content ∨ r.externalRecordId = some o.externalRecordId)

def Buries (t : IntentRecord) (o : ObservedDnsRecord) : Prop :=
  t.type = o.type ∧ t.name = o.name ∧ t.content = o.content

def Owned (live tombstoned : List IntentRecord) (o : ObservedDnsRecord) : Prop :=
  (∃ t ∈ tombstoned, Buries t o) ∨ ∃ r ∈ live, r.owner ≠ .manual ∧ Describes r o

def DnsApplyOperation.Targets (o : ObservedDnsRecord) : DnsApplyOperation → Prop
  | .create _ => False
  | .update id _ => o.externalRecordId = id
  | .delete id _ _ _ => o.externalRecordId = id

/-- The records of a zone, which their ids tell apart. -/
structure DnsZone where
  records : List ObservedDnsRecord
  identified : (records.map (·.externalRecordId)).Nodup

variable (live tombstoned : List IntentRecord) (zone : DnsZone)

def TargetsOwned : Prop :=
  ∀ op ∈ (planSync live tombstoned zone.records).operations,
    ∀ o ∈ zone.records, op.Targets o → Owned live tombstoned o

def DnsZone.compared : List ObservedDnsRecord :=
  observedForDiff (matchTombstones tombstoned zone.records) zone.records

def NoneTaken : Prop :=
  ∀ key, ∀ p ∈ takenByPlace live (zone.compared tombstoned) key,
    p.1.owner ≠ .manual → Owned live tombstoned p.2

end Spec

variable {live tombstoned : List IntentRecord} {zone : DnsZone}

theorem DnsZone.eq_of_id {o o' : ObservedDnsRecord} (ho : o ∈ zone.records)
    (ho' : o' ∈ zone.records) (h : o.externalRecordId = o'.externalRecordId) : o = o' :=
  eq_of_key zone.identified ho' ho h

theorem mem_compared {o : ObservedDnsRecord} (h : o ∈ zone.compared tombstoned) :
    o ∈ zone.records := List.mem_of_mem_filter h

theorem mem_matchTombstones {rows : List IntentRecord} {observed : List ObservedDnsRecord}
    {t : Tombstone} (h : t ∈ matchTombstones rows observed) :
    t.intent ∈ rows ∧ t.observed ∈ observed ∧ Buries t.intent t.observed := by
  obtain ⟨row, hrow, ht⟩ := List.mem_filterMap.1 h
  obtain ⟨o, ho, rfl⟩ := Option.map_eq_some_iff.1 ht
  have hfound := List.find?_some ho
  have hkey := recordKey_inj (beq_iff_eq.1 hfound)
  exact ⟨hrow, List.mem_reverse.1 (List.mem_of_find?_eq_some ho), hkey.1.symm, hkey.2.1.symm,
    hkey.2.2.symm⟩

theorem mem_operations {observed : List ObservedDnsRecord} :
    op ∈ (planSync live tombstoned observed).operations ↔
      (∃ r ∈ (planSync live tombstoned observed).diff.missing, r.owner ≠ .manual ∧
        op = .create r.payload) ∨
      (∃ e ∈ (planSync live tombstoned observed).diff.modified, e.intent.owner ≠ .manual ∧
        op = .update e.observed.externalRecordId e.intent.payload) ∨
      ∃ t ∈ matchTombstones tombstoned observed, t.intent.owner ≠ .manual ∧
        op = .delete t.observed.externalRecordId t.intent.type t.intent.name t.intent.content := by
  simp only [planSync, applyOperationsFor, List.mem_append, List.mem_map, List.mem_filter,
    decide_eq_true_eq, and_assoc, or_assoc]
  simp only [eq_comm]

theorem apply_cons (provider : DnsProvider) (observed : List ObservedDnsRecord)
    (op : DnsApplyOperation) (operations : List DnsApplyOperation) :
    provider.apply observed (op :: operations) =
      provider.apply (provider.carryOut observed op) operations := rfl

theorem mem_carryOut (provider : DnsProvider) {o : ObservedDnsRecord}
    {observed : List ObservedDnsRecord} (ho : o ∈ observed) (hop : ¬op.Targets o) :
    o ∈ provider.carryOut observed op := by
  cases op with
  | create record => exact List.mem_append_left _ ho
  | update id record => exact List.mem_map.2 ⟨o, ho, if_neg hop⟩
  | delete id type name content => exact List.mem_filter.2 ⟨ho, decide_eq_true hop⟩

theorem mem_apply_of_untargeted (provider : DnsProvider) {o : ObservedDnsRecord} :
    ∀ {operations : List DnsApplyOperation} {observed : List ObservedDnsRecord}, o ∈ observed →
      (∀ op ∈ operations, ¬op.Targets o) → o ∈ provider.apply observed operations
  | [], _, ho, _ => ho
  | op :: operations, observed, ho, hall => by
    obtain ⟨hop, hall⟩ := List.forall_mem_cons.1 hall
    rw [apply_cons]
    exact mem_apply_of_untargeted provider (mem_carryOut provider ho hop) hall

/-- An apply run keeps to the reconciler's records exactly if no other record stands at the place of
a row of the reconciler. -/
theorem apply_keeps_to_own_iff (provider : DnsProvider) (live tombstoned : List IntentRecord)
    (zone : DnsZone) :
    (TargetsOwned live tombstoned zone ∧ ∀ o ∈ zone.records, ¬Owned live tombstoned o →
        o ∈ provider.applyRun live tombstoned zone.records) ↔
      NoneTaken live tombstoned zone := by
  constructor
  · rintro ⟨hown, -⟩ key ⟨r, o⟩ hp hmanual
    have hmodified := modified_of_taken hp
    obtain ⟨-, ho⟩ := List.of_mem_zip hp
    exact hown _ (mem_operations.2 (.inr (.inl ⟨_, hmodified, hmanual, rfl⟩))) o
      (mem_compared (mem_leftRecords ho).1) rfl
  · intro hnone
    have hown : TargetsOwned live tombstoned zone := by
      intro op hop o ho htarget
      rcases mem_operations.1 hop with ⟨r, -, -, rfl⟩ | ⟨e, he, hmanual, rfl⟩ | ⟨t, ht, -, rfl⟩
      · exact htarget.elim
      · obtain ⟨hr, hobs, hkey, hcases⟩ := modified_cases he
        obtain rfl := DnsZone.eq_of_id ho (mem_compared hobs) htarget
        rcases hcases with ⟨hcontent, -⟩ | ⟨key, hp⟩
        · obtain ⟨htype, hname⟩ := pairKey_inj hkey
          exact .inr ⟨_, hr, hmanual, htype, hname, .inl hcontent⟩
        · exact hnone key _ hp hmanual
      · obtain ⟨hrow, hobs, hburies⟩ := mem_matchTombstones ht
        obtain rfl := DnsZone.eq_of_id ho hobs htarget
        exact .inl ⟨_, hrow, hburies⟩
    refine ⟨hown, fun o ho hstranger => ?_⟩
    exact mem_apply_of_untargeted provider ho fun op hop htarget =>
      hstranger (hown op hop o ho htarget)

def apexRow : IntentRecord :=
  { id := 1
    type := ⟨"A", DnsLabel.a_plain⟩
    name := ⟨"@", DnsLabel.apex_plain⟩
    content := "203.0.113.10"
    ttlSeconds := none
    priority := none
    proxied := false
    owner := .apex
    externalRecordId := none }

def manualRow : IntentRecord :=
  { apexRow with id := 2, content := "198.51.100.7", owner := .manual }

def editedRecord : ObservedDnsRecord :=
  { externalRecordId := "r1"
    type := apexRow.type
    name := apexRow.name
    content := "198.51.100.9"
    ttlSeconds := none
    priority := none
    proxied := false
    proxiable := true }

theorem edited_manual_record_overwritten : ¬ ∀ (live tombstoned : List IntentRecord)
    (zone : DnsZone), TargetsOwned live tombstoned zone := by
  intro hall
  have hown := hall [apexRow, manualRow] [] ⟨[editedRecord], List.nodup_singleton _⟩
    (.update "r1" apexRow.payload) (by decide +kernel) editedRecord List.mem_cons_self rfl
  rcases hown with ⟨_, ht, -⟩ | ⟨r, hr, hmanual, -, -, hcontent⟩
  · cases ht
  · simp only [List.mem_cons, List.not_mem_nil, or_false] at hr
    rcases hr with rfl | rfl
    · rcases hcontent with hcontent | hcontent
      · exact absurd hcontent (by decide)
      · cases hcontent
    · exact hmanual rfl

end Loxep

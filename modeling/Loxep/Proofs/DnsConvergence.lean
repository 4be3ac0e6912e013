import Loxep.Lib.ListSums
import Mathlib.Algebra.GroupWithZero.Nat
import Loxep.Proofs.DnsOwnership

/-!
# An apply run converges

Where no two rows and no two records share a type, a name and a content, the operations of a run do
not meet. After them the zone carries every live row of the reconciler and nothing a tombstone of
the reconciler names, and a second run has nothing to send.
-/

namespace Loxep

section Spec

def IntentRecord.naturalKey (r : IntentRecord) : DnsLabel × DnsLabel × String :=
  (r.type, r.name, r.content)

def ObservedDnsRecord.naturalKey (o : ObservedDnsRecord) : DnsLabel × DnsLabel × String :=
  (o.type, o.name, o.content)

def KeyedRows (live tombstoned : List IntentRecord) : Prop :=
  ((live ++ tombstoned).map (·.naturalKey)).Nodup

/-- They are among the rows and among the records. -/
structure NaturallyKeyed (live tombstoned : List IntentRecord) (zone : DnsZone) : Prop where
  rows : KeyedRows live tombstoned
  records : (zone.records.map (·.naturalKey)).Nodup

structure Carries (r : IntentRecord) (o : ObservedDnsRecord) : Prop where
  key : o.naturalKey = r.naturalKey
  ttlSeconds : o.ttlSeconds = r.ttlSeconds
  priority : o.priority = r.priority
  proxied : o.proxied = r.proxied

structure ZoneConverged (live tombstoned : List IntentRecord)
    (before after : List ObservedDnsRecord) : Prop where
  present : ∀ r ∈ live, r.owner ≠ .manual → ∃ o ∈ after, Carries r o
  buried : ∀ t ∈ tombstoned, t.owner ≠ .manual → ∀ o ∈ before, Buries t o →
    o.externalRecordId ∉ after.map (·.externalRecordId)
  unburied : ∀ t ∈ tombstoned, t.owner ≠ .manual → ∀ o ∈ after, ¬Buries t o
  spared : ∀ t ∈ tombstoned, t.owner = .manual → ∀ o ∈ before, Buries t o → o ∈ after
  undeleted : ∀ o ∈ before, (∀ t ∈ tombstoned, t.owner ≠ .manual → ¬Buries t o) →
    o.externalRecordId ∈ after.map (·.externalRecordId)
  manual : ∀ r ∈ live, r.owner = .manual → ∀ o ∈ before, o.naturalKey = r.naturalKey → o ∈ after
  settled : (planSync live tombstoned after).operations = []

end Spec

variable {r : IntentRecord} {o : ObservedDnsRecord}

theorem pairKey_of_naturalKey (h : o.naturalKey = r.naturalKey)
    : r.pairKey = o.pairKey ∧ r.content = o.content := by
  simp only [IntentRecord.naturalKey, ObservedDnsRecord.naturalKey, Prod.mk.injEq] at h
  obtain ⟨htype, hname, hcontent⟩ := h
  simp [IntentRecord.pairKey, ObservedDnsRecord.pairKey, htype, hname, hcontent]

theorem naturalKey_of_pairKey (hkey : r.pairKey = o.pairKey) (hcontent : r.content = o.content) :
    o.naturalKey = r.naturalKey := by
  obtain ⟨htype, hname⟩ := pairKey_inj hkey
  simp [IntentRecord.naturalKey, ObservedDnsRecord.naturalKey, htype, hname, hcontent]

theorem buries_iff {t : IntentRecord} :
    Buries t o ↔ o.naturalKey = t.naturalKey := by
  simp [Buries, IntentRecord.naturalKey, ObservedDnsRecord.naturalKey, eq_comm]

theorem carries_iff_unchanged (h : o.naturalKey = r.naturalKey)
    : changedAttributes r o = [] ↔ Carries r o := by
  have hcontent := (pairKey_of_naturalKey h).2
  simp only [changedAttributes, List.append_eq_nil_iff, ite_eq_right_iff, List.cons_ne_nil,
    imp_false, not_not]
  constructor
  · rintro ⟨⟨⟨-, hproxied⟩, httl⟩, hpriority⟩
    exact ⟨h, httl.symm, hpriority.symm, hproxied.symm⟩
  · intro hcarries
    exact ⟨⟨⟨hcontent, hcarries.proxied.symm⟩, hcarries.ttlSeconds.symm⟩, hcarries.priority.symm⟩

theorem carries_created (provider : DnsProvider) (r : IntentRecord) (id : String) :
    Carries r (provider.createdRecord r.payload id) := ⟨rfl, rfl, rfl, rfl⟩

section Keyed

variable {live tombstoned : List IntentRecord} {zone : DnsZone}

variable {r t : IntentRecord} {o : ObservedDnsRecord}

section

variable (h : KeyedRows live tombstoned)
include h

theorem KeyedRows.live_eq {r' : IntentRecord} (hr : r ∈ live) (hr' : r' ∈ live)
    (hkey : r.naturalKey = r'.naturalKey) : r = r' :=
  eq_of_key h (List.mem_append_left _ hr') (List.mem_append_left _ hr) hkey

theorem KeyedRows.tombstone_eq {t' : IntentRecord} (ht : t ∈ tombstoned) (ht' : t' ∈ tombstoned)
    (hkey : t.naturalKey = t'.naturalKey) :
    t = t' := eq_of_key h (List.mem_append_right _ ht') (List.mem_append_right _ ht) hkey

theorem KeyedRows.live_ne (hr : r ∈ live) (ht : t ∈ tombstoned) : r.naturalKey ≠ t.naturalKey := by
  rw [KeyedRows, List.map_append, List.nodup_append] at h
  exact h.2.2 _ (List.mem_map_of_mem hr) _ (List.mem_map_of_mem ht)

theorem KeyedRows.unburied (hr : r ∈ live) (hkey : o.naturalKey = r.naturalKey) :
    ∀ t ∈ tombstoned, ¬Buries t o := fun _ ht hburies =>
  h.live_ne hr ht (hkey.symm.trans (buries_iff.1 hburies))

end

theorem NaturallyKeyed.record_eq (h : NaturallyKeyed live tombstoned zone) {o' : ObservedDnsRecord}
    (ho : o ∈ zone.records) (ho' : o' ∈ zone.records) (hkey : o.naturalKey = o'.naturalKey)
    : o = o' := eq_of_key h.records ho' ho hkey

theorem NaturallyKeyed.compared (h : NaturallyKeyed live tombstoned zone) :
    ((zone.compared tombstoned).map (·.naturalKey)).Nodup :=
  h.records.sublist (List.filter_sublist.map _)

theorem mem_compared_of_unburied (ho : o ∈ zone.records) (hnone : ∀ t ∈ tombstoned, ¬Buries t o)
    : o ∈ zone.compared tombstoned := by
  refine List.mem_filter.2 ⟨ho, decide_eq_true fun hid => ?_⟩
  obtain ⟨t, ht, hid⟩ := List.mem_map.1 hid
  obtain ⟨hrow, hobs, hburies⟩ := mem_matchTombstones ht
  rw [DnsZone.eq_of_id hobs ho hid] at hburies
  exact hnone _ hrow hburies

theorem NaturallyKeyed.tombstone_mem (h : NaturallyKeyed live tombstoned zone) (ht : t ∈ tombstoned)
    (ho : o ∈ zone.records) (hburies : Buries t o) :
    ⟨t, o⟩ ∈ matchTombstones tombstoned zone.records := by
  refine List.mem_filterMap.2 ⟨t, ht, Option.map_eq_some_iff.2 ⟨o, ?_, rfl⟩⟩
  have hkey : o.recordKey = t.recordKey := by
    simp [ObservedDnsRecord.recordKey, IntentRecord.recordKey, hburies.1, hburies.2.1,
      hburies.2.2]
  rcases hfind : zone.records.reverse.find? (·.recordKey == t.recordKey) with _ | o'
  · rw [List.find?_eq_none] at hfind
    exact absurd (beq_iff_eq.2 hkey) (hfind o (List.mem_reverse.2 ho))
  · have hfound := List.find?_some hfind
    have hkeys := recordKey_inj ((beq_iff_eq.1 hfound).trans hkey.symm)
    have hmem := List.mem_reverse.1 (List.mem_of_find?_eq_some hfind)
    have hsame : o' = o :=
      h.record_eq hmem ho (by simp [ObservedDnsRecord.naturalKey, hkeys.1, hkeys.2.1, hkeys.2.2])
    rw [hfind, hsame]

theorem NaturallyKeyed.unburied_of_compared (h : NaturallyKeyed live tombstoned zone)
    (ho : o ∈ zone.compared tombstoned) :
    ∀ t ∈ tombstoned, ¬Buries t o := by
  obtain ⟨ho, hid⟩ := List.mem_filter.1 ho
  intro t ht hburies
  exact of_decide_eq_true hid (List.mem_map_of_mem (h.tombstone_mem ht ho hburies))

theorem content_nodup_intentAt (h : KeyedRows live tombstoned) (key : String) :
    ((intentAt live key).map (·.content)).Nodup := by
  have hlive : live.Nodup := (List.nodup_append.1 (List.Nodup.of_map _ h)).1
  refine (hlive.filter _).map_on fun r hr r' hr' hcontent => ?_
  obtain ⟨hr, hkey⟩ := mem_intentAt.1 hr
  obtain ⟨hr', hkey'⟩ := mem_intentAt.1 hr'
  obtain ⟨htype, hname⟩ := pairKey_inj (hkey.trans hkey'.symm)
  exact h.live_eq hr hr' (by simp [IntentRecord.naturalKey, htype, hname, hcontent])

variable {key : String}

theorem mem_leftIntents_iff (h : KeyedRows live tombstoned) {observed} :
    r ∈ leftIntents live observed key ↔
      (r ∈ live ∧ r.pairKey = key) ∧ ∀ o ∈ observed, o.naturalKey ≠ r.naturalKey := by
  rw [leftIntents, leftOver_eq_filter (content_nodup_intentAt h key), List.mem_filter, mem_intentAt]
  refine and_congr_right fun hr => ?_
  rw [decide_eq_true_eq, List.mem_map, not_exists]
  refine ⟨fun hnone o ho hsame => ?_, fun hnone o hfound => ?_⟩
  · obtain ⟨hpair, hcontent⟩ := pairKey_of_naturalKey hsame
    exact hnone o ⟨mem_observedAt.2 ⟨ho, hpair.symm.trans hr.2⟩, hcontent.symm⟩
  · obtain ⟨ho, hpair⟩ := mem_observedAt.1 hfound.1
    exact hnone o ho (naturalKey_of_pairKey (hr.2.trans hpair.symm) hfound.2.symm)

theorem exists_matched (h : KeyedRows live tombstoned) {observed} (hr : r ∈ live)
    (ho : o ∈ observed) (hkey : o.naturalKey = r.naturalKey)
    : ∃ o' ∈ observed, o'.naturalKey = r.naturalKey ∧
      (r, o') ∈ (matchByContent (intentAt live r.pairKey) (observedAt observed r.pairKey)).matched := by
  have hmem := (matched_intent_perm (intentAt live r.pairKey)
    (observedAt observed r.pairKey)).mem_iff.1 (mem_intentAt.2 ⟨hr, rfl⟩)
  rw [unmatchedIntent_eq, List.mem_append] at hmem
  rcases hmem with hmem | hleft
  · obtain ⟨⟨r', o'⟩, hp, rfl⟩ := List.mem_map.1 hmem
    obtain ⟨-, ⟨ho', hokey⟩, hcontent⟩ := mem_matched hp
    exact ⟨o', ho', naturalKey_of_pairKey hokey.symm hcontent, hp⟩
  · exact absurd hkey (((mem_leftIntents_iff h).1 hleft).2 o ho)

theorem mem_leftRecords_iff {observed : List ObservedDnsRecord}
    (hobserved : (observed.map ObservedDnsRecord.naturalKey).Nodup) :
    o ∈ leftRecords live observed key ↔
      (o ∈ observed ∧ o.pairKey = key) ∧ ∀ r ∈ live, o.naturalKey ≠ r.naturalKey := by
  have hcontents : ((observedAt observed key).map (·.content)).Nodup := by
    refine ((hobserved.of_map _).filter _).map_on fun o ho o' ho' hcontent => ?_
    obtain ⟨ho, hkey⟩ := mem_observedAt.1 ho
    obtain ⟨ho', hkey'⟩ := mem_observedAt.1 ho'
    obtain ⟨htype, hname⟩ := pairKey_inj (hkey.trans hkey'.symm)
    exact eq_of_key hobserved ho' ho
      (by simp [ObservedDnsRecord.naturalKey, htype, hname, hcontent])
  rw [leftRecords, leftOver_eq_filter hcontents, List.mem_filter, mem_observedAt]
  refine and_congr_right fun ho => ?_
  rw [decide_eq_true_eq, List.mem_map, not_exists]
  refine ⟨fun hnone r hr hsame => ?_, fun hnone r hfound => ?_⟩
  · obtain ⟨hpair, hcontent⟩ := pairKey_of_naturalKey hsame
    exact hnone r ⟨mem_intentAt.2 ⟨hr, hpair.trans ho.2⟩, hcontent⟩
  · obtain ⟨hr, hpair⟩ := mem_intentAt.1 hfound.1
    exact hnone r hr (naturalKey_of_pairKey (hpair.trans ho.2.symm) hfound.2)

theorem modified_unique (h : KeyedRows live tombstoned) {observed}
    (hobserved : (observed.map ObservedDnsRecord.naturalKey).Nodup) {e e' : ModifiedDiff}
    (he : e ∈ (diffDnsRecords live observed).modified)
    (he' : e' ∈ (diffDnsRecords live observed).modified) (hsame : e.observed = e'.observed) :
    e.intent = e'.intent := by
  have hplace : ∀ {r o key}, (r, o) ∈ takenByPlace live observed key →
      o.pairKey = key ∧ ∀ r' ∈ live, o.naturalKey ≠ r'.naturalKey := by
    intro r o key hp
    obtain ⟨⟨-, hkey⟩, hnone⟩ := (mem_leftRecords_iff hobserved).1 (List.of_mem_zip hp).2
    exact ⟨hkey, hnone⟩
  obtain ⟨hr, -, hpair, hcases⟩ := modified_cases he
  obtain ⟨hr', -, hpair', hcases'⟩ := modified_cases he'
  rcases hcases with ⟨hcontent, -⟩ | ⟨key, hp⟩
  · rcases hcases' with ⟨hcontent', -⟩ | ⟨key', hp'⟩
    · refine h.live_eq hr hr' ?_
      rw [← naturalKey_of_pairKey hpair hcontent, hsame, naturalKey_of_pairKey hpair' hcontent']
    · have hnone := (hplace hp').2 _ hr
      rw [← hsame] at hnone
      exact absurd (naturalKey_of_pairKey hpair hcontent) hnone
  · rcases hcases' with ⟨hcontent', -⟩ | ⟨key', hp'⟩
    · have hnone := (hplace hp).2 _ hr'
      rw [hsame] at hnone
      exact absurd (naturalKey_of_pairKey hpair' hcontent') hnone
    · have hkeys : key = key' := by
        rw [← (hplace hp).1, ← (hplace hp').1, hsame]
      rw [← hkeys, ← hsame] at hp'
      have hnd : (leftRecords live observed key).Nodup :=
        (((hobserved.of_map _).filter _)).sublist (leftOver_sublist _ _)
      exact zip_left_unique hnd hp hp'

end Keyed

section CarriedOut

variable (provider : DnsProvider)

variable {observed : List ObservedDnsRecord} {o : ObservedDnsRecord}

theorem identified_carryOut (op : DnsApplyOperation) (h : (observed.map (·.externalRecordId)).Nodup)
    :
    ((provider.carryOut observed op).map (·.externalRecordId)).Nodup := by
  cases op with
  | create record => exact nodup_map_concat h (provider.fresh _)
  | update id record =>
    have hids : (provider.carryOut observed (.update id record)).map (·.externalRecordId) =
        observed.map (·.externalRecordId) := by
      rw [DnsProvider.carryOut, List.map_map]
      refine List.map_congr_left fun o _ => ?_
      by_cases ho : o.externalRecordId = id <;> simp [ho, DnsProvider.createdRecord]
    rwa [hids]
  | delete id type name content => exact h.sublist (List.filter_sublist.map _)

theorem identified_apply : ∀ (operations : List DnsApplyOperation)
    {observed : List ObservedDnsRecord}, (observed.map (·.externalRecordId)).Nodup →
      ((provider.apply observed operations).map (·.externalRecordId)).Nodup
  | [], _, h => h
  | op :: operations, _, h => identified_apply operations (identified_carryOut provider op h)

theorem apply_append (observed : List ObservedDnsRecord) (first rest : List DnsApplyOperation) :
    provider.apply observed (first ++ rest) =
      provider.apply (provider.apply observed first) rest := List.foldl_append

variable {rows : List IntentRecord}

theorem mem_apply_creates (ho : o ∈ provider.apply observed (rows.map fun r => .create r.payload)) :
    o ∈ observed ∨ ∃ r ∈ rows, ∃ id, id ∉ observed.map (·.externalRecordId) ∧
      o = provider.createdRecord r.payload id := by
  induction rows generalizing observed with
  | nil => exact .inl ho
  | cons r rows ih =>
    rcases ih ho with ho | ⟨r', hr', id, hid, ho⟩
    · rcases List.mem_append.1 ho with ho | ho
      · exact .inl ho
      · exact .inr ⟨r, List.mem_cons_self, _, provider.fresh _, List.mem_singleton.1 ho⟩
    · refine .inr ⟨r', List.mem_cons_of_mem _ hr', id, fun hmem => hid ?_, ho⟩
      rw [DnsProvider.carryOut, List.map_append]
      exact List.mem_append_left _ hmem

theorem created_mem_apply {r : IntentRecord} (observed : List ObservedDnsRecord) (hr : r ∈ rows) :
    ∃ id ∉ observed.map (·.externalRecordId), provider.createdRecord r.payload id ∈
      provider.apply observed (rows.map fun r => .create r.payload) := by
  induction rows generalizing observed with
  | nil => cases hr
  | cons r' rows ih =>
    rcases List.mem_cons.1 hr with rfl | hr
    · refine ⟨_, provider.fresh _, ?_⟩
      rw [List.map_cons, apply_cons]
      refine mem_apply_of_untargeted provider (List.mem_append_right _ List.mem_cons_self) ?_
      simp [DnsApplyOperation.Targets]
    · obtain ⟨id, hid, hmem⟩ := ih (provider.carryOut observed (.create r'.payload)) hr
      refine ⟨id, fun h => hid ?_, hmem⟩
      rw [DnsProvider.carryOut, List.map_append]
      exact List.mem_append_left _ h

theorem mem_apply_updates {entries : List ModifiedDiff}
    (ho : o ∈ provider.apply observed (entries.map fun e =>
        .update e.observed.externalRecordId e.intent.payload)) :
    (o ∈ observed ∧ ∀ e ∈ entries, e.observed.externalRecordId ≠ o.externalRecordId) ∨
      ∃ e ∈ entries, o = provider.createdRecord e.intent.payload e.observed.externalRecordId := by
  induction entries generalizing observed with
  | nil => exact .inl ⟨ho, fun _ he => absurd he List.not_mem_nil⟩
  | cons e entries ih =>
    rw [List.map_cons, apply_cons] at ho
    rcases ih ho with ⟨ho, hnone⟩ | ⟨e', he', ho⟩
    · obtain ⟨o', ho', hcase⟩ := List.mem_map.1 ho
      by_cases hid : o'.externalRecordId = e.observed.externalRecordId
      · rw [if_pos hid] at hcase
        exact .inr ⟨e, List.mem_cons_self, hcase.symm⟩
      · rw [if_neg hid] at hcase
        subst hcase
        exact .inl ⟨ho', List.forall_mem_cons.2 ⟨fun h => hid h.symm, hnone⟩⟩
    · exact .inr ⟨e', List.mem_cons_of_mem _ he', ho⟩

theorem updated_mem_apply {e : ModifiedDiff} : ∀ {entries : List ModifiedDiff}
    {observed : List ObservedDnsRecord},
    (∀ e' ∈ entries, e'.observed.externalRecordId = e.observed.externalRecordId →
      e'.intent = e.intent) →
    (e ∈ entries ∧ e.observed.externalRecordId ∈ observed.map (·.externalRecordId) ∨
      provider.createdRecord e.intent.payload e.observed.externalRecordId ∈ observed) →
    provider.createdRecord e.intent.payload e.observed.externalRecordId ∈
      provider.apply observed (entries.map fun e =>
        .update e.observed.externalRecordId e.intent.payload)
  | [], observed, _, h => by
    rcases h with ⟨h, -⟩ | h
    · cases h
    · exact h
  | e' :: entries, observed, hone, h => by
    obtain ⟨he', hone⟩ := List.forall_mem_cons.1 hone
    rw [List.map_cons, apply_cons]
    refine updated_mem_apply hone ?_
    rcases h with ⟨he, hid⟩ | h
    · rcases List.mem_cons.1 he with rfl | he
      · obtain ⟨o, ho, hid⟩ := List.mem_map.1 hid
        exact .inr (List.mem_map.2 ⟨o, ho, if_pos hid⟩)
      · refine .inl ⟨he, ?_⟩
        obtain ⟨o, ho, hid⟩ := List.mem_map.1 hid
        refine List.mem_map.2 ⟨_, List.mem_map_of_mem ho, ?_⟩
        split_ifs with hsame
        · exact hsame.symm.trans hid
        · exact hid
    · refine .inr (List.mem_map.2 ⟨_, h, ?_⟩)
      split_ifs with hsame
      · rw [he' hsame.symm, ← hsame]
        rfl
      · rfl

theorem mem_apply_deletes : ∀ {tombstones : List Tombstone} {observed : List ObservedDnsRecord},
    o ∈ provider.apply observed (tombstones.map fun t =>
        .delete t.observed.externalRecordId t.intent.type t.intent.name t.intent.content) ↔
      o ∈ observed ∧ ∀ t ∈ tombstones, t.observed.externalRecordId ≠ o.externalRecordId
  | [], observed => by simp [DnsProvider.apply]
  | t :: tombstones, observed => by
    rw [List.map_cons, apply_cons, mem_apply_deletes, List.forall_mem_cons, DnsProvider.carryOut,
      List.mem_filter, decide_eq_true_eq, and_assoc]
    refine and_congr_right fun _ => and_congr_left fun _ => ⟨Ne.symm, Ne.symm⟩

end CarriedOut

section Run

variable {live tombstoned : List IntentRecord} {zone : DnsZone} (provider : DnsProvider)

variable {r : IntentRecord} {o : ObservedDnsRecord} {e : ModifiedDiff}

theorem missing_left {observed : List ObservedDnsRecord}
    (h : r ∈ (diffDnsRecords live observed).missing) :
    r ∈ leftIntents live observed r.pairKey := by
  obtain ⟨key, h⟩ := mem_missing.1 h
  rw [groupDiff_missing] at h
  have hleft := List.mem_of_mem_drop h
  rwa [(mem_leftIntents hleft).2]

theorem matched_or_modified {observed : List ObservedDnsRecord} {key : String}
    (h : (r, o) ∈ (matchByContent (intentAt live key) (observedAt observed key)).matched) :
    changedAttributes r o = [] ∨ modifiedOf (r, o) ∈ (diffDnsRecords live observed).modified := by
  refine or_iff_not_imp_left.2 fun hchanged => mem_modified.2 ⟨key, ?_⟩
  rw [groupDiff_modified, List.mem_append]
  exact .inl (List.mem_map_of_mem (List.mem_filter.2 ⟨h, decide_eq_true hchanged⟩))

def updates (live tombstoned : List IntentRecord) (zone : DnsZone) : List ModifiedDiff :=
  (diffDnsRecords live (zone.compared tombstoned)).modified.filter (·.intent.owner ≠ .manual)

def creates (live tombstoned : List IntentRecord) (zone : DnsZone) : List IntentRecord :=
  (diffDnsRecords live (zone.compared tombstoned)).missing.filter (·.owner ≠ .manual)

def deletes (tombstoned : List IntentRecord) (zone : DnsZone) : List Tombstone :=
  (matchTombstones tombstoned zone.records).filter (·.intent.owner ≠ .manual)

theorem applyRun_eq : provider.applyRun live tombstoned zone.records =
    provider.apply (provider.apply (provider.apply zone.records
        ((creates live tombstoned zone).map fun r => .create r.payload))
        ((updates live tombstoned zone).map fun e =>
          .update e.observed.externalRecordId e.intent.payload))
      ((deletes tombstoned zone).map fun t =>
        .delete t.observed.externalRecordId t.intent.type t.intent.name t.intent.content) := by
  rw [← apply_append, ← apply_append, ← List.append_assoc]
  rfl

theorem mem_updates : e ∈ updates live tombstoned zone ↔
    e ∈ (diffDnsRecords live (zone.compared tombstoned)).modified ∧ e.intent.owner ≠ .manual := by
  simp [updates]

theorem mem_deletes {t : Tombstone} : t ∈ deletes tombstoned zone ↔
    t ∈ matchTombstones tombstoned zone.records ∧ t.intent.owner ≠ .manual := by
  simp [deletes]

theorem update_mem (he : e ∈ updates live tombstoned zone) :
    e.intent ∈ live ∧ e.observed ∈ zone.compared tombstoned ∧ e.observed ∈ zone.records := by
  obtain ⟨hr, ho, -⟩ := modified_cases (mem_updates.1 he).1
  exact ⟨hr, ho, mem_compared ho⟩

theorem kept_mem (ho : o ∈ zone.records)
    (hupdate : ∀ e ∈ updates live tombstoned zone, e.observed ≠ o)
    (hdelete : ∀ t ∈ deletes tombstoned zone, t.observed ≠ o) :
    o ∈ provider.applyRun live tombstoned zone.records := by
  refine mem_apply_of_untargeted provider ho fun op hop htarget => ?_
  rcases mem_operations.1 hop with ⟨r, -, -, rfl⟩ | ⟨e, he, hmanual, rfl⟩ | ⟨t, ht, hmanual, rfl⟩
  · exact htarget
  · have he := mem_updates.2 ⟨he, hmanual⟩
    exact hupdate e he (DnsZone.eq_of_id (update_mem he).2.2 ho htarget.symm)
  · exact hdelete t (mem_deletes.2 ⟨ht, hmanual⟩)
      (DnsZone.eq_of_id (mem_matchTombstones ht).2.1 ho htarget.symm)

theorem mem_applyRun (ho : o ∈ provider.applyRun live tombstoned zone.records) :
    ((o ∈ zone.records ∧ ∀ e ∈ updates live tombstoned zone, e.observed ≠ o) ∨
        ∃ r ∈ live, r.owner ≠ .manual ∧ Carries r o) ∧
      ∀ t ∈ deletes tombstoned zone, t.observed.externalRecordId ≠ o.externalRecordId := by
  rw [applyRun_eq] at ho
  obtain ⟨ho, hdelete⟩ := (mem_apply_deletes provider).1 ho
  refine ⟨?_, hdelete⟩
  rcases mem_apply_updates provider ho with ⟨ho, hupdate⟩ | ⟨e, he, rfl⟩
  · rcases mem_apply_creates provider ho with ho | ⟨r, hr, id, -, rfl⟩
    · exact .inl ⟨ho, fun e he hsame => hupdate e he (congrArg _ hsame)⟩
    · obtain ⟨hr, hmanual⟩ := List.mem_filter.1 hr
      exact .inr ⟨r, (mem_leftIntents (missing_left hr)).1, of_decide_eq_true hmanual,
        carries_created provider r id⟩
  · exact .inr ⟨e.intent, (update_mem he).1, (mem_updates.1 he).2, carries_created provider _ _⟩

theorem updated_mem (h : NaturallyKeyed live tombstoned zone)
    (he : e ∈ updates live tombstoned zone) :
    provider.createdRecord e.intent.payload e.observed.externalRecordId ∈
      provider.applyRun live tombstoned zone.records := by
  obtain ⟨-, hcompared, ho⟩ := update_mem he
  rw [applyRun_eq, mem_apply_deletes]
  constructor
  · refine updated_mem_apply provider (fun e' he' hid => ?_) (.inl ⟨he, ?_⟩)
    · exact modified_unique h.rows h.compared
        (mem_updates.1 he').1 (mem_updates.1 he).1
        (DnsZone.eq_of_id (update_mem he').2.2 ho hid)
    · exact List.mem_map_of_mem (mem_apply_of_untargeted provider ho
        (by simp [DnsApplyOperation.Targets]))
  · intro t ht hid
    obtain ⟨hrow, hobs, hburies⟩ := mem_matchTombstones (mem_deletes.1 ht).1
    have hsame := DnsZone.eq_of_id hobs ho hid
    exact h.unburied_of_compared hcompared _ hrow (hsame ▸ hburies)

theorem created_mem (hr : r ∈ creates live tombstoned zone) :
    ∃ id, provider.createdRecord r.payload id ∈
      provider.applyRun live tombstoned zone.records := by
  obtain ⟨id, hid, hmem⟩ := created_mem_apply provider zone.records hr
  refine ⟨id, ?_⟩
  rw [applyRun_eq, mem_apply_deletes]
  constructor
  · refine mem_apply_of_untargeted provider hmem fun op hop htarget => hid ?_
    obtain ⟨e, he, rfl⟩ := List.mem_map.1 hop
    exact List.mem_map.2 ⟨_, (update_mem he).2.2, htarget.symm⟩
  · intro t ht hsame
    exact hid (List.mem_map.2 ⟨_, (mem_matchTombstones (mem_deletes.1 ht).1).2.1, hsame⟩)

theorem update_intent_eq (h : NaturallyKeyed live tombstoned zone)
    (he : e ∈ updates live tombstoned zone) (hr : r ∈ live)
    (hkey : e.observed.naturalKey = r.naturalKey) :
    e.intent = r ∧ changedAttributes r e.observed ≠ [] := by
  obtain ⟨hintent, -, hpair, hcases⟩ := modified_cases (mem_updates.1 he).1
  rcases hcases with ⟨hcontent, hchanged⟩ | ⟨key, hp⟩
  · have hsame : e.intent = r :=
      h.rows.live_eq hintent hr ((naturalKey_of_pairKey hpair hcontent).symm.trans hkey)
    exact ⟨hsame, hsame ▸ hchanged⟩
  · exact absurd hkey (((mem_leftRecords_iff h.compared).1 (List.of_mem_zip hp).2).2 r hr)

theorem not_deleted_of_live (h : KeyedRows live tombstoned) (hr : r ∈ live)
    (hkey : o.naturalKey = r.naturalKey) :
    ∀ t ∈ deletes tombstoned zone, t.observed ≠ o := by
  rintro t ht rfl
  obtain ⟨hrow, -, hburies⟩ := mem_matchTombstones (mem_deletes.1 ht).1
  exact h.unburied hr hkey _ hrow hburies

section

variable (h : NaturallyKeyed live tombstoned zone)
include h

theorem present_of_live (hr : r ∈ live) (hmanual : r.owner ≠ .manual) :
    ∃ o ∈ provider.applyRun live tombstoned zone.records, Carries r o := by
  by_cases hthere : ∃ o ∈ zone.records, o.naturalKey = r.naturalKey
  · obtain ⟨o, ho, hkey⟩ := hthere
    have hcompared := mem_compared_of_unburied ho (h.rows.unburied hr hkey)
    obtain ⟨o', ho', hkey', hp⟩ := exists_matched h.rows hr hcompared hkey
    rcases matched_or_modified hp with hsame | hmodified
    · refine ⟨o', kept_mem provider (mem_compared ho') ?_ (not_deleted_of_live h.rows hr hkey'),
        (carries_iff_unchanged hkey').1 hsame⟩
      rintro e he rfl
      exact (update_intent_eq h he hr hkey').2 hsame
    · exact ⟨_, updated_mem provider h (mem_updates.2 ⟨hmodified, hmanual⟩),
        carries_created provider _ _⟩
  · have hleft : r ∈ leftIntents live (zone.compared tombstoned) r.pairKey :=
      (mem_leftIntents_iff h.rows).2 ⟨⟨hr, rfl⟩, fun o ho hkey =>
        hthere ⟨o, mem_compared ho, hkey⟩⟩
    rcases mem_zip_or_drop (leftRecords live (zone.compared tombstoned) r.pairKey) hleft with
      ⟨o, hp⟩ | hdrop
    · exact ⟨_, updated_mem provider h (mem_updates.2 ⟨modified_of_taken hp, hmanual⟩),
        carries_created provider _ _⟩
    · have hmissing : r ∈ (diffDnsRecords live (zone.compared tombstoned)).missing := by
        refine mem_missing.2 ⟨r.pairKey, ?_⟩
        rw [groupDiff_missing]
        exact hdrop
      obtain ⟨id, hmem⟩ := created_mem provider
        (List.mem_filter.2 ⟨hmissing, decide_eq_true hmanual⟩ : r ∈ creates live tombstoned zone)
      exact ⟨_, hmem, carries_created provider r id⟩

theorem carries_of_key (hr : r ∈ live) (hmanual : r.owner ≠ .manual)
    (ho : o ∈ provider.applyRun live tombstoned zone.records) (hkey : o.naturalKey = r.naturalKey)
    : Carries r o := by
  rcases (mem_applyRun provider ho).1 with ⟨ho, huntouched⟩ | ⟨r', hr', -, hcarries⟩
  · have hcompared := mem_compared_of_unburied ho (h.rows.unburied hr hkey)
    obtain ⟨o', ho', hkey', hp⟩ := exists_matched h.rows hr hcompared hkey
    obtain rfl := h.record_eq (mem_compared ho') ho (hkey'.trans hkey.symm)
    rcases matched_or_modified hp with hsame | hmodified
    · exact (carries_iff_unchanged hkey).1 hsame
    · exact absurd rfl (huntouched _ (mem_updates.2 ⟨hmodified, hmanual⟩))
  · rw [h.rows.live_eq hr hr' (hkey.symm.trans hcarries.key)]
    exact hcarries

theorem unburied_after {t : IntentRecord} (ht : t ∈ tombstoned) (hmanual : t.owner ≠ .manual)
    (ho : o ∈ provider.applyRun live tombstoned zone.records) : ¬Buries t o := by
  intro hburies
  obtain ⟨ho | ⟨r, hr, -, hcarries⟩, hdelete⟩ := mem_applyRun provider ho
  · have hmatched := h.tombstone_mem ht ho.1 hburies
    exact hdelete _ (mem_deletes.2 ⟨hmatched, hmanual⟩) rfl
  · exact h.rows.live_ne hr ht (hcarries.key.symm.trans (buries_iff.1 hburies))

theorem settled_after :
    (planSync live tombstoned
      (provider.applyRun live tombstoned zone.records)).operations = [] := by
  let after : DnsZone := ⟨_, identified_apply provider
    (planSync live tombstoned zone.records).operations zone.identified⟩
  have hthere : ∀ r ∈ live, r.owner ≠ .manual →
      ∃ o ∈ after.compared tombstoned, o.naturalKey = r.naturalKey := by
    intro r hr hmanual
    obtain ⟨o, ho, hcarries⟩ := present_of_live provider h hr hmanual
    have hmem : o ∈ after.records := ho
    exact ⟨o, mem_compared_of_unburied hmem (h.rows.unburied hr hcarries.key), hcarries.key⟩
  rw [List.eq_nil_iff_forall_not_mem]
  intro op hop
  rcases mem_operations.1 hop with ⟨r, hr, hmanual, -⟩ | ⟨e, he, hmanual, -⟩ | ⟨t, ht, hmanual, -⟩
  · obtain ⟨⟨hlive, -⟩, hnone⟩ := (mem_leftIntents_iff h.rows).1 (missing_left hr)
    obtain ⟨o, ho, hkey⟩ := hthere r hlive hmanual
    exact hnone o ho hkey
  · obtain ⟨hlive, hobs, hpair, ⟨hcontent, hchanged⟩ | ⟨key, hp⟩⟩ := modified_cases he
    · have hkey := naturalKey_of_pairKey hpair hcontent
      have hmem : e.observed ∈ after.records := List.mem_of_mem_filter hobs
      exact hchanged ((carries_iff_unchanged hkey).2
        (carries_of_key provider h hlive hmanual hmem hkey))
    · obtain ⟨-, hnone⟩ := (mem_leftIntents_iff h.rows).1 (List.of_mem_zip hp).1
      obtain ⟨o, ho, hkey⟩ := hthere _ hlive hmanual
      exact hnone o ho hkey
  · obtain ⟨hrow, hobs, hburies⟩ := mem_matchTombstones ht
    exact unburied_after provider h hrow hmanual hobs hburies

end

end Run

def lengtheningProvider : DnsProvider where
  newRecordId taken := String.ofList (List.replicate ((taken.map (·.length)).sum + 1) 'r')
  fresh taken hmem := by
    have hle := List.single_le_sum (fun _ _ => Nat.zero_le _) _
      (List.mem_map_of_mem (f := String.length) hmem)
    simp at hle
  proxiable _ := false

def oldMailRow : IntentRecord :=
  { apexRow with
    id := 3
    type := ⟨"TXT", DnsLabel.txt_plain⟩
    content := "v=spf1 -all"
    owner := .mail }

def recordOf (r : IntentRecord) (id : String) : ObservedDnsRecord :=
  { editedRecord with externalRecordId := id, type := r.type, content := r.content }

def mixedZone : DnsZone :=
  ⟨[editedRecord, recordOf manualRow "r2", recordOf oldMailRow "r3"], by decide⟩

end Loxep

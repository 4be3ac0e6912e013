import Loxep.Proofs.DriftMirror
import Loxep.RecordSync

/-!
# Applied findings and the drift flag

An apply run resolves every unresolved finding but the unexpected, also those it sent nothing for.
-/

namespace Loxep

section Spec

/-- The tables, and the findings some apply run has issued an operation for. -/
structure DriftRun where
  tables : SyncTables
  issued : List DriftFindingId

inductive DriftAction
  | run (input : RecordSyncInput)
  | dismiss (now : Timestamp) (finding : DriftFindingId)
  | markApplied (now : Timestamp) (ids : List DriftFindingId)
  /-- The intent changes between the runs. -/
  | rewrite (records : List DnsRecordRow)

def SyncTables.planOf (t : SyncTables) (domain : ManagedDomainId)
    (observed : List ObservedDnsRecord) : SyncPlan :=
  planSync (t.intentOf domain) (t.tombstonedOf domain) observed

def SyncTables.recordedBy (t : SyncTables) (input : RecordSyncInput) :
    Option (SyncPlan × SyncTables) :=
  match t.domains.find? (·.id == input.domainId), input.read with
  | some domain, .ok observed =>
    if domain.externalZoneId = none then none
    else
      match t.applyStep input (t.planOf input.domainId observed) with
      | .error _ => none
      | .ok (_, u) =>
        match recordRun ⟨input.domainId, input.runId, input.now, input.newFindingId,
            findingsFromDiff (t.planOf input.domainId observed).diff⟩ u.toDriftTables with
        | .error _ => none
        | .ok (_, found) =>
          some (t.planOf input.domainId observed, { u with toDriftTables := found })
  | _, _ => none

def SyncPlan.issuedFor (plan : SyncPlan) (row : DnsDriftFindingRow) : Bool :=
  (row.kind ≠ .unexpected) &&
    (plan.diff.missing.all fun r =>
      (missingFinding r).key ≠ row.key || decide (.create r.payload ∈ plan.operations)) &&
    plan.diff.modified.all fun e => (modifiedFinding e).key ≠ row.key ||
      decide (.update e.observed.externalRecordId e.intent.payload ∈ plan.operations)

def SyncTables.issuedBy (t : SyncTables) (input : RecordSyncInput) : List DriftFindingId :=
  match t.recordedBy input with
  | some (plan, u) =>
    if input.sends then ((u.listUnresolved input.domainId).filter plan.issuedFor).map (·.id)
    else []
  | none => []

def DriftRun.step (s : DriftRun) : DriftAction → DriftRun
  | .run input => ⟨(s.tables.runRecordSync input).2, s.issued ++ s.tables.issuedBy input⟩
  | .dismiss now finding =>
    match s.tables.toDriftTables.dismiss now finding with
    | .ok t => ⟨{ s.tables with toDriftTables := t }, s.issued⟩
    | .error _ => s
  | .markApplied now ids =>
    ⟨{ s.tables with toDriftTables := s.tables.toDriftTables.markApplied now ids }, s.issued⟩
  | .rewrite records => ⟨{ s.tables with dnsRecords := records }, s.issued⟩

def FlagsRight (t : DriftTables) : Prop :=
  ∀ d ∈ t.domains, d.driftDetectedAt ≠ none ↔ t.listUnresolved d.id ≠ []

/-- Every finding resolved as applied was issued an operation, and the flags are right. -/
structure DriftRun.Truthful (s : DriftRun) : Prop where
  applied : ∀ row ∈ s.tables.findings, row.resolved.map (·.resolution) = some .applied →
    row.id ∈ s.issued
  flags : FlagsRight s.tables.toDriftTables

structure DriftRun.Tracked (s : DriftRun) : Prop where
  keyed : FindingsKeyed s.tables.findings
  resolved : ∀ id ∈ s.issued, ∃ row ∈ s.tables.findings, row.id = id ∧ row.resolved ≠ none

/-- Whatever is missing or modified is sent, and something unexpected stays beside it if there is
any. -/
structure Resolvable (diff : DnsDiff) : Prop where
  missing : ∀ r ∈ diff.missing, ∃ r' ∈ diff.missing, r'.owner ≠ .manual ∧ r'.payload = r.payload
  modified : ∀ e ∈ diff.modified, ∃ e' ∈ diff.modified, e'.intent.owner ≠ .manual ∧
    e'.observed.externalRecordId = e.observed.externalRecordId ∧
    e'.intent.payload = e.intent.payload
  beside : diff.missing = [] ∧ diff.modified = [] ∨ diff.unexpected ≠ []

/-- An apply run that returns could resolve what it found, a dismissal is not of the last finding
a domain has, and what is marked as applied has been issued an operation. -/
def KeepsTruth (s : DriftRun) : DriftAction → Prop
  | .run input => ∀ observed, input.read = .ok observed → input.sends = true →
      Except.returns (s.tables.runRecordSync input).1 = true →
        Resolvable (s.tables.planOf input.domainId observed).diff
  | .dismiss _ finding => ∀ d ∈ s.tables.domains, s.tables.listUnresolved d.id ≠ [] →
      ∃ row ∈ s.tables.listUnresolved d.id, row.id ≠ finding
  | .markApplied _ ids => ∀ row ∈ s.tables.findings, row.id ∈ ids → row.id ∈ s.issued
  | .rewrite _ => True

end Spec

variable {diff : DnsDiff} {s : DriftRun}

variable {tombstones : List Tombstone} {record : DnsRecordPayload} {domain : ManagedDomainId}
  {id : DriftFindingId}

theorem create_mem_iff :
    .create record ∈ applyOperationsFor diff tombstones ↔
      ∃ r ∈ diff.missing, r.owner ≠ .manual ∧ r.payload = record := by
  simp [applyOperationsFor, and_assoc]

theorem update_mem_iff {id : String} : .update id record ∈ applyOperationsFor diff tombstones ↔
      ∃ e ∈ diff.modified, e.intent.owner ≠ .manual ∧ e.observed.externalRecordId = id ∧
        e.intent.payload = record := by
  simp [applyOperationsFor, and_assoc]

section Recorded

variable {input : RecordRunInput} {t found : DriftTables} {result : RecordRunResult}

variable {row : DnsDriftFindingRow}

theorem mem_listUnresolved {domain : ManagedDomainId} :
    row ∈ t.listUnresolved domain ↔
      row ∈ t.findings ∧ row.domainId = domain ∧ row.resolved = none := by
  simp [DriftTables.listUnresolved, openFor_iff]

structure RunRecorded (input : RecordRunInput) (t found : DriftTables) : Prop where
  keyed : FindingsKeyed found.findings
  applied : ∀ row ∈ found.findings, row.resolved.map (·.resolution) = some .applied →
    row ∈ t.findings
  stays : ∀ row ∈ t.findings, row.resolved ≠ none → row ∈ found.findings
  seen : ∀ f ∈ input.findings, ∃ row ∈ found.listUnresolved input.domainId, row.key = f.key
  known : ∀ row ∈ found.listUnresolved input.domainId, ∃ f ∈ input.findings, row.key = f.key
  others : ∀ domain ≠ input.domainId, ∀ row,
    row ∈ found.listUnresolved domain ↔ row ∈ t.listUnresolved domain
  flagged : ∀ d ∈ found.domains, d.id = input.domainId →
    (d.driftDetectedAt ≠ none ↔ input.findings ≠ [])
  unflagged : ∀ d ∈ found.domains, d.id ≠ input.domainId → d ∈ t.domains
  ids : found.domains.map (·.id) = t.domains.map (·.id)

theorem resolveDisappeared_eq {ids : List DriftFindingId}
    (h : (resolveDisappeared input ids row).resolved.map (·.resolution) ≠ some .disappeared) :
    resolveDisappeared input ids row = row := by
  by_contra hne
  refine h ?_
  unfold resolveDisappeared at hne ⊢
  split_ifs at hne ⊢ with hgone
  · rfl
  · exact absurd rfl hne

theorem recordRun_records (h : FindingsKeyed t.findings)
    (hrun : recordRun input t = .ok (result, found)) : RunRecorded input t found := by
  have hkeyed := recordRun_keyed h hrun
  obtain ⟨rows, ids, hrec, -, rfl⟩ := recordRun_eq_ok.1 hrun
  have all := recordFindings_spec h hrec
  have hopen : ∀ row ∈ rows, row.id ∈ ids → row.openFor input.domainId = true := by
    intro row hrow hid
    obtain ⟨row', hrow', hid', hopen⟩ := all.survivors row.id hid
    rwa [eq_of_key all.keyed.ids hrow' hrow hid'.symm]
  have hunresolved : ∀ row, row ∈ rows ∧ row.openFor input.domainId = true ∧ row.id ∈ ids ↔
      row ∈ DriftTables.listUnresolved
        ⟨t.domains, rows.map (resolveDisappeared input ids)⟩ input.domainId := by
    intro row
    rw [listUnresolved_resolved, List.mem_filter, Bool.and_eq_true, decide_eq_true_eq]
  refine ⟨hkeyed, ?_, ?_, ?_, ?_, ?_, ?_, ?_, ?_⟩
  · intro row hrow happlied
    obtain ⟨row', hrow', rfl⟩ := List.mem_map.1 hrow
    have heq : resolveDisappeared input ids row' = row' :=
      resolveDisappeared_eq (by rw [happlied]; decide)
    rw [heq] at happlied ⊢
    refine all.old row' hrow' fun hid => ?_
    have hnone := (openFor_iff.1 (hopen row' hrow' hid)).2
    simp [hnone] at happlied
  · intro row hrow hres
    have hnot : row.id ∉ ids := fun hid => hres (openFor_iff.1 (all.twin row hrow hid).1).2
    refine List.mem_map.2 ⟨row, all.kept row hrow hnot, if_neg fun hgone => hres ?_⟩
    exact (openFor_iff.1 hgone.1).2
  · intro f hf
    obtain ⟨row, hrow, hid, hkey⟩ := all.seen f hf
    exact ⟨row, (hunresolved row).1 ⟨hrow, hopen row hrow hid, hid⟩, hkey⟩
  · intro row hrow
    obtain ⟨hrow, -, hid⟩ := (hunresolved row).2 hrow
    exact all.found row hrow hid
  · intro domain hne row
    rw [mem_listUnresolved, mem_listUnresolved]
    refine and_congr_left fun ⟨hdomain, hres⟩ => ⟨fun hrow => ?_, fun hrow => ?_⟩
    · obtain ⟨row', hrow', rfl⟩ := List.mem_map.1 hrow
      have heq : resolveDisappeared input ids row' = row' :=
        resolveDisappeared_eq (by simp [hres])
      rw [heq] at hdomain ⊢
      refine all.old row' hrow' fun hid => hne ?_
      exact hdomain.symm.trans (openFor_iff.1 (hopen row' hrow' hid)).1
    · have hnot : row.id ∉ ids := fun hid =>
        hne (hdomain.symm.trans (openFor_iff.1 (all.twin row hrow hid).1).1)
      refine List.mem_map.2 ⟨row, all.kept row hrow hnot, if_neg fun hgone => hne ?_⟩
      exact hdomain.symm.trans (openFor_iff.1 hgone.1).1
  · intro d hd hid
    obtain ⟨d', -, rfl⟩ := List.mem_map.1 hd
    by_cases hsame : d'.id = input.domainId
    · rw [if_pos hsame]
      simp [all.length, List.length_pos_iff]
    · rw [if_neg hsame] at hid
      exact absurd hid hsame
  · intro d hd hid
    obtain ⟨d', hd', rfl⟩ := List.mem_map.1 hd
    by_cases hsame : d'.id = input.domainId
    · rw [if_pos hsame] at hid
      exact absurd hsame hid
    · rwa [if_neg hsame]
  · simp only [List.map_map]
    refine List.map_congr_left fun d _ => ?_
    simp only [Function.comp]
    split_ifs <;> rfl

theorem RunRecorded.flagsRight (h : RunRecorded input t found) (hright : FlagsRight t) :
    FlagsRight found := by
  intro d hd
  by_cases hid : d.id = input.domainId
  · rw [h.flagged d hd hid, hid]
    refine not_congr ⟨fun hnone => ?_, fun hnone => ?_⟩
    · rw [List.eq_nil_iff_forall_not_mem]
      intro row hrow
      obtain ⟨f, hf, -⟩ := h.known row hrow
      simp [hnone] at hf
    · rw [List.eq_nil_iff_forall_not_mem]
      intro f hf
      obtain ⟨row, hrow, -⟩ := h.seen f hf
      simp [hnone] at hrow
  · rw [hright d (h.unflagged d hd hid)]
    refine not_congr ?_
    simp only [List.eq_nil_iff_forall_not_mem, h.others d.id hid]

end Recorded

section Resolve

variable {t : DriftTables} {now : Timestamp} {resolution : DnsDriftResolution}
  {ids : List DriftFindingId}

theorem listUnresolved_resolve (domain : ManagedDomainId) :
    (t.resolve now resolution ids).listUnresolved domain =
      (t.listUnresolved domain).filter (·.id ∉ ids) := by
  have hopen : ∀ row : DnsDriftFindingRow,
      (if row.id ∈ ids then { row with resolved := some ⟨now, resolution⟩ } else row).openFor domain =
        (decide (row.id ∉ ids) && row.openFor domain) := by
    intro row
    split_ifs with hid <;> simp [DnsDriftFindingRow.openFor, hid]
  rw [DriftTables.listUnresolved, DriftTables.listUnresolved, DriftTables.resolve, List.filter_map,
    List.filter_filter]
  simp only [Function.comp_def, hopen]
  refine (List.map_congr_left fun row hrow => ?_).trans (List.map_id _)
  have hsat := (List.mem_filter.1 hrow).2
  rw [Bool.and_eq_true, decide_eq_true_eq] at hsat
  exact if_neg hsat.1

theorem resolve_keyed (h : FindingsKeyed t.findings) :
    FindingsKeyed (t.resolve now resolution ids).findings := by
  refine h.map (fun row => ?_) fun row hres => ?_
  · split_ifs <;> exact ⟨rfl, rfl, rfl⟩
  · split_ifs at hres
    exact hres

theorem flagsRight_resolve_iff (h : FlagsRight t) :
    FlagsRight (t.resolve now resolution ids) ↔ ∀ d ∈ t.domains, t.listUnresolved d.id ≠ [] →
      ∃ row ∈ t.listUnresolved d.id, row.id ∉ ids := by
  refine forall₂_congr fun d hd => ?_
  rw [h d hd, listUnresolved_resolve]
  simp only [ne_eq, List.filter_eq_nil_iff, decide_eq_true_eq, not_forall, not_not]
  constructor
  · rintro hiff hnone
    obtain ⟨row, hrow, hid⟩ := hiff.1 hnone
    exact ⟨row, hrow, hid⟩
  · intro hleft
    refine ⟨fun hnone => ?_, fun ⟨row, hrow, _⟩ hnone => ?_⟩
    · obtain ⟨row, hrow, hid⟩ := hleft hnone
      exact ⟨row, hrow, hid⟩
    · simp [hnone] at hrow

end Resolve

theorem mem_findingsFromDiff {f : DriftFindingInput} :
    f ∈ findingsFromDiff diff ↔ (∃ r ∈ diff.missing, missingFinding r = f) ∨
      (∃ e ∈ diff.modified, modifiedFinding e = f) ∨ ∃ o ∈ diff.unexpected,
        unexpectedFinding o = f := by
  simp [findingsFromDiff]

theorem mem_fixedFindings {t : SyncTables} :
    id ∈ t.fixedFindings domain ↔
      ∃ row ∈ t.listUnresolved domain, row.kind ≠ .unexpected ∧ row.id = id := by
  simp [SyncTables.fixedFindings, and_assoc]

theorem flagsRight_updateDomain_iff {t : SyncTables} {f : ManagedDomainRow → ManagedDomainRow}
    (hf : ∀ d, (f d).id = d.id ∧ (f d).driftDetectedAt = d.driftDetectedAt) :
    FlagsRight (t.updateDomain domain f).toDriftTables ↔ FlagsRight t.toDriftTables := by
  have hsame : ∀ d : ManagedDomainRow, (if d.id = domain then f d else d).id = d.id ∧
      (if d.id = domain then f d else d).driftDetectedAt = d.driftDetectedAt := by
    intro d
    split_ifs
    · exact hf d
    · exact ⟨rfl, rfl⟩
  unfold FlagsRight SyncTables.updateDomain
  simp only [List.forall_mem_map, hsame]
  exact Iff.rfl

section Run

variable {t u : SyncTables} {input : RecordSyncInput} {plan : SyncPlan}

theorem applyStep_tables {applied : ℕ} (h : t.applyStep input plan = .ok (applied, u)) :
    u.toDriftTables = t.toDriftTables := by
  unfold SyncTables.applyStep at h
  split_ifs at h with hsends hnone
  · simp only [Except.bind_eq_ok, Except.require_eq_ok, Except.pure_eq_ok, Prod.mk.injEq] at h
    obtain ⟨-, -, -, rfl⟩ := h
    rfl
  · simp only [Except.bind_eq_ok, Except.require_eq_ok, Except.pure_eq_ok, Prod.mk.injEq] at h
    obtain ⟨-, -, -, -, -, rfl⟩ := h
    rfl
  · cases h
    rfl

def RecordSyncInput.recording (input : RecordSyncInput) (plan : SyncPlan) : RecordRunInput :=
  ⟨input.domainId, input.runId, input.now, input.newFindingId, findingsFromDiff plan.diff⟩

theorem recordedBy_eq_some (h : t.recordedBy input = some (plan, u)) :
    (∃ observed, input.read = .ok observed ∧ plan = t.planOf input.domainId observed) ∧
      (∃ d ∈ t.domains, d.id = input.domainId) ∧
      (∃ result, recordRun (input.recording plan) t.toDriftTables = .ok (result, u.toDriftTables)) ∧
      Except.returns (t.runRecordSync input).1 = true ∧
      (t.runRecordSync input).2 = u.finishRun input := by
  unfold SyncTables.recordedBy at h
  split at h
  · next domain observed hfind hread =>
    have hdomain : ∃ d ∈ t.domains, d.id = input.domainId :=
      ⟨domain, List.mem_of_find?_eq_some hfind, by simpa using List.find?_some hfind⟩
    split_ifs at h with hzone
    split at h
    · cases h
    · next applied v happly =>
      split at h
      · cases h
      · next result found hrecord =>
        obtain ⟨rfl, rfl⟩ := Prod.mk.inj (Option.some.inj h)
        have htables : v.toDriftTables = t.toDriftTables := applyStep_tables happly
        refine ⟨⟨observed, hread, rfl⟩, hdomain, ⟨result, ?_⟩, ?_⟩
        · rw [← htables]
          exact hrecord
        · unfold SyncTables.planOf at happly hrecord
          simp only [SyncTables.runRecordSync, hfind, if_neg hzone, hread, SyncTables.runOver,
            happly, hrecord]
          exact ⟨Except.returns_iff.2 ⟨_, rfl⟩, trivial⟩
  · cases h

theorem recordedBy_eq_none (h : t.recordedBy input = none) :
    Except.returns (t.runRecordSync input).1 = false ∧
      (t.runRecordSync input).2.findings = t.findings ∧
      (FlagsRight t.toDriftTables → FlagsRight (t.runRecordSync input).2.toDriftTables) := by
  unfold SyncTables.recordedBy at h
  unfold SyncTables.runRecordSync
  cases hfind : t.domains.find? (·.id == input.domainId) with
  | none => exact ⟨rfl, rfl, id⟩
  | some domain =>
    by_cases hzone : domain.externalZoneId = none
    · simp only [if_pos hzone]
      exact ⟨rfl, trivial, id⟩
    · simp only [if_neg hzone]
      cases hread : input.read with
      | error kind =>
        refine ⟨rfl, rfl, fun hright => ?_⟩
        dsimp only
        rwa [flagsRight_updateDomain_iff]
        exact fun _ => ⟨rfl, rfl⟩
      | ok observed =>
        simp only [hfind, hread, if_neg hzone, SyncTables.planOf] at h
        unfold SyncTables.runOver
        cases happly : t.applyStep input (planSync (t.intentOf input.domainId)
            (t.tombstonedOf input.domainId) observed) with
        | error e =>
          simp only [happly]
          exact ⟨rfl, trivial, id⟩
        | ok r =>
          obtain ⟨applied, v⟩ := r
          have htables : v.toDriftTables = t.toDriftTables := applyStep_tables happly
          simp only [happly] at h ⊢
          generalize recordRun _ v.toDriftTables = recorded at h ⊢
          cases recorded with
          | error e =>
            exact ⟨rfl, congrArg DriftTables.findings htables, fun hright => htables ▸ hright⟩
          | ok result => cases h

section

variable (h : RunRecorded (input.recording plan) t.toDriftTables u.toDriftTables)
include h

theorem unexpected_left_iff :
    (∃ row ∈ u.listUnresolved input.domainId, row.kind = .unexpected) ↔
      plan.diff.unexpected ≠ [] := by
  constructor
  · rintro ⟨row, hrow, hkind⟩
    obtain ⟨f, hf, hkey⟩ := h.known row hrow
    have hfkind : f.kind = .unexpected := (congrArg DriftKey.kind hkey).symm.trans hkind
    rcases mem_findingsFromDiff.1 hf with ⟨r, -, rfl⟩ | ⟨e, -, rfl⟩ | ⟨o, ho, rfl⟩
    · cases hfkind
    · cases hfkind
    · exact List.ne_nil_of_mem ho
  · intro hne
    obtain ⟨o, ho⟩ := List.exists_mem_of_ne_nil _ hne
    obtain ⟨row, hrow, hkey⟩ := h.seen (unexpectedFinding o)
      (mem_findingsFromDiff.2 (.inr (.inr ⟨o, ho, rfl⟩)))
    exact ⟨row, hrow, congrArg DriftKey.kind hkey⟩

theorem unresolved_left_iff :
    u.listUnresolved input.domainId = [] ↔
      plan.diff.missing = [] ∧ plan.diff.modified = [] ∧ plan.diff.unexpected = [] := by
  have hnone : u.listUnresolved input.domainId = [] ↔ findingsFromDiff plan.diff = [] := by
    simp only [List.eq_nil_iff_forall_not_mem]
    constructor
    · intro hnone f hf
      obtain ⟨row, hrow, -⟩ := h.seen f hf
      exact hnone row hrow
    · intro hnone row hrow
      obtain ⟨f, hf, -⟩ := h.known row hrow
      exact hnone f hf
  rw [hnone]
  simp [findingsFromDiff]

theorem fixed_flagsRight_iff (hright : FlagsRight u.toDriftTables)
    (hdomain : ∃ d ∈ u.domains, d.id = input.domainId) :
    FlagsRight (u.toDriftTables.markApplied input.now (u.fixedFindings input.domainId)) ↔
      (plan.diff.missing = [] ∧ plan.diff.modified = [] ∨ plan.diff.unexpected ≠ []) := by
  unfold DriftTables.markApplied
  rw [flagsRight_resolve_iff hright]
  have hleft : ∀ domain, ∀ row ∈ u.listUnresolved domain,
      row.id ∉ u.fixedFindings input.domainId ↔
        domain ≠ input.domainId ∨ row.kind = .unexpected := by
    intro domain row hrow
    rw [mem_fixedFindings, ← not_iff_not, not_not, not_or, not_not]
    obtain ⟨hmem, hdom, -⟩ := mem_listUnresolved.1 hrow
    constructor
    · rintro ⟨row', hrow', hkind, hid⟩
      obtain ⟨hmem', hdom', -⟩ := mem_listUnresolved.1 hrow'
      obtain rfl := eq_of_key h.keyed.ids hmem hmem' hid
      exact ⟨hdom.symm.trans hdom', hkind⟩
    · rintro ⟨rfl, hkind⟩
      exact ⟨row, hrow, hkind, rfl⟩
  constructor
  · intro hall
    obtain ⟨d, hd, hid⟩ := hdomain
    by_cases hnone : u.listUnresolved input.domainId = []
    · obtain ⟨hmissing, hmodified, -⟩ := (unresolved_left_iff h).1 hnone
      exact .inl ⟨hmissing, hmodified⟩
    · obtain ⟨row, hrow, hnot⟩ := hall d hd (hid ▸ hnone)
      rcases (hleft d.id row hrow).1 hnot with hne | hkind
      · exact absurd hid hne
      · exact .inr ((unexpected_left_iff h).1 ⟨row, hid ▸ hrow, hkind⟩)
  · intro hbeside d hd hsome
    by_cases hid : d.id = input.domainId
    · have hne : plan.diff.unexpected ≠ [] := by
        rcases hbeside with ⟨hmissing, hmodified⟩ | hne
        · intro hnone
          exact hsome (hid ▸ (unresolved_left_iff h).2 ⟨hmissing, hmodified, hnone⟩)
        · exact hne
      obtain ⟨row, hrow, hkind⟩ := (unexpected_left_iff h).2 hne
      exact ⟨row, hid ▸ hrow, (hleft _ row hrow).2 (.inr hkind)⟩
    · obtain ⟨row, hrow⟩ := List.exists_mem_of_ne_nil _ hsome
      exact ⟨row, hrow, (hleft _ row hrow).2 (.inl hid)⟩

theorem issuedFor_iff :
    (∀ row ∈ u.listUnresolved input.domainId, row.kind ≠ .unexpected →
        plan.issuedFor row = true) ↔
      (∀ r ∈ plan.diff.missing, .create r.payload ∈ plan.operations) ∧
        ∀ e ∈ plan.diff.modified,
          .update e.observed.externalRecordId e.intent.payload ∈ plan.operations := by
  simp only [SyncPlan.issuedFor, Bool.and_eq_true, List.all_eq_true, Bool.or_eq_true,
    decide_eq_true_eq]
  constructor
  · intro hall
    refine ⟨fun r hr => ?_, fun e he => ?_⟩
    · obtain ⟨row, hrow, hkey⟩ := h.seen (missingFinding r)
        (mem_findingsFromDiff.2 (.inl ⟨r, hr, rfl⟩))
      have hkind : row.kind = .missing := congrArg DriftKey.kind hkey
      have hsent := (hall row hrow (by simp [hkind])).1.2 r hr
      exact hsent.resolve_left fun hne => hne hkey.symm
    · obtain ⟨row, hrow, hkey⟩ := h.seen (modifiedFinding e)
        (mem_findingsFromDiff.2 (.inr (.inl ⟨e, he, rfl⟩)))
      have hkind : row.kind = .modified := congrArg DriftKey.kind hkey
      have hsent := (hall row hrow (by simp [hkind])).2 e he
      exact hsent.resolve_left fun hne => hne hkey.symm
  · rintro ⟨hmissing, hmodified⟩ row - hkind
    exact ⟨⟨hkind, fun r hr => .inr (hmissing r hr)⟩, fun e he => .inr (hmodified e he)⟩

end

variable {issued : List DriftFindingId}

theorem fixed_applied_iff (h : RunRecorded (input.recording plan) t.toDriftTables u.toDriftTables)
    (hissued : ∀ row ∈ u.listUnresolved input.domainId, row.id ∉ issued)
    (hbefore : ∀ row ∈ u.findings, row.resolved.map (·.resolution) = some .applied →
      row.id ∈ issued) :
    (∀ row ∈ (u.toDriftTables.markApplied input.now (u.fixedFindings input.domainId)).findings,
        row.resolved.map (·.resolution) = some .applied →
          row.id ∈ issued ++ ((u.listUnresolved input.domainId).filter plan.issuedFor).map (·.id)) ↔
      ∀ row ∈ u.listUnresolved input.domainId, row.kind ≠ .unexpected →
        plan.issuedFor row = true := by
  simp only [DriftTables.markApplied, DriftTables.resolve, List.forall_mem_map, List.mem_append]
  constructor
  · intro hall row hrow hkind
    obtain ⟨hmem, -, -⟩ := mem_listUnresolved.1 hrow
    have hfixed : row.id ∈ u.fixedFindings input.domainId :=
      mem_fixedFindings.2 ⟨row, hrow, hkind, rfl⟩
    have hin := hall row hmem (by rw [if_pos hfixed]; rfl)
    rw [if_pos hfixed] at hin
    obtain ⟨row', hrow', hid⟩ := List.mem_map.1 (hin.resolve_left (hissued row hrow))
    obtain ⟨hrow', hsent⟩ := List.mem_filter.1 hrow'
    obtain rfl := eq_of_key h.keyed.ids hmem (mem_listUnresolved.1 hrow').1 hid
    exact hsent
  · intro hall row hmem happlied
    by_cases hfixed : row.id ∈ u.fixedFindings input.domainId
    · rw [if_pos hfixed]
      obtain ⟨row', hrow', hkind, hid⟩ := mem_fixedFindings.1 hfixed
      exact .inr (List.mem_map.2
        ⟨row', List.mem_filter.2 ⟨hrow', hall row' hrow' hkind⟩, hid⟩)
    · rw [if_neg hfixed] at happlied ⊢
      exact .inl (hbefore row hmem happlied)

theorem DriftRun.Tracked.unissued {s : DriftRun} (hs : s.Tracked)
    (h : RunRecorded (input.recording plan) s.tables.toDriftTables u.toDriftTables) :
    ∀ row ∈ u.listUnresolved input.domainId, row.id ∉ s.issued := by
  intro row hrow hid
  obtain ⟨row', hrow', hid', hres⟩ := hs.resolved row.id hid
  obtain ⟨hmem, -, hnone⟩ := mem_listUnresolved.1 hrow
  obtain rfl := eq_of_key h.keyed.ids hmem (h.stays row' hrow' hres) hid'
  exact hres hnone

theorem flagsRight_finishRun_iff (input : RecordSyncInput) :
    FlagsRight (u.finishRun input).toDriftTables ↔ FlagsRight
      (if input.sends then u.toDriftTables.markApplied input.now (u.fixedFindings input.domainId)
        else u.toDriftTables) := by
  unfold SyncTables.finishRun
  refine (flagsRight_updateDomain_iff ?_).trans ?_
  · exact fun _ => ⟨rfl, rfl⟩
  · split_ifs <;> exact Iff.rfl

theorem run_truthful_iff {s : DriftRun} (hs : s.Tracked) (h : s.Truthful) (input : RecordSyncInput)
    :
    (s.step (.run input)).Truthful ↔ KeepsTruth s (.run input) := by
  cases hrec : s.tables.recordedBy input with
  | none =>
    obtain ⟨hraises, hfindings, hflags⟩ := recordedBy_eq_none hrec
    refine iff_of_true ⟨fun row hrow happlied => ?_, hflags h.flags⟩ fun _ _ _ hreturns => ?_
    · exact List.mem_append.2 (.inl (h.applied row (hfindings ▸ hrow) happlied))
    · rw [hraises] at hreturns
      cases hreturns
  | some r =>
    obtain ⟨plan, u⟩ := r
    obtain ⟨⟨observed, hread, hplan⟩, hdomain, ⟨result, hrecord⟩, hreturns, hfinish⟩ :=
      recordedBy_eq_some hrec
    have recorded := recordRun_records hs.keyed hrecord
    have hright := recorded.flagsRight h.flags
    have hbefore : ∀ row ∈ u.findings, row.resolved.map (·.resolution) = some .applied →
        row.id ∈ s.issued :=
      fun row hrow happlied => h.applied row (recorded.applied row hrow happlied) happlied
    have hdomain' : ∃ d ∈ u.domains, d.id = input.domainId := by
      obtain ⟨d, hd, hid⟩ := hdomain
      have hmem : input.domainId ∈ u.domains.map (·.id) := by
        rw [recorded.ids]
        exact List.mem_map.2 ⟨d, hd, hid⟩
      exact List.mem_map.1 hmem
    by_cases hsends : input.sends = true
    · have hkeeps : KeepsTruth s (.run input) ↔ Resolvable plan.diff := by
        constructor
        · intro hkeeps
          rw [hplan]
          exact hkeeps observed hread hsends hreturns
        · intro hresolvable observed' hread' _ _
          obtain rfl : observed = observed' := Except.ok.inj (hread.symm.trans hread')
          exact hplan ▸ hresolvable
      have hissued : s.tables.issuedBy input =
          ((u.listUnresolved input.domainId).filter plan.issuedFor).map (·.id) := by
        simp only [SyncTables.issuedBy, hrec, if_pos hsends]
      have happlied := (fixed_applied_iff recorded (hs.unissued recorded) hbefore).trans
        (issuedFor_iff recorded)
      have hflags := fixed_flagsRight_iff recorded hright hdomain'
      have hops : plan.operations = applyOperationsFor plan.diff plan.tombstones := by
        rw [hplan]
        rfl
      simp only [hops, create_mem_iff, update_mem_iff] at happlied
      have hfindings : (u.finishRun input).findings = (u.toDriftTables.markApplied input.now
          (u.fixedFindings input.domainId)).findings := by
        simp only [SyncTables.finishRun, if_pos hsends, SyncTables.updateDomain]
      rw [hkeeps]
      constructor
      · rintro ⟨hrows, hright'⟩
        simp only [DriftRun.step, hfinish, hissued, hfindings] at hrows hright'
        rw [flagsRight_finishRun_iff, if_pos hsends] at hright'
        obtain ⟨hmissing, hmodified⟩ := happlied.1 hrows
        exact ⟨hmissing, hmodified, hflags.1 hright'⟩
      · rintro ⟨hmissing, hmodified, hbeside⟩
        refine ⟨?_, ?_⟩
        · simp only [DriftRun.step, hfinish, hissued, hfindings]
          exact happlied.2 ⟨hmissing, hmodified⟩
        · simp only [DriftRun.step, hfinish]
          rw [flagsRight_finishRun_iff, if_pos hsends]
          exact hflags.2 hbeside
    · refine iff_of_true ⟨fun row hrow happlied => ?_, ?_⟩ fun _ _ hsent => absurd hsent hsends
      · have hfindings : (u.finishRun input).findings = u.findings := by
          simp only [SyncTables.finishRun, if_neg hsends, SyncTables.updateDomain]
        simp only [DriftRun.step, hfinish, hfindings] at hrow
        exact List.mem_append.2 (.inl (hbefore row hrow happlied))
      · simp only [DriftRun.step, hfinish]
        rw [flagsRight_finishRun_iff, if_neg hsends]
        exact hright

end Run

theorem resolve_resolved {t : DriftTables} {now : Timestamp} {resolution : DnsDriftResolution}
    {ids : List DriftFindingId} (h : ∃ row ∈ t.findings, row.id = id ∧ row.resolved ≠ none) :
    ∃ row ∈ (t.resolve now resolution ids).findings, row.id = id ∧ row.resolved ≠ none := by
  obtain ⟨row, hrow, hid, hres⟩ := h
  refine ⟨_, List.mem_map.2 ⟨row, hrow, rfl⟩, ?_⟩
  split_ifs
  · exact ⟨hid, nofun⟩
  · exact ⟨hid, hres⟩

theorem DriftRun.Tracked.resolve (hs : s.Tracked) (now : Timestamp)
    (resolution : DnsDriftResolution) (ids : List DriftFindingId) :
    DriftRun.Tracked ⟨{ s.tables with
      toDriftTables := s.tables.toDriftTables.resolve now resolution ids }, s.issued⟩ :=
  ⟨resolve_keyed hs.keyed, fun id hid => resolve_resolved (hs.resolved id hid)⟩

theorem tracked_of_findings {s' : DriftRun} (hs : s.Tracked)
    (hfindings : s'.tables.findings = s.tables.findings) (hissued : s'.issued = s.issued) :
    s'.Tracked := by
  refine ⟨hfindings ▸ hs.keyed, fun id hid => ?_⟩
  rw [hfindings]
  exact hs.resolved id (hissued ▸ hid)

theorem run_tracked (hs : s.Tracked) (input : RecordSyncInput) :
    (s.step (.run input)).Tracked := by
  cases hrec : s.tables.recordedBy input with
  | none =>
    refine tracked_of_findings hs (recordedBy_eq_none hrec).2.1 ?_
    simp [DriftRun.step, SyncTables.issuedBy, hrec]
  | some r =>
    obtain ⟨plan, u⟩ := r
    obtain ⟨-, -, ⟨result, hrecord⟩, -, hfinish⟩ := recordedBy_eq_some hrec
    have recorded := recordRun_records hs.keyed hrecord
    have hstays : ∀ id ∈ s.issued, ∃ row ∈ u.findings, row.id = id ∧ row.resolved ≠ none := by
      intro id hid
      obtain ⟨row, hrow, hid', hres⟩ := hs.resolved id hid
      exact ⟨row, recorded.stays row hrow hres, hid', hres⟩
    by_cases hsends : input.sends = true
    · have hfindings : (u.finishRun input).findings = (u.toDriftTables.resolve input.now .applied
          (u.fixedFindings input.domainId)).findings := by
        simp only [SyncTables.finishRun, if_pos hsends, SyncTables.updateDomain,
          DriftTables.markApplied]
      refine ⟨?_, ?_⟩
      · simp only [DriftRun.step, hfinish, hfindings]
        exact resolve_keyed recorded.keyed
      · simp only [DriftRun.step, hfinish, hfindings, List.mem_append]
        rintro id (hid | hid)
        · exact resolve_resolved (hstays id hid)
        · simp only [SyncTables.issuedBy, hrec, if_pos hsends] at hid
          obtain ⟨row, hrow, rfl⟩ := List.mem_map.1 hid
          obtain ⟨hrow, hsent⟩ := List.mem_filter.1 hrow
          have hkind : row.kind ≠ .unexpected := by
            simp only [SyncPlan.issuedFor, Bool.and_eq_true, decide_eq_true_eq] at hsent
            exact hsent.1.1
          have hfixed : row.id ∈ u.fixedFindings input.domainId :=
            mem_fixedFindings.2 ⟨row, hrow, hkind, rfl⟩
          refine ⟨_, List.mem_map.2 ⟨row, (mem_listUnresolved.1 hrow).1, rfl⟩, ?_⟩
          rw [if_pos hfixed]
          exact ⟨rfl, nofun⟩
    · have hfindings : (u.finishRun input).findings = u.findings := by
        simp only [SyncTables.finishRun, if_neg hsends, SyncTables.updateDomain]
      refine ⟨?_, ?_⟩
      · simp only [DriftRun.step, hfinish, hfindings]
        exact recorded.keyed
      · simp only [DriftRun.step, hfinish, hfindings, SyncTables.issuedBy, hrec, if_neg hsends,
          List.append_nil]
        exact hstays

theorem step_dismiss (s : DriftRun) (now : Timestamp) (finding : DriftFindingId) :
    s.step (.dismiss now finding) =
      if finding ∈ s.tables.findings.map (·.id) then
        ⟨{ s.tables with
          toDriftTables := s.tables.toDriftTables.resolve now .dismissed [finding] }, s.issued⟩
      else s := by
  by_cases hmem : finding ∈ s.tables.findings.map (·.id)
  · simp only [DriftRun.step, DriftTables.dismiss, Except.require, if_pos hmem]
    rfl
  · simp only [DriftRun.step, DriftTables.dismiss, Except.require, if_neg hmem]
    rfl

theorem step_tracked (hs : s.Tracked) (action : DriftAction) :
    (s.step action).Tracked := by
  cases action with
  | run input => exact run_tracked hs input
  | dismiss now finding =>
    rw [step_dismiss]
    split_ifs
    · exact hs.resolve now .dismissed [finding]
    · exact hs
  | markApplied now ids => exact hs.resolve now .applied ids
  | rewrite records => exact tracked_of_findings hs rfl rfl

theorem dismiss_truthful_iff (h : s.Truthful) (now : Timestamp) (finding : DriftFindingId) :
    (s.step (.dismiss now finding)).Truthful ↔ KeepsTruth s (.dismiss now finding) := by
  rw [step_dismiss]
  split_ifs with hmem
  · have happlied : ∀ row ∈ (s.tables.toDriftTables.resolve now .dismissed [finding]).findings,
        row.resolved.map (·.resolution) = some .applied → row.id ∈ s.issued := by
      simp only [DriftTables.resolve, List.forall_mem_map]
      intro row hrow happlied
      by_cases hid : row.id ∈ [finding]
      · rw [if_pos hid] at happlied
        cases happlied
      · rw [if_neg hid] at happlied ⊢
        exact h.applied row hrow happlied
    have hflags : FlagsRight (s.tables.toDriftTables.resolve now .dismissed [finding]) ↔
        KeepsTruth s (.dismiss now finding) := by
      simp only [flagsRight_resolve_iff h.flags, List.mem_singleton, KeepsTruth, ne_eq]
    exact ⟨fun htruth => hflags.1 htruth.flags, fun hkeeps => ⟨happlied, hflags.2 hkeeps⟩⟩
  · refine iff_of_true h fun d _ hsome => ?_
    obtain ⟨row, hrow⟩ := List.exists_mem_of_ne_nil _ hsome
    refine ⟨row, hrow, ?_⟩
    rintro rfl
    exact hmem (List.mem_map_of_mem (mem_listUnresolved.1 hrow).1)

theorem markApplied_truthful_iff (hs : s.Tracked) (h : s.Truthful) (now : Timestamp)
    (ids : List DriftFindingId) :
    (s.step (.markApplied now ids)).Truthful ↔ KeepsTruth s (.markApplied now ids) := by
  constructor
  · intro htruth row hrow hid
    have hrow' := htruth.applied _ (List.mem_map.2 ⟨row, hrow, rfl⟩)
    rw [if_pos hid] at hrow'
    exact hrow' rfl
  · intro hkeeps
    refine ⟨?_, (flagsRight_resolve_iff h.flags).2 fun d _ hsome => ?_⟩
    · simp only [DriftRun.step, DriftTables.markApplied, DriftTables.resolve,
        List.forall_mem_map]
      intro row hrow happlied
      by_cases hid : row.id ∈ ids
      · rw [if_pos hid]
        exact hkeeps row hrow hid
      · rw [if_neg hid] at happlied ⊢
        exact h.applied row hrow happlied
    · -- an unresolved row is none of those issued, hence none of those marked
      obtain ⟨row, hrow⟩ := List.exists_mem_of_ne_nil _ hsome
      obtain ⟨hmem, -, hnone⟩ := mem_listUnresolved.1 hrow
      refine ⟨row, hrow, fun hid => ?_⟩
      obtain ⟨row', hrow', hid', hres⟩ := hs.resolved row.id (hkeeps row hmem hid)
      obtain rfl := eq_of_key hs.keyed.ids hmem hrow' hid'
      exact hres hnone

theorem step_truthful_iff (hs : s.Tracked) (h : s.Truthful) (action : DriftAction)
    : (s.step action).Truthful ↔ KeepsTruth s action := by
  cases action with
  | run input => exact run_truthful_iff hs h input
  | dismiss now finding => exact dismiss_truthful_iff h now finding
  | markApplied now ids => exact markApplied_truthful_iff hs h now ids
  | rewrite records => exact iff_of_true ⟨h.applied, h.flags⟩ trivial

/-- All along a run every finding resolved as applied was issued an operation and the flags are true
exactly if each call keeps the condition. -/
theorem resolution_truthful_iff {s : DriftRun} (hs : s.Tracked) (h : s.Truthful)
    (actions : List DriftAction) :
    Runs.Along DriftRun.step DriftRun.Truthful s actions ↔
      Runs.Meets DriftRun.step KeepsTruth s actions := by
  have hinv : ∀ (s : DriftRun) (action : DriftAction), s.Tracked → s.Truthful →
      (s.step action).Tracked := fun _ action hs _ => step_tracked hs action
  have hstep : ∀ (s : DriftRun) (action : DriftAction), s.Tracked → s.Truthful →
      ((s.step action).Truthful ↔ KeepsTruth s action) :=
    fun _ action hs h => step_truthful_iff hs h action
  exact Runs.along_iff_meets hinv hstep hs h

def webRow : IntentRecord :=
  { id := 1
    type := ⟨"A", DnsLabel.a_plain⟩
    name := ⟨"@", DnsLabel.apex_plain⟩
    content := "203.0.113.10"
    ttlSeconds := none
    priority := none
    proxied := false
    owner := .apex
    externalRecordId := none }

def strangeRecord : ObservedDnsRecord :=
  { externalRecordId := "r1"
    type := ⟨"TXT", DnsLabel.txt_plain⟩
    name := ⟨"@", DnsLabel.apex_plain⟩
    content := "v=spf1 -all"
    ttlSeconds := none
    priority := none
    proxied := false
    proxiable := false }

def syncOver (mode : ReconcileMode) (zone : List ObservedDnsRecord) : RecordSyncInput :=
  { domainId := 1
    mode := mode
    trigger := .manual
    now := ⟨⟨2026, 8, 14⟩, 0⟩
    runId := 1
    newFindingId := (· + 1)
    read := .ok zone
    apply := fun _ => .ok [] }

def unsynced (owner : DnsRecordOwner) : DriftRun :=
  ⟨{ undrifted with dnsRecords := [⟨{ webRow with owner := owner }, 1, none⟩] }, []⟩

theorem unsynced_tracked (owner : DnsRecordOwner) : (unsynced owner).Tracked :=
  ⟨undrifted_keyed, fun _ hid => absurd hid List.not_mem_nil⟩

theorem unsynced_truthful (owner : DnsRecordOwner) : (unsynced owner).Truthful :=
  ⟨fun _ hrow => absurd hrow List.not_mem_nil, by
    intro d hd
    obtain rfl := List.mem_singleton.1 hd
    exact iff_of_false (by simp) (by simp [unsynced, undrifted, DriftTables.listUnresolved])⟩

theorem missing_applied_truthfully :
    Runs.Along DriftRun.step DriftRun.Truthful (unsynced .apex)
      [.run (syncOver .check []), .run (syncOver .apply [strangeRecord]),
        .markApplied ⟨⟨2026, 8, 15⟩, 0⟩ [1]] :=
  (resolution_truthful_iff (unsynced_tracked .apex) (unsynced_truthful .apex) _).2
    ⟨fun _ _ hsends => absurd hsends (by decide), fun observed hread _ _ => by
      obtain rfl : [strangeRecord] = observed := Except.ok.inj hread
      exact ⟨by decide +kernel, by decide +kernel, by decide +kernel⟩, by
      unfold KeepsTruth
      decide +kernel, trivial⟩

theorem manual_resolved_unsent : ¬ ∀ s : DriftRun, s.Tracked → s.Truthful →
    ∀ actions : List DriftAction, Runs.Along DriftRun.step DriftRun.Truthful s actions := by
  intro hall
  have hlast := (hall (unsynced .manual) (unsynced_tracked .manual) (unsynced_truthful .manual)
    [.run (syncOver .apply [])]).last
  have hkeeps := (step_truthful_iff (unsynced_tracked .manual) (unsynced_truthful .manual)
    (.run (syncOver .apply []))).1 hlast
  have hmissing := (hkeeps [] rfl (by decide) (by decide +kernel)).missing
  exact absurd hmissing (by decide +kernel)

end Loxep

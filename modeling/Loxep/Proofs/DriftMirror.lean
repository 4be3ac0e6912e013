import Loxep.DriftFindings
import Loxep.Lib.ChildRows
import Loxep.Lib.ListSums
import Loxep.Lib.Runs

/-!
# The unresolved findings mirror the run

The partial unique key is the kind, the type, the name and what was observed. Findings that differ
in what is desired alone fall into one row, and the count that is returned is of the findings.
-/

namespace Loxep

section Spec

/-- What a finding says, and what its row shows of it. -/
structure DriftShown where
  key : DriftKey
  desiredContent : Option String
  desiredProxied : Option Bool
  observedProxied : Option Bool
  externalRecordId : Option String

def DriftFindingInput.shown (f : DriftFindingInput) : DriftShown :=
  ⟨f.key, f.desiredContent, f.desiredProxied, f.observedProxied, f.externalRecordId⟩

def DnsDriftFindingRow.shown (row : DnsDriftFindingRow) : DriftShown :=
  ⟨row.key, row.desiredContent, row.desiredProxied, row.observedProxied, row.externalRecordId⟩

def Mirrored (domain : ManagedDomainId) (findings : List DriftFindingInput) (t : DriftTables) :
    Prop := ((t.listUnresolved domain).map (·.shown)).Perm (findings.map (·.shown))

def DriftTables.Disappeared (t : DriftTables) (id : DriftFindingId) : Prop :=
  ∃ row ∈ t.findings, row.id = id ∧ row.resolved.map (·.resolution) = some .disappeared

structure RunMirrored (input : RecordRunInput) (t t' : DriftTables) (result : RecordRunResult) :
    Prop where
  mirrored : Mirrored input.domainId input.findings t'
  unresolved : result.unresolved = (t'.listUnresolved input.domainId).length
  disappeared : ∀ row ∈ t.listUnresolved input.domainId,
    (∀ f ∈ input.findings, f.key ≠ row.key) → t'.Disappeared row.id

def recordRunStep (t : DriftTables) (input : RecordRunInput) : DriftTables :=
  match recordRun input t with
  | .ok (_, t') => t'
  | .error _ => t

def MirrorsAfter (t : DriftTables) (input : RecordRunInput) : Prop :=
  ∀ result t', recordRun input t = .ok (result, t') → RunMirrored input t t' result

def KeysApart (t : DriftTables) (input : RecordRunInput) : Prop :=
  Except.returns (recordRun input t) = true → (input.findings.map (·.key)).Nodup

structure FindingsKeyed (rows : List DnsDriftFindingRow) : Prop where
  ids : (rows.map (·.id)).Nodup
  unresolved : ∀ row ∈ rows, ∀ row' ∈ rows, row.resolved = none → row'.resolved = none →
    row.domainId = row'.domainId → row.key = row'.key → row.id = row'.id

end Spec

variable {domain : ManagedDomainId} {row : DnsDriftFindingRow}

theorem openFor_iff :
    row.openFor domain = true ↔ row.domainId = domain ∧ row.resolved = none := by
  simp [DnsDriftFindingRow.openFor]

theorem FindingsKeyed.open_eq {rows : List DnsDriftFindingRow} (h : FindingsKeyed rows)
    {row' : DnsDriftFindingRow} (hrow : row ∈ rows)
    (hrow' : row' ∈ rows) (hopen : row.openFor domain = true) (hopen' : row'.openFor domain = true)
    (hkey : row.key = row'.key) : row = row' := by
  obtain ⟨hdomain, hres⟩ := openFor_iff.1 hopen
  obtain ⟨hdomain', hres'⟩ := openFor_iff.1 hopen'
  exact eq_of_key h.ids hrow' hrow
    (h.unresolved row hrow row' hrow' hres hres' (hdomain.trans hdomain'.symm) hkey)

section Record

variable {input : RecordRunInput} {f : DriftFindingInput} {index : ℕ}
  {rows rows' : List DnsDriftFindingRow} {id : DriftFindingId}

structure RecordedAs (input : RecordRunInput) (f : DriftFindingInput)
    (rows rows' : List DnsDriftFindingRow) (id : DriftFindingId) : Prop where
  keyed : FindingsKeyed rows'
  row : ∃ row ∈ rows', row.id = id ∧ row.openFor input.domainId = true ∧ row.shown = f.shown
  old : ∀ row ∈ rows', row.id ≠ id → row ∈ rows
  kept : ∀ row ∈ rows, row.id ≠ id → row ∈ rows'
  twin : ∀ row ∈ rows, row.id = id → row.openFor input.domainId = true ∧ row.key = f.key

theorem redetected_keyed (h : FindingsKeyed rows) (found : DnsDriftFindingRow) :
    FindingsKeyed
      (rows.map fun row => if row.id = found.id then redetected input f row else row) := by
  have hsame : ∀ row, (if row.id = found.id then redetected input f row else row).id = row.id ∧
      (if row.id = found.id then redetected input f row else row).key = row.key ∧
      (if row.id = found.id then redetected input f row else row).domainId = row.domainId ∧
      (if row.id = found.id then redetected input f row else row).resolved = row.resolved := by
    intro row
    split_ifs <;> exact ⟨rfl, rfl, rfl, rfl⟩
  refine ⟨?_, ?_⟩
  · rw [List.map_map]
    exact (List.map_congr_left fun row _ => (hsame row).1).symm ▸ h.ids
  · simp only [List.forall_mem_map]
    intro row hrow row' hrow' hres hres' hdomain hkey
    obtain ⟨hid, hk, hd, hr⟩ := hsame row
    obtain ⟨hid', hk', hd', hr'⟩ := hsame row'
    rw [hid, hid']
    exact h.unresolved row hrow row' hrow' (hr ▸ hres) (hr' ▸ hres')
      (hd.symm.trans (hdomain.trans hd')) (hk.symm.trans (hkey.trans hk'))

theorem recordFinding_spec (h : FindingsKeyed rows)
    (hrec : recordFinding input index f rows = .ok (rows', id)) :
    RecordedAs input f rows rows' id := by
  unfold recordFinding at hrec
  split at hrec
  · next found hfind =>
    cases hrec
    have hmem := List.mem_of_find?_eq_some hfind
    have hsat := List.find?_some hfind
    rw [Bool.and_eq_true, beq_iff_eq] at hsat
    obtain ⟨hopen, hkey⟩ := hsat
    refine ⟨redetected_keyed h found, ⟨redetected input f found, ?_, rfl, hopen, ?_⟩, ?_, ?_, ?_⟩
    · exact List.mem_map.2 ⟨found, hmem, if_pos rfl⟩
    · have hk : (redetected input f found).key = f.key := hkey
      simp only [DnsDriftFindingRow.shown, DriftFindingInput.shown, hk]
      rfl
    · intro row hrow hne
      obtain ⟨row', hrow', rfl⟩ := List.mem_map.1 hrow
      split_ifs at hne ⊢ with hid
      · exact absurd hid hne
      · exact hrow'
    · exact fun row hrow hne => List.mem_map.2 ⟨row, hrow, if_neg hne⟩
    · intro row hrow hid
      rw [eq_of_key h.ids hmem hrow hid]
      exact ⟨hopen, hkey⟩
  · next hfind =>
    simp only [insertFinding, Except.bind_eq_ok, Except.require_eq_ok, exists_const,
      Except.pure_eq_ok, Prod.mk.injEq] at hrec
    obtain ⟨_, ⟨hfresh, -, rfl⟩, rfl, rfl⟩ := hrec
    have hnone : ∀ row ∈ rows, row.openFor input.domainId = true → row.key ≠ f.key := by
      intro row hrow hopen hkey
      have hnot := List.find?_eq_none.1 hfind row hrow
      simp [hopen, hkey] at hnot
    have hmem : ∀ row, row ∈ rows ++ [newFinding input f (input.newId index)] ↔
        row ∈ rows ∨ row = newFinding input f (input.newId index) := by simp
    refine ⟨⟨nodup_map_concat h.ids hfresh, ?_⟩,
      ⟨newFinding input f (input.newId index), (hmem _).2 (.inr rfl), rfl, ?_, rfl⟩, ?_, ?_, ?_⟩
    · intro row hrow row' hrow' hres hres' hdomain hkey
      rcases (hmem _).1 hrow with hrow | rfl
      · rcases (hmem _).1 hrow' with hrow' | rfl
        · exact h.unresolved row hrow row' hrow' hres hres' hdomain hkey
        · exact absurd hkey (hnone row hrow (openFor_iff.2 ⟨hdomain, hres⟩))
      · rcases (hmem _).1 hrow' with hrow' | rfl
        · exact absurd hkey.symm (hnone row' hrow' (openFor_iff.2 ⟨hdomain.symm, hres'⟩))
        · rfl
    · simp [DnsDriftFindingRow.openFor, newFinding]
    · intro row hrow hne
      rcases (hmem _).1 hrow with hrow | rfl
      · exact hrow
      · exact absurd rfl hne
    · exact fun row hrow _ => (hmem _).2 (.inl hrow)
    · exact fun row hrow hid => absurd (List.mem_map.2 ⟨row, hrow, hid⟩) hfresh

theorem RecordedAs.persist (h : RecordedAs input f rows rows' id) :
    ∀ row ∈ rows, ∃ row' ∈ rows', row'.id = row.id ∧ row'.key = row.key := by
  intro row hrow
  by_cases hid : row.id = id
  · obtain ⟨row', hrow', hid', -, hshown⟩ := h.row
    have hkey : row'.key = f.key := congrArg DriftShown.key hshown
    exact ⟨row', hrow', hid'.trans hid.symm, hkey.trans (h.twin row hrow hid).2.symm⟩
  · exact ⟨row, h.kept row hrow hid, rfl, rfl⟩

end Record

section RecordAll

variable {input : RecordRunInput} {rows rows' : List DnsDriftFindingRow} {ids : List DriftFindingId}

structure AllRecorded (input : RecordRunInput) (findings : List DriftFindingInput)
    (rows rows' : List DnsDriftFindingRow) (ids : List DriftFindingId) : Prop where
  keyed : FindingsKeyed rows'
  length : ids.length = findings.length
  survivors : ∀ id ∈ ids, ∃ row ∈ rows', row.id = id ∧ row.openFor input.domainId = true
  old : ∀ row ∈ rows', row.id ∉ ids → row ∈ rows
  kept : ∀ row ∈ rows, row.id ∉ ids → row ∈ rows'
  twin : ∀ row ∈ rows, row.id ∈ ids →
    row.openFor input.domainId = true ∧ ∃ f ∈ findings, row.key = f.key
  persist : ∀ row ∈ rows, ∃ row' ∈ rows', row'.id = row.id ∧ row'.key = row.key
  seen : ∀ f ∈ findings, ∃ row ∈ rows', row.id ∈ ids ∧ row.key = f.key
  found : ∀ row ∈ rows', row.id ∈ ids → ∃ f ∈ findings, row.key = f.key

variable {findings : List DriftFindingInput}

theorem recordFindings_spec {index : ℕ} (h : FindingsKeyed rows)
    (hrec : recordFindings input index findings rows = .ok (rows', ids)) :
    AllRecorded input findings rows rows' ids := by
  induction findings generalizing rows index ids with
  | nil =>
    cases hrec
    exact ⟨h, rfl, fun _ hid => absurd hid List.not_mem_nil, fun _ hrow _ => hrow,
      fun _ hrow _ => hrow, fun _ _ hid => absurd hid List.not_mem_nil,
      fun row hrow => ⟨row, hrow, rfl, rfl⟩, fun _ hf => absurd hf List.not_mem_nil,
      fun _ _ hid => absurd hid List.not_mem_nil⟩
  | cons f findings ih =>
    simp only [recordFindings, Except.bind_eq_ok, Except.pure_eq_ok, Prod.mk.injEq] at hrec
    obtain ⟨⟨rows₁, id⟩, hone, ⟨_, rest⟩, hrest, rfl, rfl⟩ := hrec
    have one := recordFinding_spec h hone
    have all := ih one.keyed hrest
    obtain ⟨row₁, hrow₁, hid₁, hopen₁, hshown₁⟩ := one.row
    have hkey₁ : row₁.key = f.key := congrArg DriftShown.key hshown₁
    refine ⟨all.keyed, by simp [all.length], ?_, ?_, ?_, ?_, ?_, ?_, ?_⟩
    · rintro id' hid'
      rcases List.mem_cons.1 hid' with rfl | hid'
      · by_cases hseen : id' ∈ rest
        · exact all.survivors id' hseen
        · exact ⟨row₁, all.kept row₁ hrow₁ (hid₁ ▸ hseen), hid₁, hopen₁⟩
      · exact all.survivors id' hid'
    · intro row hrow hnot
      rw [List.mem_cons, not_or] at hnot
      exact one.old row (all.old row hrow hnot.2) hnot.1
    · intro row hrow hnot
      rw [List.mem_cons, not_or] at hnot
      exact all.kept row (one.kept row hrow hnot.1) hnot.2
    · intro row hrow hid
      by_cases hhead : row.id = id
      · obtain ⟨hopen, hkey⟩ := one.twin row hrow hhead
        exact ⟨hopen, f, List.mem_cons_self, hkey⟩
      · have htail := (List.mem_cons.1 hid).resolve_left hhead
        obtain ⟨hopen, f', hf', hkey⟩ := all.twin row (one.kept row hrow hhead) htail
        exact ⟨hopen, f', List.mem_cons_of_mem _ hf', hkey⟩
    · intro row hrow
      obtain ⟨row₂, hrow₂, hid₂, hkey₂⟩ := one.persist row hrow
      obtain ⟨row', hrow', hid', hkey'⟩ := all.persist row₂ hrow₂
      exact ⟨row', hrow', hid'.trans hid₂, hkey'.trans hkey₂⟩
    · intro f' hf'
      rcases List.mem_cons.1 hf' with rfl | hf'
      · obtain ⟨row', hrow', hid', hkey'⟩ := all.persist row₁ hrow₁
        exact ⟨row', hrow', List.mem_cons.2 (.inl (hid'.trans hid₁)), hkey'.trans hkey₁⟩
      · obtain ⟨row', hrow', hid', hkey'⟩ := all.seen f' hf'
        exact ⟨row', hrow', List.mem_cons_of_mem _ hid', hkey'⟩
    · intro row hrow hid
      by_cases htail : row.id ∈ rest
      · obtain ⟨f', hf', hkey⟩ := all.found row hrow htail
        exact ⟨f', List.mem_cons_of_mem _ hf', hkey⟩
      · have hhead := (List.mem_cons.1 hid).resolve_right htail
        have hrow₂ := all.old row hrow htail
        rw [eq_of_key one.keyed.ids hrow₁ hrow₂ (hhead.trans hid₁.symm)]
        exact ⟨f, List.mem_cons_self, hkey₁⟩

theorem recordFindings_rows {index : ℕ} (h : FindingsKeyed rows)
    (hkeys : (findings.map (·.key)).Nodup)
    (hrec : recordFindings input index findings rows = .ok (rows', ids)) :
    ids.Nodup ∧ ∃ chosen : List DnsDriftFindingRow, chosen.map (·.id) = ids ∧
      chosen.map (·.shown) = findings.map (·.shown) ∧ ∀ row ∈ chosen, row ∈ rows' := by
  induction findings generalizing rows index ids with
  | nil =>
    cases hrec
    exact ⟨.nil, [], rfl, rfl, fun row hrow => absurd hrow List.not_mem_nil⟩
  | cons f findings ih =>
    obtain ⟨hf, hkeys⟩ := List.nodup_cons.1 hkeys
    simp only [recordFindings, Except.bind_eq_ok, Except.pure_eq_ok, Prod.mk.injEq] at hrec
    obtain ⟨⟨rows₁, id⟩, hone, ⟨_, rest⟩, hrest, rfl, rfl⟩ := hrec
    have one := recordFinding_spec h hone
    have all := recordFindings_spec one.keyed hrest
    obtain ⟨hnd, chosen, hids, hshown, hmem⟩ := ih one.keyed hkeys hrest
    obtain ⟨row₁, hrow₁, hid₁, -, hshown₁⟩ := one.row
    have hnew : id ∉ rest := by
      intro hid
      obtain ⟨-, f', hf', hkey⟩ := all.twin row₁ hrow₁ (hid₁ ▸ hid)
      have hkey₁ : row₁.key = f.key := congrArg DriftShown.key hshown₁
      exact hf (List.mem_map.2 ⟨f', hf', hkey.symm.trans hkey₁⟩)
    refine ⟨List.nodup_cons.2 ⟨hnew, hnd⟩, row₁ :: chosen, by simp [hid₁, hids],
      by simp [hshown₁, hshown], List.forall_mem_cons.2 ⟨?_, hmem⟩⟩
    exact all.kept row₁ hrow₁ (hid₁ ▸ hnew)

end RecordAll

section Run

variable {input : RecordRunInput} {t t' : DriftTables} {result : RecordRunResult}

theorem recordRun_eq_ok : recordRun input t = .ok (result, t') ↔ ∃ rows ids,
    recordFindings input 0 input.findings t.findings = .ok (rows, ids) ∧
      result = ⟨ids.length, (rows.filter fun row =>
        row.openFor input.domainId && decide (row.id ∉ ids)).length⟩ ∧
      t' = { t with
        findings := rows.map (resolveDisappeared input ids)
        domains := t.domains.map fun d =>
          if d.id = input.domainId then
            { d with
              driftDetectedAt := if ids.length > 0 then some input.now else none
              lastReconciledAt := some input.now }
          else d } := by
  simp only [recordRun, Except.bind_eq_ok, Except.pure_eq_ok, Prod.mk.injEq, Prod.exists]
  constructor
  · rintro ⟨rows, ids, hrec, rfl, rfl⟩
    exact ⟨rows, ids, hrec, rfl, rfl⟩
  · rintro ⟨rows, ids, hrec, rfl, rfl⟩
    exact ⟨rows, ids, hrec, rfl, rfl⟩

variable {rows : List DnsDriftFindingRow} {ids : List DriftFindingId}

theorem resolveDisappeared_id (row : DnsDriftFindingRow) :
    (resolveDisappeared input ids row).id = row.id := by
  unfold resolveDisappeared
  split_ifs <;> rfl

theorem resolveDisappeared_open (row : DnsDriftFindingRow) :
    (resolveDisappeared input ids row).openFor input.domainId =
      (row.openFor input.domainId && decide (row.id ∈ ids)) := by
  unfold resolveDisappeared
  split_ifs with hgone
  · simp [DnsDriftFindingRow.openFor, hgone.2]
  · by_cases hopen : row.openFor input.domainId = true
    · have hmem : row.id ∈ ids := by
        by_contra hnot
        exact hgone ⟨hopen, hnot⟩
      simp [hmem]
    · simp [hopen]

theorem resolveDisappeared_of_mem {row : DnsDriftFindingRow} (h : row.id ∈ ids) :
    resolveDisappeared input ids row = row := if_neg fun hgone => hgone.2 h

theorem listUnresolved_resolved {domains : List ManagedDomainRow} :
    DriftTables.listUnresolved ⟨domains, rows.map (resolveDisappeared input ids)⟩ input.domainId =
      rows.filter fun row => row.openFor input.domainId && decide (row.id ∈ ids) := by
  rw [DriftTables.listUnresolved, List.filter_map]
  simp only [Function.comp_def, resolveDisappeared_open]
  refine (List.map_congr_left fun row hrow => ?_).trans (List.map_id _)
  have hsat := (List.mem_filter.1 hrow).2
  rw [Bool.and_eq_true, decide_eq_true_eq] at hsat
  exact resolveDisappeared_of_mem hsat.2

theorem FindingsKeyed.map (h : FindingsKeyed rows) {g : DnsDriftFindingRow → DnsDriftFindingRow}
    (hg : ∀ row, (g row).id = row.id ∧ (g row).key = row.key ∧ (g row).domainId = row.domainId)
    (hres : ∀ row, (g row).resolved = none → row.resolved = none) :
    FindingsKeyed (rows.map g) := by
  refine ⟨?_, ?_⟩
  · rw [List.map_map]
    exact (List.map_congr_left fun row _ => (hg row).1).symm ▸ h.ids
  · simp only [List.forall_mem_map]
    intro row hrow row' hrow' hopen hopen' hdomain hkey
    obtain ⟨hid, hk, hd⟩ := hg row
    obtain ⟨hid', hk', hd'⟩ := hg row'
    rw [hid, hid']
    exact h.unresolved row hrow row' hrow' (hres row hopen) (hres row' hopen')
      (hd.symm.trans (hdomain.trans hd')) (hk.symm.trans (hkey.trans hk'))

theorem resolveDisappeared_keyed (h : FindingsKeyed rows) :
    FindingsKeyed (rows.map (resolveDisappeared input ids)) := by
  refine h.map (fun row => ?_) fun row hres => ?_
  · unfold resolveDisappeared
    split_ifs <;> exact ⟨rfl, rfl, rfl⟩
  · unfold resolveDisappeared at hres
    split_ifs at hres
    exact hres

section

variable (h : FindingsKeyed t.findings)
include h

theorem recordRun_keyed (hrun : recordRun input t = .ok (result, t'))
    : FindingsKeyed t'.findings := by
  obtain ⟨rows, ids, hrec, -, rfl⟩ := recordRun_eq_ok.1 hrun
  exact resolveDisappeared_keyed (recordFindings_spec h hrec).keyed

theorem recordRunStep_keyed :
    FindingsKeyed (recordRunStep t input).findings := by
  unfold recordRunStep
  split
  · next hrun => exact recordRun_keyed h hrun
  · exact h

theorem listUnresolved_keys_nodup (domain : ManagedDomainId) :
    ((t.listUnresolved domain).map (·.key)).Nodup := by
  refine ((h.ids.of_map _).filter _).map_on fun row hrow row' hrow' hkey => ?_
  obtain ⟨hrow, hopen⟩ := List.mem_filter.1 hrow
  obtain ⟨hrow', hopen'⟩ := List.mem_filter.1 hrow'
  exact h.open_eq hrow hrow' hopen hopen' hkey

theorem keys_nodup_of_mirrored {domain : ManagedDomainId} {findings : List DriftFindingInput}
    (hmirrored : Mirrored domain findings t) :
    (findings.map (·.key)).Nodup := by
  have hperm := hmirrored.map DriftShown.key
  rw [List.map_map, List.map_map] at hperm
  exact hperm.nodup_iff.1 (listUnresolved_keys_nodup h domain)

theorem runMirrored_of_nodup (hkeys : (input.findings.map (·.key)).Nodup)
    (hrun : recordRun input t = .ok (result, t')) : RunMirrored input t t' result := by
  obtain ⟨rows, ids, hrec, rfl, rfl⟩ := recordRun_eq_ok.1 hrun
  have all := recordFindings_spec h hrec
  obtain ⟨hnd, chosen, hids, hshown, hmem⟩ := recordFindings_rows h hkeys hrec
  have hperm : (rows.filter fun row => row.openFor input.domainId && decide (row.id ∈ ids)).Perm
      chosen := by
    refine (List.perm_ext_iff_of_nodup ((all.keyed.ids.of_map _).filter _)
      ((hids ▸ hnd).of_map _)).2 fun row => ?_
    rw [List.mem_filter, Bool.and_eq_true, decide_eq_true_eq]
    constructor
    · rintro ⟨hrow, -, hid⟩
      rw [← hids] at hid
      obtain ⟨row', hrow', hid⟩ := List.mem_map.1 hid
      rwa [← eq_of_key all.keyed.ids hrow (hmem row' hrow') hid]
    · intro hrow
      have hid : row.id ∈ ids := hids ▸ List.mem_map_of_mem hrow
      obtain ⟨row', hrow', hid', hopen⟩ := all.survivors row.id hid
      rw [eq_of_key all.keyed.ids (hmem row hrow) hrow' hid'] at hopen
      exact ⟨hmem row hrow, hopen, hid⟩
  refine ⟨?_, ?_, ?_⟩
  · rw [Mirrored, listUnresolved_resolved, ← hshown]
    exact hperm.map _
  · rw [listUnresolved_resolved, hperm.length_eq, ← hids, List.length_map]
  · intro row hrow hunseen
    obtain ⟨hrow, hopen⟩ := List.mem_filter.1 hrow
    have hgone : row.id ∉ ids := by
      intro hid
      obtain ⟨-, f, hf, hkey⟩ := all.twin row hrow hid
      exact hunseen f hf hkey.symm
    refine ⟨_, List.mem_map_of_mem (all.kept row hrow hgone), resolveDisappeared_id row, ?_⟩
    rw [resolveDisappeared, if_pos ⟨hopen, hgone⟩]
    rfl

theorem mirrorsAfter_iff :
    MirrorsAfter t input ↔ KeysApart t input := by
  constructor
  · intro hafter hreturns
    obtain ⟨⟨result, t'⟩, hrun⟩ := Except.returns_iff.1 hreturns
    exact keys_nodup_of_mirrored (recordRun_keyed h hrun) (hafter result t' hrun).mirrored
  · intro hkeys result t' hrun
    exact runMirrored_of_nodup h (hkeys (Except.returns_iff.2 ⟨_, hrun⟩)) hrun

end

end Run

/-- After every call of a sequence the unresolved rows mirror its findings exactly if no call that
returns has two findings under one key. -/
theorem findings_mirror_iff {t : DriftTables} (h : FindingsKeyed t.findings)
    (calls : List RecordRunInput) :
    Runs.Meets recordRunStep MirrorsAfter t calls ↔ Runs.Meets recordRunStep KeysApart t calls := by
  have hinv : ∀ (t : DriftTables) input, FindingsKeyed t.findings →
      FindingsKeyed (recordRunStep t input).findings := fun _ _ h => recordRunStep_keyed h
  have hstep : ∀ (t : DriftTables) input, FindingsKeyed t.findings →
      (MirrorsAfter t input ↔ KeysApart t input) := fun _ _ h => mirrorsAfter_iff h
  exact Runs.meets_iff_meets hinv hstep h

def mailExchanger (content : String) (id : DnsRecordId) : DriftFindingInput :=
  { kind := .missing
    recordType := ⟨"MX", DnsLabel.mx_plain⟩
    recordName := ⟨"@", DnsLabel.apex_plain⟩
    desiredContent := some content
    observedContent := none
    desiredProxied := some false
    observedProxied := none
    externalRecordId := none
    dnsRecordId := some id }

def sweepOf (findings : List DriftFindingInput) : RecordRunInput :=
  { domainId := 1
    runId := 1
    now := ⟨⟨2026, 8, 14⟩, 0⟩
    newId := id
    findings := findings }

def undrifted : DriftTables := ⟨[⟨1, "example.test", some "z1", none, none, none, 0⟩], []⟩

theorem undrifted_keyed : FindingsKeyed undrifted.findings :=
  ⟨.nil, fun _ hrow => absurd hrow List.not_mem_nil⟩

theorem one_missing_mirrored : Runs.Meets recordRunStep MirrorsAfter undrifted
    [sweepOf [mailExchanger "mx1.test" 1], sweepOf []] :=
  (findings_mirror_iff undrifted_keyed _).2
    ⟨fun _ => List.nodup_singleton _, fun _ => .nil, trivial⟩

theorem missing_pair_collapses : ¬ ∀ t : DriftTables, FindingsKeyed t.findings →
    ∀ calls : List RecordRunInput, Runs.Meets recordRunStep MirrorsAfter t calls := by
  intro hall
  have hafter := (hall undrifted undrifted_keyed
    [sweepOf [mailExchanger "mx1.test" 1, mailExchanger "mx2.test" 2]]).1
  obtain ⟨⟨result, t'⟩, hrun⟩ : ∃ r, recordRun
      (sweepOf [mailExchanger "mx1.test" 1, mailExchanger "mx2.test" 2]) undrifted = .ok r :=
    Except.returns_iff.1 (by decide)
  have hkeys := keys_nodup_of_mirrored (recordRun_keyed undrifted_keyed hrun)
    (hafter result t' hrun).mirrored
  exact absurd hkeys (by decide)

end Loxep

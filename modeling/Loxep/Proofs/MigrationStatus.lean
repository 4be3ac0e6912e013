import Loxep.Proofs.MediaKept
import Loxep.Proofs.MigrationSound

/-!
# When a migration's status is true

Every worker settles its object first and then stores the verdict of the counts it reads.
-/

namespace Loxep

def MigrationStatusCounts.verdict (counts : MigrationStatusCounts) : StorageMigrationStatus :=
  if 0 < counts.pending then .running
  else if 0 < counts.failed then .completedWithErrors
  else .completed

namespace MigrationTables

variable (t : MigrationTables) (m : MigrationId)

def OnBackend (id : MediaObjectId) (backend : BackendId) : Prop :=
  ∃ media, t.mediaOf id = some media ∧ media.storageBackendId = backend

def ObjectRight (id : MediaObjectId) : Prop :=
  ∀ migration object, t.migrationOf m = some migration → t.objectOf m id = some object →
    (object.status = .done ↔ t.OnBackend id migration.destinationBackendId)

def ObjectsRight : Prop := ∀ id, t.ObjectRight m id

def StatusRight : Prop :=
  ∀ migration, t.migrationOf m = some migration → migration.status = (t.countsFor m).verdict

end MigrationTables

namespace MigrationSystem

/-- Neither `startMigration` nor `migrateObject` is under way. -/
structure Resting (s : MigrationSystem) : Prop where
  workers : ∀ call, s.worker call = .idle
  starters : ∀ call, s.starter call = .idle

structure Truthful (m : MigrationId) (s : MigrationSystem) : Prop where
  objects : s.tables.ObjectsRight m
  status : s.tables.StatusRight m

end MigrationSystem

def WorkerStage.checks : WorkerStage → Option MigrationId
  | .checking m => some m
  | .completing migration _ => some migration.id
  | _ => none

namespace MigrationSystem

def OthersCheck (s : MigrationSystem) (m : MigrationId) (call : MigrationCallId) : Prop :=
  ∃ other, other ≠ call ∧ (s.worker other).checks = some m

/-- A start is not cut off, and finds the objects it has listed off the destination. A worker that
has settled an object is not cut off before its verdict, unless the status is right or another
worker checks. Where a worker has read its object to be, at the destination or not, it still is when
its row is settled, and stays by the cut-over of another migration. A verdict that is stored is that
of the counts, or another worker checks. -/
def KeepsTruth (m : MigrationId) (s : MigrationSystem) : MigrationAction → Prop
  | .crashStart call =>
    ∀ migration, (s.starter call).migration? = some migration → migration.id ≠ m
  | .proceedStart call => match s.starter call with
    | .listed migration objects => migration.id = m →
      ∀ id ∈ objects, ¬s.tables.OnBackend id migration.destinationBackendId
    | _ => True
  | .failObject call | .crashObject call =>
    (s.worker call).checks = some m → s.tables.StatusRight m ∨ s.OthersCheck m call
  | .proceedObject call => match s.worker call with
    | .settling migration id settlement => migration.id = m →
      (settlement.status = .done ↔ s.tables.OnBackend id migration.destinationBackendId)
    | .verified migration media => migration.id ≠ m →
      ∀ own object, s.tables.migrationOf m = some own → s.tables.objectOf m media.id = some object →
        (object.status = .done ↔ migration.destinationBackendId = own.destinationBackendId)
    | .completing migration counts => migration.id = m →
      (0 < counts.failed ↔ 0 < (s.tables.countsFor m).failed) ∨ s.OthersCheck m call
    | _ => True
  | _ => True

/-- The rows are right, and the status is or will be checked. -/
structure Truth (m : MigrationId) (s : MigrationSystem) : Prop where
  objects : s.tables.ObjectsRight m
  status : s.tables.StatusRight m ∨
    (∃ call migration, (s.starter call).migration? = some migration ∧ migration.id = m) ∨
    ∃ call, (s.worker call).checks = some m

end MigrationSystem

namespace MigrationTables

variable {t t' : MigrationTables} {m m' : MigrationId} {id : MediaObjectId}

theorem verdict_congr (hpending : t'.AnyOf m .pending ↔ t.AnyOf m .pending)
    (hfailed : t'.AnyOf m .failed ↔ t.AnyOf m .failed) :
    (t'.countsFor m).verdict = (t.countsFor m).verdict := by
  rw [← pending_pos, ← pending_pos] at hpending
  rw [← failed_pos, ← failed_pos] at hfailed
  unfold MigrationStatusCounts.verdict
  simp only [hpending, hfailed]

theorem verdict_of_pending (h : t.AnyOf m .pending) : (t.countsFor m).verdict = .running := by
  unfold MigrationStatusCounts.verdict
  rw [if_pos (pending_pos.2 h)]

theorem verdict_of_not_pending (h : ¬t.AnyOf m .pending) : (t.countsFor m).verdict =
    if 0 < (t.countsFor m).failed then .completedWithErrors else .completed := by
  unfold MigrationStatusCounts.verdict
  rw [if_neg (mt pending_pos.1 h)]

theorem StatusRight.congr (h : t.StatusRight m) (hmigration : t'.migrationOf m = t.migrationOf m)
    (hstatus : ∀ status, t'.AnyOf m status ↔ t.AnyOf m status) : t'.StatusRight m := by
  intro migration hrow
  rw [hmigration] at hrow
  rw [verdict_congr (hstatus .pending) (hstatus .failed)]
  exact h migration hrow

theorem anyOf_congr (hrows : t'.rowsOf m = t.rowsOf m) (status : MigrationObjectStatus) :
    t'.AnyOf m status ↔ t.AnyOf m status := by
  unfold AnyOf
  rw [hrows]

theorem ObjectRight.congr (h : t.ObjectRight m id)
    (hmigration : ∀ migration', t'.migrationOf m = some migration' →
      ∃ migration, t.migrationOf m = some migration ∧
        migration.destinationBackendId = migration'.destinationBackendId)
    (hobject : t'.objectOf m id = t.objectOf m id)
    (hmedia : ∀ backend, t'.OnBackend id backend ↔ t.OnBackend id backend) :
    t'.ObjectRight m id := by
  intro migration' object hrow hrow'
  obtain ⟨migration, hold, hdestination⟩ := hmigration migration' hrow
  rw [hobject] at hrow'
  rw [hmedia, ← hdestination]
  exact h migration object hold hrow'

theorem onBackend_congr (hmedia : t'.mediaOf id = t.mediaOf id) (backend : BackendId) :
    t'.OnBackend id backend ↔ t.OnBackend id backend := by
  unfold OnBackend
  rw [hmedia]

variable {f : MigrationObjectRow → MigrationObjectRow}

theorem anyOf_updateObjectRow (hid : t.HasObject m id) (hkey : ∀ row, (f row).key = row.key)
    (hsame : ∀ row, (f row).status = row.status) (status : MigrationObjectStatus) :
    (t.updateObjectRow m id f).AnyOf m status ↔ t.AnyOf m status := by
  have hstatus : ∀ row, (if row.mediaObjectId = id then f row else row).status = row.status := by
    intro row
    split_ifs
    · exact hsame row
    · rfl
  unfold AnyOf
  rw [rowsOf_updateObjectRow hid hkey, if_pos rfl]
  simp only [List.mem_map, exists_exists_and_eq_and, hstatus]

theorem ObjectsRight.updateObjectRow (hid : t.HasObject m id) (hkey : ∀ row, (f row).key = row.key)
    (hothers : ∀ other, other ≠ id → t.ObjectRight m other)
    (hown : ∀ migration object, t.migrationOf m = some migration →
      t.objectOf m id = some object →
      ((f object).status = .done ↔ t.OnBackend id migration.destinationBackendId)) :
    (t.updateObjectRow m id f).ObjectsRight m := by
  intro other migration object hrow hobject
  rw [objectOf_updateObjectRow hid hkey] at hobject
  split_ifs at hobject with hother
  · rw [hother] at hobject ⊢
    obtain ⟨old, hold, rfl⟩ := Option.map_eq_some_iff.1 hobject
    exact hown migration old hrow hold
  · exact hothers other hother migration object hrow hobject

theorem objectsRight_of_rows_nil (hrows : t.rowsOf m = []) : t.ObjectsRight m := by
  intro id migration object _ hobject
  have hmem := (objectOf_mem hobject).1
  rw [hrows] at hmem
  cases hmem

theorem verdict_of_rows_nil (hrows : t.rowsOf m = []) :
    (t.countsFor m).verdict = .completed := by
  rw [countsFor_eq, hrows]
  rfl

theorem onBackend_cutOver {migration : StorageMigrationRow} {media : MediaObjectRow}
    {backend : BackendId} (hmedia : t.HasMedia media.id) :
    (t.cutOver migration media).OnBackend id backend ↔ if id = media.id
      then migration.destinationBackendId = backend else t.OnBackend id backend := by
  unfold OnBackend
  rw [mediaOf_cutOver]
  split_ifs with hid
  · obtain ⟨row, hrow⟩ := Option.isSome_iff_exists.1 hmedia
    rw [hid, hrow]
    simp
  · rfl

end MigrationTables

namespace MigrationSystem

variable {s : MigrationSystem} {call : MigrationCallId} {m m' : MigrationId}
variable {tables : MigrationTables} {sha256 : Bytes → String}

namespace Truth

theorem truthful (h : s.Truth m) (hrest : s.Resting) : s.Truthful m := by
  refine ⟨h.objects, ?_⟩
  rcases h.status with hright | ⟨call, migration, hstart, -⟩ | ⟨call, hcheck⟩
  · exact hright
  · rw [hrest.starters call] at hstart
    cases hstart
  · rw [hrest.workers call] at hcheck
    cases hcheck

variable {stage : WorkerStage}

theorem setWorker (h : s.Truth m) (hcheck : (s.worker call).checks = some m →
      stage.checks = some m ∨ s.tables.StatusRight m ∨ s.OthersCheck m call) :
    (s.setWorker call stage).Truth m := by
  have hnew : ∀ other, (s.setWorker call stage).worker other =
      if other = call then stage else s.worker other := fun _ => rfl
  have hothers : s.OthersCheck m call →
      ∃ other, ((s.setWorker call stage).worker other).checks = some m := by
    rintro ⟨other, hne, hother⟩
    refine ⟨other, ?_⟩
    rw [hnew, if_neg hne]
    exact hother
  refine ⟨h.objects, ?_⟩
  rcases h.status with hright | hstart | ⟨other, hother⟩
  · exact Or.inl hright
  · exact Or.inr (Or.inl hstart)
  · by_cases hsame : other = call
    · rw [hsame] at hother
      rcases hcheck hother with hstage | hright | hothers'
      · refine Or.inr (Or.inr ⟨call, ?_⟩)
        rw [hnew, if_pos rfl]
        exact hstage
      · exact Or.inl hright
      · exact Or.inr (Or.inr (hothers hothers'))
    · exact Or.inr (Or.inr (hothers ⟨other, hsame, hother⟩))

theorem setWorker_of_checks (h : s.Truth m) {old : WorkerStage} (hcall : s.worker call = old)
    (hnone : old.checks = none) :
    (s.setWorker call stage).Truth m := by
  refine h.setWorker fun hcheck => ?_
  rw [hcall, hnone] at hcheck
  cases hcheck

theorem settled (hobjects : tables.ObjectsRight m) :
    ({ s with tables }.setWorker call (.checking m)).Truth m := by
  refine ⟨hobjects, Or.inr (Or.inr ⟨call, ?_⟩)⟩
  show (if call = call then WorkerStage.checking m else s.worker call).checks = some m
  rw [if_pos rfl]
  rfl

theorem setStore {backend : BackendId} {key : StorageKey} {body : Option Bytes} (h : s.Truth m)
    : (s.setStore backend key body).Truth m := ⟨h.objects, h.status⟩

theorem setCleaner {stage : CleanupStage} (h : s.Truth m) : (s.setCleaner call stage).Truth m :=
  ⟨h.objects, h.status⟩

theorem setStarter (h : s.Truth m) {stage : StarterStage}
    (hstart : ∀ migration, (s.starter call).migration? = some migration → migration.id = m →
      (∃ migration', stage.migration? = some migration' ∧ migration'.id = m) ∨
        s.tables.StatusRight m) : (s.setStarter call stage).Truth m := by
  have hnew : ∀ other, (s.setStarter call stage).starter other =
      if other = call then stage else s.starter other := fun _ => rfl
  refine ⟨h.objects, ?_⟩
  rcases h.status with hright | ⟨other, migration, hother, hid⟩ | hcheck
  · exact Or.inl hright
  · by_cases hsame : other = call
    · rw [hsame] at hother
      rcases hstart migration hother hid with ⟨migration', hstage, hid'⟩ | hright
      · refine Or.inr (Or.inl ⟨call, migration', ?_, hid'⟩)
        rw [hnew, if_pos rfl]
        exact hstage
      · exact Or.inl hright
    · refine Or.inr (Or.inl ⟨other, migration, ?_, hid⟩)
      rw [hnew, if_neg hsame]
      exact hother
  · exact Or.inr (Or.inr hcheck)

theorem setTables (h : s.Truth m) (hobjects : tables.ObjectsRight m)
    (hstatus : s.tables.StatusRight m → tables.StatusRight m) : Truth m { s with tables } :=
  ⟨hobjects, h.status.imp_left hstatus⟩

theorem setTables_other (h : s.Truth m) (hwrites : WritesFor m' s.tables tables) (hne : m ≠ m')
    (hmedia : ∀ id, tables.mediaOf id = s.tables.mediaOf id) : Truth m { s with tables } := by
  refine h.setTables (fun id => ?_) fun hright => hright.congr (hwrites.migrations m hne)
    (MigrationTables.anyOf_congr (hwrites.rows m hne))
  refine (h.objects id).congr (fun migration hrow => ?_)
    (MigrationTables.objectOf_congr (hwrites.rows m hne))
    (MigrationTables.onBackend_congr (hmedia id))
  rw [hwrites.migrations m hne] at hrow
  exact ⟨migration, hrow, rfl⟩

theorem beginObject (h : s.Truth m) {id : MediaObjectId} {attemptCount : ℕ}
    (hid : s.tables.HasObject m' id) :
    Truth m { s with tables := s.tables.updateObjectRow m' id fun row =>
      { row with attemptCount } } := by
  let count : MigrationObjectRow → MigrationObjectRow := fun row => { row with attemptCount }
  by_cases hm : m = m'
  · subst hm
    have hobjects : (s.tables.updateObjectRow m id count).ObjectsRight m :=
      .updateObjectRow hid (fun _ => rfl) (fun other _ => h.objects other) (h.objects id)
    exact h.setTables hobjects fun hright => hright.congr rfl
      (MigrationTables.anyOf_updateObjectRow (f := count) hid (fun _ => rfl) fun _ => rfl)
  · have hwrites : WritesFor m' s.tables (s.tables.updateObjectRow m' id count) :=
      .updateObjectRow hid (fun _ => rfl) fun _ h => h
    exact h.setTables_other hwrites hm fun _ => rfl

variable {migration : StorageMigrationRow}

section

variable (h : s.Truth m)
include h

theorem settle {id : MediaObjectId} {settlement : Settlement}
    (hcall : s.worker call = .settling migration id settlement)
    (hstage : (WorkerStage.settling migration id settlement).Sound s.tables)
    (hguard : migration.id = m →
      (settlement.status = .done ↔ s.tables.OnBackend id migration.destinationBackendId)) :
    ({ s with tables := s.tables.settle migration.id id settlement }.setWorker call
      (.checking migration.id)).Truth m := by
  obtain ⟨⟨own, hown, -, hdestination⟩, hid, hpending⟩ := hstage
  by_cases hm : m = migration.id
  · subst hm
    have hobjects : (s.tables.settle migration.id id settlement).ObjectsRight migration.id := by
      refine .updateObjectRow hid (fun _ => rfl) (fun other _ => h.objects other) ?_
      intro migration' object hrow _
      rw [hown] at hrow
      rw [← Option.some.inj hrow, hdestination]
      exact hguard rfl
    exact settled hobjects
  · exact setWorker_of_checks (h.setTables_other (.settle hid hpending) hm fun _ => rfl) hcall rfl

theorem cutOver {media : MediaObjectRow} (hcall : s.worker call = .verified migration media)
    (hstage : (WorkerStage.verified migration media).Sound s.tables)
    (hguard : migration.id ≠ m → ∀ own object, s.tables.migrationOf m = some own →
      s.tables.objectOf m media.id = some object →
      (object.status = .done ↔ migration.destinationBackendId = own.destinationBackendId)) :
    ({ s with tables := s.tables.cutOver migration media }.setWorker call
      (.checking migration.id)).Truth m := by
  obtain ⟨⟨own, hown, -, hdestination⟩, hid, hmedia⟩ := hstage
  have hwrites : WritesFor migration.id s.tables (s.tables.cutOver migration media) :=
    .cutOver hid
  have helsewhere : ∀ other, other ≠ media.id → ∀ backend,
      (s.tables.cutOver migration media).OnBackend other backend ↔
        s.tables.OnBackend other backend := by
    intro other hother backend
    rw [MigrationTables.onBackend_cutOver hmedia, if_neg hother]
  by_cases hm : m = migration.id
  · subst hm
    have hrows : ∀ other, (s.tables.cutOver migration media).objectOf migration.id other =
        if other = media.id
          then (s.tables.objectOf migration.id other).map fun row =>
            { row with status := .done, lastError := none }
          else s.tables.objectOf migration.id other :=
      fun other => MigrationTables.objectOf_updateObjectRow
        (f := fun row => { row with status := .done, lastError := none }) hid fun _ => rfl
    refine settled fun other migration' object hrow hobject => ?_
    replace hrow : s.tables.migrationOf migration.id = some migration' := hrow
    rw [hrows] at hobject
    rw [MigrationTables.onBackend_cutOver hmedia]
    split_ifs at hobject ⊢ with hother
    · obtain ⟨old, -, rfl⟩ := Option.map_eq_some_iff.1 hobject
      rw [hown] at hrow
      rw [← Option.some.inj hrow, hdestination]
      exact iff_of_true rfl rfl
    · exact h.objects other migration' object hrow hobject
  · have hobject : ∀ other, (s.tables.cutOver migration media).objectOf m other =
        s.tables.objectOf m other :=
      fun _ => MigrationTables.objectOf_congr (hwrites.rows m hm)
    have hobjects : (s.tables.cutOver migration media).ObjectsRight m := by
      intro other
      by_cases hother : other = media.id
      · intro own object hrow hrow'
        rw [hobject, hother] at hrow'
        rw [MigrationTables.onBackend_cutOver hmedia, if_pos hother]
        exact hguard (Ne.symm hm) own object hrow hrow'
      · exact (h.objects other).congr (fun own hrow => ⟨own, hrow, rfl⟩) (hobject other)
          (helsewhere other hother)
    exact setWorker_of_checks (h.setTables hobjects fun hright => hright.congr rfl
      (MigrationTables.anyOf_congr (hwrites.rows m hm))) hcall rfl

theorem check (hs : s.Sound) (hcall : s.worker call = .checking m')
    (hmigration : s.tables.migrationOf m' = some migration) :
    (s.setWorker call (if 0 < (s.tables.countsFor m').pending then .idle
      else .completing migration (s.tables.countsFor m'))).Truth m := by
  refine h.setWorker fun hcheck => ?_
  rw [hcall] at hcheck
  obtain rfl : m' = m := Option.some.inj hcheck
  split_ifs with hpending
  · rw [MigrationTables.pending_pos] at hpending
    refine Or.inr (Or.inl fun row hrow => ?_)
    rw [MigrationTables.verdict_of_pending hpending]
    exact hs.running m' row hrow hpending
  · refine Or.inl ?_
    rw [← MigrationTables.migrationOf_id hmigration]
    rfl

theorem complete {counts : MigrationStatusCounts}
    (hcall : s.worker call = .completing migration counts)
    (hstage : (WorkerStage.completing migration counts).Sound s.tables) (hguard : migration.id = m →
      (0 < counts.failed ↔ 0 < (s.tables.countsFor m).failed) ∨ s.OthersCheck m call) :
    ({ s with tables := s.tables.complete migration counts }.setWorker call .idle).Truth m := by
  obtain ⟨⟨own, hown, -, hdestination⟩, hrows, hpending⟩ := hstage
  by_cases hm : m = migration.id
  · subst hm
    have hafter : (s.tables.complete migration counts).migrationOf migration.id =
        some { own with
          status := if 0 < counts.failed then .completedWithErrors else .completed
          summary := some counts } := by
      unfold MigrationTables.complete
      rw [MigrationTables.migrationOf_updateMigration, if_pos rfl, hown]
      rfl
    have hobjects : (s.tables.complete migration counts).ObjectsRight migration.id := by
      refine fun id => (h.objects id).congr ?_ rfl fun _ => Iff.rfl
      intro row hrow
      rw [hafter] at hrow
      rw [← Option.some.inj hrow]
      exact ⟨own, hown, rfl⟩
    rcases hguard rfl with hfailed | hothers
    · have hright : (s.tables.complete migration counts).StatusRight migration.id := by
        intro row hrow
        rw [hafter] at hrow
        rw [← Option.some.inj hrow]
        refine Eq.trans ?_ (MigrationTables.verdict_of_not_pending hpending).symm
        simp only [hfailed]
      refine setWorker (s := { s with tables := s.tables.complete migration counts })
        ⟨hobjects, Or.inl hright⟩ fun _ => ?_
      exact Or.inr (Or.inl hright)
    · obtain ⟨other, -, hother⟩ := id hothers
      refine setWorker (s := { s with tables := s.tables.complete migration counts })
        ⟨hobjects, Or.inr (Or.inr ⟨other, hother⟩)⟩ fun _ => ?_
      exact Or.inr (Or.inr hothers)
  · refine setWorker (h.setTables_other .updateMigration hm fun _ => rfl) fun hcheck => ?_
    replace hcheck : (s.worker call).checks = some m := hcheck
    rw [hcall] at hcheck
    exact absurd (Option.some.inj hcheck).symm hm

theorem proceedObject (hs : s.Sound) (hguard : s.KeepsTruth m (.proceedObject call))
    : (s.proceedObject sha256 call).Truth m := by
  have hstage := hs.workers call
  simp only [KeepsTruth] at hguard
  unfold MigrationSystem.proceedObject
  rcases hcall : s.worker call with _ | ⟨migration, object⟩ | ⟨migration, id⟩ |
    ⟨migration, id, settlement⟩ | ⟨migration, media⟩ | ⟨migration, media, body⟩ |
    ⟨migration, media⟩ | ⟨migration, media, sizeBytes⟩ | ⟨migration, media⟩ |
    ⟨migration, media, detail⟩ | m' | ⟨migration, counts⟩
  all_goals
    rw [hcall] at hstage hguard
    dsimp only at hguard ⊢
  case idle => exact h
  case begun => exact (h.beginObject hstage.2).setWorker_of_checks hcall rfl
  case settling => exact h.settle hcall hstage hguard
  case verified => exact h.cutOver hcall hstage hguard
  case checking =>
    obtain ⟨⟨migration, hmigration⟩, -⟩ := hstage
    rw [MigrationTables.getMigration_eq_ok.2 hmigration]
    exact h.check hs hcall hmigration
  case completing => exact h.complete hcall hstage hguard
  case reading => exact h.setWorker_of_checks hcall rfl
  case copying | rejecting => exact h.setStore.setWorker_of_checks hcall rfl
  case fetching | copied | sized =>
    split
    · exact h.setWorker_of_checks hcall rfl
    · exact h.setWorker_of_checks hcall rfl

theorem failObject (hguard : s.KeepsTruth m (.failObject call)) :
    (s.failObject call).Truth m := by
  unfold MigrationSystem.failObject
  split
  next hcall => exact h.setWorker_of_checks hcall rfl
  next => exact h.setWorker fun hcheck => Or.inr (hguard hcheck)

end

theorem endStart (hstart : (s.starter call).migration? =
      some migration) (h : Truth m { s with tables })
    (hright : migration.id = m → tables.StatusRight m) :
    ({ s with tables }.setStarter call .idle).Truth m := by
  refine h.setStarter fun migration' hmigration hid => Or.inr (hright ?_)
  replace hmigration : (s.starter call).migration? = some migration' := hmigration
  rw [hstart] at hmigration
  rw [Option.some.inj hmigration]
  exact hid

theorem startEmpty (h : s.Truth m) (hstart : (s.starter call).migration? = some migration)
    (hstage : (s.starter call).Sound s.tables) :
    ({ s with tables := s.tables.updateMigration migration .completed ⟨0, 0, 0, 0, 0⟩ }.setStarter
      call .idle).Truth m := by
  obtain ⟨hrow, -, hrows⟩ := hstage migration hstart
  by_cases hm : m = migration.id
  · subst hm
    have hright : (s.tables.updateMigration migration .completed ⟨0, 0, 0, 0, 0⟩).StatusRight
        migration.id := by
      intro row hafter
      rw [MigrationTables.migrationOf_updateMigration, if_pos rfl, hrow] at hafter
      rw [← Option.some.inj hafter]
      exact (MigrationTables.verdict_of_rows_nil hrows).symm
    exact endStart hstart ⟨MigrationTables.objectsRight_of_rows_nil hrows, Or.inl hright⟩
      fun _ => hright
  · exact endStart hstart (h.setTables_other .updateMigration hm fun _ => rfl)
      fun hid => absurd hid.symm hm

theorem startObjects (h : s.Truth m) {objects : List MediaObjectId}
    (hstart : (s.starter call).migration? = some migration)
    (hstage : (s.starter call).Sound s.tables) (hne : objects ≠ []) (hguard : migration.id = m →
      ∀ id ∈ objects, ¬s.tables.OnBackend id migration.destinationBackendId) :
    ({ s with tables := { s.tables with
        objects := s.tables.objects ++
          objects.map (MigrationObjectRow.inserted migration.id) } }.setStarter
      call .idle).Truth m := by
  obtain ⟨hrow, hrunning, hrows⟩ := hstage migration hstart
  by_cases hm : m = migration.id
  · subst hm
    let after : MigrationTables := { s.tables with
      objects := s.tables.objects ++ objects.map (.inserted migration.id) }
    have hafter : after.rowsOf migration.id = objects.map (.inserted migration.id) := by
      rw [MigrationTables.rowsOf_insertObjects, hrows]
      rfl
    have hobjects : after.ObjectsRight migration.id := by
      intro id row object hrow' hobject
      obtain ⟨hmem, hid⟩ := MigrationTables.objectOf_mem hobject
      rw [hafter] at hmem
      obtain ⟨listed, hlisted, rfl⟩ := List.mem_map.1 hmem
      replace hid : listed = id := hid
      replace hrow' : s.tables.migrationOf migration.id = some row := hrow'
      rw [hrow] at hrow'
      rw [← Option.some.inj hrow', ← hid]
      exact iff_of_false nofun (hguard rfl listed hlisted)
    have hright : after.StatusRight migration.id := by
      intro row hrow'
      obtain ⟨listed, hlisted⟩ := List.exists_mem_of_ne_nil _ hne
      have hpending : after.AnyOf migration.id .pending := by
        refine ⟨.inserted migration.id listed, ?_, rfl⟩
        rw [hafter]
        exact List.mem_map_of_mem hlisted
      replace hrow' : s.tables.migrationOf migration.id = some row := hrow'
      rw [hrow] at hrow'
      rw [← Option.some.inj hrow', MigrationTables.verdict_of_pending hpending]
      exact hrunning
    exact endStart hstart ⟨hobjects, Or.inl hright⟩ fun _ => hright
  · exact endStart hstart (h.setTables_other (.insertObjects hrows) hm fun _ => rfl)
      fun hid => absurd hid.symm hm

theorem proceedStart (h : s.Truth m) (hs : s.Sound) (hguard : s.KeepsTruth m (.proceedStart call))
    : (s.proceedStart call).Truth m := by
  have hstage := hs.starters call
  simp only [KeepsTruth] at hguard
  unfold MigrationSystem.proceedStart
  split
  next => exact h
  next migration hcall =>
    refine h.setStarter fun migration' hmigration hid => Or.inl ⟨migration', ?_, hid⟩
    rw [hcall] at hmigration
    exact hmigration
  next migration hcall =>
    exact h.startEmpty (by rw [hcall]; rfl) hstage
  next migration objects hne hcall =>
    have hstart : (s.starter call).migration? = some migration := by rw [hcall]; rfl
    rw [hcall] at hguard
    exact h.startObjects hstart hstage hne hguard

theorem start (h : s.Truth m) (hs : s.Sound) {s' : MigrationSystem} {id : MigrationId}
    {source destination : BackendId} (hidle : s.starter call = .idle)
    (hstart : s.start call id source destination = .ok s') : s'.Truth m := by
  obtain ⟨migration, rfl, -, -, hnew, rfl⟩ := Sound.start_eq_ok hstart
  by_cases hm : m = migration.id
  · subst hm
    have hrows : s.tables.rowsOf migration.id = [] := by
      by_contra hrows
      obtain ⟨row, hrow⟩ := hs.rows migration.id hrows
      rw [hnew] at hrow
      cases hrow
    refine ⟨MigrationTables.objectsRight_of_rows_nil hrows,
      Or.inr (Or.inl ⟨call, migration, ?_, rfl⟩)⟩
    show (if call = call then StarterStage.created migration else s.starter call).migration? = _
    rw [if_pos rfl]
    rfl
  · refine setStarter (h.setTables_other (.insertMigration hnew) hm fun _ => rfl) ?_
    intro migration' hmigration
    replace hmigration : (s.starter call).migration? = some migration' := hmigration
    rw [hidle] at hmigration
    cases hmigration

theorem step (h : s.Truth m) (hs : s.Sound) {action : MigrationAction}
    (hguard : s.KeepsTruth m action) : (s.step sha256 action).Truth m := by
  cases action with
  | startMigration call id source destination =>
    simp only [MigrationSystem.step]
    split
    next hidle hstart => exact h.start hs hidle hstart
    next => exact h
  | proceedStart call => exact h.proceedStart hs hguard
  | crashStart call =>
    exact h.setStarter fun migration hmigration hid => absurd hid (hguard migration hmigration)
  | migrateObject call m' id =>
    simp only [MigrationSystem.step]
    split
    next hidle _ => exact h.setWorker_of_checks hidle rfl
    next => exact h
  | proceedObject call => exact h.proceedObject hs hguard
  | failObject call => exact h.failObject hguard
  | crashObject call => exact h.setWorker fun hcheck => Or.inr (hguard hcheck)
  | cleanup call m' =>
    simp only [MigrationSystem.step]
    split
    · exact h.setCleaner
    · exact h
  | proceedCleanup call => exact keeps_proceedCleanup setCleaner setStore h
  | failCleanup call => exact keeps_failCleanup setCleaner h
  | crashCleanup call => exact h.setCleaner

end Truth

end MigrationSystem

end Loxep

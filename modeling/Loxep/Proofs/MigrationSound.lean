import Loxep.StorageMigration

/-!
# What the calls of a migration rely on

No row of a migration, of its objects or of the media is ever removed, and no object turns pending
again. So whatever the calls do, a worker finds the rows it has read, nothing is pending once a
verdict is to be written, and a migration that is being started has no objects yet.
-/

namespace Loxep

namespace MigrationTables

variable {t t' : MigrationTables} {m m' : MigrationId} {id : MediaObjectId}
variable {f : MigrationObjectRow → MigrationObjectRow} {row : StorageMigrationRow}

def migrationOf (t : MigrationTables) (id : MigrationId) : Option StorageMigrationRow :=
  KeyedTable.get StorageMigrationRow.id t.migrations id

def rowsOf (t : MigrationTables) (m : MigrationId) : List MigrationObjectRow :=
  t.objects.filter (·.migrationId == m)

def AnyOf (t : MigrationTables) (m : MigrationId) (status : MigrationObjectStatus) : Prop :=
  ∃ row ∈ t.rowsOf m, row.status = status

def HasObject (t : MigrationTables) (m : MigrationId) (id : MediaObjectId) : Prop :=
  ∃ row ∈ t.rowsOf m, row.mediaObjectId = id

def Keyed (t : MigrationTables) (m : MigrationId) : Prop :=
  ∀ row ∈ t.rowsOf m, t.objectOf m row.mediaObjectId = some row

def HasMedia (t : MigrationTables) (id : MediaObjectId) : Prop := (t.mediaOf id).isSome = true

def Records (t : MigrationTables) (migration : StorageMigrationRow) : Prop :=
  ∃ row, t.migrationOf migration.id = some row ∧
    row.sourceBackendId = migration.sourceBackendId ∧
    row.destinationBackendId = migration.destinationBackendId

theorem getMigration_eq_ok : t.getMigration m = .ok row ↔ t.migrationOf m = some row := by
  unfold getMigration migrationOf
  split
  next found hfound => simp [hfound]
  next hfound => simp [hfound]

theorem migrationOf_id (h : t.migrationOf m = some row) : row.id = m := KeyedTable.get_key h

theorem records_of_migrationOf (h : t.migrationOf m = some row) : t.Records row := by
  refine ⟨row, ?_, rfl, rfl⟩
  rw [migrationOf_id h]
  exact h

theorem objectOf_eq : t.objectOf m id = (t.rowsOf m).find? (·.mediaObjectId == id) := by
  unfold objectOf KeyedTable.get rowsOf
  rw [List.find?_filter]
  congr 1
  funext row
  rw [Bool.eq_iff_iff]
  simp [MigrationObjectRow.key]

theorem objectOf_congr (hrows : t'.rowsOf m = t.rowsOf m) : t'.objectOf m id = t.objectOf m id := by
  rw [objectOf_eq, hrows, ← objectOf_eq]

variable {object : MigrationObjectRow}

theorem objectOf_mem (h : t.objectOf m id = some object) :
    object ∈ t.rowsOf m ∧ object.mediaObjectId = id := by
  rw [objectOf_eq] at h
  exact ⟨List.mem_of_find?_eq_some h, by simpa using List.find?_some h⟩

theorem hasObject_of_objectOf (h : t.objectOf m id = some object) :
    t.HasObject m id := ⟨object, objectOf_mem h⟩

theorem objectOf_of_hasObject (h : t.HasObject m id) : ∃ object, t.objectOf m id = some object := by
  obtain ⟨row, hrow, hid⟩ := h
  rw [← Option.isSome_iff_exists, objectOf_eq, List.find?_isSome]
  exact ⟨row, hrow, by simpa using hid⟩

theorem countsFor_eq : t.countsFor m =
    { pending := (t.rowsOf m).countP (·.status == .pending)
      done := (t.rowsOf m).countP (·.status == .done)
      skipped := (t.rowsOf m).countP (·.status == .skipped)
      failed := (t.rowsOf m).countP (·.status == .failed)
      total := (t.rowsOf m).length } := rfl

theorem pending_pos : 0 < (t.countsFor m).pending ↔ t.AnyOf m .pending := by
  rw [countsFor_eq, List.countP_pos_iff]
  simp [AnyOf]

theorem failed_pos : 0 < (t.countsFor m).failed ↔ t.AnyOf m .failed := by
  rw [countsFor_eq, List.countP_pos_iff]
  simp [AnyOf]

theorem rowsOf_updateObjectRow (hid : t.HasObject m id) (hkey : ∀ row, (f row).key = row.key) :
    (t.updateObjectRow m id f).rowsOf m' = if m' = m
      then (t.rowsOf m).map fun row => if row.mediaObjectId = id then f row else row
      else t.rowsOf m' := by
  have hfound : (KeyedTable.get MigrationObjectRow.key t.objects (m, id)).isSome = true := by
    obtain ⟨object, hobject⟩ := objectOf_of_hasObject hid
    exact Option.isSome_iff_exists.2 ⟨object, hobject⟩
  have hobjects : (t.updateObjectRow m id f).objects = t.objects.map fun row =>
      if row.key = (m, id) then f row else row := by
    unfold updateObjectRow KeyedTable.upsert
    exact if_pos hfound
  have hsame : ∀ row, (if row.key = (m, id) then f row else row).migrationId =
      row.migrationId := by
    intro row
    split_ifs
    · exact congrArg Prod.fst (hkey row)
    · rfl
  unfold rowsOf
  rw [hobjects, List.filter_map]
  simp only [Function.comp_def, hsame]
  split_ifs with hm
  · rw [hm]
    refine List.map_congr_left fun row hrow => ?_
    have hrow' : row.migrationId = m := by simpa using (List.mem_filter.1 hrow).2
    simp [MigrationObjectRow.key, hrow']
  · refine (List.map_congr_left fun row hrow => ?_).trans (List.map_id' _)
    have hrow' : row.migrationId = m' := by simpa using (List.mem_filter.1 hrow).2
    refine if_neg fun hkey => hm ?_
    rw [← hrow']
    exact congrArg Prod.fst hkey

theorem objectOf_updateObjectRow {other : MediaObjectId} (hid : t.HasObject m id)
    (hkey : ∀ row, (f row).key = row.key) :
    (t.updateObjectRow m id f).objectOf m other = if other = id
      then (t.objectOf m other).map f else t.objectOf m other := by
  have hupsert : (t.updateObjectRow m id f).objectOf m other = if (m, other) = (m, id)
      then some (((t.objectOf m other).map f).getD (.inserted m id)) else t.objectOf m other :=
    KeyedTable.get_upsert fun row hrow => (hkey row).trans hrow
  rw [hupsert]
  by_cases hother : other = id
  · obtain ⟨object, hobject⟩ := objectOf_of_hasObject hid
    rw [hother, if_pos rfl, if_pos rfl, hobject]
    rfl
  · rw [if_neg hother, if_neg fun h => hother (congrArg Prod.snd h)]

theorem rowsOf_insertObjects {objects : List MediaObjectId} :
    ({ t with objects := t.objects ++ objects.map (.inserted m) } : MigrationTables).rowsOf m =
      t.rowsOf m ++ objects.map (.inserted m) := by
  unfold rowsOf
  rw [List.filter_append]
  congr 1
  simp [List.filter_eq_self, MigrationObjectRow.inserted]

theorem migrationOf_updateMigration {status : StorageMigrationStatus}
    {summary : MigrationStatusCounts} :
    (t.updateMigration row status summary).migrationOf m = if m = row.id
      then some (((t.migrationOf m).map fun old =>
        { old with status, summary := some summary }).getD { row with summary := none })
      else t.migrationOf m :=
  KeyedTable.get_upsert fun _ hold => hold

theorem hasMedia_cutOver {migration : StorageMigrationRow} {media : MediaObjectRow}
    (h : t.HasMedia id) : (t.cutOver migration media).HasMedia id := by
  have hmedia : (t.cutOver migration media).mediaOf id = if id = media.id
      then some (((t.mediaOf id).map fun row =>
        { row with storageBackendId := migration.destinationBackendId }).getD media)
      else t.mediaOf id := KeyedTable.get_upsert fun _ hrow => hrow
  unfold HasMedia
  rw [hmedia]
  split_ifs
  · rfl
  · exact h

end MigrationTables

structure WritesFor (m : MigrationId) (t t' : MigrationTables) : Prop where
  migrations : ∀ m', m' ≠ m → t'.migrationOf m' = t.migrationOf m'
  rows : ∀ m', m' ≠ m → t'.rowsOf m' = t.rowsOf m'
  media : ∀ id, t.HasMedia id → t'.HasMedia id
  migration : ∀ row, t.migrationOf m = some row → ∃ row', t'.migrationOf m = some row' ∧
    row'.sourceBackendId = row.sourceBackendId ∧
    row'.destinationBackendId = row.destinationBackendId
  objects : ∀ id, t.HasObject m id → t'.HasObject m id
  pending : t.rowsOf m ≠ [] → t'.AnyOf m .pending → t.AnyOf m .pending
  keyed : t.Keyed m → t'.Keyed m

namespace WritesFor

variable {t t' : MigrationTables} {m m' : MigrationId} {id : MediaObjectId}
variable {migration : StorageMigrationRow}

theorem records (h : WritesFor m t t') (hrecords : t.Records migration) :
    t'.Records migration := by
  obtain ⟨row, hrow, hsource, hdestination⟩ := hrecords
  by_cases hm : migration.id = m
  · rw [hm] at hrow
    obtain ⟨row', hrow', hsource', hdestination'⟩ := h.migration row hrow
    refine ⟨row', ?_, hsource'.trans hsource, hdestination'.trans hdestination⟩
    rw [hm]
    exact hrow'
  · exact ⟨row, (h.migrations _ hm).trans hrow, hsource, hdestination⟩

theorem hasObject (h : WritesFor m t t') (hobject : t.HasObject m' id) : t'.HasObject m' id := by
  by_cases hm : m' = m
  · rw [hm] at hobject ⊢
    exact h.objects id hobject
  · unfold MigrationTables.HasObject
    rw [h.rows m' hm]
    exact hobject

theorem rowsOf_ne_nil (h : WritesFor m t t') (hrows : t.rowsOf m' ≠ []) : t'.rowsOf m' ≠ [] := by
  obtain ⟨row, hrow⟩ := List.exists_mem_of_ne_nil _ hrows
  obtain ⟨row', hrow', -⟩ := h.hasObject ⟨row, hrow, rfl⟩
  exact List.ne_nil_of_mem hrow'

theorem anyOf_pending (h : WritesFor m t t') (hrows : t.rowsOf m' ≠ [])
    (hpending : t'.AnyOf m' .pending) : t.AnyOf m' .pending := by
  by_cases hm : m' = m
  · rw [hm] at hrows hpending ⊢
    exact h.pending hrows hpending
  · unfold MigrationTables.AnyOf at hpending ⊢
    rwa [h.rows m' hm] at hpending

theorem of_updateObjectRow {f : MigrationObjectRow → MigrationObjectRow} (hid : t.HasObject m id)
    (hkey : ∀ row, (f row).key = row.key)
    (hstatus : ∀ row, (f row).status = .pending → row.status = .pending)
    (hmigrations : ∀ m', t'.migrationOf m' = t.migrationOf m')
    (hrows : ∀ m', t'.rowsOf m' = (t.updateObjectRow m id f).rowsOf m')
    (hmedia : ∀ id, t.HasMedia id → t'.HasMedia id) : WritesFor m t t' := by
  have hown : t'.rowsOf m =
      (t.rowsOf m).map fun row => if row.mediaObjectId = id then f row else row := by
    rw [hrows, MigrationTables.rowsOf_updateObjectRow hid hkey, if_pos rfl]
  refine ⟨fun m' _ => hmigrations m', ?_, hmedia, ?_, ?_, ?_, ?_⟩
  · intro m' hm
    rw [hrows, MigrationTables.rowsOf_updateObjectRow hid hkey, if_neg hm]
  · intro row hrow
    exact ⟨row, (hmigrations m).trans hrow, rfl, rfl⟩
  · rintro other ⟨row, hrow, rfl⟩
    unfold MigrationTables.HasObject
    rw [hown]
    refine ⟨_, List.mem_map_of_mem hrow, ?_⟩
    split_ifs
    · exact congrArg Prod.snd (hkey row)
    · rfl
  · rintro - ⟨row', hrow', hpending⟩
    rw [hown] at hrow'
    obtain ⟨row, hrow, rfl⟩ := List.mem_map.1 hrow'
    refine ⟨row, hrow, ?_⟩
    split_ifs at hpending
    · exact hstatus row hpending
    · exact hpending
  · intro hkeyed row' hrow'
    rw [hown] at hrow'
    obtain ⟨row, hrow, rfl⟩ := List.mem_map.1 hrow'
    have hsnd : (f row).mediaObjectId = row.mediaObjectId := congrArg Prod.snd (hkey row)
    rw [MigrationTables.objectOf_congr (hrows m),
      MigrationTables.objectOf_updateObjectRow hid hkey]
    by_cases hsame : row.mediaObjectId = id
    · rw [if_pos hsame, if_pos (hsnd.trans hsame), hsnd, hkeyed row hrow]
      rfl
    · rw [if_neg hsame, if_neg hsame, hkeyed row hrow]

theorem updateObjectRow {f : MigrationObjectRow → MigrationObjectRow} (hid : t.HasObject m id)
    (hkey : ∀ row, (f row).key = row.key)
    (hstatus : ∀ row, (f row).status = .pending → row.status = .pending) :
    WritesFor m t (t.updateObjectRow m id f) :=
  of_updateObjectRow hid hkey hstatus (fun _ => rfl) (fun _ => rfl) fun _ h => h

theorem settle {settlement : Settlement} (hid : t.HasObject m id)
    (hstatus : settlement.status ≠ .pending) : WritesFor m t (t.settle m id settlement) :=
  updateObjectRow hid (fun _ => rfl) fun _ h => absurd h hstatus

theorem cutOver {media : MediaObjectRow} (hid : t.HasObject migration.id media.id) :
    WritesFor migration.id t (t.cutOver migration media) :=
  of_updateObjectRow (f := fun row => { row with status := .done, lastError := none }) hid
    (fun _ => rfl) nofun (fun _ => rfl) (fun _ => rfl)
    fun _ => MigrationTables.hasMedia_cutOver

theorem updateMigration {status : StorageMigrationStatus} {summary : MigrationStatusCounts} :
    WritesFor migration.id t (t.updateMigration migration status summary) := by
  refine ⟨?_, fun _ _ => rfl, fun _ h => h, ?_, fun _ h => h, fun _ h => h, fun h => h⟩
  · intro m' hm
    rw [MigrationTables.migrationOf_updateMigration, if_neg hm]
  · intro row hrow
    rw [MigrationTables.migrationOf_updateMigration, if_pos rfl, hrow]
    exact ⟨_, rfl, rfl, rfl⟩

theorem insertObjects (hrows : t.rowsOf m = []) {objects : List MediaObjectId} :
    WritesFor m t { t with objects := t.objects ++ objects.map (.inserted m) } := by
  refine ⟨fun _ _ => rfl, ?_, fun _ h => h, fun row hrow => ⟨row, hrow, rfl, rfl⟩, ?_,
    fun h => absurd hrows h, ?_⟩
  · intro m' hm
    have hnew : (objects.map (MigrationObjectRow.inserted m)).filter
        (·.migrationId == m') = [] := by
      simp [List.filter_eq_nil_iff, MigrationObjectRow.inserted, Ne.symm hm]
    unfold MigrationTables.rowsOf
    rw [List.filter_append, hnew, List.append_nil]
  · rintro id ⟨row, hrow, -⟩
    rw [hrows] at hrow
    cases hrow
  · intro _ row hrow
    have hinserted : ∀ row ∈ ({ t with objects := t.objects ++ objects.map (.inserted m) } :
        MigrationTables).rowsOf m, ∃ id, row = .inserted m id := by
      intro row hrow
      rw [MigrationTables.rowsOf_insertObjects, hrows] at hrow
      obtain ⟨id, -, rfl⟩ := List.mem_map.1 hrow
      exact ⟨id, rfl⟩
    obtain ⟨found, hfound⟩ := MigrationTables.objectOf_of_hasObject ⟨row, hrow, rfl⟩
    obtain ⟨hmem, hid⟩ := MigrationTables.objectOf_mem hfound
    rw [hfound]
    obtain ⟨id, rfl⟩ := hinserted row hrow
    obtain ⟨id', rfl⟩ := hinserted found hmem
    replace hid : id' = id := hid
    rw [hid]

theorem insertMigration (hnew : t.migrationOf migration.id = none) :
    WritesFor migration.id t { t with migrations := t.migrations ++ [migration] } := by
  refine ⟨?_, fun _ _ => rfl, fun _ h => h, ?_, fun _ h => h, fun _ h => h, fun h => h⟩
  · intro m' hm
    unfold MigrationTables.migrationOf
    rw [KeyedTable.get_append, if_neg (Ne.symm hm), Option.or_none]
  · intro row hrow
    rw [hnew] at hrow
    cases hrow

end WritesFor

section Stages

variable {t t' : MigrationTables} {m : MigrationId}

def WorkerStage.Sound (t : MigrationTables) : WorkerStage → Prop
  | .idle => True
  | .begun migration object =>
    t.Records migration ∧ t.HasObject migration.id object.mediaObjectId
  | .reading migration id => t.Records migration ∧ t.HasObject migration.id id
  | .settling migration id settlement =>
    t.Records migration ∧ t.HasObject migration.id id ∧ settlement.status ≠ .pending
  | .fetching migration media | .copying migration media _ | .copied migration media
  | .sized migration media _ | .verified migration media | .rejecting migration media _ =>
    t.Records migration ∧ t.HasObject migration.id media.id ∧ t.HasMedia media.id
  | .checking m => (∃ row, t.migrationOf m = some row) ∧ t.rowsOf m ≠ []
  | .completing migration _ => t.Records migration ∧ t.rowsOf migration.id ≠ [] ∧
      ¬t.AnyOf migration.id .pending

def StarterStage.migration? : StarterStage → Option StorageMigrationRow
  | .idle => none
  | .created migration | .listed migration _ => some migration

def StarterStage.Sound (t : MigrationTables) (stage : StarterStage) : Prop :=
  ∀ migration, stage.migration? = some migration →
    t.migrationOf migration.id = some migration ∧ migration.status = .running ∧
      t.rowsOf migration.id = []

theorem WorkerStage.Sound.writesFor {stage : WorkerStage} (h : stage.Sound t)
    (hwrites : WritesFor m t t') : stage.Sound t' := by
  cases stage with
  | idle => trivial
  | begun | reading => exact ⟨hwrites.records h.1, hwrites.hasObject h.2⟩
  | settling => exact ⟨hwrites.records h.1, hwrites.hasObject h.2.1, h.2.2⟩
  | fetching | copying | copied | sized | verified | rejecting =>
    exact ⟨hwrites.records h.1, hwrites.hasObject h.2.1, hwrites.media _ h.2.2⟩
  | checking m' =>
    obtain ⟨⟨row, hrow⟩, hrows⟩ := h
    obtain ⟨row', hrow', -⟩ := hwrites.records (MigrationTables.records_of_migrationOf hrow)
    rw [MigrationTables.migrationOf_id hrow] at hrow'
    exact ⟨⟨row', hrow'⟩, hwrites.rowsOf_ne_nil hrows⟩
  | completing migration counts =>
    refine ⟨hwrites.records h.1, hwrites.rowsOf_ne_nil h.2.1, fun hpending => ?_⟩
    exact h.2.2 (hwrites.anyOf_pending h.2.1 hpending)

theorem StarterStage.Sound.writesFor {stage : StarterStage} (h : stage.Sound t)
    (hwrites : WritesFor m t t') (hother : ∀ migration, stage.migration? = some migration →
      migration.id ≠ m) : stage.Sound t' := by
  intro migration hmigration
  obtain ⟨hrow, hrunning, hrows⟩ := h migration hmigration
  have hne := hother migration hmigration
  exact ⟨(hwrites.migrations _ hne).trans hrow, hrunning, (hwrites.rows _ hne).trans hrows⟩

end Stages

namespace MigrationSystem

variable {s : MigrationSystem} {call : MigrationCallId} {m : MigrationId}
variable {tables : MigrationTables} {sha256 : Bytes → String}

variable {P : MigrationSystem → Prop}

theorem keeps_proceedCleanup (hcleaner : ∀ {s call stage}, P s → P (s.setCleaner call stage))
    (hstore : ∀ {s backend key body}, P s → P (s.setStore backend key body)) (h : P s) :
    P (s.proceedCleanup call) := by
  unfold proceedCleanup
  split
  · exact h
  · exact hcleaner h
  · exact hcleaner h
  · extract_lets skip
    split_ifs
    · exact hcleaner h
    · split
      · exact hcleaner h
      · split_ifs <;> exact hcleaner h
  · exact hcleaner (hstore h)

theorem keeps_failCleanup (hcleaner : ∀ {s call stage}, P s → P (s.setCleaner call stage)) (h : P s)
    :
    P (s.failCleanup call) := by
  unfold failCleanup
  split <;> exact hcleaner h

/-- What holds along every run. -/
structure Sound (s : MigrationSystem) : Prop where
  workers : ∀ call, (s.worker call).Sound s.tables
  starters : ∀ call, (s.starter call).Sound s.tables
  single : ∀ call call' migration migration', (s.starter call).migration? = some migration →
    (s.starter call').migration? = some migration' → migration.id = migration'.id → call = call'
  rows : ∀ m, s.tables.rowsOf m ≠ [] → ∃ row, s.tables.migrationOf m = some row
  running : ∀ m row, s.tables.migrationOf m = some row → s.tables.AnyOf m .pending →
    row.status = .running
  differ : ∀ m row, s.tables.migrationOf m = some row →
    row.sourceBackendId ≠ row.destinationBackendId
  keyed : ∀ m, s.tables.Keyed m

namespace Sound

variable {stage : WorkerStage} {s' : MigrationSystem} {source destination : BackendId}

theorem setWorker (hs : s.Sound) (hstage : stage.Sound s.tables) :
    (s.setWorker call stage).Sound := by
  refine ⟨fun other => ?_, hs.starters, hs.single, hs.rows, hs.running, hs.differ, hs.keyed⟩
  show WorkerStage.Sound s.tables (if other = call then stage else s.worker other)
  split_ifs
  · exact hstage
  · exact hs.workers other

theorem setStarter (hs : s.Sound) {stage : StarterStage} (hstage : stage.Sound s.tables)
    (halone : ∀ migration, stage.migration? = some migration → ∀ other migration',
      other ≠ call → (s.starter other).migration? = some migration' →
        migration'.id ≠ migration.id) : (s.setStarter call stage).Sound := by
  refine ⟨hs.workers, fun other => ?_, ?_, hs.rows, hs.running, hs.differ, hs.keyed⟩
  · show StarterStage.Sound s.tables (if other = call then stage else s.starter other)
    split_ifs
    · exact hstage
    · exact hs.starters other
  · intro c c' migration migration' h h' hid
    replace h : (if c = call then stage else s.starter c).migration? = some migration := h
    replace h' : (if c' = call then stage else s.starter c').migration? = some migration' := h'
    split_ifs at h h' with hc hc' hc'
    · rw [hc, hc']
    · exact absurd hid.symm (halone migration h c' migration' hc' h')
    · exact absurd hid (halone migration' h' c migration hc h)
    · exact hs.single c c' migration migration' h h' hid

theorem setStore {backend : BackendId} {key : StorageKey} {body : Option Bytes} (hs : s.Sound) :
    (s.setStore backend key body).Sound :=
  ⟨hs.workers, hs.starters, hs.single, hs.rows, hs.running, hs.differ, hs.keyed⟩

theorem setStarter_idle (hs : s.Sound) : (s.setStarter call .idle).Sound :=
  hs.setStarter nofun nofun

theorem setTables (hs : s.Sound) (hwrites : WritesFor m s.tables tables)
    (hother : ∀ call migration, (s.starter call).migration? = some migration → migration.id ≠ m)
    (hrow : ∃ row, tables.migrationOf m = some row)
    (hrunning : ∀ row, tables.migrationOf m = some row → tables.AnyOf m .pending →
      row.status = .running)
    (hdiffer : ∀ row, tables.migrationOf m = some row →
      row.sourceBackendId ≠ row.destinationBackendId) : Sound { s with tables } := by
  refine ⟨fun call => (hs.workers call).writesFor hwrites,
    fun call => (hs.starters call).writesFor hwrites (hother call), hs.single, ?_, ?_, ?_, ?_⟩
  · intro m' hrows
    by_cases hm : m' = m
    · rw [hm]
      exact hrow
    · rw [hwrites.rows m' hm] at hrows
      rw [hwrites.migrations m' hm]
      exact hs.rows m' hrows
  · intro m' row hrow' hpending
    by_cases hm : m' = m
    · rw [hm] at hrow' hpending
      exact hrunning row hrow' hpending
    · unfold MigrationTables.AnyOf at hpending
      rw [hwrites.rows m' hm] at hpending
      rw [hwrites.migrations m' hm] at hrow'
      exact hs.running m' row hrow' hpending
  · intro m' row hrow'
    by_cases hm : m' = m
    · rw [hm] at hrow'
      exact hdiffer row hrow'
    · rw [hwrites.migrations m' hm] at hrow'
      exact hs.differ m' row hrow'
  · intro m'
    by_cases hm : m' = m
    · rw [hm]
      exact hwrites.keyed (hs.keyed m)
    · unfold MigrationTables.Keyed
      rw [hwrites.rows m' hm]
      intro row hrow
      rw [MigrationTables.objectOf_congr (hwrites.rows m' hm)]
      exact hs.keyed m' row hrow

theorem setTables_worker (hs : s.Sound) (hwrites : WritesFor m s.tables tables)
    (hrows : s.tables.rowsOf m ≠ [])
    (hrunning : ∀ row, tables.migrationOf m = some row → tables.AnyOf m .pending →
      row.status = .running) : Sound { s with tables } := by
  obtain ⟨old, hold⟩ := hs.rows m hrows
  obtain ⟨row, hrow, hsource, hdestination⟩ := hwrites.migration old hold
  refine hs.setTables hwrites ?_ ⟨row, hrow⟩ hrunning ?_
  · rintro call migration hmigration rfl
    exact hrows (hs.starters call migration hmigration).2.2
  · intro row' hrow'
    rw [hrow] at hrow'
    rw [← Option.some.inj hrow', hsource, hdestination]
    exact hs.differ m old hold

theorem setTables_rows (hs : s.Sound) (hwrites : WritesFor m s.tables tables)
    (hrows : s.tables.rowsOf m ≠ []) (hsame : tables.migrationOf m = s.tables.migrationOf m) :
    Sound { s with tables } := by
  refine hs.setTables_worker hwrites hrows fun row hrow hpending => ?_
  rw [hsame] at hrow
  exact hs.running m row hrow (hwrites.anyOf_pending hrows hpending)

theorem rowsOf_ne_nil {id : MediaObjectId} (h : s.tables.HasObject m id) :
    s.tables.rowsOf m ≠ [] := by
  obtain ⟨row, hrow, -⟩ := h
  exact List.ne_nil_of_mem hrow

theorem readMedia_sound {migration : StorageMigrationRow} {id : MediaObjectId}
    (h : (WorkerStage.reading migration id).Sound s.tables) :
    (s.readMedia migration id).Sound s.tables := by
  unfold readMedia
  rcases hmedia : s.tables.mediaOf id with _ | media
  · exact ⟨h.1, h.2, nofun⟩
  · have hid : media.id = id := KeyedTable.get_key hmedia
    dsimp only
    split_ifs
    · exact ⟨h.1, h.2, nofun⟩
    · exact ⟨h.1, h.2, nofun⟩
    · refine ⟨h.1, hid ▸ h.2, ?_⟩
      unfold MigrationTables.HasMedia
      rw [hid, hmedia]
      rfl

theorem beginObject_sound {id : MediaObjectId} (h : s.beginObject m id = .ok stage)
    : stage.Sound s.tables := by
  unfold beginObject at h
  obtain ⟨migration, hmigration, h⟩ := Except.bind_eq_ok.1 h
  rw [MigrationTables.getMigration_eq_ok] at hmigration
  split at h
  next => cases h
  next object hobject =>
    split_ifs at h
    · rw [← Except.pure_eq_ok.1 h]
      trivial
    · rw [← Except.pure_eq_ok.1 h]
      refine ⟨MigrationTables.records_of_migrationOf hmigration, ?_⟩
      rw [MigrationTables.migrationOf_id hmigration, (MigrationTables.objectOf_mem hobject).2]
      exact MigrationTables.hasObject_of_objectOf hobject

theorem compare_sound {migration : StorageMigrationRow} {media : MediaObjectRow} {sizeBytes : ℕ}
    {body : Bytes} (h : (WorkerStage.sized migration media sizeBytes).Sound s.tables) :
    (compare sha256 migration media sizeBytes body).Sound s.tables := by
  unfold compare
  split_ifs <;> exact h

theorem settled (hs : s.Sound) {migration : StorageMigrationRow} {id : MediaObjectId}
    (hrecords : s.tables.Records migration) (hid : s.tables.HasObject migration.id id)
    (hwrites : WritesFor migration.id s.tables tables)
    (hsame : tables.migrationOf migration.id = s.tables.migrationOf migration.id) :
    ({ s with tables }.setWorker call (.checking migration.id)).Sound := by
  have hrows := rowsOf_ne_nil hid
  refine (hs.setTables_rows hwrites hrows hsame).setWorker ?_
  obtain ⟨row, hrow, -⟩ := hwrites.records hrecords
  exact ⟨⟨row, hrow⟩, hwrites.rowsOf_ne_nil hrows⟩

theorem proceedObject (hs : s.Sound) : (s.proceedObject sha256 call).Sound := by
  have hstage := hs.workers call
  unfold MigrationSystem.proceedObject
  split
  next => exact hs
  next migration object hcall =>
    rw [hcall] at hstage
    have hwrites : WritesFor migration.id s.tables (s.tables.updateObjectRow migration.id
        object.mediaObjectId fun row => { row with attemptCount := object.attemptCount + 1 }) :=
      .updateObjectRow hstage.2 (fun _ => rfl) fun _ h => h
    refine (hs.setTables_rows hwrites (rowsOf_ne_nil hstage.2) rfl).setWorker ?_
    exact ⟨hwrites.records hstage.1, hwrites.hasObject hstage.2⟩
  next migration id hcall =>
    rw [hcall] at hstage
    exact hs.setWorker (readMedia_sound hstage)
  next migration id settlement hcall =>
    rw [hcall] at hstage
    exact hs.settled hstage.1 hstage.2.1 (.settle hstage.2.1 hstage.2.2) rfl
  next migration media hcall =>
    rw [hcall] at hstage
    split
    · exact hs.setWorker hstage
    · exact hs.setWorker trivial
  next migration media body hcall =>
    rw [hcall] at hstage
    exact hs.setStore.setWorker hstage
  next migration media hcall =>
    rw [hcall] at hstage
    split
    · exact hs.setWorker hstage
    · exact hs.setWorker trivial
  next migration media sizeBytes hcall =>
    rw [hcall] at hstage
    split
    · exact hs.setWorker (compare_sound hstage)
    · exact hs.setWorker trivial
  next migration media hcall =>
    rw [hcall] at hstage
    exact hs.settled hstage.1 hstage.2.1 (.cutOver hstage.2.1) rfl
  next migration media detail hcall =>
    rw [hcall] at hstage
    exact hs.setStore.setWorker ⟨hstage.1, hstage.2.1, nofun⟩
  next m hcall =>
    rw [hcall] at hstage
    split
    next migration hmigration =>
      rw [MigrationTables.getMigration_eq_ok] at hmigration
      have hid := MigrationTables.migrationOf_id hmigration
      refine hs.setWorker ?_
      split_ifs with hpending
      · trivial
      · rw [MigrationTables.pending_pos] at hpending
        refine ⟨MigrationTables.records_of_migrationOf hmigration, ?_⟩
        rw [hid]
        exact ⟨hstage.2, hpending⟩
    next => exact hs.setWorker trivial
  next migration counts hcall =>
    rw [hcall] at hstage
    refine Sound.setWorker ?_ trivial
    refine hs.setTables_worker .updateMigration hstage.2.1 fun row hrow hpending => ?_
    exact absurd hpending hstage.2.2

theorem failObject (hs : s.Sound) : (s.failObject call).Sound := by
  have hstage := hs.workers call
  unfold MigrationSystem.failObject
  split
  next migration media detail hcall =>
    rw [hcall] at hstage
    exact hs.setWorker ⟨hstage.1, hstage.2.1, nofun⟩
  next => exact hs.setWorker trivial

theorem other_of_single (hs : s.Sound) {migration : StorageMigrationRow}
    (hcall : (s.starter call).migration? = some migration) (other : MigrationCallId)
    (migration' : StorageMigrationRow)
    (hother : ((s.setStarter call .idle).starter other).migration? = some migration') :
    migration'.id ≠ migration.id := by
  replace hother : (if other = call then StarterStage.idle else s.starter other).migration? =
    some migration' := hother
  split_ifs at hother with hsame
  · cases hother
  · exact fun hid => hsame (hs.single other call migration' migration hother hcall hid)

theorem proceedStart (hs : s.Sound) : (s.proceedStart call).Sound := by
  have hstage := hs.starters call
  unfold MigrationSystem.proceedStart
  split
  next => exact hs
  next migration hcall =>
    rw [hcall] at hstage
    have hmigration : (s.starter call).migration? = some migration := by rw [hcall]; rfl
    refine hs.setStarter hstage ?_
    rintro _ hnew other migration' hne hother hid
    rw [← Option.some.inj hnew] at hid
    exact hne (hs.single other call migration' migration hother hmigration hid)
  next migration hcall =>
    have hmigration : (s.starter call).migration? = some migration := by rw [hcall]; rfl
    obtain ⟨hrow, -, hrows⟩ := hstage migration hmigration
    have hafter : (s.tables.updateMigration migration .completed ⟨0, 0, 0, 0, 0⟩).migrationOf
        migration.id = some { migration with
          status := .completed, summary := some ⟨0, 0, 0, 0, 0⟩ } := by
      rw [MigrationTables.migrationOf_updateMigration, if_pos rfl, hrow]
      rfl
    have hidle : (s.setStarter call .idle).Sound := hs.setStarter_idle
    refine hidle.setTables .updateMigration (hs.other_of_single hmigration) ⟨_, hafter⟩ ?_ ?_
    · rintro row - ⟨object, hobject, -⟩
      replace hobject : object ∈ s.tables.rowsOf migration.id := hobject
      rw [hrows] at hobject
      cases hobject
    · intro row hrow'
      rw [hafter] at hrow'
      rw [← Option.some.inj hrow']
      exact hs.differ migration.id migration hrow
  next migration objects hempty hcall =>
    have hmigration : (s.starter call).migration? = some migration := by rw [hcall]; rfl
    obtain ⟨hrow, hrunning, hrows⟩ := hstage migration hmigration
    have hidle : (s.setStarter call .idle).Sound := hs.setStarter_idle
    refine hidle.setTables (.insertObjects hrows) (hs.other_of_single hmigration)
      ⟨migration, hrow⟩ ?_ ?_
    · intro row hrow' _
      replace hrow' : s.tables.migrationOf migration.id = some row := hrow'
      rw [hrow] at hrow'
      rw [← Option.some.inj hrow']
      exact hrunning
    · intro row hrow'
      exact hs.differ migration.id row hrow'

theorem start_eq_ok {id : MigrationId} (h : s.start call id source destination = .ok s')
    : ∃ migration : StorageMigrationRow,
      migration.id = id ∧ migration.status = .running ∧
      migration.sourceBackendId ≠ migration.destinationBackendId ∧
      s.tables.migrationOf id = none ∧
      s' = { s with tables := { s.tables with
          migrations := s.tables.migrations ++ [migration] } }.setStarter call
            (.created migration) := by
  unfold MigrationSystem.start at h
  obtain ⟨_, hdiffer, h⟩ := Except.bind_eq_ok.1 h
  obtain ⟨_, -, h⟩ := Except.bind_eq_ok.1 h
  obtain ⟨_, -, h⟩ := Except.bind_eq_ok.1 h
  obtain ⟨_, hnew, h⟩ := Except.bind_eq_ok.1 h
  refine ⟨⟨id, source, destination, .running, none⟩, rfl, rfl, Except.require_eq_ok.1 hdiffer,
    Except.require_eq_ok.1 hnew, ?_⟩
  exact (Except.pure_eq_ok.1 h).symm

theorem start {id : MigrationId} (hs : s.Sound) (h : s.start call id source destination = .ok s')
    : s'.Sound := by
  obtain ⟨migration, rfl, hrunning, hdiffer, hnew, rfl⟩ := start_eq_ok h
  have hother : ∀ call migration', (s.starter call).migration? = some migration' →
      migration'.id ≠ migration.id := by
    intro call migration' hmigration hid
    have hrow := (hs.starters call migration' hmigration).1
    rw [hid, hnew] at hrow
    cases hrow
  have hafter : ({ s.tables with migrations := s.tables.migrations ++ [migration] } :
      MigrationTables).migrationOf migration.id = some migration := by
    unfold MigrationTables.migrationOf at hnew ⊢
    rw [KeyedTable.get_append, hnew, if_pos rfl]
    rfl
  have hrows : s.tables.rowsOf migration.id = [] := by
    by_contra hrows
    obtain ⟨row, hrow⟩ := hs.rows migration.id hrows
    rw [hnew] at hrow
    cases hrow
  have htables := hs.setTables (.insertMigration hnew) hother ⟨migration, hafter⟩
    (fun row hrow _ => by
      rw [hafter] at hrow
      rw [← Option.some.inj hrow]
      exact hrunning)
    (fun row hrow => by
      rw [hafter] at hrow
      rw [← Option.some.inj hrow]
      exact hdiffer)
  refine htables.setStarter ?_ ?_
  · rintro _ hnew'
    rw [← Option.some.inj hnew']
    exact ⟨hafter, hrunning, hrows⟩
  · rintro _ hnew' other migration' - hmigration
    rw [← Option.some.inj hnew']
    exact hother other migration' hmigration

theorem setCleaner {stage : CleanupStage} (hs : s.Sound) : (s.setCleaner call stage).Sound :=
  ⟨hs.workers, hs.starters, hs.single, hs.rows, hs.running, hs.differ, hs.keyed⟩

theorem step (hs : s.Sound) (action : MigrationAction) : (s.step sha256 action).Sound := by
  cases action with
  | startMigration call id source destination =>
    simp only [MigrationSystem.step]
    split
    next hstart => exact hs.start hstart
    next => exact hs
  | proceedStart call => exact hs.proceedStart
  | crashStart call => exact hs.setStarter_idle
  | migrateObject call m id =>
    simp only [MigrationSystem.step]
    split
    next hbegin => exact hs.setWorker (beginObject_sound hbegin)
    next => exact hs
  | proceedObject call => exact hs.proceedObject
  | failObject call => exact hs.failObject
  | crashObject call => exact hs.setWorker trivial
  | cleanup call m =>
    simp only [MigrationSystem.step]
    split
    · exact hs.setCleaner
    · exact hs
  | proceedCleanup call => exact keeps_proceedCleanup setCleaner setStore hs
  | failCleanup call => exact keeps_failCleanup setCleaner hs
  | crashCleanup call => exact hs.setCleaner

end Sound

end MigrationSystem

end Loxep

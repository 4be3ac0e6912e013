import Loxep.Proofs.MigrationStatus

/-!
# Resuming a migration

What is left of a migration is resumed object by object, and what has failed is retried. Where the
source still holds what is recorded, each of these calls ends with its object settled and the
verdict stored, so that the last of them completes the migration.
-/

namespace Loxep

namespace MigrationTables

variable (t : MigrationTables) (m : MigrationId)

def Unsettled (id : MediaObjectId) : Prop :=
  ∃ row ∈ t.rowsOf m, row.mediaObjectId = id ∧ (row.status = .pending ∨ row.status = .failed)

/-- The objects that `resumeMigration` enqueues. -/
def resumed : List MediaObjectId :=
  ((t.rowsOf m).filter (·.status == .pending)).map (·.mediaObjectId)

def retried : List MediaObjectId :=
  ((t.rowsOf m).filter (·.status == .failed)).map (·.mediaObjectId)

end MigrationTables

def MigrationAction.call : MigrationAction → MigrationCallId
  | .startMigration call _ _ _ | .proceedStart call | .crashStart call | .migrateObject call _ _
  | .proceedObject call | .failObject call | .crashObject call | .cleanup call _
  | .proceedCleanup call | .failCleanup call | .crashCleanup call => call

namespace MigrationSystem

def Healthy (sha256 : Bytes → String) (m : MigrationId) (s : MigrationSystem) : Prop :=
  ∀ migration id media, s.tables.migrationOf m = some migration → s.tables.Unsettled m id →
    s.tables.mediaOf id = some media → media.storageBackendId = migration.sourceBackendId →
      s.holds sha256 migration.sourceBackendId media = true

def objectRun (m : MigrationId) (id : MediaObjectId) : List MigrationAction :=
  .migrateObject 0 m id :: List.replicate 9 (.proceedObject 0)

def recovery (t : MigrationTables) (m : MigrationId) : List MigrationAction :=
  (t.resumed m ++ t.retried m).flatMap (objectRun m)

def Recovers (sha256 : Bytes → String) (m : MigrationId) (s : MigrationSystem) : Prop :=
  s.Healthy sha256 m → ∀ migration, s.tables.migrationOf m = some migration →
    ∃ final, (Runs.run (step · sha256) s (recovery s.tables m)).tables.migrationOf m = some final ∧
      final.status = .completed

end MigrationSystem

def WorkerStage.Mends (sha256 : Bytes → String) (m : MigrationId) (id : MediaObjectId)
    (s : MigrationSystem) : WorkerStage → Prop
  | .idle => ¬s.tables.Unsettled m id
  | .begun migration object =>
    migration.id = m ∧ object.mediaObjectId = id ∧ s.tables.Unsettled m id
  | .reading migration i => migration.id = m ∧ i = id ∧ s.tables.Unsettled m id
  | .settling migration i settlement => migration.id = m ∧ i = id ∧
      (settlement.status = .done ∨ settlement.status = .skipped) ∧
      (settlement.status = .done ↔ s.tables.OnBackend id migration.destinationBackendId)
  | .fetching migration media => migration.id = m ∧ s.tables.mediaOf id = some media ∧
      s.holds sha256 migration.sourceBackendId media = true
  | .copying migration media body => migration.id = m ∧ s.tables.mediaOf id = some media ∧
      media.records sha256 body = true
  | .copied migration media => migration.id = m ∧ s.tables.mediaOf id = some media ∧
      s.holds sha256 migration.destinationBackendId media = true
  | .sized migration media sizeBytes => migration.id = m ∧ s.tables.mediaOf id = some media ∧
      s.holds sha256 migration.destinationBackendId media = true ∧ sizeBytes = media.sizeBytes
  | .verified migration media => migration.id = m ∧ s.tables.mediaOf id = some media
  | .rejecting _ _ _ => False
  | .checking m' => m' = m ∧ ¬s.tables.Unsettled m id
  | .completing migration counts => migration.id = m ∧ ¬s.tables.Unsettled m id ∧
      counts = s.tables.countsFor m

def WorkerStage.left : WorkerStage → ℕ
  | .idle => 0
  | .completing _ _ => 1
  | .checking _ => 2
  | .settling _ _ _ | .verified _ _ | .rejecting _ _ _ => 3
  | .sized _ _ _ => 4
  | .copied _ _ => 5
  | .copying _ _ _ => 6
  | .fetching _ _ => 7
  | .reading _ _ => 8
  | .begun _ _ => 9

theorem WorkerStage.left_le (stage : WorkerStage) : stage.left ≤ 9 := by
  cases stage <;> simp [left]

theorem WorkerStage.eq_idle_of_left {stage : WorkerStage} (h : stage.left = 0) :
    stage = .idle := by
  cases stage <;> simp [left] at h ⊢

namespace MigrationSystem

/-- Nothing more is left, and what is left is where it was. -/
structure Spares (m : MigrationId) (s s' : MigrationSystem) : Prop where
  migration : ∀ row, s.tables.migrationOf m = some row → ∃ row',
    s'.tables.migrationOf m = some row' ∧ row'.sourceBackendId = row.sourceBackendId
  left : ∀ id, s'.tables.Unsettled m id → s.tables.Unsettled m id
  media : ∀ id, s'.tables.Unsettled m id → s'.tables.mediaOf id = s.tables.mediaOf id
  store : ∀ row key, s.tables.migrationOf m = some row →
    s'.store row.sourceBackendId key = s.store row.sourceBackendId key

/-- Nobody else is at work, and these objects are left. -/
structure Mending (sha256 : Bytes → String) (m : MigrationId) (items : List MediaObjectId)
    (s : MigrationSystem) : Prop where
  sound : s.Sound
  truth : s.Truth m
  healthy : s.Healthy sha256 m
  starters : ∀ call, s.starter call = .idle
  workers : ∀ call, call ≠ 0 → s.worker call = .idle
  migration : ∃ row, s.tables.migrationOf m = some row
  left : ∀ id, s.tables.Unsettled m id → id ∈ items

end MigrationSystem

namespace MigrationTables

variable {t : MigrationTables} {m : MigrationId} {id other : MediaObjectId}
variable {f : MigrationObjectRow → MigrationObjectRow}

theorem unsettled_updateObjectRow (hid : t.HasObject m id) (hkey : ∀ row, (f row).key = row.key) :
    (t.updateObjectRow m id f).Unsettled m other ↔
      ∃ row ∈ t.rowsOf m, row.mediaObjectId = other ∧
        ((if other = id then f row else row).status = .pending ∨
          (if other = id then f row else row).status = .failed) := by
  have hid' : ∀ row, (if row.mediaObjectId = id then f row else row).mediaObjectId =
      row.mediaObjectId := by
    intro row
    split_ifs
    · exact congrArg Prod.snd (hkey row)
    · rfl
  unfold Unsettled
  rw [rowsOf_updateObjectRow hid hkey, if_pos rfl]
  simp only [List.mem_map, exists_exists_and_eq_and, hid']
  refine exists_congr fun row => and_congr_right fun _ => and_congr_right fun hother => ?_
  rw [hother]

theorem unsettled_updateObjectRow_of_same (hid : t.HasObject m id)
    (hkey : ∀ row, (f row).key = row.key) (hsame : ∀ row, (f row).status = row.status) :
    (t.updateObjectRow m id f).Unsettled m other ↔ t.Unsettled m other := by
  have hstatus : ∀ row, (if other = id then f row else row).status = row.status := by
    intro row
    split_ifs
    · exact hsame row
    · rfl
  rw [unsettled_updateObjectRow hid hkey]
  simp only [hstatus]
  rfl

theorem unsettled_updateObjectRow_of_settled (hid : t.HasObject m id)
    (hkey : ∀ row, (f row).key = row.key)
    (hsettled : ∀ row, (f row).status = .done ∨ (f row).status = .skipped) :
    (t.updateObjectRow m id f).Unsettled m other ↔ other ≠ id ∧ t.Unsettled m other := by
  rw [unsettled_updateObjectRow hid hkey]
  by_cases hother : other = id
  · simp only [if_pos hother]
    refine iff_of_false ?_ fun h => h.1 hother
    rintro ⟨row, -, -, hstatus⟩
    rcases hsettled row with h | h <;> simp [h] at hstatus
  · simp only [if_neg hother]
    exact (and_iff_right hother).symm

theorem unsettled_iff : t.Unsettled m id ↔ id ∈ t.resumed m ++ t.retried m := by
  unfold Unsettled resumed retried
  rw [List.mem_append, List.mem_map, List.mem_map]
  simp only [List.mem_filter, beq_iff_eq]
  rw [← exists_or]
  refine exists_congr fun row => ?_
  tauto

end MigrationTables

namespace MigrationSystem

variable {s s' t : MigrationSystem} {m : MigrationId} {id : MediaObjectId}
variable {call : MigrationCallId} {items : List MediaObjectId} {sha256 : Bytes → String}
variable {stage : WorkerStage} {migration : StorageMigrationRow} {media : MediaObjectRow}

theorem holds_iff {backend : BackendId} : s.holds sha256 backend media = true ↔
    ∃ body, s.store backend media.storageKey = some body ∧ media.records sha256 body = true := by
  unfold holds
  rw [Option.any_eq_true]

theorem records_iff {body : Bytes} : media.records sha256 body = true ↔
    body.length = media.sizeBytes ∧ sha256 body = media.sha256 := by
  unfold MediaObjectRow.records
  rw [Bool.and_eq_true, beq_iff_eq, beq_iff_eq]

namespace Spares

theorem of_eq (htables : t.tables = s.tables) (hstore : t.store = s.store) : Spares m s t := by
  refine ⟨fun row hrow => ⟨row, ?_, rfl⟩, fun id hleft => ?_, fun id _ => ?_, fun _ _ _ => ?_⟩
  · rw [htables]
    exact hrow
  · rw [htables] at hleft
    exact hleft
  · rw [htables]
  · rw [hstore]

theorem healthy (h : Spares m s t) (hmigration : ∃ row, s.tables.migrationOf m = some row)
    (hs : s.Healthy sha256 m) : t.Healthy sha256 m := by
  intro migration id media hrow' hleft hmedia hbackend
  obtain ⟨row, hrow⟩ := hmigration
  obtain ⟨row', hrow'', hsource⟩ := h.migration row hrow
  rw [hrow'] at hrow''
  obtain rfl := Option.some.inj hrow''
  rw [h.media id hleft] at hmedia
  have hold := hs row id media hrow (h.left id hleft) hmedia (hbackend.trans hsource)
  unfold holds at hold ⊢
  rw [hsource, h.store row media.storageKey hrow]
  exact hold

theorem setStore (hs : s.Sound) (hrecords : s.tables.Records migration) (hid : migration.id = m)
    {key : StorageKey} {body : Option Bytes} :
    Spares m s (s.setStore migration.destinationBackendId key body) := by
  refine ⟨fun row hrow => ⟨row, hrow, rfl⟩, fun _ h => h, fun _ _ => rfl, fun row key' hrow => ?_⟩
  obtain ⟨row', hrow', -, hdestination⟩ := hrecords
  rw [hid, hrow] at hrow'
  obtain rfl := Option.some.inj hrow'
  show (if row.sourceBackendId = migration.destinationBackendId ∧ key' = key then body
    else s.store row.sourceBackendId key') = _
  rw [← hdestination, if_neg fun hsame => hs.differ m row hrow hsame.1]

end Spares

structure Advances (sha256 : Bytes → String) (m : MigrationId) (id : MediaObjectId)
    (s s' : MigrationSystem) : Prop where
  spares : Spares m s s'
  stage : (s'.worker 0).Mends sha256 m id s'
  left : (s'.worker 0).left ≤ (s.worker 0).left - 1

theorem setWorker_mends (h : stage.Mends sha256 m id s) :
    ((s.setWorker 0 stage).worker 0).Mends sha256 m id (s.setWorker 0 stage) := by
  show (if 0 = 0 then stage else s.worker 0).Mends sha256 m id (s.setWorker 0 stage)
  rw [if_pos rfl]
  cases stage <;> exact h

theorem readMedia_mends {i : MediaObjectId} (hhealthy : s.Healthy sha256 m)
    (hrecords : s.tables.Records migration)
    (hstage : (WorkerStage.reading migration i).Mends sha256 m id s) :
    (s.readMedia migration i).Mends sha256 m id s ∧ (s.readMedia migration i).left ≤ 7 := by
  obtain ⟨row, hrow, hsource, -⟩ := hrecords
  obtain ⟨rfl, rfl, hleft⟩ := hstage
  unfold readMedia
  rcases hmedia : s.tables.mediaOf i with _ | media
  · refine ⟨⟨rfl, rfl, Or.inr rfl, iff_of_false nofun ?_⟩, by simp [WorkerStage.left]⟩
    rintro ⟨media, hmedia', -⟩
    rw [hmedia] at hmedia'
    cases hmedia'
  · dsimp only
    split_ifs with hdestination hother
    · refine ⟨⟨rfl, rfl, Or.inl rfl, iff_of_true rfl ?_⟩, by simp [WorkerStage.left]⟩
      exact ⟨media, hmedia, hdestination⟩
    · refine ⟨⟨rfl, rfl, Or.inr rfl, iff_of_false nofun ?_⟩, by simp [WorkerStage.left]⟩
      rintro ⟨media', hmedia', hdestination'⟩
      rw [hmedia] at hmedia'
      obtain rfl := Option.some.inj hmedia'
      exact hdestination hdestination'
    · have hbackend : media.storageBackendId = migration.sourceBackendId := by
        by_contra h
        exact hother h
      have hholds := hhealthy row i media hrow hleft hmedia (hbackend.trans hsource.symm)
      rw [hsource] at hholds
      exact ⟨⟨rfl, hmedia, hholds⟩, Nat.le_refl _⟩

namespace Advances

theorem setWorker {old : WorkerStage} (hcall : s.worker 0 = old) (hspares : Spares m s t)
    (hstage : stage.Mends sha256 m id t) (hleft : stage.left ≤ old.left - 1) :
    Advances sha256 m id s (t.setWorker 0 stage) := by
  refine ⟨⟨hspares.migration, hspares.left, hspares.media, hspares.store⟩,
    setWorker_mends hstage, ?_⟩
  show (if 0 = 0 then stage else t.worker 0).left ≤ (s.worker 0).left - 1
  rw [if_pos rfl, hcall]
  exact hleft

theorem begun {object : MigrationObjectRow} (hcall : s.worker 0 = .begun migration object)
    (hsound : (WorkerStage.begun migration object).Sound s.tables)
    (hstage : (WorkerStage.begun migration object).Mends sha256 m id s) :
    Advances sha256 m id s (s.proceedObject sha256 0) := by
  obtain ⟨rfl, rfl, hleft⟩ := hstage
  have hsame : ∀ other, (s.tables.updateObjectRow migration.id object.mediaObjectId fun row =>
      { row with attemptCount := object.attemptCount + 1 }).Unsettled migration.id other ↔
        s.tables.Unsettled migration.id other := by
    intro other
    exact MigrationTables.unsettled_updateObjectRow_of_same hsound.2 (fun _ => rfl) fun _ => rfl
  unfold MigrationSystem.proceedObject
  rw [hcall]
  exact setWorker hcall ⟨fun row hrow => ⟨row, hrow, rfl⟩, fun other => (hsame other).1,
    fun _ _ => rfl, fun _ _ _ => rfl⟩ ⟨rfl, rfl, (hsame _).2 hleft⟩ (Nat.le_refl _)

variable {i : MediaObjectId}

theorem reading (hhealthy : s.Healthy sha256 m) (hcall : s.worker 0 = .reading migration i)
    (hsound : (WorkerStage.reading migration i).Sound s.tables)
    (hstage : (WorkerStage.reading migration i).Mends sha256 m id s) :
    Advances sha256 m id s (s.proceedObject sha256 0) := by
  have hnext := readMedia_mends hhealthy hsound.1 hstage
  unfold MigrationSystem.proceedObject
  rw [hcall]
  exact setWorker hcall (.of_eq rfl rfl) hnext.1 hnext.2

theorem fetching (hcall : s.worker 0 = .fetching migration media)
    (hstage : (WorkerStage.fetching migration media).Mends sha256 m id s) :
    Advances sha256 m id s (s.proceedObject sha256 0) := by
  obtain ⟨hid, hmedia, hholds⟩ := hstage
  obtain ⟨body, hbody, hrecords⟩ := holds_iff.1 hholds
  unfold MigrationSystem.proceedObject
  rw [hcall]
  dsimp only
  rw [hbody]
  exact setWorker hcall (.of_eq rfl rfl) ⟨hid, hmedia, hrecords⟩ (Nat.le_refl _)

theorem copying {body : Bytes} (hs : s.Sound) (hcall : s.worker 0 = .copying migration media body)
    (hsound : (WorkerStage.copying migration media body).Sound s.tables)
    (hstage : (WorkerStage.copying migration media body).Mends sha256 m id s) :
    Advances sha256 m id s (s.proceedObject sha256 0) := by
  obtain ⟨hid, hmedia, hrecords⟩ := hstage
  unfold MigrationSystem.proceedObject
  rw [hcall]
  have hholds : (s.setStore migration.destinationBackendId media.storageKey (some body)).holds
      sha256 migration.destinationBackendId media = true :=
    holds_iff.2 ⟨body, if_pos ⟨rfl, rfl⟩, hrecords⟩
  exact setWorker hcall (.setStore hs hsound.1 hid) ⟨hid, hmedia, hholds⟩ (Nat.le_refl _)

theorem copied (hcall : s.worker 0 = .copied migration media)
    (hstage : (WorkerStage.copied migration media).Mends sha256 m id s) :
    Advances sha256 m id s (s.proceedObject sha256 0) := by
  obtain ⟨hid, hmedia, hholds⟩ := hstage
  obtain ⟨body, hbody, hrecords⟩ := holds_iff.1 hholds
  unfold MigrationSystem.proceedObject
  rw [hcall]
  dsimp only
  rw [hbody]
  have hsize := (records_iff.1 hrecords).1
  exact setWorker hcall (.of_eq rfl rfl) ⟨hid, hmedia, hholds, hsize⟩ (Nat.le_refl _)

theorem sized {sizeBytes : ℕ} (hcall : s.worker 0 = .sized migration media sizeBytes)
    (hstage : (WorkerStage.sized migration media sizeBytes).Mends sha256 m id s) :
    Advances sha256 m id s (s.proceedObject sha256 0) := by
  obtain ⟨hid, hmedia, hholds, rfl⟩ := hstage
  obtain ⟨body, hbody, hrecords⟩ := holds_iff.1 hholds
  unfold MigrationSystem.proceedObject
  rw [hcall]
  dsimp only
  rw [hbody]
  dsimp only
  rw [compare_of_sameObject ⟨rfl, rfl, rfl, rfl⟩ hrecords]
  exact setWorker hcall (.of_eq rfl rfl) ⟨hid, hmedia⟩ (Nat.le_refl _)

theorem settling {settlement : Settlement} (hcall : s.worker 0 = .settling migration i settlement)
    (hsound : (WorkerStage.settling migration i settlement).Sound s.tables)
    (hstage : (WorkerStage.settling migration i settlement).Mends sha256 m id s) :
    Advances sha256 m id s (s.proceedObject sha256 0) := by
  obtain ⟨rfl, rfl, hsettled, -⟩ := hstage
  have hleft : ∀ other, (s.tables.settle migration.id i settlement).Unsettled migration.id other ↔
      other ≠ i ∧ s.tables.Unsettled migration.id other := fun _ =>
    MigrationTables.unsettled_updateObjectRow_of_settled hsound.2.1 (fun _ => rfl) fun _ => hsettled
  unfold MigrationSystem.proceedObject
  rw [hcall]
  exact setWorker hcall ⟨fun row hrow => ⟨row, hrow, rfl⟩, fun other h => ((hleft other).1 h).2,
    fun _ _ => rfl, fun _ _ _ => rfl⟩ ⟨rfl, fun h => ((hleft i).1 h).1 rfl⟩ (Nat.le_refl _)

theorem verified (hcall : s.worker 0 = .verified migration media)
    (hsound : (WorkerStage.verified migration media).Sound s.tables)
    (hstage : (WorkerStage.verified migration media).Mends sha256 m id s) :
    Advances sha256 m id s (s.proceedObject sha256 0) := by
  obtain ⟨rfl, hmedia⟩ := hstage
  obtain rfl := MigrationTables.mediaOf_id hmedia
  have hleft : ∀ other, (s.tables.cutOver migration media).Unsettled migration.id other ↔
      other ≠ media.id ∧ s.tables.Unsettled migration.id other := fun _ =>
    MigrationTables.unsettled_updateObjectRow_of_settled
      (f := fun row => { row with status := .done, lastError := none }) hsound.2.1
      (fun _ => rfl) fun _ => Or.inl rfl
  have helsewhere : ∀ other, other ≠ media.id →
      (s.tables.cutOver migration media).mediaOf other = s.tables.mediaOf other := by
    intro other hother
    rw [MigrationTables.mediaOf_cutOver, if_neg hother]
  unfold MigrationSystem.proceedObject
  rw [hcall]
  exact setWorker hcall ⟨fun row hrow => ⟨row, hrow, rfl⟩, fun other h => ((hleft other).1 h).2,
    fun other h => helsewhere other ((hleft other).1 h).1, fun _ _ _ => rfl⟩
    ⟨rfl, fun h => ((hleft media.id).1 h).1 rfl⟩ (Nat.le_refl _)

theorem checking {m' : MigrationId} (hcall : s.worker 0 = .checking m')
    (hsound : (WorkerStage.checking m').Sound s.tables)
    (hstage : (WorkerStage.checking m').Mends sha256 m id s) :
    Advances sha256 m id s (s.proceedObject sha256 0) := by
  obtain ⟨⟨migration, hmigration⟩, -⟩ := hsound
  obtain ⟨rfl, hsettled⟩ := hstage
  unfold MigrationSystem.proceedObject
  rw [hcall]
  dsimp only
  rw [MigrationTables.getMigration_eq_ok.2 hmigration]
  dsimp only
  refine setWorker hcall (.of_eq rfl rfl) ?_ ?_
  · split_ifs
    · exact hsettled
    · exact ⟨MigrationTables.migrationOf_id hmigration, hsettled, rfl⟩
  · split_ifs <;> simp [WorkerStage.left]

theorem completing {counts : MigrationStatusCounts}
    (hcall : s.worker 0 = .completing migration counts)
    (hstage : (WorkerStage.completing migration counts).Mends sha256 m id s) :
    Advances sha256 m id s (s.proceedObject sha256 0) := by
  obtain ⟨rfl, hsettled, -⟩ := hstage
  have hmigration : ∀ row, s.tables.migrationOf migration.id = some row → ∃ row',
      (s.tables.complete migration counts).migrationOf migration.id = some row' ∧
        row'.sourceBackendId = row.sourceBackendId := by
    intro row hrow
    unfold MigrationTables.complete
    rw [MigrationTables.migrationOf_updateMigration, if_pos rfl, hrow]
    exact ⟨_, rfl, rfl⟩
  unfold MigrationSystem.proceedObject
  rw [hcall]
  exact setWorker hcall ⟨hmigration, fun _ h => h, fun _ _ => rfl, fun _ _ _ => rfl⟩ hsettled
    (Nat.le_refl _)

theorem proceedObject (hs : s.Sound) (hhealthy : s.Healthy sha256 m)
    (hstage : (s.worker 0).Mends sha256 m id s) :
    Advances sha256 m id s (s.proceedObject sha256 0) := by
  have hsound := hs.workers 0
  rcases hcall : s.worker 0 with _ | ⟨migration, object⟩ | ⟨migration, i⟩ |
    ⟨migration, i, settlement⟩ | ⟨migration, media⟩ | ⟨migration, media, body⟩ |
    ⟨migration, media⟩ | ⟨migration, media, sizeBytes⟩ | ⟨migration, media⟩ |
    ⟨migration, media, detail⟩ | m' | ⟨migration, counts⟩
  all_goals rw [hcall] at hsound hstage
  case idle =>
    unfold MigrationSystem.proceedObject
    rw [hcall]
    refine ⟨.of_eq rfl rfl, ?_, ?_⟩
    · rw [hcall]
      exact hstage
    · rw [hcall]
      exact Nat.le_refl _
  case begun => exact begun hcall hsound hstage
  case reading => exact reading hhealthy hcall hsound hstage
  case settling => exact settling hcall hsound hstage
  case fetching => exact fetching hcall hstage
  case copying => exact copying hs hcall hsound hstage
  case copied => exact copied hcall hstage
  case sized => exact sized hcall hstage
  case verified => exact verified hcall hsound hstage
  case rejecting => exact hstage.elim
  case checking => exact checking hcall hsound hstage
  case completing => exact completing hcall hstage

end Advances

theorem keepsTruth_of_mends (hstage : (s.worker 0).Mends sha256 m id s) :
    s.KeepsTruth m (.proceedObject 0) := by
  simp only [KeepsTruth]
  split
  next migration i settlement hcall =>
    rw [hcall] at hstage
    obtain ⟨-, rfl, -, hdone⟩ := hstage
    exact fun _ => hdone
  next migration media hcall =>
    rw [hcall] at hstage
    exact fun hne => absurd hstage.1 hne
  next migration counts hcall =>
    rw [hcall] at hstage
    obtain ⟨-, -, rfl⟩ := hstage
    exact fun _ => Or.inl Iff.rfl
  next => trivial

theorem step_others (action : MigrationAction) {other : MigrationCallId} (hne : other ≠ action.call)
    : (s.step sha256 action).worker other = s.worker other ∧
      (s.step sha256 action).starter other = s.starter other := by
  cases action with
  | startMigration call id source destination =>
    simp only [MigrationSystem.step]
    split
    next hstart =>
      obtain ⟨_, -, -, -, -, rfl⟩ := Sound.start_eq_ok hstart
      exact ⟨rfl, if_neg hne⟩
    next => exact ⟨rfl, rfl⟩
  | proceedStart call =>
    simp only [MigrationSystem.step, proceedStart]
    repeat' split
    all_goals first | exact ⟨rfl, rfl⟩ | exact ⟨rfl, if_neg hne⟩
  | migrateObject call m' id =>
    simp only [MigrationSystem.step]
    split
    · exact ⟨if_neg hne, rfl⟩
    · exact ⟨rfl, rfl⟩
  | proceedObject call =>
    simp only [MigrationSystem.step, MigrationSystem.proceedObject]
    repeat' split
    all_goals first | exact ⟨rfl, rfl⟩ | exact ⟨if_neg hne, rfl⟩
  | failObject call =>
    simp only [MigrationSystem.step, failObject]
    split <;> exact ⟨if_neg hne, rfl⟩
  | cleanup call m' =>
    simp only [MigrationSystem.step]
    split <;> exact ⟨rfl, rfl⟩
  | proceedCleanup call =>
    simp only [MigrationSystem.step, proceedCleanup]
    repeat' split
    all_goals exact ⟨rfl, rfl⟩
  | failCleanup call =>
    simp only [MigrationSystem.step, failCleanup]
    split <;> exact ⟨rfl, rfl⟩
  | crashStart call => exact ⟨rfl, if_neg hne⟩
  | crashObject call => exact ⟨if_neg hne, rfl⟩
  | crashCleanup call => exact ⟨rfl, rfl⟩

theorem proceedObject_starter : (s.proceedObject sha256 call).starter = s.starter := by
  unfold proceedObject
  repeat' split
  all_goals rfl

namespace Mending

theorem proceedObject (h : s.Mending sha256 m items) (hstage : (s.worker 0).Mends sha256 m id s) :
    (s.proceedObject sha256 0).Mending sha256 m items := by
  have hadvances := Advances.proceedObject h.sound h.healthy hstage
  obtain ⟨row, hrow⟩ := h.migration
  obtain ⟨row', hrow', -⟩ := hadvances.spares.migration row hrow
  refine ⟨h.sound.proceedObject, h.truth.proceedObject h.sound (keepsTruth_of_mends hstage),
    hadvances.spares.healthy h.migration h.healthy, ?_, ?_, ⟨row', hrow'⟩,
    fun id hleft => h.left id (hadvances.spares.left id hleft)⟩
  · intro call
    rw [proceedObject_starter]
    exact h.starters call
  · intro call hne
    exact (step_others (.proceedObject 0) hne).1.trans (h.workers call hne)

theorem beginObject (hs : s.Sound) (hunsettled : s.tables.Unsettled m id) :
    ∃ migration object, s.beginObject m id = .ok (.begun migration object) ∧
      migration.id = m ∧ object.mediaObjectId = id := by
  obtain ⟨row, hrow, rfl, hstatus⟩ := hunsettled
  obtain ⟨migration, hmigration⟩ := hs.rows m (List.ne_nil_of_mem hrow)
  refine ⟨migration, row, ?_, MigrationTables.migrationOf_id hmigration, rfl⟩
  have hopen : ¬(row.status = .done ∨ row.status = .skipped) := by
    rcases hstatus with h | h <;> simp [h]
  unfold MigrationSystem.beginObject
  rw [MigrationTables.getMigration_eq_ok.2 hmigration, hs.keyed m row hrow]
  exact if_neg hopen

theorem beginObject_of_settled (hsettled : ¬s.tables.Unsettled m id) {stage : WorkerStage}
    (h : s.beginObject m id = .ok stage) : stage = .idle := by
  unfold MigrationSystem.beginObject at h
  obtain ⟨_, -, h⟩ := Except.bind_eq_ok.1 h
  split at h
  next => cases h
  next object hobject =>
    obtain ⟨hmem, hid⟩ := MigrationTables.objectOf_mem hobject
    split_ifs at h with hstatus
    · exact (Except.pure_eq_ok.1 h).symm
    · refine absurd ⟨object, hmem, hid, ?_⟩ hsettled
      rcases hobject' : object.status with _ | _ | _ | _ <;> simp_all

theorem migrateObject (h : s.Mending sha256 m items) (hidle : s.worker 0 = .idle) :
    (s.step sha256 (.migrateObject 0 m id)).Mending sha256 m items ∧
      ((s.step sha256 (.migrateObject 0 m id)).worker 0).Mends sha256 m id
        (s.step sha256 (.migrateObject 0 m id)) := by
  have hset : ∀ stage, s.beginObject m id = .ok stage →
      s.step sha256 (.migrateObject 0 m id) = s.setWorker 0 stage := by
    intro stage hbegin
    simp only [MigrationSystem.step, hidle, hbegin]
  have hstep : (∃ stage, s.step sha256 (.migrateObject 0 m id) = s.setWorker 0 stage ∧
      stage.Mends sha256 m id s) ∨ s.step sha256 (.migrateObject 0 m id) = s ∧
        ¬s.tables.Unsettled m id := by
    by_cases hleft : s.tables.Unsettled m id
    · obtain ⟨migration, object, hbegin, hid, hobject⟩ := beginObject h.sound hleft
      exact Or.inl ⟨_, hset _ hbegin, hid, hobject, hleft⟩
    · rcases hbegin : s.beginObject m id with e | stage
      · refine Or.inr ⟨?_, hleft⟩
        simp only [MigrationSystem.step, hidle, hbegin]
      · refine Or.inl ⟨stage, hset stage hbegin, ?_⟩
        rw [beginObject_of_settled hleft hbegin]
        exact hleft
  have hsound : (s.step sha256 (.migrateObject 0 m id)).Sound := h.sound.step _
  have htruth : (s.step sha256 (.migrateObject 0 m id)).Truth m := h.truth.step h.sound trivial
  rcases hstep with ⟨stage, heq, hstage⟩ | ⟨heq, hsettled⟩
  · rw [heq] at hsound htruth ⊢
    refine ⟨⟨hsound, htruth, h.healthy, h.starters, fun call hne => ?_, h.migration, h.left⟩,
      setWorker_mends hstage⟩
    exact (if_neg hne).trans (h.workers call hne)
  · rw [heq, hidle]
    exact ⟨h, hsettled⟩

theorem objectRun (h : s.Mending sha256 m (id :: items)) (hidle : s.worker 0 = .idle) :
    (Runs.run (MigrationSystem.step · sha256) s (objectRun m id)).Mending sha256 m items ∧
      (Runs.run (MigrationSystem.step · sha256) s (objectRun m id)).worker 0 = .idle := by
  have hkeep : ∀ s : MigrationSystem,
      s.Mending sha256 m (id :: items) ∧ (s.worker 0).Mends sha256 m id s →
        (s.step sha256 (.proceedObject 0)).Mending sha256 m (id :: items) ∧
          ((s.step sha256 (.proceedObject 0)).worker 0).Mends sha256 m id
            (s.step sha256 (.proceedObject 0)) := by
    rintro s ⟨hs, hstage⟩
    exact ⟨hs.proceedObject hstage, (Advances.proceedObject hs.sound hs.healthy hstage).stage⟩
  obtain ⟨⟨hmending, hstage⟩, hleft⟩ :=
    Runs.run_replicate_of_rank (MigrationSystem.step · sha256) (.proceedObject 0)
      (fun s => (s.worker 0).left) hkeep
      (fun s hs => (Advances.proceedObject hs.1.sound hs.1.healthy hs.2).left)
      (h.migrateObject hidle) (WorkerStage.left_le _)
  have hidle' := WorkerStage.eq_idle_of_left hleft
  rw [hidle'] at hstage
  refine ⟨{ hmending with left := fun other hother => ?_ }, hidle'⟩
  rcases List.mem_cons.1 (hmending.left other hother) with rfl | hitems
  · exact absurd hother hstage
  · exact hitems

theorem truthful (h : s.Mending sha256 m items) (hidle : s.worker 0 = .idle) : s.Truthful m := by
  refine h.truth.truthful ⟨fun call => ?_, h.starters⟩
  by_cases hcall : call = 0
  · rw [hcall]
    exact hidle
  · exact h.workers call hcall

theorem verdict_of_nothing_left (h : s.Mending sha256 m []) :
    (s.tables.countsFor m).verdict = .completed := by
  have hnone : ∀ status, status = .pending ∨ status = .failed → ¬s.tables.AnyOf m status := by
    rintro status hstatus ⟨row, hrow, rfl⟩
    exact absurd (h.left row.mediaObjectId ⟨row, hrow, rfl, hstatus⟩) List.not_mem_nil
  have hfailed := mt MigrationTables.failed_pos.1 (hnone .failed (Or.inr rfl))
  rw [MigrationTables.verdict_of_not_pending (hnone .pending (Or.inl rfl)), if_neg hfailed]

end Mending

theorem recovers (hs : s.Sound) (htruth : s.Truth m) (hrest : s.Resting) :
    s.Recovers sha256 m := by
  intro hhealthy migration hmigration
  have hstart : s.Mending sha256 m (s.tables.resumed m ++ s.tables.retried m) ∧
      s.worker 0 = .idle :=
    ⟨⟨hs, htruth, hhealthy, hrest.starters, fun call _ => hrest.workers call,
      ⟨migration, hmigration⟩, fun _ => MigrationTables.unsettled_iff.1⟩, hrest.workers 0⟩
  obtain ⟨hmending, hidle⟩ := Runs.run_flatMap
    (fun items (s : MigrationSystem) => s.Mending sha256 m items ∧ s.worker 0 = .idle)
    (fun _ _ _ h => h.1.objectRun h.2) hstart
  obtain ⟨final, hfinal⟩ := hmending.migration
  refine ⟨final, hfinal, ?_⟩
  rw [(hmending.truthful hidle).status final hfinal]
  exact hmending.verdict_of_nothing_left

theorem run_others {other : MigrationCallId} (hne : other ≠ call) :
    ∀ {actions : List MigrationAction} {s : MigrationSystem},
      (∀ action ∈ actions, action.call = call) →
        (Runs.run (step · sha256) s actions).worker other = s.worker other ∧
          (Runs.run (step · sha256) s actions).starter other = s.starter other
  | [], _, _ => ⟨rfl, rfl⟩
  | action :: actions, s, hcalls => by
    obtain ⟨hcall, hrest⟩ := List.forall_mem_cons.1 hcalls
    have hstep : (s.step sha256 action).worker other = s.worker other ∧
        (s.step sha256 action).starter other = s.starter other := by
      refine step_others action ?_
      rw [hcall]
      exact hne
    obtain ⟨hworker, hstarter⟩ := run_others hne (s := s.step sha256 action) hrest
    exact ⟨hworker.trans hstep.1, hstarter.trans hstep.2⟩

theorem Resting.run (hrest : s.Resting) {actions : List MigrationAction}
    (hcalls : ∀ action ∈ actions, action.call = call)
    (hworker : (Runs.run (step · sha256) s actions).worker call = .idle)
    (hstarter : (Runs.run (step · sha256) s actions).starter call = .idle) :
    (Runs.run (step · sha256) s actions).Resting := by
  refine ⟨fun other => ?_, fun other => ?_⟩
  all_goals
    by_cases hother : other = call
    · rw [hother]
      assumption
  · exact (run_others hother hcalls).1.trans (hrest.workers other)
  · exact (run_others hother hcalls).2.trans (hrest.starters other)

variable {backends : List BackendId} {store : BackendId → StorageKey → Option Bytes}

theorem sound_atRest {media : List MediaObjectRow} :
    (atRest { backends, media } store).Sound :=
  ⟨fun _ => trivial, nofun, nofun, fun _ h => absurd rfl h, nofun, nofun, nofun⟩

theorem truth_atRest {media : List MediaObjectRow} :
    (atRest { backends, media } store).Truth m :=
  ⟨MigrationTables.objectsRight_of_rows_nil rfl, Or.inl nofun⟩

/-- Whenever nobody is at work the rows and the status are true, and the migration can be brought
to its end, as long as every step keeps them so. -/
theorem status_truthful {backends : List BackendId} {media : List MediaObjectRow}
    {store : BackendId → StorageKey → Option Bytes} {actions : List MigrationAction}
    (hkeeps : Runs.Meets (step · sha256) (fun s action => s.KeepsTruth m action)
      (atRest { backends, media } store) actions) :
    Runs.Along (step · sha256) (fun s => s.Resting → s.Truthful m ∧ s.Recovers sha256 m)
      (atRest { backends, media } store) actions := by
  have hinv : ∀ (s : MigrationSystem) (action : MigrationAction), s.Sound ∧ s.Truth m →
      s.KeepsTruth m action → (s.step sha256 action).Sound ∧ (s.step sha256 action).Truth m :=
    fun s action hs hguard => ⟨hs.1.step action, hs.2.step hs.1 hguard⟩
  refine (Runs.along_of_meets hinv ⟨sound_atRest, truth_atRest⟩ hkeeps).mono ?_
  rintro s ⟨hsound, htruth⟩ hrest
  exact ⟨htruth.truthful hrest, recovers hsound htruth hrest⟩

end MigrationSystem

section Examples

def cutOverOnly : List MigrationAction :=
  wholeStart 0 1 1 2 ++ .migrateObject 0 1 7 :: List.replicate 7 (.proceedObject 0) ++
    [.crashObject 0]

theorem status_left_running : ¬ ∀ (sha256 : Bytes → String) (m : MigrationId)
    (backends : List BackendId) (media : List MediaObjectRow)
    (store : BackendId → StorageKey → Option Bytes) (actions : List MigrationAction),
    Runs.Along (MigrationSystem.step · sha256)
      (fun s => s.Resting → s.Truthful m ∧ s.Recovers sha256 m)
      (MigrationSystem.atRest { backends, media } store) actions := by
  intro hall
  have hlast := (hall spelled 1 [1, 2] [photograph] onFirst cutOverOnly).last
  let s := Runs.run (MigrationSystem.step · spelled)
    (MigrationSystem.atRest twoBackends onFirst) cutOverOnly
  have hcalls : ∀ action ∈ cutOverOnly, action.call = 0 := by decide
  have hrest : s.Resting := .run ⟨fun _ => rfl, fun _ => rfl⟩ hcalls rfl rfl
  have hright := (hlast hrest).1.status ⟨1, 1, 2, .running, none⟩ rfl
  revert hright
  decide +kernel

theorem moved_over_truthful : Runs.Along (MigrationSystem.step · spelled)
    (fun s => s.Resting → s.Truthful 1 ∧ s.Recovers spelled 1)
    (MigrationSystem.atRest twoBackends onFirst) (wholeStart 0 1 1 2 ++ wholeObject 0 1) := by
  refine MigrationSystem.status_truthful ?_
  refine ⟨trivial, trivial, fun _ id hid => ?_, trivial, trivial, trivial, trivial, trivial,
    trivial, trivial, fun hne => absurd rfl hne, trivial, fun _ => Or.inl Iff.rfl, trivial⟩
  rintro ⟨media, hmedia, hbackend⟩
  obtain rfl : id = 7 := List.mem_singleton.1 hid
  obtain rfl : photograph = media := Option.some.inj hmedia
  exact absurd hbackend (by decide)

end Examples

/-- Whatever is called, delivered again or cut off, no object has two different rows in a migration,
and none is pending once the migration has ended. -/
theorem ended_settled {sha256 : Bytes → String} (m : MigrationId) {backends : List BackendId}
    {media : List MediaObjectRow} {store : BackendId → StorageKey → Option Bytes}
    (actions : List MigrationAction) :
    Runs.Along (MigrationSystem.step · sha256)
      (fun s => s.tables.Keyed m ∧ ∀ row, s.tables.migrationOf m = some row →
        row.status ≠ .running → ¬ s.tables.AnyOf m .pending)
      (MigrationSystem.atRest { backends, media } store) actions := by
  have hsound : Runs.Along (MigrationSystem.step · sha256) MigrationSystem.Sound
      (MigrationSystem.atRest { backends, media } store) actions :=
    Runs.along_of_step (fun _ action hs => hs.step action) MigrationSystem.sound_atRest
  exact hsound.mono fun _ hs => ⟨hs.keyed m, fun row hrow hended hany =>
    hended (hs.running m row hrow hany)⟩

end Loxep

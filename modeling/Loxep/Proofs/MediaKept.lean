import Loxep.StorageMigration

/-!
# When a migration keeps the bytes

A worker points the row at a copy it has verified some steps ago, and a clean-up deletes the source
copy of an object whose row named the destination some steps ago.
-/

namespace Loxep

def MediaObjectRow.records (media : MediaObjectRow) (sha256 : Bytes → String) (body : Bytes) :
    Bool := body.length == media.sizeBytes && sha256 body == media.sha256

namespace MigrationSystem

variable (sha256 : Bytes → String) (id : MediaObjectId) (s : MigrationSystem)

def holds (backend : BackendId) (media : MediaObjectRow) : Bool :=
  (s.store backend media.storageKey).any (media.records sha256)

def BytesKept : Prop :=
  ∃ media, s.tables.mediaOf id = some media ∧ s.holds sha256 media.storageBackendId media = true

def actsOnWhatHolds : MigrationAction → Bool
  | .proceedObject call =>
    match s.worker call with
    | .verified migration media =>
      media.id != id || s.holds sha256 migration.destinationBackendId media
    | _ => true
  | .proceedCleanup call =>
    match s.cleaner call with
    | .deleting migration media _ _ => media.id != id ||
        (s.tables.mediaOf id).all fun row => row.storageBackendId != migration.sourceBackendId
    | _ => true
  | _ => true

end MigrationSystem

/-- The same object, wherever it is. -/
structure MediaObjectRow.SameObject (media object : MediaObjectRow) : Prop where
  id : media.id = object.id
  storageKey : media.storageKey = object.storageKey
  sizeBytes : media.sizeBytes = object.sizeBytes
  sha256 : media.sha256 = object.sha256

/-- Another object, under another key. -/
structure MediaObjectRow.Other (media object : MediaObjectRow) : Prop where
  id : media.id ≠ object.id
  storageKey : media.storageKey ≠ object.storageKey

section Knowledge

variable (sha256 : Bytes → String) (object : MediaObjectRow)
  (store : BackendId → StorageKey → Option Bytes)

def CleanAt (backend : BackendId) : Prop :=
  ∀ body, store backend object.storageKey = some body → object.records sha256 body = true

def WorkerStage.Knows : WorkerStage → Prop
  | .fetching migration media => media.Other object ∨
      media.SameObject object ∧ CleanAt sha256 object store migration.sourceBackendId
  | .copying _ media body => media.Other object ∨
      media.SameObject object ∧ object.records sha256 body = true
  | .copied migration media => media.Other object ∨
      media.SameObject object ∧ CleanAt sha256 object store migration.destinationBackendId
  | .sized migration media sizeBytes => media.Other object ∨
      media.SameObject object ∧ CleanAt sha256 object store migration.destinationBackendId
        ∧ sizeBytes = object.sizeBytes
  | .verified _ media => media.Other object ∨ media.SameObject object
  | .rejecting _ media _ => media.Other object
  | _ => True

def CleanupStage.Knows : CleanupStage → Prop
  | .deleting _ media _ _ => media.Other object ∨ media.SameObject object
  | _ => True

structure CopiesWell (s : MigrationSystem) : Prop where
  rows : ∀ mediaObjectId media, s.tables.mediaOf mediaObjectId = some media →
    media.Other object ∨ media.SameObject object
  workers : ∀ call, (s.worker call).Knows sha256 object s.store
  cleaners : ∀ call, (s.cleaner call).Knows object

end Knowledge

section Frames

variable {sha256 : Bytes → String} {object : MediaObjectRow} {s : MigrationSystem}
variable {store store' : BackendId → StorageKey → Option Bytes}

variable {stage : WorkerStage}

theorem WorkerStage.Knows.mono
    (hclean : ∀ backend, CleanAt sha256 object store backend → CleanAt sha256 object store' backend)
    (h : stage.Knows sha256 object store) : stage.Knows sha256 object store' := by
  cases stage with
  | fetching migration media => exact h.imp_right fun h => ⟨h.1, hclean _ h.2⟩
  | copied migration media => exact h.imp_right fun h => ⟨h.1, hclean _ h.2⟩
  | sized migration media sizeBytes => exact h.imp_right fun h => ⟨h.1, hclean _ h.2.1, h.2.2⟩
  | _ => exact h

section

variable (h : CopiesWell sha256 object s)
include h

theorem CopiesWell.setWorker {call : MigrationCallId} (hstage : stage.Knows sha256 object s.store) :
    CopiesWell sha256 object (s.setWorker call stage) where
  rows := h.rows
  workers := by
    intro other
    simp only [MigrationSystem.setWorker]
    split_ifs
    · exact hstage
    · exact h.workers other
  cleaners := h.cleaners

theorem CopiesWell.setCleaner {call : MigrationCallId} {stage : CleanupStage}
    (hstage : stage.Knows object) :
    CopiesWell sha256 object (s.setCleaner call stage) where
  rows := h.rows
  workers := h.workers
  cleaners := by
    intro other
    simp only [MigrationSystem.setCleaner]
    split_ifs
    · exact hstage
    · exact h.cleaners other

theorem CopiesWell.setStarter {call : MigrationCallId} {stage : StarterStage}
    : CopiesWell sha256 object (s.setStarter call stage) :=
  ⟨h.rows, h.workers, h.cleaners⟩

theorem CopiesWell.setTables {tables : MigrationTables} (hmedia : tables.media = s.tables.media)
    : CopiesWell sha256 object { s with tables } := by
  refine ⟨fun mediaObjectId media hmem => h.rows mediaObjectId media ?_, h.workers, h.cleaners⟩
  unfold MigrationTables.mediaOf at hmem ⊢
  rwa [← hmedia]

theorem CopiesWell.setStore {backend : BackendId} {key : StorageKey} {body : Option Bytes}
    (hbody : key = object.storageKey →
      ∀ b, body = some b → object.records sha256 b = true) :
    CopiesWell sha256 object (s.setStore backend key body) where
  rows := h.rows
  workers := by
    refine fun call => (h.workers call).mono fun other hclean b hb => ?_
    simp only [MigrationSystem.setStore] at hb
    split_ifs at hb with hat
    · exact hbody hat.2.symm b hb
    · exact hclean b hb
  cleaners := h.cleaners

end

end Frames

namespace MigrationTables

variable {s : MigrationTables} {migrationId : MigrationId} {mediaObjectId : MediaObjectId}

theorem mediaOf_id {media : MediaObjectRow} (h : s.mediaOf mediaObjectId = some media) :
    media.id = mediaObjectId := KeyedTable.get_key h

@[simp] theorem settle_media {settlement : Settlement} :
    (s.settle migrationId mediaObjectId settlement).media = s.media := rfl

@[simp] theorem updateObjectRow_media {set : MigrationObjectRow → MigrationObjectRow} :
    (s.updateObjectRow migrationId mediaObjectId set).media = s.media := rfl

variable {row : StorageMigrationRow}

@[simp] theorem updateMigration_media {status : StorageMigrationStatus}
    {summary : MigrationStatusCounts} :
    (s.updateMigration row status summary).media = s.media := rfl

@[simp] theorem complete_media {counts : MigrationStatusCounts} :
    (s.complete row counts).media = s.media := rfl

theorem mediaOf_cutOver {migration : StorageMigrationRow} {media : MediaObjectRow} :
    (s.cutOver migration media).mediaOf mediaObjectId = if mediaObjectId = media.id
      then some (((s.mediaOf mediaObjectId).map fun row =>
        { row with storageBackendId := migration.destinationBackendId }).getD media)
      else s.mediaOf mediaObjectId :=
  KeyedTable.get_upsert fun _ hrow => hrow

end MigrationTables

namespace MigrationSystem

variable {sha256 : Bytes → String} {id : MediaObjectId} {s s' : MigrationSystem}
variable {object media : MediaObjectRow} {backend : BackendId} {body : Option Bytes}

theorem bytesKept_congr (hmedia : s'.tables.media = s.tables.media) (hstore : s'.store = s.store) :
    BytesKept sha256 id s' ↔ BytesKept sha256 id s := by
  unfold BytesKept holds MigrationTables.mediaOf
  rw [hmedia, hstore]

theorem holds_of_sameObject (h : media.SameObject object) :
    s.holds sha256 backend media = s.holds sha256 backend object := by
  unfold holds MediaObjectRow.records
  rw [h.storageKey, h.sizeBytes, h.sha256]

theorem cleanAt_of_holds (h : s.holds sha256 backend object = true) :
    CleanAt sha256 object s.store backend := by
  intro body hbody
  rw [holds, hbody] at h
  exact h

theorem BytesKept.exists_row (hp : BytesKept sha256 object.id s) (hs : CopiesWell sha256 object s)
    : ∃ row, s.tables.mediaOf object.id = some row
      ∧ row.SameObject object ∧ s.holds sha256 row.storageBackendId object = true := by
  obtain ⟨row, hrow, hholds⟩ := hp
  have hsame : row.SameObject object := (hs.rows _ row hrow).resolve_left fun hother =>
    hother.id (MigrationTables.mediaOf_id hrow)
  exact ⟨row, hrow, hsame, holds_of_sameObject hsame ▸ hholds⟩

theorem bytesKept_setStore_iff (hs : CopiesWell sha256 object s) (hp : BytesKept sha256 object.id s)
    {key : StorageKey} (hkey : key = object.storageKey) :
    BytesKept sha256 object.id (s.setStore backend key body) ↔
      ∀ row ∈ s.tables.mediaOf object.id, row.storageBackendId = backend →
        body.any (object.records sha256) = true := by
  obtain ⟨row, hrow, hsame, hholds⟩ := hp.exists_row hs
  have hiff : BytesKept sha256 object.id (s.setStore backend key body) ↔
      (s.setStore backend key body).holds sha256 row.storageBackendId row = true := by
    constructor
    · rintro ⟨row', hrow', h⟩
      obtain rfl : row = row' := Option.some.inj (hrow.symm.trans hrow')
      exact h
    · exact fun h => ⟨row, hrow, h⟩
  rw [hiff, holds_of_sameObject hsame, hrow]
  simp only [Option.mem_some_iff, forall_eq']
  by_cases hbackend : row.storageBackendId = backend
  · simp [holds, setStore, hbackend, hkey]
  · simp only [holds, setStore, hbackend, false_and, if_false, forall_false, iff_true]
    exact hholds

theorem bytesKept_setStore_of_other (hs : CopiesWell sha256 object s)
    (hp : BytesKept sha256 object.id s) (hother : media.Other object) :
    BytesKept sha256 object.id (s.setStore backend media.storageKey body) := by
  obtain ⟨row, hrow, hsame, hholds⟩ := hp.exists_row hs
  have hkey : row.storageKey ≠ media.storageKey := hsame.storageKey ▸ Ne.symm hother.storageKey
  refine ⟨row, hrow, ?_⟩
  rw [← holds_of_sameObject hsame] at hholds
  simp only [holds, setStore, hkey, and_false, if_false]
  exact hholds

section CutOver

variable {migration : StorageMigrationRow}

theorem copiesWell_cutOver (hs : CopiesWell sha256 object s)
    (hmedia : media.Other object ∨ media.SameObject object) :
    CopiesWell sha256 object { s with tables := s.tables.cutOver migration media } := by
  refine ⟨fun mediaObjectId row hrow => ?_, hs.workers, hs.cleaners⟩
  rw [MigrationTables.mediaOf_cutOver] at hrow
  split_ifs at hrow
  · rcases hold : s.tables.mediaOf mediaObjectId with _ | old
    · rw [hold] at hrow
      obtain rfl : media = row := Option.some.inj hrow
      exact hmedia
    · rw [hold] at hrow
      obtain rfl := Option.some.inj hrow
      exact (hs.rows _ old hold).imp (fun h => ⟨h.id, h.storageKey⟩)
        fun h => ⟨h.id, h.storageKey, h.sizeBytes, h.sha256⟩
  · exact hs.rows _ row hrow

theorem bytesKept_cutOver_iff (hs : CopiesWell sha256 object s) (hp : BytesKept sha256 object.id s)
    (hmedia : media.SameObject object) :
    BytesKept sha256 object.id { s with tables := s.tables.cutOver migration media } ↔
      s.holds sha256 migration.destinationBackendId media = true := by
  obtain ⟨row, hrow, hsame, -⟩ := hp.exists_row hs
  have hafter : (s.tables.cutOver migration media).mediaOf object.id =
      some { row with storageBackendId := migration.destinationBackendId } := by
    rw [MigrationTables.mediaOf_cutOver, if_pos hmedia.id.symm, hrow]
    rfl
  have hmoved : MediaObjectRow.SameObject
      { row with storageBackendId := migration.destinationBackendId } object :=
    ⟨hsame.id, hsame.storageKey, hsame.sizeBytes, hsame.sha256⟩
  rw [holds_of_sameObject hmedia]
  constructor
  · rintro ⟨row', hrow', h⟩
    obtain rfl := Option.some.inj (hafter.symm.trans hrow')
    rw [holds_of_sameObject hmoved] at h
    exact h
  · intro h
    exact ⟨_, hafter, (holds_of_sameObject hmoved).trans h⟩

theorem bytesKept_cutOver_of_ne (hp : BytesKept sha256 id s) (hne : media.id ≠ id) :
    BytesKept sha256 id { s with tables := s.tables.cutOver migration media } := by
  obtain ⟨row, hrow, h⟩ := hp
  refine ⟨row, ?_, h⟩
  show (s.tables.cutOver migration media).mediaOf id = _
  rw [MigrationTables.mediaOf_cutOver, if_neg (Ne.symm hne)]
  exact hrow

end CutOver

variable {call : MigrationCallId}

theorem readMedia_knows (hs : CopiesWell sha256 object s) (hp : BytesKept sha256 object.id s)
    {migration : StorageMigrationRow} {mediaObjectId : MediaObjectId} :
    (s.readMedia migration mediaObjectId).Knows sha256 object s.store := by
  unfold readMedia
  rcases hmedia : s.tables.mediaOf mediaObjectId with _ | media
  · trivial
  · simp only
    split_ifs with hdestination hsource
    · trivial
    · trivial
    · refine (hs.rows _ media hmedia).imp_right fun hsame => ⟨hsame, ?_⟩
      obtain ⟨row, hrow, -, hholds⟩ := hp.exists_row hs
      have hid := MigrationTables.mediaOf_id hmedia
      rw [← hid, hsame.id, hrow] at hmedia
      obtain rfl := Option.some.inj hmedia
      rw [not_not.1 hsource] at hholds
      exact cleanAt_of_holds hholds

theorem compare_of_sameObject {migration : StorageMigrationRow} {body : Bytes}
    (hsame : media.SameObject object) (hbody : object.records sha256 body = true) :
    compare sha256 migration media object.sizeBytes body = .verified migration media := by
  simp only [MediaObjectRow.records, Bool.and_eq_true, beq_iff_eq] at hbody
  rw [compare, if_neg (by simp [hsame.sizeBytes]), if_neg (by simp [hsame.sha256, hbody.2])]

theorem compare_knows {migration : StorageMigrationRow} {sizeBytes : ℕ} {body : Bytes}
    (h : media.Other object ∨ media.SameObject object ∧ sizeBytes = object.sizeBytes
      ∧ object.records sha256 body = true) :
    (compare sha256 migration media sizeBytes body).Knows sha256 object s.store := by
  rcases h with hother | ⟨hsame, rfl, hbody⟩
  · unfold compare
    split_ifs
    · exact hother
    · exact hother
    · exact .inl hother
  · rw [compare_of_sameObject hsame hbody]
    exact .inr hsame

section

variable (hs : CopiesWell sha256 object s)
include hs

theorem copiesWell_proceedObject (hp : BytesKept sha256 object.id s)
    : CopiesWell sha256 object (s.proceedObject sha256 call) := by
  have hknows := hs.workers call
  cases hstage : s.worker call with
  | idle =>
    simp only [proceedObject, hstage]
    exact hs
  | begun migration row =>
    simp only [proceedObject, hstage]
    exact (hs.setTables (by simp)).setWorker trivial
  | reading migration mediaObjectId =>
    simp only [proceedObject, hstage]
    exact hs.setWorker (readMedia_knows hs hp)
  | settling migration mediaObjectId settlement =>
    simp only [proceedObject, hstage]
    exact (hs.setTables (by simp)).setWorker trivial
  | fetching migration media =>
    rw [hstage] at hknows
    simp only [proceedObject, hstage]
    rcases hbody : s.store migration.sourceBackendId media.storageKey with _ | body
    · exact hs.setWorker trivial
    · refine hs.setWorker (hknows.imp_right fun ⟨hsame, hclean⟩ => ⟨hsame, ?_⟩)
      rw [hsame.storageKey] at hbody
      exact hclean body hbody
  | copying migration media body =>
    rw [hstage] at hknows
    simp only [proceedObject, hstage]
    have hbody : media.storageKey = object.storageKey →
        ∀ b, some body = some b → object.records sha256 b = true := by
      rintro hkey b heq
      obtain rfl := Option.some.inj heq
      exact (hknows.resolve_left fun hother => hother.storageKey hkey).2
    refine (hs.setStore hbody).setWorker (hknows.imp_right fun ⟨hsame, hrecords⟩ => ⟨hsame, ?_⟩)
    intro b hb
    simp only [setStore, hsame.storageKey, and_self, if_true] at hb
    exact hbody hsame.storageKey b hb
  | copied migration media =>
    rw [hstage] at hknows
    simp only [proceedObject, hstage]
    rcases hbody : s.store migration.destinationBackendId media.storageKey with _ | body
    · exact hs.setWorker trivial
    · refine hs.setWorker (hknows.imp_right fun ⟨hsame, hclean⟩ => ⟨hsame, hclean, ?_⟩)
      rw [hsame.storageKey] at hbody
      have hrecords := hclean body hbody
      simp only [MediaObjectRow.records, Bool.and_eq_true, beq_iff_eq] at hrecords
      exact hrecords.1
  | sized migration media sizeBytes =>
    rw [hstage] at hknows
    simp only [proceedObject, hstage]
    rcases hbody : s.store migration.destinationBackendId media.storageKey with _ | body
    · exact hs.setWorker trivial
    · refine hs.setWorker (compare_knows (hknows.imp_right fun ⟨hsame, hclean, hsize⟩ => ?_))
      rw [hsame.storageKey] at hbody
      exact ⟨hsame, hsize, hclean body hbody⟩
  | verified migration media =>
    rw [hstage] at hknows
    simp only [proceedObject, hstage]
    exact (copiesWell_cutOver hs hknows).setWorker trivial
  | rejecting migration media detail =>
    rw [hstage] at hknows
    simp only [proceedObject, hstage]
    exact (hs.setStore fun hkey => absurd hkey hknows.storageKey).setWorker trivial
  | checking migrationId =>
    simp only [proceedObject, hstage]
    split
    · refine hs.setWorker ?_
      split_ifs <;> trivial
    · exact hs.setWorker trivial
  | completing migration counts =>
    simp only [proceedObject, hstage]
    exact (hs.setTables (by simp)).setWorker trivial

theorem bytesKept_proceedObject_iff (hp : BytesKept sha256 object.id s)
    : BytesKept sha256 object.id (s.proceedObject sha256 call)
      ↔ s.actsOnWhatHolds sha256 object.id (.proceedObject call) = true := by
  have hknows := hs.workers call
  have hsame : ∀ {t : MigrationSystem}, t.tables.media = s.tables.media → t.store = s.store →
      BytesKept sha256 object.id t := fun hmedia hstore => (bytesKept_congr hmedia hstore).2 hp
  cases hstage : s.worker call with
  | fetching migration media =>
    simp only [proceedObject, actsOnWhatHolds, hstage, iff_true]
    split <;> exact hsame rfl rfl
  | copying migration media body =>
    rw [hstage] at hknows
    simp only [proceedObject, actsOnWhatHolds, hstage, iff_true]
    have hkept : BytesKept sha256 object.id
        (s.setStore migration.destinationBackendId media.storageKey (some body)) := by
      rcases hknows with hother | ⟨hmedia, hrecords⟩
      · exact bytesKept_setStore_of_other hs hp hother
      · exact (bytesKept_setStore_iff hs hp hmedia.storageKey).2 fun _ _ _ => hrecords
    exact (bytesKept_congr rfl rfl).2 hkept
  | copied migration media =>
    simp only [proceedObject, actsOnWhatHolds, hstage, iff_true]
    split <;> exact hsame rfl rfl
  | sized migration media sizeBytes =>
    simp only [proceedObject, actsOnWhatHolds, hstage, iff_true]
    split <;> exact hsame rfl rfl
  | verified migration media =>
    rw [hstage] at hknows
    simp only [proceedObject, actsOnWhatHolds, hstage]
    have hcut : BytesKept sha256 object.id (({ s with
          tables := s.tables.cutOver migration media } : MigrationSystem).setWorker call
            (.checking migration.id)) ↔ BytesKept sha256 object.id { s with
          tables := s.tables.cutOver migration media } := bytesKept_congr rfl rfl
    rw [hcut]
    rcases hknows with hother | hmedia
    · exact iff_of_true (bytesKept_cutOver_of_ne hp hother.id) (by simp [hother.id])
    · rw [bytesKept_cutOver_iff hs hp hmedia]
      simp [hmedia.id]
  | rejecting migration media detail =>
    rw [hstage] at hknows
    simp only [proceedObject, actsOnWhatHolds, hstage, iff_true]
    exact (bytesKept_congr rfl rfl).2 (bytesKept_setStore_of_other hs hp hknows)
  | checking migrationId =>
    simp only [proceedObject, actsOnWhatHolds, hstage, iff_true]
    split <;> exact hsame rfl rfl
  | _ =>
    simp only [proceedObject, actsOnWhatHolds, hstage, iff_true]
    exact hsame rfl rfl

theorem copiesWell_proceedCleanup :
    CopiesWell sha256 object (s.proceedCleanup call) := by
  have hknows := hs.cleaners call
  cases hstage : s.cleaner call with
  | idle =>
    simp only [proceedCleanup, hstage]
    exact hs
  | opened migration =>
    simp only [proceedCleanup, hstage]
    exact hs.setCleaner trivial
  | cleaning migration rows result =>
    rcases rows with _ | ⟨row, rows⟩
    · simp only [proceedCleanup, hstage]
      exact hs.setCleaner trivial
    · simp only [proceedCleanup, hstage]
      split_ifs
      · exact hs.setCleaner trivial
      · rcases hmedia : s.tables.mediaOf row.mediaObjectId with _ | media
        · exact hs.setCleaner trivial
        · simp only
          split_ifs
          · exact hs.setCleaner trivial
          · exact hs.setCleaner (hs.rows _ media hmedia)
  | deleting migration media rows result =>
    rw [hstage] at hknows
    simp only [proceedCleanup, hstage]
    exact (hs.setStore (fun _ b hb => by cases hb)).setCleaner trivial

theorem bytesKept_proceedCleanup_iff (hp : BytesKept sha256 object.id s)
    : BytesKept sha256 object.id (s.proceedCleanup call)
      ↔ s.actsOnWhatHolds sha256 object.id (.proceedCleanup call) = true := by
  have hknows := hs.cleaners call
  have hsame : ∀ {t : MigrationSystem}, t.tables.media = s.tables.media → t.store = s.store →
      BytesKept sha256 object.id t := fun hmedia hstore => (bytesKept_congr hmedia hstore).2 hp
  cases hstage : s.cleaner call with
  | idle =>
    simp only [proceedCleanup, actsOnWhatHolds, hstage, iff_true]
    exact hp
  | opened migration =>
    simp only [proceedCleanup, actsOnWhatHolds, hstage, iff_true]
    exact hsame rfl rfl
  | cleaning migration rows result =>
    rcases rows with _ | ⟨row, rows⟩
    · simp only [proceedCleanup, actsOnWhatHolds, hstage, iff_true]
      exact hsame rfl rfl
    · simp only [proceedCleanup, actsOnWhatHolds, hstage, iff_true]
      split_ifs
      · exact hsame rfl rfl
      · split
        · exact hsame rfl rfl
        · split_ifs <;> exact hsame rfl rfl
  | deleting migration media rows result =>
    rw [hstage] at hknows
    simp only [proceedCleanup, actsOnWhatHolds, hstage]
    have hstore : BytesKept sha256 object.id ((s.setStore migration.sourceBackendId
          media.storageKey none).setCleaner call (.cleaning migration rows
            { result with deleted := result.deleted + 1 })) ↔
        BytesKept sha256 object.id (s.setStore migration.sourceBackendId media.storageKey none) :=
      bytesKept_congr rfl rfl
    rw [hstore]
    rcases hknows with hother | hmedia
    · exact iff_of_true (bytesKept_setStore_of_other hs hp hother) (by simp [hother.id])
    · rw [bytesKept_setStore_iff hs hp hmedia.storageKey]
      obtain ⟨row, hrow, -⟩ := hp.exists_row hs
      simp [hmedia.id, hrow]

end

theorem start_eq_ok {newId : MigrationId} {source destination : BackendId}
    (h : s.start call newId source destination = .ok s') : ∃ tables stage,
      s' = { s with tables }.setStarter call stage ∧ tables.media = s.tables.media := by
  unfold start at h
  simp only [Except.bind_eq_ok, Except.pure_eq_ok] at h
  obtain ⟨-, -, -, -, -, -, -, -, rfl⟩ := h
  exact ⟨_, _, rfl, rfl⟩

theorem beginObject_knows {migrationId : MigrationId} {mediaObjectId : MediaObjectId}
    {stage : WorkerStage} (h : s.beginObject migrationId mediaObjectId = .ok stage) :
    stage.Knows sha256 object s.store := by
  unfold beginObject at h
  obtain ⟨migration, -, h⟩ := Except.bind_eq_ok.1 h
  split at h
  · cases h
  · split_ifs at h
    · obtain rfl := Except.pure_eq_ok.1 h
      trivial
    · obtain rfl := Except.pure_eq_ok.1 h
      trivial

theorem openCleanup_knows {migrationId : MigrationId} {stage : CleanupStage}
    (h : s.openCleanup migrationId = .ok stage) : stage.Knows object := by
  unfold openCleanup at h
  obtain ⟨migration, -, h⟩ := Except.bind_eq_ok.1 h
  obtain ⟨-, -, h⟩ := Except.bind_eq_ok.1 h
  obtain rfl := Except.pure_eq_ok.1 h
  trivial

theorem copiesWell_step (hs : CopiesWell sha256 object s) (hp : BytesKept sha256 object.id s)
    (action : MigrationAction) : CopiesWell sha256 object (s.step sha256 action) := by
  cases action with
  | startMigration call newId source destination =>
    simp only [step]
    split
    · rename_i hstart
      obtain ⟨tables, stage, rfl, hmedia⟩ := start_eq_ok hstart
      exact (hs.setTables hmedia).setStarter
    · exact hs
  | proceedStart call =>
    simp only [step, proceedStart]
    split
    · exact hs
    · exact hs.setStarter
    · exact (hs.setTables (by simp)).setStarter
    · refine (hs.setTables ?_).setStarter
      rfl
  | crashStart call => exact hs.setStarter
  | migrateObject call migrationId mediaObjectId =>
    simp only [step]
    split
    · rename_i hbegin
      exact hs.setWorker (beginObject_knows hbegin)
    · exact hs
  | proceedObject call => exact copiesWell_proceedObject hs hp
  | failObject call =>
    simp only [step, failObject]
    split <;> exact hs.setWorker trivial
  | crashObject call => exact hs.setWorker trivial
  | cleanup call migrationId =>
    simp only [step]
    split
    · rename_i hopen
      exact hs.setCleaner (openCleanup_knows hopen)
    · exact hs
  | proceedCleanup call => exact copiesWell_proceedCleanup hs
  | failCleanup call =>
    simp only [step, failCleanup]
    split <;> exact hs.setCleaner trivial
  | crashCleanup call => exact hs.setCleaner trivial

theorem bytesKept_step_iff (hs : CopiesWell sha256 object s) (hp : BytesKept sha256 object.id s)
    (action : MigrationAction) : BytesKept sha256 object.id (s.step sha256 action) ↔
      s.actsOnWhatHolds sha256 object.id action = true := by
  have hsame : ∀ {t : MigrationSystem}, t.tables.media = s.tables.media → t.store = s.store →
      BytesKept sha256 object.id t := fun hmedia hstore => (bytesKept_congr hmedia hstore).2 hp
  cases action with
  | startMigration call newId source destination =>
    refine iff_of_true ?_ rfl
    simp only [step]
    split
    · rename_i hstart
      obtain ⟨tables, stage, rfl, hmedia⟩ := start_eq_ok hstart
      exact hsame hmedia rfl
    · exact hp
  | proceedStart call =>
    refine iff_of_true ?_ rfl
    simp only [step, proceedStart]
    split
    · exact hp
    · exact hsame rfl rfl
    · exact hsame rfl rfl
    · exact hsame rfl rfl
  | crashStart call => exact iff_of_true (hsame rfl rfl) rfl
  | migrateObject call migrationId mediaObjectId =>
    refine iff_of_true ?_ rfl
    simp only [step]
    split
    · exact hsame rfl rfl
    · exact hp
  | proceedObject call => exact bytesKept_proceedObject_iff hs hp
  | failObject call =>
    refine iff_of_true ?_ rfl
    simp only [step, failObject]
    split <;> exact hsame rfl rfl
  | crashObject call => exact iff_of_true (hsame rfl rfl) rfl
  | cleanup call migrationId =>
    refine iff_of_true ?_ rfl
    simp only [step]
    split
    · exact hsame rfl rfl
    · exact hp
  | proceedCleanup call => exact bytesKept_proceedCleanup_iff hs hp
  | failCleanup call =>
    refine iff_of_true ?_ rfl
    simp only [step, failCleanup]
    split <;> exact hsame rfl rfl
  | crashCleanup call => exact iff_of_true (hsame rfl rfl) rfl

def atRest (tables : MigrationTables) (store : BackendId → StorageKey → Option Bytes) :
    MigrationSystem := { tables, store }

/-- The bytes of an object that has its key to itself are kept along a run exactly when every
cut-over and every deletion finds what was read for it. -/
theorem bytes_kept_iff {tables : MigrationTables} {store : BackendId → StorageKey → Option Bytes}
    (hobject : tables.mediaOf object.id = some object)
    (hkey : ∀ other ∈ tables.media, other.id ≠ object.id → other.storageKey ≠ object.storageKey)
    (hholds : (atRest tables store).holds sha256 object.storageBackendId object = true)
    (actions : List MigrationAction) :
    Runs.Along (step · sha256) (BytesKept sha256 object.id) (atRest tables store) actions ↔
      Runs.Meets (step · sha256) (fun s action => s.actsOnWhatHolds sha256 object.id action = true)
        (atRest tables store) actions := by
  have hrows : ∀ mediaObjectId media, tables.mediaOf mediaObjectId = some media →
      media.Other object ∨ media.SameObject object := by
    intro mediaObjectId media hmedia
    by_cases hid : media.id = object.id
    · rw [← MigrationTables.mediaOf_id hmedia, hid, hobject] at hmedia
      obtain rfl := Option.some.inj hmedia
      exact .inr ⟨rfl, rfl, rfl, rfl⟩
    · exact .inl ⟨hid, hkey media (KeyedTable.get_mem hmedia) hid⟩
  have hwell : CopiesWell sha256 object (atRest tables store) :=
    ⟨hrows, fun _ => trivial, fun _ => trivial⟩
  exact Runs.along_iff_meets (fun _ action hs hp => copiesWell_step hs hp action)
    (fun _ action hs hp => bytesKept_step_iff hs hp action) hwell ⟨object, hobject, hholds⟩

end MigrationSystem

section Examples

def photograph : MediaObjectRow where
  id := 7
  storageBackendId := 1
  storageKey := "media/7"
  sizeBytes := 3
  sha256 := "1+2+3"

def spelled (body : Bytes) : String := "+".intercalate (body.map toString)

def twoBackends : MigrationTables where
  backends := [1, 2]
  media := [photograph]

def onFirst : BackendId → StorageKey → Option Bytes := fun backend key =>
  if backend = 1 ∧ key = "media/7" then some [1, 2, 3] else none

def wholeStart (call : MigrationCallId) (id : MigrationId) (source destination : BackendId) :
    List MigrationAction :=
  .startMigration call id source destination :: List.replicate 2 (.proceedStart call)

def wholeObject (call : MigrationCallId) (id : MigrationId) : List MigrationAction :=
  .migrateObject call id 7 :: List.replicate 9 (.proceedObject call)

def wholeCleanup (call : MigrationCallId) (id : MigrationId) : List MigrationAction :=
  .cleanup call id :: List.replicate 4 (.proceedCleanup call)

def movedOver : List MigrationAction :=
  wholeStart 0 1 1 2 ++ wholeObject 0 1 ++ wholeCleanup 0 1

def movedBack : List MigrationAction :=
  wholeStart 0 1 1 2 ++ .migrateObject 1 1 7 :: List.replicate 6 (.proceedObject 1) ++
    wholeObject 0 1 ++ wholeStart 0 2 2 1 ++ wholeObject 0 2 ++ wholeCleanup 0 2 ++
    [.proceedObject 1]

theorem bytes_lost : ¬ ∀ (sha256 : Bytes → String) (object : MediaObjectRow)
    (tables : MigrationTables) (store : BackendId → StorageKey → Option Bytes)
    (actions : List MigrationAction), tables.media = [object] →
    (MigrationSystem.atRest tables store).holds sha256 object.storageBackendId object = true →
    Runs.Along (MigrationSystem.step · sha256) (MigrationSystem.BytesKept sha256 object.id)
      (MigrationSystem.atRest tables store) actions := by
  intro hall
  have hrun := (hall spelled photograph twoBackends onFirst movedBack rfl (by decide +kernel)).last
  obtain ⟨media, hmedia, hholds⟩ := hrun
  let s := Runs.run (MigrationSystem.step · spelled)
    (MigrationSystem.atRest twoBackends onFirst) movedBack
  have hkept : ((s.tables.mediaOf photograph.id).any fun media =>
      s.holds spelled media.storageBackendId media) = true := by
    rw [hmedia]
    exact hholds
  revert hkept
  decide +kernel

theorem bytes_kept_moved_over : Runs.Along (MigrationSystem.step · spelled)
    (MigrationSystem.BytesKept spelled photograph.id) (MigrationSystem.atRest twoBackends onFirst)
    movedOver :=
  (MigrationSystem.bytes_kept_iff (by decide +kernel) (by decide) (by decide +kernel)
    movedOver).2 (by decide +kernel)

end Examples

end Loxep

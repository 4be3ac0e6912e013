import Loxep.StorageMigration

/-!
# When there is one usable default backend

Whoever switches the default holds the advisory lock and the rows it has read, so that its writes
meet neither the unique index nor the check.
-/

namespace Loxep

namespace BackendTable

def OnlyDefault (t : BackendTable) (row : StorageBackendRow) : Prop :=
  t.rows.filter (·.isDefault) = [row] ∧ row.enabled = true

structure Sound (t : BackendTable) : Prop where
  unique : (t.rows.map (·.id)).Nodup
  given : ∀ row ∈ t.rows, row.id < t.nextId
  usable : ∀ row ∈ t.rows, row.isDefault = true → row.enabled = true
  single : ∀ row ∈ t.rows, ∀ other ∈ t.rows, row.isDefault = true → other.isDefault = true →
    other.id = row.id

end BackendTable

namespace BackendSystem

structure Settled (s : BackendSystem) : Prop where
  sound : s.table.Sound
  holder : ∀ lock, s.holder lock = none
  stage : ∀ call, s.stage call = .idle

def HasDefault (s : BackendSystem) : Prop := ∃ row, s.table.OnlyDefault row

def Undivided (s : BackendSystem) : Prop :=
  ∀ row ∈ s.table.rows, row.isDefault = true → s.table.OnlyDefault row

def Unviolated (s : BackendSystem) : Prop :=
  ∀ call constraint, s.stage call ≠ .finished (.violated constraint)

def Elects (s : BackendSystem) (action : BackendAction) : Prop :=
  ∀ call target cleared, action = .proceed call → s.stage call = .electionCommit target cleared →
    ∃ row, row.id = target.id ∧ (s.step action).table.OnlyDefault row

/-- Once there is a default there is exactly one, which is enabled. -/
structure DefaultKept (s : BackendSystem) (actions : List BackendAction) : Prop where
  kept : Runs.Persists step HasDefault s actions
  undivided : Runs.Along step Undivided s actions
  elected : Runs.Meets step Elects s actions
  unviolated : Runs.Along step Unviolated s actions

def isDefault (s : BackendSystem) (id : BackendId) : Bool :=
  s.table.rows.any fun row => row.id == id && row.isDefault

def deletesSparing (s : BackendSystem) : BackendAction → Bool
  | .proceed call => match s.stage call with
    | .rollingBack id =>
      !(s.free call (.row id) && !s.table.referenced id && s.isDefault id)
    | _ => true
  | _ => true

end BackendSystem

namespace BackendTable

variable {t t' : BackendTable} {row new : StorageBackendRow} {id : BackendId}
variable {f : StorageBackendRow → StorageBackendRow} {cleared : List BackendId}

def AnyDefault (t : BackendTable) : Prop := ∃ row ∈ t.rows, row.isDefault = true

theorem getBackend_mem (h : t.getBackend id = some row) : row ∈ t.rows := KeyedTable.get_mem h

theorem getBackend_id (h : t.getBackend id = some row) : row.id = id := KeyedTable.get_key h

theorem mem_otherDefaults {other : BackendId} : other ∈ t.otherDefaults id ↔
    ∃ row ∈ t.rows, row.isDefault = true ∧ row.id ≠ id ∧ row.id = other := by
  simp [otherDefaults, and_assoc]

theorem eq_singleton {l : List StorageBackendRow} (hunique : (l.map (·.id)).Nodup) (hrow : row ∈ l)
    (hsame : ∀ other ∈ l, other.id = row.id) : l = [row] := by
  rcases l with _ | ⟨a, _ | ⟨b, l⟩⟩
  · cases hrow
  · rw [List.mem_singleton.1 hrow]
  · have ha := hsame a (by simp)
    have hb := hsame b (by simp)
    simp [ha, hb] at hunique

namespace Sound

theorem onlyDefault (h : t.Sound) (hrow : row ∈ t.rows) (hdefault : row.isDefault = true) :
    t.OnlyDefault row := by
  refine ⟨eq_singleton ?_ ?_ ?_, h.usable row hrow hdefault⟩
  · exact h.unique.sublist (List.filter_sublist.map _)
  · simp [hrow, hdefault]
  · intro other hother
    obtain ⟨hother, hboth⟩ := List.mem_filter.1 hother
    exact h.single row hrow other hother hdefault hboth

theorem map (h : t.Sound) (hid : ∀ row, (f row).id = row.id)
    (husable : ∀ row ∈ t.rows, (f row).isDefault = true → (f row).enabled = true)
    (hsingle : ∀ row ∈ t.rows, ∀ other ∈ t.rows, (f row).isDefault = true →
      (f other).isDefault = true → other.id = row.id) :
    Sound { t with rows := t.rows.map f } := by
  refine ⟨?_, ?_, ?_, ?_⟩
  · have hmap : (t.rows.map f).map (·.id) = t.rows.map (·.id) := by simp [hid]
    rw [hmap]
    exact h.unique
  · simp only [List.forall_mem_map, hid]
    exact h.given
  · simp only [List.forall_mem_map]
    exact husable
  · simp only [List.forall_mem_map, hid]
    exact hsingle

theorem map_of_same (h : t.Sound) (hid : ∀ row, (f row).id = row.id)
    (hsame : ∀ row, (f row).isDefault = row.isDefault)
    (henabled : ∀ row ∈ t.rows, row.isDefault = true → (f row).enabled = true) :
    Sound { t with rows := t.rows.map f } := by
  refine h.map hid ?_ ?_
  · intro row hrow hdefault
    rw [hsame] at hdefault
    exact henabled row hrow hdefault
  · intro row hrow other hother hdefault hdefault'
    rw [hsame] at hdefault hdefault'
    exact h.single row hrow other hother hdefault hdefault'

theorem append {nextId : BackendId} (h : t.Sound) (hfresh : ∀ row ∈ t.rows, row.id ≠ new.id)
    (hplain : new.isDefault = false) (hnext : t.nextId ≤ nextId) (hgiven : new.id < nextId) :
    Sound { t with rows := t.rows ++ [new], nextId } := by
  refine ⟨?_, ?_, ?_, ?_⟩
  · rw [List.map_append, List.nodup_append]
    refine ⟨h.unique, by simp, ?_⟩
    simpa using hfresh
  · intro row hrow
    rcases List.mem_append.1 hrow with hrow | hrow
    · exact Nat.lt_of_lt_of_le (h.given row hrow) hnext
    · rw [List.mem_singleton.1 hrow]
      exact hgiven
  · intro row hrow hdefault
    rcases List.mem_append.1 hrow with hrow | hrow
    · exact h.usable row hrow hdefault
    · rw [List.mem_singleton.1 hrow, hplain] at hdefault
      cases hdefault
  · intro row hrow other hother hdefault hdefault'
    rcases List.mem_append.1 hrow with hrow | hrow
    · rcases List.mem_append.1 hother with hother | hother
      · exact h.single row hrow other hother hdefault hdefault'
      · rw [List.mem_singleton.1 hother, hplain] at hdefault'
        cases hdefault'
    · rw [List.mem_singleton.1 hrow, hplain] at hdefault
      cases hdefault

theorem insertBackend (h : t.Sound) (input : RegisterBackendInput) :
    (t.insertBackend input).Sound := by
  refine h.append ?_ rfl (Nat.le_succ _) (Nat.lt_succ_self _)
  intro row hrow
  exact Nat.ne_of_lt (h.given row hrow)

end Sound

/-- What the upsert sets leaves the default alone and disables nothing. -/
structure Harmless (f : StorageBackendRow → StorageBackendRow) : Prop where
  id : ∀ row, (f row).id = row.id
  isDefault : ∀ row, (f row).isDefault = row.isDefault
  enabled : ∀ row, row.enabled = true → (f row).enabled = true

theorem harmless_enable : Harmless fun row => { row with enabled := true } :=
  ⟨fun _ => rfl, fun _ => rfl, fun _ _ => rfl⟩

theorem harmless_link {secretId : BackendSecretId} :
    Harmless fun row => { row with secretId := some secretId } :=
  ⟨fun _ => rfl, fun _ => rfl, fun _ h => h⟩

theorem updateBackend_cases (f : StorageBackendRow → StorageBackendRow) :
    (∀ old ∈ t.rows, old.id ≠ row.id) ∧ t.updateBackend row f =
        { t with rows := t.rows ++ [{ id := row.id, name := row.name, driver := row.driver }] } ∨
      t.updateBackend row f =
        { t with rows := t.rows.map fun old => if old.id = row.id then f old else old } := by
  unfold updateBackend KeyedTable.upsert KeyedTable.set
  split_ifs with hfound
  · exact Or.inr rfl
  · refine Or.inl ⟨?_, rfl⟩
    exact KeyedTable.get_eq_none.1 (Option.not_isSome_iff_eq_none.1 hfound)

theorem Sound.updateBackend (h : t.Sound) (hf : Harmless f) (hgiven : row.id < t.nextId) :
    (t.updateBackend row f).Sound := by
  rcases updateBackend_cases f with ⟨hfresh, heq⟩ | heq
  · rw [heq]
    exact h.append hfresh rfl (Nat.le_refl _) hgiven
  · rw [heq]
    refine h.map_of_same ?_ ?_ ?_
    · intro old
      split_ifs
      · exact hf.id old
      · rfl
    · intro old
      split_ifs
      · exact hf.isDefault old
      · rfl
    · intro old hold hdefault
      split_ifs
      · exact hf.enabled old (h.usable old hold hdefault)
      · exact h.usable old hold hdefault

theorem Sound.deleteBackend (h : t.Sound) : (t.deleteBackend id).Sound := by
  unfold BackendTable.deleteBackend
  split_ifs
  · exact h
  · have hmem : ∀ row ∈ t.rows.filter (fun row => decide (row.id ≠ id)), row ∈ t.rows :=
      fun row hrow => List.mem_of_mem_filter hrow
    refine ⟨?_, ?_, ?_, ?_⟩
    · exact h.unique.sublist (List.filter_sublist.map _)
    · exact fun row hrow => h.given row (hmem row hrow)
    · exact fun row hrow => h.usable row (hmem row hrow)
    · exact fun row hrow other hother => h.single row (hmem row hrow) other (hmem other hother)

def Enabled (t : BackendTable) (id : BackendId) : Prop :=
  ∃ row ∈ t.rows, row.id = id ∧ row.enabled = true

def DefaultsIn (t : BackendTable) (id : BackendId) (cleared : List BackendId) : Prop :=
  ∀ row ∈ t.rows, row.isDefault = true → row.id = id ∨ row.id ∈ cleared

theorem getBackend_eq (h : t.Sound) (hrow : row ∈ t.rows) : t.getBackend row.id = some row := by
  rcases hfound : t.getBackend row.id with _ | found
  · exact absurd rfl (KeyedTable.get_eq_none.1 hfound row hrow)
  · have hmem := getBackend_mem hfound
    have hid := getBackend_id hfound
    rw [List.inj_on_of_nodup_map h.unique hmem hrow hid]

theorem switchDefault_isDefault (hin : t.DefaultsIn id cleared) (hrow : row ∈ t.rows)
    (hdefault : (if row.id = id then { row with isDefault := true }
      else if row.id ∈ cleared then { row with isDefault := false } else row).isDefault = true) :
    row.id = id := by
  by_contra hid
  rw [if_neg hid] at hdefault
  split_ifs at hdefault with hcleared
  rcases hin row hrow hdefault with h | h
  · exact hid h
  · exact hcleared h

theorem Sound.switchDefault (h : t.Sound) (henabled : t.Enabled id) (hin : t.DefaultsIn id cleared)
    : (t.switchDefault id cleared).Sound := by
  obtain ⟨target, htarget, htid, htenabled⟩ := henabled
  refine h.map ?_ ?_ ?_
  · intro row
    split_ifs <;> rfl
  · intro row hrow hdefault
    have hid := switchDefault_isDefault hin hrow hdefault
    have heq : row = target := List.inj_on_of_nodup_map h.unique hrow htarget (hid.trans htid.symm)
    rw [if_pos hid, heq]
    exact htenabled
  · intro row hrow other hother hdefault hdefault'
    rw [switchDefault_isDefault hin hrow hdefault, switchDefault_isDefault hin hother hdefault']

theorem switchDefault_elects (h : t.Sound) (henabled : t.Enabled id) (hin : t.DefaultsIn id cleared)
    :
    ∃ row, row.id = id ∧ (t.switchDefault id cleared).OnlyDefault row := by
  have hsound := h.switchDefault henabled hin
  obtain ⟨target, htarget, htid, -⟩ := henabled
  refine ⟨{ target with isDefault := true }, htid, ?_⟩
  refine hsound.onlyDefault ?_ rfl
  refine List.mem_map.2 ⟨target, htarget, ?_⟩
  rw [if_pos htid]

theorem Sound.disableBackend (h : t.Sound)
    (hplain : ∀ row ∈ t.rows, row.id = id → row.isDefault = false) :
    (t.disableBackend id).Sound := by
  refine h.map_of_same ?_ ?_ ?_
  · intro row
    split_ifs <;> rfl
  · intro row
    split_ifs <;> rfl
  · intro row hrow hdefault
    split_ifs with hid
    · rw [hplain row hrow hid] at hdefault
      cases hdefault
    · exact h.usable row hrow hdefault

def Plain (t : BackendTable) (id : BackendId) : Prop :=
  ∀ row ∈ t.rows, row.id = id → row.isDefault = false

structure Keeps (kept : BackendId → Prop) (t t' : BackendTable) : Prop where
  given : t.nextId ≤ t'.nextId
  rows : ∀ row ∈ t.rows, kept row.id → ∃ row' ∈ t'.rows, row'.id = row.id ∧
    row'.isDefault = row.isDefault ∧ (row.enabled = true → row'.enabled = true)
  defaults : ∀ row' ∈ t'.rows, row'.isDefault = true →
    ∃ row ∈ t.rows, row.id = row'.id ∧ row.isDefault = true

theorem keeps_append {nextId : BackendId} (hnext : t.nextId ≤ nextId)
    (hplain : new.isDefault = false) :
    Keeps (fun _ => True) t { t with rows := t.rows ++ [new], nextId } := by
  refine ⟨hnext, ?_, ?_⟩
  · intro row hrow _
    exact ⟨row, List.mem_append_left _ hrow, rfl, rfl, id⟩
  · intro row hrow hdefault
    rcases List.mem_append.1 hrow with hrow | hrow
    · exact ⟨row, hrow, rfl, hdefault⟩
    · rw [List.mem_singleton.1 hrow, hplain] at hdefault
      cases hdefault

theorem keeps_insertBackend (input : RegisterBackendInput) :
    Keeps (fun _ => True) t (t.insertBackend input) := keeps_append (Nat.le_succ _) rfl

theorem keeps_updateBackend (hf : Harmless f) :
    Keeps (fun _ => True) t (t.updateBackend row f) := by
  rcases updateBackend_cases f with ⟨-, heq⟩ | heq
  · rw [heq]
    exact keeps_append (Nat.le_refl _) rfl
  · rw [heq]
    refine ⟨Nat.le_refl _, ?_, ?_⟩
    · intro old hold _
      refine ⟨_, List.mem_map_of_mem hold, ?_⟩
      split_ifs
      · exact ⟨hf.id old, hf.isDefault old, hf.enabled old⟩
      · exact ⟨rfl, rfl, fun h => h⟩
    · intro old' hold' hdefault
      obtain ⟨old, hold, rfl⟩ := List.mem_map.1 hold'
      refine ⟨old, hold, ?_⟩
      split_ifs at hdefault ⊢
      · rw [hf.id, ← hf.isDefault]
        exact ⟨rfl, hdefault⟩
      · exact ⟨rfl, hdefault⟩

theorem keeps_deleteBackend : Keeps (· ≠ id) t (t.deleteBackend id) := by
  unfold deleteBackend
  split_ifs
  · exact ⟨Nat.le_refl _, fun row hrow _ => ⟨row, hrow, rfl, rfl, fun h => h⟩,
      fun row hrow hdefault => ⟨row, hrow, rfl, hdefault⟩⟩
  · refine ⟨Nat.le_refl _, ?_, ?_⟩
    · intro row hrow hid
      exact ⟨row, List.mem_filter.2 ⟨hrow, by simpa using hid⟩, rfl, rfl, fun h => h⟩
    · intro row hrow hdefault
      exact ⟨row, List.mem_of_mem_filter hrow, rfl, hdefault⟩

namespace Keeps

variable {kept : BackendId → Prop}

theorem mono {kept' : BackendId → Prop} (h : Keeps kept t t') (hle : ∀ id, kept' id → kept id) :
    Keeps kept' t t' := ⟨h.given, fun row hrow hid => h.rows row hrow (hle _ hid), h.defaults⟩

theorem enabled (h : Keeps kept t t') (hid : kept id) (henabled : t.Enabled id) :
    t'.Enabled id := by
  obtain ⟨row, hrow, rfl, hrowEnabled⟩ := henabled
  obtain ⟨row', hrow', hsame, -, henabled'⟩ := h.rows row hrow hid
  exact ⟨row', hrow', hsame, henabled' hrowEnabled⟩

theorem defaultsIn (h : Keeps kept t t') (hin : t.DefaultsIn id cleared) :
    t'.DefaultsIn id cleared := by
  intro row' hrow' hdefault
  obtain ⟨row, hrow, hid, hrowDefault⟩ := h.defaults row' hrow' hdefault
  rw [← hid]
  exact hin row hrow hrowDefault

theorem plain (h : Keeps kept t t') (hplain : t.Plain id) : t'.Plain id := by
  intro row' hrow' hid'
  by_contra hdefault
  obtain ⟨row, hrow, hid, hrowDefault⟩ := h.defaults row' hrow' (Bool.not_eq_false _ ▸ hdefault)
  rw [hplain row hrow (hid.trans hid')] at hrowDefault
  cases hrowDefault

theorem anyDefault (h : Keeps (fun _ => True) t t') (hany : t.AnyDefault) : t'.AnyDefault := by
  obtain ⟨row, hrow, hdefault⟩ := hany
  obtain ⟨row', hrow', -, hsame, -⟩ := h.rows row hrow trivial
  exact ⟨row', hrow', hsame.trans hdefault⟩

end Keeps

end BackendTable

section Stage

def BackendStage.holds : BackendStage → List BackendLock
  | .targeting _ | .judging _ => [.advisory]
  | .clearing target => [.advisory, .row target.id]
  | .marking target cleared => [.advisory, .row target.id] ++ cleared.map .row
  | .electionCommit target cleared =>
    [.advisory, .row target.id] ++ cleared.map .row ++ [.defaultEntry]
  | .disabling id | .retirementCommit id => [.advisory, .row id]
  | _ => []

/-- What the rows it holds let a call rely on. -/
def BackendStage.Knows (t : BackendTable) : BackendStage → Prop
  | .writingSecret row _ | .linkingSecret row _ | .enabling row => row.id < t.nextId
  | .clearing target => t.Enabled target.id
  | .marking target cleared | .electionCommit target cleared =>
    t.Enabled target.id ∧ t.DefaultsIn target.id cleared
  | .disabling id | .retirementCommit id => t.Plain id
  | .finished result => ∀ constraint, result ≠ .violated constraint
  | _ => True

variable {t t' : BackendTable} {stage next : BackendStage}

theorem BackendStage.Knows.keeps {kept : BackendId → Prop} (h : stage.Knows t)
    (hkeeps : t.Keeps kept t') (hkept : ∀ id, BackendLock.row id ∈ stage.holds → kept id) :
    stage.Knows t' := by
  cases stage with
  | writingSecret | linkingSecret | enabling => exact Nat.lt_of_lt_of_le h hkeeps.given
  | clearing target => exact hkeeps.enabled (hkept _ (by simp [holds])) h
  | marking target cleared | electionCommit target cleared =>
    exact ⟨hkeeps.enabled (hkept _ (by simp [holds])) h.1, hkeeps.defaultsIn h.2⟩
  | disabling id | retirementCommit id => exact hkeeps.plain h
  | _ => exact h

theorem BackendStage.Knows.given (h : stage.Knows t) (hfree : BackendLock.advisory ∉ stage.holds)
    (hgiven : t.nextId ≤ t'.nextId) : stage.Knows t' := by
  cases stage with
  | writingSecret | linkingSecret | enabling => exact Nat.lt_of_lt_of_le h hgiven
  | clearing | marking | electionCommit | disabling | retirementCommit => simp [holds] at hfree
  | _ => exact h

def BackendOutcome.Justified (t : BackendTable) (stage : BackendStage) : BackendOutcome → Prop
  | .goTo next => next.holds ⊆ stage.holds ∧ next.Knows t
  | .lock locks next => next.holds ⊆ stage.holds ++ locks ∧ next.Knows t
  | .write id t' next => next.holds = [] ∧ next.Knows t' ∧ t'.Sound ∧ t.Keeps (· ≠ id) t'
  | .commit t' next =>
    .advisory ∈ stage.holds ∧ next.holds = [] ∧ next.Knows t' ∧ t'.Sound ∧ t.nextId ≤ t'.nextId
  | .finish result => ∀ constraint, result ≠ .violated constraint

variable {makeDefault : Bool} {input : RegisterBackendInput} {target : DefaultTarget}

theorem holds_registeredStage {id : BackendId} :
    (registeredStage id makeDefault).holds = [] := by
  unfold registeredStage
  split_ifs <;> rfl

theorem knows_registeredStage {id : BackendId} :
    (registeredStage id makeDefault).Knows t := by
  unfold registeredStage
  split_ifs <;> trivial

theorem holds_insertedStage :
    (insertedStage t input).holds = [] := by
  unfold insertedStage
  split
  · exact holds_registeredStage
  · rfl

theorem knows_insertedStage :
    (insertedStage t input).Knows (t.insertBackend input) := by
  unfold insertedStage
  split
  · exact knows_registeredStage
  · exact Nat.lt_succ_self _

theorem justified_lockTarget :
    (lockTarget t target).Justified t (.targeting target) := by
  unfold lockTarget
  rcases hfound : t.getBackend target.id with _ | found
  · exact nofun
  · have hid := BackendTable.getBackend_id hfound
    have hmem := BackendTable.getBackend_mem hfound
    show BackendOutcome.Justified _ _ (.lock _ _)
    split_ifs with henabled
    · exact ⟨by simp [BackendStage.holds], found, hmem, hid, henabled⟩
    · exact ⟨by simp [BackendStage.holds], trivial⟩

theorem justified_markTarget {cleared : List BackendId} (ht : t.Sound)
    (h : (BackendStage.marking target cleared).Knows t) :
    (markTarget t target cleared).Justified t (.marking target cleared) := by
  obtain ⟨⟨found, hfound, hid, henabled⟩, hin⟩ := h
  have hget : t.getBackend target.id = some found := by
    rw [← hid]
    exact BackendTable.getBackend_eq ht hfound
  have hcheck : ((t.getBackend target.id).any fun row => !row.enabled) = false := by
    simp [hget, henabled]
  have hindex : (t.otherDefaults target.id).any (fun id => decide (id ∉ cleared)) = false := by
    rw [List.any_eq_false]
    intro other hother
    obtain ⟨row, hrow, hdefault, hne, rfl⟩ := BackendTable.mem_otherDefaults.1 hother
    rcases hin row hrow hdefault with h | h
    · exact absurd h hne
    · simpa using h
  unfold markTarget
  rw [hcheck, hindex]
  exact ⟨by simp [BackendStage.holds], ⟨found, hfound, hid, henabled⟩, hin⟩

theorem justified_judge (ht : t.Sound) {id : BackendId} :
    (judgeBackend t id).Justified t (.judging id) := by
  unfold judgeBackend
  rcases hfound : t.getBackend id with _ | found
  · exact nofun
  · show BackendOutcome.Justified _ _ (.lock _ _)
    split_ifs with hdefault
    · exact ⟨by simp [BackendStage.holds], trivial⟩
    · refine ⟨by simp [BackendStage.holds], ?_⟩
      intro row hrow hid
      have hget := BackendTable.getBackend_eq ht hrow
      rw [hid, hfound] at hget
      rw [← Option.some.inj hget]
      exact Bool.eq_false_iff.2 hdefault

theorem justified_proceed (ht : t.Sound) (h : stage.Knows t) :
    (proceedBackend t stage).Justified t stage := by
  cases stage with
  | idle => exact ⟨fun _ h => h, trivial⟩
  | inserting input =>
    refine ⟨holds_insertedStage, knows_insertedStage, ht.insertBackend input, ?_⟩
    exact (BackendTable.keeps_insertBackend input).mono fun _ _ => trivial
  | writingSecret row makeDefault => exact ⟨fun _ h => h, h⟩
  | linkingSecret row makeDefault =>
    refine ⟨holds_registeredStage, knows_registeredStage,
      ht.updateBackend BackendTable.harmless_link h, ?_⟩
    exact (BackendTable.keeps_updateBackend BackendTable.harmless_link).mono fun _ _ => trivial
  | rollingBack id => exact ⟨rfl, nofun, ht.deleteBackend, BackendTable.keeps_deleteBackend⟩
  | returning id =>
    intro constraint
    unfold readReturned
    split_ifs <;> nofun
  | electing target => exact ⟨by simp [BackendStage.holds], trivial⟩
  | targeting target => exact justified_lockTarget
  | clearing target =>
    refine ⟨by simp [BackendStage.holds], h, ?_⟩
    intro row hrow hdefault
    by_cases hid : row.id = target.id
    · exact Or.inl hid
    · exact Or.inr (BackendTable.mem_otherDefaults.2 ⟨row, hrow, hdefault, hid, rfl⟩)
  | marking target cleared => exact justified_markTarget ht h
  | electionCommit target cleared =>
    refine ⟨by simp [BackendStage.holds], ?_, ?_, ht.switchDefault h.1 h.2, Nat.le_refl _⟩
    · split_ifs <;> rfl
    · split_ifs
      · trivial
      · exact nofun
  | reading id =>
    show (readEnabling t id).Justified t _
    unfold readEnabling
    rcases hfound : t.getBackend id with _ | found
    · exact nofun
    · exact ⟨fun _ h => h, ht.given found (BackendTable.getBackend_mem hfound)⟩
  | enabling row =>
    refine ⟨rfl, nofun, ht.updateBackend BackendTable.harmless_enable h, ?_⟩
    exact (BackendTable.keeps_updateBackend BackendTable.harmless_enable).mono fun _ _ => trivial
  | retiring id => exact ⟨by simp [BackendStage.holds], trivial⟩
  | judging id => exact justified_judge ht
  | disabling id =>
    have hcheck : (t.getBackend id).any (·.isDefault) = false := by
      rcases hfound : t.getBackend id with _ | found
      · rfl
      · have hplain := h found (BackendTable.getBackend_mem hfound)
          (BackendTable.getBackend_id hfound)
        simp [hplain]
    show (writeDisabled t id).Justified t _
    unfold writeDisabled
    rw [hcheck]
    exact ⟨fun _ h => h, h⟩
  | retirementCommit id =>
    exact ⟨by simp [BackendStage.holds], rfl, nofun, ht.disableBackend h, Nat.le_refl _⟩
  | refusing message => exact nofun
  | finished result => exact ⟨fun _ h => h, h⟩

theorem justified_fail (h : stage.Knows t) : (failBackend stage).Justified t stage := by
  cases stage with
  | idle | finished => exact ⟨fun _ h => h, h⟩
  | writingSecret | linkingSecret => exact ⟨fun _ h => h, trivial⟩
  | _ => exact nofun

theorem justified_crash (h : stage.Knows t) : (crashBackend stage).Justified t stage := by
  cases stage with
  | idle | finished => exact ⟨fun _ h => h, h⟩
  | _ => exact nofun

end Stage

namespace BackendSystem

variable {s : BackendSystem} {call : BackendCallId} {outcome : BackendOutcome}
variable {action : BackendAction}

structure Inv (s : BackendSystem) : Prop where
  sound : s.table.Sound
  held : ∀ call, ∀ lock ∈ (s.stage call).holds, s.holder lock = some call
  knows : ∀ call, (s.stage call).Knows s.table

theorem Settled.inv (h : s.Settled) : s.Inv := by
  refine ⟨h.sound, ?_, ?_⟩
  · intro call lock hlock
    rw [h.stage call] at hlock
    cases hlock
  · intro call
    rw [h.stage call]
    trivial

namespace Inv

theorem moved (hs : s.Inv) {s' : BackendSystem} {next : BackendStage} (hsound : s'.table.Sound)
    (hstage : ∀ other, s'.stage other = if other = call then next else s.stage other)
    (hheld : ∀ lock ∈ next.holds, s'.holder lock = some call) (hknows : next.Knows s'.table)
    (hkept : ∀ other lock, other ≠ call → s.holder lock = some other →
      s'.holder lock = some other)
    (hrest : ∀ other, other ≠ call → (s.stage other).Knows s'.table) : s'.Inv := by
  refine ⟨hsound, ?_, ?_⟩
  · intro other lock hlock
    rw [hstage] at hlock
    split_ifs at hlock with hsame
    · rw [hsame]
      exact hheld lock hlock
    · exact hkept other lock hsame (hs.held other lock hlock)
  · intro other
    rw [hstage]
    split_ifs with hsame
    · exact hknows
    · exact hrest other hsame

theorem goTo (hs : s.Inv) {next : BackendStage} (hholds : next.holds ⊆ (s.stage call).holds)
    (hknows : next.Knows s.table) : (s.setStage call next).Inv :=
  hs.moved hs.sound (fun _ => rfl) (fun lock hlock => hs.held call lock (hholds hlock)) hknows
    (fun _ _ _ h => h) (fun other _ => hs.knows other)

theorem not_free {lock : BackendLock} {other : BackendCallId} (hother : s.holder lock = some other)
    (hne : other ≠ call) : s.free call lock = false := by
  simp [free, hother, hne]

section

variable (hs : s.Inv)
include hs

theorem lock {next : BackendStage} {locks : List BackendLock}
    (hholds : next.holds ⊆ (s.stage call).holds ++ locks) (hknows : next.Knows s.table) :
    (s.lock call locks next).Inv := by
  unfold BackendSystem.lock
  split_ifs with hfree
  · refine hs.moved hs.sound (fun _ => rfl) ?_ hknows ?_ (fun other _ => hs.knows other)
    · intro lock hlock
      show (if lock ∈ locks then some call else s.holder lock) = some call
      rcases List.mem_append.1 (hholds hlock) with hold | hnew
      · rw [hs.held call lock hold, ite_self]
      · rw [if_pos hnew]
    · intro other lock hne hother
      show (if lock ∈ locks then some call else s.holder lock) = some other
      rw [if_neg, hother]
      intro hmem
      have hlock := List.all_eq_true.1 hfree lock hmem
      rw [not_free hother hne] at hlock
      cases hlock
  · exact hs

theorem write {next : BackendStage} {id : BackendId} {t : BackendTable} (hholds : next.holds = [])
    (hknows : next.Knows t) (ht : t.Sound) (hkeeps : s.table.Keeps (· ≠ id) t)
    : (s.write call id t next).Inv := by
  unfold BackendSystem.write
  split_ifs with hfree
  · refine hs.moved ht (fun _ => rfl) ?_ hknows (fun _ _ _ h => h) ?_
    · rw [hholds]
      exact fun lock hlock => absurd hlock List.not_mem_nil
    · intro other hne
      refine (hs.knows other).keeps hkeeps ?_
      rintro locked hlocked rfl
      rw [not_free (hs.held other _ hlocked) hne] at hfree
      cases hfree
  · exact hs

theorem released {next : BackendStage} {t : BackendTable} (hholds : next.holds = [])
    (hknows : next.Knows t) (ht : t.Sound) (hrest : ∀ other, other ≠ call → (s.stage other).Knows t)
    :
    Inv { (s.setStage call next).release call with table := t } := by
  refine hs.moved ht (fun _ => rfl) ?_ hknows ?_ hrest
  · rw [hholds]
    exact fun lock hlock => absurd hlock List.not_mem_nil
  · intro other lock hne hother
    show (if s.holder lock = some call then none else s.holder lock) = some other
    rw [if_neg, hother]
    rw [hother]
    exact fun h => hne (Option.some.inj h)

theorem commit {next : BackendStage} {t : BackendTable}
    (hadvisory : .advisory ∈ (s.stage call).holds) (hholds : next.holds = [])
    (hknows : next.Knows t) (ht : t.Sound) (hgiven : s.table.nextId ≤ t.nextId) :
    Inv { (s.setStage call next).release call with table := t } := by
  refine hs.released hholds hknows ht fun other hne => (hs.knows other).given ?_ hgiven
  intro hother
  have h := hs.held other .advisory hother
  rw [hs.held call .advisory hadvisory] at h
  exact hne (Option.some.inj h).symm

theorem take (h : outcome.Justified s.table (s.stage call)) :
    (s.take call outcome).Inv := by
  cases outcome with
  | goTo next => exact hs.goTo h.1 h.2
  | lock locks next => exact hs.lock h.1 h.2
  | write id t next => exact hs.write h.1 h.2.1 h.2.2.1 h.2.2.2
  | commit t next =>
    obtain ⟨hadvisory, hholds, hknows, ht, hgiven⟩ := h
    exact hs.commit hadvisory hholds hknows ht hgiven
  | finish result => exact hs.released rfl h hs.sound fun other _ => hs.knows other

theorem refer (referenced : BackendId → Bool) :
    Inv { s with table := { s.table with referenced } } := by
  have hkeeps : s.table.Keeps (fun _ => True) { s.table with referenced } :=
    ⟨Nat.le_refl _, fun row hrow _ => ⟨row, hrow, rfl, rfl, fun h => h⟩,
      fun row hrow hdefault => ⟨row, hrow, rfl, hdefault⟩⟩
  obtain ⟨hunique, hgiven, husable, hsingle⟩ := hs.sound
  exact ⟨⟨hunique, hgiven, husable, hsingle⟩, hs.held,
    fun call => (hs.knows call).keeps hkeeps fun _ _ => trivial⟩

theorem step (action : BackendAction) : (s.step action).Inv := by
  cases action with
  | begin call request =>
    unfold BackendSystem.step
    simp only
    split
    · refine hs.goTo ?_ ?_ <;> cases request <;> simp [BackendCall.firstStage, BackendStage.holds,
        BackendStage.Knows]
    · exact hs
  | proceed call => exact hs.take (justified_proceed hs.sound (hs.knows call))
  | fail call => exact hs.take (justified_fail (hs.knows call))
  | crash call => exact hs.take (justified_crash (hs.knows call))
  | refer id referenced => exact hs.refer _

theorem undivided : s.Undivided := fun _ hrow hdefault =>
  hs.sound.onlyDefault hrow hdefault

theorem unviolated : s.Unviolated := by
  intro call constraint hstage
  have h := hs.knows call
  rw [hstage] at h
  exact h constraint rfl

theorem elects : s.Elects action := by
  rintro call target cleared rfl hstage
  have h := hs.knows call
  rw [hstage] at h
  have hstep : (s.step (.proceed call)).table = s.table.switchDefault target.id cleared := by
    show (s.take call (proceedBackend s.table (s.stage call))).table = _
    rw [hstage]
    rfl
  rw [hstep]
  exact BackendTable.switchDefault_elects hs.sound h.1 h.2

theorem hasDefault_iff : s.HasDefault ↔ s.table.AnyDefault := by
  constructor
  · rintro ⟨row, honly, -⟩
    have hrow : row ∈ s.table.rows.filter (·.isDefault) := by rw [honly]; simp
    exact ⟨row, (List.mem_filter.1 hrow).1, (List.mem_filter.1 hrow).2⟩
  · rintro ⟨row, hrow, hdefault⟩
    exact ⟨row, hs.sound.onlyDefault hrow hdefault⟩

end

end Inv

end BackendSystem

namespace BackendOutcome

def written : BackendOutcome → Option BackendTable
  | .write _ table _ | .commit table _ => some table
  | _ => none

end BackendOutcome

namespace BackendTable

variable {t : BackendTable}

theorem anyDefault_switchDefault {id : BackendId} {cleared : List BackendId} (h : t.Enabled id)
    : (t.switchDefault id cleared).AnyDefault := by
  obtain ⟨row, hrow, hid, -⟩ := h
  refine ⟨_, List.mem_map_of_mem hrow, ?_⟩
  rw [if_pos hid]

theorem anyDefault_disableBackend {id : BackendId} (h : t.AnyDefault) :
    (t.disableBackend id).AnyDefault := by
  obtain ⟨row, hrow, hdefault⟩ := h
  refine ⟨_, List.mem_map_of_mem hrow, ?_⟩
  split_ifs <;> exact hdefault

theorem anyDefault_deleteBackend_iff (ht : t.Sound) {id : BackendId} :
    (t.AnyDefault → (t.deleteBackend id).AnyDefault) ↔
      (t.referenced id = true ∨ t.Plain id) := by
  unfold deleteBackend
  split_ifs with hreferenced
  · exact iff_of_true (fun h => h) (Or.inl hreferenced)
  · rw [or_iff_right hreferenced]
    constructor
    · intro hkeeps row hrow hid
      by_contra hdefault
      replace hdefault : row.isDefault = true := by simpa using hdefault
      obtain ⟨other, hother, hother'⟩ := hkeeps ⟨row, hrow, hdefault⟩
      obtain ⟨hmem, hne⟩ := List.mem_filter.1 hother
      have hsame := ht.single row hrow other hmem hdefault hother'
      simp [hsame, hid] at hne
    · rintro hplain ⟨row, hrow, hdefault⟩
      refine ⟨row, List.mem_filter.2 ⟨hrow, ?_⟩, hdefault⟩
      by_contra hid
      rw [hplain row hrow (by simpa using hid)] at hdefault
      cases hdefault

end BackendTable

section Written

variable {t t' : BackendTable} {stage : BackendStage}

variable {target : DefaultTarget}

theorem written_lockTarget : (lockTarget t target).written = none := by
  unfold lockTarget
  split <;> rfl

theorem written_markTarget {cleared : List BackendId} :
    (markTarget t target cleared).written = none := by
  unfold markTarget
  split_ifs <;> rfl

theorem written_readEnabling {id : BackendId} : (readEnabling t id).written = none := by
  unfold readEnabling
  split <;> rfl

theorem written_judgeBackend {id : BackendId} : (judgeBackend t id).written = none := by
  unfold judgeBackend
  split <;> rfl

theorem written_writeDisabled {id : BackendId} : (writeDisabled t id).written = none := by
  unfold writeDisabled
  split_ifs <;> rfl

theorem anyDefault_written (hstage : ∀ id, stage ≠ .rollingBack id) (h : stage.Knows t)
    (hany : t.AnyDefault) (hwritten : (proceedBackend t stage).written = some t') :
    t'.AnyDefault := by
  cases stage with
  | rollingBack id => exact absurd rfl (hstage id)
  | inserting input =>
    rw [← Option.some.inj hwritten]
    exact (BackendTable.keeps_insertBackend input).anyDefault hany
  | linkingSecret row makeDefault =>
    rw [← Option.some.inj hwritten]
    exact (BackendTable.keeps_updateBackend BackendTable.harmless_link).anyDefault hany
  | enabling row =>
    rw [← Option.some.inj hwritten]
    exact (BackendTable.keeps_updateBackend BackendTable.harmless_enable).anyDefault hany
  | electionCommit target cleared =>
    rw [← Option.some.inj hwritten]
    exact BackendTable.anyDefault_switchDefault h.1
  | retirementCommit id =>
    rw [← Option.some.inj hwritten]
    exact BackendTable.anyDefault_disableBackend hany
  | targeting target => cases written_lockTarget.symm.trans hwritten
  | marking target cleared => cases written_markTarget.symm.trans hwritten
  | reading id => cases written_readEnabling.symm.trans hwritten
  | judging id => cases written_judgeBackend.symm.trans hwritten
  | disabling id => cases written_writeDisabled.symm.trans hwritten
  | _ => cases hwritten

end Written

namespace BackendSystem

variable {s : BackendSystem} {call : BackendCallId} {outcome : BackendOutcome}
variable {action : BackendAction}

theorem anyDefault_take (hany : s.table.AnyDefault)
    (h : ∀ t, outcome.written = some t → t.AnyDefault) :
    (s.take call outcome).table.AnyDefault := by
  cases outcome with
  | goTo | finish => exact hany
  | lock locks next =>
    unfold take BackendSystem.lock
    dsimp only
    split_ifs <;> exact hany
  | write id t next =>
    unfold take BackendSystem.write
    dsimp only
    split_ifs
    · exact h t rfl
    · exact hany
  | commit t next => exact h t rfl

theorem written_fail {stage : BackendStage} : (failBackend stage).written = none := by
  cases stage <;> rfl

theorem written_crash {stage : BackendStage} : (crashBackend stage).written = none := by
  cases stage <;> rfl

theorem isDefault_eq_false_iff {id : BackendId} : s.isDefault id = false ↔ s.table.Plain id := by
  simp [isDefault, BackendTable.Plain]

theorem rollback_keeps_iff (hs : s.Inv) {id : BackendId} (hstage : s.stage call = .rollingBack id) :
    (s.table.AnyDefault → (s.step (.proceed call)).table.AnyDefault) ↔
      s.deletesSparing (.proceed call) = true := by
  have htable : (s.step (.proceed call)).table =
      if s.free call (.row id) then s.table.deleteBackend id else s.table := by
    show (s.take call (proceedBackend s.table (s.stage call))).table = _
    rw [hstage]
    show (s.write call id _ _).table = _
    unfold BackendSystem.write
    split_ifs <;> rfl
  rw [htable]
  simp only [deletesSparing, hstage]
  by_cases hfree : s.free call (.row id) = true
  · rw [if_pos hfree, BackendTable.anyDefault_deleteBackend_iff hs.sound,
      ← isDefault_eq_false_iff]
    simp only [hfree, Bool.true_and, Bool.not_and, Bool.not_not, Bool.or_eq_true,
      Bool.not_eq_true']
  · rw [if_neg hfree]
    refine iff_of_true (fun h => h) ?_
    rw [Bool.eq_false_iff.2 hfree]
    rfl

theorem step_keeps_iff (hs : s.Inv) : (s.HasDefault → (s.step action).HasDefault) ↔
    s.deletesSparing action = true := by
  rw [hs.hasDefault_iff, (hs.step action).hasDefault_iff]
  cases action with
  | begin call request =>
    refine iff_of_true (fun h => ?_) rfl
    unfold step
    simp only
    split <;> exact h
  | proceed call =>
    by_cases hrolling : ∃ id, s.stage call = .rollingBack id
    · obtain ⟨id, hstage⟩ := hrolling
      exact rollback_keeps_iff hs hstage
    · have hother : ∀ id, s.stage call ≠ .rollingBack id := fun id h => hrolling ⟨id, h⟩
      refine iff_of_true (fun hany => ?_) ?_
      · exact anyDefault_take hany fun t => anyDefault_written hother (hs.knows call) hany
      · show (match s.stage call with
          | .rollingBack id => _
          | _ => true) = true
        split
        · exact absurd ‹_› (hother _)
        · rfl
  | fail call =>
    refine iff_of_true (fun hany => anyDefault_take hany fun t h => ?_) rfl
    cases written_fail.symm.trans h
  | crash call =>
    refine iff_of_true (fun hany => anyDefault_take hany fun t h => ?_) rfl
    cases written_crash.symm.trans h
  | refer id referenced => exact iff_of_true (fun h => h) rfl

theorem inv_step (s : BackendSystem) (action : BackendAction) (hs : s.Inv) :
    (s.step action).Inv := hs.step action

theorem persists_hasDefault_iff {actions : List BackendAction} (hs : s.Inv) :
    Runs.Persists step HasDefault s actions ↔
      Runs.Meets step (fun s action => s.deletesSparing action = true) s actions := by
  rw [Runs.persists_iff_meets]
  exact Runs.meets_iff_meets inv_step (fun s action h => step_keeps_iff h) hs

/-- Calls on backends keep one enabled default exactly as long as no registration that takes its row
back deletes the default one. -/
theorem default_kept_iff {s : BackendSystem} {actions : List BackendAction} (hs : s.Settled) :
    s.DefaultKept actions ↔
      Runs.Meets step (fun s action => s.deletesSparing action = true) s actions := by
  constructor
  · intro h
    exact (persists_hasDefault_iff hs.inv).1 h.kept
  · intro h
    have halong : Runs.Along step Inv s actions := Runs.along_of_step inv_step hs.inv
    refine ⟨(persists_hasDefault_iff hs.inv).2 h, halong.mono fun s => Inv.undivided, ?_,
      halong.mono fun s => Inv.unviolated⟩
    exact Runs.Meets.of_invariant (fun s action hs _ => inv_step s action hs)
      (fun s action hs _ => hs.elects) hs.inv h

end BackendSystem

section Examples

namespace SmallBackends

open BackendAction

def registered (call : BackendCallId) (driver : StorageDriverFamily) (makeDefault : Bool) :
    BackendAction := begin call (.registerBackend { name := "media", driver, makeDefault })

def half : List BackendAction :=
  registered 0 .local true :: List.replicate 7 (proceed 0) ++ [registered 1 .s3 false, proceed 1]

def lost : List BackendAction :=
  half ++ begin 2 (.setDefaultBackend 1) :: List.replicate 5 (proceed 2) ++ [fail 1, proceed 1]

def refused : List BackendAction :=
  half ++ [begin 2 (.setDefaultBackend 1), fail 1, proceed 1] ++ List.replicate 5 (proceed 2)

theorem settled : BackendSystem.Settled {} := by
  refine ⟨⟨by simp, ?_, ?_, ?_⟩, fun _ => rfl, fun _ => rfl⟩ <;> exact nofun

end SmallBackends

open SmallBackends BackendSystem

theorem default_taken_back : ¬ ∀ actions, BackendSystem.DefaultKept {} actions := by
  intro h
  have hkept := (persists_hasDefault_iff settled.inv).1 (h lost).kept
  revert hkept
  decide

theorem default_outlives_refusal : BackendSystem.DefaultKept {} refused :=
  (default_kept_iff settled).2 (by decide)

end Examples

end Loxep

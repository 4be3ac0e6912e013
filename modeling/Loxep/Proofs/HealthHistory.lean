import Loxep.Health
import Loxep.Lib.History

/-!
# What a health row tells of the checks

Applied one after another, checks leave a row that tells their number of failures since the last
success, their last change of status and their last times.
-/

namespace Loxep

/-- The row is what the checks, the newest last, leave of a subject. -/
structure HealthRow.Tells (row : HealthRow) (history : List HealthCheck) : Prop where
  last : ∃ earlier check, history = earlier ++ [check] ∧ row.status = check.status ∧
    row.source = check.source ∧ row.checkedAt = check.checkedAt ∧ row.detail = check.detail
  failures : row.consecutiveFailures = History.trailing (·.status != .ok) history
  success : row.lastSuccessAt = (History.latest (·.status == .ok) history).map (·.checkedAt)
  failure : row.lastFailureAt = (History.latest (·.status != .ok) history).map (·.checkedAt)
  previous : row.previousStatus =
    (History.lastChange HealthCheck.status history).map (·.1.status)
  changed : row.statusChangedAt =
    (History.lastChange HealthCheck.status history).map (·.2.checkedAt)

def Tell (existing : Option HealthRow) (history : List HealthCheck) : Prop :=
  match existing with
  | none => history = []
  | some row => row.Tells history

section Tells

variable {existing : Option HealthRow} {history : List HealthCheck} {check : HealthCheck}
  {row : HealthRow} {now : Timestamp}

theorem tells_first : (check.rowAfter none now).Tells [check] where
  last := ⟨[], check, rfl, rfl, rfl, rfl, rfl⟩
  failures := by
    rw [← List.nil_append [check], History.trailing_append]
    by_cases hok : check.status = .ok <;> simp [HealthCheck.rowAfter, hok]
  success := by
    rw [← List.nil_append [check], History.latest_append]
    by_cases hok : check.status = .ok <;> simp [HealthCheck.rowAfter, hok]
  failure := by
    rw [← List.nil_append [check], History.latest_append]
    by_cases hok : check.status = .ok <;> simp [HealthCheck.rowAfter, hok]
  previous := rfl
  changed := rfl

theorem HealthRow.Tells.rowAfter (h : row.Tells history) :
    (check.rowAfter (some row) now).Tells (history ++ [check]) := by
  obtain ⟨earlier, newest, rfl, hstatus, -, -, -⟩ := h.last
  have hchange : History.lastChange HealthCheck.status (earlier ++ [newest] ++ [check]) =
      if newest.status = check.status
        then History.lastChange HealthCheck.status (earlier ++ [newest])
        else some (newest, check) := by
    rw [List.append_assoc, List.singleton_append, History.lastChange_append]
  constructor
  · exact ⟨_, check, rfl, rfl, rfl, rfl, rfl⟩
  · rw [History.trailing_append, ← h.failures]
    by_cases hok : check.status = .ok <;> simp [HealthCheck.rowAfter, hok]
  · rw [History.latest_append]
    by_cases hok : check.status = .ok
    · simp [HealthCheck.rowAfter, hok]
    · simp [HealthCheck.rowAfter, hok, h.success]
  · rw [History.latest_append]
    by_cases hok : check.status = .ok
    · simp [HealthCheck.rowAfter, hok, h.failure]
    · simp [HealthCheck.rowAfter, hok]
  · rw [hchange]
    by_cases hsame : newest.status = check.status
    · simp [HealthCheck.rowAfter, hstatus, hsame, h.previous]
    · simp [HealthCheck.rowAfter, hstatus, hsame]
  · rw [hchange]
    by_cases hsame : newest.status = check.status
    · simp [HealthCheck.rowAfter, hstatus, hsame, h.changed]
    · simp [HealthCheck.rowAfter, hstatus, hsame]

theorem Tell.rowAfter (h : Tell existing history) :
    (check.rowAfter existing now).Tells (history ++ [check]) := by
  cases existing with
  | none =>
    have hnil : history = [] := h
    subst hnil
    exact tells_first
  | some row =>
    have htells : row.Tells history := h
    exact htells.rowAfter

end Tells

namespace HealthSystem

/-- Every subject's row is what its returned checks leave in some order, and no check that has
returned is newer than the row. -/
def Counted (s : HealthSystem) : Prop :=
  ∀ subject, ∃ order : List HealthCheck, order.Perm (s.returnedOf subject) ∧
    Tell (s.findExisting subject) order ∧
      ∀ row ∈ s.findExisting subject, ∀ check ∈ order, check.checkedAt ≤ row.checkedAt

structure InOrder (s : HealthSystem) : Prop where
  tell : ∀ subject, Tell (s.findExisting subject) (s.returnedOf subject)
  newest : ∀ subject, ∀ row ∈ s.findExisting subject, ∀ check ∈ s.returnedOf subject,
    check.checkedAt ≤ row.checkedAt

def FindsItsRow (s : HealthSystem) : HealthAction → Prop
  | .write session _ =>
    match s.stage session with
    | .idle => True
    | .read check existing => s.findExisting check.subject = existing ∧
        ∀ row ∈ existing, row.checkedAt ≤ check.checkedAt
  | _ => True

variable {s : HealthSystem} {session : HealthSessionId} {check : HealthCheck}
  {existing : Option HealthRow} {now : Timestamp}

theorem InOrder.counted (h : s.InOrder) : s.Counted :=
  fun subject => ⟨s.returnedOf subject, List.Perm.refl _, h.tell subject, h.newest subject⟩

theorem InOrder.setStage (h : s.InOrder) (stage : HealthStage) :
    (s.setStage session stage).InOrder := ⟨h.tell, h.newest⟩

theorem findExisting_written {row : HealthRow} (subject : HealthSubject) :
    KeyedTable.get HealthRow.subject
        (KeyedTable.upsert HealthRow.subject s.rows row fun _ => row) subject =
      if subject = row.subject then some row else s.findExisting subject := by
  rw [KeyedTable.get_upsert fun _ _ => rfl]
  split_ifs
  · cases KeyedTable.get HealthRow.subject s.rows subject <;> rfl
  · rfl

theorem InOrder.upsert (h : s.InOrder) (hfound : s.findExisting check.subject = existing)
    (hnewer : ∀ row ∈ existing, row.checkedAt ≤ check.checkedAt) :
    (s.upsert session check (check.rowAfter existing now)).InOrder := by
  unfold HealthSystem.upsert
  split_ifs
  · exact h.setStage .idle
  · have hreturned : ∀ subject, (s.returned ++ [check]).filter (·.subject = subject) =
        s.returnedOf subject ++ if check.subject = subject then [check] else [] := by
      intro subject
      rw [List.filter_append, List.filter_singleton]
      by_cases hsame : check.subject = subject <;> simp [hsame, returnedOf]
    have hrow : (check.rowAfter existing now).subject = check.subject := rfl
    have htell := h.tell check.subject
    rw [hfound] at htell
    constructor
    · intro subject
      simp only [findExisting, returnedOf, hreturned, findExisting_written, hrow]
      by_cases hsame : subject = check.subject
      · subst hsame
        rw [if_pos rfl, if_pos rfl]
        exact htell.rowAfter
      · rw [if_neg hsame, if_neg (Ne.symm hsame), List.append_nil]
        exact h.tell subject
    · intro subject row hmem other hother
      simp only [findExisting, returnedOf, hreturned, findExisting_written, hrow] at hmem hother
      by_cases hsame : subject = check.subject
      · subst hsame
        rw [if_pos rfl, Option.mem_some_iff] at hmem
        subst hmem
        rw [if_pos rfl, List.mem_append, List.mem_singleton] at hother
        rcases hother with hother | rfl
        · cases existing with
          | none =>
            have hnil : s.returnedOf check.subject = [] := htell
            have hnone : other ∈ s.returnedOf check.subject := hother
            rw [hnil] at hnone
            simp at hnone
          | some old =>
            exact (h.newest _ old hfound other hother).trans (hnewer old rfl)
        · exact le_refl _
      · rw [if_neg hsame] at hmem
        rw [if_neg (Ne.symm hsame), List.append_nil] at hother
        exact h.newest subject row hmem other hother

theorem InOrder.step (h : s.InOrder) {action : HealthAction} (hguard : s.FindsItsRow action) :
    (s.step action).InOrder := by
  cases action with
  | call session input now =>
    simp only [HealthSystem.step]
    split
    · exact h.setStage _
    · exact h
  | write session now =>
    simp only [HealthSystem.step, FindsItsRow] at hguard ⊢
    cases hstage : s.stage session with
    | idle => exact h
    | read check existing =>
      rw [hstage] at hguard
      exact h.upsert hguard.1 hguard.2
  | fail session => exact h.setStage .idle

/-- In every run in which each call that writes finds the row it has read, every row is what the
returned checks leave. -/
theorem health_counted {actions : List HealthAction} (h : Runs.Meets step FindsItsRow start actions)
    :
    Runs.Along step Counted start actions := by
  have hstart : start.InOrder := ⟨fun _ => rfl, fun _ _ hrow => by simp [start, findExisting,
    KeyedTable.get] at hrow⟩
  exact (Runs.along_of_meets (fun s a hs hguard => hs.step hguard) hstart h).mono
    fun s hs => hs.counted

end HealthSystem

section Examples

namespace Probed

def subject : HealthSubject := (.connection, 1)

def at9 (minute : ℕ) : Timestamp := ⟨⟨2026, 3, 2⟩, (540 + minute) * 60000000⟩

def check (session : HealthSessionId) (status : HealthStatus) (minute : ℕ) : HealthAction :=
  .call session { subject, status, source := .probe, checkedAt := some (at9 minute) } (at9 minute)

def twice : List HealthAction :=
  [check 1 .failing 0, check 2 .failing 1, .write 1 (at9 1), .write 2 (at9 1)]

def inTurn : List HealthAction :=
  [check 1 .failing 0, .write 1 (at9 0), check 2 .degraded 1, .write 2 (at9 1)]

end Probed

theorem failure_not_counted : ¬ ∀ actions : List HealthAction,
    Runs.Along HealthSystem.step HealthSystem.Counted HealthSystem.start actions := by
  intro hall
  obtain ⟨order, horder, htell, -⟩ := (hall Probed.twice).last Probed.subject
  have hreturned : ∀ check ∈ (Runs.run HealthSystem.step HealthSystem.start
      Probed.twice).returnedOf Probed.subject, (check.status != .ok) = true := by
    decide +kernel
  have hfailed : ∀ check ∈ order, (check.status != .ok) = true :=
    fun check hcheck => hreturned check (horder.mem_iff.1 hcheck)
  have htrailing : History.trailing (·.status != .ok) order = 2 := by
    rw [History.trailing, List.rtakeWhile_eq_self_iff.2 hfailed, horder.length_eq]
    rfl
  have hfailures := HealthRow.Tells.failures htell
  rw [htrailing] at hfailures
  exact absurd hfailures (by decide)

theorem failures_counted_in_turn :
    Runs.Along HealthSystem.step HealthSystem.Counted HealthSystem.start Probed.inTurn := by
  refine HealthSystem.health_counted ⟨trivial, ⟨rfl, ?_⟩, trivial, ⟨rfl, ?_⟩, trivial⟩
  · intro row hrow
    cases hrow
  · intro row hrow
    cases hrow
    decide

end Examples

end Loxep

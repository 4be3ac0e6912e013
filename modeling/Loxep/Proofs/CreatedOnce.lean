import Loxep.Lib.Runs
import Loxep.ProviderOperations

/-!
# One create for a key

The ledger lets every caller proceed on a failed row, and the callers mark a row failed after any
error and after reads that may be early.
-/

namespace Loxep

namespace LedgerRun

variable {n : ℕ} (jobs : Fin n → LedgeredCreate) (s : LedgerRun n)

section Spec

def Effective (w : Fin n) : Prop :=
  (s.workers w).call = some .executed ∧ (s.workers w).settled = false

def Underway (w : Fin n) : Prop :=
  (s.workers w).phase = .told ∨ (s.workers w).call = some .inFlight

def Unknown (w : Fin n) : Prop := (s.workers w).phase = .lost ∧ (s.workers w).settled = false

/-- A key has one effective create, and a worker is told to proceed only while no other's is in
flight, in effect or of unknown outcome. -/
structure CreatesOnce : Prop where
  effective : ∀ w w', (jobs w).key = (jobs w').key → s.Effective w → s.Effective w' → w = w'
  alone : ∀ w w', (jobs w).key = (jobs w').key → (s.workers w).phase = .told → w' ≠ w →
    ¬ s.Underway w' ∧ ¬ s.Effective w' ∧ ¬ s.Unknown w'

/-- A worker was told to proceed and its call may still take effect, or has, unseen by any read. -/
def Open (w : Fin n) : Prop :=
  (s.workers w).settled = false ∧
    ((s.workers w).phase ∈ [.told, .calling, .returned, .recorded, .raised, .lost] ∨
      (s.workers w).call = some .inFlight ∨ (s.workers w).call = some .executed)

instance (w : Fin n) : Decidable (s.Effective w) :=
  inferInstanceAs (Decidable (_ ∧ _))

instance (w : Fin n) : Decidable (s.Open w) :=
  inferInstanceAs (Decidable (_ ∧ _))

/-- A worker marks a row failed when its own call, if it made one, was refused and no other create
of the key is open, and it proceeds on a failed row only once. -/
def MarksRightly : LedgerAction n → Prop
  | .begin w _ _ => ∀ row, s.ledger.get (jobs w).key = some row → row.status = .failed →
      s.retried (jobs w).key = false
  | .record w _ => (s.workers w).phase = .raised ∨ (s.workers w).phase = .readBack false →
      (s.workers w).call ∉ [some .inFlight, some .executed] ∧
        ∀ w' ≠ w, (jobs w').key = (jobs w).key → ¬ s.Open w'
  | _ => True

/-- At most one create of a key is open, and none while it has no row or one marked failed on which
no worker has proceeded. -/
structure SingleOpen : Prop where
  live : ∀ w, s.Underway w → (s.workers w).settled = false
  one : ∀ w w', (jobs w).key = (jobs w').key → s.Open w → s.Open w' → w = w'
  unwritten : ∀ w, s.ledger.get (jobs w).key = none → ¬ s.Open w
  failed : ∀ w row, s.ledger.get (jobs w).key = some row → row.status = .failed →
    s.retried (jobs w).key = false → ¬ s.Open w

end Spec

end LedgerRun

namespace OperationsLedger

variable {ledger : OperationsLedger}

theorem get_updateKey {key key' : String} {f : ProviderOperationRow → ProviderOperationRow}
    (hf : ∀ row, (f row).idempotencyKey = row.idempotencyKey) :
    (ledger.updateKey key f hf).get key' =
      if key' = key then (ledger.get key').map f else ledger.get key' := by
  unfold get updateKey
  rw [List.find?_map]
  have hsame : ((fun row : ProviderOperationRow => row.idempotencyKey == key') ∘
      fun row => if row.idempotencyKey = key then f row else row) =
        fun row => row.idempotencyKey == key' := by
    funext row
    simp only [Function.comp]
    split_ifs
    · rw [hf row]
    · rfl
  rw [hsame]
  cases hfind : ledger.rows.find? (·.idempotencyKey == key') with
  | none => simp
  | some row =>
    have hkey : row.idempotencyKey = key' := by simpa using List.find?_some hfind
    simp only [Option.map_some, hkey]
    split_ifs <;> rfl

theorem get_complete {key key' : String} {outcome : OperationOutcome} :
    (ledger.complete key outcome).get key' =
      if key' = key then (ledger.get key').map fun row => { row with outcome := outcome }
      else ledger.get key' :=
  get_updateKey (by exact fun _ => rfl)

variable {input : BeginInput}

theorem get_begin {now : Timestamp} {key : String} :
    (ledger.begin input now).2.get key =
      if key = input.key then some (ledger.begin input now).1 else ledger.get key := by
  unfold begin
  split
  · next row hrow =>
    refine Eq.trans (get_updateKey (by exact fun _ => rfl)) ?_
    split_ifs with hkey
    · rw [hkey, hrow]
      rfl
    · rfl
  · next hnone =>
    dsimp only [get]
    rw [List.find?_append]
    split_ifs with hkey
    · subst hkey
      have hnone' : ledger.rows.find? (·.idempotencyKey == input.key) = none := hnone
      rw [hnone']
      simp [newOperation]
    · have hne : (newOperation input now).idempotencyKey ≠ key := fun heq => hkey heq.symm
      simp [hne]

theorem begin_row {now : Timestamp} :
    (∃ row, ledger.get input.key = some row ∧ (ledger.begin input now).1.status = row.status ∧
        ((ledger.begin input now).1.decision = .proceed ↔ row.status = .failed)) ∨
      ledger.get input.key = none ∧ (ledger.begin input now).1.status = .pending := by
  unfold begin
  split
  · next row hrow =>
    refine .inl ⟨row, hrow, rfl, ?_⟩
    have hagain : (attemptAgain row).attempts ≠ 1 := by
      have hpos := row.attempted
      simp only [attemptAgain]
      omega
    have hstatus : (attemptAgain row).status = row.status := rfl
    unfold ProviderOperationRow.decision
    rw [hstatus, if_neg fun h => hagain h.1]
    cases row.status <;> simp
  · next hnone => exact .inr ⟨hnone, rfl⟩

end OperationsLedger

namespace LedgerRun

variable {n : ℕ} {jobs : Fin n → LedgeredCreate} {s : LedgerRun n}

@[simp] theorem setWorker_same (w : Fin n) (worker : CreateWorker) :
    (s.setWorker w worker).workers w = worker := Function.update_self _ _ _

@[simp] theorem setWorker_of_ne {w w' : Fin n} (h : w' ≠ w) (worker : CreateWorker) :
    (s.setWorker w worker).workers w' = s.workers w' := Function.update_of_ne h _ _

variable {worker : CreateWorker}

theorem open_setWorker_of_ne {w w' : Fin n} (h : w' ≠ w) :
    (s.setWorker w worker).Open w' ↔ s.Open w' := by
  unfold Open
  rw [setWorker_of_ne h]

theorem SingleOpen.setWorker (h : s.SingleOpen jobs) {w : Fin n}
    (hopen : (s.setWorker w worker).Open w → s.Open w)
    (hlive : (s.setWorker w worker).Underway w → worker.settled = false) :
    (s.setWorker w worker).SingleOpen jobs := by
  have hback : ∀ w', (s.setWorker w worker).Open w' → s.Open w' := by
    intro w' hw'
    by_cases hne : w' = w
    · subst hne
      exact hopen hw'
    · exact (open_setWorker_of_ne hne).1 hw'
  refine ⟨fun w' hw' => ?_, fun w₁ w₂ hkey h₁ h₂ => h.one w₁ w₂ hkey (hback w₁ h₁) (hback w₂ h₂),
    fun w' hnone hw' => h.unwritten w' hnone (hback w' hw'),
    fun w' row hrow hfailed hretried hw' => h.failed w' row hrow hfailed hretried (hback w' hw')⟩
  by_cases hne : w' = w
  · subst hne
    rw [setWorker_same]
    exact hlive hw'
  · unfold Underway at hw'
    rw [setWorker_of_ne hne] at hw' ⊢
    exact h.live w' hw'

theorem SingleOpen.observe (h : s.SingleOpen jobs) (key : String) :
    (s.observe jobs key).SingleOpen jobs := by
  unfold LedgerRun.observe
  split_ifs with hread
  · have hback : ∀ w, LedgerRun.Open { s with
        workers := fun w =>
          if (jobs w).key = key ∧ (s.workers w).phase ≠ .told then
            { s.workers w with settled := true }
          else s.workers w } w → s.Open w := by
      intro w hw
      unfold Open at hw ⊢
      dsimp only at hw
      split_ifs at hw
      · cases hw.1
      · exact hw
    refine ⟨fun w hw => ?_, fun w₁ w₂ hkey h₁ h₂ => h.one w₁ w₂ hkey (hback w₁ h₁) (hback w₂ h₂),
      fun w hnone hw => h.unwritten w hnone (hback w hw),
      fun w row hrow hfailed hretried hw => h.failed w row hrow hfailed hretried (hback w hw)⟩
    unfold Underway at hw
    dsimp only at hw ⊢
    split_ifs at hw ⊢ with hsettled
    · rcases hw with hphase | hcall
      · exact absurd hphase hsettled.2
      · exact absurd hcall (hread.2 w hsettled.1)
    · exact h.live w hw
  · exact h

theorem begin_decision {ledger : OperationsLedger} {input : BeginInput} {now : Timestamp}
    (h : ledger.get input.key = none) : (ledger.begin input now).1.decision = .proceed := by
  unfold OperationsLedger.begin
  split
  · next row hrow =>
    rw [h] at hrow
    cases hrow
  · rfl

theorem SingleOpen.closed (h : s.SingleOpen jobs) {w : Fin n} {runId : Option ReconcileRunId}
    {now : Timestamp} (hguard : s.MarksRightly jobs (.begin w runId now))
    (hproceed : ∀ row, s.ledger.get (jobs w).key = some row → row.status = .failed) :
    ∀ w', (jobs w').key = (jobs w).key → ¬ s.Open w' := by
  intro w' hkey
  cases hget : s.ledger.get (jobs w).key with
  | none => exact h.unwritten w' (hkey ▸ hget)
  | some row =>
    have hfailed := hproceed row hget
    exact h.failed w' row (hkey ▸ hget) hfailed (hkey ▸ hguard row hget hfailed)

section Begun

variable {w : Fin n} {begun : ProviderOperationRow} {ledger : OperationsLedger}
  {phase : CreatePhase}

def Begun (jobs : Fin n → LedgeredCreate) (s : LedgerRun n) (w : Fin n)
    (begun : ProviderOperationRow) (ledger : OperationsLedger) : Prop :=
  ∀ key, ledger.get key = if key = (jobs w).key then some begun else s.ledger.get key

theorem SingleOpen.proceed (h : s.SingleOpen jobs) (hget : Begun jobs s w begun ledger)
    (hclosed : ∀ w', (jobs w').key = (jobs w).key → ¬ s.Open w') {retried : String → Bool}
    (hretried : begun.status = .failed → retried (jobs w).key = true)
    (hothers : ∀ key, key ≠ (jobs w).key → retried key = s.retried key) :
    SingleOpen jobs
      { { s with ledger := ledger }.setWorker w ⟨phase, none, false⟩ with retried := retried } := by
  have hback : ∀ w', LedgerRun.Open
      { { s with ledger := ledger }.setWorker w ⟨phase, none, false⟩ with retried := retried } w' →
        w' = w ∨ s.Open w' := by
    intro w' hw'
    by_cases hne : w' = w
    · exact .inl hne
    · exact .inr ((open_setWorker_of_ne (s := { s with ledger := ledger }) hne).1 hw')
  refine ⟨fun w' hw' => ?_, fun w₁ w₂ hkey h₁ h₂ => ?_, fun w' hnone hw' => ?_,
    fun w' row hrow hfailed hnot hw' => ?_⟩
  · by_cases hne : w' = w
    · subst hne
      exact congrArg CreateWorker.settled (setWorker_same w' _)
    · have hsame := setWorker_of_ne (s := { s with ledger := ledger }) hne ⟨phase, none, false⟩
      unfold Underway at hw'
      dsimp only at hw' ⊢
      rw [hsame] at hw' ⊢
      exact h.live w' hw'
  · rcases hback w₁ h₁ with rfl | hopen₁
    · rcases hback w₂ h₂ with rfl | hopen₂
      · rfl
      · exact absurd hopen₂ (hclosed w₂ hkey.symm)
    · rcases hback w₂ h₂ with rfl | hopen₂
      · exact absurd hopen₁ (hclosed w₁ hkey)
      · exact h.one w₁ w₂ hkey hopen₁ hopen₂
  · dsimp only [LedgerRun.setWorker] at hnone
    rw [hget] at hnone
    split_ifs at hnone with hkey
    rcases hback w' hw' with rfl | hopen
    · exact hkey rfl
    · exact h.unwritten w' hnone hopen
  · dsimp only [LedgerRun.setWorker] at hrow hnot
    rw [hget] at hrow
    split_ifs at hrow with hkey
    · obtain rfl := Option.some.inj hrow
      rw [hkey, hretried hfailed] at hnot
      cases hnot
    · rw [hothers _ hkey] at hnot
      rcases hback w' hw' with rfl | hopen
      · exact hkey rfl
      · exact h.failed w' row hrow hfailed hnot hopen

theorem SingleOpen.attempted (h : s.SingleOpen jobs) (hget : Begun jobs s w begun ledger)
    {row : ProviderOperationRow} (hrow : s.ledger.get (jobs w).key = some row)
    (hstatus : begun.status = row.status) : SingleOpen jobs { s with ledger := ledger } := by
  refine ⟨h.live, h.one, fun w' hnone => ?_, fun w' row' hrow' hfailed hretried => ?_⟩
  · dsimp only at hnone
    rw [hget] at hnone
    split_ifs at hnone with hkey
    exact h.unwritten w' hnone
  · dsimp only at hrow'
    rw [hget] at hrow'
    split_ifs at hrow' with hkey
    · obtain rfl := Option.some.inj hrow'
      exact h.failed w' row (hkey ▸ hrow) (hstatus ▸ hfailed) hretried
    · exact h.failed w' row' hrow' hfailed hretried

theorem afterBegin_not_open {rule : ReadBack} {decision : BeginDecision} (h : decision ≠ .proceed) :
    ¬ Open (s.setWorker w ⟨rule.afterBegin decision, none, false⟩) w := by
  unfold Open
  rw [setWorker_same]
  cases decision with
  | proceed => exact absurd rfl h
  | alreadySucceeded => simp [ReadBack.afterBegin]
  | needsReadBack => cases rule <;> simp [ReadBack.afterBegin]

theorem SingleOpen.beginWorker (h : s.SingleOpen jobs) {runId : Option ReconcileRunId}
    {now : Timestamp} (hguard : s.MarksRightly jobs (.begin w runId now)) :
    (s.beginWorker jobs w runId now).SingleOpen jobs := by
  unfold LedgerRun.beginWorker
  dsimp only
  have hget : Begun jobs s w _ _ := @OperationsLedger.get_begin s.ledger
    ⟨(jobs w).key, (jobs w).provider, (jobs w).operation, runId⟩ now
  have hrow := @OperationsLedger.begin_row s.ledger
    ⟨(jobs w).key, (jobs w).provider, (jobs w).operation, runId⟩ now
  have hnew := @begin_decision s.ledger
    ⟨(jobs w).key, (jobs w).provider, (jobs w).operation, runId⟩ now
  by_cases hproceed : (s.ledger.begin
      ⟨(jobs w).key, (jobs w).provider, (jobs w).operation, runId⟩ now).1.decision = .proceed
  · have hclosed : ∀ w', (jobs w').key = (jobs w).key → ¬ s.Open w' := by
      refine h.closed hguard fun row hget' => ?_
      rcases hrow with ⟨row', hrow', -, hiff⟩ | ⟨hnone, -⟩
      · obtain rfl := Option.some.inj (hget'.symm.trans hrow')
        exact hiff.1 hproceed
      · rw [hget'] at hnone
        cases hnone
    split_ifs with hfailed
    · exact h.proceed hget hclosed (fun _ => Function.update_self _ _ _)
        fun key hne => Function.update_of_ne hne _ _
    · exact h.proceed hget hclosed (fun hstatus => absurd ⟨hproceed, hstatus⟩ hfailed)
        fun _ _ => rfl
  · rw [if_neg fun hboth => hproceed hboth.1]
    rcases hrow with ⟨row, hrow, hstatus, -⟩ | ⟨hnone, -⟩
    · exact (h.attempted hget hrow hstatus).setWorker
        (fun hopen => absurd hopen (afterBegin_not_open hproceed)) fun _ => rfl
    · exact absurd (hnew hnone) hproceed

end Begun

section

variable (h : s.SingleOpen jobs)
include h

theorem SingleOpen.succeed (key : String) (now : Timestamp) :
    SingleOpen jobs { s with ledger := (s.ledger.succeed key now).2 } := by
  refine ⟨h.live, h.one, fun w hnone => ?_, fun w row hrow hfailed hretried => ?_⟩
  · dsimp only [OperationsLedger.succeed] at hnone
    rw [OperationsLedger.get_complete] at hnone
    split_ifs at hnone
    · exact h.unwritten w (Option.map_eq_none_iff.1 hnone)
    · exact h.unwritten w hnone
  · dsimp only [OperationsLedger.succeed] at hrow
    rw [OperationsLedger.get_complete] at hrow
    split_ifs at hrow
    · obtain ⟨row', -, rfl⟩ := Option.map_eq_some_iff.1 hrow
      cases hfailed
    · exact h.failed w row hrow hfailed hretried

theorem SingleOpen.fail {key : String} (now : Timestamp)
    (hclosed : ∀ w, (jobs w).key = key → ¬ s.Open w) :
    SingleOpen jobs { s with
      ledger := (s.ledger.fail key now).2
      retried := Function.update s.retried key false } := by
  refine ⟨h.live, h.one, fun w hnone => ?_, fun w row hrow hfailed hretried => ?_⟩
  · dsimp only [OperationsLedger.fail] at hnone
    rw [OperationsLedger.get_complete] at hnone
    split_ifs at hnone
    · exact h.unwritten w (Option.map_eq_none_iff.1 hnone)
    · exact h.unwritten w hnone
  · by_cases hkey : (jobs w).key = key
    · exact hclosed w hkey
    · dsimp only [OperationsLedger.fail] at hrow hretried
      rw [OperationsLedger.get_complete, if_neg hkey] at hrow
      rw [Function.update_of_ne hkey] at hretried
      exact h.failed w row hrow hfailed hretried

theorem SingleOpen.setPhase {w : Fin n} {phase : CreatePhase} (htold : phase ≠ .told)
    (hopen : phase ∈ [.calling, .returned, .recorded, .raised, .lost] →
      (s.workers w).phase ∈ [.told, .calling, .returned, .recorded, .raised, .lost]) :
    (s.setPhase w phase).SingleOpen jobs := by
  refine h.setWorker (fun hw => ?_) fun hw => ?_
  · unfold Open at hw ⊢
    rw [setWorker_same] at hw
    refine ⟨hw.1, ?_⟩
    rcases hw.2 with hphase | hcall
    · exact .inl (hopen (by simpa [htold] using hphase))
    · exact .inr hcall
  · unfold Underway at hw
    rw [setWorker_same] at hw
    exact h.live w (.inr (hw.resolve_left htold))

theorem SingleOpen.recordWorker {w : Fin n} {now : Timestamp}
    (hguard : s.MarksRightly jobs (.record w now)) :
    (s.recordWorker jobs w now).SingleOpen jobs := by
  have hended : ∀ t : LedgerRun n, t.SingleOpen jobs → (t.setPhase w .ended).SingleOpen jobs :=
    fun t ht => ht.setPhase (by decide) (by simp)
  have hfails : (s.workers w).phase = .raised ∨ (s.workers w).phase = .readBack false →
      SingleOpen jobs ({ s with
        ledger := (s.ledger.fail (jobs w).key now).2
        retried := Function.update s.retried (jobs w).key false }.setPhase w .ended) := by
    intro hphase
    obtain ⟨hown, hothers⟩ := hguard hphase
    refine (hended s h).fail now fun w' hkey hopen => ?_
    by_cases hne : w' = w
    · subst hne
      unfold Open LedgerRun.setPhase at hopen
      rw [setWorker_same] at hopen
      simp_all
    · exact hothers w' hne hkey ((open_setWorker_of_ne hne).1 hopen)
  unfold LedgerRun.recordWorker
  split
  · next hphase =>
    split_ifs
    · exact (h.succeed _ now).setPhase (by decide) fun _ => by simp [hphase]
    · exact hended _ (h.succeed _ now)
  · exact hended _ (h.succeed _ now)
  · next hphase => exact hfails (.inl hphase)
  · next hphase => exact hfails (.inr hphase)
  · exact h

theorem SingleOpen.step {action : LedgerAction n} (hguard : s.MarksRightly jobs action)
    : (s.step jobs action).SingleOpen jobs := by
  cases action with
  | list w =>
    simp only [LedgerRun.step]
    split_ifs
    · exact (h.observe _).setPhase (by decide) (by simp)
    · exact (h.observe _).setPhase (by decide) (by simp)
    · exact h
  | begin w runId now =>
    simp only [LedgerRun.step]
    split_ifs
    · exact h.beginWorker hguard
    · exact h
  | call w =>
    simp only [LedgerRun.step]
    split_ifs with htold
    · refine h.setWorker (fun _ => ?_) fun _ => rfl
      exact ⟨h.live w (.inl htold), .inl (by simp [htold])⟩
    · exact h
  | execute w =>
    simp only [LedgerRun.step]
    split_ifs with hcall
    · have hlive := h.live w (.inr hcall)
      have hworld : SingleOpen jobs
          { s with objects := Function.update s.objects (jobs w).key true } :=
        ⟨h.live, h.one, h.unwritten, h.failed⟩
      exact hworld.setWorker (fun _ => ⟨hlive, .inr (.inl hcall)⟩) fun _ => hlive
    · exact h
  | refuse w =>
    simp only [LedgerRun.step]
    split_ifs with hcall
    · have hlive := h.live w (.inr hcall)
      exact h.setWorker (fun _ => ⟨hlive, .inr (.inl hcall)⟩) fun _ => hlive
    · exact h
  | answer w =>
    simp only [LedgerRun.step]
    split_ifs with hphase
    · exact h.setPhase (by decide) fun _ => by simp [hphase.1]
    · exact h
  | raise w =>
    simp only [LedgerRun.step]
    split_ifs with hphase
    · exact h.setPhase (by decide) fun _ => by rcases hphase with hphase | hphase <;> simp [hphase]
    · exact h
  | read w =>
    simp only [LedgerRun.step]
    split_ifs
    · exact (h.observe _).setPhase nofun (by simp)
    · exact h
  | readFails w =>
    simp only [LedgerRun.step]
    split_ifs
    · exact h.setPhase (by decide) (by simp)
    · exact h.setPhase (by decide) (by simp)
    · exact h
  | record w now => exact h.recordWorker hguard
  | crash w =>
    simp only [LedgerRun.step]
    exact h.setPhase (by cases (s.workers w).phase <;> simp [CreatePhase.afterCrash])
      (by cases (s.workers w).phase <;> simp [CreatePhase.afterCrash])
  | outside key present => exact ⟨h.live, h.one, h.unwritten, h.failed⟩

theorem SingleOpen.createsOnce : s.CreatesOnce jobs := by
  have heffective : ∀ w, s.Effective w → s.Open w := fun w hw => ⟨hw.2, .inr (.inr hw.1)⟩
  refine ⟨fun w w' hkey hw hw' => h.one w w' hkey (heffective w hw) (heffective w' hw'),
    fun w w' hkey htold hne => ?_⟩
  have hopen : s.Open w := ⟨h.live w (.inl htold), .inl (by simp [htold])⟩
  have hclosed : ¬ s.Open w' := fun hw' => hne (h.one w' w hkey.symm hw' hopen)
  refine ⟨fun hw' => hclosed ⟨h.live w' hw', ?_⟩, fun hw' => hclosed (heffective w' hw'),
    fun hw' => hclosed ⟨hw'.2, .inl (by simp [hw'.1])⟩⟩
  rcases hw' with hphase | hcall
  · exact .inl (by simp [hphase])
  · exact .inr (.inl hcall)

end

theorem start_singleOpen (objects : String → Bool) :
    (start objects : LedgerRun n).SingleOpen jobs := by
  have hclosed : ∀ w, ¬ (start objects : LedgerRun n).Open w := fun w hw => by
    simp [Open, start] at hw
  exact ⟨fun w _ => rfl, fun w _ _ hw => absurd hw (hclosed w), fun w _ => hclosed w,
    fun w _ _ _ _ => hclosed w⟩

/-- In every run of workers that mark rows as failed rightly, each key has one effective create at
most between the reads that settle it. -/
theorem creates_once (jobs : Fin n → LedgeredCreate) (objects : String → Bool)
    (actions : List (LedgerAction n))
    (h : Runs.Meets (step jobs) (MarksRightly jobs) (start objects) actions) :
    Runs.Along (step jobs) (CreatesOnce jobs) (start objects) actions := by
  have hstep : ∀ (s : LedgerRun n) (action : LedgerAction n), s.SingleOpen jobs →
      s.MarksRightly jobs action → (s.step jobs action).SingleOpen jobs :=
    fun _ _ h hguard => h.step hguard
  have hinv := Runs.along_of_meets hstep (start_singleOpen objects) h
  exact hinv.mono fun _ h => h.createsOnce

def twoMints : Fin 2 → LedgeredCreate := fun _ => tokenMint "dns" "host-1" "deploy"

def noon : Timestamp := ⟨⟨2026, 8, 14⟩, 0⟩

theorem refused_then_minted : Runs.Along (step twoMints) (CreatesOnce twoMints)
    (start fun _ => false) [.begin 0 none noon, .call 0, .refuse 0, .raise 0, .record 0 noon,
      .begin 1 none noon, .call 1, .execute 1, .answer 1, .record 1 noon] :=
  creates_once twoMints (fun _ => false) _
    ⟨fun _ _ _ => by decide +kernel, trivial, trivial, trivial, fun _ => by decide +kernel,
      fun _ _ _ => by decide +kernel, trivial, trivial, trivial, fun hphase =>
        absurd hphase (by decide +kernel), trivial⟩

theorem minted_twice : ¬ ∀ (n : ℕ) (jobs : Fin n → LedgeredCreate) (objects : String → Bool)
    (actions : List (LedgerAction n)),
    Runs.Along (step jobs) (CreatesOnce jobs) (start objects) actions := by
  intro hall
  have hlast := (hall 2 twoMints (fun _ => false) [.begin 0 none noon, .call 0, .execute 0,
    .raise 0, .record 0 noon, .begin 1 none noon, .call 1, .execute 1]).last
  have hsame : (0 : Fin 2) = 1 :=
    hlast.effective 0 1 rfl (by decide +kernel) (by decide +kernel)
  exact absurd hsame (by decide)

end LedgerRun

end Loxep

import Loxep.Proofs.EndsOnce
import Mathlib.Logic.Relation

/-!
# Steps are attempted in order

A session attempts a step once its copy of the rows has the step's prerequisite succeeded. A copy
may be old, but what it has succeeded did succeed, and so did what that depended on before it.
-/

namespace Loxep

def CompiledPlan.DependsOn (plan : CompiledPlan) (k parent : ℕ) : Prop :=
  ∃ step ∈ plan.steps, step.sequence = k ∧ step.dependsOnSequence = some parent

section

variable {n : ℕ} (s : ProvisioningRun n)

def ProvisioningRun.attempted : ProvisioningAction n → Option CompiledStep
  | .attempt w =>
    match s.stage w with
    | .looping left rows =>
      match rows.nextStep left with
      | .attempt step _ => some step
      | _ => none
    | _ => none
  | _ => none

def ProvisioningRun.succeeding : ProvisioningAction n → Option ℕ
  | .settle w result =>
    match s.stage w with
    | .attempting step _ _ =>
      if (recordedOutcome result).status = .succeeded then some step.sequence else none
    | _ => none
  | _ => none

end

structure RecordedRun (n : ℕ) where
  run : ProvisioningRun n
  succeeded : List ℕ

namespace RecordedRun

variable {n : ℕ} {s : RecordedRun n}

def start (n : ℕ) (plan : CompiledPlan) : RecordedRun n := ⟨startRun n plan, []⟩

def step (s : RecordedRun n) (a : ProvisioningAction n) : RecordedRun n :=
  ⟨s.run.step a, (s.run.succeeding a).toList ++ s.succeeded⟩

def AttemptsInOrder (s : RecordedRun n) (a : ProvisioningAction n) : Prop :=
  ∀ step ∈ s.run.attempted a, ∀ k,
    Relation.TransGen s.run.plan.DependsOn step.sequence k → k ∈ s.succeeded

structure StageKnown (plan : CompiledPlan) (succeeded : List ℕ) (stage : ProvisioningStage) :
    Prop where
  copy : ∀ k, stage.copy.statusAt k = some .succeeded → k ∈ succeeded
  planned : ∀ step ∈ stage.steps, step ∈ plan.steps
  attempting : ∀ step left rows, stage = .attempting step left rows →
    ∀ parent ∈ step.dependsOnSequence, parent ∈ succeeded

/-- The rows record what did succeed, and with it what it depended on. -/
structure InOrder (s : RecordedRun n) : Prop where
  rows : ∀ k, s.run.steps.statusAt k = some .succeeded → k ∈ s.succeeded
  closed : ∀ k ∈ s.succeeded, ∀ parent, s.run.plan.DependsOn k parent → parent ∈ s.succeeded
  sessions : ∀ w, StageKnown s.run.plan s.succeeded (s.run.stage w)

variable {plan : CompiledPlan} {succeeded : List ℕ} {stage : ProvisioningStage} {rows : StepRows}
  {k : ℕ}

theorem StageKnown.mono {more : List ℕ} (h : StageKnown plan succeeded stage)
    (hmore : succeeded ⊆ more) :
    StageKnown plan more stage where
  copy := fun k hk => hmore (h.copy k hk)
  planned := h.planned
  attempting := fun step left rows hstage parent hparent =>
    hmore (h.attempting step left rows hstage parent hparent)

theorem StageKnown.of_none (hcopy : stage.copy = []) (hsteps : stage.steps = [])
    : StageKnown plan succeeded stage where
  copy := by
    rw [hcopy]
    nofun
  planned := by
    rw [hsteps]
    nofun
  attempting := by
    rintro step left rows rfl
    cases hsteps

theorem StageKnown.looping {left : List CompiledStep}
    (hcopy : ∀ k, rows.statusAt k = some .succeeded → k ∈ succeeded)
    (hplanned : ∀ step ∈ left, step ∈ plan.steps) :
    StageKnown plan succeeded (.looping left rows) :=
  ⟨hcopy, hplanned, nofun⟩

theorem nextStep_reachable {step : CompiledStep} :
    ∀ {steps left : List CompiledStep}, rows.nextStep steps = .attempt step left →
      rows.reachable step = true
  | [], _, h => by simp [StepRows.nextStep] at h
  | first :: rest, left, h => by
    unfold StepRows.nextStep at h
    rcases hstatus : rows.statusAt first.sequence with _ | status
    · simp [hstatus] at h
    · simp only [hstatus] at h
      split_ifs at h with hpassed
      · exact nextStep_reachable h
      · obtain ⟨rfl, -⟩ := NextStep.attempt.inj h
        simpa using fun hunreachable => hpassed (.inr (.inr hunreachable))

theorem succeeded_of_reachable {step : CompiledStep} (h : rows.reachable step = true) :
    ∀ parent ∈ step.dependsOnSequence, rows.statusAt parent = some .succeeded := by
  intro parent hparent
  unfold StepRows.reachable at h
  rw [Option.mem_def.1 hparent] at h
  simpa using h

theorem succeeded_of_set_attempted {k' : ℕ}
    (h : (rows.set k (·.attempted)).statusAt k' = some .succeeded) :
    rows.statusAt k' = some .succeeded := by
  by_cases hk : k' = k
  · unfold StepRows.statusAt at h
    rw [StepRows.get_set (f := (·.attempted)) (fun _ => rfl), if_pos hk] at h
    rcases hrow : rows.get k' with _ | row
    · simp [hrow] at h
    · rw [hrow] at h
      cases h
  · rwa [StepRows.statusAt_set_of_ne (f := (·.attempted)) (fun _ => rfl) hk] at h

theorem succeeded_of_set_outcome {k' : ℕ} {outcome : StepOutcome}
    (h : (rows.set k (·.withOutcome outcome)).statusAt k' = some .succeeded) :
    rows.statusAt k' = some .succeeded ∨ k' = k ∧ outcome.status = .succeeded := by
  by_cases hk : k' = k
  · right
    refine ⟨hk, ?_⟩
    unfold StepRows.statusAt at h
    rw [StepRows.get_set (f := (·.withOutcome outcome)) (fun _ => rfl), if_pos hk] at h
    rcases hrow : rows.get k' with _ | row
    · simp [hrow] at h
    · rw [hrow] at h
      rcases hstatus : outcome.status with _ | reason | _
      · rfl
      all_goals simp [TemplateRunStepRow.withOutcome, hstatus, StepOutcomeStatus.row] at h
  · left
    rwa [StepRows.statusAt_set_of_ne (f := (·.withOutcome outcome)) (fun _ => rfl) hk] at h

variable {w : Fin n}

section

variable (h : InOrder s)
include h

theorem InOrder.of_session {t : RecordedRun n} (w : Fin n) (hplan : t.run.plan = s.run.plan)
    (hmore : s.succeeded ⊆ t.succeeded)
    (hrows : ∀ k, t.run.steps.statusAt k = some .succeeded → k ∈ t.succeeded)
    (hclosed : ∀ k ∈ t.succeeded, ∀ parent, t.run.plan.DependsOn k parent → parent ∈ t.succeeded)
    (hothers : ∀ v, v ≠ w → t.run.stage v = s.run.stage v)
    (hown : StageKnown s.run.plan t.succeeded (t.run.stage w)) : InOrder t where
  rows := hrows
  closed := hclosed
  sessions := by
    intro v
    rw [hplan]
    by_cases hv : v = w
    · rw [hv]
      exact hown
    · rw [hothers v hv]
      exact (h.sessions v).mono hmore

theorem InOrder.enter (hown : StageKnown s.run.plan s.succeeded stage) :
    InOrder ⟨s.run.enter w stage, s.succeeded⟩ := by
  refine h.of_session w rfl (List.Subset.refl _) h.rows h.closed (fun v hv => ?_) ?_
  · show (s.run.enter w stage).stage v = _
    rw [ProvisioningRun.enter_stage, if_neg hv]
  · show StageKnown _ _ ((s.run.enter w stage).stage w)
    rw [ProvisioningRun.enter_stage, if_pos rfl]
    exact hown

theorem InOrder.read {next : ProvisioningStage} (hcopy : next.copy = []) (hsteps : next.steps = [])
    : InOrder ⟨s.run.read w next, s.succeeded⟩ := by
  rcases hlive : (s.run.stage w).live with _ | _
  · have hsessions := ProvisioningRun.read_sessions next hlive
    obtain ⟨-, hrows, hplan⟩ := s.run.read_cases w next
    refine h.of_session w hplan (List.Subset.refl _) ?_ ?_ (fun v hv => ?_) ?_
    · show ∀ k, (s.run.read w next).steps.statusAt k = _ → _
      rw [hrows]
      exact h.rows
    · show ∀ k ∈ s.succeeded, ∀ parent, (s.run.read w next).plan.DependsOn k parent → _
      rw [hplan]
      exact h.closed
    · show ((s.run.read w next).sessions v).stage = _
      rw [hsessions, if_neg hv]
      rfl
    · show StageKnown _ _ ((s.run.read w next).sessions w).stage
      rw [hsessions, if_pos rfl]
      show StageKnown _ _ (if s.run.status.ended then .ended else next)
      split_ifs
      · exact .of_none rfl rfl
      · exact .of_none hcopy hsteps
  · rw [ProvisioningRun.read, if_pos hlive]
    exact h

theorem InOrder.writeStatus {status : TemplateRunStatus} {now : Timestamp} :
    InOrder ⟨s.run.writeStatus w status now, s.succeeded⟩ := by
  refine h.of_session w rfl (List.Subset.refl _) h.rows h.closed (fun v hv => ?_) ?_
  · show ((s.run.writeStatus w status now).sessions v).stage = _
    rw [ProvisioningRun.writeStatus_sessions, if_neg hv]
    rfl
  · show StageKnown _ _ ((s.run.writeStatus w status now).sessions w).stage
    rw [ProvisioningRun.writeStatus_sessions, if_pos rfl]
    exact .of_none rfl rfl

theorem InOrder.attempt : InOrder ⟨s.run.attemptNext w, s.succeeded⟩ := by
  rcases s.run.attemptNext_cases w with
    ⟨-, heq | heq⟩ | ⟨-, left, rows, step, left', hstage, hnext, heq⟩
  · rw [heq]
    exact h
  · rw [heq]
    exact h.enter (.of_none rfl rfl)
  · rw [heq]
    have hknown := h.sessions w
    rw [hstage] at hknown
    obtain ⟨hmem, hleft⟩ := StepRows.nextStep_attempt hnext
    have hset : InOrder
        ⟨{ s.run with steps := s.run.steps.set step.sequence (·.attempted) }, s.succeeded⟩ :=
      ⟨fun k hk => h.rows k (succeeded_of_set_attempted hk), h.closed, h.sessions⟩
    refine hset.enter ⟨hknown.copy, fun other hother => ?_, ?_⟩
    · rcases List.mem_cons.1 hother with rfl | hother
      · exact hknown.planned other hmem
      · exact hknown.planned other (hleft other hother)
    · intro step' left'' rows' hinj parent hparent
      obtain ⟨rfl, rfl, rfl⟩ := ProvisioningStage.attempting.inj hinj
      exact hknown.copy parent
        (succeeded_of_reachable (nextStep_reachable hnext) parent hparent)

theorem InOrder.settle (result : InfrastructureResult StepOutcome) :
    InOrder (s.step (.settle w result)) := by
  show InOrder ⟨s.run.settle w result, (s.run.succeeding (.settle w result)).toList ++ s.succeeded⟩
  rcases s.run.settle_cases w result with ⟨hnone, heq⟩ | ⟨step, left, rows, hstage, heq⟩
  · have hrecords : s.run.succeeding (.settle w result) = none := by
      simp only [ProvisioningRun.succeeding]
    rw [heq, hrecords]
    exact h
  · have hrecords : s.run.succeeding (.settle w result) =
        if (recordedOutcome result).status = .succeeded then some step.sequence else none := by
      simp only [ProvisioningRun.succeeding, hstage]
    have hknown := h.sessions w
    rw [hstage] at hknown
    rw [heq, hrecords]
    -- of the rows, and of the copy, the step's alone may newly have succeeded
    have hmem : ∀ k, k = step.sequence ∧ (recordedOutcome result).status = .succeeded →
        k ∈ (if (recordedOutcome result).status = .succeeded then some step.sequence
          else none).toList ++ s.succeeded := by
      rintro k ⟨rfl, hstatus⟩
      rw [if_pos hstatus]
      exact List.mem_cons_self
    have hnew : ∀ (rows : StepRows) k,
        (rows.set step.sequence (·.withOutcome (recordedOutcome result))).statusAt k =
          some .succeeded → (∀ k, rows.statusAt k = some .succeeded → k ∈ s.succeeded) →
            k ∈ (if (recordedOutcome result).status = .succeeded then some step.sequence
              else none).toList ++ s.succeeded := by
      intro rows k hk hrows
      rcases succeeded_of_set_outcome hk with hold | hnow
      · exact List.mem_append_right _ (hrows k hold)
      · exact hmem k hnow
    refine h.of_session w rfl (List.subset_append_right _ _) (fun k hk => hnew _ k hk h.rows) ?_
      (fun v hv => ?_) ?_
    · intro k hk parent hparent
      rcases List.mem_append.1 hk with hk | hk
      · obtain ⟨other, hother, hsequence, hdepends⟩ := hparent
        have hsame : k = step.sequence := by
          split_ifs at hk
          · exact List.mem_singleton.1 hk
          · cases hk
        have heq : other = step := CompiledPlan.eq_of_sequence hother
          (hknown.planned step List.mem_cons_self) (hsequence.trans hsame)
        rw [heq] at hdepends
        exact List.mem_append_right _
          (hknown.attempting step left rows rfl parent (Option.mem_def.2 hdepends))
      · exact List.mem_append_right _ (h.closed k hk parent hparent)
    · show (ProvisioningRun.enter _ w _).stage v = _
      rw [ProvisioningRun.enter_stage, if_neg hv]
      rfl
    · show StageKnown _ _ ((ProvisioningRun.enter _ w _).stage w)
      rw [ProvisioningRun.enter_stage, if_pos rfl]
      by_cases hgoes : goesOn result = true
      · rw [if_pos hgoes]
        exact .looping (fun k hk => hnew _ k hk hknown.copy)
          fun other hother => hknown.planned other (List.mem_cons_of_mem _ hother)
      · rw [if_neg hgoes]
        exact .of_none rfl rfl

theorem InOrder.step (a : ProvisioningAction n) : InOrder (s.step a) := by
  cases a with
  | advance w => exact h.read rfl rfl
  | abandon w => exact h.read rfl rfl
  | load w =>
    show InOrder ⟨if s.run.stage w = .loading then _ else _, s.succeeded⟩
    split_ifs
    · exact h.enter (.looping h.rows fun _ => id)
    · exact h
  | attempt w => exact h.attempt
  | settle w result => exact h.settle result
  | finish w now =>
    show InOrder ⟨s.run.step (.finish w now), s.succeeded⟩
    simp only [ProvisioningRun.step]
    split
    · exact h.writeStatus
    · exact h
  | fail w now =>
    show InOrder ⟨if s.run.stage w = .abandoning then _ else _, s.succeeded⟩
    split_ifs
    · exact h.writeStatus
    · exact h
  | crash w => exact h.enter (.of_none rfl rfl)

end

theorem inOrder_start (plan : CompiledPlan) : InOrder (start n plan) where
  rows := by
    intro k hk
    have hpending : (start n plan).run.steps.statusAt k ≠ some .succeeded := by
      show (StepRows.get (plan.steps.map _) k).map _ ≠ _
      unfold StepRows.get
      rw [List.find?_map]
      rcases plan.steps.find? _ with _ | step <;> simp
    exact absurd hk hpending
  closed := nofun
  sessions := fun _ => .of_none rfl rfl

theorem InOrder.requires (h : InOrder s) {parent : ℕ} (hk : k ∈ s.succeeded)
    (hchain : Relation.ReflTransGen s.run.plan.DependsOn k parent) : parent ∈ s.succeeded := by
  induction hchain with
  | refl => exact hk
  | tail _ hlast ih => exact h.closed _ ih _ hlast

theorem InOrder.attempts (h : InOrder s) (a : ProvisioningAction n) : s.AttemptsInOrder a := by
  intro step hstep k hchain
  cases a with
  | attempt w =>
    rw [Option.mem_def] at hstep
    simp only [ProvisioningRun.attempted] at hstep
    rcases hstage : s.run.stage w with _ | _ | ⟨left, rows⟩ | _ | _ | _ | _
    case looping =>
      have hknown := h.sessions w
      rw [hstage] at hstep hknown
      rcases hnext : rows.nextStep left with ⟨next, left'⟩ | _ | _
      · simp only [hnext, Option.some.injEq] at hstep
        obtain rfl := hstep
        obtain ⟨first, ⟨other, hother, hsequence, hdepends⟩, hrest⟩ :=
          Relation.TransGen.head'_iff.1 hchain
        have hmem := hknown.planned next (StepRows.nextStep_attempt hnext).1
        have hsame : other = next := CompiledPlan.eq_of_sequence hother hmem hsequence
        rw [hsame] at hdepends
        have hsucceeded := succeeded_of_reachable (nextStep_reachable hnext) first
          (Option.mem_def.2 hdepends)
        exact h.requires (hknown.copy first hsucceeded) hrest
      all_goals simp [hnext] at hstep
    all_goals
      rw [hstage] at hstep
      cases hstep
  | _ => cases hstep

theorem meets_attemptsInOrder (plan : CompiledPlan) (actions : List (ProvisioningAction n)) :
    Runs.Meets RecordedRun.step AttemptsInOrder (start n plan) actions := by
  have hinv : ∀ (s : RecordedRun n) a, InOrder s → True → InOrder (s.step a) :=
    fun _ a hs _ => hs.step a
  have hall : Runs.Meets RecordedRun.step (fun _ _ => True) (start n plan) actions :=
    Runs.meets_of_forall fun _ _ => trivial
  exact Runs.Meets.of_invariant hinv (fun _ a hs _ => hs.attempts a) (inOrder_start plan) hall

end RecordedRun

end Loxep

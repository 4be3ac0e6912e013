import Loxep.Lib.Runs
import Loxep.Provisioning

/-!
# A provisioning run ends once

A session acts on the run row it read, so what has become of the run since decides whether it
attempts a step of a run that is over, or writes its status over one. For a session under way being
overtaken and the run being over are the same, as long as no status was written over an end.
-/

namespace Loxep

section Spec

variable {n : ℕ} (s : ProvisioningRun n)

def SucceededTruly : Prop := s.status = .succeeded → s.plan.succeededIn s.steps = true

def ProvisioningRun.attempts : ProvisioningAction n → Bool
  | .attempt w =>
    match s.stage w with
    | .looping left rows =>
      match rows.nextStep left with
      | .attempt _ _ => true
      | _ => false
    | _ => false
  | _ => false

def StaysEnded (a : ProvisioningAction n) : Prop :=
  s.status.ended = true → (s.step a).status = s.status ∧ s.attempts a = false

def ProvisioningStage.copy : ProvisioningStage → StepRows
  | .looping _ rows | .attempting _ _ rows => rows
  | _ => []

def Unhindered : ProvisioningAction n → Prop
  | .attempt w => s.attempts (.attempt w) = true → (s.sessions w).overtaken = false
  | .settle w result => ∀ step left rows, s.stage w = .attempting step left rows →
      s.status = .succeeded → step.optional = true ∨ (recordedOutcome result).status = .succeeded
  | .finish w _ => ∀ status, s.closing w = some status →
      ((s.sessions w).overtaken = true → s.status = status) ∧
        (status = .succeeded → ∀ step ∈ s.plan.requiredSteps,
          s.steps.statusAt step.sequence = (s.stage w).copy.statusAt step.sequence)
  | .fail w _ => s.stage w = .abandoning → (s.sessions w).overtaken = true → s.status = .failed
  | _ => True

end Spec

namespace StepRows

variable {rows : StepRows} {k k' : ℕ} {f : TemplateRunStepRow → TemplateRunStepRow}

section

variable (hf : ∀ row, (f row).sequence = row.sequence)
include hf

theorem get_set :
    (rows.set k f).get k' = if k' = k then (rows.get k').map f else rows.get k' := by
  unfold StepRows.set StepRows.get
  rw [List.find?_map]
  have hkeys : ∀ row : TemplateRunStepRow,
      (if row.sequence = k then f row else row).sequence = row.sequence := by
    intro row
    split_ifs
    · exact hf row
    · rfl
  simp only [Function.comp_def, hkeys]
  rcases hfind : rows.find? (·.sequence == k') with _ | row
  · by_cases hk : k' = k
    · rw [if_pos hk, ← hk, hfind]
      rfl
    · rw [if_neg hk, hfind]
      rfl
  · have hrow : row.sequence = k' := by simpa using List.find?_some hfind
    by_cases hk : k' = k
    · rw [if_pos hk, ← hk, hfind, Option.map_some, if_pos hrow]
      rfl
    · rw [if_neg hk, hfind, Option.map_some, if_neg fun heq => hk (hrow.symm.trans heq)]

theorem statusAt_set_of_ne (hne : k' ≠ k) :
    (rows.set k f).statusAt k' = rows.statusAt k' := by
  rw [statusAt, get_set hf, if_neg hne, statusAt]

theorem isSome_statusAt_set :
    ((rows.set k f).statusAt k').isSome = (rows.statusAt k').isSome := by
  unfold statusAt
  rw [get_set hf]
  split_ifs <;> simp

end

theorem statusAt_withOutcome {outcome : StepOutcome} (h : (rows.statusAt k).isSome = true) :
    (rows.set k (·.withOutcome outcome)).statusAt k = some outcome.status.row := by
  unfold statusAt at h ⊢
  rw [get_set (f := (·.withOutcome outcome)) fun _ => rfl, if_pos rfl]
  rcases hrow : rows.get k with _ | row
  · simp [hrow] at h
  · rfl

theorem nextStep_attempt {step : CompiledStep} : ∀ {steps left : List CompiledStep},
    rows.nextStep steps = .attempt step left → step ∈ steps ∧ ∀ other ∈ left, other ∈ steps
  | [], _, h => by simp [nextStep] at h
  | first :: rest, left, h => by
    unfold nextStep at h
    rcases hstatus : rows.statusAt first.sequence with _ | status
    · simp [hstatus] at h
    · simp only [hstatus] at h
      split_ifs at h
      · obtain ⟨hmem, hleft⟩ := nextStep_attempt h
        exact ⟨List.mem_cons_of_mem _ hmem, fun other ho => List.mem_cons_of_mem _ (hleft other ho)⟩
      · obtain ⟨rfl, rfl⟩ := NextStep.attempt.inj h
        exact ⟨List.mem_cons_self, fun other ho => List.mem_cons_of_mem _ ho⟩

end StepRows

namespace CompiledPlan

variable {plan : CompiledPlan} {rows : StepRows}

theorem succeededIn_iff : plan.succeededIn rows = true ↔
    ∀ step ∈ plan.requiredSteps, rows.statusAt step.sequence = some .succeeded := by
  simp [succeededIn]

theorem eq_of_sequence {a b : CompiledStep} (ha : a ∈ plan.steps) (hb : b ∈ plan.steps)
    (h : a.sequence = b.sequence) : a = b := by
  have hnodup : (plan.steps.map (·.sequence)).Nodup :=
    List.pairwise_map.2 (plan.ordered.imp Nat.ne_of_lt)
  exact List.inj_on_of_nodup_map hnodup ha hb h

theorem succeededIn_settled {step : CompiledStep} (outcome : StepOutcome)
    (hstep : step ∈ plan.steps) (hrow : (rows.statusAt step.sequence).isSome = true)
    (hin : plan.succeededIn rows = true) :
    plan.succeededIn (rows.set step.sequence (·.withOutcome outcome)) = true ↔
      step.optional = true ∨ outcome.status = .succeeded := by
  rw [succeededIn_iff] at hin ⊢
  constructor
  · intro hall
    rcases hopt : step.optional with _ | _
    · have hreq : step ∈ plan.requiredSteps := List.mem_filter.2 ⟨hstep, by simp [hopt]⟩
      have hset := hall step hreq
      rw [StepRows.statusAt_withOutcome hrow] at hset
      right
      rcases hstatus : outcome.status with _ | reason | _ <;>
        simp [hstatus, StepOutcomeStatus.row] at hset
      rfl
    · exact .inl rfl
  · intro hcase other hother
    by_cases hsame : other.sequence = step.sequence
    · obtain ⟨hmem, hreq⟩ := List.mem_filter.1 hother
      obtain rfl := eq_of_sequence hmem hstep hsame
      rcases hcase with hopt | hsucceeded
      · simp [hopt] at hreq
      · rw [StepRows.statusAt_withOutcome hrow, hsucceeded]
        rfl
    · rw [StepRows.statusAt_set_of_ne (f := (·.withOutcome outcome)) (fun _ => rfl) hsame]
      exact hin other hother

end CompiledPlan

def ProvisioningStage.steps : ProvisioningStage → List CompiledStep
  | .looping left _ => left
  | .attempting step left _ => step :: left
  | _ => []

/-- A session under way is overtaken exactly if the run is over; it works on steps of the plan, each
of which has its row. -/
structure SessionsKept {n : ℕ} (s : ProvisioningRun n) : Prop where
  overtaken : ∀ w, (s.stage w).live = true → (s.sessions w).overtaken = s.status.ended
  planned : ∀ w, ∀ step ∈ (s.stage w).steps, step ∈ s.plan.steps
  rows : ∀ step ∈ s.plan.steps, (s.steps.statusAt step.sequence).isSome = true

namespace ProvisioningRun

variable {n : ℕ} {s : ProvisioningRun n} {w : Fin n}

variable (stage : ProvisioningStage)

theorem enter_sessions (v : Fin n) : (s.enter w stage).sessions v =
    if v = w then { s.sessions w with stage := stage } else s.sessions v := by
  exact Function.update_apply ..

theorem enter_stage (v : Fin n) :
    (s.enter w stage).stage v = if v = w then stage else s.stage v := by
  rw [ProvisioningRun.stage, enter_sessions]
  split_ifs <;> rfl

theorem read_sessions (next : ProvisioningStage) (h : (s.stage w).live = false) (v : Fin n) :
    (s.read w next).sessions v = if v = w then
      { stage := if s.status.ended then .ended else next } else s.sessions v := by
  rw [read, if_neg (by simp [h])]
  exact Function.update_apply ..

theorem read_cases (w : Fin n) (next : ProvisioningStage) :
    (s.read w next).status = s.status ∧ (s.read w next).steps = s.steps ∧
      (s.read w next).plan = s.plan := by
  unfold read
  split_ifs <;> exact ⟨rfl, rfl, rfl⟩

theorem writeStatus_sessions (status : TemplateRunStatus) (now : Timestamp) (v : Fin n) :
    (s.writeStatus w status now).sessions v = if v = w then { stage := .ended } else
      { s.sessions v with overtaken := (s.sessions v).overtaken || status.ended } := by
  unfold writeStatus
  dsimp only
  rw [Function.update_apply]

theorem live_of_closing {status : TemplateRunStatus} (h : s.closing w = some status) :
    (s.stage w).live = true := by
  rcases hstage : s.stage w <;> simp [closing, hstage] at h <;> rfl

theorem attemptNext_cases (w : Fin n) : (s.attempts (.attempt w) = false ∧
      (s.attemptNext w = s ∨ s.attemptNext w = s.enter w .ended)) ∨
    s.attempts (.attempt w) = true ∧ ∃ left rows step left', s.stage w = .looping left rows ∧
      rows.nextStep left = .attempt step left' ∧
      s.attemptNext w = { s with steps := s.steps.set step.sequence (·.attempted) }.enter w
        (.attempting step left' rows) := by
  rcases hstage : s.stage w with _ | _ | ⟨left, rows⟩ | _ | _ | _ | _
  case looping =>
    rcases hnext : rows.nextStep left with ⟨step, left'⟩ | _ | _
    · refine .inr ⟨by simp [attempts, hstage, hnext], left, rows, step, left', rfl, hnext, ?_⟩
      simp only [attemptNext, hstage, hnext]
    · refine .inl ⟨by simp [attempts, hstage, hnext], .inr ?_⟩
      simp only [attemptNext, hstage, hnext]
    · refine .inl ⟨by simp [attempts, hstage, hnext], .inl ?_⟩
      simp only [attemptNext, hstage, hnext]
  all_goals exact .inl ⟨by simp [attempts, hstage], .inl (by simp only [attemptNext, hstage])⟩

theorem settle_cases (w : Fin n) (result : InfrastructureResult StepOutcome) :
    ((∀ step left rows, s.stage w ≠ .attempting step left rows) ∧ s.settle w result = s) ∨
      ∃ step left rows, s.stage w = .attempting step left rows ∧ s.settle w result =
        { s with
          steps := s.steps.set step.sequence (·.withOutcome (recordedOutcome result)) }.enter w
          (if goesOn result then
            .looping left (rows.set step.sequence (·.withOutcome (recordedOutcome result)))
          else .raising) := by
  rcases hstage : s.stage w with _ | _ | _ | ⟨step, left, rows⟩ | _ | _ | _
  case attempting =>
    exact .inr ⟨step, left, rows, rfl, by simp only [settle, hstage]⟩
  all_goals exact .inl ⟨fun _ _ _ h => ProvisioningStage.noConfusion h,
    by simp only [settle, hstage]⟩

end ProvisioningRun

namespace SessionsKept

variable {n : ℕ} {s : ProvisioningRun n} {w : Fin n}

section

variable (h : SessionsKept s)
include h

theorem enter {stage : ProvisioningStage} (hlive : stage.live = true → (s.stage w).live = true)
    (hsteps : ∀ step ∈ stage.steps, step ∈ s.plan.steps) : SessionsKept (s.enter w stage) where
  overtaken v hv := by
    rw [ProvisioningRun.enter_stage] at hv
    rw [ProvisioningRun.enter_sessions]
    split_ifs at hv ⊢ with hvw
    · exact h.overtaken w (hlive hv)
    · exact h.overtaken v hv
  planned v step hstep := by
    rw [ProvisioningRun.enter_stage] at hstep
    split_ifs at hstep with hvw
    · exact hsteps step hstep
    · exact h.planned v step hstep
  rows := h.rows

theorem setStep {k : ℕ} {f : TemplateRunStepRow → TemplateRunStepRow}
    (hf : ∀ row, (f row).sequence = row.sequence) :
    SessionsKept { s with steps := s.steps.set k f } where
  overtaken := h.overtaken
  planned := h.planned
  rows step hstep := by
    rw [StepRows.isSome_statusAt_set hf]
    exact h.rows step hstep

theorem read {next : ProvisioningStage} (hnext : next.steps = []) :
    SessionsKept (s.read w next) := by
  rcases hlive : (s.stage w).live with _ | _
  · have hsessions := ProvisioningRun.read_sessions next hlive
    obtain ⟨hstatus, hsteps, hplan⟩ := s.read_cases w next
    constructor
    · intro v hv
      rw [ProvisioningRun.stage, hsessions] at hv
      rw [hsessions, hstatus]
      split_ifs at hv ⊢ with hvw hended
      · simp [ProvisioningStage.live] at hv
      · simpa using hended
      · exact h.overtaken v hv
    · intro v step hstep
      rw [ProvisioningRun.stage, hsessions] at hstep
      rw [hplan]
      split_ifs at hstep with hvw hended
      · simp [ProvisioningStage.steps] at hstep
      · simp [hnext] at hstep
      · exact h.planned v step hstep
    · intro step hstep
      rw [hsteps]
      rw [hplan] at hstep
      exact h.rows step hstep
  · rw [ProvisioningRun.read, if_pos hlive]
    exact h

theorem writeStatus {status : TemplateRunStatus} {now : Timestamp}
    (hkept : s.status.ended = true → s.status = status) :
    SessionsKept (s.writeStatus w status now) where
  overtaken v hv := by
    rw [ProvisioningRun.stage, ProvisioningRun.writeStatus_sessions] at hv
    rw [ProvisioningRun.writeStatus_sessions]
    split_ifs at hv ⊢ with hvw
    · simp [ProvisioningStage.live] at hv
    · have hover := h.overtaken v hv
      dsimp only [ProvisioningRun.writeStatus]
      rw [hover]
      rcases hended : s.status.ended with _ | _
      · rfl
      · rw [← hkept hended, hended]
        rfl
  planned v step hstep := by
    rw [ProvisioningRun.stage, ProvisioningRun.writeStatus_sessions] at hstep
    split_ifs at hstep with hvw
    · simp [ProvisioningStage.steps] at hstep
    · exact h.planned v step hstep
  rows := h.rows

theorem step (a : ProvisioningAction n) (hg : Unhindered s a) :
    SessionsKept (s.step a) := by
  cases a with
  | advance w | abandon w => exact h.read rfl
  | load w =>
    dsimp only [ProvisioningRun.step]
    split_ifs with hstage
    · exact h.enter (fun _ => by rw [hstage]; rfl) fun _ => id
    · exact h
  | attempt w =>
    rcases s.attemptNext_cases w with
      ⟨-, heq | heq⟩ | ⟨-, left, rows, step, left', hstage, hnext, heq⟩
    · rw [ProvisioningRun.step, heq]
      exact h
    · rw [ProvisioningRun.step, heq]
      exact h.enter nofun nofun
    · have hplanned := h.planned w
      rw [hstage] at hplanned
      obtain ⟨hmem, hleft⟩ := StepRows.nextStep_attempt hnext
      rw [ProvisioningRun.step, heq]
      have hset := h.setStep (k := step.sequence) (f := (·.attempted)) fun _ => rfl
      refine hset.enter (fun _ => ?_) fun other ho => ?_
      · change (s.stage w).live = true
        rw [hstage]
        rfl
      rcases List.mem_cons.1 ho with rfl | ho
      · exact hplanned other hmem
      · exact hplanned other (hleft other ho)
  | settle w result =>
    rcases s.settle_cases w result with ⟨-, heq⟩ | ⟨step, left, rows, hstage, heq⟩
    · rw [ProvisioningRun.step, heq]
      exact h
    · have hplanned := h.planned w
      rw [hstage] at hplanned
      rw [ProvisioningRun.step, heq]
      have hset := h.setStep (k := step.sequence)
        (f := (·.withOutcome (recordedOutcome result))) fun _ => rfl
      refine hset.enter (fun _ => ?_) fun other ho => ?_
      · change (s.stage w).live = true
        rw [hstage]
        rfl
      split_ifs at ho
      · exact hplanned other (List.mem_cons_of_mem _ ho)
      · simp [ProvisioningStage.steps] at ho
  | finish w now =>
    rcases hclosing : s.closing w with _ | status
    · simp only [ProvisioningRun.step, hclosing]
      exact h
    · simp only [ProvisioningRun.step, hclosing]
      refine h.writeStatus fun hended => (hg status hclosing).1 ?_
      rw [h.overtaken w (ProvisioningRun.live_of_closing hclosing), hended]
  | fail w now =>
    dsimp only [ProvisioningRun.step]
    split_ifs with hstage
    · refine h.writeStatus fun hended => hg hstage ?_
      rw [h.overtaken w (by rw [hstage]; rfl), hended]
    · exact h
  | crash w => exact h.enter nofun nofun

end

end SessionsKept

section Condition

variable {n : ℕ} {s : ProvisioningRun n}

theorem harmless {a : ProvisioningAction n} (hp : SucceededTruly s)
    (hstatus : (s.step a).status = s.status) (hsteps : (s.step a).steps = s.steps)
    (hplan : (s.step a).plan = s.plan) (hnone : s.attempts a = false) :
    SucceededTruly (s.step a) ∧ StaysEnded s a := by
  refine ⟨?_, fun _ => ⟨hstatus, hnone⟩⟩
  unfold SucceededTruly
  rw [hstatus, hsteps, hplan]
  exact hp

theorem settle_truly_iff (h : SessionsKept s) (hp : SucceededTruly s) (w : Fin n)
    (result : InfrastructureResult StepOutcome) :
    SucceededTruly (s.step (.settle w result)) ↔ Unhindered s (.settle w result) := by
  dsimp only [ProvisioningRun.step]
  rcases s.settle_cases w result with ⟨hnone, heq⟩ | ⟨step, left, rows, hstage, heq⟩
  · rw [heq]
    exact iff_of_true hp fun step left rows hstage => absurd hstage (hnone step left rows)
  · have hstep : step ∈ s.plan.steps := h.planned w step (by simp [hstage, ProvisioningStage.steps])
    have hsettled := fun hsucceeded =>
      CompiledPlan.succeededIn_settled (recordedOutcome result) hstep
        (h.rows step hstep) (hp hsucceeded)
    rw [heq]
    constructor
    · intro htruly step' left' rows' hstage' hsucceeded
      obtain ⟨rfl, -, -⟩ := ProvisioningStage.attempting.inj (hstage.symm.trans hstage')
      exact (hsettled hsucceeded).1 (htruly hsucceeded)
    · intro hg hsucceeded
      exact (hsettled hsucceeded).2 (hg step left rows hstage hsucceeded)

theorem succeededIn_of_closing {w : Fin n} (h : s.closing w = some .succeeded) :
    s.plan.succeededIn (s.stage w).copy = true := by
  rcases hstage : s.stage w with _ | _ | ⟨left, rows⟩ | _ | _ | _ | _ <;>
    simp only [ProvisioningRun.closing, hstage] at h
  case looping =>
    split_ifs at h with hnext hin
    · exact hin
    · simp at h
  all_goals simp at h

theorem finish_iff (h : SessionsKept s) (hp : SucceededTruly s) (w : Fin n) (now : Timestamp) :
    SucceededTruly (s.step (.finish w now)) ∧ StaysEnded s (.finish w now) ↔
      Unhindered s (.finish w now) := by
  rcases hclosing : s.closing w with _ | status
  · have heq : s.step (.finish w now) = s := by simp only [ProvisioningRun.step, hclosing]
    refine iff_of_true (harmless hp (by rw [heq]) (by rw [heq]) (by rw [heq]) rfl) ?_
    intro status hstatus
    rw [hclosing] at hstatus
    simp at hstatus
  · have heq : s.step (.finish w now) = s.writeStatus w status now := by
      simp only [ProvisioningRun.step, hclosing]
    have hover := h.overtaken w (ProvisioningRun.live_of_closing hclosing)
    unfold StaysEnded
    rw [heq]
    constructor
    · rintro ⟨htruly, hstays⟩ status' hclosing'
      obtain rfl := Option.some.inj (hclosing.symm.trans hclosing')
      refine ⟨fun hovertaken => (hstays (hover ▸ hovertaken)).1.symm, ?_⟩
      rintro rfl step hstep
      have hrow : s.steps.statusAt step.sequence = some .succeeded :=
        CompiledPlan.succeededIn_iff.1 (htruly rfl) step hstep
      rw [hrow, CompiledPlan.succeededIn_iff.1 (succeededIn_of_closing hclosing) step hstep]
    · intro hg
      obtain ⟨hsame, hcopies⟩ := hg status hclosing
      refine ⟨fun hsucceeded => ?_, fun hended => ⟨(hsame (hover.trans hended)).symm, rfl⟩⟩
      obtain rfl : status = .succeeded := hsucceeded
      refine CompiledPlan.succeededIn_iff.2 fun step hstep => ?_
      rw [← CompiledPlan.succeededIn_iff.1 (succeededIn_of_closing hclosing) step hstep]
      exact hcopies rfl step hstep

theorem fail_iff (h : SessionsKept s) (hp : SucceededTruly s) (w : Fin n) (now : Timestamp) :
    SucceededTruly (s.step (.fail w now)) ∧ StaysEnded s (.fail w now) ↔
      Unhindered s (.fail w now) := by
  by_cases hstage : s.stage w = .abandoning
  · have heq : s.step (.fail w now) = s.writeStatus w .failed now := by
      simp only [ProvisioningRun.step, if_pos hstage]
    have hover := h.overtaken w (by rw [hstage]; rfl)
    unfold StaysEnded
    rw [heq]
    constructor
    · rintro ⟨-, hstays⟩ - hovertaken
      exact (hstays (hover ▸ hovertaken)).1.symm
    · intro hg
      exact ⟨nofun, fun hended => ⟨(hg hstage (hover.trans hended)).symm, rfl⟩⟩
  · have heq : s.step (.fail w now) = s := by simp only [ProvisioningRun.step, if_neg hstage]
    exact iff_of_true (harmless hp (by rw [heq]) (by rw [heq]) (by rw [heq]) rfl)
      fun habandoning => absurd habandoning hstage

theorem attempt_iff (h : SessionsKept s) (hp : SucceededTruly s) (w : Fin n) :
    SucceededTruly (s.step (.attempt w)) ∧ StaysEnded s (.attempt w) ↔
      Unhindered s (.attempt w) := by
  rcases s.attemptNext_cases w with
    ⟨hnone, heq⟩ | ⟨hattempts, left, rows, step, left', hstage, -, heq⟩
  · refine iff_of_true ?_ fun hattempts => ?_
    · have heq' : s.step (.attempt w) = s ∨ s.step (.attempt w) = s.enter w .ended := heq
      rcases heq' with heq | heq
      · exact harmless hp (by rw [heq]) (by rw [heq]) (by rw [heq]) hnone
      · exact harmless hp (by rw [heq]; rfl) (by rw [heq]; rfl) (by rw [heq]; rfl) hnone
    · simp [hnone] at hattempts
  · have hover := h.overtaken w (by rw [hstage]; rfl)
    have hstatus : (s.step (.attempt w)).status = s.status := by
      rw [ProvisioningRun.step, heq]
      rfl
    constructor
    · rintro ⟨-, hstays⟩ -
      rw [hover]
      by_contra hended
      simp [(hstays (by simpa using hended)).2] at hattempts
    · intro hg
      have hrunning : s.status.ended = false := hover ▸ hg hattempts
      refine ⟨fun hsucceeded => ?_, fun hended => ?_⟩
      · rw [hstatus] at hsucceeded
        simp [hsucceeded, TemplateRunStatus.ended] at hrunning
      · simp [hrunning] at hended

theorem step_ends_once_iff (h : SessionsKept s) (hp : SucceededTruly s) (a : ProvisioningAction n) :
    SucceededTruly (s.step a) ∧ StaysEnded s a ↔ Unhindered s a := by
  cases a with
  | advance w | abandon w =>
    obtain ⟨hstatus, hsteps, hplan⟩ := s.read_cases w _
    exact iff_of_true (harmless hp hstatus hsteps hplan rfl) trivial
  | load w =>
    refine iff_of_true ?_ trivial
    have hcases : s.step (.load w) = s ∨
        s.step (.load w) = s.enter w (.looping s.plan.steps s.steps) := by
      dsimp only [ProvisioningRun.step]
      split_ifs
      · exact .inr rfl
      · exact .inl rfl
    rcases hcases with heq | heq
    · exact harmless hp (by rw [heq]) (by rw [heq]) (by rw [heq]) rfl
    · exact harmless hp (by rw [heq]; rfl) (by rw [heq]; rfl) (by rw [heq]; rfl) rfl
  | attempt w => exact attempt_iff h hp w
  | settle w result =>
    rw [← settle_truly_iff h hp]
    refine and_iff_left fun _ => ⟨?_, rfl⟩
    rcases s.settle_cases w result with ⟨-, heq⟩ | ⟨_, _, _, -, heq⟩
    · rw [ProvisioningRun.step, heq]
    · rw [ProvisioningRun.step, heq]
      rfl
  | finish w now => exact finish_iff h hp w now
  | fail w now => exact fail_iff h hp w now
  | crash w => exact iff_of_true (harmless hp rfl rfl rfl rfl) trivial

theorem startRun_kept (plan : CompiledPlan) : SessionsKept (startRun n plan) where
  overtaken w hlive := by simp [startRun, ProvisioningRun.stage, ProvisioningStage.live] at hlive
  planned w step hstep := by
    simp [startRun, ProvisioningRun.stage, ProvisioningStage.steps] at hstep
  rows step hstep := by
    rw [StepRows.statusAt, Option.isSome_map, StepRows.get, List.find?_isSome]
    exact ⟨_, List.mem_map_of_mem hstep, by simp⟩

/-- A run that has ended stays so and is attempted no more exactly if no session comes between what
another has read and what it does. -/
theorem run_ends_once_iff (plan : CompiledPlan) (actions : List (ProvisioningAction n)) :
    Runs.Along ProvisioningRun.step SucceededTruly (startRun n plan) actions ∧
        Runs.Meets ProvisioningRun.step StaysEnded (startRun n plan) actions ↔
      Runs.Meets ProvisioningRun.step Unhindered (startRun n plan) actions :=
  Runs.along_and_meets_iff_of_guarded
    (fun _ a (hs : SessionsKept _) _ hg => hs.step a hg) (fun _ a hs hp => step_ends_once_iff hs hp a)
    (startRun_kept plan) nofun

end Condition

def declareStep : CompiledStep where
  sequence := 0
  step := .domainDeclare ⟨"example.com", 1⟩
  optional := false
  dependsOnSequence := none

def declarePlan : CompiledPlan := ⟨[declareStep], List.pairwise_singleton _ _⟩

def abandonedAt : Timestamp := ⟨⟨2026, 8, 14⟩, 43200000000⟩

def abandonedMidway : List (ProvisioningAction 2) :=
  [.advance 0, .load 0, .abandon 1, .fail 1 abandonedAt, .attempt 0,
    .settle 0 (.ok { status := .succeeded }), .finish 0 abandonedAt]

theorem abandoned_run_attempted : ¬ ∀ (n : ℕ) (plan : CompiledPlan)
    (actions : List (ProvisioningAction n)),
    Runs.Along ProvisioningRun.step SucceededTruly (startRun n plan) actions ∧
      Runs.Meets ProvisioningRun.step StaysEnded (startRun n plan) actions := by
  intro hall
  have hmeets := (hall 2 declarePlan abandonedMidway).2
  have hattempt := hmeets.2.2.2.2.1
  exact absurd (hattempt rfl).2 (by decide)

end Loxep

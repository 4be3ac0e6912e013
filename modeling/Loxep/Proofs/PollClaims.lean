import Loxep.Lib.Runs
import Loxep.Lib.StalestFirst
import Loxep.PollDispatch
import Loxep.Proofs.PollReplay

/-!
# When a target is claimed

Whatever dispatchers, polls and operators do in turn, the targets claimed are the most urgent ones
that are due, a target that was claimed rests for its pace, and one that failed backs off.
-/

namespace Loxep

section Claim

variable {t t' : DispatchTables} {now : JsDate} {limit : ℕ} {locked : MonitorTargetId → Bool}
  {claimed : List MonitorTargetRow}

def DispatchTables.taken (t : DispatchTables) (now : JsDate) (limit : ℕ)
    (locked : MonitorTargetId → Bool) : List MonitorTargetRow :=
  (t.unlockedDue now.epochMicros locked).take limit

theorem claimDueTargets_eq_ok (h : t.claimDueTargets now limit locked = .ok (claimed, t')) :
    claimed.Perm ((t.taken now limit locked).map (·.claimed now.epochMicros)) ∧
      t' = { t with targets := t.targets.map fun row =>
        if row.id ∈ (t.taken now limit locked).map (·.id) then row.claimed now.epochMicros
        else row } := by
  obtain ⟨_, hnow, h⟩ := Except.bind_eq_ok.1 h
  obtain ⟨-, rfl⟩ := timestamptzLiteral_eq_ok.1 hnow
  cases h
  exact ⟨List.perm_insertionSort _ _, rfl⟩

theorem mem_unlockedDue {now : ℤ} {row : MonitorTargetRow} : row ∈ t.unlockedDue now locked ↔
    row ∈ t.targets ∧ t.isDue now row = true ∧ locked row.id = false := by
  simp [DispatchTables.unlockedDue]

theorem mem_taken {row : MonitorTargetRow} (h : row ∈ t.taken now limit locked) :
    row ∈ t.targets ∧ t.isDue now.epochMicros row = true ∧ locked row.id = false :=
  mem_unlockedDue.1 (List.mem_of_mem_take h)

/-- A claim moves on targets that are due and not locked, so many at most, leaves every other
target as it was, and passes over none that is as urgent unless it has taken so many that are no
less urgent. -/
theorem claims_most_urgent (h : t.claimDueTargets now limit locked = .ok (claimed, t')) :
    ∃ taken : List MonitorTargetRow, claimed.Perm (taken.map (·.claimed now.epochMicros)) ∧
      t' = { t with targets := t.targets.map fun row =>
        if row.id ∈ taken.map (·.id) then row.claimed now.epochMicros else row } ∧
      taken.length ≤ limit ∧
      (∀ row ∈ taken, row ∈ t.targets ∧ t.isDue now.epochMicros row = true ∧
        locked row.id = false) ∧
      ∀ row ∈ t.targets, t.isDue now.epochMicros row = true → locked row.id = false →
        row ∈ taken ∨ taken.length = limit ∧ ∀ other ∈ taken, t.urgency other ≤ t.urgency row := by
  obtain ⟨hclaimed, hwritten⟩ := claimDueTargets_eq_ok h
  refine ⟨t.taken now limit locked, hclaimed, hwritten, List.length_take_le _ _,
    fun row => mem_taken, fun row hrow hdue hfree => or_iff_not_imp_left.2 fun hnot => ?_⟩
  have hmem : row ∈ t.unlockedDue now.epochMicros locked := mem_unlockedDue.2 ⟨hrow, hdue, hfree⟩
  have hsorted : (t.unlockedDue now.epochMicros locked).Pairwise
      fun a b => t.urgency a ≤ t.urgency b := List.pairwise_insertionSort _ _
  refine ⟨?_, fun other hother => (StalestFirst.rel_of_mem_take hsorted hother hmem hnot :)⟩
  have hlonger : limit ≤ (t.unlockedDue now.epochMicros locked).length := by
    by_contra hshort
    exact hnot (by rwa [DispatchTables.taken, List.take_of_length_le (by omega)])
  rw [DispatchTables.taken, List.length_take, min_eq_left hlonger]

end Claim

namespace TwoDue

/-- Two targets of one priority that are due, one earlier than the other. -/
def tables : DispatchTables where
  toMonitorTables := { ReplayedPoll.tables with
    targets := [{ ReplayedPoll.row with nextPollAt := some 1 },
      { ReplayedPoll.row with id := 2, nextPollAt := some 0 }] }
  enabled := fun _ => true
  priority := fun _ => 100

def now : JsDate := ReplayedPoll.options.at'

def actions : List DispatchAction :=
  [.claim now 1 fun _ => false, .failure 2 now, .claim now 1 fun _ => false]

end TwoDue

theorem earlier_claimed : ∃ (claimed taken : List MonitorTargetRow) (t' : DispatchTables),
    TwoDue.tables.claimDueTargets TwoDue.now 1 (fun _ => false) = .ok (claimed, t') ∧
      t'.targets = TwoDue.tables.targets.map (fun row =>
        if row.id ∈ taken.map (·.id) then row.claimed TwoDue.now.epochMicros else row) ∧
      taken.length ≤ 1 ∧
      ∀ row ∈ TwoDue.tables.targets, TwoDue.tables.isDue TwoDue.now.epochMicros row = true →
        row ∈ taken ∨
          taken.length = 1 ∧
            ∀ other ∈ taken, TwoDue.tables.urgency other ≤ TwoDue.tables.urgency row := by
  have hclaim : TwoDue.tables.claimDueTargets TwoDue.now 1 (fun _ => false) = .ok (_, _) := rfl
  obtain ⟨taken, -, hwritten, hlimit, -, hurgent⟩ := claims_most_urgent hclaim
  exact ⟨_, taken, _, hclaim, by rw [hwritten], hlimit,
    fun row hrow hdue => hurgent row hrow hdue rfl⟩

section Outcome

variable {t t' : MonitorTables} {id : MonitorTargetId} {row' : MonitorTargetRow}

theorem withSignals_at {options o : RecordPollSuccessOptions}
    (h : t.withSignals id options = .ok o) : o.at' = options.at' := by
  unfold MonitorTables.withSignals at h
  split_ifs at h
  · obtain ⟨signals, -, heq⟩ := Except.bind_eq_ok.1 h
    rw [← Except.pure_eq_ok.1 heq]
  · rw [Except.ok.inj h]

theorem recordPollFailure_eq_ok {at' : JsDate}
    (h : t.recordPollFailure id at' = .ok (row', t')) : ∃ row, t.findTarget id = some row ∧
      row' = row.failed at'.epochMicros ∧ t' = t.writeTarget (row.failed at'.epochMicros) := by
  obtain ⟨_, hat, h⟩ := Except.bind_eq_ok.1 h
  obtain ⟨-, rfl⟩ := timestamptzLiteral_eq_ok.1 hat
  rcases hrow : t.findTarget id with _ | row
  · rw [hrow] at h
    cases h
  · rw [hrow] at h
    cases h
    exact ⟨row, rfl, rfl, rfl⟩

end Outcome

namespace DispatchRun

/-- What an action makes of a target and of what was recorded of it. -/
inductive Moves (s : DispatchRun) :
    DispatchAction → MonitorTargetRow → MonitorTargetRow → List PollOutcome → Prop
  | stays (a : DispatchAction) (row : MonitorTargetRow) : Moves s a row row (s.outcomes row.id)
  | claimed {now : JsDate} {limit : ℕ} {locked : MonitorTargetId → Bool} (row : MonitorTargetRow) :
      Moves s (.claim now limit locked) row (row.claimed now.epochMicros) (s.outcomes row.id)
  | succeeded {options : RecordPollSuccessOptions} {at' : ℤ} {next : Option ℤ}
      {config : ConfigJson} (row : MonitorTargetRow)
      (paced : next = row.nextPollAt ∨ ∃ bounds seconds, resolveBounds options.bounds = .ok bounds ∧
        bounds.minSeconds ≤ seconds ∧
          next = some (options.at'.epochMicros + (seconds : ℕ) * 1000000)) :
      Moves s (.success row.id options) row { row.succeeded at' with nextPollAt := next, config }
        (.succeeded :: s.outcomes row.id)
  | failed {at' : JsDate} (row : MonitorTargetRow) :
      Moves s (.failure row.id at') row (row.failed at'.epochMicros)
        (.failed at'.epochMicros row.intervalSeconds :: s.outcomes row.id)
  | edited {input : UpdateMonitorTargetInput} (row : MonitorTargetRow) :
      Moves s (.edit row.id input) row (row.edited input) (s.outcomes row.id)

variable {s : DispatchRun} {a : DispatchAction} {actions : List DispatchAction}
  {id : MonitorTargetId} {new row row' : MonitorTargetRow}

theorem written_moves {outcomes : MonitorTargetId → List PollOutcome}
    (hfound : s.findTarget id = some row) (hid : row'.id = row.id)
    (hmoves : s.Moves a row row' (outcomes id))
    (hothers : ∀ other, other ≠ id → outcomes other = s.outcomes other)
    (hnew : new ∈ (s.writeTarget row').targets) :
    ∃ old ∈ s.targets, old.id = new.id ∧ s.Moves a old new (outcomes new.id) := by
  have hkey : row.id = id := KeyedTable.get_key hfound
  obtain ⟨old, hold, rfl⟩ := List.mem_map.1 hnew
  by_cases hsame : old.id = row'.id
  · refine ⟨row, KeyedTable.get_mem hfound, ?_⟩
    rw [if_pos hsame, hid, hkey]
    exact ⟨rfl, hmoves⟩
  · refine ⟨old, hold, ?_⟩
    rw [if_neg hsame, hothers old.id (by rwa [hid, hkey] at hsame)]
    exact ⟨rfl, .stays a old⟩

@[simp] theorem recorded_outcomes {outcome : PollOutcome} {t : MonitorTables} :
    (s.recorded id outcome t).outcomes =
      Function.update s.outcomes id (outcome :: s.outcomes id) := rfl

theorem recorded_moves {outcome : PollOutcome} (hfound : s.findTarget id = some row)
    (hid : row'.id = row.id) (hmoves : s.Moves a row row' (outcome :: s.outcomes row.id))
    (hnew : new ∈ (s.recorded id outcome (s.writeTarget row')).targets) :
    ∃ old ∈ s.targets, old.id = new.id ∧
      s.Moves a old new ((s.recorded id outcome (s.writeTarget row')).outcomes new.id) := by
  have hkey : row.id = id := KeyedTable.get_key hfound
  refine written_moves hfound hid ?_ (fun other hother => ?_) hnew
  · rw [recorded_outcomes, Function.update_self, ← hkey]
    exact hmoves
  · rw [recorded_outcomes, Function.update_of_ne hother]

/-- Each row after an action comes from one of before, as the action moves it. -/
theorem step_moves (hnew : new ∈ (s.step a).targets) : ∃ old ∈ s.targets, old.id = new.id ∧
    s.Moves a old new ((s.step a).outcomes new.id) := by
  cases a with
  | claim now limit locked =>
    simp only [step] at hnew ⊢
    split at hnew
    next claimed t hclaim =>
      obtain ⟨-, rfl⟩ := claimDueTargets_eq_ok hclaim
      obtain ⟨old, hold, rfl⟩ := List.mem_map.1 hnew
      refine ⟨old, hold, ?_⟩
      split_ifs
      · exact ⟨rfl, .claimed old⟩
      · exact ⟨rfl, .stays _ old⟩
    next => exact ⟨new, hnew, rfl, .stays _ new⟩
  | success id options =>
    simp only [step] at hnew ⊢
    split at hnew
    next r t hcall =>
      rcases recordPollSuccess_cases hcall with ⟨row, at', hfound, -, rfl⟩ | ⟨c, hc⟩
      · obtain rfl : row.id = id := KeyedTable.get_key hfound
        exact recorded_moves hfound rfl (.succeeded row (Or.inl rfl)) hnew
      · have hfound := hc.found
        obtain rfl : c.row.id = id := KeyedTable.get_key hfound
        rw [hc.recordPollSuccess_eq] at hcall
        cases hcall
        have hmin : c.bounds.minSeconds ≤ c.decision.intervalSeconds := hc.allowed.1
        have hat : options.at'.epochMicros = c.at' := by
          rw [← withSignals_at hc.signals]
          exact (timestamptzLiteral_eq_ok.1 hc.at_eq).2
        refine recorded_moves hfound rfl (.succeeded c.row (Or.inr ?_)) hnew
        exact ⟨c.bounds, _, hc.resolveBounds_eq, hmin, by rw [hat]⟩
    next => exact ⟨new, hnew, rfl, .stays _ new⟩
  | failure id at' =>
    simp only [step] at hnew ⊢
    split at hnew
    next failed t hcall =>
      obtain ⟨row, hfound, rfl, rfl⟩ := recordPollFailure_eq_ok hcall
      obtain rfl : row.id = id := KeyedTable.get_key hfound
      exact recorded_moves hfound rfl (.failed row) hnew
    next => exact ⟨new, hnew, rfl, .stays _ new⟩
  | edit id input =>
    simp only [step, DispatchTables.updateTarget] at hnew ⊢
    split at hnew
    next hcall =>
      split at hcall
      · cases hcall
      · rename_i row hfound
        obtain rfl : row.id = id := KeyedTable.get_key hfound
        cases hcall
        have hid : (row.edited input).id = row.id := by
          unfold MonitorTargetRow.edited
          split <;> rfl
        exact written_moves hfound hid (.edited row) (fun _ _ => rfl) hnew
    next => exact ⟨new, hnew, rfl, .stays _ new⟩

end DispatchRun

/-! ## Backing off -/

def errorsInRow : List PollOutcome → ℕ
  | .failed _ _ :: outcomes => errorsInRow outcomes + 1
  | _ => 0

/-- How long a target is to rest after what was recorded of it. -/
def restsUntil : List PollOutcome → Option ℤ
  | .failed at' intervalSeconds :: outcomes =>
    some (at' + backoffSeconds intervalSeconds (errorsInRow outcomes + 1) * 1000000)
  | _ => none

namespace DispatchRun

variable {s : DispatchRun} {a : DispatchAction} {actions : List DispatchAction}
  {id : MonitorTargetId}

/-- The columns hold what the outcomes come to. -/
def BacksOff (s : DispatchRun) : Prop :=
  ∀ row ∈ s.targets, row.consecutiveErrors = errorsInRow (s.outcomes row.id) ∧
    row.backoffUntil = restsUntil (s.outcomes row.id)

def SparesResting (s : DispatchRun) : DispatchAction → Prop
  | .claim now limit locked => ∀ claimed t, s.claimDueTargets now limit locked = .ok (claimed, t) →
      ∀ row ∈ claimed, ∀ rest ∈ restsUntil (s.outcomes row.id), rest ≤ now.epochMicros
  | _ => True

theorem backsOff_step (h : s.BacksOff) : (s.step a).BacksOff := by
  intro new hnew
  obtain ⟨old, hold, hid, hmoves⟩ := step_moves hnew
  obtain ⟨herrors, hrests⟩ := h old hold
  generalize (s.step a).outcomes new.id = outcomes at hmoves ⊢
  cases hmoves with
  | stays => exact ⟨herrors, hrests⟩
  | claimed => exact ⟨herrors, hrests⟩
  | succeeded => exact ⟨rfl, rfl⟩
  | failed => simp [MonitorTargetRow.failed, errorsInRow, restsUntil, herrors]
  | edited =>
    unfold MonitorTargetRow.edited
    split <;> exact ⟨herrors, hrests⟩

theorem backsOff_spares (h : s.BacksOff) : s.SparesResting a := by
  cases a with
  | claim now limit locked =>
    intro claimed t hclaim row hrow rest hrest
    obtain ⟨old, hold, rfl⟩ := List.mem_map.1 ((claimDueTargets_eq_ok hclaim).1.mem_iff.1 hrow)
    obtain ⟨hmem, hdue, -⟩ := mem_taken hold
    replace hrest : rest ∈ old.backoffUntil := (h old hmem).2 ▸ hrest
    simp only [DispatchTables.isDue, Bool.and_eq_true, Option.all_eq_true,
      decide_eq_true_eq] at hdue
    exact hdue.2 rest hrest
  | _ => trivial

/-- Whatever is claimed, recorded and edited in whatever order, the columns of each target hold
what was recorded of it, and no target is claimed before the end of its rest. -/
theorem backs_off {t : DispatchTables}
    (hfresh : ∀ row ∈ t.targets, row.consecutiveErrors = 0 ∧ row.backoffUntil = none) :
    Runs.Along step BacksOff { t with } actions ∧
      Runs.Meets step SparesResting { t with } actions := by
  have hstart : BacksOff { t with } := hfresh
  have hany : Runs.Meets step (fun _ _ => True) { t with } actions :=
    Runs.meets_of_forall fun _ _ => trivial
  exact ⟨Runs.along_of_step (fun _ _ h => backsOff_step h) hstart,
    hany.of_invariant (fun _ _ h _ => backsOff_step h) (fun _ _ h _ => backsOff_spares h) hstart⟩

theorem failed_target_rests : Runs.Along step BacksOff { TwoDue.tables with } TwoDue.actions :=
  (backs_off (by decide)).1

end DispatchRun

/-! ## Keeping the pace -/

namespace DispatchAction

def instant : DispatchAction → Option ℤ
  | .claim now _ _ => some now.epochMicros
  | .success _ options => some options.at'.epochMicros
  | .failure _ at' => some at'.epochMicros
  | .edit _ _ => none

/-- No poll of the target is asked to come back sooner, and no edit sets its pace below. -/
def Paces (id : MonitorTargetId) (m : ℕ) : DispatchAction → Prop
  | .success other options =>
    other = id → ∀ bounds, resolveBounds options.bounds = .ok bounds → m ≤ bounds.minSeconds
  | .edit other input =>
    other = id → input.nextPollAt = none ∧ ∀ seconds ∈ input.intervalSeconds, (m : ℤ) ≤ seconds
  | _ => True

end DispatchAction

namespace DispatchRun

variable (s : DispatchRun) (id : MonitorTargetId) (m : ℕ)

/-- When an action claims the target. -/
def claims : DispatchAction → List ℤ
  | .claim now limit locked =>
    match s.claimDueTargets now limit locked with
    | .ok (claimed, _) => if id ∈ claimed.map (·.id) then [now.epochMicros] else []
    | .error _ => []
  | _ => []

def claimTimes : DispatchRun → List DispatchAction → List ℤ
  | _, [] => []
  | s, a :: actions => s.claims id a ++ claimTimes (s.step a) actions

def Paced : Prop := ∀ row ∈ s.targets, row.id = id → (m : ℤ) ≤ row.intervalSeconds

def NotBefore (earliest : ℤ) : Prop :=
  ∀ row ∈ s.targets, row.id = id → ∀ next ∈ row.nextPollAt, earliest ≤ next

variable {s id m} {a : DispatchAction} {actions : List DispatchAction} {last : ℤ}

theorem paced_step (h : s.Paced id m) (ha : a.Paces id m) : (s.step a).Paced id m := by
  intro new hnew hid
  obtain ⟨old, hold, hsame, hmoves⟩ := step_moves hnew
  have hbase := h old hold (hsame.trans hid)
  generalize (s.step a).outcomes new.id = outcomes at hmoves
  cases hmoves with
  | @edited input =>
    unfold MonitorTargetRow.edited
    split
    · exact hbase
    · rename_i seconds hseconds
      exact (ha (hsame.trans hid)).2 seconds hseconds
  | _ => exact hbase

theorem notBefore_step (h : s.Paced id m) (hrests : s.NotBefore id (last + m * 1000000))
    (ha : a.Paces id m) (hlast : ∀ at' ∈ a.instant, last ≤ at') :
    (s.step a).NotBefore id (last + m * 1000000) := by
  intro new hnew hid next hnext
  obtain ⟨old, hold, hsame, hmoves⟩ := step_moves hnew
  have hbase := h old hold (hsame.trans hid)
  have hold := hrests old hold (hsame.trans hid)
  generalize (s.step a).outcomes new.id = outcomes at hmoves
  cases hmoves with
  | stays => exact hold next hnext
  | claimed =>
    have hnow := hlast _ rfl
    cases hnext
    omega
  | succeeded _ hpaced =>
    rcases hpaced with hsame' | ⟨bounds, seconds, hbounds, hseconds, heq⟩
    · exact hold next (hsame' ▸ hnext)
    · have hm := ha (hsame.trans hid) bounds hbounds
      have hat := hlast _ rfl
      obtain rfl := Option.some.inj (heq.symm.trans hnext)
      omega
  | failed => exact hold next hnext
  | @edited input =>
    have hnone := (ha (hsame.trans hid)).1
    unfold MonitorTargetRow.edited at hnext
    rw [hnone] at hnext
    split at hnext <;> exact hold next hnext

theorem claims_eq_cons {times : List ℤ} (h : s.claims id a = last :: times) :
    times = [] ∧ a.instant = some last ∧
      (∀ earliest, s.NotBefore id earliest → earliest ≤ last) ∧
      (s.Paced id m → (s.step a).NotBefore id (last + m * 1000000)) := by
  cases a with
  | claim now limit locked =>
    simp only [claims] at h
    split at h
    next claimed t hclaim =>
      obtain ⟨hperm, ht⟩ := claimDueTargets_eq_ok hclaim
      split_ifs at h with hmem
      obtain ⟨rfl, rfl⟩ := List.cons.inj h
      have htaken : id ∈ (s.taken now limit locked).map (·.id) := by
        rw [(hperm.map _).mem_iff, List.map_map] at hmem
        exact hmem
      refine ⟨rfl, rfl, fun earliest hrests => ?_, fun hbase new hnew hid next hnext => ?_⟩
      · obtain ⟨row, hrow, hid⟩ := List.mem_map.1 htaken
        obtain ⟨hold, hdue, -⟩ := mem_taken hrow
        simp only [DispatchTables.isDue, Bool.and_eq_true, Option.any_eq_true,
          decide_eq_true_eq] at hdue
        obtain ⟨next, hnext, hle⟩ := hdue.1.2
        exact (hrests row hold hid next hnext).trans hle
      · simp only [step, hclaim, ht] at hnew
        obtain ⟨old, hold, rfl⟩ := List.mem_map.1 hnew
        have hsame : old.id = id := by
          split_ifs at hid <;> exact hid
        rw [hsame, if_pos htaken] at hnext
        have hpace := hbase old hold hsame
        obtain rfl := Option.some.inj hnext
        omega
    next => cases h
  | _ => cases h

theorem le_claimTimes : ∀ {s : DispatchRun} {actions : List DispatchAction}, s.Paced id m →
    s.NotBefore id (last + m * 1000000) → (∀ a ∈ actions, a.Paces id m) →
    (∀ at' ∈ actions.filterMap DispatchAction.instant, last ≤ at') →
    ∀ at' ∈ s.claimTimes id actions, last + m * 1000000 ≤ at'
  | _, [], _, _, _, _ => by simp [claimTimes]
  | s, a :: actions, hbase, hrests, hpaces, hclock => by
    obtain ⟨ha, hpaces⟩ := List.forall_mem_cons.1 hpaces
    have hnow : ∀ at' ∈ a.instant, last ≤ at' := fun at' hat =>
      hclock at' (List.mem_filterMap.2 ⟨a, List.mem_cons_self, hat⟩)
    have hlater : ∀ at' ∈ actions.filterMap DispatchAction.instant, last ≤ at' := by
      intro at' hat
      obtain ⟨b, hb, hat⟩ := List.mem_filterMap.1 hat
      exact hclock at' (List.mem_filterMap.2 ⟨b, List.mem_cons_of_mem a hb, hat⟩)
    refine List.forall_mem_append.2 ⟨fun at' hat => ?_, le_claimTimes (paced_step hbase ha)
      (notBefore_step hbase hrests ha hnow) hpaces hlater⟩
    rcases hclaims : s.claims id a with _ | ⟨first, times⟩
    · rw [hclaims] at hat
      cases hat
    · obtain ⟨rfl, -, hdue, -⟩ := claims_eq_cons (m := m) hclaims
      rw [hclaims, List.mem_singleton] at hat
      exact hat ▸ hdue _ hrests

/-- Whatever stands between them, two claims of a target are as far apart as its pace, as long as
the clock does not run backwards. -/
theorem claims_spaced : ∀ {s : DispatchRun} {actions : List DispatchAction}, s.Paced id m →
    (∀ a ∈ actions, a.Paces id m) →
    (actions.filterMap DispatchAction.instant).Pairwise (· ≤ ·) →
    (s.claimTimes id actions).Pairwise fun first later => first + (m : ℤ) * 1000000 ≤ later
  | _, [], _, _, _ => List.Pairwise.nil
  | s, a :: actions, hbase, hpaces, hclock => by
    obtain ⟨ha, hpaces⟩ := List.forall_mem_cons.1 hpaces
    have hrest : (actions.filterMap DispatchAction.instant).Pairwise (· ≤ ·) :=
      hclock.sublist (.filterMap _ (List.sublist_cons_self a actions))
    have hlater := claims_spaced (paced_step hbase ha) hpaces hrest
    rw [claimTimes]
    rcases hclaims : s.claims id a with _ | ⟨first, times⟩
    · exact hlater
    · obtain ⟨rfl, hinstant, -, hrests⟩ := claims_eq_cons hclaims
      refine List.pairwise_cons.2 ⟨le_claimTimes (paced_step hbase ha) (hrests hbase) hpaces ?_,
        hlater⟩
      rw [List.filterMap_cons, hinstant] at hclock
      exact (List.pairwise_cons.1 hclock).1

theorem claimed_again_later :
    (claimTimes 2 { TwoDue.tables with } TwoDue.actions).Pairwise
      fun first later => first + 900 * 1000000 ≤ later :=
  claims_spaced (m := 900) (by simp [Paced, TwoDue.tables, ReplayedPoll.row])
    (by simp [TwoDue.actions, DispatchAction.Paces])
    (by simp [TwoDue.actions, DispatchAction.instant])

end DispatchRun

end Loxep

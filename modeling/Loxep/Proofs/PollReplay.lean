import Loxep.Proofs.PollInterval

/-!
# A poll recorded again

A replay of a poll keeps the streak and with it the tier, but its interval is damped against the
interval of the first call.
-/

namespace Loxep

structure PolicyCall where
  row : MonitorTargetRow
  changed : Bool
  options : RecordPollSuccessOptions
  bounds : AdaptiveBounds
  tier : AdaptiveTier
  at' : ℤ

def Fits (at' : ℤ) (seconds : ℕ) : Prop :=
  seconds ≤ ConfigJson.maxSafeInteger ∧ at' + seconds * 1000000 ≤ maxTimestamptz

namespace PolicyCall

variable (c : PolicyCall)

def state : AdaptiveState := readAdaptiveState c.row.config

def streak : ℕ := nextUnchangedStreak c.state c.changed c.options.at'

def input : AdaptiveIntervalInput := c.row.adaptiveInput c.options c.changed

def target : ℕ := boundedSeconds c.bounds (c.input.scaled c.tier)

def damped : ℚ × Option ClampedBy :=
  dampStep c.state.lastComputedInterval (c.input.scaled c.tier)

def decision : AdaptiveDecision :=
  ⟨boundedSeconds c.bounds c.damped.1, c.tier, c.tier.factor, (clampBounds c.bounds c.damped).2,
    c.bounds⟩

def left : MonitorTargetRow :=
  { c.row.succeeded c.at' with
    nextPollAt := some (c.at' + c.decision.intervalSeconds * 1000000)
    config := mergeAdaptive c.row.config
      (adaptiveStatePatch c.streak c.decision c.options.at') }

/-- The tables and the arguments come to the call, and the least interval it can yield is one the
columns hold. -/
structure Of (t : MonitorTables) (id : MonitorTargetId) (options : RecordPollSuccessOptions) :
    Prop where
  found : t.findTarget id = some c.row
  changed_eq : options.changed = some c.changed
  enabled : c.state.enabled = true
  signals : t.withSignals id options = .ok c.options
  base_pos : 0 < c.row.intervalSeconds
  bounds_eq : resolveBounds c.options.bounds = .ok c.bounds
  tier_eq : c.input.chosenTier = .ok c.tier
  at_eq : timestamptzLiteral c.options.at' = .ok c.at'
  fits : Fits c.at' (leastStep c.bounds (c.state.lastComputedInterval.getD 0))

end PolicyCall

theorem epochMicros_lt {date : JsDate} (h : date.utcDate.year ≤ 9999) :
    date.epochMicros < 260000000000000000 := by
  obtain ⟨⟨hmonth, hmonth'⟩, hday, hday'⟩ := date.valid
  have hlast : lastDayOfMonth date.utcDate.year date.utcDate.month ≤ 31 := by
    unfold lastDayOfMonth
    split_ifs <;> omega
  have hmicros := date.day_check
  have hepoch : date.utcDate.epochDay ≤ 3000000 := by
    unfold CalendarDate.epochDay
    dsimp only
    split_ifs <;> omega
  unfold Timestamp.epochMicros
  omega

section Calls

variable {c : PolicyCall} {t t' : MonitorTables} {id : MonitorTargetId}
  {options : RecordPollSuccessOptions} {r : PollSuccessResult}

theorem PolicyCall.target_le (hb : c.bounds.Positive) :
    c.target ≤ max c.bounds.minSeconds 17179869176 := by
  have hscaled : c.input.scaled c.tier ≤ (17179869176 : ℕ) := by
    have hbase : (c.row.intervalSeconds : ℚ) ≤ 2147483647 := by exact_mod_cast c.row.interval_int4
    calc (c.row.intervalSeconds : ℚ) * c.tier.factor
        ≤ 2147483647 * c.tier.factor := mul_le_mul_of_nonneg_right hbase c.tier.factor_pos.le
      _ ≤ 2147483647 * 8 := mul_le_mul_of_nonneg_left c.tier.factor_le (by norm_num)
      _ = (17179869176 : ℕ) := by norm_num
  have hwhole := wholeSeconds_mono hscaled
  rw [wholeSeconds_natCast (by norm_num)] at hwhole
  rw [target, boundedSeconds_eq hb]
  omega

theorem PolicyCall.decision_of_previous {p : ℕ} (h : c.state.lastComputedInterval = some p) :
    c.decision.intervalSeconds =
      Damping.damp (leastStep c.bounds) (greatestStep c.bounds) c.target p := by
  show boundedSeconds c.bounds c.damped.1 = _
  rw [damped, h, boundedSeconds_dampStep (lastComputedInterval_pos h), target]

theorem PolicyCall.decision_of_none (h : c.state.lastComputedInterval = none) :
    c.decision.intervalSeconds = c.target := by
  show boundedSeconds c.bounds c.damped.1 = _
  rw [damped, h, target]
  rfl

variable {bounds : AdaptiveBounds} {at' : ℤ}

theorem leastStep_zero (hb : bounds.Positive) :
    leastStep bounds 0 = bounds.minSeconds := by
  have hwhole : wholeSeconds ((0 : ℕ) / MAX_STEP_FACTOR) = 1 := by
    rw [wholeSeconds_quarter]
    rfl
  rw [leastStep, boundedSeconds_eq hb, hwhole]
  obtain ⟨hmin, hmax⟩ := hb
  omega

theorem minSeconds_le_boundedSeconds (hb : bounds.Positive) (seconds : ℚ)
    : bounds.minSeconds ≤ boundedSeconds bounds seconds := by
  rw [boundedSeconds_eq hb]
  exact le_max_left _ _

theorem PolicyCall.decision_bounds (hb : c.bounds.Positive) :
    leastStep c.bounds (c.state.lastComputedInterval.getD 0) ≤ c.decision.intervalSeconds
      ∧ c.decision.intervalSeconds ≤
        max (leastStep c.bounds (c.state.lastComputedInterval.getD 0)) c.target := by
  rcases hprevious : c.state.lastComputedInterval with _ | p
  · rw [c.decision_of_none hprevious, Option.getD_none, leastStep_zero hb]
    exact ⟨minSeconds_le_boundedSeconds hb _, le_max_right _ _⟩
  · rw [c.decision_of_previous hprevious, Option.getD_some]
    exact ⟨le_max_left _ _, max_le_max le_rfl (min_le_right _ _)⟩

theorem Fits.mono {m n : ℕ} (h : Fits at' n) (hm : m ≤ n) : Fits at' m := by
  obtain ⟨hsafe, hmax⟩ := h
  unfold Fits
  omega

theorem timestamptzLiteral_eq_ok {date : JsDate} {micros : ℤ} :
    timestamptzLiteral date = .ok micros ↔
      (1 ≤ date.utcDate.year ∧ date.utcDate.year ≤ 9999) ∧ date.epochMicros = micros := by
  unfold timestamptzLiteral
  split_ifs with h
  · simp [h]
  · simp [h]

theorem PolicyCall.Of.decision_fits (h : c.Of t id options) :
    Fits c.at' c.decision.intervalSeconds := by
  have hb := resolveBounds_positive h.bounds_eq
  obtain ⟨-, hle⟩ := c.decision_bounds hb
  have htarget := c.target_le hb
  have hmin : c.bounds.minSeconds ≤
      leastStep c.bounds (c.state.lastComputedInterval.getD 0) := minSeconds_le_boundedSeconds hb _
  obtain ⟨⟨-, hyear⟩, hmicros⟩ := timestamptzLiteral_eq_ok.1 h.at_eq
  have hlt := epochMicros_lt hyear
  obtain ⟨hsafe, hmax⟩ := h.fits
  simp only [Fits, ConfigJson.maxSafeInteger, maxTimestamptz] at hsafe hmax ⊢
  omega

theorem plusSeconds_eq_ok {sum : ℤ} {seconds : ℕ} : plusSeconds at' seconds = .ok sum ↔
    at' + seconds * 1000000 ≤ maxTimestamptz ∧ at' + seconds * 1000000 = sum := by
  unfold plusSeconds
  split_ifs with h
  · simp [h]
  · simp [h]

theorem advance_eq_ok {row row' : MonitorTargetRow} {changed : Bool} {d : AdaptiveDecision} :
    row.advance options changed = .ok (d, row') ↔
      evaluateAdaptiveInterval (row.adaptiveInput options changed) = .ok d
        ∧ d.intervalSeconds ≤ ConfigJson.maxSafeInteger
        ∧ ∃ at' sum, timestamptzLiteral options.at' = .ok at'
          ∧ plusSeconds at' d.intervalSeconds = .ok sum
          ∧ row' = { row.succeeded at' with
            nextPollAt := some sum
            config := mergeAdaptive row.config (adaptiveStatePatch
              (row.adaptiveInput options changed).unchangedStreak d options.at') } := by
  simp only [MonitorTargetRow.advance, Except.bind_eq_ok, Except.mapError_eq_ok,
    Except.require_eq_ok, Except.pure_eq_ok, Prod.mk.injEq, exists_const]
  constructor
  · rintro ⟨_, heval, hsafe, at', hat, sum, hsum, rfl, rfl⟩
    exact ⟨heval, hsafe, at', sum, hat, hsum, rfl⟩
  · rintro ⟨heval, hsafe, at', sum, hat, hsum, rfl⟩
    exact ⟨d, heval, hsafe, at', hat, sum, hsum, rfl, rfl⟩

theorem PolicyCall.Of.advance_eq (h : c.Of t id options) :
    c.row.advance c.options c.changed = .ok (c.decision, c.left) := by
  obtain ⟨hsafe, hmax⟩ := h.decision_fits
  refine advance_eq_ok.2 ⟨?_, hsafe, c.at', _, h.at_eq, plusSeconds_eq_ok.2 ⟨hmax, rfl⟩, rfl⟩
  exact evaluateAdaptiveInterval_eq_ok.2
    ⟨h.base_pos, h.bounds_eq, h.tier_eq, rfl, rfl, rfl⟩

theorem PolicyCall.Of.recordPollSuccess_eq (h : c.Of t id options) :
    t.recordPollSuccess id options = .ok (⟨some (c.decision, c.streak), c.left.nextPollAt⟩,
      t.writeTarget c.left) := by
  have henabled : (readAdaptiveState c.row.config).enabled = true := h.enabled
  simp only [MonitorTables.recordPollSuccess, h.changed_eq, h.found, henabled, if_true]
  refine Except.bind_eq_ok.2 ⟨c.options, h.signals, ?_⟩
  exact Except.bind_eq_ok.2 ⟨_, h.advance_eq, rfl⟩

theorem recordFlatPollSuccess_cases {at' : JsDate} (h : t.recordFlatPollSuccess id at' = .ok t') :
    ∃ row at', t.findTarget id = some row ∧ t' = t.writeTarget (row.succeeded at') := by
  obtain ⟨micros, -, h⟩ := Except.bind_eq_ok.1 h
  rcases hrow : t.findTarget id with _ | row
  · rw [hrow] at h
    cases h
  · rw [hrow] at h
    cases h
    exact ⟨row, micros, rfl, rfl⟩

theorem recordPollSuccess_cases (h : t.recordPollSuccess id options = .ok (r, t')) :
    (∃ row at', t.findTarget id = some row ∧ r.adaptive = none
      ∧ t' = t.writeTarget (row.succeeded at')) ∨ ∃ c : PolicyCall, c.Of t id options := by
  unfold MonitorTables.recordPollSuccess at h
  rcases hchanged : options.changed with _ | changed
  · rw [hchanged] at h
    obtain ⟨t', hflat, heq⟩ := Except.map_eq_ok.1 h
    cases heq
    obtain ⟨row, at', hrow, rfl⟩ := recordFlatPollSuccess_cases hflat
    exact Or.inl ⟨row, at', hrow, rfl, rfl⟩
  rcases hrow : t.findTarget id with _ | row
  · simp only [hchanged, hrow] at h
    cases h
  simp only [hchanged, hrow] at h
  split_ifs at h with henabled
  · obtain ⟨signals, hsignals, h⟩ := Except.bind_eq_ok.1 h
    obtain ⟨⟨d, row'⟩, hadvance, -⟩ := Except.bind_eq_ok.1 h
    obtain ⟨heval, hsafe, at', sum, hat, hsum, -⟩ := advance_eq_ok.1 hadvance
    obtain ⟨hbase, hbounds, htier, -, hinterval, -⟩ := evaluateAdaptiveInterval_eq_ok.1 heval
    let c : PolicyCall := ⟨row, changed, signals, d.bounds, d.tier, at'⟩
    have hfits : Fits at' c.decision.intervalSeconds := by
      rw [show c.decision.intervalSeconds = d.intervalSeconds from hinterval.symm]
      exact ⟨hsafe, (plusSeconds_eq_ok.1 hsum).1⟩
    exact Or.inr ⟨c, hrow, hchanged, henabled, hsignals, hbase, hbounds, htier, hat,
      hfits.mono (c.decision_bounds (resolveBounds_positive hbounds)).1⟩
  · obtain ⟨t', hflat, heq⟩ := Except.map_eq_ok.1 h
    cases heq
    obtain ⟨row', at', hrow', rfl⟩ := recordFlatPollSuccess_cases hflat
    exact Or.inl ⟨row', at', hrow.symm.trans hrow', rfl, rfl⟩

end Calls

structure PollSchedule where
  nextPollAt : Option ℤ
  unchangedStreak : Option ConfigJson
  lastComputedInterval : Option ConfigJson
  lastTier : Option ConfigJson

def MonitorTargetRow.schedule (row : MonitorTargetRow) : PollSchedule :=
  ⟨row.nextPollAt, row.config.adaptiveFields.lookup "unchangedStreak",
    row.config.adaptiveFields.lookup "lastComputedInterval",
    row.config.adaptiveFields.lookup "lastTier"⟩

def MonitorTables.schedule (t : MonitorTables) (id : MonitorTargetId) : Option PollSchedule :=
  (t.findTarget id).map (·.schedule)

def Allowed (bounds : AdaptiveBounds) (previous : Option ℕ) (seconds : ℕ) : Prop :=
  bounds.minSeconds ≤ seconds ∧ seconds ≤ max bounds.minSeconds bounds.maxSeconds
    ∧ ∀ p, previous = some p → leastStep bounds p ≤ seconds ∧ seconds ≤ greatestStep bounds p

def RecordsOnce (t : MonitorTables) (id : MonitorTargetId) (options : RecordPollSuccessOptions)
    : Prop :=
  ∀ n, ((fun t => t.afterPoll id options)^[n + 1] t).schedule id =
      (t.afterPoll id options).schedule id
    ∧ ∀ row r t', t.findTarget id = some row →
      ((fun t => t.afterPoll id options)^[n] t).recordPollSuccess id options = .ok (r, t') →
      ∀ d ∈ r.adaptive.map (·.1), ∃ bounds, resolveBounds options.bounds = .ok bounds
        ∧ Allowed bounds (readAdaptiveState row.config).lastComputedInterval d.intervalSeconds

def PollSettles (t : MonitorTables) (id : MonitorTargetId) (options : RecordPollSuccessOptions) :
    Prop :=
  ∀ c : PolicyCall, c.Of t id options → c.streak ≤ ConfigJson.maxSafeInteger
    ∧ ∀ p, c.state.lastComputedInterval = some p →
      leastStep c.bounds p ≤ c.target ∧ c.target ≤ greatestStep c.bounds p

section Replay

variable {c : PolicyCall} {t t' : MonitorTables} {id : MonitorTargetId}
  {options : RecordPollSuccessOptions} {r : PollSuccessResult} {row row' : MonitorTargetRow}

theorem findTarget_writeTarget (hrow : t.findTarget id = some row) (hid : row'.id = row.id) :
    (t.writeTarget row').findTarget id = some row' := by
  have hkey : row'.id = id := hid.trans (KeyedTable.get_key hrow)
  simp only [MonitorTables.findTarget, MonitorTables.writeTarget, hkey] at hrow ⊢
  rw [KeyedTable.get_set fun _ _ => hkey, if_pos rfl, hrow]
  rfl

theorem writeTarget_writeTarget :
    (t.writeTarget row).writeTarget row = t.writeTarget row := by
  simp only [MonitorTables.writeTarget]
  rw [KeyedTable.set_set rfl]

theorem PolicyCall.Of.afterPoll_eq (h : c.Of t id options) :
    t.afterPoll id options = t.writeTarget c.left := by
  rw [MonitorTables.afterPoll, h.recordPollSuccess_eq]

theorem PolicyCall.Of.findTarget_left (h : c.Of t id options) :
    (t.writeTarget c.left).findTarget id = some c.left :=
  findTarget_writeTarget h.found rfl

section

variable (h : ∀ c : PolicyCall, ¬ c.Of t id options)
include h

theorem schedule_of_no_call :
    (t.afterPoll id options).schedule id = t.schedule id
      ∧ ∀ c : PolicyCall, ¬ c.Of (t.afterPoll id options) id options := by
  rcases hcall : t.recordPollSuccess id options with e | ⟨r, t'⟩
  · rw [MonitorTables.afterPoll, hcall]
    exact ⟨rfl, h⟩
  · rw [MonitorTables.afterPoll, hcall]
    obtain ⟨row, at', hrow, -, rfl⟩ := (recordPollSuccess_cases hcall).resolve_right
      fun ⟨c, hc⟩ => h c hc
    have hleft : (t.writeTarget (row.succeeded at')).findTarget id = some (row.succeeded at') :=
      findTarget_writeTarget hrow rfl
    constructor
    · simp only [MonitorTables.schedule, hleft, hrow]
      rfl
    · rintro ⟨row', changed, signals, bounds, tier, at''⟩ hc
      obtain rfl : row.succeeded at' = row' := Option.some.inj (hleft.symm.trans hc.found)
      exact h ⟨row, changed, signals, bounds, tier, at''⟩ ⟨hrow, hc.changed_eq, hc.enabled,
        hc.signals, hc.base_pos, hc.bounds_eq, hc.tier_eq, hc.at_eq, hc.fits⟩

theorem iterate_of_no_call (n : ℕ) :
    ((fun t => t.afterPoll id options)^[n] t).schedule id = t.schedule id
      ∧ ∀ c : PolicyCall, ¬ c.Of ((fun t => t.afterPoll id options)^[n] t) id options := by
  induction n with
  | zero => exact ⟨rfl, h⟩
  | succ n ih =>
    rw [Function.iterate_succ_apply']
    have hnext := schedule_of_no_call ih.2
    exact ⟨hnext.1.trans ih.1, hnext.2⟩

theorem adaptive_of_no_call (hcall : t.recordPollSuccess id options = .ok (r, t'))
    : r.adaptive = none := by
  obtain ⟨_, _, -, hr, -⟩ := (recordPollSuccess_cases hcall).resolve_right fun ⟨c, hc⟩ => h c hc
  exact hr

end

theorem PolicyCall.Of.isInterval (h : c.Of t id options) :
    IsInterval c.decision.intervalSeconds := by
  have hb := resolveBounds_positive h.bounds_eq
  exact ⟨hb.1.trans (minSeconds_le_boundedSeconds hb _), h.decision_fits.1⟩

theorem PolicyCall.Of.moves (h : c.Of t id options) : Damping.Moves (leastStep c.bounds)
    (greatestStep c.bounds) c.target c.decision.intervalSeconds :=
  moves_bounded (resolveBounds_positive h.bounds_eq) _ _

theorem PolicyCall.Of.again (h : c.Of t id options) {tier : AdaptiveTier}
    (henabled : (readAdaptiveState c.left.config).enabled = true)
    (hprevious : (readAdaptiveState c.left.config).lastComputedInterval = none
      ∨ (readAdaptiveState c.left.config).lastComputedInterval = some c.decision.intervalSeconds)
    (htier : (c.left.adaptiveInput c.options c.changed).chosenTier = .ok tier) :
    PolicyCall.Of { c with row := c.left, tier := tier } (t.writeTarget c.left) id options := by
  have hb := resolveBounds_positive h.bounds_eq
  refine ⟨h.findTarget_left, h.changed_eq, henabled, h.signals, h.base_pos, h.bounds_eq, htier,
    h.at_eq, h.decision_fits.mono ?_⟩
  show leastStep c.bounds ((readAdaptiveState c.left.config).lastComputedInterval.getD 0) ≤ _
  rcases hprevious with hnone | hsome
  · rw [hnone, Option.getD_none, leastStep_zero hb]
    exact minSeconds_le_boundedSeconds hb _
  · rw [hsome]
    exact h.moves.lower_le

theorem PolicyCall.left_eq {c' : PolicyCall} (hrow : c'.row = c.left)
    (hoptions : c'.options = c.options) (hat : c'.at' = c.at') (hstreak : c'.streak = c.streak)
    (htier : c'.tier = c.tier)
    (hinterval : c'.decision.intervalSeconds = c.decision.intervalSeconds) : c'.left = c.left := by
  have hpatch : adaptiveStatePatch c'.streak c'.decision c'.options.at' =
      adaptiveStatePatch c.streak c.decision c.options.at' := by
    have htier' : c'.decision.tier = c.decision.tier := htier
    simp only [adaptiveStatePatch, hstreak, hinterval, htier', hoptions]
  rw [left, hpatch, hinterval, hat, hrow]
  simp only [left, MonitorTargetRow.succeeded, ConfigJson.mergeAdaptive_mergeAdaptive]

theorem PolicyCall.Of.second (h : c.Of t id options) (hleft : readAdaptiveState c.left.config =
      writtenState true c.streak c.decision c.options.at') :
    PolicyCall.Of { c with row := c.left } (t.writeTarget c.left) id options
      ∧ PolicyCall.streak { c with row := c.left } = c.streak
      ∧ PolicyCall.target { c with row := c.left } = c.target
      ∧ (PolicyCall.decision { c with row := c.left }).intervalSeconds =
        Damping.damp (leastStep c.bounds) (greatestStep c.bounds) c.target
          c.decision.intervalSeconds := by
  have hstreak : nextUnchangedStreak (readAdaptiveState c.left.config) c.changed c.options.at' =
      c.streak := by
    rw [hleft]
    exact if_pos rfl
  have hlast : (readAdaptiveState c.left.config).lastComputedInterval =
      some c.decision.intervalSeconds := by
    rw [hleft]
    rfl
  have htier : (c.left.adaptiveInput c.options c.changed).chosenTier = .ok c.tier := by
    have hinput : c.left.adaptiveInput c.options c.changed =
        { c.input with previousIntervalSeconds := some c.decision.intervalSeconds } := by
      rw [MonitorTargetRow.adaptiveInput, hstreak, hlast]
      rfl
    rw [hinput]
    exact h.tier_eq
  refine ⟨h.again (by rw [hleft]; rfl) (Or.inr hlast) htier, hstreak, rfl, ?_⟩
  exact PolicyCall.decision_of_previous hlast

theorem PolicyCall.Of.settled (h : c.Of t id options)
    (hstreak : c.streak ≤ ConfigJson.maxSafeInteger)
    (hstep : ∀ p, c.state.lastComputedInterval = some p →
      leastStep c.bounds p ≤ c.target ∧ c.target ≤ greatestStep c.bounds p) :
    (∀ c' : PolicyCall, ¬ c'.Of (t.writeTarget c.left) id options)
      ∨ ∃ c' : PolicyCall, c'.Of (t.writeTarget c.left) id options ∧ c'.left = c.left
        ∧ c'.decision.intervalSeconds = c.decision.intervalSeconds := by
  have hmerge : readAdaptiveState c.left.config = writtenState true c.streak c.decision
      c.options.at' ∨ c.state = .fallback ∧ (readAdaptiveState c.left.config = .fallback
        ∨ (readAdaptiveState c.left.config).enabled = false) :=
    readAdaptiveState_merge h.isInterval h.enabled hstreak
  rcases hmerge with hleft | ⟨hbefore, hleft | hleft⟩
  · right
    obtain ⟨hagain, hsame, -, hinterval⟩ := h.second hleft
    have heq : (PolicyCall.decision { c with row := c.left }).intervalSeconds =
        c.decision.intervalSeconds := by
      rw [hinterval, h.moves.damp_eq_self_iff]
      rcases hprevious : c.state.lastComputedInterval with _ | p
      · exact c.decision_of_none hprevious
      · rw [c.decision_of_previous hprevious,
          Damping.damp_eq_target_iff (leastStep_le_greatestStep p)]
        exact hstep p hprevious
    exact ⟨_, hagain, PolicyCall.left_eq rfl rfl rfl hsame rfl heq, heq⟩
  · right
    have hstate : readAdaptiveState c.left.config = readAdaptiveState c.row.config :=
      hleft.trans hbefore.symm
    have hinput : c.left.adaptiveInput c.options c.changed = c.input := by
      simp only [PolicyCall.input, MonitorTargetRow.adaptiveInput, hstate]
      rfl
    have hagain := h.again (by rw [hstate]; exact h.enabled)
      (Or.inl (congrArg AdaptiveState.lastComputedInterval hleft)) (by rw [hinput]; exact h.tier_eq)
    have hsame : PolicyCall.streak { c with row := c.left } = c.streak :=
      congrArg AdaptiveIntervalInput.unchangedStreak hinput
    have heq : (PolicyCall.decision { c with row := c.left }).intervalSeconds =
        c.decision.intervalSeconds := by
      rw [PolicyCall.decision_of_none, PolicyCall.decision_of_none]
      · rfl
      · exact congrArg AdaptiveState.lastComputedInterval hbefore
      · exact congrArg AdaptiveState.lastComputedInterval hleft
    exact ⟨_, hagain, PolicyCall.left_eq rfl rfl rfl hsame rfl heq, heq⟩
  · left
    intro c' h'
    have hrow : c.left = c'.row := Option.some.inj (h.findTarget_left.symm.trans h'.found)
    have henabled : (readAdaptiveState c.left.config).enabled = true := hrow ▸ h'.enabled
    rw [show (readAdaptiveState c.left.config).enabled = false from hleft] at henabled
    cases henabled

theorem PolicyCall.Of.second_overflow (h : c.Of t id options)
    (hstreak : ConfigJson.maxSafeInteger < c.streak) :
    ∃ c' : PolicyCall, c'.Of (t.writeTarget c.left) id options ∧ c'.streak ≠ c.streak := by
  have hleft : readAdaptiveState c.left.config = .fallback :=
    readAdaptiveState_merge_overflow h.isInterval hstreak
  obtain ⟨tier, htier⟩ : ∃ tier, (c.left.adaptiveInput c.options c.changed).chosenTier =
      .ok tier := by
    have hinput := h.tier_eq
    simp only [AdaptiveIntervalInput.chosenTier, Except.bind_eq_ok, Except.pure_eq_ok] at hinput ⊢
    obtain ⟨events, hevents, changes, hchanges, -⟩ := hinput
    exact ⟨_, events, hevents, changes, hchanges, rfl⟩
  refine ⟨_, h.again (by rw [hleft]; rfl)
    (Or.inl (congrArg AdaptiveState.lastComputedInterval hleft)) htier, ?_⟩
  have hsecond : nextUnchangedStreak (readAdaptiveState c.left.config) c.changed c.options.at' ≤
      1 := by
    rw [hleft, nextUnchangedStreak]
    split_ifs <;> simp [AdaptiveState.fallback]
  have hlarge : 1 < ConfigJson.maxSafeInteger := by norm_num [ConfigJson.maxSafeInteger]
  exact (hsecond.trans_lt (hlarge.trans hstreak)).ne

theorem PolicyCall.Of.schedule_eq (h : c.Of t id options) :
    (t.writeTarget c.left).schedule id = some ⟨some (c.at' + c.decision.intervalSeconds * 1000000),
      some (.number c.streak), some (.number c.decision.intervalSeconds),
      some (.string c.tier.text)⟩ := by
  rw [MonitorTables.schedule, h.findTarget_left]
  simp only [MonitorTargetRow.schedule, PolicyCall.left, Option.map_some,
    ConfigJson.adaptiveFields_mergeAdaptive, ConfigJson.lookup_mergeFields]
  rfl

theorem pollSettles_of_recordsOnce (h : RecordsOnce t id options) : PollSettles t id options := by
  intro c hc
  have htwice : ((t.writeTarget c.left).afterPoll id options).schedule id =
      (t.writeTarget c.left).schedule id := by
    have hone := (h 1).1
    rwa [Function.iterate_succ_apply, Function.iterate_one, hc.afterPoll_eq] at hone
  have hschedule : ∀ c' : PolicyCall, c'.Of (t.writeTarget c.left) id options →
      c'.streak = c.streak ∧ c'.decision.intervalSeconds = c.decision.intervalSeconds := by
    intro c' h'
    rw [h'.afterPoll_eq, h'.schedule_eq, hc.schedule_eq] at htwice
    simp only [Option.some.injEq, PollSchedule.mk.injEq, ConfigJson.number.injEq,
      Nat.cast_inj] at htwice
    exact ⟨htwice.2.1, htwice.2.2.1⟩
  have hstreak : c.streak ≤ ConfigJson.maxSafeInteger := by
    by_contra hlarge
    obtain ⟨c', h', hne⟩ := hc.second_overflow (not_le.1 hlarge)
    exact hne (hschedule c' h').1
  refine ⟨hstreak, fun p hp => ?_⟩
  have hleft : readAdaptiveState c.left.config =
      writtenState true c.streak c.decision c.options.at' := by
    refine (readAdaptiveState_merge hc.isInterval hc.enabled hstreak).resolve_right ?_
    rintro ⟨hbefore, -⟩
    rw [PolicyCall.state, hbefore] at hp
    cases hp
  obtain ⟨hagain, -, -, hinterval⟩ := hc.second hleft
  have hmoves := hc.moves
  rw [(hschedule _ hagain).2] at hinterval
  rw [c.decision_of_previous hp] at hinterval hmoves
  exact (Damping.damp_damp_eq_iff (leastStep_le_greatestStep p) hmoves).1 hinterval.symm

theorem PolicyCall.Of.resolveBounds_eq (h : c.Of t id options) :
    resolveBounds options.bounds = .ok c.bounds := by
  have hbounds : c.options.bounds = options.bounds := by
    have hsignals := h.signals
    unfold MonitorTables.withSignals at hsignals
    split_ifs at hsignals
    · obtain ⟨signals, -, heq⟩ := Except.bind_eq_ok.1 hsignals
      rw [← Except.pure_eq_ok.1 heq]
    · rw [Except.ok.inj hsignals]
  rw [← hbounds]
  exact h.bounds_eq

theorem PolicyCall.Of.allowed (h : c.Of t id options) :
    Allowed c.bounds c.state.lastComputedInterval c.decision.intervalSeconds := by
  have hb := resolveBounds_positive h.bounds_eq
  have heq : c.decision.intervalSeconds = max c.bounds.minSeconds
    (min c.bounds.maxSeconds (wholeSeconds c.damped.1)) := boundedSeconds_eq hb _
  refine ⟨by omega, by omega, fun p hp => ?_⟩
  rw [c.decision_of_previous hp]
  exact ⟨le_max_left _ _, max_le (leastStep_le_greatestStep p) (min_le_left _ _)⟩

theorem PolicyCall.Of.decision_of_call (h : c.Of t id options)
    (hcall : t.recordPollSuccess id options = .ok (r, t')) :
    r.adaptive.map (·.1) = some c.decision := by
  rw [h.recordPollSuccess_eq] at hcall
  cases hcall
  rfl

theorem PolicyCall.Of.later (h : c.Of t id options) (hsettles : PollSettles t id options) (n : ℕ) :
    ((fun t => t.afterPoll id options)^[n] (t.writeTarget c.left)).schedule id =
        (t.writeTarget c.left).schedule id
      ∧ ∀ r t', ((fun t => t.afterPoll id options)^[n] (t.writeTarget c.left)).recordPollSuccess
          id options = .ok (r, t') → ∀ d ∈ r.adaptive.map (·.1),
          d.intervalSeconds = c.decision.intervalSeconds := by
  obtain ⟨hstreak, hstep⟩ := hsettles c h
  rcases h.settled hstreak hstep with hnone | ⟨c', h', hleft, hinterval⟩
  · have hn := iterate_of_no_call hnone n
    refine ⟨hn.1, fun r t' hcall d hd => ?_⟩
    rw [adaptive_of_no_call hn.2 hcall] at hd
    cases hd
  · have hfix : (t.writeTarget c.left).afterPoll id options = t.writeTarget c.left := by
      rw [h'.afterPoll_eq, hleft, writeTarget_writeTarget]
    rw [Function.iterate_fixed hfix n]
    refine ⟨rfl, fun r t' hcall d hd => ?_⟩
    rw [h'.decision_of_call hcall] at hd
    obtain rfl := Option.some.inj hd
    exact hinterval

theorem recordsOnce_of_pollSettles (h : PollSettles t id options) : RecordsOnce t id options := by
  intro n
  by_cases hc : ∃ c : PolicyCall, c.Of t id options
  · obtain ⟨c, hc⟩ := hc
    rw [Function.iterate_succ_apply, hc.afterPoll_eq]
    refine ⟨(hc.later h n).1, fun row r t' hrow hcall d hd => ?_⟩
    obtain rfl : c.row = row := Option.some.inj (hc.found.symm.trans hrow)
    have hinterval : d.intervalSeconds = c.decision.intervalSeconds := by
      rcases n with _ | n
      · rw [hc.decision_of_call hcall] at hd
        obtain rfl := Option.some.inj hd
        rfl
      · rw [Function.iterate_succ_apply, hc.afterPoll_eq] at hcall
        exact (hc.later h n).2 r t' hcall d hd
    refine ⟨c.bounds, hc.resolveBounds_eq, ?_⟩
    rw [hinterval]
    exact hc.allowed
  · simp only [not_exists] at hc
    have hn := iterate_of_no_call hc
    refine ⟨(hn (n + 1)).1.trans (hn 1).1.symm, fun row r t' _ hcall d hd => ?_⟩
    rw [adaptive_of_no_call (hn n).2 hcall] at hd
    cases hd

/-- Repeating a call that records a poll leaves what one call does exactly where it settles. -/
theorem recordsOnce_iff : RecordsOnce t id options ↔ PollSettles t id options :=
  ⟨pollSettles_of_recordsOnce, recordsOnce_of_pollSettles⟩

end Replay

namespace ReplayedPoll

def row : MonitorTargetRow where
  id := 1
  intervalSeconds := 900
  interval_int4 := by norm_num
  config := .object [("adaptive", .object [("unchangedStreak", .number 23),
    ("lastComputedInterval", .number 900)])]
  nextPollAt := none
  lastPollAt := none
  lastSuccessAt := none
  consecutiveErrors := 0
  backoffUntil := none

def tables : MonitorTables where
  items := []
  monitorItems := []
  targets := [row]
  events := []
  observations := []

def options : RecordPollSuccessOptions where
  at' := ⟨⟨⟨2026, 3, 1⟩, 0⟩, ⟨by decide, by decide⟩, by decide, by decide⟩
  changed := some false

end ReplayedPoll

theorem damped_poll_moves_on :
    ¬ RecordsOnce ReplayedPoll.tables 1 ReplayedPoll.options := by
  intro h
  have hnext := congrArg (·.bind (·.nextPollAt)) (h 1).1
  have honce : ((ReplayedPoll.tables.afterPoll 1 ReplayedPoll.options).schedule 1).bind
      (·.nextPollAt) = some 1772326800000000 := by decide +kernel
  have htwice : (((fun t => t.afterPoll 1 ReplayedPoll.options)^[1 + 1]
      ReplayedPoll.tables).schedule 1).bind (·.nextPollAt) = some 1772330400000000 := by
    decide +kernel
  rw [honce, htwice] at hnext
  revert hnext
  decide

end Loxep

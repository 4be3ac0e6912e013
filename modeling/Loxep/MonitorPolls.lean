import Loxep.Books
import Loxep.MarketItems
import Mathlib.Algebra.Order.Field.Rat
import Mathlib.Algebra.Order.Floor.Ring
import Mathlib.Data.Rat.Floor

/-!
# Monitor polls

The adaptive policy, and what recording a poll does with it.
-/

/-!
## Adaptive polling cadence

Activity signals choose a multiple of the operator's base interval. The result may not move by more
than a factor of four from the interval before it, is clamped into the bounds, whose floor wins, and
is rounded to whole seconds. The state between polls is kept in the configuration of the target.
-/

namespace Loxep

inductive JsNumber
  | finite (value : ℚ)
  | nonFinite

inductive AdaptiveTier
  | auctionEndgame
  | auctionNearEnd
  | auctionApproachingEnd
  | activityHot
  | activityWarm
  | steady
  | idleRelaxed
  | idleLong
  | idleVeryLong
  deriving DecidableEq

namespace AdaptiveTier

def text : AdaptiveTier → String
  | .auctionEndgame => "auction_endgame"
  | .auctionNearEnd => "auction_near_end"
  | .auctionApproachingEnd => "auction_approaching_end"
  | .activityHot => "activity_hot"
  | .activityWarm => "activity_warm"
  | .steady => "steady"
  | .idleRelaxed => "idle_relaxed"
  | .idleLong => "idle_long"
  | .idleVeryLong => "idle_very_long"

def all : List AdaptiveTier :=
  [.auctionEndgame, .auctionNearEnd, .auctionApproachingEnd, .activityHot, .activityWarm, .steady,
    .idleRelaxed, .idleLong, .idleVeryLong]

/-- `ADAPTIVE_TIER_FACTORS`. -/
def factor : AdaptiveTier → ℚ
  | .auctionEndgame => 1 / 8
  | .auctionNearEnd => 1 / 4
  | .auctionApproachingEnd => 1 / 2
  | .activityHot => 1 / 4
  | .activityWarm => 1 / 2
  | .steady => 1
  | .idleRelaxed => 2
  | .idleLong => 4
  | .idleVeryLong => 8

def ofText (value : String) : Option AdaptiveTier := all.find? (·.text == value)

variable (tier : AdaptiveTier)

theorem ofText_text : ofText tier.text = some tier := by
  cases tier <;> decide

theorem factor_pos : 0 < tier.factor := by
  cases tier <;> norm_num [factor]

theorem factor_le : tier.factor ≤ 8 := by
  cases tier <;> norm_num [factor]

end AdaptiveTier

def AUCTION_ENDGAME_SECONDS : ℚ := 300
def AUCTION_NEAR_END_SECONDS : ℚ := 1800
def AUCTION_APPROACHING_END_SECONDS : ℚ := 21600
def ACTIVITY_HOT_COUNT : ℕ := 8
def ACTIVITY_WARM_COUNT : ℕ := 3
def IDLE_STREAK_RELAXED : ℕ := 6
def IDLE_STREAK_LONG : ℕ := 12
def IDLE_STREAK_VERY_LONG : ℕ := 24
def MAX_STEP_FACTOR : ℚ := 4
def DEFAULT_ADAPTIVE_MIN_SECONDS : ℚ := 30
def DEFAULT_ADAPTIVE_MAX_SECONDS : ℚ := 86400

/-- `Partial<AdaptiveBounds>`, as a caller passes it. -/
structure AdaptiveBoundsInput where
  minSeconds : Option JsNumber := none
  maxSeconds : Option JsNumber := none

structure AdaptiveBounds where
  minSeconds : ℕ
  maxSeconds : ℕ

structure AdaptiveIntervalInput where
  baseIntervalSeconds : ℤ
  recentEventCount : JsNumber
  recentChangeCount : JsNumber
  unchangedStreak : ℕ
  secondsUntilListingEnd : Option JsNumber
  previousIntervalSeconds : Option ℕ
  bounds : AdaptiveBoundsInput

inductive ClampedBy
  | min
  | max
  | step
  deriving DecidableEq

structure AdaptiveDecision where
  intervalSeconds : ℕ
  tier : AdaptiveTier
  factor : ℚ
  clampedBy : Option ClampedBy
  bounds : AdaptiveBounds

def nonNegativeCount (label : String) : JsNumber → MarketResult ℕ
  | .nonFinite => .error (.validation s!"{label} must be a finite number")
  | .finite value => .ok ⌊value⌋.toNat

def resolveBound (label : String) (default : ℚ) (round : ℚ → ℤ) (bound : Option JsNumber) :
    MarketResult ℕ :=
  match bound.getD (.finite default) with
  | .nonFinite => .error (.validation s!"bounds.{label} must be a finite number of seconds >= 1")
  | .finite value =>
    if value < 1 then
      .error (.validation s!"bounds.{label} must be a finite number of seconds >= 1")
    else .ok (round value).toNat

def resolveBounds (bounds : AdaptiveBoundsInput) : MarketResult AdaptiveBounds := do
  let minSeconds ← resolveBound "minSeconds" DEFAULT_ADAPTIVE_MIN_SECONDS Int.ceil bounds.minSeconds
  let maxSeconds ←
    resolveBound "maxSeconds" DEFAULT_ADAPTIVE_MAX_SECONDS Int.floor bounds.maxSeconds
  return ⟨minSeconds, maxSeconds⟩

def selectAdaptiveTier (activity unchangedStreak : ℕ) (secondsUntilListingEnd : Option ℚ) :
    AdaptiveTier :=
  let auctionTier : Option AdaptiveTier := secondsUntilListingEnd.bind fun seconds =>
    if seconds < AUCTION_ENDGAME_SECONDS then some .auctionEndgame
    else if seconds < AUCTION_NEAR_END_SECONDS then some .auctionNearEnd
    else if seconds < AUCTION_APPROACHING_END_SECONDS then some .auctionApproachingEnd
    else none
  let activityTier : Option AdaptiveTier :=
    if ACTIVITY_HOT_COUNT ≤ activity then some .activityHot
    else if ACTIVITY_WARM_COUNT ≤ activity then some .activityWarm
    else none
  match auctionTier, activityTier with
  | some auctionTier, some activityTier =>
    if auctionTier.factor ≤ activityTier.factor then auctionTier else activityTier
  | some auctionTier, none => auctionTier
  | none, some activityTier => activityTier
  | none, none =>
    if activity = 0 ∧ IDLE_STREAK_VERY_LONG ≤ unchangedStreak then .idleVeryLong
    else if activity = 0 ∧ IDLE_STREAK_LONG ≤ unchangedStreak then .idleLong
    else if activity = 0 ∧ IDLE_STREAK_RELAXED ≤ unchangedStreak then .idleRelaxed
    else .steady

def auctionSignal : Option JsNumber → Option ℚ
  | some (.finite value) => if value < 0 then none else some value
  | _ => none

def dampStep (previous : Option ℕ) (seconds : ℚ) : ℚ × Option ClampedBy :=
  match previous with
  | none => (seconds, none)
  | some previous =>
    if 0 < previous then
      let floor := previous / MAX_STEP_FACTOR
      let ceiling := previous * MAX_STEP_FACTOR
      if seconds < floor then (floor, some .step)
      else if ceiling < seconds then (ceiling, some .step)
      else (seconds, none)
    else (seconds, none)

/-- The ceiling first, then the floor, which outranks every other rule. -/
def clampBounds (bounds : AdaptiveBounds) (clamped : ℚ × Option ClampedBy) :
    ℚ × Option ClampedBy :=
  let (seconds, clampedBy) :=
    if (bounds.maxSeconds : ℚ) < clamped.1 then ((bounds.maxSeconds : ℚ), some .max) else clamped
  if seconds < bounds.minSeconds then ((bounds.minSeconds : ℚ), some .min) else (seconds, clampedBy)

/-- `Math.max(1, Math.round(seconds))`. -/
def wholeSeconds (seconds : ℚ) : ℕ := max 1 ⌊seconds + 1 / 2⌋.toNat

def evaluateAdaptiveInterval (input : AdaptiveIntervalInput) : MarketResult AdaptiveDecision := do
  let base := input.baseIntervalSeconds
  Except.require (0 < base) (MarketError.validation
    "baseIntervalSeconds must be a positive finite number of seconds")
  let bounds ← resolveBounds input.bounds
  let recentEventCount ← nonNegativeCount "recentEventCount" input.recentEventCount
  let recentChangeCount ← nonNegativeCount "recentChangeCount" input.recentChangeCount
  let tier := selectAdaptiveTier (recentEventCount + recentChangeCount) input.unchangedStreak
    (auctionSignal input.secondsUntilListingEnd)
  let damped := dampStep input.previousIntervalSeconds (base * tier.factor)
  let (seconds, clampedBy) := clampBounds bounds damped
  return ⟨wholeSeconds seconds, tier, tier.factor, clampedBy, bounds⟩

example : (evaluateAdaptiveInterval ⟨900, .finite 0, .finite 0, 24, none, some 900, {}⟩).map
    (fun d => (d.intervalSeconds, d.clampedBy)) = .ok (3600, some .step) := by
  decide +kernel

/-!
## Recording a poll

A successful poll is stamped on its target. Where the caller says whether anything has changed, the
next poll is set by the adaptive policy as well, and the streak, the interval and the tier are
merged into the configuration, to be read at the next poll.
-/

/-- A `jsonb` value, with the numbers as JavaScript reads them. -/
inductive ConfigJson
  | null
  | bool (value : Bool)
  | number (value : ℚ)
  | string (value : String)
  | array (entries : List ConfigJson)
  | object (fields : List (String × ConfigJson))

namespace ConfigJson

/-- `config -> key`. -/
def field (config : ConfigJson) (key : String) : Option ConfigJson :=
  match config with
  | .object fields => fields.lookup key
  | _ => none

/-- `fields || patch`. -/
def mergeFields (fields patch : List (String × ConfigJson)) : List (String × ConfigJson) :=
  fields.filter (fun f => !(patch.map (·.1)).contains f.1) ++ patch

def asBool : ConfigJson → Option Bool
  | .bool value => some value
  | _ => none

def asString : ConfigJson → Option String
  | .string value => some value
  | _ => none

def maxSafeInteger : ℕ := 2 ^ 53 - 1

/-- `z.number().int().nonnegative()`; an integer is a safe one. -/
def asNonnegativeInt : ConfigJson → Option ℕ
  | .number value =>
    if value.den = 1 ∧ 0 ≤ value.num ∧ value.num ≤ maxSafeInteger then some value.num.toNat
    else none
  | _ => none

/-- `z.number().int().positive()`. -/
def asPositiveInt (json : ConfigJson) : Option ℕ := json.asNonnegativeInt.filter (0 < ·)

def asTier (json : ConfigJson) : Option AdaptiveTier := json.asString.bind AdaptiveTier.ofText

end ConfigJson

/-- `z.infer<typeof adaptiveConfigSchema>`. -/
structure AdaptiveConfig where
  enabled : Option Bool
  unchangedStreak : Option ℕ
  lastComputedInterval : Option ℕ
  lastTier : Option AdaptiveTier
  updatedAt : Option String

def optionalField {α : Type} (fields : List (String × ConfigJson)) (key : String)
    (read : ConfigJson → Option α) : Option (Option α) :=
  match fields.lookup key with
  | none => some none
  | some json => (read json).map some

def ADAPTIVE_CONFIG_KEYS : List String :=
  ["enabled", "unchangedStreak", "lastComputedInterval", "lastTier", "updatedAt"]

/-- `adaptiveConfigSchema.safeParse`: a strict object. -/
def parseAdaptiveConfig (fields : List (String × ConfigJson)) : Option AdaptiveConfig := do
  guard (∀ f ∈ fields, f.1 ∈ ADAPTIVE_CONFIG_KEYS)
  let enabled ← optionalField fields "enabled" ConfigJson.asBool
  let unchangedStreak ← optionalField fields "unchangedStreak" ConfigJson.asNonnegativeInt
  let lastComputedInterval ← optionalField fields "lastComputedInterval" ConfigJson.asPositiveInt
  let lastTier ← optionalField fields "lastTier" ConfigJson.asTier
  let updatedAt ← optionalField fields "updatedAt" ConfigJson.asString
  return ⟨enabled, unchangedStreak, lastComputedInterval, lastTier, updatedAt⟩

structure AdaptiveState where
  enabled : Bool
  unchangedStreak : ℕ
  lastComputedInterval : Option ℕ
  lastTier : Option AdaptiveTier
  updatedAt : Option String

def AdaptiveState.fallback : AdaptiveState := ⟨true, 0, none, none, none⟩

def AdaptiveConfig.state (value : AdaptiveConfig) : AdaptiveState where
  enabled := value.enabled.getD true
  unchangedStreak := value.unchangedStreak.getD 0
  lastComputedInterval := value.lastComputedInterval
  lastTier := value.lastTier
  updatedAt := value.updatedAt

def readAdaptiveState (config : ConfigJson) : AdaptiveState :=
  match config.field "adaptive" with
  | some (.object fields) => ((parseAdaptiveConfig fields).map (·.state)).getD .fallback
  | _ => .fallback

namespace CalendarDate

def epochDay (d : CalendarDate) : ℤ :=
  let year : ℤ := if d.month ≤ 2 then d.year - 1 else d.year
  let month : ℤ := if d.month ≤ 2 then d.month + 9 else d.month - 3
  365 * year + year / 4 - year / 100 + year / 400 + (153 * month + 2) / 5 + d.day - 719469

end CalendarDate

/-- Microseconds from the epoch, the precision of a `timestamptz`. -/
def Timestamp.epochMicros (t : Timestamp) : ℤ := t.utcDate.epochDay * 86400000000 + t.micros

/-- A JavaScript `Date` that holds an instant. -/
structure JsDate extends Timestamp where
  valid : utcDate.Valid
  day_check : micros < 86400000000
  millis_check : micros % 1000 = 0

inductive PollError
  | market (e : MarketError)
  | database (message : String)

abbrev PollResult (α : Type) := Except PollError α

/-- The text of a year of more than four digits has a sign, which PostgreSQL does not read, and it
knows no year zero. -/
def timestamptzLiteral (date : JsDate) : PollResult ℤ :=
  if 1 ≤ date.utcDate.year ∧ date.utcDate.year ≤ 9999 then .ok date.epochMicros
  else .error (.database "invalid input syntax for type timestamp with time zone")

/-- The last microsecond of the year 294276. -/
def maxTimestamptz : ℤ := 9224318015999999999

/-- `at + seconds * interval '1 second'`. -/
def plusSeconds (at' : ℤ) (seconds : ℕ) : PollResult ℤ :=
  if at' + seconds * 1000000 ≤ maxTimestamptz then .ok (at' + seconds * 1000000)
  else .error (.database "timestamp out of range")

/-- A row of `monitor_targets`, with what a poll writes. -/
structure MonitorTargetRow where
  id : MonitorTargetId
  intervalSeconds : ℤ
  interval_int4 : intervalSeconds ≤ 2147483647
  config : ConfigJson
  nextPollAt : Option ℤ
  lastPollAt : Option ℤ
  lastSuccessAt : Option ℤ
  consecutiveErrors : ℕ
  backoffUntil : Option ℤ

structure DetectedEventRow where
  monitorTargetId : Option MonitorTargetId
  marketplaceItemId : Option MarketplaceItemId
  detectedAt : Timestamp

structure ItemHashRow where
  marketplaceItemId : MarketplaceItemId
  observedAt : Timestamp
  rawStateHash : Option String

structure MonitorTables extends ItemTables where
  targets : List MonitorTargetRow
  events : List DetectedEventRow
  observations : List ItemHashRow

structure RecordPollSuccessOptions where
  at' : JsDate
  changed : Option Bool := none
  secondsUntilListingEnd : Option (Option JsNumber) := none
  recentEventCount : Option JsNumber := none
  recentChangeCount : Option JsNumber := none
  bounds : AdaptiveBoundsInput := {}
  deriveSignals : Bool := false
  signalWindowSeconds : Option JsNumber := none

structure AdaptiveSignals where
  recentEventCount : ℕ
  recentChangeCount : ℕ
  secondsUntilListingEnd : Option ℚ

structure PollSuccessResult where
  adaptive : Option (AdaptiveDecision × ℕ)
  nextPollAt : Option ℤ

/-- The hashes of an item in the order they were observed: how often one differs from the one
before it. -/
def changeCount (hashes : List (Option String)) : ℕ :=
  (hashes.zip hashes.tail).countP fun (previous, hash) =>
    hash.isSome && previous.isSome && hash != previous

def DEFAULT_ADAPTIVE_SIGNAL_WINDOW_SECONDS : ℚ := 3600

def signalWindow (options : RecordPollSuccessOptions) : PollResult ℕ :=
  match options.signalWindowSeconds.getD (.finite DEFAULT_ADAPTIVE_SIGNAL_WINDOW_SECONDS) with
  | .finite value =>
    if value.den = 1 ∧ 1 ≤ value.num ∧ value.num ≤ ConfigJson.maxSafeInteger then
      .ok value.num.toNat
    else .error (.market (.validation "windowSeconds must be a positive integer number of seconds"))
  | .nonFinite =>
    .error (.market (.validation "windowSeconds must be a positive integer number of seconds"))

/-- The start of the window: a `Date` reaches 8.64e15 milliseconds back, a literal to the year 1. -/
def sinceLiteral (now : ℤ) (windowSeconds : ℕ) : PollResult ℤ :=
  let since := now - windowSeconds * 1000000
  if since < -8640000000000000000 then .error (.market (.validation "expected a valid Date"))
  else if since < -62135596800000000 then
    .error (.database "invalid input syntax for type timestamp with time zone")
  else .ok since

namespace MonitorTables

variable (t : MonitorTables)

def findTarget (id : MonitorTargetId) : Option MonitorTargetRow :=
  KeyedTable.get (·.id) t.targets id

def unknownTargetError (id : MonitorTargetId) : PollError :=
  .market (.notFound s!"unknown monitor target \"{id}\"")

def linked (id : MonitorTargetId) : List MarketplaceItemId :=
  (t.monitorItems.filter fun link => link.monitorTargetId == id && link.active).map
    (·.marketplaceItemId)

def inWindow (since now : ℤ) (at' : Timestamp) : Bool :=
  decide (since < at'.epochMicros) && decide (at'.epochMicros ≤ now)

def recentEventCount (id : MonitorTargetId) (since now : ℤ) : ℕ :=
  t.events.countP fun e =>
    (e.monitorTargetId == some id || e.marketplaceItemId.any fun item => item ∈ t.linked id) &&
      inWindow since now e.detectedAt

def recentChangeCount (id : MonitorTargetId) (since now : ℤ) : ℕ :=
  ((t.linked id).map fun item =>
    changeCount (((t.observations.filter fun o =>
      o.marketplaceItemId == item && inWindow since now o.observedAt).insertionSort
        fun a b => a.observedAt ≤ b.observedAt).map (·.rawStateHash))).sum

def secondsUntilListingEnd (id : MonitorTargetId) (now : ℤ) : Option ℚ :=
  let ends := (t.items.filter fun i => i.id ∈ t.linked id && i.currentState != "ended").filterMap
    fun i => i.details.listingEndsAt.map (·.epochMicros)
  (ends.filter (now ≤ ·)).min?.map fun soonest => ((soonest - now : ℤ) : ℚ) / 1000000

def collectAdaptiveSignals (id : MonitorTargetId) (options : RecordPollSuccessOptions) :
    PollResult AdaptiveSignals := do
  let windowSeconds ← signalWindow options
  let now ← timestamptzLiteral options.at'
  let since ← sinceLiteral now windowSeconds
  return ⟨t.recentEventCount id since now, t.recentChangeCount id since now,
    t.secondsUntilListingEnd id now⟩

def withSignals (id : MonitorTargetId) (options : RecordPollSuccessOptions) :
    PollResult RecordPollSuccessOptions :=
  if options.deriveSignals = true ∧ (options.recentEventCount = none ∨
      options.recentChangeCount = none ∨ options.secondsUntilListingEnd = none) then do
    let signals ← t.collectAdaptiveSignals id options
    return { options with
      recentEventCount := options.recentEventCount.or
        (some (.finite signals.recentEventCount))
      recentChangeCount := options.recentChangeCount.or
        (some (.finite signals.recentChangeCount))
      secondsUntilListingEnd := some (options.secondsUntilListingEnd.join.or
        (signals.secondsUntilListingEnd.map .finite)) }
  else .ok options

end MonitorTables

def nextUnchangedStreak (state : AdaptiveState) (changed : Bool) (at' : JsDate) : ℕ :=
  if state.updatedAt = some at'.toIsoString then state.unchangedStreak
  else if changed then 0 else state.unchangedStreak + 1

/-- The fields that are written; the operator's toggle is none of them. -/
def adaptiveStatePatch (unchangedStreak : ℕ) (decision : AdaptiveDecision) (at' : JsDate) :
    List (String × ConfigJson) :=
  [("unchangedStreak", .number unchangedStreak),
    ("lastComputedInterval", .number decision.intervalSeconds),
    ("lastTier", .string decision.tier.text), ("updatedAt", .string at'.toIsoString)]

def mergeAdaptive (config : ConfigJson) (patch : List (String × ConfigJson)) : ConfigJson :=
  match config with
  | .object fields =>
    match fields.lookup "adaptive" with
    | some (.object adaptive) =>
      .object (ConfigJson.mergeFields fields
        [("adaptive", .object (ConfigJson.mergeFields adaptive patch))])
    | _ => .object (ConfigJson.mergeFields fields [("adaptive", .object patch)])
  | _ => .object [("adaptive", .object patch)]

/-- What both paths write. -/
def MonitorTargetRow.succeeded (at' : ℤ) (row : MonitorTargetRow) : MonitorTargetRow :=
  { row with
    lastPollAt := some at'
    lastSuccessAt := some at'
    consecutiveErrors := 0
    backoffUntil := none }

def MonitorTargetRow.adaptiveInput (row : MonitorTargetRow) (options : RecordPollSuccessOptions)
    (changed : Bool) : AdaptiveIntervalInput where
  baseIntervalSeconds := row.intervalSeconds
  recentEventCount := options.recentEventCount.getD (.finite 0)
  recentChangeCount := options.recentChangeCount.getD (.finite (if changed then 1 else 0))
  unchangedStreak := nextUnchangedStreak (readAdaptiveState row.config) changed options.at'
  secondsUntilListingEnd := options.secondsUntilListingEnd.join
  previousIntervalSeconds := (readAdaptiveState row.config).lastComputedInterval
  bounds := options.bounds

def MonitorTargetRow.advance (row : MonitorTargetRow) (options : RecordPollSuccessOptions)
    (changed : Bool) : PollResult (AdaptiveDecision × MonitorTargetRow) := do
  let input := row.adaptiveInput options changed
  let decision ← (evaluateAdaptiveInterval input).mapError .market
  Except.require (decision.intervalSeconds ≤ ConfigJson.maxSafeInteger)
    (PollError.market (.validation "expected a non-negative safe integer"))
  let at' ← timestamptzLiteral options.at'
  let nextPollAt ← plusSeconds at' decision.intervalSeconds
  return (decision, { row.succeeded at' with
    nextPollAt := some nextPollAt
    config := mergeAdaptive row.config
      (adaptiveStatePatch input.unchangedStreak decision options.at') })

namespace MonitorTables

variable (t : MonitorTables)

def writeTarget (row : MonitorTargetRow) : MonitorTables :=
  { t with targets := KeyedTable.set (·.id) t.targets row.id fun _ => row }

def recordFlatPollSuccess (id : MonitorTargetId) (at' : JsDate) : PollResult MonitorTables := do
  let at' ← timestamptzLiteral at'
  match t.findTarget id with
  | none => .error (unknownTargetError id)
  | some row => .ok (t.writeTarget (row.succeeded at'))

def recordPollSuccess (id : MonitorTargetId) (options : RecordPollSuccessOptions) :
    PollResult (PollSuccessResult × MonitorTables) :=
  match options.changed with
  | none => (t.recordFlatPollSuccess id options.at').map (⟨none, none⟩, ·)
  | some changed =>
    match t.findTarget id with
    | none => .error (unknownTargetError id)
    | some row =>
      if (readAdaptiveState row.config).enabled then do
        let options ← t.withSignals id options
        let (decision, row') ← row.advance options changed
        return (⟨some (decision, (row.adaptiveInput options changed).unchangedStreak),
          row'.nextPollAt⟩, t.writeTarget row')
      else (t.recordFlatPollSuccess id options.at').map (⟨none, none⟩, ·)

/-- A call that raises has written nothing. -/
def afterPoll (id : MonitorTargetId) (options : RecordPollSuccessOptions) : MonitorTables :=
  match t.recordPollSuccess id options with
  | .ok (_, t') => t'
  | .error _ => t

end MonitorTables

end Loxep

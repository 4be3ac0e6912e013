import Loxep.Lib.Damping
import Loxep.MonitorPolls
import Mathlib.Tactic.Linarith

/-!
# The adaptive interval

Bounds and rounding are monotone, so a damped interval is the undamped one, moved no further than
the intervals that a step up and a step down lead to.
-/

namespace Loxep

def boundedSeconds (bounds : AdaptiveBounds) (seconds : ℚ) : ℕ :=
  wholeSeconds (clampBounds bounds (seconds, none)).1

section Interval

variable {bounds : AdaptiveBounds} {input : AdaptiveIntervalInput} {d : AdaptiveDecision}

theorem clampBounds_fst (clamped : ℚ × Option ClampedBy) :
    (clampBounds bounds clamped).1 =
      max (bounds.minSeconds : ℚ) (min (bounds.maxSeconds : ℚ) clamped.1) := by
  unfold clampBounds
  split_ifs <;> grind

theorem wholeSeconds_mono : Monotone wholeSeconds := fun _ _ h =>
  max_le_max le_rfl (Int.toNat_le_toNat (Int.floor_le_floor (add_le_add_left h _)))

theorem boundedSeconds_mono : Monotone (boundedSeconds bounds) := by
  intro x y h
  unfold boundedSeconds
  rw [clampBounds_fst, clampBounds_fst]
  exact wholeSeconds_mono (max_le_max le_rfl (min_le_min le_rfl h))

variable {n previous : ℕ}

theorem wholeSeconds_natCast (h : 1 ≤ n) : wholeSeconds n = n := by
  have hfloor : ⌊(n : ℚ) + 1 / 2⌋ = n := by
    rw [Int.floor_eq_iff]
    constructor <;> push_cast <;> linarith
  rw [wholeSeconds, hfloor, Int.toNat_natCast, max_eq_right h]

theorem wholeSeconds_quarter (n : ℕ) :
    wholeSeconds (n / MAX_STEP_FACTOR) = max 1 ((n + 2) / 4) := by
  have hsum : (n : ℚ) / MAX_STEP_FACTOR + 1 / 2 = ((n + 2 : ℕ) : ℚ) / ((4 : ℕ) : ℚ) := by
    rw [MAX_STEP_FACTOR]
    push_cast
    ring
  rw [wholeSeconds, hsum, Rat.floor_natCast_div_natCast]
  rfl

theorem wholeSeconds_fourfold (h : 1 ≤ n) : wholeSeconds (n * MAX_STEP_FACTOR) = n * 4 := by
  have hprod : (n : ℚ) * MAX_STEP_FACTOR = ((n * 4 : ℕ) : ℚ) := by
    rw [MAX_STEP_FACTOR]
    push_cast
    ring
  rw [hprod, wholeSeconds_natCast (by omega)]

def AdaptiveBounds.Positive (bounds : AdaptiveBounds) : Prop :=
  1 ≤ bounds.minSeconds ∧ 1 ≤ bounds.maxSeconds

theorem boundedSeconds_eq (hb : bounds.Positive) (seconds : ℚ) : boundedSeconds bounds seconds =
    max bounds.minSeconds (min bounds.maxSeconds (wholeSeconds seconds)) := by
  rw [boundedSeconds, clampBounds_fst, wholeSeconds_mono.map_max, wholeSeconds_mono.map_min,
    wholeSeconds_natCast hb.1, wholeSeconds_natCast hb.2]

def leastStep (bounds : AdaptiveBounds) (previous : ℕ) : ℕ :=
  boundedSeconds bounds (previous / MAX_STEP_FACTOR)

def greatestStep (bounds : AdaptiveBounds) (previous : ℕ) : ℕ :=
  boundedSeconds bounds (previous * MAX_STEP_FACTOR)

theorem leastStep_le_greatestStep (previous : ℕ) :
    leastStep bounds previous ≤ greatestStep bounds previous := by
  refine boundedSeconds_mono ?_
  have h : (0 : ℚ) ≤ previous := Nat.cast_nonneg _
  rw [MAX_STEP_FACTOR]
  linarith

theorem moves_bounded (hb : bounds.Positive) (target seconds : ℚ) :
    Damping.Moves (leastStep bounds) (greatestStep bounds) (boundedSeconds bounds target)
      (boundedSeconds bounds seconds) := by
  have hn := boundedSeconds_eq hb seconds
  have ht := boundedSeconds_eq hb target
  have hwhole : 1 ≤ wholeSeconds seconds := le_max_left _ _
  generalize boundedSeconds bounds seconds = n at hn ⊢
  generalize boundedSeconds bounds target = interval at ht ⊢
  have hpos : 1 ≤ n := hb.1.trans (hn ▸ le_max_left _ _)
  have hleast : leastStep bounds n = max bounds.minSeconds (min bounds.maxSeconds
      (max 1 ((n + 2) / 4))) := by
    rw [leastStep, boundedSeconds_eq hb, wholeSeconds_quarter]
  have hgreatest : greatestStep bounds n =
      max bounds.minSeconds (min bounds.maxSeconds (n * 4)) := by
    rw [greatestStep, boundedSeconds_eq hb, wholeSeconds_fourfold hpos]
  obtain ⟨hmin, hmax⟩ := hb
  refine ⟨?_, ?_, ?_, ?_⟩
  · rw [hleast]
    omega
  · rw [hgreatest]
    omega
  · rw [hgreatest]
    omega
  · rw [hleast]
    omega

theorem dampStep_fst (h : 0 < previous) (seconds : ℚ) :
    (dampStep (some previous) seconds).1 = max ((previous : ℚ) / MAX_STEP_FACTOR)
      (min ((previous : ℚ) * MAX_STEP_FACTOR) seconds) := by
  have hle : (previous : ℚ) / MAX_STEP_FACTOR ≤ previous * MAX_STEP_FACTOR := by
    have hpos : (0 : ℚ) < previous := by exact_mod_cast h
    rw [MAX_STEP_FACTOR]
    linarith
  simp only [dampStep, if_pos h]
  split_ifs <;> grind

theorem boundedSeconds_dampStep (h : 0 < previous) (seconds : ℚ) :
    boundedSeconds bounds (dampStep (some previous) seconds).1 =
      Damping.damp (leastStep bounds) (greatestStep bounds) (boundedSeconds bounds seconds)
        previous := by
  rw [dampStep_fst h, boundedSeconds_mono.map_max, boundedSeconds_mono.map_min]
  rfl

def AdaptiveIntervalInput.chosenTier (input : AdaptiveIntervalInput) :
    MarketResult AdaptiveTier := do
  let recentEventCount ← nonNegativeCount "recentEventCount" input.recentEventCount
  let recentChangeCount ← nonNegativeCount "recentChangeCount" input.recentChangeCount
  return selectAdaptiveTier (recentEventCount + recentChangeCount) input.unchangedStreak
    (auctionSignal input.secondsUntilListingEnd)

def AdaptiveIntervalInput.scaled (input : AdaptiveIntervalInput) (tier : AdaptiveTier) : ℚ :=
  input.baseIntervalSeconds * tier.factor

theorem evaluateAdaptiveInterval_eq_ok : evaluateAdaptiveInterval input = .ok d ↔
    0 < input.baseIntervalSeconds ∧ resolveBounds input.bounds = .ok d.bounds
      ∧ input.chosenTier = .ok d.tier ∧ d.factor = d.tier.factor
      ∧ d.intervalSeconds = boundedSeconds d.bounds
        (dampStep input.previousIntervalSeconds (input.scaled d.tier)).1
      ∧ d.clampedBy = (clampBounds d.bounds
        (dampStep input.previousIntervalSeconds (input.scaled d.tier))).2 := by
  have hseconds : ∀ bounds clamped, wholeSeconds (clampBounds bounds clamped).1 =
      boundedSeconds bounds clamped.1 := by
    intro bounds clamped
    rw [boundedSeconds, clampBounds_fst, clampBounds_fst]
  simp only [evaluateAdaptiveInterval, AdaptiveIntervalInput.chosenTier, Except.bind_eq_ok,
    Except.require_eq_ok, Except.pure_eq_ok, exists_const, hseconds]
  constructor
  · rintro ⟨hbase, bounds, hbounds, events, hevents, changes, hchanges, rfl⟩
    exact ⟨hbase, hbounds, ⟨events, hevents, changes, hchanges, rfl⟩, rfl, rfl, rfl⟩
  · rintro ⟨hbase, hbounds, ⟨events, hevents, changes, hchanges, htier⟩, hfactor, hinterval, hby⟩
    refine ⟨hbase, d.bounds, hbounds, events, hevents, changes, hchanges, ?_⟩
    obtain ⟨intervalSeconds, tier, factor, clampedBy, bounds⟩ := d
    dsimp only at htier hfactor hinterval hby
    subst htier hfactor hinterval hby
    rfl

theorem resolveBound_pos {label : String} {default : ℚ} {round : ℚ → ℤ} {bound : Option JsNumber}
    (hround : ∀ q : ℚ, 1 ≤ q → 1 ≤ round q)
    (h : resolveBound label default round bound = .ok n) : 1 ≤ n := by
  unfold resolveBound at h
  split at h
  · cases h
  · rename_i value hvalue
    split_ifs at h with hlt
    cases h
    have := hround value (not_lt.1 hlt)
    omega

theorem resolveBounds_positive {input : AdaptiveBoundsInput} (h : resolveBounds input = .ok bounds)
    : bounds.Positive := by
  simp only [resolveBounds, Except.bind_eq_ok, Except.pure_eq_ok] at h
  obtain ⟨minSeconds, hmin, maxSeconds, hmax, rfl⟩ := h
  refine ⟨resolveBound_pos (fun q hq => ?_) hmin, resolveBound_pos (fun q hq => ?_) hmax⟩
  · exact Int.one_le_ceil_iff.2 (by linarith)
  · exact Int.le_floor.2 (by exact_mod_cast hq)

end Interval

/-!
## The state between polls

The fields a poll writes are merged into those that are there, and a strict schema reads the whole.
So a poll reads what the one before wrote, unless a field that stays is unknown or out of type.
-/

namespace ConfigJson

variable {fields patch : List (String × ConfigJson)} {key : String}

theorem lookup_eq_none_iff : fields.lookup key = none ↔ key ∉ fields.map (·.1) := by
  rw [List.lookup_eq_none_iff]
  constructor
  · rintro h hkey
    obtain ⟨f, hf, rfl⟩ := List.mem_map.1 hkey
    simpa using h f hf
  · intro h f hf
    rw [bne_iff_ne]
    rintro rfl
    exact h (List.mem_map_of_mem hf)

theorem lookup_mergeFields : (mergeFields fields patch).lookup key =
    (patch.lookup key).or (fields.lookup key) := by
  unfold mergeFields
  rw [List.lookup_append]
  by_cases hkey : key ∈ patch.map (·.1)
  · have hfilter : (fields.filter fun f => !(patch.map (·.1)).contains f.1).lookup key = none := by
      rw [lookup_eq_none_iff]
      simp only [List.mem_map, List.mem_filter, not_exists, not_and]
      rintro f ⟨-, hf⟩ rfl
      simp [hkey] at hf
    obtain ⟨json, hjson⟩ := Option.ne_none_iff_exists'.1 (mt lookup_eq_none_iff.1 (not_not.2 hkey))
    rw [hfilter, hjson]
    rfl
  · rw [lookup_eq_none_iff.2 hkey, Option.or_none, Option.none_or]
    induction fields with
    | nil => rfl
    | cons f fields ih =>
      obtain ⟨k, json⟩ := f
      by_cases hk : key = k
      · subst hk
        rw [List.filter_cons_of_pos (by simpa using hkey), List.lookup_cons_self,
          List.lookup_cons_self]
      · have hne : (key == k) = false := by simpa using hk
        rw [List.filter_cons, List.lookup_cons, hne]
        split_ifs
        · rw [List.lookup_cons, hne, ih]
        · exact ih

theorem mergeFields_mergeFields :
    mergeFields (mergeFields fields patch) patch = mergeFields fields patch := by
  have hnil : patch.filter (fun f => !(patch.map (·.1)).contains f.1) = [] := by
    rw [List.filter_eq_nil_iff]
    intro f hf
    simpa using ⟨f.2, hf⟩
  unfold mergeFields
  rw [List.filter_append, List.filter_filter, hnil, List.append_nil]
  simp

theorem mergeFields_keys {keys : List String} : (∀ f ∈ mergeFields fields patch, f.1 ∈ keys) ↔
    (∀ f ∈ fields, f.1 ∈ patch.map (·.1) ∨ f.1 ∈ keys) ∧ ∀ f ∈ patch, f.1 ∈ keys := by
  simp only [mergeFields, List.forall_mem_append, List.forall_mem_filter, Bool.not_eq_true',
    decide_eq_false_iff_not, List.elem_eq_mem]
  refine and_congr_left fun _ => forall₂_congr fun f _ => ?_
  tauto

theorem asNonnegativeInt_natCast (n : ℕ) :
    asNonnegativeInt (.number n) = if n ≤ maxSafeInteger then some n else none := by
  simp [asNonnegativeInt]

theorem asTier_text (tier : AdaptiveTier) : asTier (.string tier.text) = some tier :=
  AdaptiveTier.ofText_text tier

def fieldsOf : ConfigJson → List (String × ConfigJson)
  | .object fields => fields
  | _ => []

def adaptiveFields (config : ConfigJson) : List (String × ConfigJson) :=
  ((config.field "adaptive").map fieldsOf).getD []

variable {config : ConfigJson}

theorem readAdaptiveState_eq : readAdaptiveState config =
    ((parseAdaptiveConfig config.adaptiveFields).map (·.state)).getD .fallback := by
  unfold readAdaptiveState adaptiveFields
  rcases config.field "adaptive" with _ | (_ | _ | _ | _ | _ | _) <;> rfl

theorem mergeAdaptive_eq : mergeAdaptive config patch = .object (mergeFields config.fieldsOf
    [("adaptive", .object (mergeFields config.adaptiveFields patch))]) := by
  have hnil : mergeFields [] patch = patch := rfl
  unfold mergeAdaptive adaptiveFields field
  rcases config with _ | _ | _ | _ | _ | fields
  case object =>
    simp only [fieldsOf]
    rcases fields.lookup "adaptive" with _ | (_ | _ | _ | _ | _ | _) <;> simp [fieldsOf, hnil]
  all_goals rfl

theorem adaptiveFields_mergeAdaptive : (mergeAdaptive config patch).adaptiveFields =
    mergeFields config.adaptiveFields patch := by
  rw [adaptiveFields, mergeAdaptive_eq, field, lookup_mergeFields]
  rfl

theorem mergeAdaptive_mergeAdaptive :
    mergeAdaptive (mergeAdaptive config patch) patch = mergeAdaptive config patch := by
  rw [mergeAdaptive_eq, adaptiveFields_mergeAdaptive, mergeFields_mergeFields, mergeAdaptive_eq]
  simp only [fieldsOf]
  exact congrArg _ mergeFields_mergeFields

end ConfigJson

section Merged

variable {fields patch : List (String × ConfigJson)} {config : ConfigJson} {streak : ℕ}
  {d : AdaptiveDecision} {at' : JsDate}

def IsInterval (seconds : ℕ) : Prop := 0 < seconds ∧ seconds ≤ ConfigJson.maxSafeInteger

section OptionalField

variable {α : Type} {json : ConfigJson} {read : ConfigJson → Option α} (key : String)

theorem optionalField_merge_patch (h : patch.lookup key = some json) :
    optionalField (ConfigJson.mergeFields fields patch) key read = (read json).map some := by
  rw [optionalField, ConfigJson.lookup_mergeFields, h]
  rfl

theorem optionalField_merge_fields (h : patch.lookup key = none) :
    optionalField (ConfigJson.mergeFields fields patch) key read =
      optionalField fields key read := by
  rw [optionalField, ConfigJson.lookup_mergeFields, h, Option.none_or, optionalField]

end OptionalField

theorem lastComputedInterval_pos {p : ℕ}
    (h : (readAdaptiveState config).lastComputedInterval = some p) : 0 < p := by
  rw [ConfigJson.readAdaptiveState_eq] at h
  rcases hparse : parseAdaptiveConfig config.adaptiveFields with _ | value
  · rw [hparse] at h
    cases h
  · rw [hparse] at h
    simp only [parseAdaptiveConfig, Option.bind_eq_bind, Option.bind_eq_some_iff] at hparse
    obtain ⟨-, -, enabled, -, streak, -, interval, hinterval, tier, -, updated, -, hvalue⟩ := hparse
    obtain rfl := Option.some.inj hvalue
    obtain rfl : interval = some p := h
    unfold optionalField at hinterval
    split at hinterval
    · cases hinterval
    · simp only [Option.map_eq_some_iff, Option.some.injEq, exists_eq_right,
        ConfigJson.asPositiveInt, Option.filter_eq_some_iff, decide_eq_true_eq] at hinterval
      exact hinterval.2

/-- The operator's toggle, of a state of known fields. -/
def readEnabled (fields : List (String × ConfigJson)) : Option (Option Bool) := do
  guard (∀ f ∈ fields, f.1 ∈ ADAPTIVE_CONFIG_KEYS)
  optionalField fields "enabled" ConfigJson.asBool

theorem readEnabled_of_parse {value : AdaptiveConfig} (h : parseAdaptiveConfig fields = some value)
    : readEnabled fields = some value.enabled := by
  simp only [parseAdaptiveConfig, Option.bind_eq_bind, Option.bind_eq_some_iff] at h
  obtain ⟨_, hkeys, enabled, henabled, streak, -, interval, -, tier, -, updated, -, hvalue⟩ := h
  obtain rfl := Option.some.inj hvalue
  simp only [readEnabled, Option.bind_eq_bind, Option.bind_eq_some_iff]
  exact ⟨_, hkeys, henabled⟩

theorem parseAdaptiveConfig_merge (hd : IsInterval d.intervalSeconds) :
    parseAdaptiveConfig (ConfigJson.mergeFields fields (adaptiveStatePatch streak d at')) =
      if streak ≤ ConfigJson.maxSafeInteger then (readEnabled fields).map fun enabled =>
        ⟨enabled, some streak, some d.intervalSeconds, some d.tier, some at'.toIsoString⟩
      else none := by
  have hkeys : (∀ f ∈ ConfigJson.mergeFields fields (adaptiveStatePatch streak d at'),
      f.1 ∈ ADAPTIVE_CONFIG_KEYS) ↔ ∀ f ∈ fields, f.1 ∈ ADAPTIVE_CONFIG_KEYS := by
    rw [ConfigJson.mergeFields_keys]
    have hpatch : ∀ key ∈ (adaptiveStatePatch streak d at').map (·.1),
        key ∈ ADAPTIVE_CONFIG_KEYS := by
      simp [adaptiveStatePatch, ADAPTIVE_CONFIG_KEYS]
    constructor
    · rintro ⟨h, -⟩ f hf
      exact (h f hf).elim (hpatch _) id
    · intro h
      exact ⟨fun f hf => Or.inr (h f hf), fun f hf => hpatch _ (List.mem_map_of_mem hf)⟩
  have hinterval : ConfigJson.asPositiveInt (.number d.intervalSeconds) =
      some d.intervalSeconds := by
    rw [ConfigJson.asPositiveInt, ConfigJson.asNonnegativeInt_natCast, if_pos hd.2]
    simp [hd.1]
  unfold parseAdaptiveConfig
  rw [optionalField_merge_fields "enabled" rfl,
    optionalField_merge_patch "unchangedStreak" rfl,
    optionalField_merge_patch "lastComputedInterval" rfl,
    optionalField_merge_patch "lastTier" rfl,
    optionalField_merge_patch "updatedAt" rfl, hinterval, ConfigJson.asTier_text,
    ConfigJson.asNonnegativeInt_natCast]
  simp only [hkeys, readEnabled]
  generalize (guard (∀ f ∈ fields, f.1 ∈ ADAPTIVE_CONFIG_KEYS) : Option Unit) = known
  rcases known with _ | _
  · split_ifs <;> rfl
  · rcases optionalField fields "enabled" ConfigJson.asBool with _ | enabled
    · split_ifs <;> rfl
    · split_ifs <;> rfl

def writtenState (enabled : Bool) (streak : ℕ) (d : AdaptiveDecision) (at' : JsDate) :
    AdaptiveState :=
  ⟨enabled, streak, some d.intervalSeconds, some d.tier, some at'.toIsoString⟩

theorem readAdaptiveState_merge (hd : IsInterval d.intervalSeconds)
    (henabled : (readAdaptiveState config).enabled = true) (hs : streak ≤ ConfigJson.maxSafeInteger)
    :
    let after := readAdaptiveState (mergeAdaptive config (adaptiveStatePatch streak d at'))
    after = writtenState true streak d at'
      ∨ readAdaptiveState config = .fallback ∧ (after = .fallback ∨ after.enabled = false) := by
  intro after
  have hafter : after = ((readEnabled config.adaptiveFields).map fun enabled =>
      writtenState (enabled.getD true) streak d at').getD .fallback := by
    rw [show after = _ from ConfigJson.readAdaptiveState_eq,
      ConfigJson.adaptiveFields_mergeAdaptive, parseAdaptiveConfig_merge hd, if_pos hs,
      Option.map_map]
    rfl
  rw [ConfigJson.readAdaptiveState_eq] at henabled ⊢
  rcases hparse : parseAdaptiveConfig config.adaptiveFields with _ | value
  · rcases hread : readEnabled config.adaptiveFields with _ | enabled
    · rw [hread] at hafter
      exact Or.inr ⟨rfl, Or.inl hafter⟩
    · rw [hread] at hafter
      rcases htoggle : enabled.getD true
      · refine Or.inr ⟨rfl, Or.inr ?_⟩
        rw [hafter]
        exact htoggle
      · refine Or.inl (hafter.trans ?_)
        show writtenState (enabled.getD true) streak d at' = _
        rw [htoggle]
  · rw [hparse] at henabled
    rw [readEnabled_of_parse hparse] at hafter
    have htoggle : value.enabled.getD true = true := henabled
    refine Or.inl (hafter.trans ?_)
    show writtenState (value.enabled.getD true) streak d at' = _
    rw [htoggle]

theorem readAdaptiveState_merge_overflow (hd : IsInterval d.intervalSeconds)
    (hs : ConfigJson.maxSafeInteger < streak) :
    readAdaptiveState (mergeAdaptive config (adaptiveStatePatch streak d at')) = .fallback := by
  rw [ConfigJson.readAdaptiveState_eq, ConfigJson.adaptiveFields_mergeAdaptive,
    parseAdaptiveConfig_merge hd, if_neg (not_le.2 hs)]
  rfl

end Merged

end Loxep

import Loxep.Lib.SortedLists
import Loxep.StockIntervals
import Mathlib.Data.List.Chain

/-!
# Stock intervals from events

The loop keeps the intervals contiguous and alternating and the open one starting where the last
one ends, at an event that was seen. The order of the events matters only within one instant, where
the sort keeps it, and the end of the range only for the last interval.
-/

namespace Loxep

def RestockSelloutInterval.NonNegative (i : RestockSelloutInterval) : Prop :=
  ∃ a b, i.from' = some a ∧ i.to' = some b ∧ a ≤ b

def secondsOf (state : StockState) (intervals : List RestockSelloutInterval) : List ℚ :=
  (intervals.filter (·.state = state)).filterMap (·.seconds)

/-- What a result says about its events and the end of their range. -/
structure RestockSelloutResult.Describes (r : RestockSelloutResult)
    (events : List RestockSelloutEvent) (rangeEnd : Option ℤ) : Prop where
  selloutCount : r.selloutCount = events.countP (·.eventType = .soldOut)
  restockCount : r.restockCount = events.countP (·.eventType = .restocked)
  avgOutOfStock : r.avgOutOfStockSeconds = average (secondsOf .outOfStock r.intervals)
  avgInStock : r.avgInStockSeconds = average (secondsOf .inStock r.intervals)
  contiguous : r.intervals.IsChain fun i j => i.to' = j.from'
  alternate : r.intervals.IsChain fun i j => i.state ≠ j.state
  covers : r.intervals = [] ↔ events = []
  ends : ∀ i ∈ r.intervals.getLast?, i.to' = rangeEnd ∧ r.currentState = some i.state
    ∧ ∃ event ∈ events, i.from' = some event.at'
  nonNegative : ∀ i ∈ r.intervals.dropLast, i.NonNegative
  nonNegative_last : ∀ e, rangeEnd = some e → (∀ event ∈ events, event.at' ≤ e) →
    ∀ i ∈ r.intervals, i.NonNegative

namespace StockPairing

variable {p : StockPairing} {seen : List RestockSelloutEvent} {event : RestockSelloutEvent}
  {state : StockState} {at' : ℤ} {to' : Option ℤ}

structure Paired (p : StockPairing) (seen : List RestockSelloutEvent) : Prop where
  selloutCount : p.selloutCount = seen.countP (·.eventType = .soldOut)
  restockCount : p.restockCount = seen.countP (·.eventType = .restocked)
  outDurations : p.outDurations = secondsOf .outOfStock p.intervals
  inDurations : p.inDurations = secondsOf .inStock p.intervals
  contiguous : p.intervals.IsChain fun i j => i.to' = j.from'
  alternate : p.intervals.IsChain fun i j => i.state ≠ j.state

def Follows (p : StockPairing) (state : StockState) : Prop :=
  ∀ i ∈ p.intervals.getLast?, i.to' = p.currentIntervalStart ∧ i.state ≠ state

structure Tracks (p : StockPairing) (seen : List RestockSelloutEvent) : Prop where
  fresh : p.currentState = none → seen = [] ∧ p.intervals = []
  current : ∀ state, p.currentState = some state →
    (∃ event ∈ seen, p.currentIntervalStart = some event.at') ∧ p.Follows state
  nonNegative : ∀ i ∈ p.intervals, i.NonNegative

theorem close_intervals : (p.close state to').intervals =
    p.intervals ++ [⟨p.currentIntervalStart, to', state⟩] := by
  cases state <;> rfl

theorem secondsOf_append (i : RestockSelloutInterval) {intervals : List RestockSelloutInterval} :
    secondsOf state (intervals ++ [i]) =
      secondsOf state intervals ++ if i.state = state then i.seconds.toList else [] := by
  rw [secondsOf, List.filter_append, List.filterMap_append, ← secondsOf]
  by_cases h : i.state = state
  · rcases hseconds : i.seconds <;> simp [h, hseconds]
  · simp [h]

theorem Paired.close (h : p.Paired seen) (hfollows : p.Follows state) :
    (p.close state to').Paired seen := by
  have hchain : ∀ {R : RestockSelloutInterval → RestockSelloutInterval → Prop},
      p.intervals.IsChain R → (∀ i ∈ p.intervals.getLast?, R i ⟨p.currentIntervalStart, to', state⟩)
        → (p.close state to').intervals.IsChain R := by
    intro R hp hlast
    rw [close_intervals]
    exact hp.append (List.isChain_singleton _) fun i hi j hj => by
      obtain rfl := Option.some.inj hj
      exact hlast i hi
  have hstate := hchain h.contiguous fun i hi => (hfollows i hi).1
  have halternate := hchain h.alternate fun i hi => (hfollows i hi).2
  have houts : (p.close state to').outDurations =
      secondsOf .outOfStock (p.close state to').intervals := by
    rw [close_intervals, secondsOf_append, ← h.outDurations]
    cases state <;> simp [close]
  have hins : (p.close state to').inDurations =
      secondsOf .inStock (p.close state to').intervals := by
    rw [close_intervals, secondsOf_append, ← h.inDurations]
    cases state <;> simp [close]
  have hsellouts : (p.close state to').selloutCount = p.selloutCount := by cases state <;> rfl
  have hrestocks : (p.close state to').restockCount = p.restockCount := by cases state <;> rfl
  exact ⟨hsellouts.trans h.selloutCount, hrestocks.trans h.restockCount, houts, hins, hstate,
    halternate⟩

theorem Paired.startAt (h : p.Paired seen) : (p.startAt state at').Paired seen :=
  ⟨h.selloutCount, h.restockCount, h.outDurations, h.inDurations, h.contiguous, h.alternate⟩

theorem Paired.count (h : p.Paired seen) :
    (p.count event.eventType).Paired (seen ++ [event]) := by
  obtain ⟨hsellouts, hrestocks, houts, hins, hcontiguous, halternate⟩ := h
  rcases htype : event.eventType
  · refine ⟨?_, ?_, houts, hins, hcontiguous, halternate⟩
    · simp [StockPairing.count, List.countP_append, hsellouts, htype]
    · simp [StockPairing.count, List.countP_append, hrestocks, htype]
  · refine ⟨?_, ?_, houts, hins, hcontiguous, halternate⟩
    · simp [StockPairing.count, List.countP_append, hsellouts, htype]
    · simp [StockPairing.count, List.countP_append, hrestocks, htype]

theorem Paired.enter (h : p.Paired seen)
    (hcurrent : ∀ state, p.currentState = some state → p.Follows state) :
    (p.enter state at').Paired seen := by
  unfold StockPairing.enter
  rcases hstate : p.currentState with _ | current
  · exact h.startAt
  · dsimp only
    split_ifs
    · exact h
    · exact (h.close (hcurrent current hstate)).startAt

theorem Tracks.count (h : p.Tracks seen) (t : RestockSelloutEventType) :
    (p.count t).Tracks seen := by
  cases t <;> exact ⟨h.fresh, h.current, h.nonNegative⟩

theorem Paired.step (h : p.Paired seen) (htracks : p.Tracks seen) :
    (p.step event).Paired (seen ++ [event]) :=
  h.count.enter fun state hstate => ((htracks.count event.eventType).current state hstate).2

theorem Tracks.enter (h : p.Tracks seen) (hlast : ∀ e ∈ seen, e.at' ≤ event.at') :
    (p.enter state event.at').Tracks (seen ++ [event]) := by
  have hevent : event ∈ seen ++ [event] := by simp
  unfold StockPairing.enter
  rcases hstate : p.currentState with _ | current
  · obtain ⟨-, hnil⟩ := h.fresh hstate
    refine ⟨nofun, fun state' hstate' => ⟨⟨event, hevent, rfl⟩, ?_⟩, h.nonNegative⟩
    intro i hi
    rw [show (p.startAt state event.at').intervals = [] from hnil] at hi
    cases hi
  · obtain ⟨⟨first, hfirst, hstart⟩, hfollows⟩ := h.current current hstate
    dsimp only
    split_ifs with hsame
    · refine ⟨fun hnone => ?_, fun state' hstate' => ?_, h.nonNegative⟩
      · rw [hstate] at hnone
        cases hnone
      · obtain ⟨⟨e, he, hat⟩, hfollows'⟩ := h.current state' hstate'
        exact ⟨⟨e, List.mem_append_left _ he, hat⟩, hfollows'⟩
    · have hintervals : ((p.close current (some event.at')).startAt state event.at').intervals =
          p.intervals ++ [⟨p.currentIntervalStart, some event.at', current⟩] := close_intervals
      refine ⟨nofun, fun state' hstate' => ⟨⟨event, hevent, rfl⟩, ?_⟩, ?_⟩
      · obtain rfl : state = state' := Option.some.inj hstate'
        intro i hi
        rw [hintervals, List.getLast?_concat] at hi
        obtain rfl := Option.some.inj hi
        exact ⟨rfl, hsame⟩
      · rw [hintervals]
        intro i hi
        rcases List.mem_append.1 hi with hi | hi
        · exact h.nonNegative i hi
        · obtain rfl := List.mem_singleton.1 hi
          exact ⟨first.at', event.at', hstart, rfl, hlast first hfirst⟩

theorem Tracks.step (h : p.Tracks seen) (hlast : ∀ e ∈ seen, e.at' ≤ event.at') :
    (p.step event).Tracks (seen ++ [event]) :=
  (h.count event.eventType).enter hlast

theorem foldl_step {rest : List RestockSelloutEvent} :
    ∀ {p : StockPairing} {seen : List RestockSelloutEvent}, p.Paired seen → p.Tracks seen →
      (seen ++ rest).Pairwise (fun a b => a.at' ≤ b.at') →
      (rest.foldl step p).Paired (seen ++ rest) ∧ (rest.foldl step p).Tracks (seen ++ rest) := by
  induction rest with
  | nil =>
    intro p seen hp ht _
    simpa using ⟨hp, ht⟩
  | cons event rest ih =>
    intro p seen hp ht hsorted
    have hlast : ∀ e ∈ seen, e.at' ≤ event.at' := fun e he =>
      (List.pairwise_append.1 hsorted).2.2 e he event List.mem_cons_self
    rw [List.append_cons] at hsorted ⊢
    exact ih (hp.step ht) (ht.step hlast) hsorted

theorem finish_cases (hp : p.Paired seen) (ht : p.Tracks seen) (rangeEnd : Option ℤ) :
    (p.finish rangeEnd).Paired seen ∧ (p.finish rangeEnd).currentState = p.currentState
      ∧ (seen = [] ∧ (p.finish rangeEnd).intervals = [] ∨ ∃ state, ∃ event ∈ seen,
        p.currentState = some state ∧ (p.finish rangeEnd).intervals =
          p.intervals ++ [⟨some event.at', rangeEnd, state⟩]) := by
  rcases hstate : p.currentState with _ | state
  · have hfinish : p.finish rangeEnd = p := by simp only [finish, hstate]
    rw [hfinish]
    exact ⟨hp, hstate, Or.inl (ht.fresh hstate)⟩
  · obtain ⟨⟨event, hevent, hstart⟩, hfollows⟩ := ht.current state hstate
    have hfinish : p.finish rangeEnd = p.close state rangeEnd := by simp only [finish, hstate]
    have hkept : (p.close state rangeEnd).currentState = p.currentState := by cases state <;> rfl
    rw [hfinish]
    refine ⟨hp.close hfollows, hkept.trans hstate, Or.inr ⟨state, event, hevent, rfl, ?_⟩⟩
    rw [close_intervals, hstart]

end StockPairing

section Result

variable {events events' : List RestockSelloutEvent} {rangeEnd : Option ℤ}

theorem deriveRestockSelloutIntervals_describes :
    (deriveRestockSelloutIntervals events rangeEnd).Describes events rangeEnd := by
  have hperm : (sortedEvents events).Perm events := List.perm_insertionSort _ _
  have hstart : StockPairing.Paired {} [] := ⟨rfl, rfl, rfl, rfl, .nil, .nil⟩
  have hfresh : StockPairing.Tracks {} [] := ⟨fun _ => ⟨rfl, rfl⟩, nofun, nofun⟩
  have hsorted : ([] ++ sortedEvents events).Pairwise
      (fun a b : RestockSelloutEvent => a.at' ≤ b.at') :=
    pairwise_insertionSort_key events
  obtain ⟨hp, ht⟩ := StockPairing.foldl_step hstart hfresh hsorted
  rw [List.nil_append] at hp ht
  obtain ⟨hpaired, hcurrent, hshape⟩ := StockPairing.finish_cases hp ht rangeEnd
  have hempty : sortedEvents events = [] ↔ events = [] := by
    rw [← List.length_eq_zero_iff, hperm.length_eq, List.length_eq_zero_iff]
  have hints : (deriveRestockSelloutIntervals events rangeEnd).intervals =
    (((sortedEvents events).foldl StockPairing.step {}).finish rangeEnd).intervals := rfl
  have hstate : (deriveRestockSelloutIntervals events rangeEnd).currentState =
    ((sortedEvents events).foldl StockPairing.step {}).currentState := hcurrent
  refine ⟨hpaired.selloutCount.trans (hperm.countP_eq _),
    hpaired.restockCount.trans (hperm.countP_eq _), congrArg average hpaired.outDurations,
    congrArg average hpaired.inDurations, hpaired.contiguous, hpaired.alternate, ?_, ?_, ?_, ?_⟩
  all_goals
    rw [hints]
    rcases hshape with ⟨hnone, hnil⟩ | ⟨state, event, hevent, hopen, hconcat⟩
  · exact iff_of_true hnil (hempty.1 hnone)
  · refine iff_of_false (by simp [hconcat]) fun hnone => ?_
    rw [hempty.2 hnone] at hevent
    cases hevent
  · rw [hnil]
    nofun
  · intro i hi
    rw [hconcat, List.getLast?_concat] at hi
    obtain rfl := Option.some.inj hi
    exact ⟨rfl, hstate.trans hopen, event, hperm.mem_iff.1 hevent, rfl⟩
  · rw [hnil]
    nofun
  · rw [hconcat, List.dropLast_concat]
    exact ht.nonNegative
  · rw [hnil]
    nofun
  · rintro e rfl hbefore i hi
    rw [hconcat] at hi
    rcases List.mem_append.1 hi with hi | hi
    · exact ht.nonNegative i hi
    · obtain rfl := List.mem_singleton.1 hi
      exact ⟨event.at', e, rfl, rfl, hbefore event (hperm.mem_iff.1 hevent)⟩

theorem deriveRestockSelloutIntervals_congr
    (h : ∀ instant, events'.filter (·.at' = instant) = events.filter (·.at' = instant)) :
    deriveRestockSelloutIntervals events' rangeEnd =
      deriveRestockSelloutIntervals events rangeEnd := by
  have hsorted : sortedEvents events' = sortedEvents events := insertionSort_eq_iff.2 h
  rw [deriveRestockSelloutIntervals, hsorted, deriveRestockSelloutIntervals]

theorem filter_eq_of_perm (hperm : events'.Perm events)
    (htypes : ∀ a ∈ events, ∀ b ∈ events, a.at' = b.at' → a.eventType = b.eventType) (instant : ℤ) :
    events'.filter (·.at' = instant) = events.filter (·.at' = instant) := by
  have hone : ∀ a b, a ∈ events'.filter (·.at' = instant) → b ∈ events.filter (·.at' = instant) →
      True → True → a = b := by
    intro a b ha hb _ _
    simp only [List.mem_filter, decide_eq_true_eq] at ha hb
    have hat : a.at' = b.at' := ha.2.trans hb.2.symm
    have htype := htypes a (hperm.mem_iff.1 ha.1) b hb.1 hat
    cases a
    cases b
    simp_all
  exact (hperm.filter _).eq_of_pairwise hone (List.pairwise_of_forall fun _ _ => trivial)
    (List.pairwise_of_forall fun _ _ => trivial)

/-- The intervals of a result are those its events describe, and only the order within an instant
matters. -/
theorem stock_intervals (events : List RestockSelloutEvent) (rangeEnd : Option ℤ) :
    (deriveRestockSelloutIntervals events rangeEnd).Describes events rangeEnd
      ∧ (∀ events', (∀ instant,
          events'.filter (·.at' = instant) = events.filter (·.at' = instant)) →
        deriveRestockSelloutIntervals events' rangeEnd =
          deriveRestockSelloutIntervals events rangeEnd)
      ∧ ∀ events' : List RestockSelloutEvent, events'.Perm events →
        (∀ a ∈ events, ∀ b ∈ events, a.at' = b.at' → a.eventType = b.eventType) →
        deriveRestockSelloutIntervals events' rangeEnd =
          deriveRestockSelloutIntervals events rangeEnd :=
  ⟨deriveRestockSelloutIntervals_describes, fun _ h => deriveRestockSelloutIntervals_congr h,
    fun _ hperm htypes => deriveRestockSelloutIntervals_congr (filter_eq_of_perm hperm htypes)⟩

end Result

theorem swapped_stock_intervals :
    deriveRestockSelloutIntervals [⟨.restocked, 1000⟩, ⟨.soldOut, 0⟩] (some 3000) =
      deriveRestockSelloutIntervals [⟨.soldOut, 0⟩, ⟨.restocked, 1000⟩] (some 3000) :=
  (stock_intervals [⟨.soldOut, 0⟩, ⟨.restocked, 1000⟩] (some 3000)).2.2 _ (List.Perm.swap _ _ _)
    (by decide)

theorem backward_and_tied_intervals :
    (∃ i ∈ (deriveRestockSelloutIntervals [⟨.soldOut, 10⟩] (some 5)).intervals, ¬ i.NonNegative)
      ∧ [(⟨.restocked, 0⟩ : RestockSelloutEvent), ⟨.soldOut, 0⟩].Perm
        [⟨.soldOut, 0⟩, ⟨.restocked, 0⟩]
      ∧ deriveRestockSelloutIntervals [⟨.restocked, 0⟩, ⟨.soldOut, 0⟩] (some 5) ≠
        deriveRestockSelloutIntervals [⟨.soldOut, 0⟩, ⟨.restocked, 0⟩] (some 5) := by
  refine ⟨⟨⟨some 10, some 5, .outOfStock⟩, by decide, ?_⟩, List.Perm.swap _ _ _, fun hsame => ?_⟩
  · rintro ⟨a, b, ha, hb, hle⟩
    cases ha
    cases hb
    omega
  · have hstate := congrArg RestockSelloutResult.currentState hsame
    revert hstate
    decide

end Loxep

import Mathlib.Algebra.Order.Field.Rat
import Mathlib.Data.List.Sort

/-!
# Restock and sellout intervals

The events of an item are sorted by their instants and paired into intervals of one stock state: an
event that changes the state closes the open interval and opens the next one, the first event only
opens one, and the end of the range closes the last.
-/

namespace Loxep

inductive StockState
  | inStock
  | outOfStock
  deriving DecidableEq

inductive RestockSelloutEventType
  | restocked
  | soldOut
  deriving DecidableEq

def RestockSelloutEventType.state : RestockSelloutEventType → StockState
  | .restocked => .inStock
  | .soldOut => .outOfStock

structure RestockSelloutEvent where
  eventType : RestockSelloutEventType
  at' : ℤ

structure RestockSelloutInterval where
  from' : Option ℤ
  to' : Option ℤ
  state : StockState
  deriving DecidableEq

/-- The state `unknown` is `none`. -/
structure RestockSelloutResult where
  selloutCount : ℕ
  restockCount : ℕ
  avgOutOfStockSeconds : Option ℚ
  avgInStockSeconds : Option ℚ
  currentState : Option StockState
  intervals : List RestockSelloutInterval

def intervalSeconds (from' to' : ℤ) : ℚ := ((to' - from' : ℤ) : ℚ) / 1000

def RestockSelloutInterval.seconds (i : RestockSelloutInterval) : Option ℚ :=
  match i.from', i.to' with
  | some from', some to' => some (intervalSeconds from' to')
  | _, _ => none

def average (values : List ℚ) : Option ℚ :=
  if values.length = 0 then none else some (values.sum / values.length)

/-- What the loop over the events keeps. -/
structure StockPairing where
  currentState : Option StockState := none
  currentIntervalStart : Option ℤ := none
  selloutCount : ℕ := 0
  restockCount : ℕ := 0
  intervals : List RestockSelloutInterval := []
  outDurations : List ℚ := []
  inDurations : List ℚ := []

namespace StockPairing

def close (p : StockPairing) (state : StockState) (to' : Option ℤ) : StockPairing :=
  let interval : RestockSelloutInterval := ⟨p.currentIntervalStart, to', state⟩
  let p := { p with intervals := p.intervals ++ [interval] }
  match state with
  | .outOfStock => { p with outDurations := p.outDurations ++ interval.seconds.toList }
  | .inStock => { p with inDurations := p.inDurations ++ interval.seconds.toList }

def startAt (p : StockPairing) (state : StockState) (at' : ℤ) : StockPairing :=
  { p with currentState := some state, currentIntervalStart := some at' }

/-- An event that brings no change leaves the open interval. -/
def enter (p : StockPairing) (state : StockState) (at' : ℤ) : StockPairing :=
  match p.currentState with
  | none => p.startAt state at'
  | some current =>
    if current = state then p else (p.close current (some at')).startAt state at'

def count (p : StockPairing) : RestockSelloutEventType → StockPairing
  | .restocked => { p with restockCount := p.restockCount + 1 }
  | .soldOut => { p with selloutCount := p.selloutCount + 1 }

/-- One turn of the loop. -/
def step (p : StockPairing) (event : RestockSelloutEvent) : StockPairing :=
  (p.count event.eventType).enter event.eventType.state event.at'

def finish (p : StockPairing) (rangeEnd : Option ℤ) : StockPairing :=
  match p.currentState with
  | none => p
  | some state => p.close state rangeEnd

def result (p : StockPairing) : RestockSelloutResult :=
  ⟨p.selloutCount, p.restockCount, average p.outDurations, average p.inDurations, p.currentState,
    p.intervals⟩

end StockPairing

/-- `Array.sort` is stable, as the insertion sort is. -/
def sortedEvents (events : List RestockSelloutEvent) : List RestockSelloutEvent :=
  events.insertionSort fun a b => a.at' ≤ b.at'

def deriveRestockSelloutIntervals (events : List RestockSelloutEvent) (rangeEnd : Option ℤ) :
    RestockSelloutResult :=
  (((sortedEvents events).foldl StockPairing.step {}).finish rangeEnd).result

end Loxep

import Mathlib.Data.List.DropRight

/-!
# What a history says of its end

A history is a list with the newest entry last. How many entries at its end have a property, the
newest entry that has one, and the newest two in a row that differ, each as one more entry leaves
them.
-/

namespace Loxep

namespace History

variable {α β : Type*} [DecidableEq β] {p : α → Bool} {f : α → β} {history : List α} {last new : α}

/-- How many entries at the end have the property. -/
def trailing (p : α → Bool) (history : List α) : ℕ := (history.rtakeWhile p).length

/-- The newest entry with the property. -/
def latest (p : α → Bool) (history : List α) : Option α := history.reverse.find? p

/-- Each entry with the one after it. -/
def pairs : List α → List (α × α)
  | [] => []
  | [_] => []
  | a :: b :: history => (a, b) :: pairs (b :: history)

/-- The newest two entries in a row at which `f` differs. -/
def lastChange (f : α → β) (history : List α) : Option (α × α) :=
  (pairs history).reverse.find? fun pair => f pair.1 ≠ f pair.2

@[simp] theorem trailing_nil : trailing p [] = 0 := rfl

@[simp] theorem latest_nil : latest p ([] : List α) = none := rfl

@[simp] theorem lastChange_nil : lastChange f [] = none := rfl

@[simp] theorem lastChange_singleton : lastChange f [new] = none := rfl

theorem trailing_append :
    trailing p (history ++ [new]) = if p new then trailing p history + 1 else 0 := by
  unfold trailing
  rw [List.rtakeWhile_concat]
  split_ifs
  · simp
  · rfl

theorem latest_append :
    latest p (history ++ [new]) = if p new then some new else latest p history := by
  unfold latest
  rw [List.reverse_append, List.reverse_singleton, List.singleton_append, List.find?_cons]
  cases p new <;> rfl

theorem pairs_append (last new : α) : ∀ history : List α,
    pairs (history ++ [last, new]) = pairs (history ++ [last]) ++ [(last, new)]
  | [] => rfl
  | [_] => rfl
  | _ :: b :: history => by
    have ih := pairs_append last new (b :: history)
    simp only [List.cons_append, pairs] at ih ⊢
    rw [ih]

theorem lastChange_append :
    lastChange f (history ++ [last, new]) =
      if f last = f new then lastChange f (history ++ [last]) else some (last, new) := by
  unfold lastChange
  rw [pairs_append, List.reverse_append, List.reverse_singleton, List.singleton_append,
    List.find?_cons]
  split_ifs with h <;> simp [h]

end History

end Loxep

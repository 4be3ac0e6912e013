import Mathlib.Order.Lattice
import Mathlib.Order.MinMax

/-!
# Damped steps

A value moves toward a target, no further in one step than between two values that depend on where
it stands. Computed from its own result, the step goes on unless the target has been reached; so a
damped step is idempotent exactly where the damping did nothing.
-/

namespace Loxep

namespace Damping

variable {α : Type*} [LinearOrder α] {lower upper : α → α} {target : α}

/-- The target, as far as one step from `x` reaches. -/
def damp (lower upper : α → α) (target x : α) : α := max (lower x) (min (upper x) target)

theorem damp_eq_target_iff {x : α} (hx : lower x ≤ upper x) :
    damp lower upper target x = target ↔ lower x ≤ target ∧ target ≤ upper x := by
  unfold damp
  constructor
  · intro h
    refine ⟨h ▸ le_max_left _ _, ?_⟩
    rw [← h]
    exact max_le hx (min_le_left _ _)
  · rintro ⟨hlower, hupper⟩
    rw [min_eq_right hupper, max_eq_right hlower]

/-- The steps from `x` reach both sides of it, and the target's side properly. -/
structure Moves (lower upper : α → α) (target x : α) : Prop where
  lower_le : lower x ≤ x
  le_upper : x ≤ upper x
  up : x < target → x < upper x
  down : target < x → lower x < x

theorem Moves.damp_eq_self_iff {x : α} (h : Moves lower upper target x) :
    damp lower upper target x = x ↔ x = target := by
  unfold damp
  rcases lt_trichotomy x target with hlt | rfl | hgt
  · refine iff_of_false (ne_of_gt ?_) hlt.ne
    exact (lt_min (h.up hlt) hlt).trans_le (le_max_right _ _)
  · rw [min_eq_right h.le_upper, max_eq_right h.lower_le]
  · refine iff_of_false (ne_of_lt ?_) hgt.ne'
    exact max_lt (h.down hgt) ((min_le_right _ _).trans_lt hgt)

/-- The step is over after its first application exactly where that reached the target. -/
theorem damp_damp_eq_iff {x : α} (hx : lower x ≤ upper x)
    (h : Moves lower upper target (damp lower upper target x)) :
    damp lower upper target (damp lower upper target x) = damp lower upper target x ↔
      lower x ≤ target ∧ target ≤ upper x :=
  h.damp_eq_self_iff.trans (damp_eq_target_iff hx)

end Damping

end Loxep

import Mathlib.Data.List.Forall2
import Mathlib.Tactic.SplitIfs

/-!
# Sequencing in `Except`

A computation that may raise is a chain of binds. These read a successful or a raising chain
apart into its links, so that a proof about a function written with `do` never unfolds the monad.
-/

namespace Loxep

namespace Except

universe u

variable {ε : Type*} {α β : Type u}

variable {x : Except ε α} {f : α → Except ε β} {e : ε} {a : α} {p : Prop}

variable {b : β} {xs : List α}

theorem bind_eq_ok :
    (x >>= f) = .ok b ↔ ∃ a, x = .ok a ∧ f a = .ok b := by
  cases x <;> simp [bind, Except.bind]

theorem bind_eq_error :
    (x >>= f) = .error e ↔ x = .error e ∨ ∃ a, x = .ok a ∧ f a = .error e := by
  cases x <;> simp [bind, Except.bind]

theorem pure_eq_ok {b : α} : (pure a : Except ε α) = .ok b ↔ a = b := by
  simp [pure, Except.pure]

theorem map_eq_ok {f : α → β} :
    x.map f = .ok b ↔ ∃ a, x = .ok a ∧ f a = b := by
  cases x <;> simp [Except.map]

theorem mapError_eq_ok {ε' : Type*} {f : ε → ε'} :
    x.mapError f = .ok a ↔ x = .ok a := by
  cases x <;> simp [Except.mapError]

theorem toOption_eq_some : x.toOption = some a ↔ x = .ok a := by
  cases x <;> simp [Except.toOption]

theorem mapM_eq_ok {ys : List β} :
    xs.mapM f = .ok ys ↔ xs.map f = ys.map .ok := by
  induction xs generalizing ys with
  | nil => cases ys <;> simp [pure_eq_ok]
  | cons x xs ih =>
    rw [List.mapM_cons, bind_eq_ok, List.map_cons]
    constructor
    · rintro ⟨y, hy, hrest⟩
      obtain ⟨rest, hrest, h⟩ := bind_eq_ok.1 hrest
      rw [← pure_eq_ok.1 h, hy, ih.1 hrest, List.map_cons]
    · rcases ys with _ | ⟨y, rest⟩
      · simp
      · rw [List.map_cons, List.cons.injEq]
        rintro ⟨hy, hrest⟩
        exact ⟨y, hy, bind_eq_ok.2 ⟨rest, ih.2 hrest, rfl⟩⟩

theorem mapM_forall₂_iff {R : α → β → Prop} :
    (∃ ys, xs.mapM f = .ok ys ∧ List.Forall₂ R xs ys) ↔ ∀ x ∈ xs, ∃ y, f x = .ok y ∧ R x y := by
  simp only [mapM_eq_ok]
  induction xs with
  | nil => exact iff_of_true ⟨[], rfl, .nil⟩ fun _ h => absurd h List.not_mem_nil
  | cons x xs ih =>
    rw [List.forall_mem_cons, ← ih]
    constructor
    · rintro ⟨_ | ⟨y, ys⟩, h, hall⟩
      · cases hall
      · rw [List.map_cons, List.map_cons, List.cons.injEq] at h
        obtain ⟨hfirst, hrest⟩ := List.forall₂_cons.1 hall
        exact ⟨⟨y, h.1, hfirst⟩, ys, h.2, hrest⟩
    · rintro ⟨⟨y, hy, hfirst⟩, ys, hys, hrest⟩
      exact ⟨y :: ys, by rw [List.map_cons, List.map_cons, hy, hys], .cons hfirst hrest⟩

theorem mapM_returns_iff :
    (∃ ys, xs.mapM f = .ok ys) ↔ ∀ x ∈ xs, ∃ y, f x = .ok y := by
  simp only [mapM_eq_ok]
  induction xs with
  | nil => exact iff_of_true ⟨[], rfl⟩ fun _ h => absurd h List.not_mem_nil
  | cons x xs ih =>
    rw [List.forall_mem_cons, ← ih]
    constructor
    · rintro ⟨_ | ⟨y, ys⟩, h⟩
      · cases h
      · rw [List.map_cons, List.map_cons, List.cons.injEq] at h
        exact ⟨⟨y, h.1⟩, ys, h.2⟩
    · rintro ⟨⟨y, hy⟩, ys, hys⟩
      exact ⟨y :: ys, by rw [List.map_cons, List.map_cons, hy, hys]⟩

/-- A check that raises `e` unless `p` holds. -/
def require (p : Prop) [Decidable p] (e : ε) : Except ε PUnit :=
  if p then .ok () else .error e

theorem require_eq_ok [Decidable p] {a : PUnit} :
    require p e = .ok a ↔ p := by
  unfold require
  split_ifs with h <;> simp [h]

theorem require_eq_error [Decidable p] {e' : ε} :
    require p e = .error e' ↔ ¬p ∧ e = e' := by
  unfold require
  split_ifs with h <;> simp [h]

theorem require_of [Decidable p] (h : p) : require p e = .ok () := if_pos h

/-- Whether the computation returned. -/
def returns : Except ε α → Bool
  | .ok _ => true
  | .error _ => false

theorem returns_iff : returns x = true ↔ ∃ a, x = .ok a := by
  cases x <;> simp [returns]

theorem returns_require [Decidable p] : returns (require p e) = true ↔ p := by
  simp [returns_iff, require_eq_ok]

theorem not_returns_iff : returns x = false ↔ ∃ e, x = .error e := by
  cases x <;> simp [returns]

/-- Every error the computation raises satisfies `P`. -/
def RaisesOnly (P : ε → Prop) (x : Except ε α) : Prop := ∀ e, x = .error e → P e

section RaisesOnly

variable {P : ε → Prop}

theorem raisesOnly_ok (a : α) : RaisesOnly P (.ok a : Except ε α) := by
  intro e h
  cases h

theorem raisesOnly_error {e : ε} (h : P e) : RaisesOnly P (.error e : Except ε α) := by
  intro e' he
  cases he
  exact h

theorem RaisesOnly.bind {x : Except ε α} {f : α → Except ε β} (hx : RaisesOnly P x)
    (hf : ∀ a, RaisesOnly P (f a)) : RaisesOnly P (x >>= f) := by
  intro e h
  rcases bind_eq_error.1 h with h | ⟨a, -, h⟩
  · exact hx e h
  · exact hf a e h

theorem raisesOnly_require {p : Prop} [Decidable p] {e : ε} (h : P e) :
    RaisesOnly P (require p e) := by
  unfold require
  split_ifs
  · exact raisesOnly_ok _
  · exact raisesOnly_error h

end RaisesOnly

end Except

end Loxep

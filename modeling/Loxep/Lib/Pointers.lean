import Mathlib.Logic.Relation
import Mathlib.Tactic.ByContra
import Mathlib.Tactic.SplitIfs

/-!
# Pointers one level deep

Some elements point at another one. Where what is pointed at points nowhere, following a pointer
once is following it to its end.
-/

namespace Loxep

namespace Pointers

variable {α : Type*} {next : α → Option α} {a b target : α}

def PointsTo (next : α → Option α) (a b : α) : Prop := next a = some b

/-- What is pointed at points nowhere. -/
def Flat (next : α → Option α) : Prop := ∀ a b, next a = some b → next b = none

/-- Where the element points, or itself. -/
def resolve (next : α → Option α) (a : α) : α := (next a).getD a

theorem resolve_of_pointsTo (h : next a = some b) : resolve next a = b := by
  rw [resolve, h, Option.getD_some]

theorem resolve_of_none (h : next a = none) : resolve next a = a := by
  rw [resolve, h, Option.getD_none]

theorem Flat.next_resolve (h : Flat next) : next (resolve next a) = none := by
  rcases ha : next a with _ | b
  · rw [resolve_of_none ha, ha]
  · rw [resolve_of_pointsTo ha]
    exact h a b ha

theorem Flat.not_pointsTo (h : Flat next) (hab : PointsTo next a b) (c : α) :
    ¬ PointsTo next b c := by
  intro hbc
  have hnone := h a b hab
  rw [PointsTo, hnone] at hbc
  cases hbc

theorem Flat.acyclic (h : Flat next) : ¬ Relation.TransGen (PointsTo next) a a := by
  intro hcycle
  obtain ⟨b, hab, -⟩ := Relation.TransGen.head'_iff.1 hcycle
  obtain ⟨c, -, hca⟩ := Relation.TransGen.tail'_iff.1 hcycle
  exact h.not_pointsTo hca b hab

theorem Flat.resolve_eq (h : Flat next) (hchain : Relation.ReflTransGen (PointsTo next) a b) :
    resolve next a = resolve next b := by
  induction hchain with
  | refl => rfl
  | @tail b c hab hbc ih =>
    rw [ih, resolve_of_pointsTo hbc, resolve_of_none (h b c hbc)]

/-- The moved elements point at the target. -/
def redirect (next : α → Option α) (moved : α → Prop) [DecidablePred moved] (target : α) :
    α → Option α :=
  fun a => if moved a then some target else next a

/-- Pointers stay flat when elements are moved exactly where the target points nowhere and none but
moved elements pointed at a moved one. -/
theorem flat_redirect_iff {moved : α → Prop} [DecidablePred moved] (h : Flat next)
    (hmoved : moved a) (htarget : ¬ moved target) : Flat (redirect next moved target) ↔
      next target = none ∧ ∀ b c, next b = some c → moved c → moved b := by
  constructor
  · intro hflat
    constructor
    · have hnone := hflat a target (if_pos hmoved)
      rwa [redirect, if_neg htarget] at hnone
    · intro b c hbc hc
      by_contra hb
      have hnone := hflat b c ((if_neg hb).trans hbc)
      rw [redirect, if_pos hc] at hnone
      cases hnone
  · rintro ⟨hnone, hkept⟩ b c hbc
    unfold redirect at hbc ⊢
    split_ifs at hbc with hb
    · obtain rfl := Option.some.inj hbc
      rw [if_neg htarget]
      exact hnone
    · rw [if_neg fun hc => hb (hkept b c hbc hc)]
      exact h b c hbc

theorem Flat.clear [DecidableEq α] (h : Flat next) :
    Flat fun b => if b = a then none else next b := by
  intro b c hbc
  simp only at hbc ⊢
  split_ifs at hbc ⊢
  · rfl
  · exact h b c hbc

end Pointers

end Loxep

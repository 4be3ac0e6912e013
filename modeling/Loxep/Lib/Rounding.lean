import Mathlib.Data.Nat.Basic
import Mathlib.Tactic.Ring
import Mathlib.Tactic.Linarith

/-!
# Rounding half up

The quotient of two naturals rounded to the nearest, a half going up. It is the floor of
`(2n + d) / 2d`, from which its bounds, its zeros and the shares that keep the whole all follow.
-/

namespace Loxep

namespace Rounding

def halfUp (n d : ℕ) : ℕ :=
  if d ≤ n % d * 2 then n / d + 1 else n / d

variable {n d m : ℕ}

section

variable (hd : 0 < d)
include hd

theorem halfUp_eq_div : halfUp n d = (2 * n + d) / (2 * d) := by
  have hmod := Nat.mod_lt n hd
  have hn := Nat.div_add_mod n d
  have expand : ∀ k, k * (2 * d) = 2 * (d * k) := fun k => by ring
  have hsucc : d * (n / d + 1) = d * (n / d) + d := by ring
  have hsucc' : d * (n / d + 1 + 1) = d * (n / d) + 2 * d := by ring
  unfold halfUp
  split_ifs with h
  · refine (Nat.div_eq_of_lt_le ?_ ?_).symm <;> rw [expand] <;> omega
  · refine (Nat.div_eq_of_lt_le ?_ ?_).symm <;> rw [expand] <;> omega

theorem halfUp_eq_iff :
    halfUp n d = m ↔ 2 * d * m ≤ 2 * n + d ∧ 2 * n < 2 * d * m + d := by
  rw [halfUp_eq_div hd, Nat.div_eq_iff (by omega)]
  have : m * (2 * d) = 2 * d * m := by ring
  omega

theorem halfUp_eq_zero_iff : halfUp n d = 0 ↔ 2 * n < d := by
  rw [halfUp_eq_iff hd]
  omega

theorem halfUp_mono {n' : ℕ} (h : n ≤ n') : halfUp n d ≤ halfUp n' d := by
  rw [halfUp_eq_div hd, halfUp_eq_div hd]
  exact Nat.div_le_div_right (by omega)

theorem halfUp_mul_self : halfUp (m * d) d = m := by
  rw [halfUp_eq_iff hd]
  constructor <;> nlinarith

theorem halfUp_ratio {n' d' : ℕ} (hd' : 0 < d') (h : n * d' = n' * d) :
    halfUp n d = halfUp n' d' := by
  rw [halfUp_eq_iff hd]
  obtain ⟨hle, hlt⟩ := (halfUp_eq_iff hd').1 rfl
  generalize halfUp n' d' = m at hle hlt ⊢
  refine ⟨?_, ?_⟩
  · refine Nat.le_of_mul_le_mul_right ?_ hd'
    calc 2 * d * m * d' = (2 * d' * m) * d := by ring
      _ ≤ (2 * n' + d') * d := Nat.mul_le_mul_right d hle
      _ = 2 * (n' * d) + d' * d := by ring
      _ = (2 * n + d) * d' := by rw [← h]; ring
  · refine Nat.lt_of_mul_lt_mul_right (a := d') ?_
    calc 2 * n * d' = 2 * n' * d := by rw [mul_assoc, h, ← mul_assoc]
      _ < (2 * d' * m + d') * d := Nat.mul_lt_mul_of_pos_right hlt hd
      _ = (2 * d * m + d) * d' := by ring

/-- A share of `m` is the whole of `m` exactly when what is left out weighs at most a half. -/
theorem halfUp_share_eq_whole_iff {s : ℕ} (hs : s ≤ d) :
    halfUp (m * s) d = m ↔ 2 * (m * (d - s)) ≤ d := by
  obtain ⟨r, rfl⟩ := Nat.exists_eq_add_of_le hs
  rw [halfUp_eq_iff hd, Nat.add_sub_cancel_left]
  have hexp : 2 * (s + r) * m = 2 * (m * s) + 2 * (m * r) := by ring
  rw [hexp]
  omega

theorem halfUp_share_le {s : ℕ} (hs : s ≤ d) : halfUp (m * s) d ≤ m :=
  (halfUp_mono hd (Nat.mul_le_mul_left m hs)).trans (halfUp_mul_self hd).le

end

/-- The quotient of an integer rounded to the nearest, a half going away from zero. -/
def nearest (n : ℤ) (d : ℕ) : ℤ :=
  if n < 0 then -(halfUp n.natAbs d : ℤ) else halfUp n.natAbs d

theorem nearest_natCast (n d : ℕ) : nearest n d = halfUp n d := by
  rw [nearest, if_neg (by omega), Int.natAbs_natCast]

theorem nearest_bound (n : ℤ) (hd : 0 < d) :
    2 * n - d ≤ 2 * (d * nearest n d) ∧ 2 * (d * nearest n d) ≤ 2 * n + d := by
  obtain ⟨hle, hlt⟩ := (halfUp_eq_iff (n := n.natAbs) hd).1 rfl
  have hle' : 2 * ((d : ℤ) * halfUp n.natAbs d) ≤ 2 * n.natAbs + d := by
    rw [← mul_assoc]
    exact_mod_cast hle
  have hlt' : 2 * (n.natAbs : ℤ) < 2 * ((d : ℤ) * halfUp n.natAbs d) + d := by
    rw [← mul_assoc]
    exact_mod_cast hlt
  unfold nearest
  split_ifs with hneg
  · rw [mul_neg]
    omega
  · omega

/-- What the rounding leaves over, below a half when it went down and negative when it went up. -/
def rest (n d : ℕ) : ℤ := if d ≤ n % d * 2 then (n % d : ℕ) - d else (n % d : ℕ)

theorem halfUp_add_rest (n d : ℕ) : (d : ℤ) * halfUp n d + rest n d = n := by
  have hdiv : (d : ℤ) * (n / d : ℕ) + (n % d : ℕ) = n := by
    exact_mod_cast Nat.div_add_mod n d
  unfold halfUp rest
  split_ifs
  · push_cast at hdiv ⊢
    linarith
  · exact hdiv

theorem rest_of_dvd (hd : 0 < d) (h : d ∣ n) : rest n d = 0 := by
  rw [rest, Nat.mod_eq_zero_of_dvd h, if_neg (by omega), Nat.cast_zero]

end Rounding

end Loxep

import Mathlib.Data.List.Induction
import Mathlib.Data.Nat.Bitwise
import Mathlib.Tactic.Ring

/-!
# Address blocks

An address packs groups of bits, the first on top. Two addresses agree under a mask of the top bits
when they agree shifted past the rest, and the shifted address packs the top groups alone.
-/

namespace Loxep

namespace Cidr

/-- The groups of `k` bits, one after another. -/
def pack (k : ℕ) (groups : List ℕ) : ℕ := groups.foldl (fun value group => value <<< k ||| group) 0

variable {k : ℕ}

variable {group a b : ℕ}

theorem shift_or_eq {value : ℕ} (h : group < 2 ^ k) :
    value <<< k ||| group = value * 2 ^ k + group := by
  rw [← Nat.shiftLeft_add_eq_or_of_lt h, Nat.shiftLeft_eq]

theorem pack_concat (groups : List ℕ) (h : group < 2 ^ k) :
    pack k (groups ++ [group]) = pack k groups * 2 ^ k + group := by
  rw [pack, List.foldl_append]
  exact shift_or_eq h

@[simp] theorem pack_nil : pack k [] = 0 := rfl

theorem pack_singleton (h : group < 2 ^ k) : pack k [group] = group := by
  simpa using pack_concat [] h

theorem pack_pair (ha : a < 2 ^ k) (hb : b < 2 ^ k) :
    pack k [a, b] = a * 2 ^ k + b := by
  have := pack_concat [a] hb
  rwa [pack_singleton ha] at this

theorem pack_triple {c : ℕ} (ha : a < 2 ^ k) (hb : b < 2 ^ k) (hc : c < 2 ^ k) :
    pack k [a, b, c] = (a * 2 ^ k + b) * 2 ^ k + c := by
  have := pack_concat [a, b] hc
  rwa [pack_pair ha hb] at this

theorem pack_shiftRight (front back : List ℕ) (h : ∀ group ∈ back, group < 2 ^ k) :
    pack k (front ++ back) >>> (k * back.length) = pack k front := by
  induction back using List.reverseRecOn with
  | nil => simp
  | append_singleton back group ih =>
    have hlast : group < 2 ^ k := h group (by simp)
    have hrest : ∀ g ∈ back, g < 2 ^ k := fun g hg => h g (by simp [hg])
    have hlength : k * (back ++ [group]).length = k + k * back.length := by
      simp only [List.length_append, List.length_singleton]
      ring
    have hshift : (pack k (front ++ back) * 2 ^ k + group) >>> k = pack k (front ++ back) := by
      rw [Nat.shiftRight_eq_div_pow, Nat.mul_comm, Nat.mul_add_div (Nat.two_pow_pos k),
        Nat.div_eq_of_lt hlast, add_zero]
    rw [← List.append_assoc, pack_concat _ hlast, hlength, Nat.shiftRight_add, hshift, ih hrest]

theorem pack_lt (groups : List ℕ) (h : ∀ group ∈ groups, group < 2 ^ k) :
    pack k groups < 2 ^ (k * groups.length) := by
  have hzero := pack_shiftRight [] groups h
  rw [List.nil_append, pack_nil, Nat.shiftRight_eq_div_pow] at hzero
  exact (Nat.div_eq_zero_iff_lt (Nat.two_pow_pos _)).1 hzero

theorem and_eq_and_iff {w h mask x y : ℕ} (hmask : ∀ i < w, mask.testBit i = decide (h ≤ i))
    (hx : x < 2 ^ w) (hy : y < 2 ^ w) : x &&& mask = y &&& mask ↔ x >>> h = y >>> h := by
  have hhigh : ∀ {z : ℕ}, z < 2 ^ w → ∀ {i : ℕ}, w ≤ i → z.testBit i = false := by
    intro z hz i hi
    exact Nat.testBit_lt_two_pow (hz.trans_le (Nat.pow_le_pow_right Nat.two_pos hi))
  constructor
  · intro hand
    refine Nat.eq_of_testBit_eq fun i => ?_
    rw [Nat.testBit_shiftRight, Nat.testBit_shiftRight]
    by_cases hi : h + i < w
    · have hbit := congrArg (Nat.testBit · (h + i)) hand
      simp only [Nat.testBit_and, hmask _ hi] at hbit
      simpa using hbit
    · rw [hhigh hx (by omega), hhigh hy (by omega)]
  · intro hshift
    refine Nat.eq_of_testBit_eq fun i => ?_
    rw [Nat.testBit_and, Nat.testBit_and]
    by_cases hi : i < w
    · rw [hmask i hi]
      by_cases hle : h ≤ i
      · have hbit := congrArg (Nat.testBit · (i - h)) hshift
        simp only [Nat.testBit_shiftRight, Nat.add_sub_cancel' hle] at hbit
        rw [hbit]
      · simp [hle]
    · rw [hhigh hx (by omega), hhigh hy (by omega)]

end Cidr

end Loxep

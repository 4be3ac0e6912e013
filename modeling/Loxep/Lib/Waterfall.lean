import Mathlib.Algebra.Order.BigOperators.Group.List
import Mathlib.Algebra.Order.Group.MinMax

/-!
# Filling in order

An amount is poured into a list of vessels, each filled up before the next one is reached. What
is poured is the amount or all the room there is, and only the last vessel poured into can be
left partly empty.
-/

namespace Loxep

namespace Waterfall

variable {ι α : Type*} [AddCommGroup α] [LinearOrder α]

/-- What each vessel reached takes of the amount, given the room in each. -/
def pour (room : ι → α) : List ι → α → List (ι × α)
  | [], _ => []
  | i :: is, amount =>
    if amount ≤ 0 then []
    else if room i ≤ 0 then pour room is amount
    else (i, min (room i) amount) :: pour room is (amount - min (room i) amount)

/-- How much was poured. -/
def poured (room : ι → α) (is : List ι) (amount : α) : α :=
  ((pour room is amount).map Prod.snd).sum

section Pour

variable {room room' : ι → α} {is : List ι} {amount : α}

theorem pour_of_nonpos (h : amount ≤ 0) : pour room is amount = [] := by
  cases is with
  | nil => rfl
  | cons i is => exact if_pos h

theorem pour_skip {i : ι} (h : room i ≤ 0) : pour room (i :: is) amount = pour room is amount := by
  by_cases hamount : amount ≤ 0
  · rw [pour_of_nonpos hamount, pour_of_nonpos hamount]
  · rw [pour, if_neg hamount, if_pos h]

theorem pour_cons {i : ι} (hamount : 0 < amount) (h : 0 < room i) :
    pour room (i :: is) amount =
      (i, min (room i) amount) :: pour room is (amount - min (room i) amount) := by
  rw [pour, if_neg (not_le.2 hamount), if_neg (not_le.2 h)]

theorem pour_congr : ∀ {is : List ι} {amount : α}, (∀ i ∈ is, room i = room' i) →
    pour room is amount = pour room' is amount
  | [], _, _ => rfl
  | i :: is, amount, h => by
    have ih : ∀ rest, pour room is rest = pour room' is rest := fun rest =>
      pour_congr fun j hj => h j (List.mem_cons_of_mem _ hj)
    simp only [pour, h i List.mem_cons_self, ih]

theorem mem_pour : ∀ {is : List ι} {amount : α} {p : ι × α}, p ∈ pour room is amount →
    p.1 ∈ is ∧ 0 < p.2 ∧ p.2 ≤ room p.1
  | [], _, _, h => by simp [pour] at h
  | i :: is, amount, p, h => by
    by_cases hamount : amount ≤ 0
    · simp [pour_of_nonpos hamount] at h
    by_cases hroom : room i ≤ 0
    · rw [pour_skip hroom] at h
      obtain ⟨hmem, hp⟩ := mem_pour h
      exact ⟨List.mem_cons_of_mem _ hmem, hp⟩
    rw [pour_cons (not_le.1 hamount) (not_le.1 hroom)] at h
    rcases List.mem_cons.1 h with rfl | h
    · exact ⟨List.mem_cons_self, lt_min (not_le.1 hroom) (not_le.1 hamount), min_le_left _ _⟩
    · obtain ⟨hmem, hp⟩ := mem_pour h
      exact ⟨List.mem_cons_of_mem _ hmem, hp⟩

theorem pour_pairwise : ∀ {is : List ι} {amount : α},
    (pour room is amount).Pairwise fun p _ => p.2 = room p.1
  | [], _ => List.Pairwise.nil
  | i :: is, amount => by
    by_cases hamount : amount ≤ 0
    · rw [pour_of_nonpos hamount]
      exact List.Pairwise.nil
    by_cases hroom : room i ≤ 0
    · rw [pour_skip hroom]
      exact pour_pairwise
    rw [pour_cons (not_le.1 hamount) (not_le.1 hroom)]
    refine List.Pairwise.cons (fun p hp => ?_) pour_pairwise
    by_cases hle : room i ≤ amount
    · exact min_eq_left hle
    · have hempty : amount - min (room i) amount ≤ 0 := by
        rw [min_eq_right (not_le.1 hle).le, sub_self]
      simp [pour_of_nonpos hempty] at hp

variable [IsOrderedAddMonoid α]

theorem poured_eq : ∀ {is : List ι} {amount : α}, 0 ≤ amount →
    poured room is amount = min amount (is.map fun i => max 0 (room i)).sum
  | [], amount, h => by simp [poured, pour, h]
  | i :: is, amount, h => by
    have hrest : 0 ≤ (is.map fun i => max 0 (room i)).sum := by
      refine List.sum_nonneg fun x hx => ?_
      obtain ⟨j, -, rfl⟩ := List.mem_map.1 hx
      exact le_max_left _ _
    rw [List.map_cons, List.sum_cons]
    by_cases hroom : room i ≤ 0
    · rw [max_eq_left hroom, zero_add, poured, pour_skip hroom]
      exact poured_eq h
    rw [max_eq_right (not_le.1 hroom).le]
    rcases h.eq_or_lt with rfl | hamount
    · rw [poured, pour_of_nonpos le_rfl, List.map_nil, List.sum_nil, min_eq_left]
      exact add_nonneg (not_le.1 hroom).le hrest
    rw [poured, pour_cons hamount (not_le.1 hroom), List.map_cons, List.sum_cons]
    change min (room i) amount + poured room is (amount - min (room i) amount) = _
    rw [poured_eq (sub_nonneg.2 (min_le_right _ _))]
    by_cases hle : room i ≤ amount
    · rw [min_eq_left hle, ← min_add_add_left, add_sub_cancel]
    · have hlt := (not_le.1 hle).le
      rw [min_eq_right hlt, sub_self, min_eq_left hrest, add_zero, min_eq_left]
      exact hlt.trans (le_add_of_nonneg_right hrest)

end Pour

end Waterfall

end Loxep

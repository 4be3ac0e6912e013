import Mathlib.Data.List.Induction
import Mathlib.Data.List.Sort
import Mathlib.Algebra.Order.BigOperators.Group.List
import Mathlib.Data.Int.Basic
import Mathlib.Tactic.Ring

/-!
# Increments of a cumulative quantity

Entries have distinct keys, which put them in order, and each adds a quantity. A function of the
quantity so far goes up by some amount at every entry, and the increments telescope in whatever
order the entries are listed.
-/

namespace Loxep

namespace Increments

variable {α κ : Type*} [LinearOrder κ] (key : α → κ) (q : α → ℤ)

/-- What the entries before `a` have added. -/
def before (l : List α) (a : α) : ℤ := ((l.filter fun b => key b < key a).map q).sum

variable {key q} {l l' : List α}

theorem before_perm (h : l.Perm l') (a : α) : before key q l a = before key q l' a :=
  ((h.filter _).map q).sum_eq

theorem before_append_of_lt {a x : α} (h : key a < key x) :
    before key q (l ++ [x]) a = before key q l a := by
  have : ¬ key x < key a := not_lt.2 h.le
  simp [before, this]

theorem before_last {x : α} (h : ∀ a ∈ l, key a < key x) :
    before key q (l ++ [x]) x = (l.map q).sum := by
  have hl : l.filter (fun b => key b < key x) = l :=
    List.filter_eq_self.2 fun b hb => decide_eq_true (h b hb)
  simp [before, hl]

theorem before_add_le {a : α} (ha : a ∈ l) (hq : ∀ b ∈ l, 0 ≤ q b) :
    before key q l a + q a ≤ (l.map q).sum := by
  obtain ⟨l₁, l₂, rfl⟩ := List.append_of_mem ha
  have hle : ∀ l' ⊆ l₁ ++ a :: l₂, ((l'.filter fun b => key b < key a).map q).sum ≤
      (l'.map q).sum := by
    intro l' hsub
    refine (List.filter_sublist.map q).sum_le_sum fun x hx => ?_
    obtain ⟨b, hb, rfl⟩ := List.mem_map.1 hx
    exact hq b (hsub hb)
  have h₁ := hle l₁ (List.subset_append_left _ _)
  have h₂ := hle l₂ fun b hb => List.mem_append_right _ (List.mem_cons_of_mem _ hb)
  simp only [before, List.filter_append, List.filter_cons, lt_irrefl, decide_false,
    List.map_append, List.sum_append, List.map_cons, List.sum_cons]
  simp only [Bool.false_eq_true, if_false]
  omega

variable (F : ℤ → ℤ)

section

variable (h : l.Pairwise fun a b => key a < key b)
include h

theorem sum_increments_of_pairwise :
    (l.map fun a => F (before key q l a + q a) - F (before key q l a)).sum =
      F (l.map q).sum - F 0 := by
  induction l using List.reverseRecOn with
  | nil => simp
  | append_singleton l x ih =>
    obtain ⟨hl, -, hlast⟩ := List.pairwise_append.1 h
    have hlt : ∀ a ∈ l, key a < key x := fun a ha => hlast a ha x (List.mem_singleton_self x)
    have hsame : l.map (fun a => F (before key q (l ++ [x]) a + q a) -
        F (before key q (l ++ [x]) a)) =
        l.map fun a => F (before key q l a + q a) - F (before key q l a) :=
      List.map_congr_left fun a ha => by rw [before_append_of_lt (hlt a ha)]
    rw [List.map_append, List.sum_append, hsame, ih hl]
    simp only [List.map_cons, List.map_nil, List.sum_cons, List.sum_nil, List.map_append,
      List.sum_append, before_last hlt, add_zero]
    ring

theorem before_take {k : ℕ} {a : α} (ha : a ∈ l.take k)
    : before key q l a = before key q (l.take k) a := by
  rw [← List.take_append_drop k l, List.pairwise_append] at h
  have hdrop : (l.drop k).filter (fun b => key b < key a) = [] := by
    refine List.filter_eq_nil_iff.2 fun b hb => ?_
    simpa using (h.2.2 a ha b hb).le
  have hsplit : l.filter (fun b => key b < key a) =
      (l.take k).filter fun b => key b < key a := by
    conv_lhs => rw [← List.take_append_drop k l, List.filter_append, hdrop, List.append_nil]
  rw [before, before, hsplit]

theorem sum_increments_take (k : ℕ) :
    ((l.take k).map fun a => F (before key q l a + q a) - F (before key q l a)).sum =
      F ((l.take k).map q).sum - F 0 := by
  rw [← sum_increments_of_pairwise F (h.sublist (List.take_sublist k l))]
  refine congrArg List.sum (List.map_congr_left fun a ha => ?_)
  rw [before_take h ha]

end

theorem sorted_strictly (hkeys : (l.map key).Nodup) :
    (l.insertionSort fun a b => key a ≤ key b).Pairwise fun a b => key a < key b := by
  have hperm : (l.insertionSort fun a b => key a ≤ key b).Perm l := List.perm_insertionSort _ l
  have hle : (l.insertionSort fun a b => key a ≤ key b).Pairwise fun a b => key a ≤ key b :=
    List.pairwise_insertionSort _ l
  have hne : (l.insertionSort fun a b => key a ≤ key b).Pairwise fun a b => key a ≠ key b :=
    List.pairwise_map.1 ((hperm.map key).nodup_iff.2 hkeys)
  exact (hle.and hne).imp fun h => lt_of_le_of_ne h.1 h.2

/-- The increments sum to what the whole quantity comes to. -/
theorem sum_increments (hkeys : (l.map key).Nodup) :
    (l.map fun a => F (before key q l a + q a) - F (before key q l a)).sum =
      F (l.map q).sum - F 0 := by
  have hperm : (l.insertionSort fun a b => key a ≤ key b).Perm l := List.perm_insertionSort _ l
  have hsorted := sorted_strictly hkeys
  have hsum := @sum_increments_of_pairwise α κ _ key q _ F hsorted
  rw [(hperm.map q).sum_eq] at hsum
  rw [← hsum, ← (hperm.map _).sum_eq]
  simp only [before_perm hperm]

end Increments

end Loxep

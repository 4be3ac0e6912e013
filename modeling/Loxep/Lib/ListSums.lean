import Mathlib.Algebra.BigOperators.Group.List.Basic
import Mathlib.Algebra.Order.BigOperators.Group.List
import Mathlib.Algebra.Order.Group.Abs
import Mathlib.Algebra.Order.Group.Int
import Mathlib.Algebra.Order.Monoid.Defs
import Mathlib.Algebra.Ring.Int.Defs
import Mathlib.Data.List.Dedup
import Mathlib.Data.List.Nodup

/-!
# Rows under keys, and sums over them

A table is a list of rows with a key that no two of them share. A sum over it is read as a sum
over all rows, in which a row that does not count contributes nothing; it changes by what the one
row that changed contributes.
-/

namespace Loxep

variable {α β M : Type*}

variable {f : α → β} {l : List α} {a : α} {γ : Type*}

theorem nodup_map_concat (h : (l.map f).Nodup) (ha : f a ∉ l.map f) : ((l ++ [a]).map f).Nodup := by
  rw [List.map_append, List.map_singleton, ← List.concat_eq_append]
  exact h.concat ha

theorem notMem_of_nodup_concat (h : ((l ++ [a]).map f).Nodup) : f a ∉ l.map f := by
  rw [List.map_append, List.map_singleton, List.nodup_append] at h
  exact fun ha => h.2.2 _ ha _ (List.mem_singleton_self _) rfl

theorem map_mapIdx (g : β → γ) (f : ℕ → α → β) (l : List α) :
    (l.mapIdx f).map g = l.mapIdx fun i a => g (f i a) := by
  refine List.ext_getElem? fun i => ?_
  rw [List.getElem?_map, List.getElem?_mapIdx, List.getElem?_mapIdx, Option.map_map]
  rfl

theorem map_mapIdx_eq_map {f : ℕ → α → β} {g : β → γ} {h : α → γ} (hg : ∀ i a, g (f i a) = h a)
    (l : List α) : (l.mapIdx f).map g = l.map h := by
  refine List.ext_getElem? fun i => ?_
  rw [List.getElem?_map, List.getElem?_mapIdx, List.getElem?_map, Option.map_map]
  exact congrFun (congrArg _ (funext fun a => hg i a)) _

theorem nodup_mapIdx {f : ℕ → α → β} (hf : ∀ i j a b, f i a = f j b → i = j) (l : List α) :
    (l.mapIdx f).Nodup := by
  rw [List.nodup_iff_pairwise_ne, List.pairwise_iff_getElem]
  intro i j hi hj hlt heq
  rw [List.getElem_mapIdx, List.getElem_mapIdx] at heq
  exact absurd (hf _ _ _ _ heq) hlt.ne

theorem zipWith_eq_map {f : α → β → γ} {g : α → γ} {p : α → M} {q : β → M} :
    ∀ {xs : List α} {ys : List β}, ys.map q = xs.map p →
      (∀ x, ∀ y ∈ ys, q y = p x → f x y = g x) → xs.zipWith f ys = xs.map g
  | [], _, _, _ => List.zipWith_nil_left
  | _ :: _, [], h, _ => by cases h
  | x :: xs, y :: ys, h, hfg => by
    rw [List.map_cons, List.map_cons, List.cons.injEq] at h
    rw [List.zipWith_cons_cons, List.map_cons, hfg x y List.mem_cons_self h.1,
      zipWith_eq_map h.2 fun x' y' hy' => hfg x' y' (List.mem_cons_of_mem y hy')]

theorem find_of_nodup_map [DecidableEq β] (h : (l.map f).Nodup) (ha : a ∈ l)
    : l.find? (f · == f a) = some a := by
  cases hfind : l.find? (f · == f a) with
  | none => simpa using List.find?_eq_none.1 hfind a ha
  | some b =>
    have hb := List.find?_some hfind
    rw [List.inj_on_of_nodup_map h (List.mem_of_find?_eq_some hfind) ha (beq_iff_eq.1 hb)]

theorem filter_key_eq [DecidableEq β] (h : (l.map f).Nodup) (ha : a ∈ l)
    : l.filter (f · == f a) = [a] := by
  induction l with
  | nil => cases ha
  | cons b l ih =>
    obtain ⟨hb, h⟩ := List.nodup_cons.1 h
    rcases List.mem_cons.1 ha with rfl | ha
    · have hnil : l.filter (f · == f a) = [] := by
        rw [List.filter_eq_nil_iff]
        intro c hc hkey
        have hmem : f c ∈ l.map f := List.mem_map_of_mem hc
        rw [eq_of_beq hkey] at hmem
        exact hb hmem
      rw [List.filter_cons, if_pos (beq_self_eq_true _), hnil]
    · have hne : f b ≠ f a := by
        intro hkey
        have hmem : f a ∈ l.map f := List.mem_map_of_mem ha
        rw [← hkey] at hmem
        exact hb hmem
      rw [List.filter_cons, if_neg (by simpa using hne), ih h ha]

theorem sum_mapIdx_getD [AddCommMonoid M] : ∀ {l : List α} {shares : List M} (f : ℕ → α → M),
    shares.length = l.length →
      (l.mapIdx fun k a => f k a + (shares[k]?).getD 0).sum = (l.mapIdx f).sum + shares.sum
  | [], [], _, _ => by simp
  | a :: l, s :: shares, f, h => by
    rw [List.mapIdx_cons, List.mapIdx_cons, List.sum_cons, List.sum_cons, List.sum_cons]
    simp only [List.getElem?_cons_succ, List.getElem?_cons_zero, Option.getD_some]
    rw [sum_mapIdx_getD _ (Nat.succ_injective h), add_add_add_comm]

theorem sum_map_filter [AddCommMonoid M] (l : List α) (p : α → Bool) (f : α → M) :
    ((l.filter p).map f).sum = (l.map fun x => if p x then f x else 0).sum := by
  rw [List.sum_map_ite]
  simp

theorem sum_map_filter_add_not [AddCommMonoid M] (l : List α) (p : α → Bool) (f : α → M) :
    ((l.filter p).map f).sum + ((l.filter fun x => !p x).map f).sum = (l.map f).sum := by
  rw [sum_map_filter, sum_map_filter, ← List.sum_map_add]
  refine congrArg List.sum (List.map_congr_left fun x _ => ?_)
  cases p x <;> simp

theorem sum_map_single [AddCommMonoid M] (hl : l.Nodup) (ha : a ∈ l) {f : α → M}
    (hf : ∀ x ∈ l, x ≠ a → f x = 0) : (l.map f).sum = f a := by
  classical
  rw [List.sum_map_eq_nsmul_single a f fun x hne hx => hf x hx hne,
    List.count_eq_one_of_mem hl ha, one_nsmul]

theorem sum_map_change [AddCommGroup M] (hl : l.Nodup) (ha : a ∈ l) {f g : α → M}
    (hfg : ∀ x ∈ l, x ≠ a → f x = g x) :
    (l.map f).sum = (l.map g).sum + (f a - g a) := by
  have hdiff : (l.map fun x => f x - g x).sum = f a - g a :=
    sum_map_single hl ha fun x hx hne => sub_eq_zero.2 (hfg x hx hne)
  have hsplit : l.map f = l.map fun x => g x + (f x - g x) :=
    List.map_congr_left fun x _ => (add_sub_cancel (g x) (f x)).symm
  rw [hsplit, List.sum_map_add, hdiff]

theorem sum_map_filter_ne [AddCommGroup M] [DecidableEq β] {key : α → β} {f : α → M}
    (hkeys : (l.map key).Nodup) (ha : a ∈ l) :
    ((l.filter (key · != key a)).map f).sum = (l.map f).sum - f a := by
  have hothers : ∀ x ∈ l, x ≠ a → (if (key x != key a) = true then f x else 0) = f x := by
    intro x hx hne
    have hk : key x ≠ key a := fun hk => hne (List.inj_on_of_nodup_map hkeys hx ha hk)
    exact if_pos (bne_iff_ne.2 hk)
  rw [sum_map_filter, sum_map_change hkeys.of_map ha hothers]
  simp [sub_eq_add_neg]

/-- The sums of the groups of some keys are the sum of the rows under one of the keys. -/
theorem sum_map_groups [AddCommMonoid M] [DecidableEq β] (l : List α) (key : α → β) (f : α → M) :
    ∀ {keys : List β}, keys.Nodup →
      (keys.map fun k => ((l.filter fun x => key x == k).map f).sum).sum =
        ((l.filter fun x => decide (key x ∈ keys)).map f).sum
  | [], _ => by simp
  | k :: keys, h => by
    obtain ⟨hk, hkeys⟩ := List.nodup_cons.1 h
    rw [List.map_cons, List.sum_cons, sum_map_groups l key f hkeys, sum_map_filter, sum_map_filter,
      sum_map_filter, ← List.sum_map_add]
    refine congrArg List.sum (List.map_congr_left fun x _ => ?_)
    by_cases hx : key x = k
    · simp [hx, hk]
    · simp [hx]

theorem sum_map_dedup_groups [AddCommMonoid M] [DecidableEq β] (l : List α) (key : α → β)
    (f : α → M) : ((l.map key).dedup.map fun k =>
      ((l.filter fun x => key x == k).map f).sum).sum = (l.map f).sum := by
  have hall : (l.filter fun x => decide (key x ∈ (l.map key).dedup)) = l := by
    rw [List.filter_eq_self]
    intro x hx
    simpa using ⟨x, hx, rfl⟩
  rw [sum_map_groups l key f (List.nodup_dedup (l.map key)), hall]

theorem sum_map_eq_zero_of_groups [AddCommMonoid M] [DecidableEq β] {key : α → β} {f : α → M}
    (h : ∀ k, ((l.filter fun x => key x == k).map f).sum = 0) : (l.map f).sum = 0 := by
  rw [← sum_map_dedup_groups l key f]
  refine List.sum_eq_zero fun y hy => ?_
  obtain ⟨k, -, rfl⟩ := List.mem_map.1 hy
  exact h k

theorem sum_eq_iff_of_le {f g : α → ℤ} : ∀ {l : List α}, (∀ a ∈ l, f a ≤ g a) →
    ((l.map f).sum = (l.map g).sum ↔ ∀ a ∈ l, f a = g a)
  | [], _ => by simp
  | a :: l, h => by
    obtain ⟨ha, hl⟩ := List.forall_mem_cons.1 h
    have hle : (l.map f).sum ≤ (l.map g).sum := List.sum_le_sum hl
    rw [List.map_cons, List.map_cons, List.sum_cons, List.sum_cons, List.forall_mem_cons,
      ← sum_eq_iff_of_le hl]
    omega

theorem sum_eq_sum_abs_iff {l : List ℤ} : l.sum = (l.map fun x => |x|).sum ↔ ∀ x ∈ l, 0 ≤ x := by
  have h := @sum_eq_iff_of_le _ (fun x : ℤ => x) (fun x => |x|) l fun x _ => le_abs_self x
  rw [List.map_id'] at h
  rw [h]
  exact forall₂_congr fun x _ => eq_comm.trans abs_eq_self

theorem neg_sum_eq_sum_abs_iff {l : List ℤ} :
    -l.sum = (l.map fun x => |x|).sum ↔ ∀ x ∈ l, x ≤ 0 := by
  have h := @sum_eq_iff_of_le _ (fun x : ℤ => -x) (fun x => |x|) l fun x _ => neg_le_abs x
  rw [← List.sum_neg] at h
  rw [h]
  exact forall₂_congr fun x _ => eq_comm.trans abs_eq_neg_self

theorem sum_abs_le_abs_sum_iff {l : List ℤ} :
    (l.map fun x => |x|).sum ≤ |l.sum| ↔ (∀ x ∈ l, 0 ≤ x) ∨ ∀ x ∈ l, x ≤ 0 := by
  rw [← sum_eq_sum_abs_iff, ← neg_sum_eq_sum_abs_iff]
  constructor
  · have hpos : l.sum ≤ (l.map fun x => |x|).sum := by
      have h := List.sum_le_sum fun x (_ : x ∈ l) => le_abs_self x
      rwa [List.map_id'] at h
    have hneg : -l.sum ≤ (l.map fun x => |x|).sum := by
      rw [List.sum_neg]
      exact List.sum_le_sum fun x _ => neg_le_abs x
    intro hle
    rcases abs_cases l.sum with ⟨hsum, -⟩ | ⟨hsum, -⟩ <;> omega
  · rintro (h | h)
    · rw [← h]
      exact le_abs_self _
    · rw [← h]
      exact neg_le_abs _

theorem sum_filterMap_le [AddCommMonoid M] [PartialOrder M] [IsOrderedAddMonoid M]
    {f : α → Option β} {g : β → M} {h : α → M} (hnone : ∀ a ∈ l, 0 ≤ h a)
    (hsome : ∀ a ∈ l, ∀ b, f a = some b → g b ≤ h a) :
    ((l.filterMap f).map g).sum ≤ (l.map h).sum := by
  induction l with
  | nil => exact le_rfl
  | cons a l ih =>
    obtain ⟨ha, hl⟩ := List.forall_mem_cons.1 hnone
    obtain ⟨hfa, hfl⟩ := List.forall_mem_cons.1 hsome
    rw [List.filterMap_cons, List.map_cons, List.sum_cons]
    cases hf : f a with
    | none => exact (ih hl hfl).trans (le_add_of_nonneg_left ha)
    | some b =>
      rw [List.map_cons, List.sum_cons]
      exact add_le_add (hfa b hf) (ih hl hfl)

end Loxep

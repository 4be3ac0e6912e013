import Mathlib.Data.Finset.Card
import Mathlib.Data.List.Perm.Subperm
import Mathlib.Logic.Relation
import Mathlib.Order.MinMax

/-!
# Ancestors under a parent pointer

Rows that point at most at one parent. Where the pointers are ranked, and so acyclic, a walk with
as many steps as there are parents meets every ancestor. Redirecting one pointer gives new
ancestors only to what lies under it.
-/

namespace Loxep

namespace Ancestry

variable {α : Type*} (up : α → Option α)

/-- The ancestors met in so many steps, nearest first. -/
def ancestors : ℕ → α → List α
  | 0, _ => []
  | n + 1, x =>
    match up x with
    | none => []
    | some p => p :: ancestors n p

/-- `a` is an ancestor of `x`. -/
def Above (a x : α) : Prop := Relation.TransGen (fun y p => up y = some p) x a

/-- A parent stands lower in some rank. -/
def Ranked : Prop := ∃ rank : α → ℕ, ∀ x p, up x = some p → rank p < rank x

/-- The pointer of one row, set. -/
def redirect [DecidableEq α] (x : α) (parent : Option α) : α → Option α :=
  fun y => if y = x then parent else up y

variable {up} {a x y p : α}

theorem Above.parent (h : up x = some p) : Above up p x := .single h

theorem Above.step (h : up x = some p) (ha : Above up a p) : Above up a x := .head h ha

theorem above_iff (h : up x = some p) : Above up a x ↔ a = p ∨ Above up a p := by
  constructor
  · intro ha
    rcases Relation.TransGen.head'_iff.1 ha with ⟨z, hz, hrest⟩
    rw [h, Option.some.injEq] at hz
    rw [← hz] at hrest
    rcases Relation.reflTransGen_iff_eq_or_transGen.1 hrest with heq | htrans
    · exact .inl heq
    · exact .inr htrans
  · rintro (rfl | ha)
    · exact .parent h
    · exact .step h ha

theorem not_above_of_none (h : up x = none) : ¬ Above up a x := by
  intro ha
  obtain ⟨z, hz, -⟩ := Relation.TransGen.head'_iff.1 ha
  rw [h] at hz
  cases hz

theorem above_of_mem : ∀ {n : ℕ} {x : α}, a ∈ ancestors up n x → Above up a x
  | 0, _, h => by simp [ancestors] at h
  | n + 1, x, h => by
    rw [ancestors] at h
    split at h
    · cases h
    · rename_i p hp
      rcases List.mem_cons.1 h with rfl | h
      · exact .parent hp
      · exact .step hp (above_of_mem h)

section Ranked

variable {rank : α → ℕ} (hrank : ∀ x p, up x = some p → rank p < rank x)
include hrank

theorem rank_lt_of_above (h : Above up a x) : rank a < rank x := by
  induction h with
  | single h => exact hrank _ _ h
  | tail _ h ih => exact Nat.lt_trans (hrank _ _ h) ih

theorem ancestors_nodup : ∀ (n : ℕ) (x : α), (ancestors up n x).Nodup
  | 0, _ => List.nodup_nil
  | n + 1, x => by
    rw [ancestors]
    split
    · exact List.nodup_nil
    · rename_i p hp
      refine List.nodup_cons.2 ⟨fun h => ?_, ancestors_nodup n p⟩
      exact Nat.lt_irrefl _ (rank_lt_of_above hrank (above_of_mem h))

theorem mem_ancestors_of_rank : ∀ {n : ℕ} {x : α}, rank x ≤ n → Above up a x →
    a ∈ ancestors up n x
  | 0, x, hx, h => by
    have := rank_lt_of_above hrank h
    omega
  | n + 1, x, hx, h => by
    rcases hp : up x with _ | p
    · exact absurd h (not_above_of_none hp)
    · rw [ancestors, hp]
      rcases (above_iff hp).1 h with rfl | h
      · exact List.mem_cons_self
      · have hlt := hrank x p hp
        exact List.mem_cons_of_mem _ (mem_ancestors_of_rank (by omega) h)

end Ranked

theorem ancestors_take : ∀ {n m : ℕ} (x : α), n ≤ m →
    (ancestors up m x).take n = ancestors up n x
  | 0, m, x, _ => by simp [ancestors]
  | n + 1, 0, x, h => by omega
  | n + 1, m + 1, x, h => by
    rw [ancestors, ancestors]
    rcases hp : up x with _ | p
    · rfl
    · simp only [List.take_succ_cons]
      rw [ancestors_take p (by omega)]

variable {keys : List α}

/-- No line of ancestors is longer than the list of the parents. -/
theorem length_ancestors_le (hranked : Ranked up) (hkeys : ∀ x p, up x = some p → p ∈ keys) (n : ℕ)
    (x : α) :
    (ancestors up n x).length ≤ keys.length := by
  obtain ⟨rank, hrank⟩ := hranked
  refine (List.subperm_of_subset (ancestors_nodup hrank n x) fun b hb => ?_).length_le
  obtain ⟨z, -, hz⟩ := Relation.TransGen.tail'_iff.1 (above_of_mem hb)
  exact hkeys z b hz

theorem mem_ancestors_iff (hranked : Ranked up) (hkeys : ∀ x p, up x = some p → p ∈ keys) :
    a ∈ ancestors up keys.length x ↔ Above up a x := by
  refine ⟨above_of_mem, fun h => ?_⟩
  have hlength := length_ancestors_le hranked hkeys
  obtain ⟨rank, hrank⟩ := hranked
  have hmem := mem_ancestors_of_rank hrank (le_max_right keys.length (rank x)) h
  rw [← ancestors_take x (le_max_left keys.length (rank x)), List.take_of_length_le (hlength _ x)]
  exact hmem

theorem ancestors_eq_cons (hranked : Ranked up) (hkeys : ∀ x p, up x = some p → p ∈ keys)
    (h : up x = some p) :
    ancestors up keys.length x = p :: ancestors up keys.length p := by
  rw [← ancestors_take x (Nat.le_succ keys.length),
    List.take_of_length_le (length_ancestors_le hranked hkeys _ x), ancestors, h]

theorem ancestors_of_none (h : up x = none) : ∀ n : ℕ, ancestors up n x = []
  | 0 => rfl
  | _ + 1 => by rw [ancestors, h]

theorem ranked_of_irrefl (hkeys : ∀ x p, up x = some p → p ∈ keys) (h : ∀ x, ¬ Above up x x)
    : Ranked up := by
  classical
  refine ⟨fun x => (keys.toFinset.filter (Above up · x)).card, fun x p hp => ?_⟩
  refine Finset.card_lt_card (Finset.ssubset_iff_of_subset ?_ |>.2 ⟨p, ?_, ?_⟩)
  · intro a ha
    rw [Finset.mem_filter] at ha ⊢
    exact ⟨ha.1, .step hp ha.2⟩
  · rw [Finset.mem_filter, List.mem_toFinset]
    exact ⟨hkeys x p hp, .parent hp⟩
  · rw [Finset.mem_filter]
    exact fun hmem => h p hmem.2

theorem Ranked.irrefl (h : Ranked up) : ¬ Above up x x := by
  obtain ⟨rank, hrank⟩ := h
  exact fun habove => Nat.lt_irrefl _ (rank_lt_of_above hrank habove)

section Redirect

variable [DecidableEq α] {parent : Option α}

theorem redirect_self : redirect up x parent x = parent := if_pos rfl

theorem redirect_of_ne (h : y ≠ x) : redirect up x parent y = up y := if_neg h

theorem redirect_same : redirect up x (up x) = up := by
  funext y
  unfold redirect
  split_ifs with h
  · rw [h]
  · rfl

theorem above_of_redirect (h : Above (redirect up x parent) a y) : Above up a y ∨
    ((y = x ∨ Above up x y) ∧ ∃ q, parent = some q ∧ (a = q ∨ Above up a q)) := by
  induction h using Relation.TransGen.head_induction_on with
  | @single z h =>
    by_cases hz : z = x
    · rw [hz, redirect_self] at h
      exact .inr ⟨.inl hz, a, h, .inl rfl⟩
    · rw [redirect_of_ne hz] at h
      exact .inl (.parent h)
  | @head z w h _ ih =>
    by_cases hz : z = x
    · rw [hz, redirect_self] at h
      rcases ih with ih | ⟨-, q, hq, hq'⟩
      · exact .inr ⟨.inl hz, w, h, .inr ih⟩
      · exact .inr ⟨.inl hz, q, hq, hq'⟩
    · rw [redirect_of_ne hz] at h
      rcases ih with ih | ⟨hw, hq⟩
      · exact .inl (.step h ih)
      · refine .inr ⟨.inr ?_, hq⟩
        rcases hw with rfl | hw
        · exact .parent h
        · exact .step h hw

theorem above_redirect_of_above (h : Above up x y) :
    y = x ∨ Above (redirect up x parent) x y := by
  induction h using Relation.TransGen.head_induction_on with
  | @single z h =>
    by_cases hz : z = x
    · exact .inl hz
    · exact .inr (.parent ((redirect_of_ne hz).trans h))
  | @head z w h _ ih =>
    by_cases hz : z = x
    · exact .inl hz
    · right
      rcases ih with rfl | ih
      · exact .parent ((redirect_of_ne hz).trans h)
      · exact .step ((redirect_of_ne hz).trans h) ih

theorem above_redirect_outside (h : Above up a y) (hne : y ≠ x) (hout : ¬ Above up x y) :
    Above (redirect up x parent) a y := by
  induction h using Relation.TransGen.head_induction_on with
  | single h => exact .parent ((redirect_of_ne hne).trans h)
  | head h _ ih =>
    refine .step ((redirect_of_ne hne).trans h) (ih ?_ fun hw => hout (.step h hw))
    rintro rfl
    exact hout (.parent h)

theorem above_redirect {q : α} (hq : q ≠ x) (hout : ¬ Above up x q) (hy : y = x ∨ Above up x y)
    (ha : a = q ∨ Above up a q) : Above (redirect up x (some q)) a y := by
  have hx : Above (redirect up x (some q)) a x := by
    rcases ha with rfl | ha
    · exact .parent redirect_self
    · exact .step redirect_self (above_redirect_outside ha hq hout)
  rcases hy with rfl | hy
  · exact hx
  · have hpath : y = x ∨ Above (redirect up x (some q)) x y := above_redirect_of_above hy
    rcases hpath with rfl | hpath
    · exact hx
    · exact Relation.TransGen.trans hpath hx

/-- A pointer that does not close a cycle keeps the ranks. -/
theorem ranked_redirect (h : Ranked up) (hout : ∀ q, parent = some q → q ≠ x ∧ ¬ Above up x q)
    : Ranked (redirect up x parent) := by
  classical
  obtain ⟨rank, hrank⟩ := h
  -- the subtree is lifted over the new parent
  obtain ⟨lift, hlift⟩ : ∃ lift : ℕ, ∀ q, parent = some q → rank q < lift := by
    cases parent with
    | none => exact ⟨0, by simp⟩
    | some q => exact ⟨rank q + 1, by simp⟩
  refine ⟨fun y => if y = x ∨ Above up x y then rank y + lift else rank y, fun y z hz => ?_⟩
  by_cases hy : y = x
  · rw [hy, redirect_self] at hz
    obtain ⟨hne, habove⟩ := hout z hz
    have hlt := hlift z hz
    simp only [if_neg (not_or.2 ⟨hne, habove⟩), if_pos (Or.inl hy)]
    omega
  · rw [redirect_of_ne hy] at hz
    have hlt := hrank y z hz
    have hiff : (z = x ∨ Above up x z) ↔ (y = x ∨ Above up x y) := by
      rw [above_iff hz, eq_comm (a := x)]
      tauto
    by_cases hin : y = x ∨ Above up x y
    · simp only [if_pos hin, if_pos (hiff.2 hin)]
      omega
    · simp only [if_neg hin, if_neg (mt hiff.1 hin)]
      exact hlt

end Redirect

/-- A row's ancestors are so many. -/
inductive Depth (up : α → Option α) : α → ℕ → Prop
  | root {x : α} (h : up x = none) : Depth up x 0
  | under {x p : α} {n : ℕ} (h : up x = some p) (hp : Depth up p n) : Depth up x (n + 1)

section Depth

variable {n m : ℕ}

theorem Depth.unique (h : Depth up x n) (h' : Depth up x m) : n = m := by
  induction h generalizing m with
  | root hx =>
    cases h' with
    | root => rfl
    | under hx' => simp [hx] at hx'
  | under hx _ ih =>
    cases h' with
    | root hx' => simp [hx] at hx'
    | under hx' hp' =>
      rw [hx, Option.some.injEq] at hx'
      rw [ih (hx' ▸ hp')]

theorem Depth.length_ancestors (h : Depth up x n) : ∀ {m : ℕ}, n ≤ m →
    (ancestors up m x).length = n := by
  induction h with
  | root hx =>
    intro m _
    rw [ancestors_of_none hx]
    rfl
  | under hx _ ih =>
    intro m hm
    obtain ⟨m, rfl⟩ : ∃ k, m = k + 1 := ⟨m - 1, by omega⟩
    rw [ancestors, hx, List.length_cons, ih (by omega)]

theorem Depth.ancestors_eq (h : Depth up x n) (hm : n ≤ m) :
    ancestors up m x = ancestors up n x := by
  rw [← ancestors_take x hm, List.take_of_length_le (h.length_ancestors hm).le]

theorem Ranked.exists_depth {keys : List α} (hranked : Ranked up)
    (hkeys : ∀ x p, up x = some p → p ∈ keys) (x : α) : ∃ n ≤ keys.length, Depth up x n := by
  have hbound := length_ancestors_le hranked hkeys
  obtain ⟨rank, hrank⟩ := hranked
  have hex : ∀ {r : ℕ} {x : α}, rank x ≤ r → ∃ n, Depth up x n := by
    intro r
    induction r with
    | zero =>
      intro x hx
      rcases hp : up x with _ | p
      · exact ⟨0, .root hp⟩
      · have := hrank x p hp
        omega
    | succ r ih =>
      intro x hx
      rcases hp : up x with _ | p
      · exact ⟨0, .root hp⟩
      · have hlt := hrank x p hp
        obtain ⟨n, hn⟩ := ih (show rank p ≤ r by omega)
        exact ⟨n + 1, .under hp hn⟩
  obtain ⟨n, hn⟩ := hex le_rfl
  have hlength := hbound n x
  rw [hn.length_ancestors le_rfl] at hlength
  exact ⟨n, hlength, hn⟩

variable [DecidableEq α] {parent : Option α} {k : ℕ}

theorem Depth.redirect_outside (h : Depth up y n) (hne : y ≠ x) (hout : ¬ Above up x y) :
    Depth (redirect up x parent) y n := by
  induction h with
  | root hy => exact .root ((redirect_of_ne hne).trans hy)
  | under hy _ ih =>
    refine .under ((redirect_of_ne hne).trans hy) (ih ?_ fun hp => hout (.step hy hp))
    rintro rfl
    exact hout (.parent hy)

theorem Depth.redirect_self {q : α} (h : Depth up q n) (hne : q ≠ x) (hout : ¬ Above up x q) :
    Depth (redirect up x (some q)) x (n + 1) :=
  .under Ancestry.redirect_self (h.redirect_outside hne hout)

theorem Depth.redirect_inside (hx : Depth up x m) (hx' : Depth (redirect up x parent) x k)
    (h : Depth up y n) :
    y = x ∨ Above up x y → m ≤ n ∧ Depth (redirect up x parent) y (n - m + k) := by
  induction h with
  | @root z hz =>
    rintro (rfl | habove)
    · obtain rfl := hx.unique (.root hz)
      exact ⟨le_rfl, by simpa using hx'⟩
    · exact absurd habove (not_above_of_none hz)
  | @under z p n hz hp ih =>
    intro hin
    by_cases heq : z = x
    · rw [heq] at hz ⊢
      obtain rfl := hx.unique (.under hz hp)
      exact ⟨le_rfl, by simpa using hx'⟩
    · have hpin : p = x ∨ Above up x p := by
        rcases hin with hin | habove
        · exact absurd hin heq
        · rcases (above_iff hz).1 habove with hxp | habove
          · exact .inl hxp.symm
          · exact .inr habove
      obtain ⟨hle, hdepth⟩ := ih hpin
      refine ⟨by omega, ?_⟩
      rw [show n + 1 - m + k = n - m + k + 1 by omega]
      exact .under ((redirect_of_ne heq).trans hz) hdepth

end Depth

end Ancestry

end Loxep

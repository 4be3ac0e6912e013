import Loxep.Lib.Runs
import Mathlib.Data.Finset.Card

/-!
# The stalest first

Every turn serves the first members in the order of a key and moves their keys behind those of the
others. A member that is passed over comes forward by as many as are served, so none is passed over
for longer than it takes to serve them all.
-/

namespace Loxep

namespace StalestFirst

variable {α κ : Type*} [LinearOrder κ] {members served : Finset α} {key key' : α → κ}
  {x y : α} {n : ℕ}

theorem rel_of_mem_take {r : α → α → Prop} {l : List α} (hl : l.Pairwise r) (hy : y ∈ l.take n)
    (hx : x ∈ l) (hnot : x ∉ l.take n) : r y x := by
  have hdrop : x ∈ l.drop n := by
    rw [← List.take_append_drop n l] at hx
    exact (List.mem_append.1 hx).resolve_left hnot
  rw [← List.take_append_drop n l] at hl
  exact (List.pairwise_append.1 hl).2.2 y hy x hdrop

/-- The members before this one. -/
def ahead (members : Finset α) (key : α → κ) (x : α) : Finset α :=
  members.filter fun y => key y < key x

theorem card_ahead_lt (hx : x ∈ members) : (ahead members key x).card < members.card := by
  refine Finset.card_lt_card (Finset.filter_ssubset.2 ⟨x, hx, ?_⟩)
  exact lt_irrefl _

/-- The first members are served, so many or all there are, and come last from then on; the others
stay as they are. -/
structure Turn (members served : Finset α) (key key' : α → κ) (n : ℕ) : Prop where
  subset : served ⊆ members
  filled : n ≤ served.card ∨ served = members
  first : ∀ y ∈ served, ∀ x ∈ members, x ∉ served → key y < key x
  keeps : ∀ x ∈ members, x ∉ served → key' x = key x
  last : ∀ y ∈ served, ∀ x ∈ members, x ∉ served → key' x < key' y

theorem Turn.card_ahead_add_le [DecidableEq α] (h : Turn members served key key' n)
    (hx : x ∈ members) (hnot : x ∉ served) :
    (ahead members key' x).card + n ≤ (ahead members key x).card := by
  have hfilled : n ≤ served.card := by
    rcases h.filled with hle | rfl
    · exact hle
    · exact absurd hx hnot
  have hserved : served ⊆ ahead members key x := fun y hy =>
    Finset.mem_filter.2 ⟨h.subset hy, h.first y hy x hx hnot⟩
  have hleft : ahead members key' x ⊆ ahead members key x \ served := by
    intro y hy
    obtain ⟨hmem, hlt⟩ := Finset.mem_filter.1 hy
    have hunserved : y ∉ served := fun hs => lt_asymm hlt (h.last y hs x hx hnot)
    rw [h.keeps y hmem hunserved, h.keeps x hx hnot] at hlt
    exact Finset.mem_sdiff.2 ⟨Finset.mem_filter.2 ⟨hmem, hlt⟩, hunserved⟩
  have hcard := Finset.card_le_card hleft
  have hle := Finset.card_le_card hserved
  rw [Finset.card_sdiff_of_subset hserved] at hcard
  omega

/-- In a run of turns that could serve them all, every member is served. -/
theorem exists_served [DecidableEq α] {S A : Type*} {step : S → A → S} {guard : S → A → Prop}
    {key : S → α → κ} {served : S → A → Finset α}
    (hturn : ∀ s a, guard s a → Turn members (served s a) (key s) (key (step s a)) n) {s : S}
    {actions : List A} (hm : Runs.Meets step guard s actions)
    (hlength : members.card ≤ actions.length * n) (hx : x ∈ members) :
    ∃ before a after, actions = before ++ a :: after ∧ guard (Runs.run step s before) a ∧
      x ∈ served (Runs.run step s before) a := by
  by_contra hnone
  have hpassed : ∀ {s : S} {actions : List A}, Runs.Meets step guard s actions →
      (∀ before a after, actions = before ++ a :: after →
        x ∉ served (Runs.run step s before) a) →
      actions.length * n ≤ (ahead members (key s) x).card := by
    intro s actions hm hnot
    induction actions generalizing s with
    | nil => simp
    | cons a actions ih =>
      have hrest := ih hm.2 fun before b after h => hnot (a :: before) b after (by rw [h]; rfl)
      have hfirst := (hturn s a hm.1).card_ahead_add_le hx (hnot [] a actions rfl)
      rw [List.length_cons, Nat.succ_mul]
      omega
  have hle := hpassed hm fun before a after h hserved => by
    have hmeets : Runs.Meets step guard s (before ++ a :: after) := h ▸ hm
    exact hnone ⟨before, a, after, h, (Runs.meets_append.1 hmeets).2.1, hserved⟩
  have hlt : (ahead members (key s) x).card < members.card := card_ahead_lt hx
  omega

end StalestFirst

end Loxep

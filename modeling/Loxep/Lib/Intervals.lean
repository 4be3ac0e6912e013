import Mathlib.Data.List.Chain
import Mathlib.Order.Lattice

/-!
# Half-open intervals in a row

A list of nonempty half-open intervals, each starting no earlier than the one before it ends. A
point lies in at most one of them, and every point between the ends lies in exactly one where
each interval starts at the end of the one before.
-/

namespace Loxep

namespace Intervals

variable {α : Type*} [LinearOrder α]

/-- How many of the intervals the point lies in. -/
def covers (l : List (α × α)) (d : α) : ℕ :=
  l.countP fun x => decide (x.1 ≤ d) && decide (d < x.2)

/-- Nonempty intervals in order, not overlapping. -/
structure InRow (l : List (α × α)) : Prop where
  nonempty : ∀ x ∈ l, x.1 < x.2
  ordered : l.IsChain fun x y => x.2 ≤ y.1

/-- Each interval starts where the one before it ends. -/
def Abut (l : List (α × α)) : Prop := l.IsChain fun x y => x.2 = y.1

variable {x y : α × α} {l : List (α × α)} {d : α}

theorem InRow.tail (h : InRow (x :: l)) : InRow l :=
  ⟨fun y hy => h.nonempty y (List.mem_cons_of_mem _ hy), h.ordered.tail⟩

theorem InRow.head_lt (h : InRow (x :: l)) : x.1 < x.2 := h.nonempty x List.mem_cons_self

theorem InRow.head_le (h : InRow (x :: y :: l)) : x.2 ≤ y.1 :=
  (List.isChain_cons_cons.1 h.ordered).1

theorem InRow.end_le : ∀ {l : List (α × α)} {x : α × α}, InRow (x :: l) → ∀ y ∈ l, x.2 ≤ y.1
  | [], _, _, y, hy => by simp at hy
  | z :: l, x, h, y, hy => by
    rcases List.mem_cons.1 hy with rfl | hy
    · exact h.head_le
    · exact (h.head_le.trans h.tail.head_lt.le).trans (InRow.end_le h.tail y hy)

theorem covers_cons_of_lt (hlt : d < x.2) (h : InRow (x :: l)) (hle : x.1 ≤ d) :
    covers (x :: l) d = 1 := by
  have hnone : l.countP (fun y => decide (y.1 ≤ d) && decide (d < y.2)) = 0 := by
    refine List.countP_eq_zero.2 fun y hy => ?_
    have hlater := hlt.trans_le (h.end_le y hy)
    simp [not_le.2 hlater]
  rw [covers, List.countP_cons_of_pos (by simp [hle, hlt]), hnone]

theorem covers_cons_of_ge (hge : x.2 ≤ d) : covers (x :: l) d = covers l d := by
  rw [covers, List.countP_cons_of_neg (by simp [hge])]
  rfl

theorem covers_of_before (h : InRow (x :: l)) (hlt : d < x.1) : covers (x :: l) d = 0 := by
  refine List.countP_eq_zero.2 fun y hy => ?_
  have hbefore : d < y.1 := by
    rcases List.mem_cons.1 hy with rfl | hy
    · exact hlt
    · exact (hlt.trans h.head_lt).trans_le (h.end_le y hy)
  simp [not_le.2 hbefore]

/-- The points from the first start to the last end, of a set that holds the ends, lie in exactly
one interval each if and only if no gap is left. -/
theorem covers_eq_one_iff {D : α → Prop} : ∀ {l : List (α × α)}, InRow l → (∀ x ∈ l, D x.2) →
    ((∀ d, D d → (∃ x ∈ l, x.1 ≤ d) → (∃ y ∈ l, d < y.2) → covers l d = 1) ↔ Abut l)
  | [], _, _ => by simp [Abut]
  | [x], h, _ => by
    refine iff_of_true ?_ (List.isChain_singleton _)
    rintro d - ⟨y, hy, hle⟩ ⟨z, hz, hlt⟩
    obtain rfl := List.mem_singleton.1 hy
    obtain rfl := List.mem_singleton.1 hz
    exact covers_cons_of_lt hlt h hle
  | x :: y :: l, h, hD => by
    have ih := covers_eq_one_iff h.tail fun z hz => hD z (List.mem_cons_of_mem _ hz)
    constructor
    · intro hall
      have habut : x.2 = y.1 := by
        refine h.head_le.eq_of_not_lt fun hgap => ?_
        have hend := hall x.2 (hD x List.mem_cons_self) ⟨x, List.mem_cons_self, h.head_lt.le⟩
          ⟨y, by simp, hgap.trans h.tail.head_lt⟩
        rw [covers_cons_of_ge le_rfl, covers_of_before h.tail hgap] at hend
        cases hend
      refine List.isChain_cons_cons.2 ⟨habut, ih.1 ?_⟩
      rintro d hd ⟨z, hz, hle⟩ ⟨w, hw, hlt⟩
      rw [← covers_cons_of_ge ((h.end_le z hz).trans hle)]
      exact hall d hd ⟨z, List.mem_cons_of_mem _ hz, hle⟩ ⟨w, List.mem_cons_of_mem _ hw, hlt⟩
    · intro habut d hd hstart hend
      obtain ⟨heq, hrest⟩ := List.isChain_cons_cons.1 habut
      by_cases hlt : d < x.2
      · refine covers_cons_of_lt hlt h ?_
        obtain ⟨z, hz, hle⟩ := hstart
        rcases List.mem_cons.1 hz with rfl | hz
        · exact hle
        · exact absurd ((h.end_le z hz).trans hle) (not_le.2 hlt)
      · rw [covers_cons_of_ge (not_lt.1 hlt)]
        refine ih.2 hrest d hd ⟨y, List.mem_cons_self, heq ▸ not_lt.1 hlt⟩ ?_
        obtain ⟨z, hz, hless⟩ := hend
        rcases List.mem_cons.1 hz with rfl | hz
        · exact absurd hless hlt
        · exact ⟨z, hz, hless⟩

end Intervals

end Loxep

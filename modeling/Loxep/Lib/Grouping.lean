import Mathlib.Data.List.Induction
import Mathlib.Data.List.Nodup
import Mathlib.Tactic.SplitIfs

/-!
# Rows gathered under keys

A map filled row by row: each row is added to what its key holds, and a key that is new begins
with nothing. What a key holds in the end is what its own rows add up to, in their order.
-/

namespace Loxep

namespace Grouping

variable {R K B : Type*} [DecidableEq K] (key : R → K) (add : B → R → B) (empty : B)

/-- The row is added under its key. -/
def addRow (groups : List (K × B)) (row : R) : List (K × B) :=
  if key row ∈ groups.map Prod.fst then
    groups.map fun group => if group.1 = key row then (group.1, add group.2 row) else group
  else groups ++ [(key row, add empty row)]

def group (rows : List R) : List (K × B) := rows.foldl (addRow key add empty) []

/-- The rows of a key. -/
def rowsOf (rows : List R) (k : K) : List R := rows.filter (key · = k)

variable {key add empty} {groups : List (K × B)} {rows : List R} {row : R} {k : K} {b : B}

theorem keys_addRow : (addRow key add empty groups row).map Prod.fst =
    if key row ∈ groups.map Prod.fst then groups.map Prod.fst
      else groups.map Prod.fst ++ [key row] := by
  unfold addRow
  split_ifs with h
  · rw [List.map_map]
    refine List.map_congr_left fun group _ => ?_
    rw [Function.comp_apply]
    split_ifs <;> rfl
  · rw [List.map_append, List.map_singleton]

theorem mem_keys_addRow : k ∈ (addRow key add empty groups row).map Prod.fst ↔
    k ∈ groups.map Prod.fst ∨ k = key row := by
  rw [keys_addRow]
  split_ifs with h
  · refine ⟨.inl, fun hk => ?_⟩
    rcases hk with hk | rfl
    · exact hk
    · exact h
  · rw [List.mem_append, List.mem_singleton]

theorem nodup_addRow (h : (groups.map Prod.fst).Nodup) :
    ((addRow key add empty groups row).map Prod.fst).Nodup := by
  rw [keys_addRow]
  split_ifs with hmem
  · exact h
  · refine List.nodup_append.2 ⟨h, List.nodup_singleton _, fun k hk k' hk' heq => ?_⟩
    rw [List.mem_singleton.1 hk'] at heq
    exact hmem (heq ▸ hk)

/-- Every key is there once, and holds what its rows add up to. -/
structure Gathers (key : R → K) (add : B → R → B) (empty : B) (rows : List R)
    (groups : List (K × B)) : Prop where
  keys : (groups.map Prod.fst).Nodup
  mem_keys : ∀ k, k ∈ groups.map Prod.fst ↔ k ∈ rows.map key
  holds : ∀ k b, (k, b) ∈ groups → b = (rowsOf key rows k).foldl add empty

theorem Gathers.addRow (h : Gathers key add empty rows groups) (row : R) :
    Gathers key add empty (rows ++ [row]) (addRow key add empty groups row) := by
  refine ⟨nodup_addRow h.keys, fun k => ?_, fun k b hb => ?_⟩
  · rw [mem_keys_addRow, h.mem_keys]
    simp
  · unfold rowsOf
    rw [List.filter_append]
    unfold Grouping.addRow at hb
    split_ifs at hb with hmem
    · obtain ⟨⟨k', b'⟩, hold, heq⟩ := List.mem_map.1 hb
      have hheld := h.holds k' b' hold
      by_cases hsame : k' = key row
      · rw [if_pos hsame] at heq
        obtain ⟨rfl, rfl⟩ := Prod.mk.inj heq
        rw [List.filter_cons_of_pos (by simpa using hsame.symm), List.filter_nil,
          List.foldl_append, List.foldl_cons, List.foldl_nil]
        exact congrArg (add · row) hheld
      · rw [if_neg hsame] at heq
        obtain ⟨rfl, rfl⟩ := Prod.mk.inj heq
        rw [List.filter_cons_of_neg (by simpa using Ne.symm hsame), List.filter_nil,
          List.append_nil]
        exact hheld
    · rcases List.mem_append.1 hb with hold | hnew
      · have hne : key row ≠ k := by
          rintro rfl
          exact hmem (List.mem_map.2 ⟨_, hold, rfl⟩)
        rw [List.filter_cons_of_neg (by simpa using hne), List.filter_nil, List.append_nil]
        exact h.holds k b hold
      · rw [List.mem_singleton] at hnew
        obtain ⟨rfl, rfl⟩ := Prod.mk.inj hnew
        have hnone : rows.filter (key · = key row) = [] := by
          rw [List.filter_eq_nil_iff]
          intro other hother heq
          refine hmem ((h.mem_keys _).2 (List.mem_map.2 ⟨other, hother, ?_⟩))
          simpa using heq
        rw [hnone, List.nil_append, List.filter_cons_of_pos (by simp), List.filter_nil,
          List.foldl_cons, List.foldl_nil]

theorem gathers_group (rows : List R) : Gathers key add empty rows (group key add empty rows) := by
  unfold group
  induction rows using List.reverseRecOn with
  | nil => exact ⟨List.nodup_nil, fun _ => Iff.rfl, fun _ _ h => absurd h List.not_mem_nil⟩
  | append_singleton rows row ih =>
    rw [List.foldl_append, List.foldl_cons, List.foldl_nil]
    exact ih.addRow row

end Grouping

end Loxep

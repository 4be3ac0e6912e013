import Mathlib.Data.List.Nodup

/-!
# Keyed tables

A table read and written under a key: the row of a key, the row written where it stands, and the
row inserted where the key is free and merged into the one that holds it otherwise.
-/

namespace Loxep

namespace KeyedTable

variable {R K : Type*} [DecidableEq K] (key : R → K)

/-- The row of a key. -/
def get (rows : List R) (k : K) : Option R := rows.find? (key · == k)

/-- The row of a key is written in its place. -/
def set (rows : List R) (k : K) (f : R → R) : List R :=
  rows.map fun row => if key row = k then f row else row

/-- The row goes in where its key is free, and into the row that holds it otherwise. -/
def upsert (rows : List R) (new : R) (merge : R → R) : List R :=
  if (get key rows (key new)).isSome then set key rows (key new) merge else rows ++ [new]

variable {key} {rows : List R} {new row : R} {k k' : K} {f : R → R}

theorem get_key (h : get key rows k = some row) : key row = k := by
  simpa using List.find?_some h

theorem get_mem (h : get key rows k = some row) : row ∈ rows := List.mem_of_find?_eq_some h

theorem get_eq_none : get key rows k = none ↔ ∀ row ∈ rows, key row ≠ k := by
  simp [get, List.find?_eq_none]

theorem get_map (hf : ∀ row, key (f row) = key row) :
    get key (rows.map f) k = (get key rows k).map f := by
  unfold get
  rw [List.find?_map]
  simp only [Function.comp_def, hf]

theorem get_set (hf : ∀ row, key row = k → key (f row) = k) :
    get key (set key rows k f) k' = if k' = k then (get key rows k').map f
      else get key rows k' := by
  have hkeys : ∀ row, key (if key row = k then f row else row) = key row := by
    intro row
    split_ifs with h
    · rw [hf row h, h]
    · rfl
  rw [set, get_map hkeys]
  rcases hfind : get key rows k' with _ | row
  · simp
  · have hrow : key row = k' := get_key hfind
    by_cases hk : k' = k
    · simp [hrow, hk]
    · simp [hrow, hk]

theorem set_set (hrow : key row = k) :
    set key (set key rows k fun _ => row) k (fun _ => row) = set key rows k fun _ => row := by
  unfold set
  rw [List.map_map]
  refine List.map_congr_left fun r _ => ?_
  by_cases h : key r = k
  · simp [h, hrow]
  · simp [h]

theorem get_append : get key (rows ++ [new]) k =
    (get key rows k).or (if key new = k then some new else none) := by
  unfold get
  rw [List.find?_append]
  by_cases h : key new = k
  · simp [h]
  · simp [h]

theorem get_upsert (hf : ∀ row, key row = key new → key (f row) = key new) :
    get key (upsert key rows new f) k = if k = key new
      then some (((get key rows k).map f).getD new) else get key rows k := by
  unfold upsert
  by_cases hk : k = key new
  · subst hk
    rw [if_pos rfl]
    rcases hrow : get key rows (key new) with _ | row
    · simp [get_append, hrow]
    · simp [get_set hf, hrow]
  · rw [if_neg hk]
    split_ifs with hsome
    · rw [get_set hf, if_neg hk]
    · rw [get_append, if_neg (Ne.symm hk), Option.or_none]

theorem map_key_upsert (hf : ∀ row, key (f row) = key row) : (upsert key rows new f).map key =
    if key new ∈ rows.map key then rows.map key else rows.map key ++ [key new] := by
  have hkeys : ∀ row, key (if key row = key new then f row else row) = key row := by
    intro row
    split_ifs
    · exact hf row
    · rfl
  have hsome : (get key rows (key new)).isSome ↔ key new ∈ rows.map key := by
    simp [get]
  by_cases h : key new ∈ rows.map key
  · rw [upsert, if_pos (hsome.2 h), if_pos h, set, List.map_map]
    exact List.map_congr_left fun row _ => hkeys row
  · rw [upsert, if_neg (hsome.not.2 h), if_neg h, List.map_append, List.map_singleton]

theorem nodup_upsert (hf : ∀ row, key (f row) = key row) (h : (rows.map key).Nodup) :
    ((upsert key rows new f).map key).Nodup := by
  rw [map_key_upsert hf]
  split_ifs with hmem
  · exact h
  · exact List.nodup_append.2 ⟨h, List.nodup_singleton _, by grind⟩

theorem mem_key_upsert (hf : ∀ row, key (f row) = key row) :
    k ∈ (upsert key rows new f).map key ↔ k = key new ∨ k ∈ rows.map key := by
  rw [map_key_upsert hf]
  split_ifs with hmem
  · exact (or_iff_right_of_imp fun h => h ▸ hmem).symm
  · rw [List.mem_append, List.mem_singleton, or_comm]

end KeyedTable

end Loxep

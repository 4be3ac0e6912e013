import Mathlib.Data.List.Perm.Basic

/-!
# What is left after matching by key

The rows of a list are matched off, first come first served, against keys that each answer for one
row. Two lists matched off against each other leave rows of either without a key in common.
-/

namespace Loxep

variable {α β K : Type*} [DecidableEq K] (key : α → K)

/-- The rows no key is left for. -/
def leftOver : List α → List K → List α
  | [], _ => []
  | a :: l, keys => if key a ∈ keys then leftOver l (keys.erase (key a)) else a :: leftOver l keys

variable {key}

theorem leftOver_sublist : ∀ (l : List α) (keys : List K), (leftOver key l keys).Sublist l
  | [], _ => .slnil
  | a :: l, keys => by
    unfold leftOver
    split_ifs
    · exact (leftOver_sublist l _).cons a
    · exact (leftOver_sublist l _).cons_cons a

theorem leftOver_no_keys : ∀ l : List α, leftOver key l [] = l
  | [] => rfl
  | a :: l => by simp [leftOver, leftOver_no_keys l]

theorem leftOver_cons_key (k : K) : ∀ (l : List α) (keys : List K),
    leftOver key l (k :: keys) = leftOver key (l.eraseP (key · == k)) keys
  | [], _ => rfl
  | a :: l, keys => by
    rcases eq_or_ne (key a) k with rfl | hne
    · simp [leftOver]
    · have hbeq : ¬ k = key a := fun h => hne h.symm
      rw [List.eraseP_cons_of_neg (by simpa using hne)]
      by_cases ha : key a ∈ keys
      · simp [leftOver, ha, hbeq, leftOver_cons_key k l]
      · simp [leftOver, ha, hne, leftOver_cons_key k l]

theorem leftOver_eq_filter : ∀ {l : List α} {keys : List K}, (l.map key).Nodup →
    leftOver key l keys = l.filter (key · ∉ keys)
  | [], _, _ => rfl
  | a :: l, keys, h => by
    obtain ⟨ha, hl⟩ := List.nodup_cons.1 h
    unfold leftOver
    split_ifs with hmem
    · rw [leftOver_eq_filter hl, List.filter_cons_of_neg (by simpa using hmem)]
      refine List.filter_congr fun b hb => ?_
      have hne : key b ≠ key a := fun hab => ha (hab ▸ List.mem_map_of_mem hb)
      simp [List.mem_erase_of_ne hne]
    · rw [leftOver_eq_filter hl, List.filter_cons_of_pos (by simpa using hmem)]

theorem map_eraseP_eq (k : K) : ∀ l : List α,
    (l.eraseP (key · == k)).map key = (l.map key).erase k
  | [] => rfl
  | a :: l => by
    by_cases ha : key a = k
    · simp [ha]
    · simp [ha, map_eraseP_eq k l]

theorem perm_cons_eraseP {p : α → Bool} {a : α} : ∀ {l : List α}, l.find? p = some a →
    l.Perm (a :: l.eraseP p)
  | [], h => by simp at h
  | b :: l, h => by
    by_cases hb : p b = true
    · simp only [List.find?_cons_of_pos hb, Option.some.injEq] at h
      subst h
      rw [List.eraseP_cons_of_pos hb]
    · rw [List.find?_cons_of_neg hb] at h
      rw [List.eraseP_cons_of_neg hb]
      exact ((perm_cons_eraseP h).cons b).trans (.swap a b _)

theorem zip_left_unique {a a' : α} {b : β} : ∀ {l : List α} {l' : List β}, l'.Nodup →
    (a, b) ∈ l.zip l' → (a', b) ∈ l.zip l' → a = a'
  | [], _, _, h, _ => by simp at h
  | _ :: _, [], _, h, _ => by simp at h
  | c :: l, d :: l', hnd, h, h' => by
    obtain ⟨hd, hnd⟩ := List.nodup_cons.1 hnd
    simp only [List.zip_cons_cons, List.mem_cons, Prod.mk.injEq] at h h'
    rcases h with ⟨rfl, rfl⟩ | h
    · rcases h' with ⟨rfl, -⟩ | h'
      · rfl
      · exact absurd (List.of_mem_zip h').2 hd
    · rcases h' with ⟨-, rfl⟩ | h'
      · exact absurd (List.of_mem_zip h).2 hd
      · exact zip_left_unique hnd h h'

theorem mem_zip_or_drop {a : α} : ∀ {l : List α} (l' : List β), a ∈ l →
    (∃ b, (a, b) ∈ l.zip l') ∨ a ∈ l.drop l'.length
  | _ :: _, [], h => .inr h
  | c :: l, d :: l', h => by
    rcases List.mem_cons.1 h with rfl | h
    · exact .inl ⟨d, List.mem_cons_self⟩
    · rcases mem_zip_or_drop l' h with ⟨b, hb⟩ | hdrop
      · exact .inl ⟨b, List.mem_cons_of_mem _ hb⟩
      · exact .inr hdrop

end Loxep

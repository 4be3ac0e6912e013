import Mathlib.Data.List.Sort

/-!
# Sorted lists

What a query that orders its rows returns: the first match of a sorted list. A stable sort keeps
the order among the entries of one key, and its result depends on nothing but these orders.
-/

namespace Loxep

theorem find?_orderedInsert {α : Type*} {r : α → α → Prop} [DecidableRel r] {p : α → Bool} {a : α}
    (htrans : ∀ x y z, r x y → r y z → r x z) (ha : p a = true) :
    ∀ {l : List α}, l.Pairwise r → (l.orderedInsert r a).find? p =
      some (((l.find? p).filter fun b => ¬r a b).getD a)
  | [], _ => by simp [ha]
  | b :: l, hl => by
    obtain ⟨hb, hl⟩ := List.pairwise_cons.1 hl
    rw [List.orderedInsert_cons]
    by_cases hab : r a b
    · have hall : ∀ c ∈ (b :: l).find? p, r a c := by
        intro c hc
        rcases List.mem_cons.1 (List.mem_of_find?_eq_some hc) with rfl | hmem
        · exact hab
        · exact htrans a b c hab (hb c hmem)
      rw [if_pos hab, List.find?_cons_of_pos ha]
      rcases hfind : (b :: l).find? p with _ | c
      · rfl
      · rw [Option.filter_some, if_neg (by simp [hall c hfind]), Option.getD_none]
    · rw [if_neg hab, List.find?_cons, List.find?_cons]
      rcases hpb : p b with _ | _
      · exact find?_orderedInsert htrans ha hl
      · show some b = _
        rw [Option.filter_some, if_pos (by simp [hab]), Option.getD_some]

section Stable

variable {α κ : Type*} [LinearOrder κ] {key : α → κ} {a : α} {l l' : List α}

theorem filter_orderedInsert (k : κ) :
    (l.orderedInsert (fun a b => key a ≤ key b) a).filter (fun b => key b = k) =
      (a :: l).filter fun b => key b = k := by
  induction l with
  | nil => rfl
  | cons b l ih =>
    rw [List.orderedInsert_cons]
    by_cases hab : key a ≤ key b
    · rw [if_pos hab]
    · rw [if_neg hab, List.filter_cons, ih]
      by_cases hb : key b = k
      · have ha : ¬ key a = k := fun ha => hab (ha.trans hb.symm).le
        simp [ha, hb]
      · by_cases ha : key a = k <;> simp [ha, hb]

theorem filter_insertionSort (k : κ) :
    (l.insertionSort fun a b => key a ≤ key b).filter (fun b => key b = k) =
      l.filter fun b => key b = k := by
  induction l with
  | nil => rfl
  | cons a l ih =>
    rw [List.insertionSort_cons, filter_orderedInsert, List.filter_cons, List.filter_cons, ih]

theorem eq_of_filter_eq : ∀ {l l' : List α}, l.Pairwise (fun a b => key a ≤ key b) →
    l'.Pairwise (fun a b => key a ≤ key b) →
    (∀ k, l.filter (fun b => key b = k) = l'.filter fun b => key b = k) → l = l'
  | [], [], _, _, _ => rfl
  | [], b :: l', _, _, h => by simpa using h (key b)
  | a :: l, [], _, _, h => by simpa using h (key a)
  | a :: l, b :: l', hl, hl', h => by
    obtain ⟨ha, htail⟩ := List.pairwise_cons.1 hl
    obtain ⟨hb, htail'⟩ := List.pairwise_cons.1 hl'
    have hmem : ∀ c, c ∈ a :: l ↔ c ∈ b :: l' := by
      intro c
      have hc := congrArg (c ∈ ·) (h (key c))
      simpa [List.mem_filter] using hc
    have hkey : key a = key b := by
      rcases List.mem_cons.1 ((hmem a).1 List.mem_cons_self) with rfl | hmem'
      · rfl
      · rcases List.mem_cons.1 ((hmem b).2 List.mem_cons_self) with rfl | hmem
        · rfl
        · exact le_antisymm (ha b hmem) (hb a hmem')
    have hab : a = b := by
      have hhead := h (key a)
      rw [List.filter_cons_of_pos (by simp), List.filter_cons_of_pos (by simp [hkey])] at hhead
      exact (List.cons.inj hhead).1
    subst hab
    refine congrArg _ (eq_of_filter_eq htail htail' fun k => ?_)
    have hk := h k
    rw [List.filter_cons, List.filter_cons] at hk
    split_ifs at hk
    · exact (List.cons.inj hk).2
    · exact hk

theorem pairwise_insertionSort_key (l : List α) :
    (l.insertionSort fun a b => key a ≤ key b).Pairwise fun a b => key a ≤ key b := by
  have : Std.Total fun a b : α => key a ≤ key b := ⟨fun a b => le_total (key a) (key b)⟩
  have : IsTrans α fun a b => key a ≤ key b := ⟨fun _ _ _ => le_trans⟩
  exact List.pairwise_insertionSort _ l

/-- Two lists are sorted into one exactly where they agree on the order in each key. -/
theorem insertionSort_eq_iff : (l.insertionSort fun a b => key a ≤ key b) =
      (l'.insertionSort fun a b => key a ≤ key b) ↔
    ∀ k, l.filter (fun b => key b = k) = l'.filter fun b => key b = k := by
  constructor
  · intro h k
    rw [← filter_insertionSort, h, filter_insertionSort]
  · intro h
    refine eq_of_filter_eq (pairwise_insertionSort_key l) (pairwise_insertionSort_key l') ?_
    intro k
    rw [filter_insertionSort, filter_insertionSort, h]

end Stable

end Loxep

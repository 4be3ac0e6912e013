import Mathlib.Data.List.Nodup

/-!
# Child rows

The rows of a table carry a key and name a parent. A row statement appends a row, writes another
in the place of the one under a key, or removes it; the lemmas say what that leaves of the
children of one parent.
-/

namespace Loxep

section ChildRows

variable {R K P : Type*} [DecidableEq K] [DecidableEq P]

def childrenOf (parent : R → P) (rows : List R) (p : P) : List R := rows.filter (parent · == p)

/-- Another row in the place of those under a key. -/
def replaceRow (key : R → K) (rows : List R) (k : K) (new : R) : List R :=
  rows.map fun r => if key r = k then new else r

variable {key : R → K} {parent : R → P} {rows : List R} {new old : R} {k : K} {p q : P}

variable {r : R}

theorem mem_replaceRow (hr : r ∈ rows) (h : key r ≠ k) :
    r ∈ replaceRow key rows k new :=
  List.mem_map.2 ⟨r, hr, if_neg h⟩

theorem new_mem_replaceRow (hold : old ∈ rows) : new ∈ replaceRow key rows (key old) new :=
  List.mem_map.2 ⟨old, hold, if_pos rfl⟩

theorem mem_childrenOf : r ∈ childrenOf parent rows p ↔ r ∈ rows ∧ parent r = p := by
  rw [childrenOf, List.mem_filter, beq_iff_eq]

theorem childrenOf_append (h : parent new ≠ p) :
    childrenOf parent (rows ++ [new]) p = childrenOf parent rows p := by
  simp [childrenOf, List.filter_append, h]

theorem childrenOf_replace (h : parent new ≠ p) :
    childrenOf parent (replaceRow key rows k new) p =
      (childrenOf parent rows p).filter (key · != k) := by
  induction rows with
  | nil => rfl
  | cons r rest ih =>
    simp only [childrenOf, replaceRow] at ih
    simp only [childrenOf, replaceRow, List.map_cons, List.filter_cons, ih]
    by_cases hk : key r = k <;> by_cases hp : parent r = p <;> simp [hk, hp, h]

omit [DecidableEq K] in
theorem eq_of_key (hkeys : (rows.map key).Nodup) (hold : old ∈ rows) (hr : r ∈ rows)
    (hk : key r = key old) : r = old :=
  List.inj_on_of_nodup_map hkeys hr hold hk

theorem find?_key_eq_some_iff (hkeys : (rows.map key).Nodup) :
    rows.find? (key · == k) = some r ↔ r ∈ rows ∧ key r = k := by
  constructor
  · intro h
    have hkey := @List.find?_some _ (fun r => key r == k) _ _ h
    exact ⟨List.mem_of_find?_eq_some h, beq_iff_eq.1 hkey⟩
  · rintro ⟨hr, rfl⟩
    cases hfound : rows.find? (key · == key r) with
    | none => exact absurd (beq_self_eq_true _) (List.find?_eq_none.1 hfound r hr)
    | some first =>
      have hkey := @List.find?_some _ (fun r' => key r' == key r) _ _ hfound
      rw [eq_of_key hkeys hr (List.mem_of_find?_eq_some hfound) (beq_iff_eq.1 hkey)]

theorem childrenOf_remove (hkeys : (rows.map key).Nodup) (hold : old ∈ rows) (h : parent old ≠ p) :
    childrenOf parent (rows.filter (key · != key old)) p = childrenOf parent rows p := by
  rw [childrenOf, childrenOf, List.filter_filter]
  refine List.filter_congr fun r hr => ?_
  by_cases hk : key r = key old
  · rw [eq_of_key hkeys hold hr hk]
    simp [h]
  · simp [hk]

theorem childrenOf_removeParent (h : p ≠ q) :
    childrenOf parent (rows.filter (parent · != q)) p = childrenOf parent rows p := by
  rw [childrenOf, childrenOf, List.filter_filter]
  refine List.filter_congr fun r _ => ?_
  by_cases hp : parent r = p
  · simp [hp, h]
  · simp [hp]

theorem filter_key_eq_self_iff (hkeys : (rows.map key).Nodup) (hold : old ∈ rows) :
    (childrenOf parent rows p).filter (key · != key old) = childrenOf parent rows p ↔
      parent old ≠ p := by
  rw [List.filter_eq_self]
  constructor
  · intro h hp
    have hkey := h old (mem_childrenOf.2 ⟨hold, hp⟩)
    simp at hkey
  · intro h r hr
    obtain ⟨hmem, hp⟩ := mem_childrenOf.1 hr
    rw [bne_iff_ne]
    intro hk
    exact h (eq_of_key hkeys hold hmem hk ▸ hp)

end ChildRows

section Assignments

variable {R K U : Type*} [DecidableEq K] {key : R → K} {name : U → K} {assign : U → R → R}

theorem foldl_map_rows (f : U → R → R) : ∀ (us : List U) (rows : List R),
    us.foldl (fun rows u => rows.map (f u)) rows =
      rows.map fun r => us.foldl (fun r u => f u r) r
  | [], rows => (List.map_id' rows).symm
  | u :: us, rows => by
    rw [List.foldl_cons, foldl_map_rows f us, List.map_map]
    rfl

theorem foldl_assign (hkey : ∀ u r, key (assign u r) = key r) : ∀ {us : List U},
    (us.map name).Nodup → ∀ r : R,
      us.foldl (fun r u => if key r = name u then assign u r else r) r =
        (us.find? (name · == key r)).elim r (assign · r)
  | [], _, _ => rfl
  | u :: us, h, r => by
    obtain ⟨hu, hus⟩ := List.nodup_cons.1 h
    rw [List.foldl_cons, List.find?_cons]
    by_cases hr : key r = name u
    · have hnone : us.find? (name · == name u) = none := by
        rw [List.find?_eq_none]
        exact fun v hv hname => hu (List.mem_map.2 ⟨v, hv, beq_iff_eq.1 hname⟩)
      rw [if_pos hr, foldl_assign hkey hus, hkey, hr, hnone, beq_self_eq_true]
      rfl
    · rw [if_neg hr, foldl_assign hkey hus, beq_false_of_ne (Ne.symm hr)]

end Assignments

section Fitting

variable {Q R K K' : Type*} [DecidableEq K] [DecidableEq K']

/-- Every parent row fits the list of its children. -/
def AllFit (key : Q → K) (parent : R → K) (fit : Q → List R → Prop) (parents : List Q)
    (rows : List R) : Prop :=
  ∀ e ∈ parents, fit e (childrenOf parent rows (key e))

variable {key : Q → K} {parent : R → K} {fit : Q → List R → Prop} {parents : List Q}
  {rows added : List R} {old new : Q}

theorem childrenOf_eq_nil {p : K} (h : ∀ r ∈ rows, parent r ≠ p) :
    childrenOf parent rows p = [] := by
  rw [childrenOf, List.filter_eq_nil_iff]
  exact fun r hr hp => h r hr (beq_iff_eq.1 hp)

theorem childrenOf_under {p : K} (h : ∀ r ∈ added, parent r = p) :
    childrenOf parent added p = added := by
  rw [childrenOf, List.filter_eq_self]
  exact fun r hr => beq_iff_eq.2 (h r hr)

theorem childrenOf_append_eq {p : K} (h : ∀ r ∈ added, parent r = p) :
    childrenOf parent (rows ++ added) p = childrenOf parent rows p ++ added := by
  rw [childrenOf, List.filter_append]
  exact congrArg _ (childrenOf_under h)

theorem childrenOf_append_other {p q : K} (h : ∀ r ∈ added, parent r = p) (hq : q ≠ p) :
    childrenOf parent (rows ++ added) q = childrenOf parent rows q := by
  have hnone : childrenOf parent added q = [] :=
    childrenOf_eq_nil fun r hr hr' => hq (hr'.symm.trans (h r hr))
  rw [childrenOf, List.filter_append]
  exact (congrArg _ hnone).trans (List.append_nil _)

theorem AllFit.insertParent (h : AllFit key parent fit parents rows)
    (hrows : ∀ r ∈ rows, parent r ∈ parents.map key) (hfresh : key new ∉ parents.map key)
    (hadded : ∀ r ∈ added, parent r = key new) (hfit : fit new added) :
    AllFit key parent fit (parents ++ [new]) (rows ++ added) := by
  intro e he
  rcases List.mem_append.1 he with he | he
  · have hne : key e ≠ key new := fun hk => hfresh (List.mem_map.2 ⟨e, he, hk⟩)
    rw [childrenOf_append_other hadded hne]
    exact h e he
  · have hnone : childrenOf parent rows (key new) = [] := by
      refine childrenOf_eq_nil fun r hr hk => hfresh ?_
      rw [← hk]
      exact hrows r hr
    rw [List.mem_singleton.1 he, childrenOf_append_eq hadded, hnone]
    exact hfit

theorem AllFit.replaceParent_iff (h : AllFit key parent fit parents rows) (hold : old ∈ parents)
    (hkey : key new = key old) :
    AllFit key parent fit (replaceRow key parents (key old) new) rows ↔
      fit new (childrenOf parent rows (key old)) := by
  constructor
  · intro hall
    have hnew := hall new (new_mem_replaceRow hold)
    rwa [hkey] at hnew
  · intro hfit e he
    obtain ⟨r, hr, rfl⟩ := List.mem_map.1 he
    split
    · rw [hkey]
      exact hfit
    · exact h r hr

section

variable (hkeys : (parents.map key).Nodup)
include hkeys

section

variable (h : AllFit key parent fit parents rows)
include h

theorem AllFit.changed_iff {rows' : List R} (hold : old ∈ parents)
    (hothers : ∀ q ≠ key old, childrenOf parent rows' q = childrenOf parent rows q) :
    AllFit key parent fit parents rows' ↔ fit old (childrenOf parent rows' (key old)) := by
  constructor
  · exact fun hall => hall old hold
  · intro hfit e he
    by_cases hk : key e = key old
    · rw [eq_of_key hkeys hold he hk]
      exact hfit
    · rw [hothers _ hk]
      exact h e he

theorem AllFit.append_iff (hold : old ∈ parents) (hadded : ∀ r ∈ added, parent r = key old) :
    AllFit key parent fit parents (rows ++ added) ↔
      fit old (childrenOf parent rows (key old) ++ added) := by
  rw [h.changed_iff hkeys hold fun q hq => childrenOf_append_other hadded hq,
    childrenOf_append_eq hadded]

theorem AllFit.set_iff (hold : old ∈ parents) (hadded : ∀ r ∈ added, parent r = key old) :
    AllFit key parent fit parents (rows.filter (parent · != key old) ++ added) ↔
      fit old added := by
  have hothers : ∀ q ≠ key old,
      childrenOf parent (rows.filter (parent · != key old) ++ added) q =
        childrenOf parent rows q := by
    intro q hq
    rw [childrenOf_append_other hadded hq, childrenOf_removeParent hq]
  have hnone : childrenOf parent (rows.filter (parent · != key old)) (key old) = [] :=
    childrenOf_eq_nil fun r hr => bne_iff_ne.1 (List.mem_filter.1 hr).2
  rw [h.changed_iff hkeys hold hothers, childrenOf_append_eq hadded, hnone, List.nil_append]

end

theorem AllFit.remove_iff {ckey : R → K'} {gone : R} (hckeys : (rows.map ckey).Nodup)
    (h : AllFit key parent fit parents rows) (hold : old ∈ parents) (hgone : gone ∈ rows)
    (hparent : parent gone = key old) :
    AllFit key parent fit parents (rows.filter (ckey · != ckey gone)) ↔
      fit old ((childrenOf parent rows (key old)).filter (ckey · != ckey gone)) := by
  have hothers : ∀ q ≠ key old,
      childrenOf parent (rows.filter (ckey · != ckey gone)) q = childrenOf parent rows q :=
    fun q hq => childrenOf_remove hckeys hgone fun hp => hq (hp.symm.trans hparent)
  rw [h.changed_iff hkeys hold hothers, childrenOf, List.filter_filter, childrenOf,
    List.filter_filter]
  simp only [Bool.and_comm]

end

end Fitting

end Loxep

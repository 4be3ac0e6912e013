import Loxep.Lib.ChildRows
import Loxep.Lib.Separator
import Loxep.Locations

/-!
# The location tree and its paths

A subtree is found by a pattern made of its path, in which an underscore of a code stands for any
character.
-/

namespace Loxep

open Ancestry (Above)

section Spec

namespace LocationTable

variable (t : LocationTable)

def codeOf (id : LocationId) : String := ((t.findLocation id).map (·.code)).getD ""

def lineage (id : LocationId) : List LocationId :=
  id :: Ancestry.ancestors t.parent t.length id

def treePath (id : LocationId) : String := "/".intercalate ((t.lineage id).map t.codeOf).reverse

def placeOf (code : String) (parent : Option LocationId) : String × ℤ :=
  match parent.bind t.findLocation with
  | none => (code, 0)
  | some p => (p.path ++ "/" ++ code, p.depth + 1)

def grown (value : CreateLocationInput) : LocationTable :=
  let code := trim value.code
  let place := t.placeOf code value.parentLocationId
  t ++ [⟨value.id, value.parentLocationId, code, trim value.name, place.1, place.2⟩]

def movedPath (x : LocationRow) (parent : Option LocationId) (l : LocationRow) : String :=
  if x.id ∈ t.lineage l.id then
    (t.placeOf x.code parent).1 ++ substringFrom l.path x.path.length
  else l.path

def moved (x : LocationRow) (parent : Option LocationId) : LocationTable :=
  t.map fun l =>
    { l with
      parentLocationId := if l.id = x.id then parent else l.parentLocationId
      path := t.movedPath x parent l
      depth := if x.id ∈ t.lineage l.id then
        l.depth + ((t.placeOf x.code parent).2 - x.depth) else l.depth }

/-- The caches are those of the tree, and a subtree is read back whole and alone. -/
structure TreeSound : Prop where
  paths : ∀ l ∈ t, l.path = t.treePath l.id
  depths : ∀ l ∈ t, l.depth = (Ancestry.ancestors t.parent t.length l.id).length ∧
    l.depth ≤ maxLocationDepth
  acyclic : ∀ id, ¬Above t.parent id id
  subtrees : ∀ x ∈ t, ∃ rows, t.subtree x.id = .ok rows ∧
    ∀ y, y ∈ rows ↔ y ∈ t ∧ (y.id = x.id ∨ Above t.parent x.id y.id)

def RewritesSubtree : LocationAction → Prop
  | .create _ => True
  | .setParent id parent => ∀ x ∈ t, x.id = id → ∀ r t', t.setParent id parent = .ok (r, t') →
      t'.map (fun l => (l.id, l.path)) = t.map fun l => (l.id, t.movedPath x parent l)

/-- With every underscore of the first standing for any character, the two read the same. -/
def Shadows (p s : String) : Prop := Like.Fits (p.toList.map likeToken) s.toList

def Plain : Prop :=
  ∀ x ∈ t, ∀ a ∈ t, x.id ≠ a.id → (∃ y ∈ t, y.parentLocationId = some a.id) →
    ¬Shadows x.path a.path

def StaysPlain : LocationAction → Prop
  | .create value => Except.returns (t.create value) = true → Plain (t.grown value)
  | .setParent id parent => Except.returns (t.setParent id parent) = true → ∀ x ∈ t, x.id = id →
      (∀ p ∈ t, parent = some p.id → ¬Shadows x.path p.path) ∧ Plain (t.moved x parent)

end LocationTable

end Spec

open LocationTable

structure LocationsStored (t : LocationTable) : Prop where
  ids : (t.map (·.id)).Nodup
  codes : (t.map (·.code)).Nodup
  parents : ∀ l ∈ t, ∀ parent ∈ l.parentLocationId, parent ∈ t.map (·.id)
  others : ∀ l ∈ t, l.parentLocationId ≠ some l.id
  range : ∀ l ∈ t, 0 ≤ l.depth ∧ l.depth ≤ 6
  texts : ∀ l ∈ t, l.code.toList ≠ [] ∧ l.code.toList.all isCodeChar

/-- Each cached place is the one below the parent's. -/
structure WellPlaced (t : LocationTable) : Prop where
  root : ∀ l ∈ t, l.parentLocationId = none → l.path = l.code ∧ l.depth = 0
  child : ∀ l ∈ t, ∀ p ∈ t, l.parentLocationId = some p.id →
    l.path = p.path ++ "/" ++ l.code ∧ l.depth = p.depth + 1

section Stored

variable {t : LocationTable} (h : LocationsStored t)
include h

variable {id p : LocationId} {l : LocationRow}

theorem findLocation_eq_some :
    t.findLocation id = some l ↔ l ∈ t ∧ l.id = id := find?_key_eq_some_iff h.ids

theorem parent_of_mem (hl : l ∈ t) : t.parent l.id = l.parentLocationId := by
  rw [LocationTable.parent, (findLocation_eq_some h).2 ⟨hl, rfl⟩, Option.bind_some]

theorem parent_eq_some (hp : t.parent id = some p) :
    ∃ l ∈ t, l.id = id ∧ l.parentLocationId = some p := by
  obtain ⟨l, hl, hpl⟩ := Option.bind_eq_some_iff.1 hp
  obtain ⟨hmem, hid⟩ := (findLocation_eq_some h).1 hl
  exact ⟨l, hmem, hid, hpl⟩

theorem parent_mem (hp : t.parent id = some p) : p ∈ t.map (·.id) := by
  obtain ⟨l, hl, -, hpl⟩ := parent_eq_some h hp
  exact h.parents l hl p hpl

theorem exists_parent (hl : l ∈ t) (hp : l.parentLocationId = some p) : ∃ r ∈ t, r.id = p :=
  List.mem_map.1 (h.parents l hl p hp)

theorem tree_induction (hranked : Ancestry.Ranked t.parent) {P : LocationRow → Prop}
    (root : ∀ l ∈ t, l.parentLocationId = none → P l)
    (child : ∀ l ∈ t, ∀ p ∈ t, l.parentLocationId = some p.id → P p → P l) : ∀ l ∈ t, P l := by
  obtain ⟨rank, hrank⟩ := hranked
  suffices hall : ∀ n, ∀ l ∈ t, rank l.id = n → P l from fun l hl => hall _ l hl rfl
  intro n
  induction n using Nat.strong_induction_on with
  | _ n ih =>
    rintro l hl rfl
    cases hp : l.parentLocationId with
    | none => exact root l hl hp
    | some id =>
      obtain ⟨p, hpt, rfl⟩ := exists_parent h hl hp
      have hlt := hrank l.id p.id (by rw [parent_of_mem h hl, hp])
      exact child l hl p hpt hp (ih _ hlt p hpt rfl)

theorem lineage_root (hl : l ∈ t) (hp : l.parentLocationId = none) :
    t.lineage l.id = [l.id] := by
  rw [lineage, Ancestry.ancestors_of_none ((parent_of_mem h hl).trans hp)]

theorem lineage_child (hranked : Ancestry.Ranked t.parent) (hl : l ∈ t)
    (hp : l.parentLocationId = some p) :
    t.lineage l.id = l.id :: t.lineage p := by
  have hup : t.parent l.id = some p := (parent_of_mem h hl).trans hp
  have hcons := Ancestry.ancestors_eq_cons hranked (fun _ _ => parent_mem h) hup
  rw [List.length_map] at hcons
  rw [lineage, hcons, lineage]

theorem mem_lineage (hranked : Ancestry.Ranked t.parent) {x : LocationId} :
    x ∈ t.lineage id ↔ id = x ∨ Above t.parent x id := by
  have hmem := Ancestry.mem_ancestors_iff (a := x) (x := id) hranked fun _ _ => parent_mem h
  rw [List.length_map] at hmem
  rw [lineage, List.mem_cons, hmem, eq_comm]

theorem codeOf_of_mem (hl : l ∈ t) : t.codeOf l.id = l.code := by
  rw [codeOf, (findLocation_eq_some h).2 ⟨hl, rfl⟩]
  rfl

theorem treePath_root (hl : l ∈ t) (hp : l.parentLocationId = none) :
    t.treePath l.id = l.code := by
  rw [treePath, lineage_root h hl hp, List.map_singleton, codeOf_of_mem h hl]
  exact String.intercalate_singleton

theorem treePath_child (hranked : Ancestry.Ranked t.parent) (hl : l ∈ t)
    (hp : l.parentLocationId = some p) :
    t.treePath l.id = t.treePath p ++ "/" ++ l.code := by
  have hne : ((t.lineage p).map t.codeOf).reverse ≠ [] := by simp [lineage]
  rw [treePath, lineage_child h hranked hl hp, List.map_cons, List.reverse_cons,
    codeOf_of_mem h hl, String.intercalate_append_of_ne_nil hne (List.cons_ne_nil _ _),
    String.intercalate_singleton, treePath]

theorem ranked_of_wellPlaced (hc : WellPlaced t) : Ancestry.Ranked t.parent := by
  refine ⟨fun id => ((t.findLocation id).map fun l => l.depth.toNat).getD 0, fun id p hp => ?_⟩
  obtain ⟨l, hl, rfl, hpl⟩ := parent_eq_some h hp
  obtain ⟨r, hr, rfl⟩ := exists_parent h hl hpl
  have hdepth := (hc.child l hl r hr hpl).2
  have hrange := h.range r hr
  simp only [(findLocation_eq_some h).2 ⟨hl, rfl⟩, (findLocation_eq_some h).2 ⟨hr, rfl⟩,
    Option.map_some, Option.getD_some]
  omega

theorem wellPlaced_iff (hranked : Ancestry.Ranked t.parent) :
    WellPlaced t ↔ ∀ l ∈ t, l.path = t.treePath l.id ∧
      l.depth = (Ancestry.ancestors t.parent t.length l.id).length := by
  have hdepth : ∀ l ∈ t, ∀ p, l.parentLocationId = some p →
      (Ancestry.ancestors t.parent t.length l.id).length =
        (Ancestry.ancestors t.parent t.length p).length + 1 := by
    intro l hl p hp
    have hcons := congrArg List.length (lineage_child h hranked hl hp)
    simpa [lineage] using hcons
  constructor
  · intro hc
    refine tree_induction h hranked (fun l hl hp => ?_) fun l hl p hpt hp ih => ?_
    · rw [treePath_root h hl hp, Ancestry.ancestors_of_none ((parent_of_mem h hl).trans hp)]
      exact hc.root l hl hp
    · obtain ⟨hpath, hd⟩ := hc.child l hl p hpt hp
      rw [treePath_child h hranked hl hp, hdepth l hl p.id hp, hpath, hd, ih.1, ih.2]
      exact ⟨rfl, by push_cast; rfl⟩
  · intro hall
    refine ⟨fun l hl hp => ?_, fun l hl p hpt hp => ?_⟩
    · obtain ⟨hpath, hd⟩ := hall l hl
      rw [treePath_root h hl hp] at hpath
      rw [Ancestry.ancestors_of_none ((parent_of_mem h hl).trans hp)] at hd
      exact ⟨hpath, hd⟩
    · obtain ⟨hpath, hd⟩ := hall l hl
      rw [treePath_child h hranked hl hp, ← (hall p hpt).1] at hpath
      rw [hdepth l hl p.id hp, Nat.cast_add, Nat.cast_one, ← (hall p hpt).2] at hd
      exact ⟨hpath, hd⟩

end Stored

theorem shadows_length {p s : String} (h : Shadows p s) : p.toList.length = s.toList.length := by
  have hlength := List.Forall₂.length_eq h
  rwa [List.length_map] at hlength

theorem child_path_toList {path code : String} :
    (path ++ "/" ++ code).toList = path.toList ++ '/' :: code.toList := by
  rw [String.toList_append, String.toList_append]
  simp

theorem codeChar_ne {c d : Char} (hc : isCodeChar c = true) (hd : isCodeChar d = false) :
    c ≠ d := by
  rintro rfl
  rw [hc] at hd
  cases hd

section Paths

variable {t : LocationTable} (h : LocationsStored t) (hw : WellPlaced t)
include h

variable {l : LocationRow}

theorem slash_notMem_code (hl : l ∈ t) : '/' ∉ l.code.toList := by
  intro hmem
  exact codeChar_ne (List.all_eq_true.1 (h.texts l hl).2 _ hmem) (by decide) rfl

include hw

theorem path_chars : ∀ l ∈ t, ∀ c ∈ l.path.toList, isCodeChar c = true ∨ c = '/' := by
  refine tree_induction h (ranked_of_wellPlaced h hw) (fun l hl hp c hc => ?_)
    fun l hl p hpt hp ih c hc => ?_
  · rw [(hw.root l hl hp).1] at hc
    exact .inl (List.all_eq_true.1 (h.texts l hl).2 c hc)
  · rw [(hw.child l hl p hpt hp).1, child_path_toList, List.mem_append, List.mem_cons] at hc
    rcases hc with hc | hc | hc
    · exact ih c hc
    · exact .inr hc
    · exact .inl (List.all_eq_true.1 (h.texts l hl).2 c hc)

theorem path_ne_empty : ∀ l ∈ t, l.path ≠ "" := by
  refine tree_induction h (ranked_of_wellPlaced h hw) (fun l hl hp hempty => ?_)
    fun l hl p hpt hp _ hempty => ?_
  · rw [(hw.root l hl hp).1] at hempty
    exact (h.texts l hl).1 (by rw [hempty]; rfl)
  · have hlist := congrArg String.toList hempty
    rw [(hw.child l hl p hpt hp).1, child_path_toList] at hlist
    simp at hlist

theorem token_ne_text (hl : l ∈ t) :
    ∀ token ∈ l.path.toList.map likeToken, token ≠ .text := by
  intro token htoken
  obtain ⟨c, hc, rfl⟩ := List.mem_map.1 htoken
  have hne : c ≠ '%' := by
    rcases path_chars h hw l hl c hc with hcode | rfl
    · exact codeChar_ne hcode (by decide)
    · decide
  rw [likeToken, if_neg hne]
  split_ifs <;> nofun

theorem shadows_refl (hl : l ∈ t) : Shadows l.path l.path := by
  have hchars := token_ne_text h hw hl
  revert hchars
  unfold Shadows
  induction l.path.toList with
  | nil => exact fun _ => .nil
  | cons c cs ih =>
    intro hchars
    refine .cons ?_ (ih fun token ht => hchars token (List.mem_cons_of_mem _ ht))
    have hc := hchars (likeToken c) List.mem_cons_self
    unfold likeToken at hc ⊢
    split_ifs at hc ⊢
    · exact absurd rfl hc
    · trivial
    · rfl

theorem path_eq_iff {x y : LocationRow} (hx : x ∈ t) (hy : y ∈ t) : x.path = y.path ↔ x = y := by
  refine ⟨fun hpath => ?_, congrArg _⟩
  have hcode : x.code = y.code → x = y := eq_of_key h.codes hy hx
  cases hxp : x.parentLocationId with
  | none =>
    have hroot := (hw.root x hx hxp).1
    cases hyp : y.parentLocationId with
    | none => exact hcode (by rw [← hroot, hpath, (hw.root y hy hyp).1])
    | some id =>
      obtain ⟨p, hpt, rfl⟩ := exists_parent h hy hyp
      have hslash : '/' ∈ x.code.toList := by
        rw [← hroot, hpath, (hw.child y hy p hpt hyp).1, child_path_toList]
        simp
      exact absurd hslash (slash_notMem_code h hx)
  | some id =>
    obtain ⟨p, hpt, rfl⟩ := exists_parent h hx hxp
    have hchild := (hw.child x hx p hpt hxp).1
    cases hyp : y.parentLocationId with
    | none =>
      have hslash : '/' ∈ y.code.toList := by
        rw [← (hw.root y hy hyp).1, ← hpath, hchild, child_path_toList]
        simp
      exact absurd hslash (slash_notMem_code h hy)
    | some id =>
      obtain ⟨q, hqt, rfl⟩ := exists_parent h hy hyp
      rw [hchild, (hw.child y hy q hqt hyp).1, ← String.toList_inj, child_path_toList,
        child_path_toList] at hpath
      have hlast := Separator.last_field_inj (slash_notMem_code h hx) (slash_notMem_code h hy) hpath
      exact hcode (String.toList_inj.1 hlast.2)

theorem path_of_above : ∀ y ∈ t, ∀ x ∈ t, Above t.parent x.id y.id →
    ∃ rest, y.path.toList = x.path.toList ++ '/' :: rest := by
  refine tree_induction h (ranked_of_wellPlaced h hw) (fun y hy hp x hx habove => ?_)
    fun y hy p hpt hp ih x hx habove => ?_
  · exact absurd habove (Ancestry.not_above_of_none ((parent_of_mem h hy).trans hp))
  · have hpath : y.path.toList = p.path.toList ++ '/' :: y.code.toList := by
      rw [(hw.child y hy p hpt hp).1, child_path_toList]
    rcases (Ancestry.above_iff ((parent_of_mem h hy).trans hp)).1 habove with hid | habove
    · rw [eq_of_key h.ids hpt hx hid]
      exact ⟨_, hpath⟩
    · obtain ⟨rest, hrest⟩ := ih x hx habove
      rw [hpath, hrest]
      exact ⟨rest ++ '/' :: y.code.toList, by simp⟩

theorem above_of_cut : ∀ y ∈ t, ∀ cut rest, y.path.toList = cut ++ '/' :: rest →
    ∃ a ∈ t, Above t.parent a.id y.id ∧ a.path.toList = cut := by
  refine tree_induction h (ranked_of_wellPlaced h hw) (fun y hy hp cut rest hcut => ?_)
    fun y hy p hpt hp ih cut rest hcut => ?_
  · have hslash : '/' ∈ y.code.toList := by
      rw [← (hw.root y hy hp).1, hcut]
      simp
    exact absurd hslash (slash_notMem_code h hy)
  · have hup : t.parent y.id = some p.id := (parent_of_mem h hy).trans hp
    rw [(hw.child y hy p hpt hp).1, child_path_toList] at hcut
    rcases Separator.cut_at_last_or_before (slash_notMem_code h hy) hcut with ⟨rfl, -⟩ | ⟨mid, hmid⟩
    · exact ⟨p, hpt, .parent hup, rfl⟩
    · obtain ⟨a, ha, habove, hpath⟩ := ih cut mid hmid
      exact ⟨a, ha, .step hup habove, hpath⟩

theorem like_prefix_iff {x : LocationRow} (hx : x ∈ t) (s : String) :
    like s (x.path ++ "/" ++ "%") = true ↔
      ∃ front rest, s.toList = front ++ '/' :: rest ∧
        Like.Fits (x.path.toList.map likeToken) front := by
  have htokens : (x.path ++ "/" ++ "%").toList.map likeToken =
      x.path.toList.map likeToken ++ [.char '/', .text] := by
    rw [child_path_toList, List.map_append]
    rfl
  rw [like, htokens, Like.matches_char_text (token_ne_text h hw hx)]

theorem under_iff {x y : LocationRow} (hx : x ∈ t) (hy : y ∈ t) : y.under x.path = true ↔
    ∃ a ∈ t, Above t.parent a.id y.id ∧ Shadows x.path a.path := by
  rw [LocationRow.under, like_prefix_iff h hw hx]
  constructor
  · rintro ⟨front, rest, hcut, hfits⟩
    obtain ⟨a, ha, habove, rfl⟩ := above_of_cut h hw y hy front rest hcut
    exact ⟨a, ha, habove, hfits⟩
  · rintro ⟨a, ha, habove, hshadows⟩
    obtain ⟨rest, hrest⟩ := path_of_above h hw y hy a ha habove
    exact ⟨a.path.toList, rest, hrest, hshadows⟩

theorem not_shadows_of_above {x a : LocationRow} (hx : x ∈ t) (ha : a ∈ t)
    (habove : Above t.parent x.id a.id) : ¬Shadows x.path a.path := by
  intro hshadows
  obtain ⟨rest, hrest⟩ := path_of_above h hw a ha x hx habove
  have hlength := shadows_length hshadows
  rw [hrest, List.length_append, List.length_cons] at hlength
  omega

theorem under_iff_above_iff : (∀ x ∈ t, ∀ y ∈ t,
    (y.under x.path = true ↔ Above t.parent x.id y.id)) ↔ Plain t := by
  constructor
  · rintro hexact x hx a ha hne ⟨y, hy, hchild⟩ hshadows
    have hup : t.parent y.id = some a.id := (parent_of_mem h hy).trans hchild
    have hunder := (under_iff h hw hx hy).2 ⟨a, ha, .parent hup, hshadows⟩
    rcases (Ancestry.above_iff hup).1 ((hexact x hx y hy).1 hunder) with hid | habove
    · exact hne hid
    · exact not_shadows_of_above h hw hx ha habove hshadows
  · intro hplain x hx y hy
    rw [under_iff h hw hx hy]
    constructor
    · rintro ⟨a, ha, habove, hshadows⟩
      by_cases hid : x.id = a.id
      · exact hid ▸ habove
      · obtain ⟨z, -, hz⟩ := Relation.TransGen.tail'_iff.1 habove
        obtain ⟨child, hchild, -, hparent⟩ := parent_eq_some h hz
        exact absurd hshadows (hplain x hx a ha hid ⟨child, hchild, hparent⟩)
    · exact fun habove => ⟨x, hx, habove, shadows_refl h hw hx⟩

end Paths

section Sound

variable {t : LocationTable}

theorem mem_subtree {x : LocationRow} (h : LocationsStored t) (hx : x ∈ t) : t.subtree x.id =
    .ok (t.filter fun l => l.path == x.path || l.under x.path) := by
  unfold subtree LocationTable.get
  rw [(findLocation_eq_some h).2 ⟨hx, rfl⟩]
  rfl

theorem treeSound_iff (h : LocationsStored t) : TreeSound t ↔ WellPlaced t ∧ Plain t := by
  have hrows : ∀ (hw : WellPlaced t), (∀ x ∈ t, ∃ rows, t.subtree x.id = .ok rows ∧
      ∀ y, y ∈ rows ↔ y ∈ t ∧ (y.id = x.id ∨ Above t.parent x.id y.id)) ↔ Plain t := by
    intro hw
    rw [← under_iff_above_iff h hw]
    refine forall₂_congr fun x hx => ?_
    rw [mem_subtree h hx]
    simp only [Except.ok.injEq, exists_eq_left', List.mem_filter, Bool.or_eq_true, beq_iff_eq]
    refine forall_congr' fun y => ?_
    constructor
    · intro hiff hy
      have hor := and_congr_right_iff.1 hiff hy
      rw [path_eq_iff h hw hy hx] at hor
      by_cases heq : y = x
      · refine iff_of_false ?_ ?_
        · rw [heq, under_iff h hw hx hx]
          rintro ⟨a, ha, habove, hshadows⟩
          obtain ⟨rest, hrest⟩ := path_of_above h hw x hx a ha habove
          have hlength := shadows_length hshadows
          rw [hrest, List.length_append, List.length_cons] at hlength
          omega
        · rw [heq]
          exact Ancestry.Ranked.irrefl (ranked_of_wellPlaced h hw)
      · have hid : y.id ≠ x.id := fun hid => heq (eq_of_key h.ids hx hy hid)
        simpa only [heq, hid, false_or] using hor
    · intro hiff
      refine and_congr_right fun hy => or_congr ?_ (hiff hy)
      rw [path_eq_iff h hw hy hx]
      exact ⟨congrArg _, eq_of_key h.ids hx hy⟩
  constructor
  · rintro ⟨hpaths, hdepths, hacyclic, hsubtrees⟩
    have hranked := Ancestry.ranked_of_irrefl (fun _ _ => parent_mem h) hacyclic
    have hw := (wellPlaced_iff h hranked).2 fun l hl => ⟨hpaths l hl, (hdepths l hl).1⟩
    exact ⟨hw, (hrows hw).1 hsubtrees⟩
  · rintro ⟨hw, hplain⟩
    have hranked := ranked_of_wellPlaced h hw
    have hall := (wellPlaced_iff h hranked).1 hw
    exact ⟨fun l hl => (hall l hl).1, fun l hl => ⟨(hall l hl).2, (h.range l hl).2⟩,
      fun _ => hranked.irrefl, (hrows hw).2 hplain⟩

end Sound

section Statements

variable {t t' : LocationTable}

theorem check_eq_ok (h : t.check = .ok t') : t' = t ∧
    (t.map (·.id)).Nodup ∧ (t.map (·.code)).Nodup ∧
    (∀ l ∈ t, ∀ parent ∈ l.parentLocationId, parent ∈ t.map (·.id)) ∧
    (∀ l ∈ t, l.parentLocationId ≠ some l.id) ∧ ∀ l ∈ t, 0 ≤ l.depth ∧ l.depth ≤ 6 := by
  simp only [LocationTable.check, Except.bind_eq_ok, Except.require_eq_ok, exists_const,
    Except.pure_eq_ok] at h
  obtain ⟨hids, hcodes, -, hparents, hothers, hrange, rfl⟩ := h
  exact ⟨rfl, hids, hcodes, hparents, hothers, hrange⟩

theorem stored_of_check (h : t.check = .ok t')
    (htexts : ∀ l ∈ t, l.code.toList ≠ [] ∧ l.code.toList.all isCodeChar) :
    t' = t ∧ LocationsStored t := by
  obtain ⟨rfl, hids, hcodes, hparents, hothers, hrange⟩ := check_eq_ok h
  exact ⟨rfl, hids, hcodes, hparents, hothers, hrange, htexts⟩

variable {id : LocationId} {code : String}

theorem get_eq_ok {l : LocationRow} (h : t.get id = .ok l) :
    t.findLocation id = some l := by
  unfold LocationTable.get at h
  cases hfind : t.findLocation id with
  | none => rw [hfind] at h; cases h
  | some r => rw [hfind] at h; cases h; rfl

theorem placeUnder_eq_ok {parent : Option LocationId} {place : String × ℤ}
    (h : t.placeUnder code parent = .ok place) : place = t.placeOf code parent := by
  cases parent with
  | none =>
    cases h
    rfl
  | some id =>
    simp only [placeUnder, Except.bind_eq_ok, Except.require_eq_ok, exists_const,
      Except.pure_eq_ok] at h
    obtain ⟨p, hget, -, rfl⟩ := h
    rw [placeOf, Option.bind_some, get_eq_ok hget]

theorem parseCode_eq_ok {parsed : String} (h : parseCode code = .ok parsed) :
    parsed = trim code ∧ parsed.toList ≠ [] ∧ parsed.toList.all isCodeChar := by
  simp only [parseCode, Except.bind_eq_ok, Except.require_eq_ok, exists_const,
    Except.pure_eq_ok] at h
  obtain ⟨⟨hlength, -, -, hall⟩, rfl⟩ := h
  refine ⟨rfl, fun hnil => ?_, hall⟩
  rw [hnil] at hlength
  simp at hlength

theorem placeOf_child (h : LocationsStored t) {p : LocationRow} (hp : p ∈ t) :
    t.placeOf code (some p.id) = (p.path ++ "/" ++ code, p.depth + 1) := by
  rw [placeOf, Option.bind_some, (findLocation_eq_some h).2 ⟨hp, rfl⟩]

theorem create_wellPlaced (h : LocationsStored t) (hw : WellPlaced t) {value : CreateLocationInput}
    {row : LocationRow} (hc : t.create value = .ok (row, t')) :
    t' = t.grown value ∧ LocationsStored t' ∧ WellPlaced t' := by
  simp only [create, Except.bind_eq_ok, Except.require_eq_ok, exists_const, Except.pure_eq_ok,
    Prod.exists, Prod.mk.injEq] at hc
  obtain ⟨code, hcode, -, path, depth, hplace, t₁, hcheck, hrow, rfl⟩ := hc
  obtain ⟨rfl, hne, hall⟩ := parseCode_eq_ok hcode
  have hplaced := placeUnder_eq_ok hplace
  obtain ⟨rfl, hstored⟩ := stored_of_check hcheck fun l hl => by
    rcases List.mem_append.1 hl with hl | hl
    · exact h.texts l hl
    · exact List.mem_singleton.1 hl ▸ ⟨hne, hall⟩
  rw [hrow] at hstored ⊢
  refine ⟨?_, hstored, fun l hl hp => ?_, fun l hl p hpt hp => ?_⟩
  · rw [grown, ← hplaced, ← hrow]
  · rcases List.mem_append.1 hl with hl | hl
    · exact hw.root l hl hp
    · obtain rfl := List.mem_singleton.1 hl
      rw [← hrow] at hp ⊢
      simp only at hp
      rw [hp] at hplaced
      exact Prod.mk.injEq .. ▸ hplaced
  · have hnew : row ∈ t ++ [row] := by simp
    rcases List.mem_append.1 hpt with hold | hlast
    · rcases List.mem_append.1 hl with hl | hl
      · exact hw.child l hl p hold hp
      · obtain rfl := List.mem_singleton.1 hl
        rw [← hrow] at hp ⊢
        simp only at hp
        rw [hp, placeOf_child h hold] at hplaced
        exact Prod.mk.injEq .. ▸ hplaced
    · obtain rfl := List.mem_singleton.1 hlast
      rcases List.mem_append.1 hl with hl | hl
      · obtain ⟨r, hr, hid⟩ := exists_parent h hl hp
        have hdup := hstored.ids
        rw [List.map_append, List.nodup_append] at hdup
        exact absurd hid (hdup.2.2 r.id (List.mem_map_of_mem hr) p.id (by simp))
      · obtain rfl := List.mem_singleton.1 hl
        exact absurd hp (hstored.others _ hnew)

theorem chain_eq (h : LocationsStored t) : ∀ (n : ℕ) {l : LocationRow}, l ∈ t →
    t.chain n l.id = l.id :: Ancestry.ancestors t.parent n l.id
  | 0, l, hl => by
    rw [chain, (findLocation_eq_some h).2 ⟨hl, rfl⟩]
    rfl
  | n + 1, l, hl => by
    rw [chain, (findLocation_eq_some h).2 ⟨hl, rfl⟩, Ancestry.ancestors, parent_of_mem h hl]
    cases hp : l.parentLocationId with
    | none => simp [hp]
    | some id =>
      obtain ⟨p, hpt, rfl⟩ := exists_parent h hl hp
      simp [hp, chain_eq h n hpt]

theorem not_above_of_chain (h : LocationsStored t) (hw : WellPlaced t) {x : LocationId}
    {l : LocationRow} (hl : l ∈ t) (hx : x ∉ t.chain (maxLocationDepth + 2).toNat l.id) :
    ¬Above t.parent x l.id := by
  have hranked := ranked_of_wellPlaced h hw
  rw [chain_eq h _ hl, List.mem_cons, not_or] at hx
  intro habove
  refine hx.2 ?_
  have hmem := (Ancestry.mem_ancestors_iff hranked fun _ _ => parent_mem h).2 habove
  rw [List.length_map] at hmem
  have hdepth := ((wellPlaced_iff h hranked).1 hw l hl).2
  have hrange := h.range l hl
  have height : (maxLocationDepth + 2).toNat = 8 := rfl
  rw [height]
  rcases Nat.le_total t.length 8 with hle | hle
  · rw [← Ancestry.ancestors_take l.id hle] at hmem
    exact List.mem_of_mem_take hmem
  · rw [← Ancestry.ancestors_take l.id hle, List.take_of_length_le (by omega)]
    exact hmem

/-- The new parent is there, and the location is not above it. -/
structure ParentFree (t : LocationTable) (id : LocationId) (parent : Option LocationId) : Prop where
  found : ∀ q ∈ parent, ∃ p ∈ t, p.id = q
  free : ∀ q ∈ parent, q ≠ id ∧ ¬Above t.parent id q

theorem newParent_eq_ok (code : String) (h : LocationsStored t) (hw : WellPlaced t)
    {parent : Option LocationId} {parentPath : String} {parentDepth : ℤ}
    (hn : t.newParent id parent = .ok (parentPath, parentDepth)) :
    ParentFree t id parent ∧ t.placeOf code parent =
      (if parentPath = "" then code else parentPath ++ "/" ++ code, parentDepth + 1) := by
  cases parent with
  | none =>
    cases hn
    exact ⟨⟨nofun, nofun⟩, rfl⟩
  | some q =>
    simp only [newParent, Except.bind_eq_ok, Except.require_eq_ok, exists_const,
      Except.pure_eq_ok, Prod.mk.injEq] at hn
    obtain ⟨hne, -, hchain, p, hget, rfl, rfl⟩ := hn
    obtain ⟨hp, rfl⟩ := (findLocation_eq_some h).1 (get_eq_ok hget)
    refine ⟨⟨fun r hr => ⟨p, hp, Option.some.inj hr⟩, fun r hr => ?_⟩, ?_⟩
    · obtain rfl := Option.some.inj hr
      exact ⟨hne, not_above_of_chain h hw hp hchain⟩
    · rw [placeOf_child h hp, if_neg (path_ne_empty h hw p hp)]

def updated (t : LocationTable) (x : LocationRow) (parent : Option LocationId) : LocationTable :=
  rewritten (t.repointed x.id parent (t.placeOf x.code parent).1 (t.placeOf x.code parent).2)
    x.path (t.placeOf x.code parent).1 ((t.placeOf x.code parent).2 - x.depth)

theorem setParent_eq_ok (h : LocationsStored t) (hw : WellPlaced t) {parent : Option LocationId}
    {row : LocationRow} (hc : t.setParent id parent = .ok (row, t'))
    : LocationsStored t' ∧ ∃ x ∈ t, x.id = id ∧
      ParentFree t id parent ∧ t' = updated t x parent := by
  simp only [setParent, Except.bind_eq_ok, Except.require_eq_ok, exists_const, Prod.exists] at hc
  obtain ⟨x, hget, parentPath, parentDepth, hparent, -, t₁, hcheck₁, t₂, hcheck₂, hc⟩ := hc
  obtain ⟨hx, rfl⟩ := (findLocation_eq_some h).1 (get_eq_ok hget)
  obtain ⟨hfree, hplace⟩ := newParent_eq_ok x.code h hw hparent
  have htexts : ∀ l ∈ t₁, l.code.toList ≠ [] ∧ l.code.toList.all isCodeChar := by
    obtain ⟨rfl, -⟩ := check_eq_ok hcheck₁
    intro l hl
    obtain ⟨r, hr, rfl⟩ := List.mem_map.1 hl
    split_ifs <;> exact h.texts r hr
  obtain ⟨rfl, hstored⟩ := stored_of_check hcheck₂ fun l hl => by
    obtain ⟨r, hr, rfl⟩ := List.mem_map.1 hl
    split_ifs <;> exact htexts r hr
  obtain ⟨rfl, -⟩ := check_eq_ok hcheck₁
  split at hc
  · cases hc
  · cases hc
    refine ⟨hstored, x, hx, rfl, hfree, ?_⟩
    rw [updated, hplace]

end Statements

section Moves

variable {t : LocationTable} {x : LocationRow} {parent : Option LocationId}

theorem substringFrom_length (s : String) : substringFrom s s.length = "" := by
  rw [substringFrom, ← String.length_toList, List.drop_length]

theorem movedPath_self : t.movedPath x parent x = (t.placeOf x.code parent).1 := by
  rw [movedPath, if_pos (by simp [lineage]), substringFrom_length, String.append_empty]

theorem append_substringFrom {path rest start code : String} (h : ∃ more, path.toList =
    start.toList ++ more) : rest ++ substringFrom (path ++ "/" ++ code) start.length =
      rest ++ substringFrom path start.length ++ "/" ++ code := by
  obtain ⟨more, hmore⟩ := h
  rw [← String.toList_inj, child_path_toList, String.toList_append, String.toList_append,
    substringFrom, substringFrom, String.toList_ofList, String.toList_ofList, child_path_toList,
    ← String.length_toList, hmore, List.append_assoc, List.drop_left, List.drop_left,
    List.append_assoc]

variable {l : LocationRow}

section

variable (h : LocationsStored t)
include h

section

variable (hw : WellPlaced t)
include hw

theorem mem_moved_child {p : LocationRow} (hl : l ∈ t) (hne : l.id ≠ x.id)
    (hchild : l.parentLocationId = some p.id) :
    x.id ∈ t.lineage l.id ↔ x.id ∈ t.lineage p.id := by
  have hranked := ranked_of_wellPlaced h hw
  rw [mem_lineage h hranked, mem_lineage h hranked,
    Ancestry.above_iff ((parent_of_mem h hl).trans hchild), eq_comm (a := x.id)]
  simp only [hne, false_or]

theorem path_of_lineage (hx : x ∈ t) (hl : l ∈ t) (hin : x.id ∈ t.lineage l.id)
    :
    ∃ more, l.path.toList = x.path.toList ++ more := by
  rcases (mem_lineage h (ranked_of_wellPlaced h hw)).1 hin with hid | habove
  · rw [eq_of_key h.ids hx hl hid]
    exact ⟨[], (List.append_nil _).symm⟩
  · obtain ⟨rest, hrest⟩ := path_of_above h hw l hl x hx habove
    exact ⟨_, hrest⟩

theorem moved_wellPlaced (hx : x ∈ t) (hfree : ParentFree t x.id parent)
    : WellPlaced (t.moved x parent) := by
  have hranked := ranked_of_wellPlaced h hw
  refine ⟨fun l hl hroot => ?_, fun l hl p hpt hchild => ?_⟩
  · obtain ⟨r, hr, rfl⟩ := List.mem_map.1 hl
    by_cases hid : r.id = x.id
    · obtain rfl := eq_of_key h.ids hx hr hid
      simp only [if_pos] at hroot
      rw [hroot]
      have hself : r.id ∈ t.lineage r.id := by simp [lineage]
      simp only [movedPath_self, if_pos hself]
      exact ⟨rfl, by simp [placeOf]⟩
    · simp only [if_neg hid] at hroot
      have hout : x.id ∉ t.lineage r.id := by
        rw [lineage_root h hr hroot, List.mem_singleton]
        exact Ne.symm hid
      simp only [movedPath, if_neg hout]
      exact hw.root r hr hroot
  · obtain ⟨r, hr, rfl⟩ := List.mem_map.1 hl
    obtain ⟨q, hq, rfl⟩ := List.mem_map.1 hpt
    by_cases hid : r.id = x.id
    · obtain rfl := eq_of_key h.ids hx hr hid
      simp only [if_pos] at hchild
      obtain ⟨hne, hnot⟩ := hfree.free q.id hchild
      have hself : r.id ∈ t.lineage r.id := by simp [lineage]
      have hout : r.id ∉ t.lineage q.id := by
        rw [mem_lineage h hranked, not_or]
        exact ⟨hne, hnot⟩
      simp only [if_pos hself, if_neg hout]
      rw [movedPath_self, movedPath, if_neg hout, hchild, placeOf_child h hq]
      exact ⟨rfl, by ring⟩
    · simp only [if_neg hid] at hchild
      obtain ⟨hpath, hdepth⟩ := hw.child r hr q hq hchild
      have hiff := mem_moved_child h hw hr hid hchild
      by_cases hin : x.id ∈ t.lineage q.id
      · simp only [movedPath, if_pos hin, if_pos (hiff.2 hin)]
        rw [hpath, hdepth, append_substringFrom (path_of_lineage h hw hx hq hin)]
        exact ⟨rfl, by ring⟩
      · simp only [movedPath, if_neg hin, if_neg (mt hiff.1 hin)]
        exact ⟨hpath, hdepth⟩

theorem like_newPath_iff (hplain : Plain t) (hx : x ∈ t) (hfree : ParentFree t x.id parent) :
    like (t.placeOf x.code parent).1 (x.path ++ "/" ++ "%") = true ↔
      ∃ p ∈ t, parent = some p.id ∧ Shadows x.path p.path := by
  rw [like_prefix_iff h hw hx]
  cases hparent : parent with
  | none =>
    refine iff_of_false ?_ (by simp)
    rintro ⟨front, rest, hcut, -⟩
    refine slash_notMem_code h hx ?_
    simp only [placeOf, Option.bind_none] at hcut
    simp [hcut]
  | some id =>
    obtain ⟨p, hp, rfl⟩ := hfree.found id hparent
    obtain ⟨hne, hnot⟩ := hfree.free p.id hparent
    rw [placeOf_child h hp, child_path_toList]
    constructor
    · rintro ⟨front, rest, hcut, hfits⟩
      rcases Separator.cut_at_last_or_before (slash_notMem_code h hx) hcut with
        ⟨rfl, -⟩ | ⟨mid, hmid⟩
      · exact ⟨p, hp, rfl, hfits⟩
      · obtain ⟨a, ha, habove, rfl⟩ := above_of_cut h hw p hp front mid hmid
        obtain ⟨z, -, hz⟩ := Relation.TransGen.tail'_iff.1 habove
        obtain ⟨child, hchild, -, hup⟩ := parent_eq_some h hz
        have hid : x.id ≠ a.id := fun hid => hnot (hid ▸ habove)
        exact absurd hfits (hplain x hx a ha hid ⟨child, hchild, hup⟩)
    · rintro ⟨q, hq, hid, hshadows⟩
      obtain rfl := eq_of_key h.ids hq hp (Option.some.inj hid)
      exact ⟨p.path.toList, x.code.toList, rfl, hshadows⟩

theorem under_iff_lineage (hplain : Plain t) (hx : x ∈ t) (hl : l ∈ t) (hid : l.id ≠ x.id) :
    l.under x.path = true ↔ x.id ∈ t.lineage l.id := by
  rw [mem_lineage h (ranked_of_wellPlaced h hw),
    (under_iff_above_iff h hw).2 hplain x hx l hl]
  simp only [hid, false_or]

theorem updated_eq_moved (hplain : Plain t) (hx : x ∈ t)
    (hmiss : like (t.placeOf x.code parent).1 (x.path ++ "/" ++ "%") = false) :
    updated t x parent = t.moved x parent := by
  unfold updated rewritten repointed moved
  rw [List.map_map]
  refine List.map_congr_left fun l hl => ?_
  simp only [Function.comp]
  by_cases hid : l.id = x.id
  · obtain rfl := eq_of_key h.ids hx hl hid
    have hself : l.id ∈ t.lineage l.id := by simp [lineage]
    simp only [if_pos, LocationRow.under, hmiss, movedPath_self, if_pos hself, Bool.false_eq_true,
      if_false, add_sub_cancel]
  · simp only [if_neg hid, under_iff_lineage h hw hplain hx hl hid, movedPath]
    split_ifs <;> rfl

theorem not_wellPlaced_of_hit (hplain : Plain t) (hx : x ∈ t) (hfree : ParentFree t x.id parent)
    (hhit : like (t.placeOf x.code parent).1 (x.path ++ "/" ++ "%") = true) :
    ¬WellPlaced (updated t x parent) := by
  obtain ⟨p, hp, rfl, -⟩ := (like_newPath_iff h hw hplain hx hfree).1 hhit
  obtain ⟨hne, hnot⟩ := hfree.free p.id rfl
  intro hw'
  have hmoved : _ ∈ updated t x (some p.id) :=
    List.mem_map_of_mem (List.mem_map_of_mem hx)
  have hparent : _ ∈ updated t x (some p.id) :=
    List.mem_map_of_mem (List.mem_map_of_mem hp)
  have hunder : p.under x.path = false := by
    rw [Bool.eq_false_iff]
    intro hunder
    exact hnot (((under_iff_above_iff h hw).2 hplain x hx p hp).1 hunder)
  simp only [if_pos, LocationRow.under, hhit, if_neg hne] at hmoved hparent
  rw [LocationRow.under] at hunder
  simp only [hunder, Bool.false_eq_true, if_false] at hparent
  obtain ⟨hpath, -⟩ := hw'.child _ hmoved p hparent rfl
  obtain ⟨front, rest, hcut, hfits⟩ := (like_prefix_iff h hw hx _).1 hhit
  rw [placeOf_child h hp] at hpath hcut
  have hlist := congrArg (List.length ∘ String.toList) hpath
  have hlength := List.Forall₂.length_eq hfits
  simp only [Function.comp, String.toList_append, substringFrom, String.toList_ofList,
    List.length_append, List.length_drop, List.length_map, ← String.length_toList] at hlist hlength
  have hcutLength := congrArg List.length hcut
  simp only [String.toList_append, List.length_append, List.length_cons] at hcutLength
  omega

end

end

end Moves

section Steps

variable {t : LocationTable}

theorem moveStep_ok {action : LocationAction} {t' : LocationTable} (h : t.execute action = .ok t')
    : t.step action = t' := by
  rw [LocationTable.step, h]

theorem moveStep_error {action : LocationAction} {e : InventoryError}
    (h : t.execute action = .error e) : t.step action = t := by
  rw [LocationTable.step, h]

theorem setParent_iff (h : LocationsStored t) (hsound : TreeSound t) (id : LocationId)
    (parent : Option LocationId) : LocationsStored (t.step (.setParent id parent)) ∧
    (TreeSound (t.step (.setParent id parent)) ∧ t.RewritesSubtree (.setParent id parent) ↔
      t.StaysPlain (.setParent id parent)) := by
  obtain ⟨hw, hplain⟩ := (treeSound_iff h).1 hsound
  cases hc : t.setParent id parent with
  | error e =>
    have hexecute : t.execute (.setParent id parent) = .error e := by
      rw [LocationTable.execute, hc]
      rfl
    rw [moveStep_error hexecute]
    refine ⟨h, iff_of_true ⟨hsound, fun x hx hid r t' hok => ?_⟩ fun hreturns => ?_⟩
    · rw [hc] at hok
      cases hok
    · rw [hc] at hreturns
      cases hreturns
  | ok r =>
    obtain ⟨row, t'⟩ := r
    obtain ⟨hstored, x, hx, rfl, hfree, rfl⟩ := setParent_eq_ok h hw hc
    have hexecute : t.execute (.setParent x.id parent) = .ok (updated t x parent) := by
      rw [LocationTable.execute, hc]
      rfl
    rw [moveStep_ok hexecute]
    refine ⟨hstored, ?_⟩
    have hreturns : Except.returns (t.setParent x.id parent) = true := by
      rw [hc]
      rfl
    have hguard : t.StaysPlain (.setParent x.id parent) ↔
        (∀ p ∈ t, parent = some p.id → ¬Shadows x.path p.path) ∧ Plain (t.moved x parent) := by
      refine ⟨fun hall => hall hreturns x hx rfl, fun hall _ y hy hid => ?_⟩
      rw [eq_of_key h.ids hx hy hid]
      exact hall
    rw [hguard, treeSound_iff hstored]
    cases hhit : like (t.placeOf x.code parent).1 (x.path ++ "/" ++ "%") with
    | true =>
      refine iff_of_false ?_ ?_
      · rintro ⟨⟨hw', -⟩, -⟩
        exact not_wellPlaced_of_hit h hw hplain hx hfree hhit hw'
      · rintro ⟨hall, -⟩
        obtain ⟨p, hp, hparent, hshadows⟩ := (like_newPath_iff h hw hplain hx hfree).1 hhit
        exact hall p hp hparent hshadows
    | false =>
      have hno : ∀ p ∈ t, parent = some p.id → ¬Shadows x.path p.path := by
        intro p hp hparent hshadows
        have hlike := (like_newPath_iff h hw hplain hx hfree).2 ⟨p, hp, hparent, hshadows⟩
        rw [hhit] at hlike
        cases hlike
      rw [updated_eq_moved h hw hplain hx hhit]
      have hrewrites : t.RewritesSubtree (.setParent x.id parent) := by
        intro y hy hid r t' hok
        rw [hc, Except.ok.injEq, Prod.mk.injEq] at hok
        obtain rfl := eq_of_key h.ids hx hy hid
        rw [← hok.2]
        rw [updated_eq_moved h hw hplain hy hhit, moved, List.map_map]
        rfl
      constructor
      · rintro ⟨⟨-, hplain'⟩, -⟩
        exact ⟨hno, hplain'⟩
      · rintro ⟨-, hplain'⟩
        exact ⟨⟨moved_wellPlaced h hw hx hfree, hplain'⟩, hrewrites⟩

theorem create_iff (h : LocationsStored t) (hsound : TreeSound t) (value : CreateLocationInput) :
    LocationsStored (t.step (.create value)) ∧
      (TreeSound (t.step (.create value)) ∧ t.RewritesSubtree (.create value) ↔
        t.StaysPlain (.create value)) := by
  obtain ⟨hw, hplain⟩ := (treeSound_iff h).1 hsound
  cases hc : t.create value with
  | error e =>
    have hexecute : t.execute (.create value) = .error e := by
      rw [LocationTable.execute, hc]
      rfl
    rw [moveStep_error hexecute]
    refine ⟨h, iff_of_true ⟨hsound, trivial⟩ fun hreturns => ?_⟩
    rw [hc] at hreturns
    cases hreturns
  | ok r =>
    obtain ⟨row, t'⟩ := r
    obtain ⟨rfl, hstored, hw'⟩ := create_wellPlaced h hw hc
    have hexecute : t.execute (.create value) = .ok (t.grown value) := by
      rw [LocationTable.execute, hc]
      rfl
    rw [moveStep_ok hexecute]
    refine ⟨hstored, ?_⟩
    have hreturns : Except.returns (t.create value) = true := by
      rw [hc]
      rfl
    rw [treeSound_iff hstored]
    constructor
    · rintro ⟨⟨-, hplain'⟩, -⟩
      exact fun _ => hplain'
    · exact fun hall => ⟨⟨hw', hall hreturns⟩, trivial⟩

def shelves : List LocationAction :=
  let create := fun id code parent => LocationAction.create ⟨id, code, code, parent⟩
  [create 0 "YARD" none, create 1 "A_1" none, create 2 "A-1" none, create 3 "BIN" (some 2),
    .setParent 1 (some 0)]

end Steps

end Loxep

import Loxep.EconomicEntities
import Loxep.Lib.ListSums
import Loxep.Lib.Runs

/-!
# One book for an entity and everything in it

The service checks a new link upward on its first day only, and checks nothing when a link's end or
a parent changes.
-/

namespace Loxep

/-- The keys and references of the tables, the ranges of the links, and no cycle of parents. -/
structure RoutingSound (s : RoutingTables) : Prop where
  entityIds : (s.economicEntities.map (·.id)).Nodup
  linkIds : (s.bookEntityLinks.map (·.id)).Nodup
  parents : ∀ x p, parentOf s.economicEntities x = some p → p ∈ s.economicEntities.map (·.id)
  linked : ∀ l ∈ s.bookEntityLinks, l.economicEntityId ∈ s.economicEntities.map (·.id)
  ranges : ∀ l ∈ s.bookEntityLinks, ∀ upper ∈ l.effectiveTo, l.effectiveFrom ≤ upper
  ranked : Ancestry.Ranked (parentOf s.economicEntities)

def PrimaryOverlap (l u : LinkRow) : Prop :=
  l.linkRole = .postingPrimary ∧ u.linkRole = .postingPrimary ∧
    rangesOverlap l.toBookEntityLinkRow u.toBookEntityLinkRow = true

instance (l u : LinkRow) : Decidable (PrimaryOverlap l u) := inferInstanceAs (Decidable (_ ∧ _))

def Consistent (s : RoutingTables) : Prop :=
  ∀ l ∈ s.bookEntityLinks, ∀ u ∈ s.bookEntityLinks, PrimaryOverlap l u →
    Ancestry.Above (parentOf s.economicEntities) u.economicEntityId l.economicEntityId →
    l.accountingBookId = u.accountingBookId

def RollsUp (s : RoutingTables) : Prop :=
  ∀ entity ∈ s.economicEntities, ∀ parent, entity.parentEntityId = some parent →
    ∀ l ∈ s.bookEntityLinks, l.economicEntityId = entity.id →
    ∀ onDate, Setup.routesOn onDate l.toBookEntityLinkRow = true →
    ∀ book depth via, (s.setup []).routeThroughEntity parent onDate = some (book, depth, via) →
      l.accountingBookId = book

section Ranges

variable {a b : BookEntityLinkRow} {l u : LinkRow}

theorem rangesOverlap_comm (a b : BookEntityLinkRow) : rangesOverlap a b = rangesOverlap b a :=
  Bool.and_comm _ _

theorem PrimaryOverlap.symm (h : PrimaryOverlap l u) : PrimaryOverlap u l :=
  ⟨h.2.1, h.1, (rangesOverlap_comm _ _).trans h.2.2⟩

theorem primaryOverlap_of_routesOn {onDate : CalendarDate}
    (hl : Setup.routesOn onDate l.toBookEntityLinkRow = true)
    (hu : Setup.routesOn onDate u.toBookEntityLinkRow = true) : PrimaryOverlap l u := by
  simp only [Setup.routesOn, Bool.and_eq_true, beq_iff_eq, decide_eq_true_eq,
    Option.all_eq_true] at hl hu
  obtain ⟨⟨hl, hlfrom⟩, hlto⟩ := hl
  obtain ⟨⟨hu, hufrom⟩, huto⟩ := hu
  refine ⟨hl, hu, ?_⟩
  simp only [rangesOverlap, Bool.and_eq_true, Option.all_eq_true, decide_eq_true_eq]
  exact ⟨fun upper hupper => hlfrom.trans (huto upper hupper),
    fun upper hupper => hufrom.trans (hlto upper hupper)⟩

end Ranges

section Tables

variable {s : RoutingTables} {x a : EntityId}

variable {e : EntityRow}

theorem findEntity_mem {entities : List EntityRow} (h : findEntity entities x = some e)
    : e ∈ entities ∧ e.id = x :=
  ⟨List.mem_of_find?_eq_some h, by simpa using List.find?_some h⟩

theorem findEntity_of_mem {entities : List EntityRow} (hids : (entities.map (·.id)).Nodup)
    (he : e ∈ entities) :
    findEntity entities e.id = some e := find_of_nodup_map hids he

theorem RoutingSound.mem_ancestors (hs : RoutingSound s) :
    a ∈ s.ancestors x ↔ Ancestry.Above (parentOf s.economicEntities) a x :=
  Ancestry.mem_ancestors_iff hs.ranked hs.parents

theorem RoutingSound.above_mem (hs : RoutingSound s)
    (h : Ancestry.Above (parentOf s.economicEntities) a x) :
    a ∈ s.economicEntities.map (·.id) := by
  obtain ⟨z, -, hz⟩ := Relation.TransGen.tail'_iff.1 h
  exact hs.parents z a hz

theorem RoutingSound.not_above_self (hs : RoutingSound s) :
    ¬ Ancestry.Above (parentOf s.economicEntities) x x := by
  obtain ⟨rank, hrank⟩ := hs.ranked
  exact fun h => lt_irrefl _ (Ancestry.rank_lt_of_above hrank h)

theorem chain_of_none {books : List AccountingBookRow} (h : findEntity s.economicEntities x = none)
    : ∀ n : ℕ, (s.setup books).chain n x = []
  | 0 => rfl
  | n + 1 => by
    have hfind : (s.setup books).economicEntities.find? (·.id == x) = none := by
      rw [RoutingTables.setup, List.find?_map]
      exact congrArg (Option.map _) h
    rw [Setup.chain, hfind]

theorem chain_succ {books : List AccountingBookRow} {n : ℕ}
    (h : findEntity s.economicEntities x = some e) :
    (s.setup books).chain (n + 1) x = x :: e.parentEntityId.elim [] ((s.setup books).chain n) := by
  have hfind : (s.setup books).economicEntities.find? (·.id == x) =
      some e.toEconomicEntityRow := by
    rw [RoutingTables.setup, List.find?_map]
    exact congrArg _ h
  obtain ⟨-, rfl⟩ := findEntity_mem h
  rw [Setup.chain, hfind]
  refine congrArg (e.id :: ·) ?_
  rcases e.parentEntityId with _ | p <;> rfl

theorem mem_chain {books : List AccountingBookRow} : ∀ {n : ℕ} {x : EntityId},
    a ∈ (s.setup books).chain n x →
      a = x ∨ Ancestry.Above (parentOf s.economicEntities) a x
  | 0, _, h => by simp [Setup.chain] at h
  | n + 1, x, h => by
    cases he : findEntity s.economicEntities x with
    | none =>
      rw [chain_of_none he] at h
      cases h
    | some e =>
      rw [chain_succ he] at h
      rcases List.mem_cons.1 h with rfl | h
      · exact .inl rfl
      · cases hp : e.parentEntityId with
        | none =>
          rw [hp] at h
          cases h
        | some p =>
          rw [hp] at h
          have hup : parentOf s.economicEntities x = some p := by
            rw [parentOf, he, Option.bind_some, hp]
          exact .inr ((Ancestry.above_iff hup).2 (mem_chain h))

theorem routeThroughEntity_some {books : List AccountingBookRow} {onDate : CalendarDate}
    {book : BookId} {depth : ℕ} {via : EntityId}
    (h : (s.setup books).routeThroughEntity x onDate = some (book, depth, via)) :
    ∃ u ∈ s.bookEntityLinks, Setup.routesOn onDate u.toBookEntityLinkRow = true ∧
      u.accountingBookId = book ∧ (u.economicEntityId = x ∨
        Ancestry.Above (parentOf s.economicEntities) u.economicEntityId x) := by
  obtain ⟨⟨entityId, d⟩, hmem, hlink⟩ := List.exists_of_findSome?_eq_some h
  obtain ⟨link, hfind, heq⟩ := Option.map_eq_some_iff.1 hlink
  simp only [Prod.mk.injEq] at heq
  obtain ⟨rfl, -, -⟩ := heq
  obtain ⟨u, hu, rfl⟩ := List.mem_map.1 (List.mem_of_find?_eq_some hfind)
  have hsome := List.find?_some hfind
  simp only [Bool.and_eq_true, beq_iff_eq] at hsome
  refine ⟨u, hu, hsome.2, rfl, ?_⟩
  have hchain : entityId ∈ (s.setup books).chain 33 x := (List.mem_zipIdx hmem).2.2 ▸
    List.getElem_mem _
  rw [hsome.1]
  exact mem_chain hchain

theorem Consistent.rollsUp (hs : RoutingSound s) (h : Consistent s) : RollsUp s := by
  intro entity hentity parent hparent l hl hid onDate hroutes book depth via hroute
  obtain ⟨u, hu, huroutes, hbook, habove⟩ := routeThroughEntity_some hroute
  have hup : parentOf s.economicEntities entity.id = some parent := by
    rw [parentOf, findEntity_of_mem hs.entityIds hentity, Option.bind_some, hparent]
  rw [← hbook]
  refine h l hl u hu (primaryOverlap_of_routesOn hroutes huroutes) ?_
  rw [hid]
  exact (Ancestry.above_iff hup).2 habove

end Tables

section Parents

variable {entities entities' : List EntityRow} {x p : EntityId} {row : EntityRow}

theorem parentOf_append (h : row.id ∉ entities.map (·.id)) :
    parentOf (entities ++ [row]) =
      Ancestry.redirect (parentOf entities) row.id row.parentEntityId := by
  funext y
  rw [parentOf, findEntity, List.find?_append]
  by_cases hy : y = row.id
  · have hnone : entities.find? (·.id == y) = none := by
      rw [List.find?_eq_none]
      intro e he heq
      exact h (List.mem_map.2 ⟨e, he, (beq_iff_eq.1 heq).trans hy⟩)
    rw [hnone, hy, Ancestry.redirect_self]
    simp
  · have hnone : [row].find? (·.id == y) = none := by
      rw [List.find?_eq_none]
      intro e he heq
      rw [List.mem_singleton.1 he] at heq
      exact hy (beq_iff_eq.1 heq).symm
    rw [hnone, Option.or_none, Ancestry.redirect_of_ne hy]
    rfl

theorem parentOf_update {f : EntityRow → EntityRow} (hf : ∀ e, (f e).id = e.id)
    (hx : findEntity entities x = some row) :
    parentOf (entities.map fun e => if e.id = x then f e else e) =
      Ancestry.redirect (parentOf entities) x (f row).parentEntityId := by
  funext y
  have hids : ∀ e : EntityRow, (if e.id = x then f e else e).id = e.id := by
    intro e
    split_ifs
    · exact hf e
    · rfl
  rw [parentOf, findEntity, List.find?_map]
  simp only [Function.comp_def, hids]
  by_cases hy : y = x
  · rw [hy, Ancestry.redirect_self]
    have hfind : entities.find? (fun e => e.id == x) = some row := hx
    rw [hfind, Option.map_some, if_pos (findEntity_mem hx).2, Option.bind_some]
  · rw [Ancestry.redirect_of_ne hy, parentOf, findEntity]
    cases hfind : entities.find? (fun e => e.id == y) with
    | none => rfl
    | some e =>
      have hid : e.id = y := by simpa using List.find?_some hfind
      rw [Option.map_some, if_neg (fun h => hy (hid.symm.trans h))]

variable {parent : EntityId} {entityId : Option EntityId}

theorem walkParents_eq_ok {u : Unit} : ∀ {left : ℕ} {current : EntityId},
    walkParents entities (some x) parent left current = .ok u →
      ¬ Ancestry.Above (parentOf entities) x current
  | 0, _, h => by cases h
  | left + 1, current, h => by
    rw [walkParents] at h
    cases hfind : findEntity entities current with
    | none =>
      rw [hfind] at h
      cases h
    | some e =>
      rw [hfind] at h
      simp only [Except.bind_eq_ok, Except.require_eq_ok, Option.isSome_some, true_implies,
        exists_const] at h
      obtain ⟨hne, h⟩ := h
      have hup : parentOf entities current = e.parentEntityId := by
        rw [parentOf, hfind, Option.bind_some]
      cases hp : e.parentEntityId with
      | none =>
        rw [hp] at hup
        exact Ancestry.not_above_of_none hup
      | some next =>
        rw [hp] at h hup hne
        rw [Ancestry.above_iff hup, not_or]
        exact ⟨fun heq => hne (congrArg some heq.symm), walkParents_eq_ok h⟩

theorem walkParents_found {current : EntityId} {left : ℕ} {u : Unit}
    (h : walkParents entities entityId parent left current = .ok u) :
    current ∈ entities.map (·.id) := by
  cases left with
  | zero => cases h
  | succ left =>
    rw [walkParents] at h
    cases hfind : findEntity entities current with
    | none =>
      rw [hfind] at h
      cases h
    | some e =>
      obtain ⟨he, rfl⟩ := findEntity_mem hfind
      exact List.mem_map_of_mem he

theorem assertOptionalParentValid_eq_ok {parent : Option EntityId} {u : Unit}
    (h : assertOptionalParentValid entities entityId parent = .ok u) :
    ∀ q, parent = some q → q ∈ entities.map (·.id) ∧ entityId ≠ some q ∧
      ∀ x, entityId = some x → ¬ Ancestry.Above (parentOf entities) x q := by
  intro q hq
  rw [hq] at h
  simp only [assertOptionalParentValid, assertParentValid, Except.bind_eq_ok,
    Except.require_eq_ok, exists_const] at h
  obtain ⟨hne, hwalk⟩ := h
  refine ⟨walkParents_found hwalk, hne, fun x hx => ?_⟩
  rw [hx] at hwalk
  exact walkParents_eq_ok hwalk

theorem createEntity_eq_ok {newId : EntityId} {input : CreateEntityInput}
    (h : createEntity entities newId input = .ok (row, entities')) :
    newId ∉ entities.map (·.id) ∧ row.id = newId ∧ entities' = entities ++ [row] ∧
      ∀ q, row.parentEntityId = some q → q ∈ entities.map (·.id) := by
  simp only [createEntity, Except.bind_eq_ok, Except.require_eq_ok, Except.pure_eq_ok,
    Prod.mk.injEq, exists_const] at h
  obtain ⟨name, -, legalName, -, u, hparent, hnew, rfl, rfl⟩ := h
  exact ⟨hnew, rfl, rfl, fun q hq => (assertOptionalParentValid_eq_ok hparent q hq).1⟩

theorem updateEntity_eq_ok {patch : UpdateEntityPatch}
    (h : updateEntity entities x patch = .ok (row, entities')) :
    x ∈ entities.map (·.id) ∧ entities'.map (·.id) = entities.map (·.id) ∧
      parentOf entities' = Ancestry.redirect (parentOf entities) x
        (patch.parentEntityId.getD (parentOf entities x)) ∧
      ∀ q, patch.parentEntityId = some (some q) → q ∈ entities.map (·.id) ∧ q ≠ x ∧
        ¬ Ancestry.Above (parentOf entities) x q := by
  simp only [updateEntity, Except.bind_eq_ok, Except.pure_eq_ok, Prod.mk.injEq] at h
  obtain ⟨name, -, legalName, -, existing, hexisting, u, hparent, -, rfl⟩ := h
  have hfind : findEntity entities x = some existing := by
    unfold requireEntity at hexisting
    split at hexisting
    · cases hexisting
    · rename_i found hfound
      cases hexisting
      exact hfound
  obtain ⟨hmem, hid⟩ := findEntity_mem hfind
  have hup : parentOf entities x = existing.parentEntityId := by
    rw [parentOf, hfind, Option.bind_some]
  refine ⟨hid ▸ List.mem_map_of_mem hmem, ?_, ?_, fun q hq => ?_⟩
  · rw [List.map_map]
    refine List.map_congr_left fun e _ => ?_
    simp only [Function.comp_apply]
    split_ifs <;> rfl
  · rw [hup]
    exact parentOf_update (f := patched patch name legalName) (fun _ => rfl) hfind
  · obtain ⟨hq, hne, hout⟩ := assertOptionalParentValid_eq_ok hparent q (by rw [hq]; rfl)
    exact ⟨hq, fun heq => hne (congrArg some heq.symm), hout x rfl⟩

end Parents

section Links

variable {s t : RoutingTables} {books : List AccountingBookRow} {row : LinkRow}

theorem linkEntity_eq_ok {newId : LinkId} {value : LinkEntityInput}
    (h : linkEntity books s newId value = .ok (row, t)) :
    (row.linkRole = value.linkRole ∧ row.accountingBookId = value.accountingBookId ∧
      row.economicEntityId = value.economicEntityId ∧ row.effectiveFrom = value.effectiveFrom ∧
      row.effectiveTo = value.effectiveTo) ∧
    (∀ upper ∈ row.effectiveTo, row.effectiveFrom ≤ upper) ∧
    row.economicEntityId ∈ s.economicEntities.map (·.id) ∧
    (row.linkRole = .postingPrimary → s.conflictingDescendantLink row = none) ∧
    row.id ∉ s.bookEntityLinks.map (·.id) ∧
    t = { s with bookEntityLinks := s.bookEntityLinks ++ [row] } := by
  simp only [linkEntity, Except.bind_eq_ok, Except.require_eq_ok, Except.pure_eq_ok,
    Prod.mk.injEq, exists_const] at h
  obtain ⟨label, -, note, -, hrange, book, -, -, entity, hentity, u, hroll, hnew, -, rfl, rfl⟩ := h
  refine ⟨⟨rfl, rfl, rfl, rfl, rfl⟩, hrange, ?_, fun hprimary => ?_, hnew, rfl⟩
  · unfold loadLinkedEntity at hentity
    split at hentity
    · cases hentity
    · rename_i found hfound
      obtain ⟨hmem, hid⟩ := findEntity_mem hfound
      show value.economicEntityId ∈ _
      rw [← hid]
      exact List.mem_map_of_mem hmem
  · rw [assertRollUp, if_pos hprimary] at hroll
    simp only [Except.bind_eq_ok] at hroll
    obtain ⟨-, -, hdown⟩ := hroll
    unfold assertDescendantBooks at hdown
    split at hdown
    · assumption
    · cases hdown

theorem endLink_eq_ok {input : EndLinkInput} (h : endLink s input = .ok (row, t)) :
    ∃ before ∈ s.bookEntityLinks, before.id = input.bookEntityLinkId ∧
      before.effectiveFrom ≤ input.effectiveTo ∧
      t = { s with bookEntityLinks := s.bookEntityLinks.map fun link =>
        if link.id = before.id then endedAt input.effectiveTo link else link } := by
  simp only [endLink, Except.bind_eq_ok, Except.require_eq_ok, Except.pure_eq_ok,
    Prod.mk.injEq, exists_const] at h
  obtain ⟨before, hload, hrange, -, -, rfl⟩ := h
  unfold loadLink at hload
  split at hload
  · cases hload
  · rename_i found hfound
    cases hload
    exact ⟨before, List.mem_of_find?_eq_some hfound, by simpa using List.find?_some hfound, hrange,
      rfl⟩

theorem conflictingDescendantLink_none (hs : RoutingSound s)
    (h : s.conflictingDescendantLink row = none) {l : LinkRow} (hl : l ∈ s.bookEntityLinks)
    (hoverlap : PrimaryOverlap l row)
    (habove : Ancestry.Above (parentOf s.economicEntities) row.economicEntityId
      l.economicEntityId) : l.accountingBookId = row.accountingBookId := by
  by_contra hne
  refine List.find?_eq_none.1 h l hl ?_
  simp [hs.mem_ancestors.2 habove, hoverlap.1, hoverlap.2.2, hne]

end Links

namespace RoutingTables

variable (s : RoutingTables)

/-- The condition on a call. A new primary link agrees with every overlapping one of an ancestor;
a link whose end is set agrees, over its new range, with those of ancestors and descendants; the
links of a moved subtree agree with those of its new ancestors. -/
def Agrees : RoutingCall → Prop
  | .createEntity _ _ => True
  | .updateEntity id patch => ∀ parent ∈ patch.parentEntityId.join,
      ∀ l ∈ s.bookEntityLinks, l.economicEntityId = id ∨ id ∈ s.ancestors l.economicEntityId →
      ∀ u ∈ s.bookEntityLinks,
        u.economicEntityId = parent ∨ u.economicEntityId ∈ s.ancestors parent →
        PrimaryOverlap l u → l.accountingBookId = u.accountingBookId
  | .linkEntity _ newId value => ∀ u ∈ s.bookEntityLinks,
      u.economicEntityId ∈ s.ancestors value.economicEntityId →
      PrimaryOverlap (linkRow newId value none none) u →
      value.accountingBookId = u.accountingBookId
  | .endLink input => ∀ l ∈ s.bookEntityLinks, l.id = input.bookEntityLinkId →
      ∀ u ∈ s.bookEntityLinks, u.economicEntityId ∈ s.ancestors l.economicEntityId ∨
        l.economicEntityId ∈ s.ancestors u.economicEntityId →
        PrimaryOverlap (endedAt input.effectiveTo l) u → l.accountingBookId = u.accountingBookId

instance : ∀ call, Decidable (s.Agrees call)
  | .createEntity _ _ => inferInstanceAs (Decidable True)
  | .updateEntity _ _ => inferInstanceAs (Decidable (∀ _ ∈ _, _))
  | .linkEntity _ _ _ => inferInstanceAs (Decidable (∀ _ ∈ _, _))
  | .endLink _ => inferInstanceAs (Decidable (∀ _ ∈ _, _))

def AgreesIfAccepted (call : RoutingCall) : Prop := (s.perform call).isSome → s.Agrees call

instance (call : RoutingCall) : Decidable (s.AgreesIfAccepted call) :=
  inferInstanceAs (Decidable (_ → _))

end RoutingTables

section Steps

variable {s t : RoutingTables}

theorem Consistent.mono {t : RoutingTables} (hs : Consistent s)
    (hlinks : t.bookEntityLinks = s.bookEntityLinks)
    (habove : ∀ l ∈ s.bookEntityLinks, ∀ u ∈ s.bookEntityLinks,
      Ancestry.Above (parentOf t.economicEntities) u.economicEntityId l.economicEntityId →
      Ancestry.Above (parentOf s.economicEntities) u.economicEntityId l.economicEntityId ∨
        (PrimaryOverlap l u → l.accountingBookId = u.accountingBookId)) : Consistent t := by
  intro l hl u hu hoverlap h
  rw [hlinks] at hl hu
  rcases habove l hl u hu h with h | h
  · exact hs l hl u hu hoverlap h
  · exact h hoverlap

section Create

variable {newId : EntityId} {input : CreateEntityInput} {row : EntityRow}
  {entities' : List EntityRow}

theorem RoutingSound.create (hs : RoutingSound s)
    (h : createEntity s.economicEntities newId input = .ok (row, entities')) :
    RoutingSound { s with economicEntities := entities' } := by
  obtain ⟨hnew, rfl, rfl, hparent⟩ := createEntity_eq_ok h
  have hup := parentOf_append hnew
  have hids : ∀ {x}, x ∈ s.economicEntities.map (·.id) →
      x ∈ (s.economicEntities ++ [row]).map (·.id) := fun hx => by
    rw [List.map_append]
    exact List.mem_append_left _ hx
  refine ⟨nodup_map_concat hs.entityIds hnew, hs.linkIds, fun x p hp => ?_,
    fun l hl => hids (hs.linked l hl), hs.ranges, ?_⟩
  · rw [hup] at hp
    by_cases hx : x = row.id
    · rw [hx, Ancestry.redirect_self] at hp
      exact hids (hparent p hp)
    · rw [Ancestry.redirect_of_ne hx] at hp
      exact hids (hs.parents x p hp)
  · rw [hup]
    refine Ancestry.ranked_redirect hs.ranked fun q hq => ⟨?_, fun habove => ?_⟩
    · rintro rfl
      exact hnew (hparent _ hq)
    · exact hnew (hs.above_mem habove)

theorem Consistent.create (hs : RoutingSound s) (hc : Consistent s)
    (h : createEntity s.economicEntities newId input = .ok (row, entities')) :
    Consistent { s with economicEntities := entities' } := by
  obtain ⟨hnew, rfl, rfl, -⟩ := createEntity_eq_ok h
  refine hc.mono rfl fun l hl u _ habove => .inl ?_
  rw [parentOf_append hnew] at habove
  rcases Ancestry.above_of_redirect habove with habove | ⟨heq | hnewAbove, -⟩
  · exact habove
  · exact absurd (heq ▸ hs.linked l hl) hnew
  · exact absurd (hs.above_mem hnewAbove) hnew

end Create

section Move

variable {id : EntityId} {patch : UpdateEntityPatch} {row : EntityRow}
  {entities' : List EntityRow}

theorem RoutingSound.move (hs : RoutingSound s)
    (h : updateEntity s.economicEntities id patch = .ok (row, entities')) :
    RoutingSound { s with economicEntities := entities' } := by
  obtain ⟨-, hids, hup, hparent⟩ := updateEntity_eq_ok h
  -- the pointer is the old one, none, or one outside the subtree
  have hout : ∀ q, patch.parentEntityId.getD (parentOf s.economicEntities id) = some q →
      q ∈ s.economicEntities.map (·.id) ∧ q ≠ id ∧
        ¬ Ancestry.Above (parentOf s.economicEntities) id q := by
    intro q hq
    cases hpatch : patch.parentEntityId with
    | none =>
      rw [hpatch, Option.getD_none] at hq
      refine ⟨hs.parents id q hq, ?_, fun habove => ?_⟩
      · rintro rfl
        exact hs.not_above_self (.parent hq)
      · exact hs.not_above_self (.step hq habove)
    | some value =>
      rw [hpatch, Option.getD_some] at hq
      exact hparent q (by rw [hpatch, hq])
  refine ⟨by rw [hids]; exact hs.entityIds, hs.linkIds, fun x p hp => ?_, fun l hl => ?_,
    hs.ranges, ?_⟩
  · rw [hup] at hp
    rw [hids]
    by_cases hx : x = id
    · rw [hx, Ancestry.redirect_self] at hp
      exact (hout p hp).1
    · rw [Ancestry.redirect_of_ne hx] at hp
      exact hs.parents x p hp
  · rw [hids]
    exact hs.linked l hl
  · rw [hup]
    exact Ancestry.ranked_redirect hs.ranked fun q hq => (hout q hq).2

theorem consistent_move_iff (hs : RoutingSound s) (hc : Consistent s)
    (h : updateEntity s.economicEntities id patch = .ok (row, entities')) :
    Consistent { s with economicEntities := entities' } ↔ s.Agrees (.updateEntity id patch) := by
  obtain ⟨-, -, hup, hparent⟩ := updateEntity_eq_ok h
  constructor
  · intro ht parent hpatch l hl hunder u hu habove hoverlap
    have hvalue : patch.parentEntityId = some (some parent) := Option.join_eq_some_iff.1 hpatch
    obtain ⟨-, hne, hout⟩ := hparent parent hvalue
    refine ht l hl u hu hoverlap ?_
    rw [hs.mem_ancestors] at hunder habove
    rw [hup, hvalue, Option.getD_some]
    exact Ancestry.above_redirect hne hout hunder habove
  · intro hagrees
    refine hc.mono rfl fun l hl u hu habove => ?_
    rw [hup] at habove
    rcases Ancestry.above_of_redirect habove with habove | ⟨hunder, q, hq, hqu⟩
    · exact .inl habove
    · cases hpatch : patch.parentEntityId with
      | none =>
        rw [hpatch, Option.getD_none] at hq
        left
        have hid := (Ancestry.above_iff hq).2 hqu
        rcases hunder with heq | hunder
        · rw [heq]
          exact hid
        · exact Relation.TransGen.trans hunder hid
      | some value =>
        rw [hpatch, Option.getD_some] at hq
        right
        refine hagrees q (by rw [hpatch, hq]; rfl) l hl ?_ u hu ?_
        · rwa [hs.mem_ancestors]
        · rwa [hs.mem_ancestors]

end Move

section Link

variable {books : List AccountingBookRow} {newId : LinkId} {value : LinkEntityInput} {row : LinkRow}

theorem RoutingSound.link (hs : RoutingSound s) (h : linkEntity books s newId value = .ok (row, t))
    : RoutingSound t := by
  obtain ⟨-, hrange, hentity, -, hnew, rfl⟩ := linkEntity_eq_ok h
  refine ⟨hs.entityIds, nodup_map_concat hs.linkIds hnew, hs.parents, fun l hl => ?_,
    fun l hl => ?_, hs.ranked⟩
  · rcases List.mem_append.1 hl with hl | hl
    · exact hs.linked l hl
    · rw [List.mem_singleton.1 hl]
      exact hentity
  · rcases List.mem_append.1 hl with hl | hl
    · exact hs.ranges l hl
    · rw [List.mem_singleton.1 hl]
      exact hrange

theorem consistent_link_iff (hs : RoutingSound s) (hc : Consistent s)
    (h : linkEntity books s newId value = .ok (row, t)) :
    Consistent t ↔ s.Agrees (.linkEntity books newId value) := by
  obtain ⟨⟨hrole, hbook, hid, hfrom, hto⟩, -, -, hdown, -, rfl⟩ := linkEntity_eq_ok h
  have hoverlaps : ∀ u, PrimaryOverlap (linkRow newId value none none) u ↔ PrimaryOverlap row u := by
    intro u
    unfold PrimaryOverlap rangesOverlap
    rw [hrole, hfrom, hto]
    rfl
  constructor
  · intro ht u hu habove hoverlap
    rw [hs.mem_ancestors] at habove
    rw [← hbook]
    refine ht row (List.mem_append_right _ (List.mem_singleton_self _)) u
      (List.mem_append_left _ hu) ((hoverlaps u).1 hoverlap) ?_
    rw [hid]
    exact habove
  · intro hagrees l hl u hu hoverlap habove
    rcases List.mem_append.1 hl with hl | hl
    · rcases List.mem_append.1 hu with hu | hu
      · exact hc l hl u hu hoverlap habove
      · rw [List.mem_singleton.1 hu] at hoverlap habove ⊢
        exact conflictingDescendantLink_none hs (hdown hoverlap.2.1) hl hoverlap habove
    · rw [List.mem_singleton.1 hl] at hoverlap habove ⊢
      rcases List.mem_append.1 hu with hu | hu
      · rw [hbook]
        refine hagrees u hu ?_ ((hoverlaps u).2 hoverlap)
        rw [hs.mem_ancestors, ← hid]
        exact habove
      · rw [List.mem_singleton.1 hu] at habove
        exact absurd habove hs.not_above_self

end Link

section End

variable {input : EndLinkInput} {row : LinkRow}

theorem RoutingSound.endLink (hs : RoutingSound s) (h : Loxep.endLink s input = .ok (row, t)) :
    RoutingSound t := by
  obtain ⟨before, hbefore, -, hrange, rfl⟩ := endLink_eq_ok h
  refine ⟨hs.entityIds, ?_, hs.parents, fun l' hl' => ?_, fun l' hl' => ?_, hs.ranked⟩
  · have hids : (s.bookEntityLinks.map fun link =>
        if link.id = before.id then endedAt input.effectiveTo link else link).map (·.id) =
          s.bookEntityLinks.map (·.id) := by
      rw [List.map_map]
      refine List.map_congr_left fun l _ => ?_
      simp only [Function.comp_apply]
      split_ifs <;> rfl
    rw [hids]
    exact hs.linkIds
  · obtain ⟨l, hl, rfl⟩ := List.mem_map.1 hl'
    split_ifs
    · exact hs.linked l hl
    · exact hs.linked l hl
  · obtain ⟨l, hl, rfl⟩ := List.mem_map.1 hl'
    split_ifs with hid
    · obtain rfl := List.inj_on_of_nodup_map hs.linkIds hl hbefore hid
      intro upper hupper
      rw [← Option.some.inj hupper]
      exact hrange
    · exact hs.ranges l hl

theorem consistent_endLink_iff (hs : RoutingSound s) (hc : Consistent s)
    (h : Loxep.endLink s input = .ok (row, t)) : Consistent t ↔ s.Agrees (.endLink input) := by
  obtain ⟨before, hbefore, hid, -, rfl⟩ := endLink_eq_ok h
  have honly : ∀ l ∈ s.bookEntityLinks, l.id = before.id → l = before := fun l hl heq =>
    List.inj_on_of_nodup_map hs.linkIds hl hbefore heq
  -- a link of the new table is the ended one or an old one
  have hmem : ∀ l', l' ∈ (s.bookEntityLinks.map fun link =>
      if link.id = before.id then endedAt input.effectiveTo link else link) ↔
        l' = endedAt input.effectiveTo before ∨ (l' ∈ s.bookEntityLinks ∧ l'.id ≠ before.id) := by
    intro l'
    rw [List.mem_map]
    constructor
    · rintro ⟨l, hl, rfl⟩
      split_ifs with heq
      · rw [honly l hl heq]
        exact .inl rfl
      · exact .inr ⟨hl, heq⟩
    · rintro (rfl | ⟨hl, hne⟩)
      · exact ⟨before, hbefore, if_pos rfl⟩
      · exact ⟨l', hl, if_neg hne⟩
  constructor
  · intro ht l hl hlid u hu habove hoverlap
    obtain rfl := honly l hl (hlid.trans hid.symm)
    by_cases huid : u.id = l.id
    · rw [honly u hu huid]
    · have hended := (hmem (endedAt input.effectiveTo l)).2 (.inl rfl)
      have hother := (hmem u).2 (.inr ⟨hu, huid⟩)
      rw [hs.mem_ancestors, hs.mem_ancestors] at habove
      rcases habove with habove | habove
      · exact ht _ hended u hother hoverlap habove
      · exact (ht u hother _ hended hoverlap.symm habove).symm
  · intro hagrees l' hl' u' hu' hoverlap habove
    have hrule := fun u hu => hagrees before hbefore hid u hu
    simp only [hs.mem_ancestors] at hrule
    rcases (hmem l').1 hl' with rfl | ⟨hl, -⟩
    · rcases (hmem u').1 hu' with rfl | ⟨hu, -⟩
      · rfl
      · exact hrule u' hu (.inl habove) hoverlap
    · rcases (hmem u').1 hu' with rfl | ⟨hu, -⟩
      · exact (hrule l' hl (.inr habove) hoverlap.symm).symm
      · exact hc l' hl u' hu hoverlap habove

end End

theorem RoutingSound.step (hs : RoutingSound s) (call : RoutingCall) :
    RoutingSound (s.step call) ∧
      (Consistent s → (Consistent (s.step call) ↔ s.AgreesIfAccepted call)) := by
  unfold RoutingTables.step RoutingTables.AgreesIfAccepted
  cases hperform : s.perform call with
  | none => exact ⟨hs, fun hc => iff_of_true hc fun h => by cases h⟩
  | some t =>
    simp only [Option.getD_some, Option.isSome_some, true_implies]
    cases call with
    | createEntity newId input =>
      obtain ⟨⟨row, entities'⟩, hok, rfl⟩ := Option.map_eq_some_iff.1 hperform
      rw [Except.toOption_eq_some] at hok
      exact ⟨hs.create hok, fun hc => iff_of_true (hc.create hs hok) trivial⟩
    | updateEntity id patch =>
      obtain ⟨⟨row, entities'⟩, hok, rfl⟩ := Option.map_eq_some_iff.1 hperform
      rw [Except.toOption_eq_some] at hok
      exact ⟨hs.move hok, fun hc => consistent_move_iff hs hc hok⟩
    | linkEntity books newId value =>
      obtain ⟨⟨row, t'⟩, hok, rfl⟩ := Option.map_eq_some_iff.1 hperform
      rw [Except.toOption_eq_some] at hok
      exact ⟨hs.link hok, fun hc => consistent_link_iff hs hc hok⟩
    | endLink input =>
      obtain ⟨⟨row, t'⟩, hok, rfl⟩ := Option.map_eq_some_iff.1 hperform
      rw [Except.toOption_eq_some] at hok
      exact ⟨hs.endLink hok, fun hc => consistent_endLink_iff hs hc hok⟩

theorem routingSound_empty : RoutingSound .empty where
  entityIds := List.nodup_nil
  linkIds := List.nodup_nil
  parents x p hp := by cases hp
  linked l hl := by cases hl
  ranges l hl := by cases hl
  ranked := ⟨fun _ => 0, fun x p hp => by cases hp⟩

theorem consistent_empty : Consistent .empty := fun l hl => by cases hl

/-- In a run from empty tables every two links of an entity and an ancestor agree all along exactly
when every accepted call agrees. -/
theorem roll_up_iff (calls : List RoutingCall) :
    (Runs.Along RoutingTables.step Consistent .empty calls ↔
      Runs.Meets RoutingTables.step RoutingTables.AgreesIfAccepted .empty calls) ∧
    (Runs.Meets RoutingTables.step RoutingTables.AgreesIfAccepted .empty calls →
      Runs.Along RoutingTables.step RollsUp .empty calls) := by
  constructor
  · exact Runs.along_iff_meets (fun s call hs _ => (hs.step call).1)
      (fun s call hs hc => (hs.step call).2 hc) routingSound_empty consistent_empty
  · intro hmeets
    have hkeep : ∀ s call, RoutingSound s ∧ Consistent s → s.AgreesIfAccepted call →
        RoutingSound (s.step call) ∧ Consistent (s.step call) := fun s call hs hagrees =>
      ⟨(hs.1.step call).1, ((hs.1.step call).2 hs.2).2 hagrees⟩
    have halong := Runs.along_of_meets hkeep ⟨routingSound_empty, consistent_empty⟩ hmeets
    exact halong.mono fun s hs => hs.2.rollsUp hs.1

end Steps

namespace Small

def twoBooks : List AccountingBookRow := [⟨0, "MAIN", "USD", .active⟩, ⟨1, "OTHER", "USD", .active⟩]

def company : List RoutingCall :=
  [.createEntity 0 ⟨"Company", .llc, none, none⟩,
    .createEntity 1 ⟨"Assumed name", .assumedName, some 0, none⟩]

def routed (newId : LinkId) (entity : EntityId) (book : BookId) (since : CalendarDate) :
    RoutingCall :=
  .linkEntity twoBooks newId ⟨book, entity, .postingPrimary, since, none, none, none⟩

def parentLater : List RoutingCall :=
  company ++ [routed 0 0 1 ⟨2026, 7, 1⟩, routed 1 1 0 ⟨2026, 1, 1⟩]

def sameBook : List RoutingCall :=
  company ++ [routed 0 0 0 ⟨2026, 7, 1⟩, routed 1 1 0 ⟨2026, 1, 1⟩]

end Small

theorem parent_later_splits : ¬ ∀ calls : List RoutingCall,
    Runs.Along RoutingTables.step RollsUp .empty calls := by
  intro hall
  have hlast := (hall Small.parentLater).last
  have hentity : ∃ e ∈ (Runs.run RoutingTables.step .empty Small.parentLater).economicEntities,
      e.id = 1 ∧ e.parentEntityId = some 0 := by decide +kernel
  have hlink : ∃ l ∈ (Runs.run RoutingTables.step .empty Small.parentLater).bookEntityLinks,
      l.economicEntityId = 1 ∧ l.accountingBookId = 0 ∧
        Setup.routesOn ⟨2026, 8, 1⟩ l.toBookEntityLinkRow = true := by decide +kernel
  obtain ⟨e, he, hid, hparent⟩ := hentity
  obtain ⟨l, hl, hlid, hbook, hroutes⟩ := hlink
  have hsame := hlast e he 0 hparent l hl (hlid.trans hid.symm) ⟨2026, 8, 1⟩ hroutes 1 0 0
    (by decide +kernel)
  rw [hbook] at hsame
  cases hsame

theorem same_book_rolls_up : RollsUp (Runs.run RoutingTables.step .empty Small.sameBook) ∧
    (Runs.run RoutingTables.step .empty Small.sameBook).bookEntityLinks.length = 2 := by
  have hmeets : Runs.Meets RoutingTables.step RoutingTables.AgreesIfAccepted .empty
      Small.sameBook := by decide +kernel
  exact ⟨((roll_up_iff Small.sameBook).2 hmeets).last, by decide +kernel⟩

end Loxep

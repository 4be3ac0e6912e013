import Loxep.Proofs.RollUp

/-!
# The forest of the economic entities

No call closes a cycle of parents. The walk that validates a parent counts the entities above it and
not those below the one it moves.
-/

namespace Loxep

namespace RoutingTables

variable (s : RoutingTables)

def lineage (id : EntityId) : List EntityId := id :: s.ancestors id

def Routed (onDate : CalendarDate) (id : EntityId) (book : BookId) : Prop :=
  ∃ l ∈ s.bookEntityLinks, l.economicEntityId = id ∧
    Setup.routesOn onDate l.toBookEntityLinkRow = true ∧ l.accountingBookId = book

/-- The route is by the nearest entity of the lineage that is linked on the day, and there is none
only where no entity of the lineage is. -/
def RoutesByNearest (id : EntityId) (onDate : CalendarDate) :
    Option (BookId × ℕ × EntityId) → Prop
  | none => ∀ a ∈ s.lineage id, ∀ book, ¬ s.Routed onDate a book
  | some (book, depth, via) => ∃ nearer farther, s.lineage id = nearer ++ via :: farther ∧
      depth = nearer.length ∧ s.Routed onDate via book ∧
      ∀ a ∈ nearer, ∀ other, ¬ s.Routed onDate a other

/-- No entity is above itself, no chain is longer than a route walks, and every route is by the
nearest linked entity. -/
structure Forest (s : RoutingTables) : Prop where
  acyclic : ∀ x, ¬ Ancestry.Above (parentOf s.economicEntities) x x
  depth : ∀ x, (s.ancestors x).length ≤ maxParentDepth
  nearest : ∀ books x onDate,
    s.RoutesByNearest x onDate ((s.setup books).routeThroughEntity x onDate)
  ended : ∀ id, ∃ n, s.descendantRound id n = []

def Fits : RoutingCall → Prop
  | .updateEntity id patch => ∀ parent ∈ patch.parentEntityId.join,
      ∀ e ∈ s.economicEntities, id ∈ s.lineage e.id →
        (s.ancestors e.id).length - (s.ancestors id).length + (s.lineage parent).length ≤
          maxParentDepth
  | _ => True

instance : ∀ call, Decidable (s.Fits call)
  | .updateEntity _ _ => inferInstanceAs (Decidable (∀ _ ∈ _, _))
  | .createEntity _ _ => inferInstanceAs (Decidable True)
  | .linkEntity _ _ _ => inferInstanceAs (Decidable True)
  | .endLink _ => inferInstanceAs (Decidable True)

def FitsIfAccepted (call : RoutingCall) : Prop := (s.perform call).isSome → s.Fits call

instance (call : RoutingCall) : Decidable (s.FitsIfAccepted call) :=
  inferInstanceAs (Decidable (_ → _))

end RoutingTables

section Depths

variable {s : RoutingTables} {x p id : EntityId} {n : ℕ}

theorem parentOf_mem {entities : List EntityRow} (h : parentOf entities x = some p) :
    x ∈ entities.map (·.id) := by
  obtain ⟨e, he, -⟩ := Option.bind_eq_some_iff.1 h
  obtain ⟨hmem, hid⟩ := findEntity_mem he
  exact hid ▸ List.mem_map_of_mem hmem

theorem RoutingSound.depth (hs : RoutingSound s) (x : EntityId) :
    Ancestry.Depth (parentOf s.economicEntities) x (s.ancestors x).length := by
  obtain ⟨n, hn, hdepth⟩ := hs.ranked.exists_depth hs.parents x
  have hlength : (s.ancestors x).length = n := hdepth.length_ancestors hn
  rwa [hlength]

theorem RoutingSound.depth_eq (hs : RoutingSound s)
    (h : Ancestry.Depth (parentOf s.economicEntities) x n) : (s.ancestors x).length = n :=
  (hs.depth x).unique h

theorem RoutingSound.mem_lineage (hs : RoutingSound s) :
    p ∈ s.lineage x ↔ x = p ∨ Ancestry.Above (parentOf s.economicEntities) p x := by
  rw [RoutingTables.lineage, List.mem_cons, hs.mem_ancestors, eq_comm]

theorem RoutingSound.mem_childrenOf (hs : RoutingSound s) :
    x ∈ s.childrenOf p ↔ parentOf s.economicEntities x = some p := by
  rw [RoutingTables.childrenOf, List.mem_map]
  constructor
  · rintro ⟨e, he, rfl⟩
    obtain ⟨hmem, hparent⟩ := List.mem_filter.1 he
    rw [parentOf, findEntity_of_mem hs.entityIds hmem, Option.bind_some]
    exact beq_iff_eq.1 hparent
  · intro h
    obtain ⟨e, he, hparent⟩ := Option.bind_eq_some_iff.1 h
    obtain ⟨hmem, hid⟩ := findEntity_mem he
    exact ⟨e, List.mem_filter.2 ⟨hmem, beq_iff_eq.2 hparent⟩, hid⟩

theorem RoutingSound.mem_descendantRound (hs : RoutingSound s) : ∀ {n : ℕ} {x : EntityId},
    x ∈ s.descendantRound id n ↔ (s.ancestors x)[n]? = some id
  | 0, x => by
    rw [RoutingTables.descendantRound, hs.mem_childrenOf]
    rcases hp : parentOf s.economicEntities x with _ | p
    · rw [RoutingTables.ancestors, Ancestry.ancestors_of_none hp]
      simp
    · rw [RoutingTables.ancestors, Ancestry.ancestors_eq_cons hs.ranked hs.parents hp]
      simp
  | n + 1, x => by
    rw [RoutingTables.descendantRound, List.mem_flatMap]
    simp only [hs.mem_childrenOf, hs.mem_descendantRound (n := n)]
    rcases hp : parentOf s.economicEntities x with _ | p
    · rw [RoutingTables.ancestors, Ancestry.ancestors_of_none hp]
      simp
    · rw [RoutingTables.ancestors, Ancestry.ancestors_eq_cons hs.ranked hs.parents hp]
      simp [RoutingTables.ancestors]

theorem RoutingSound.descendantRound_ended (hs : RoutingSound s) (id : EntityId) :
    s.descendantRound id s.economicEntities.length = [] := by
  rw [List.eq_nil_iff_forall_not_mem]
  intro x hx
  obtain ⟨n, hn, hdepth⟩ := hs.ranked.exists_depth hs.parents x
  obtain ⟨hlt, -⟩ := List.getElem?_eq_some_iff.1 (hs.mem_descendantRound.1 hx)
  rw [hs.depth_eq hdepth] at hlt
  rw [List.length_map] at hn
  omega

theorem RoutingSound.chain_eq (hs : RoutingSound s) {books : List AccountingBookRow} :
    ∀ {n : ℕ} {x : EntityId}, x ∈ s.economicEntities.map (·.id) →
      (s.setup books).chain (n + 1) x =
        x :: Ancestry.ancestors (parentOf s.economicEntities) n x := by
  intro n
  induction n with
  | zero =>
    intro x hx
    obtain ⟨e, he, rfl⟩ := List.mem_map.1 hx
    rw [chain_succ (findEntity_of_mem hs.entityIds he)]
    cases e.parentEntityId <;> rfl
  | succ n ih =>
    intro x hx
    obtain ⟨e, he, rfl⟩ := List.mem_map.1 hx
    have hfind := findEntity_of_mem hs.entityIds he
    have hup : parentOf s.economicEntities e.id = e.parentEntityId := by
      rw [parentOf, hfind, Option.bind_some]
    rw [chain_succ hfind]
    cases hp : e.parentEntityId with
    | none => rw [Option.elim_none, Ancestry.ancestors_of_none (hup.trans hp)]
    | some p =>
      rw [hp] at hup
      simp only [Option.elim_some, ih (hs.parents e.id p hup), Ancestry.ancestors, hup]

theorem chain_of_not_mem {books : List AccountingBookRow} (h : x ∉ s.economicEntities.map (·.id))
    : (s.setup books).chain n x = [] := by
  refine chain_of_none (Option.eq_none_iff_forall_ne_some.2 fun e he => h ?_) n
  obtain ⟨hmem, rfl⟩ := findEntity_mem he
  exact List.mem_map_of_mem hmem

end Depths

section Nearest

variable {s : RoutingTables} {books : List AccountingBookRow} {x id : EntityId}
  {onDate : CalendarDate}

variable {α β : Type} {a : EntityId}

variable {g : α → Option β}

theorem findSome_zipIdx_iff {b : β} {d : ℕ} {a : α} :
    ∀ {l : List α} {k : ℕ},
      (l.zipIdx k).findSome? (fun p => (g p.1).map fun b => (b, p.2, p.1)) = some (b, d, a) ↔
        ∃ before after, l = before ++ a :: after ∧ d = k + before.length ∧ g a = some b ∧
          ∀ c ∈ before, g c = none
  | [], k => by simp
  | c :: l, k => by
    rw [List.zipIdx_cons, List.findSome?_cons]
    cases hc : g c with
    | none =>
      simp only [Option.map_none, findSome_zipIdx_iff (l := l)]
      constructor
      · rintro ⟨before, after, rfl, rfl, ha, hmiss⟩
        refine ⟨c :: before, after, rfl, ?_, ha, ?_⟩
        · rw [List.length_cons]
          omega
        · exact List.forall_mem_cons.2 ⟨hc, hmiss⟩
      · rintro ⟨before, after, heq, rfl, ha, hmiss⟩
        rcases before with _ | ⟨c', before⟩
        · obtain ⟨rfl, rfl⟩ := List.cons.inj heq
          simp [hc] at ha
        · obtain ⟨rfl, rfl⟩ := List.cons.inj heq
          refine ⟨before, after, rfl, ?_, ha, (List.forall_mem_cons.1 hmiss).2⟩
          rw [List.length_cons]
          omega
    | some b' =>
      simp only [Option.map_some, Option.some.injEq, Prod.mk.injEq]
      constructor
      · rintro ⟨rfl, rfl, rfl⟩
        exact ⟨[], l, rfl, rfl, hc, by simp⟩
      · rintro ⟨before, after, heq, rfl, ha, hmiss⟩
        rcases before with _ | ⟨c', before⟩
        · obtain ⟨rfl, rfl⟩ := List.cons.inj heq
          rw [hc, Option.some.injEq] at ha
          exact ⟨ha, rfl, rfl⟩
        · obtain ⟨rfl, rfl⟩ := List.cons.inj heq
          simp [(List.forall_mem_cons.1 hmiss).1] at hc

theorem findSome_zipIdx_none {l : List α}
    (h : l.zipIdx.findSome? (fun p => (g p.1).map fun b => (b, p.2, p.1)) = none) :
    ∀ c ∈ l, g c = none := by
  intro c hc
  rw [← List.zipIdx_map_fst 0 l] at hc
  obtain ⟨p, hp, rfl⟩ := List.mem_map.1 hc
  simpa using List.findSome?_eq_none_iff.1 h p hp

def RoutingTables.ownBook (s : RoutingTables) (onDate : CalendarDate) (a : EntityId) :
    Option BookId :=
  (s.bookEntityLinks.find? fun l =>
    l.economicEntityId == a && Setup.routesOn onDate l.toBookEntityLinkRow).map
      (·.accountingBookId)

theorem routed_of_ownBook {book : BookId} (h : s.ownBook onDate a = some book) :
    s.Routed onDate a book := by
  obtain ⟨l, hl, rfl⟩ := Option.map_eq_some_iff.1 h
  have hsome := List.find?_some hl
  simp only [Bool.and_eq_true, beq_iff_eq] at hsome
  exact ⟨l, List.mem_of_find?_eq_some hl, hsome.1, hsome.2, rfl⟩

theorem not_routed_of_ownBook (h : s.ownBook onDate a = none) (book : BookId) :
    ¬ s.Routed onDate a book := by
  rintro ⟨l, hl, hid, hroutes, -⟩
  rw [RoutingTables.ownBook, Option.map_eq_none_iff, List.find?_eq_none] at h
  exact h l hl (by simp [hid, hroutes])

theorem routeThroughEntity_eq : (s.setup books).routeThroughEntity x onDate =
    ((s.setup books).chain 33 x).zipIdx.findSome?
      (fun p => (s.ownBook onDate p.1).map fun b => (b, p.2, p.1)) := by
  unfold Setup.routeThroughEntity
  refine congrArg (fun f => List.findSome? f _) (funext fun p => ?_)
  simp only [RoutingTables.ownBook, RoutingTables.setup, List.find?_map, Option.map_map]
  rfl

theorem RoutingSound.chain_lineage (hs : RoutingSound s) (hx : x ∈ s.economicEntities.map (·.id))
    (hdepth : (s.ancestors x).length ≤ maxParentDepth) :
    (s.setup books).chain 33 x = s.lineage x := by
  obtain ⟨n, hn, hd⟩ := hs.ranked.exists_depth hs.parents x
  have hle : n ≤ 32 := hs.depth_eq hd ▸ hdepth
  rw [hs.chain_eq hx, RoutingTables.lineage, RoutingTables.ancestors, hd.ancestors_eq hle,
    hd.ancestors_eq hn]

theorem RoutingSound.routesByNearest (hs : RoutingSound s)
    (hdepth : (s.ancestors x).length ≤ maxParentDepth) :
    s.RoutesByNearest x onDate ((s.setup books).routeThroughEntity x onDate) := by
  by_cases hx : x ∈ s.economicEntities.map (·.id)
  · rw [routeThroughEntity_eq, hs.chain_lineage hx hdepth]
    cases hroute : (s.lineage x).zipIdx.findSome?
        (fun p => (s.ownBook onDate p.1).map fun b => (b, p.2, p.1)) with
    | none => exact fun a ha => not_routed_of_ownBook (findSome_zipIdx_none hroute a ha)
    | some route =>
      obtain ⟨book, depth, via⟩ := route
      obtain ⟨nearer, farther, hlineage, hlength, hvia, hmiss⟩ := findSome_zipIdx_iff.1 hroute
      exact ⟨nearer, farther, hlineage, by omega, routed_of_ownBook hvia,
        fun a ha => not_routed_of_ownBook (hmiss a ha)⟩
  · have hup : parentOf s.economicEntities x = none := by
      cases hp : parentOf s.economicEntities x with
      | none => rfl
      | some p => exact absurd (parentOf_mem hp) hx
    rw [routeThroughEntity_eq, chain_of_not_mem hx]
    rintro a ha book ⟨l, hl, rfl, -⟩
    rw [RoutingTables.lineage, RoutingTables.ancestors, Ancestry.ancestors_of_none hup,
      List.mem_singleton] at ha
    exact hx (ha ▸ hs.linked l hl)

end Nearest

theorem RoutingSound.forest_iff {s : RoutingTables} (hs : RoutingSound s) :
    s.Forest ↔ ∀ x, (s.ancestors x).length ≤ maxParentDepth :=
  ⟨fun h => h.depth, fun h =>
    ⟨fun _ => hs.not_above_self, h, fun _ x _ => hs.routesByNearest (h x),
      fun id => ⟨_, hs.descendantRound_ended id⟩⟩⟩

section Calls

variable {s t : RoutingTables} {id : EntityId}

variable {entities : List EntityRow} {entityId : Option EntityId} {parent : EntityId} {u : Unit}
  {input : CreateEntityInput}

theorem walkParents_depth : ∀ {left : ℕ} {current : EntityId},
    walkParents entities entityId parent left current = .ok u →
      ∃ n < left, Ancestry.Depth (parentOf entities) current n
  | 0, _, h => by cases h
  | left + 1, current, h => by
    rw [walkParents] at h
    cases hfind : findEntity entities current with
    | none =>
      rw [hfind] at h
      cases h
    | some e =>
      rw [hfind] at h
      simp only [Except.bind_eq_ok, Except.require_eq_ok, exists_const] at h
      obtain ⟨-, h⟩ := h
      have hup : parentOf entities current = e.parentEntityId := by
        rw [parentOf, hfind, Option.bind_some]
      cases hp : e.parentEntityId with
      | none => exact ⟨0, by omega, .root (hup.trans hp)⟩
      | some next =>
        rw [hp] at h
        obtain ⟨n, hn, hdepth⟩ := walkParents_depth h
        exact ⟨n + 1, by omega, .under (hup.trans hp) hdepth⟩

theorem lineage_of_valid (hs : RoutingSound s)
    (h : assertOptionalParentValid s.economicEntities entityId (some parent) = .ok u) :
    (s.lineage parent).length ≤ maxParentDepth := by
  simp only [assertOptionalParentValid, assertParentValid, Except.bind_eq_ok,
    Except.require_eq_ok, exists_const] at h
  obtain ⟨-, hwalk⟩ := h
  obtain ⟨n, hn, hdepth⟩ := walkParents_depth hwalk
  rw [RoutingTables.lineage, List.length_cons, hs.depth_eq hdepth]
  exact hn

theorem RoutingSound.depth_redirect (hs : RoutingSound s) (ht : RoutingSound t)
    {parent : Option EntityId} {k : ℕ} (hup : parentOf t.economicEntities =
      Ancestry.redirect (parentOf s.economicEntities) id parent)
    (hk : Ancestry.Depth (parentOf t.economicEntities) id k) (x : EntityId) :
    (t.ancestors x).length = if id ∈ s.lineage x then
      (s.ancestors x).length - (s.ancestors id).length + k else (s.ancestors x).length := by
  rw [hup] at hk
  split_ifs with hin
  · rw [hs.mem_lineage] at hin
    refine ht.depth_eq ?_
    rw [hup]
    exact ((hs.depth id).redirect_inside hk (hs.depth x) hin).2
  · rw [hs.mem_lineage, not_or] at hin
    refine ht.depth_eq ?_
    rw [hup]
    exact (hs.depth x).redirect_outside hin.1 hin.2

variable {entities' : List EntityRow} {row : EntityRow}

theorem createEntity_valid (h : createEntity entities id input = .ok (row, entities')) :
    ∃ u, assertOptionalParentValid entities none row.parentEntityId = .ok u := by
  simp only [createEntity, Except.bind_eq_ok, Except.require_eq_ok, Except.pure_eq_ok,
    Prod.mk.injEq, exists_const] at h
  obtain ⟨name, -, legalName, -, u, hparent, -, rfl, -⟩ := h
  exact ⟨u, hparent⟩

theorem RoutingSound.depth_create (hs : RoutingSound s)
    (h : createEntity s.economicEntities id input = .ok (row, entities'))
    (hd : ∀ x, (s.ancestors x).length ≤ maxParentDepth) (x : EntityId) :
    (RoutingTables.ancestors { s with economicEntities := entities' } x).length ≤
      maxParentDepth := by
  obtain ⟨u, hvalid⟩ := createEntity_valid h
  have ht := hs.create h
  obtain ⟨hnew, rfl, rfl, hparent⟩ := createEntity_eq_ok h
  have hup := parentOf_append hnew
  have hbelow : ∀ y, ¬ Ancestry.Above (parentOf s.economicEntities) row.id y :=
    fun y habove => hnew (hs.above_mem habove)
  obtain ⟨k, hk, hle⟩ : ∃ k, Ancestry.Depth
      (Ancestry.redirect (parentOf s.economicEntities) row.id row.parentEntityId) row.id k ∧
      k ≤ maxParentDepth := by
    cases hp : row.parentEntityId with
    | none => exact ⟨0, .root Ancestry.redirect_self, Nat.zero_le _⟩
    | some q =>
      rw [hp] at hvalid
      have hne : q ≠ row.id := by
        rintro rfl
        exact hnew (hparent _ hp)
      exact ⟨_, (hs.depth q).redirect_self hne (hbelow q), lineage_of_valid hs hvalid⟩
  rw [hs.depth_redirect ht hup (hup ▸ hk)]
  split_ifs with hin
  · rcases hs.mem_lineage.1 hin with rfl | habove
    · omega
    · exact absurd habove (hbelow x)
  · exact hd x

theorem RoutingSound.depth_move_iff (hs : RoutingSound s) {patch : UpdateEntityPatch}
    (h : updateEntity s.economicEntities id patch = .ok (row, entities'))
    (hd : ∀ x, (s.ancestors x).length ≤ maxParentDepth) :
    (∀ x, (RoutingTables.ancestors { s with economicEntities := entities' } x).length ≤
      maxParentDepth) ↔ s.Fits (.updateEntity id patch) := by
  have ht := hs.move h
  obtain ⟨hmem, -, hup, hparent⟩ := updateEntity_eq_ok h
  have hfits : (patch.parentEntityId.join = none) → s.Fits (.updateEntity id patch) := by
    intro hnone parent hmem
    rw [hnone] at hmem
    cases hmem
  cases hpatch : patch.parentEntityId with
  | none =>
    rw [hpatch, Option.getD_none, Ancestry.redirect_same] at hup
    refine iff_of_true (fun x => ?_) (hfits (by rw [hpatch]; rfl))
    rw [ht.depth_eq (hup ▸ hs.depth x)]
    exact hd x
  | some value =>
    rw [hpatch, Option.getD_some] at hup
    cases value with
    | none =>
      refine iff_of_true (fun x => ?_) (hfits (by rw [hpatch]; rfl))
      have hroot : Ancestry.Depth (parentOf entities') id 0 :=
        .root (by rw [hup, Ancestry.redirect_self])
      have hx := hd x
      rw [hs.depth_redirect ht hup hroot]
      split_ifs <;> omega
    | some q =>
      obtain ⟨-, hne, hout⟩ := hparent q hpatch
      have hunder : Ancestry.Depth (parentOf entities') id (s.lineage q).length := by
        rw [hup]
        exact (hs.depth q).redirect_self hne hout
      have hdepth := hs.depth_redirect ht hup hunder
      constructor
      · intro hall parent hparent e _ hin
        rw [hpatch, Option.join_some, Option.mem_some_iff] at hparent
        have hle := hall e.id
        rw [hdepth, if_pos hin, hparent] at hle
        exact hle
      · intro hfit x
        rw [hdepth]
        split_ifs with hin
        · have hx : x ∈ s.economicEntities.map (·.id) := by
            rcases hs.mem_lineage.1 hin with rfl | habove
            · exact hmem
            · obtain ⟨p, hp, -⟩ := Relation.TransGen.head'_iff.1 habove
              exact parentOf_mem hp
          obtain ⟨e, he, rfl⟩ := List.mem_map.1 hx
          exact hfit q (by rw [hpatch]; rfl) e he hin
        · exact hd x

end Calls

theorem RoutingSound.forest_step {s : RoutingTables} (hs : RoutingSound s) (hf : s.Forest)
    (call : RoutingCall) : (s.step call).Forest ↔ s.FitsIfAccepted call := by
  rw [(hs.step call).1.forest_iff]
  have hd := hf.depth
  unfold RoutingTables.step RoutingTables.FitsIfAccepted
  cases hperform : s.perform call with
  | none => exact iff_of_true hd fun h => by cases h
  | some t =>
    simp only [Option.getD_some, Option.isSome_some, true_implies]
    cases call with
    | createEntity newId input =>
      obtain ⟨⟨row, entities'⟩, hok, rfl⟩ := Option.map_eq_some_iff.1 hperform
      rw [Except.toOption_eq_some] at hok
      exact iff_of_true (hs.depth_create hok hd) trivial
    | updateEntity id patch =>
      obtain ⟨⟨row, entities'⟩, hok, rfl⟩ := Option.map_eq_some_iff.1 hperform
      rw [Except.toOption_eq_some] at hok
      exact hs.depth_move_iff hok hd
    | linkEntity books newId value =>
      obtain ⟨⟨row, t'⟩, hok, rfl⟩ := Option.map_eq_some_iff.1 hperform
      rw [Except.toOption_eq_some] at hok
      obtain ⟨-, -, -, -, -, rfl⟩ := linkEntity_eq_ok hok
      exact iff_of_true hd trivial
    | endLink input =>
      obtain ⟨⟨row, t'⟩, hok, rfl⟩ := Option.map_eq_some_iff.1 hperform
      rw [Except.toOption_eq_some] at hok
      obtain ⟨-, -, -, -, rfl⟩ := endLink_eq_ok hok
      exact iff_of_true hd trivial

theorem forest_empty : RoutingTables.empty.Forest :=
  routingSound_empty.forest_iff.2 fun _ => Nat.zero_le _

namespace Small

def chained (first count : ℕ) : List RoutingCall :=
  (List.range count).map fun i => .createEntity (first + i)
    ⟨"Unit", .operatingUnit, if i = 0 then none else some (first + i - 1), none⟩

def stacked : List RoutingCall :=
  chained 0 17 ++ chained 17 17 ++ [routed 0 0 0 ⟨2026, 1, 1⟩,
    .updateEntity 17 ⟨none, none, some (some 16), none⟩]

end Small

end Loxep

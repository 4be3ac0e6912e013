import Loxep.Proofs.ConfirmedOnce
import Loxep.Proofs.ExpenseSums

/-!
# A candidate is entered once

Every confirmation reads whether its candidates are confirmed, and writes and stamps without
looking again. What it writes is right exactly as long as each candidate it has taken is named once,
and is still there, unconfirmed and of the amount that was read.
-/

namespace Loxep

open ConfirmTables

/-- The columns of a confirmed candidate name the record of the entry, which holds its amount. -/
structure EnteredAs (c : DocumentLineCandidateRow) (e : CandidateEntry) : Prop where
  amount : c.lineAmount = some e.amount
  targetKind : c.targetKind = some e.kind
  targetId : c.targetId = some e.targetId

def entriesOf (entered : List CandidateEntry) (id : CandidateId) : List CandidateEntry :=
  entered.filter (·.candidateId == id)

def EnteredFor (entered : List CandidateEntry) (c : DocumentLineCandidateRow) : Prop :=
  (c.confirmedAt.isSome = true → ∃ e, entriesOf entered c.id = [e] ∧ EnteredAs c e) ∧
    (c.confirmedAt = none → entriesOf entered c.id = [])

/-- Every candidate is entered as its row says, and what was entered is still there. -/
structure EnteredOnce (candidates : List DocumentLineCandidateRow) (entered : List CandidateEntry)
    : Prop where
  rows : ∀ c ∈ candidates, EnteredFor entered c
  there : ∀ e ∈ entered, e.candidateId ∈ candidates.map (·.id)

structure StaysConfirmed (c c' : DocumentLineCandidateRow) : Prop where
  id : c'.id = c.id
  confirmed : c'.confirmedAt.isSome = true
  amount : c'.lineAmount = c.lineAmount
  disposition : c'.disposition = c.disposition
  targetKind : c'.targetKind = c.targetKind
  targetId : c'.targetId = c.targetId

def KeepsConfirmed (before after : List DocumentLineCandidateRow) : Prop :=
  ∀ c ∈ before, c.confirmedAt.isSome = true → ∃ c' ∈ after, StaysConfirmed c c'

section Rows

variable {candidates : List DocumentLineCandidateRow} {entered new : List CandidateEntry}
variable {c : DocumentLineCandidateRow} {id : CandidateId}

theorem nodup_map_of_filter {α β : Type*} [DecidableEq β] {f : α → β} {l : List α}
    (h : ∀ a ∈ l, l.filter (f · == f a) = [a]) : (l.map f).Nodup := by
  refine List.nodup_iff_count_le_one.2 fun b => ?_
  rw [List.count_eq_countP, List.countP_map, List.countP_eq_length_filter]
  by_cases hb : b ∈ l.map f
  · obtain ⟨a, ha, rfl⟩ := List.mem_map.1 hb
    exact le_of_eq (congrArg List.length (h a ha))
  · have hnil : l.filter ((· == b) ∘ f) = [] := by
      refine List.filter_eq_nil_iff.2 fun a ha hab => hb ?_
      exact List.mem_map.2 ⟨a, ha, beq_iff_eq.1 hab⟩
    rw [hnil]
    exact Nat.zero_le 1

variable {g : DocumentLineCandidateRow → DocumentLineCandidateRow}

theorem nodup_map_rows (hids : (candidates.map (·.id)).Nodup) (hg : ∀ c, (g c).id = c.id) :
    ((candidates.map g).map (·.id)).Nodup := by
  have hkeys : (candidates.map g).map (·.id) = candidates.map (·.id) := by
    rw [List.map_map]
    exact List.map_congr_left fun c _ => hg c
  rw [hkeys]
  exact hids

theorem entriesOf_append :
    entriesOf (entered ++ new) id = entriesOf entered id ++ entriesOf new id :=
  List.filter_append ..

theorem EnteredFor.nil_iff (h : EnteredFor entered c) :
    entriesOf entered c.id = [] ↔ c.confirmedAt = none := by
  constructor
  · intro hnil
    rcases hat : c.confirmedAt with _ | now
    · rfl
    · obtain ⟨e, hone, -⟩ := h.1 (by rw [hat]; rfl)
      rw [hnil] at hone
      cases hone
  · exact h.2

theorem enteredOnce_map_iff (hids : (candidates.map (·.id)).Nodup) (hg : ∀ c, (g c).id = c.id) :
    EnteredOnce (candidates.map g) entered ∧ KeepsConfirmed candidates (candidates.map g) ↔
      (∀ c ∈ candidates, EnteredFor entered (g c) ∧
        (c.confirmedAt.isSome = true → StaysConfirmed c (g c))) ∧
      ∀ e ∈ entered, e.candidateId ∈ candidates.map (·.id) := by
  have hkeys : (candidates.map g).map (·.id) = candidates.map (·.id) := by
    rw [List.map_map]
    exact List.map_congr_left fun c _ => hg c
  constructor
  · rintro ⟨honce, hkeeps⟩
    refine ⟨fun c hc => ⟨honce.rows _ (List.mem_map_of_mem hc), fun hat => ?_⟩, fun e he => ?_⟩
    · obtain ⟨c', hc', hstays⟩ := hkeeps c hc hat
      obtain ⟨d, hd, rfl⟩ := List.mem_map.1 hc'
      have hid : d.id = c.id := (hg d).symm.trans hstays.id
      rwa [List.inj_on_of_nodup_map hids hd hc hid] at hstays
    · rw [← hkeys]
      exact honce.there e he
  · rintro ⟨hrows, hthere⟩
    refine ⟨⟨fun c' hc' => ?_, fun e he => ?_⟩, fun c hc hat => ?_⟩
    · obtain ⟨c, hc, rfl⟩ := List.mem_map.1 hc'
      exact (hrows c hc).1
    · rw [hkeys]
      exact hthere e he
    · exact ⟨g c, List.mem_map_of_mem hc, (hrows c hc).2 hat⟩

variable {now : Timestamp} {kind : CandidateTargetKind}

theorem stamped_filter :
    ∀ {targets : List (CandidateId × ℕ)} {c : DocumentLineCandidateRow},
      stamped now kind targets c = stamped now kind (targets.filter (·.1 == c.id)) c
  | [], _ => rfl
  | first :: targets, c => by
    rw [stamped, List.foldl_cons, List.filter_cons]
    by_cases hfirst : c.id = first.1
    · rw [if_pos hfirst, if_pos (beq_iff_eq.2 hfirst.symm), stamped, List.foldl_cons,
        if_pos hfirst]
      exact stamped_filter
    · rw [if_neg hfirst, if_neg fun heq => hfirst (beq_iff_eq.1 heq).symm]
      exact stamped_filter

def targetsOf (new : List CandidateEntry) : List (CandidateId × ℕ) :=
  new.map fun e => (e.candidateId, e.targetId)

theorem stamped_eq_entriesOf :
    stamped now kind (targetsOf new) c = stamped now kind (targetsOf (entriesOf new c.id)) c := by
  rw [stamped_filter, targetsOf, List.filter_map]
  rfl

theorem mem_entriesOf {e : CandidateEntry} :
    e ∈ entriesOf new id ↔ e ∈ new ∧ e.candidateId = id := by
  simp [entriesOf]

theorem enteredFor_stamped_iff (hkind : ∀ e ∈ new, e.kind = kind) (h : EnteredFor entered c) :
    EnteredFor (entered ++ new) (stamped now kind (targetsOf new) c) ∧
        (c.confirmedAt.isSome = true → StaysConfirmed c (stamped now kind (targetsOf new) c)) ↔
      entriesOf new c.id = [] ∨ ∃ e, entriesOf new c.id = [e] ∧ c.confirmedAt = none ∧
        c.lineAmount = some e.amount := by
  constructor
  · rintro ⟨hafter, -⟩
    rcases hnew : entriesOf new c.id with _ | ⟨e, rest⟩
    · exact Or.inl rfl
    · have he : e ∈ new ∧ e.candidateId = c.id := mem_entriesOf.1 (hnew ▸ List.mem_cons_self)
      have htarget : c.id ∈ (targetsOf new).map (·.1) := by
        rw [← he.2, targetsOf, List.map_map]
        exact List.mem_map_of_mem (f := fun e : CandidateEntry => e.candidateId) he.1
      obtain ⟨target, -, heq⟩ := @stamped_of_mem now kind _ _ htarget
      rw [heq] at hafter
      obtain ⟨x, hone, has⟩ := hafter.1 rfl
      have hone : entriesOf (entered ++ new) c.id = [x] := hone
      rw [entriesOf_append, hnew] at hone
      rcases List.append_eq_singleton_iff.1 hone with ⟨hnil, hsingle⟩ | ⟨-, hnil⟩
      · refine Or.inr ⟨x, hsingle, h.nil_iff.1 hnil, has.amount⟩
      · cases hnil
  · rintro (hnil | ⟨e, hone, hat, hamount⟩)
    · rw [stamped_eq_entriesOf, hnil]
      refine ⟨?_, fun hat => ⟨rfl, hat, rfl, rfl, rfl, rfl⟩⟩
      show EnteredFor (entered ++ new) c
      unfold EnteredFor
      rw [entriesOf_append, hnil, List.append_nil]
      exact h
    · have he := mem_entriesOf.1 (hone ▸ List.mem_singleton_self e)
      have hstamped : stamped now kind (targetsOf new) c =
          { c with confirmedAt := some now, targetKind := some kind,
                   targetId := some e.targetId } := by
        rw [stamped_eq_entriesOf, hone]
        exact if_pos he.2.symm
      rw [hstamped]
      refine ⟨⟨fun _ => ⟨e, ?_, hamount, ?_, rfl⟩, fun hnone => ?_⟩, fun hsome => ?_⟩
      · show entriesOf (entered ++ new) c.id = [e]
        rw [entriesOf_append, h.nil_iff.2 hat, hone, List.nil_append]
      · rw [hkind e he.1]
      · cases hnone
      · rw [hat] at hsome
        cases hsome

def findsUnconfirmed (candidates : List DocumentLineCandidateRow) (id : CandidateId)
    (amount : Money) : Bool :=
  (candidates.find? (·.id == id)).any fun c => c.confirmedAt.isNone && c.lineAmount == some amount

theorem findsUnconfirmed_iff (hids : (candidates.map (·.id)).Nodup) {amount : Money} :
    findsUnconfirmed candidates id amount = true ↔
      ∃ c ∈ candidates, c.id = id ∧ c.confirmedAt = none ∧ c.lineAmount = some amount := by
  simp only [findsUnconfirmed, Option.any_eq_true, Bool.and_eq_true, Option.isNone_iff_eq_none,
    beq_iff_eq, find?_key_eq_some_iff hids, and_assoc]

theorem enteredOnce_stamped_iff (now : Timestamp) (hids : (candidates.map (·.id)).Nodup)
    (hkind : ∀ e ∈ new, e.kind = kind) (h : EnteredOnce candidates entered) :
    EnteredOnce (candidates.map (stamped now kind (targetsOf new))) (entered ++ new) ∧
        KeepsConfirmed candidates (candidates.map (stamped now kind (targetsOf new))) ↔
      (new.map (·.candidateId)).Nodup ∧
        ∀ e ∈ new, findsUnconfirmed candidates e.candidateId e.amount = true := by
  rw [enteredOnce_map_iff hids fun c => stamped_id c]
  constructor
  · rintro ⟨hrows, hthere⟩
    have hentry : ∀ e ∈ new, entriesOf new e.candidateId = [e] ∧
        findsUnconfirmed candidates e.candidateId e.amount = true := by
      intro e he
      obtain ⟨c, hc, hid⟩ := List.mem_map.1 (hthere e (List.mem_append_right _ he))
      have hmem : e ∈ entriesOf new c.id := mem_entriesOf.2 ⟨he, hid.symm⟩
      rcases (enteredFor_stamped_iff hkind (h.rows c hc)).1 (hrows c hc) with
        hnil | ⟨x, hone, hat, hamount⟩
      · rw [hnil] at hmem
        cases hmem
      · rw [hone, List.mem_singleton] at hmem
        subst hmem
        exact ⟨hid ▸ hone, (findsUnconfirmed_iff hids).2 ⟨c, hc, hid, hat, hamount⟩⟩
    exact ⟨nodup_map_of_filter fun e he => (hentry e he).1, fun e he => (hentry e he).2⟩
  · rintro ⟨hnd, hfinds⟩
    constructor
    · intro c hc
      refine (enteredFor_stamped_iff hkind (h.rows c hc)).2 ?_
      rcases hnew : entriesOf new c.id with _ | ⟨e, rest⟩
      · exact Or.inl rfl
      · have he : e ∈ new ∧ e.candidateId = c.id := mem_entriesOf.1 (hnew ▸ List.mem_cons_self)
        obtain ⟨d, hd, hid, hat, hamount⟩ := (findsUnconfirmed_iff hids).1 (hfinds e he.1)
        rw [List.inj_on_of_nodup_map hids hd hc (hid.trans he.2)] at hat hamount
        refine Or.inr ⟨e, ?_, hat, hamount⟩
        rw [← hnew, ← he.2]
        exact filter_key_eq hnd he.1
    · intro e he
      rcases List.mem_append.1 he with hold | hnew
      · exact h.there e hold
      · obtain ⟨c, hc, hid, -⟩ := (findsUnconfirmed_iff hids).1 (hfinds e hnew)
        exact List.mem_map.2 ⟨c, hc, hid⟩

theorem all_find_iff (hids : (candidates.map (·.id)).Nodup) {p : DocumentLineCandidateRow → Bool}
    : (candidates.find? (·.id == id)).all p = true ↔
      ∀ c ∈ candidates, c.id = id → p c = true := by
  simp only [Option.all_eq_true, find?_key_eq_some_iff hids, and_imp]

theorem enteredOnce_restamped_iff {target : ℕ} (hids : (candidates.map (·.id)).Nodup)
    (h : EnteredOnce candidates entered) :
    EnteredOnce (candidates.map (stamped now kind [(id, target)])) entered ∧
        KeepsConfirmed candidates (candidates.map (stamped now kind [(id, target)])) ↔
      ∀ c ∈ candidates, c.id = id → (c.confirmedAt.isSome && c.targetKind == some kind &&
        c.targetId == some target) = true := by
  rw [enteredOnce_map_iff hids fun c => stamped_id c, and_iff_left h.there]
  refine forall₂_congr fun c hc => ?_
  by_cases hid : c.id = id
  · have hstamped : stamped now kind [(id, target)] c =
        { c with confirmedAt := some now, targetKind := some kind, targetId := some target } :=
      if_pos hid
    rw [hstamped, Bool.and_eq_true, Bool.and_eq_true, beq_iff_eq, beq_iff_eq]
    constructor
    · rintro ⟨hafter, hstays⟩ -
      obtain ⟨e, hone, -⟩ := hafter.1 rfl
      have hat : c.confirmedAt.isSome = true := by
        rcases hat : c.confirmedAt with _ | at'
        · have hnil := (h.rows c hc).2 hat
          rw [show entriesOf entered c.id = [e] from hone] at hnil
          cases hnil
        · rfl
      have hsame := hstays hat
      exact ⟨⟨hat, hsame.targetKind.symm⟩, hsame.targetId.symm⟩
    · intro hall
      obtain ⟨⟨hat, hkind⟩, htarget⟩ := hall hid
      obtain ⟨e, hone, has⟩ := (h.rows c hc).1 hat
      refine ⟨⟨fun _ => ⟨e, hone, has.amount, ?_, ?_⟩, nofun⟩, fun _ => ?_⟩
      · rw [← has.targetKind, hkind]
      · rw [← has.targetId, htarget]
      · exact ⟨rfl, rfl, rfl, rfl, hkind.symm, htarget.symm⟩
  · have hstamped : stamped now kind [(id, target)] c = c := if_neg hid
    rw [hstamped]
    exact iff_of_true ⟨h.rows c hc, fun hat => ⟨rfl, hat, rfl, rfl, rfl, rfl⟩⟩
      fun heq => absurd heq hid

theorem enteredOnce_update_iff {f : DocumentLineCandidateRow → DocumentLineCandidateRow}
    (hids : (candidates.map (·.id)).Nodup) (hid : ∀ c, (f c).id = c.id)
    (hat : ∀ c, (f c).confirmedAt = c.confirmedAt) (hkind : ∀ c, (f c).targetKind = c.targetKind)
    (htarget : ∀ c, (f c).targetId = c.targetId) (h : EnteredOnce candidates entered) :
    EnteredOnce (candidates.map f) entered ∧ KeepsConfirmed candidates (candidates.map f) ↔
      ∀ c ∈ candidates, c.confirmedAt.isSome = true →
        (f c).lineAmount = c.lineAmount ∧ (f c).disposition = c.disposition := by
  rw [enteredOnce_map_iff hids hid, and_iff_left h.there]
  refine forall₂_congr fun c hc => ?_
  constructor
  · rintro ⟨-, hstays⟩ hsome
    exact ⟨(hstays hsome).amount, (hstays hsome).disposition⟩
  · intro hsame
    have hrow := h.rows c hc
    refine ⟨⟨fun hsome => ?_, fun hnone => ?_⟩, fun hsome => ?_⟩
    · rw [hat] at hsome
      obtain ⟨e, hone, has⟩ := hrow.1 hsome
      refine ⟨e, by rw [hid, hone], ?_, ?_, ?_⟩
      · rw [(hsame hsome).1, has.amount]
      · rw [hkind, has.targetKind]
      · rw [htarget, has.targetId]
    · rw [hid, hrow.2 (hat c ▸ hnone)]
    · exact ⟨hid c, by rw [hat, hsome], (hsame hsome).1, (hsame hsome).2, hkind c, htarget c⟩

theorem enteredOnce_remove_iff (h : EnteredOnce candidates entered) :
    EnteredOnce (candidates.filter (·.id ≠ id)) entered ∧
        KeepsConfirmed candidates (candidates.filter (·.id ≠ id)) ↔
      ∀ c ∈ candidates, c.id = id → c.confirmedAt.isNone = true := by
  constructor
  · rintro ⟨-, hkeeps⟩ c hc hid
    by_contra hat
    have hsome : c.confirmedAt.isSome = true := by
      rwa [← Option.not_isNone, Bool.not_eq_true', Bool.eq_false_iff]
    obtain ⟨c', hc', hstays⟩ := hkeeps c hc hsome
    have hne := (List.mem_filter.1 hc').2
    rw [hstays.id, hid] at hne
    simp at hne
  · intro hnone
    have hkept : ∀ c ∈ candidates, (c.id = id → c.confirmedAt.isNone = true → False) →
        c ∈ candidates.filter (·.id ≠ id) := by
      intro c hc hne
      refine List.mem_filter.2 ⟨hc, ?_⟩
      rw [decide_eq_true_iff]
      exact fun hid => hne hid (hnone c hc hid)
    refine ⟨⟨fun c hc => h.rows c (List.mem_of_mem_filter hc), fun e he => ?_⟩, fun c hc hat => ?_⟩
    · obtain ⟨c, hc, hid⟩ := List.mem_map.1 (h.there e he)
      refine List.mem_map.2 ⟨c, hkept c hc fun hgone hat => ?_, hid⟩
      have hnil := (h.rows c hc).2 (Option.isNone_iff_eq_none.1 hat)
      have hmem : e ∈ entriesOf entered c.id := mem_entriesOf.2 ⟨he, hid.symm⟩
      rw [hnil] at hmem
      cases hmem
    · refine ⟨c, hkept c hc fun _ hnot => ?_, rfl, hat, rfl, rfl, rfl, rfl⟩
      rw [Option.isNone_iff_eq_none.1 hnot] at hat
      cases hat

theorem enteredOnce_append_iff (h : EnteredOnce candidates entered) :
    EnteredOnce candidates (entered ++ new) ∧ KeepsConfirmed candidates candidates ↔ new = [] := by
  constructor
  · rintro ⟨hafter, -⟩
    refine List.eq_nil_iff_forall_not_mem.2 fun e he => ?_
    obtain ⟨c, hc, hid⟩ := List.mem_map.1 (hafter.there e (List.mem_append_right _ he))
    have hmem : e ∈ entriesOf new c.id := mem_entriesOf.2 ⟨he, hid.symm⟩
    have hrow := hafter.rows c hc
    unfold EnteredFor at hrow
    rw [entriesOf_append] at hrow
    rcases hat : c.confirmedAt with _ | at'
    · rw [(List.append_eq_nil_iff.1 (hrow.2 hat)).2] at hmem
      cases hmem
    · have hsome : c.confirmedAt.isSome = true := by rw [hat]; rfl
      obtain ⟨x, hone, -⟩ := (h.rows c hc).1 hsome
      obtain ⟨y, htwo, -⟩ := hrow.1 hsome
      rw [hone, List.singleton_append, List.cons.injEq] at htwo
      rw [htwo.2] at hmem
      cases hmem
  · rintro rfl
    rw [List.append_nil]
    exact ⟨h, fun c hc hat => ⟨c, hc, rfl, hat, rfl, rfl, rfl, rfl⟩⟩

end Rows

section Writes

variable {t t' : FactTables} {acquisition : AcquisitionRow}

theorem createItem_cost {now : Timestamp} {ids : CreateItemIds} {value : CreateItemInput}
    {item : InventoryItemRow} (h : createItem t now ids value = .ok (item, t')) :
    item.acquisitionCostAmount = value.acquisitionCostAmount.getD 0 := by
  simp only [createItem, FactTables.insertCodedItem, Except.bind_eq_ok, Except.require_eq_ok,
    exists_const, insertItem_eq_ok] at h
  obtain ⟨_, -, acquisition, -, inserted, ⟨-, hfresh, -, rfl⟩, h⟩ := h
  split_ifs at h
  · simp only [Except.bind_eq_ok, Except.pure_eq_ok, Prod.mk.injEq, loadItem_eq_ok] at h
    obtain ⟨⟨_, received⟩, hreceived, r, hr, rfl, rfl⟩ := h
    obtain ⟨hmem, hid⟩ := findItem_id hr
    have hcosts : received.inventoryItems.map (fun i => (i.id, i.acquisitionCostAmount)) =
        (t.inventoryItems ++ [itemRow ids value (resolveItemAttribution value.economicEntityId
          (acquisition.bind (·.economicEntityId)) value.installationDefaultEntityId)]).map
          fun i => (i.id, i.acquisitionCostAmount) := by
      obtain ⟨-, -, _, -, hcases⟩ := recordMovement_eq_ok.1 hreceived
      rcases hcases with ⟨_, -, -, rfl⟩ | ⟨-, -, rfl⟩
      · rfl
      · simp only [written, FactTables.refreshItemBalance, FactTables.updateItem, List.map_map]
        refine List.map_congr_left fun i _ => ?_
        simp only [Function.comp]
        split_ifs <;> rfl
    have hentry := List.mem_map_of_mem (f := fun i => (i.id, i.acquisitionCostAmount)) hmem
    rw [hcosts, hid] at hentry
    obtain ⟨i, hi, heq⟩ := List.mem_map.1 hentry
    obtain ⟨hid', hcost⟩ := Prod.mk.injEq .. ▸ heq
    rcases List.mem_append.1 hi with hold | hnew
    · exact absurd (List.mem_map.2 ⟨i, hold, hid'⟩) hfresh
    · rw [List.mem_singleton.1 hnew] at hcost
      exact hcost.symm
  · simp only [Except.pure_eq_ok, Prod.mk.injEq] at h
    obtain ⟨rfl, -⟩ := h
    rfl

theorem createItems_costs {ids : ℕ → CreateItemIds} {now : Timestamp}
    {locationId : Option LocationId} : ∀ {confirmable : List Confirmable} {index : ℕ}
    {t t' : FactTables} {items : List InventoryItemRow},
    createItems ids now locationId acquisition index confirmable t = .ok (items, t') →
      items.map (·.acquisitionCostAmount) = confirmable.map (·.2)
  | [], _, t, _, _, h => by
    cases h
    rfl
  | (candidate, amount) :: rest, index, t, t', items, h => by
    simp only [createItems, Except.bind_eq_ok, Except.pure_eq_ok, Prod.mk.injEq] at h
    obtain ⟨⟨item, t₁⟩, hitem, ⟨items', t₂⟩, hrest, rfl, rfl⟩ := h
    rw [List.map_cons, List.map_cons, createItem_cost hitem, createItems_costs hrest]
    rfl

theorem confirmOnto_ok {t t' : ExpenseTables} {input : ConfirmExpenseInput} {document : DocumentRow}
    {confirmable : List Confirmable} (h : t.confirmOnto input document confirmable = .ok t') :
    ∃ expenseId start, t'.lines = t.lines ++
        ExpenseTables.lineRows expenseId (ExpenseTables.confirmedLines input confirmable) start ∧
      t'.candidates = t.candidates.map
        (stamped input.now .expense (confirmable.map fun c => (c.1.id, expenseId))) := by
  simp only [ExpenseTables.confirmOnto, Except.bind_eq_ok, Except.pure_eq_ok] at h
  obtain ⟨⟨created, expense⟩, htarget, _, -, inserted, hinsert, rfl⟩ := h
  obtain ⟨rfl, -⟩ := ExpenseTables.check_eq_ok hinsert
  have hcreated : created.lines = t.lines ∧ created.candidates = t.candidates := by
    unfold ExpenseTables.confirmTarget at htarget
    cases hnamed : input.expenseId with
    | some expenseId =>
      simp only [hnamed, Except.bind_eq_ok, Except.pure_eq_ok, Prod.mk.injEq] at htarget
      obtain ⟨_, -, rfl, -⟩ := htarget
      exact ⟨rfl, rfl⟩
    | none =>
      simp only [hnamed, Except.bind_eq_ok, Except.pure_eq_ok, Prod.mk.injEq] at htarget
      obtain ⟨_, -, u, hcreate, _, -, rfl, -⟩ := htarget
      obtain ⟨_, _, -, -, -, -, -, -, rfl, -⟩ := ExpenseTables.create_eq_ok hcreate
      exact ⟨rfl, rfl⟩
  refine ⟨expense.id, (created.existingLineAmounts expense.id).length + 1, ?_, ?_⟩
  · rw [← hcreated.1]
  · rw [← hcreated.2]
    refine (foldl_map_rows (fun (c : Confirmable) (row : DocumentLineCandidateRow) =>
      if row.id = c.1.id then
        { row with confirmedAt := some input.now, targetKind := some .expense,
                   targetId := some expense.id }
      else row) confirmable created.candidates).trans ?_
    refine List.map_congr_left fun row _ => ?_
    rw [stamped, List.foldl_map]

namespace CandidateTables

variable {input : ConfirmExpenseInput} {u : ConfirmTables} {a : AcquisitionRow}

theorem lineEntries_confirmed {confirmable : List Confirmable} {expenseId start : ℕ} :
    lineEntries (ExpenseTables.lineRows expenseId
        (ExpenseTables.confirmedLines input confirmable) start) =
      confirmable.map fun c => ⟨c.1.id, .expense, expenseId, c.2⟩ := by
  let entry (l : ExpenseLineRow) : Option CandidateEntry :=
    l.documentLineCandidateId.map fun id => ⟨id, .expense, l.expenseId, l.lineAmount⟩
  have hrows : (ExpenseTables.lineRows expenseId
      (ExpenseTables.confirmedLines input confirmable) start).map entry =
      confirmable.map fun c => some ⟨c.1.id, .expense, expenseId, c.2⟩ := by
    unfold ExpenseTables.lineRows
    rw [map_mapIdx_eq_map (h := fun l : ExpenseLineInput => l.documentLineCandidateId.map
      fun id => (⟨id, .expense, expenseId, l.lineAmount⟩ : CandidateEntry)) fun _ _ => rfl]
    unfold ExpenseTables.confirmedLines
    refine map_mapIdx_eq_map (fun _ _ => ?_) confirmable
    rfl
  have hall : lineEntries (ExpenseTables.lineRows expenseId
      (ExpenseTables.confirmedLines input confirmable) start) =
      ((ExpenseTables.lineRows expenseId
        (ExpenseTables.confirmedLines input confirmable) start).map entry).filterMap id := by
    rw [List.filterMap_map]
    rfl
  rw [hall, hrows, List.filterMap_map]
  exact congrFun List.filterMap_eq_map _

/-- The entries of a confirmation, with the candidates they stamp. -/
structure Enters (s t : CandidateTables) (new : List CandidateEntry) : Prop where
  stamps : ∃ now kind, (∀ e ∈ new, e.kind = kind) ∧ t.candidates = s.candidates.map
    (stamped now kind (new.map fun e => (e.candidateId, e.targetId)))

variable {s t : CandidateTables} {route : ConfirmRoute} {document : DocumentRow}
  {confirmable : List Confirmable} {new : List CandidateEntry}

theorem confirmOnto_enters {u : ExpenseTables}
    (h : s.atExpenses.confirmOnto input document confirmable = .ok u) :
    Enters s { s with expenses := u, candidates := u.candidates }
        (lineEntries (u.lines.drop s.expenses.lines.length)) ∧
      (lineEntries (u.lines.drop s.expenses.lines.length)).map
        (fun e => (e.candidateId, e.amount)) = confirmable.map fun c => (c.1.id, c.2) := by
  obtain ⟨expenseId, start, hlines, hcandidates⟩ := confirmOnto_ok h
  have hlines : u.lines = s.expenses.lines ++ ExpenseTables.lineRows expenseId
      (ExpenseTables.confirmedLines input confirmable) start := hlines
  rw [hlines, List.drop_left, lineEntries_confirmed]
  refine ⟨⟨input.now, .expense, ?_, ?_⟩, ?_⟩
  · intro e he
    obtain ⟨c, -, rfl⟩ := List.mem_map.1 he
    rfl
  · rw [List.map_map]
    exact hcandidates
  · rw [List.map_map]
    rfl

theorem confirmCosts_enters {costId : ℕ → FactId} {input : ConfirmInput}
    {costs : List AcquisitionCostRow}
    (h : s.atStock.confirmCosts costId input document confirmable = .ok (a, costs, u)) :
    Enters s { s with stock := u, candidates := u.candidates } (costEntries confirmable costs) ∧
      (costEntries confirmable costs).map (fun e => (e.candidateId, e.amount)) =
        confirmable.map fun c => (c.1.id, c.2) := by
  obtain ⟨-, hamounts, hlot, hconfirms⟩ := confirmCosts_ok h
  have hentries : costEntries confirmable costs =
      confirmable.map fun c => ⟨c.1.id, .acquisition, a.id, c.2⟩ := by
    refine zipWith_eq_map hamounts fun c cost hcost hamount => ?_
    rw [hlot cost hcost, hamount]
  rw [hentries]
  refine ⟨⟨input.now, .acquisition, ?_, ?_⟩, ?_⟩
  · intro e he
    obtain ⟨c, -, rfl⟩ := List.mem_map.1 he
    rfl
  · rw [List.map_map]
    exact hconfirms.candidates
  · rw [List.map_map]
    rfl

theorem confirmItems_enters {ids : ℕ → CreateItemIds} {input : ConfirmInput}
    {locationId : Option LocationId} {items : List InventoryItemRow}
    (h : s.atStock.confirmItems ids input locationId document confirmable = .ok (a, items, u)) :
    Enters s { s with stock := u, candidates := u.candidates } (itemEntries confirmable items) ∧
      (itemEntries confirmable items).map (fun e => (e.candidateId, e.amount)) =
        confirmable.map fun c => (c.1.id, c.2) := by
  obtain ⟨-, hlength, hconfirms⟩ := confirmItems_ok h
  have hcosts : items.map (·.acquisitionCostAmount) = confirmable.map (·.2) := by
    simp only [ConfirmTables.confirmItems, Except.bind_eq_ok, Except.pure_eq_ok,
      Prod.mk.injEq] at h
    obtain ⟨_, -, ⟨_, _⟩, hcreate, -, rfl, -⟩ := h
    exact createItems_costs hcreate
  have hentries : itemEntries confirmable items = (confirmable.zip items).map fun p =>
      ⟨p.1.1.id, .inventoryItem, p.2.id, p.2.acquisitionCostAmount⟩ := by
    rw [itemEntries, List.zip_eq_zipWith, List.map_zipWith]
  refine ⟨⟨input.now, .inventoryItem, ?_, ?_⟩, ?_⟩
  · intro e he
    rw [hentries] at he
    obtain ⟨p, -, rfl⟩ := List.mem_map.1 he
    rfl
  · rw [hentries, List.map_map, hconfirms.candidates, List.zip_map]
    rfl
  · rw [itemEntries, List.map_zipWith]
    refine zipWith_eq_map hcosts fun c item _ hcost => ?_
    rw [hcost]

theorem confirm_enters (h : s.confirm route document confirmable = some (t, new)) :
    Enters s t new ∧
      new.map (fun e => (e.candidateId, e.amount)) = confirmable.map fun c => (c.1.id, c.2) := by
  unfold confirm at h
  split_ifs at h with hskip
  · obtain ⟨rfl, rfl⟩ := Prod.mk.injEq .. ▸ Option.some.inj h
    rw [List.isEmpty_iff.1 hskip.1]
    refine ⟨⟨⟨⟨0, 0, 0⟩, 0⟩, .expense, fun e he => absurd he List.not_mem_nil, ?_⟩, rfl⟩
    exact (List.map_id' _).symm
  · cases route with
    | expense input =>
      simp only [Option.bind_eq_bind, Option.bind_eq_some_iff, Except.toOption_eq_some] at h
      obtain ⟨u, honto, _, -, heq⟩ := h
      obtain ⟨rfl, rfl⟩ := Prod.mk.injEq .. ▸ Option.some.inj heq
      exact confirmOnto_enters honto
    | acquisition costId input =>
      simp only [Option.bind_eq_bind, Option.bind_eq_some_iff, Except.toOption_eq_some] at h
      obtain ⟨⟨a, costs, u⟩, hcosts, heq⟩ := h
      obtain ⟨rfl, rfl⟩ := Prod.mk.injEq .. ▸ Option.some.inj heq
      exact confirmCosts_enters hcosts
    | intake ids input locationId =>
      simp only [Option.bind_eq_bind, Option.bind_eq_some_iff, Except.toOption_eq_some] at h
      obtain ⟨⟨a, items, u⟩, hitems, heq⟩ := h
      obtain ⟨rfl, rfl⟩ := Prod.mk.injEq .. ▸ Option.some.inj heq
      exact confirmItems_enters hitems

end CandidateTables

end Writes

def CandidateEdit.keeps (c : DocumentLineCandidateRow) : CandidateEdit → Bool
  | .setDisposition _ disposition => disposition == c.disposition
  | .updateLine input => input.lineAmount.all (· == c.lineAmount)
  | .removeLine _ => false

namespace CandidateSystem

/-- What a transaction has to find when it commits. A confirmation: each candidate it has taken
named once, and still there, unconfirmed and of the amount it has read. An edit: no confirmed
candidate that it changes. A stamp: an unconfirmed candidate of the amount of its caller's record,
or this very stamp and no record. -/
def commitsOnce (s : CandidateSystem) : CandidateAction → Bool
  | .commit session =>
    match s.stage session with
    | .reading route document [] confirmable =>
      (s.tables.confirm route document confirmable).isNone ||
        (decide (confirmable.map (·.1.id)).Nodup &&
          confirmable.all fun c => findsUnconfirmed s.tables.candidates c.1.id c.2)
    | .editing edit =>
      (s.tables.find edit.candidateId).all fun c => c.confirmedAt.isNone || edit.keeps c
    | .stamping input =>
      match input.record with
      | some amount => (s.tables.find input.candidateId).isNone ||
          findsUnconfirmed s.tables.candidates input.candidateId amount
      | none => (s.tables.find input.candidateId).all fun c =>
          c.confirmedAt.isSome && c.targetKind == some input.targetKind &&
            c.targetId == some input.targetId
    | .stamped input => input.record.isNone
    | .reading _ _ (_ :: _) _ | .idle => true
  | _ => true

def Entered (s : CandidateSystem) : Prop := EnteredOnce s.tables.candidates s.entered

def Keeps (s : CandidateSystem) (action : CandidateAction) : Prop :=
  KeepsConfirmed s.tables.candidates (s.step action).tables.candidates

def Keyed (s : CandidateSystem) : Prop := (s.tables.candidates.map (·.id)).Nodup

variable {s : CandidateSystem} {session : CandidateSessionId}

theorem unwritten_iff (h : s.Entered) : EnteredOnce s.tables.candidates s.entered ∧
    KeepsConfirmed s.tables.candidates s.tables.candidates ↔ True :=
  iff_true_intro ⟨h, fun c hc hat => ⟨c, hc, rfl, hat, rfl, rfl, rfl, rfl⟩⟩

theorem confirm_iff (hids : s.Keyed) (h : s.Entered) {route : ConfirmRoute} {document : DocumentRow}
    {confirmable : List Confirmable} {t : CandidateTables} {new : List CandidateEntry}
    (hconfirm : s.tables.confirm route document confirmable = some (t, new)) :
    EnteredOnce t.candidates (s.entered ++ new) ∧
        KeepsConfirmed s.tables.candidates t.candidates ↔
      (confirmable.map (·.1.id)).Nodup ∧
        ∀ c ∈ confirmable, findsUnconfirmed s.tables.candidates c.1.id c.2 = true := by
  obtain ⟨⟨now, kind, hkind, hcandidates⟩, hnew⟩ := CandidateTables.confirm_enters hconfirm
  rw [hcandidates]
  refine (enteredOnce_stamped_iff now hids hkind h).trans ?_
  have hnamed : new.map (·.candidateId) = confirmable.map (·.1.id) := by
    have hfirst := congrArg (List.map Prod.fst) hnew
    rwa [List.map_map, List.map_map] at hfirst
  have hall : (∀ e ∈ new, findsUnconfirmed s.tables.candidates e.candidateId e.amount = true) ↔
      ∀ c ∈ confirmable, findsUnconfirmed s.tables.candidates c.1.id c.2 = true := by
    have hpairs := List.forall_mem_map (f := fun e : CandidateEntry => (e.candidateId, e.amount))
      (l := new) (P := fun p => findsUnconfirmed s.tables.candidates p.1 p.2 = true)
    rw [hnew, List.forall_mem_map] at hpairs
    exact hpairs.symm
  rw [hnamed, hall]

theorem updateCandidate_iff (hids : s.Keyed) (h : s.Entered) {id : CandidateId}
    {f : DocumentLineCandidateRow → DocumentLineCandidateRow} (hid : ∀ c, (f c).id = c.id)
    (hat : ∀ c, (f c).confirmedAt = c.confirmedAt) (hkind : ∀ c, (f c).targetKind = c.targetKind)
    (htarget : ∀ c, (f c).targetId = c.targetId) :
    EnteredOnce (s.tables.updateCandidate id f).candidates s.entered ∧
        KeepsConfirmed s.tables.candidates (s.tables.updateCandidate id f).candidates ↔
      ∀ c ∈ s.tables.candidates, c.id = id → c.confirmedAt.isSome = true →
        (f c).lineAmount = c.lineAmount ∧ (f c).disposition = c.disposition := by
  refine (enteredOnce_update_iff hids (fun c => ?_) (fun c => ?_) (fun c => ?_) (fun c => ?_)
    h).trans ?_
  · split_ifs
    · exact hid c
    · rfl
  · split_ifs
    · exact hat c
    · rfl
  · split_ifs
    · exact hkind c
    · rfl
  · split_ifs
    · exact htarget c
    · rfl
  refine forall₂_congr fun c _ => ?_
  by_cases heq : c.id = id
  · simp only [heq, if_true, forall_const]
  · simp only [heq, if_false, and_self, implies_true, false_imp_iff]

theorem keeps_iff {c : DocumentLineCandidateRow} {kept : Bool} :
    (c.confirmedAt.isNone || kept) = true ↔ (c.confirmedAt.isSome = true → kept = true) := by
  rcases c.confirmedAt with _ | now <;> simp

variable {edit : CandidateEdit} {action : CandidateAction}

theorem edit_iff (hids : s.Keyed) (h : s.Entered) {t : CandidateTables}
    (hedit : s.tables.edit edit = some t) :
    EnteredOnce t.candidates s.entered ∧ KeepsConfirmed s.tables.candidates t.candidates ↔
      ∀ c ∈ s.tables.candidates, c.id = edit.candidateId →
        (c.confirmedAt.isNone || edit.keeps c) = true := by
  cases edit with
  | setDisposition id disposition =>
    simp only [CandidateTables.edit] at hedit
    split_ifs at hedit
    obtain rfl := Option.some.inj hedit
    refine (updateCandidate_iff hids h (fun _ => by rfl) (fun _ => by rfl) (fun _ => by rfl)
      fun _ => by rfl).trans ?_
    refine forall₂_congr fun c _ => imp_congr Iff.rfl ?_
    rw [keeps_iff, CandidateEdit.keeps, beq_iff_eq]
    exact imp_congr Iff.rfl (and_iff_right rfl)
  | updateLine input =>
    simp only [CandidateTables.edit] at hedit
    split_ifs at hedit
    obtain rfl := Option.some.inj hedit
    refine (updateCandidate_iff hids h (fun _ => by rfl) (fun _ => by rfl) (fun _ => by rfl)
      fun _ => by rfl).trans ?_
    refine forall₂_congr fun c _ => imp_congr Iff.rfl ?_
    rw [keeps_iff, CandidateEdit.keeps]
    refine imp_congr Iff.rfl ((and_iff_left rfl).trans ?_)
    rcases input.lineAmount with _ | given
    · exact iff_of_true rfl rfl
    · exact beq_iff_eq.symm
  | removeLine id =>
    obtain rfl := Option.some.inj hedit
    refine (enteredOnce_remove_iff h).trans ?_
    refine forall₂_congr fun c _ => imp_congr Iff.rfl ?_
    rw [CandidateEdit.keeps, Bool.or_false]

variable {input : StampConfirmedInput}

theorem stampConfirmed_iff (hids : s.Keyed) (h : s.Entered) {t : CandidateTables}
    (hstamp : s.tables.stampConfirmed input = some t) :
    EnteredOnce t.candidates (s.entered ++ input.entry) ∧
        KeepsConfirmed s.tables.candidates t.candidates ↔
      (match input.record with
        | some amount => (s.tables.find input.candidateId).isNone ||
            findsUnconfirmed s.tables.candidates input.candidateId amount
        | none => (s.tables.find input.candidateId).all fun c =>
            c.confirmedAt.isSome && c.targetKind == some input.targetKind &&
              c.targetId == some input.targetId) = true := by
  unfold CandidateTables.stampConfirmed at hstamp
  split_ifs at hstamp with hfound
  obtain rfl := Option.some.inj hstamp
  rcases hrecord : input.record with _ | amount
  · have hentry : input.entry = [] := by
      rw [StampConfirmedInput.entry, hrecord]
      rfl
    rw [hentry, List.append_nil]
    exact (enteredOnce_restamped_iff hids h).trans (all_find_iff hids).symm
  · have hentry : input.entry =
        [⟨input.candidateId, input.targetKind, input.targetId, amount⟩] := by
      rw [StampConfirmedInput.entry, hrecord]
      rfl
    rw [hentry]
    have hiff := enteredOnce_stamped_iff input.now hids
      (List.forall_mem_singleton.2 (rfl : CandidateEntry.kind
        ⟨input.candidateId, input.targetKind, input.targetId, amount⟩ = input.targetKind)) h
    refine hiff.trans ?_
    rw [List.forall_mem_singleton]
    simp only [Option.isNone_eq_false_iff.2 hfound, Bool.false_or]
    exact and_iff_right (List.nodup_singleton _)

theorem untouched_iff (h : s.Entered) (htables : (s.step action).tables = s.tables)
    (hentered : (s.step action).entered = s.entered) (hguard : s.commitsOnce action = true) :
    (s.step action).Entered ∧ s.Keeps action ↔ s.commitsOnce action = true := by
  unfold Entered Keeps
  rw [htables, hentered]
  exact (unwritten_iff h).trans (iff_of_true trivial hguard)

theorem find_of_unedited (h : s.tables.edit edit = none) :
    s.tables.find edit.candidateId = none := by
  cases edit with
  | setDisposition id disposition =>
    simp only [CandidateTables.edit] at h
    split_ifs at h with hfound
    exact Option.not_isSome_iff_eq_none.1 hfound
  | updateLine input =>
    simp only [CandidateTables.edit] at h
    split_ifs at h with hfound
    exact Option.not_isSome_iff_eq_none.1 hfound
  | removeLine id => cases h

theorem find_of_unstamped (h : s.tables.stampConfirmed input = none)
    : s.tables.find input.candidateId = none := by
  unfold CandidateTables.stampConfirmed at h
  split_ifs at h with hfound
  exact Option.not_isSome_iff_eq_none.1 hfound

theorem commitsOnce_of_unwritten (h : s.written session = none) :
    s.commitsOnce (.commit session) = true := by
  unfold written at h
  rcases hstage : s.stage session with _ | ⟨route, document, _ | ⟨id, left⟩, confirmable⟩ | edit |
    input | input
  · simp only [commitsOnce, hstage]
  · simp only [hstage] at h
    simp only [commitsOnce, hstage, h, Option.isNone_none, Bool.true_or]
  · simp only [commitsOnce, hstage]
  · simp only [hstage, Option.map_eq_none_iff] at h
    simp only [commitsOnce, hstage, find_of_unedited h, Option.all_none]
  · simp only [hstage, Option.map_eq_none_iff] at h
    simp only [commitsOnce, hstage, find_of_unstamped h, Option.isNone_none, Bool.true_or,
      Option.all_none]
    split <;> rfl
  · simp only [hstage] at h
    cases h

theorem written_iff {t : CandidateTables} {new : List CandidateEntry} (hids : s.Keyed)
    (h : s.Entered) (hwritten : s.written session = some (t, new)) :
    EnteredOnce t.candidates (s.entered ++ new) ∧
        KeepsConfirmed s.tables.candidates t.candidates ↔
      s.commitsOnce (.commit session) = true := by
  unfold written at hwritten
  rcases hstage : s.stage session with _ | ⟨route, document, _ | ⟨id, left⟩, confirmable⟩ | edit |
    input | input
  · simp only [hstage] at hwritten
    cases hwritten
  · simp only [hstage] at hwritten
    refine (confirm_iff hids h hwritten).trans ?_
    simp only [commitsOnce, hstage, hwritten, Option.isNone_some, Bool.false_or, Bool.and_eq_true,
      decide_eq_true_iff, List.all_eq_true]
  · simp only [hstage] at hwritten
    cases hwritten
  · simp only [hstage, Option.map_eq_some_iff] at hwritten
    obtain ⟨u, hedit, heq⟩ := hwritten
    obtain ⟨rfl, rfl⟩ := Prod.mk.injEq .. ▸ heq
    simp only [commitsOnce, hstage, List.append_nil]
    exact (edit_iff hids h hedit).trans (all_find_iff hids).symm
  · simp only [hstage, Option.map_eq_some_iff] at hwritten
    obtain ⟨u, hstamp, heq⟩ := hwritten
    obtain ⟨rfl, rfl⟩ := Prod.mk.injEq .. ▸ heq
    simp only [commitsOnce, hstage]
    exact stampConfirmed_iff hids h hstamp
  · simp only [hstage] at hwritten
    obtain ⟨rfl, rfl⟩ := Prod.mk.injEq .. ▸ Option.some.inj hwritten
    refine (enteredOnce_append_iff h).trans ?_
    simp only [commitsOnce, hstage, StampConfirmedInput.entry]
    rcases input.record with _ | amount <;> simp

theorem commit_iff (hids : s.Keyed) (h : s.Entered) :
    (s.step (.commit session)).Entered ∧ s.Keeps (.commit session) ↔
      s.commitsOnce (.commit session) = true := by
  rcases hwritten : s.written session with _ | ⟨t, new⟩
  · have hstep : s.step (.commit session) = s.setStage session .idle := by
      simp only [step, commit, hwritten]
    refine untouched_iff h ?_ ?_ (commitsOnce_of_unwritten hwritten)
    · rw [hstep]
      rfl
    · rw [hstep]
      rfl
  · have hstep : s.step (.commit session) = (s.committed t new).setStage session .idle := by
      simp only [step, commit, hwritten]
    unfold Entered Keeps
    rw [hstep]
    exact written_iff hids h hwritten

theorem begin_tables {stage : Option CandidateStage} :
    (s.begin session stage).tables = s.tables ∧ (s.begin session stage).entered = s.entered := by
  unfold begin
  split <;> exact ⟨rfl, rfl⟩

theorem read_tables :
    (s.read session).tables = s.tables ∧ (s.read session).entered = s.entered := by
  unfold read
  split <;> exact ⟨rfl, rfl⟩

theorem step_iff (hids : s.Keyed) (h : s.Entered) :
    (s.step action).Entered ∧ s.Keeps action ↔ s.commitsOnce action = true := by
  cases action with
  | confirm session route => exact untouched_iff h begin_tables.1 begin_tables.2 rfl
  | edit session edit => exact untouched_iff h begin_tables.1 begin_tables.2 rfl
  | stampConfirmed session input => exact untouched_iff h begin_tables.1 begin_tables.2 rfl
  | read session => exact untouched_iff h read_tables.1 read_tables.2 rfl
  | commit session => exact commit_iff hids h
  | abort session => exact untouched_iff h rfl rfl rfl

theorem keyed_edit {t : CandidateTables} (hids : s.Keyed) (h : s.tables.edit edit = some t)
    : (t.candidates.map (·.id)).Nodup := by
  cases edit with
  | setDisposition id disposition =>
    simp only [CandidateTables.edit] at h
    split_ifs at h
    obtain rfl := Option.some.inj h
    refine nodup_map_rows hids fun c => ?_
    split_ifs <;> rfl
  | updateLine input =>
    simp only [CandidateTables.edit] at h
    split_ifs at h
    obtain rfl := Option.some.inj h
    refine nodup_map_rows hids fun c => ?_
    split_ifs <;> rfl
  | removeLine id =>
    obtain rfl := Option.some.inj h
    exact List.Nodup.sublist (List.filter_sublist.map _) hids

theorem keyed_written {t : CandidateTables} {new : List CandidateEntry} (hids : s.Keyed)
    (h : s.written session = some (t, new)) : (t.candidates.map (·.id)).Nodup := by
  unfold written at h
  rcases hstage : s.stage session with _ | ⟨route, document, _ | ⟨id, left⟩, confirmable⟩ | edit |
    input | input
  · simp only [hstage] at h
    cases h
  · simp only [hstage] at h
    obtain ⟨⟨now, kind, -, hcandidates⟩, -⟩ := CandidateTables.confirm_enters h
    rw [hcandidates]
    exact nodup_map_rows hids fun c => stamped_id c
  · simp only [hstage] at h
    cases h
  · simp only [hstage, Option.map_eq_some_iff] at h
    obtain ⟨u, hedit, heq⟩ := h
    obtain ⟨rfl, -⟩ := Prod.mk.injEq .. ▸ heq
    exact keyed_edit hids hedit
  · simp only [hstage, Option.map_eq_some_iff] at h
    obtain ⟨u, hstamp, heq⟩ := h
    obtain ⟨rfl, -⟩ := Prod.mk.injEq .. ▸ heq
    unfold CandidateTables.stampConfirmed at hstamp
    split_ifs at hstamp
    obtain rfl := Option.some.inj hstamp
    refine nodup_map_rows hids fun c => ?_
    split_ifs <;> rfl
  · simp only [hstage] at h
    obtain ⟨rfl, -⟩ := Prod.mk.injEq .. ▸ Option.some.inj h
    exact hids

theorem Keyed.of_tables {s' : CandidateSystem} (hids : s.Keyed) (h : s'.tables = s.tables) :
    s'.Keyed := by
  rw [Keyed, h]
  exact hids

theorem keyed_step (hids : s.Keyed) : (s.step action).Keyed := by
  cases action with
  | confirm session route => exact hids.of_tables begin_tables.1
  | edit session edit => exact hids.of_tables begin_tables.1
  | stampConfirmed session input => exact hids.of_tables begin_tables.1
  | read session => exact hids.of_tables read_tables.1
  | commit session =>
    rcases hwritten : s.written session with _ | ⟨t, new⟩
    · simp only [step, commit, hwritten]
      exact hids
    · simp only [step, commit, hwritten]
      exact keyed_written hids hwritten
  | abort session => exact hids

/-- Every candidate is entered once and what is confirmed stays, exactly as long as every
transaction still finds at its commit what it has read. -/
theorem entered_once_iff (hids : s.Keyed) {actions : List CandidateAction} :
    Runs.Along step Entered s actions ∧ Runs.Meets step Keeps s actions ↔
      s.Entered ∧ Runs.Meets step (fun s action => s.commitsOnce action = true) s actions := by
  have hiff : ∀ h : s.Entered,
      (Runs.Along step Entered s actions ∧ Runs.Meets step Keeps s actions ↔
        Runs.Meets step (fun s action => s.commitsOnce action = true) s actions) := fun h =>
    Runs.along_and_meets_iff (fun _ _ hs _ => keyed_step hs)
      (fun _ _ hs hp => step_iff hs hp) hids h
  constructor
  · intro hrun
    exact ⟨hrun.1.head, (hiff hrun.1.head).1 hrun⟩
  · rintro ⟨h, hmeets⟩
    exact (hiff h).2 hmeets

theorem entered_of_unconfirmed {tables : CandidateTables}
    (h : ∀ c ∈ tables.candidates, c.confirmedAt = none) :
    ({ tables := tables } : CandidateSystem).Entered := by
  refine ⟨fun c hc => ⟨fun hat => ?_, fun _ => rfl⟩, fun e he => absurd he List.not_mem_nil⟩
  rw [h c hc] at hat
  cases hat

section Examples

def stagedTables : CandidateTables where
  expenses := .empty
  stock := stagedDocument .acquisitionCost
  documents := (stagedDocument .acquisitionCost).documents
  candidates := (stagedDocument .acquisitionCost).candidates

def intoLot (costId : ℕ) : ConfirmRoute := .acquisition (fun index => costId + index) intoFirstLot

theorem stagedTables_entered : ({ tables := stagedTables } : CandidateSystem).Entered := by
  refine entered_of_unconfirmed fun c hc => ?_
  obtain rfl := List.mem_singleton.1 hc
  rfl

theorem stagedTables_keyed : ({ tables := stagedTables } : CandidateSystem).Keyed :=
  List.nodup_singleton _

theorem entered_once_in_turn : Runs.Along step Entered { tables := stagedTables }
      [.confirm 0 (intoLot 10), .read 0, .commit 0, .confirm 1 (intoLot 20), .read 1, .commit 1,
        .edit 0 (.removeLine 1), .commit 0] ∧
    Runs.Meets step Keeps { tables := stagedTables }
      [.confirm 0 (intoLot 10), .read 0, .commit 0, .confirm 1 (intoLot 20), .read 1, .commit 1,
        .edit 0 (.removeLine 1), .commit 0] :=
  (entered_once_iff stagedTables_keyed).2 ⟨stagedTables_entered, by decide +kernel⟩

def sideBySide : List CandidateAction :=
  [.confirm 0 (intoLot 10), .confirm 1 (intoLot 20), .read 0, .read 1, .commit 0, .commit 1]

theorem entered_twice : ¬ ∀ (tables : CandidateTables) (actions : List CandidateAction),
    ({ tables := tables } : CandidateSystem).Keyed →
    ({ tables := tables } : CandidateSystem).Entered →
      Runs.Along step Entered { tables := tables } actions ∧
        Runs.Meets step Keeps { tables := tables } actions := by
  intro hall
  have hrun := (hall stagedTables sideBySide stagedTables_keyed stagedTables_entered).1.last
  have hthere : 1 ∈ (Runs.run step { tables := stagedTables } sideBySide).tables.candidates.map
      (·.id) := by decide +kernel
  have htwice : (entriesOf (Runs.run step { tables := stagedTables } sideBySide).entered 1).length =
      2 := by decide +kernel
  obtain ⟨c, hc, hid⟩ := List.mem_map.1 hthere
  rw [← hid] at htwice
  rcases hat : c.confirmedAt with _ | now
  · rw [(hrun.rows c hc).2 hat] at htwice
    cases htwice
  · obtain ⟨e, hone, -⟩ := (hrun.rows c hc).1 (by rw [hat]; rfl)
    rw [hone] at htwice
    cases htwice

end Examples

end CandidateSystem

end Loxep

import Loxep.Profitability
import Loxep.Proofs.PostedCost
import Mathlib.Algebra.BigOperators.Ring.List
import Mathlib.Tactic.LinearCombination

/-!
# Posted and reported cost

The reader rounds the running cost of an item at each depletion and the report rounds the shares of
what was depleted altogether.
-/

namespace Loxep

section Sides

variable (t : FactTables)

def countedDepletions (item : ItemId) (line : ℕ) : List InventoryMovementRow :=
  (depletionsOf t item).filter fun m =>
    m.orderLineId == some line && m.quantity + t.reversedBy m.id != 0

def lineCost (item : ItemId) (line : ℕ) : Money :=
  ((countedDepletions t item line).map fun m => postedCost t m.id).sum

def ReportsPosted (filter : ProfitabilityFilter) (item : ItemId) : Prop :=
  ∃ rows, itemRealizedContribution t filter = .ok rows ∧
    ∀ row ∈ rows, row.inventoryItemId = item →
      row.costBasisAmount = lineCost t item row.orderLineId

instance (filter : ProfitabilityFilter) (item : ItemId) :
    Decidable (ReportsPosted t filter item) :=
  match h : itemRealizedContribution t filter with
  | .error _ => isFalse fun ⟨_, hrows, _⟩ => nomatch h.symm.trans hrows
  | .ok rows => decidable_of_iff (∀ row ∈ rows, row.inventoryItemId = item →
      row.costBasisAmount = lineCost t item row.orderLineId) <| by
    rw [ReportsPosted, h]
    simp only [Except.ok.injEq, exists_eq_left']

def shareRest (total part whole : Money) : ℤ :=
  if whole ≤ part then |total| * (part - whole)
  else Rounding.rest (total.natAbs * part.toNat) whole.toNat

def depletionRest (i : InventoryItemRow) (m : InventoryMovementRow) : ℤ :=
  shareRest i.landedCostAmount (t.priorDepleted m + |m.quantity|) i.quantity -
    shareRest i.landedCostAmount (t.priorDepleted m) i.quantity

def groupRest (i : InventoryItemRow) (d : DepletionFact) : ℤ :=
  |i.landedCostAmount| * d.quantity - ((countedDepletions t i.id d.orderLineId).map fun m =>
    |i.landedCostAmount| * |m.quantity| - depletionRest t i m).sum

/-- The rests of the groups add up to the rest of everything reported, and weighed by quantity no
two of them are more than a unit apart, the earlier never by a whole unit more. -/
def RestsClose (i : InventoryItemRow) (events : List DepletionFact) : Prop :=
  let depleted := sumDecimals (events.map (·.quantity))
  let rest := shareRest i.landedCostAmount depleted i.quantity
  (events.map (groupRest t i)).sum = rest ∧
    (events.map fun d => depleted * groupRest t i d - rest * d.quantity).Pairwise fun a b =>
      a - b < depleted * i.quantity ∧ b - a ≤ depleted * i.quantity

instance (i : InventoryItemRow) (events : List DepletionFact) :
    Decidable (RestsClose t i events) := inferInstanceAs (Decidable (_ ∧ _))

end Sides

def sideOf (total value : Money) : Money := if total < 0 then -value else value

section Magnitude

variable {total part whole : Money}

theorem sideOf_sideOf (value : Money) : sideOf total (sideOf total value) = value := by
  unfold sideOf
  split_ifs
  · exact neg_neg value
  · rfl

theorem sideOf_natCast (n : ℕ) : sideOf total n = signedLike total n := rfl

theorem sideOf_zero : sideOf total 0 = 0 := by
  simp [sideOf]

theorem sideOf_self : sideOf total total = |total| := by
  unfold sideOf
  split_ifs with h
  · exact (abs_of_neg h).symm
  · exact (abs_of_nonneg (not_lt.1 h)).symm

theorem sideOf_sub (a b : Money) : sideOf total (a - b) = sideOf total a - sideOf total b := by
  unfold sideOf
  split_ifs <;> ring

theorem sideOf_sum (l : List Money) : sideOf total l.sum = (l.map (sideOf total)).sum := by
  induction l with
  | nil => simp [sideOf]
  | cons a l ih =>
    rw [List.map_cons, List.sum_cons, List.sum_cons, ← ih]
    unfold sideOf
    split_ifs <;> ring

theorem share_add_rest (total : Money) (hw : 0 < whole) (hp : 0 ≤ part) :
    whole * sideOf total (proRataShare total part whole) + shareRest total part whole =
      |total| * part := by
  unfold shareRest
  split_ifs with hle
  · rw [proRataShare_whole hw hle, sideOf_self]
    ring
  · rw [proRataShare_eq_signedLike hw hp (not_le.1 hle).le, ← sideOf_natCast, sideOf_sideOf]
    have hrest := Rounding.halfUp_add_rest (total.natAbs * part.toNat) whole.toNat
    rw [Int.toNat_of_nonneg hw.le] at hrest
    rw [hrest]
    push_cast
    rw [Int.toNat_of_nonneg hp]

end Magnitude

section Posted

variable {t : FactTables} {i : InventoryItemRow}

theorem priorDepleted_nonneg (m : InventoryMovementRow) : 0 ≤ t.priorDepleted m := by
  refine List.sum_nonneg fun q hq => ?_
  obtain ⟨p, -, rfl⟩ := List.mem_map.1 hq
  exact abs_nonneg _

theorem postedCost_add_rest (hnd : (t.inventoryMovements.map (·.id)).Nodup)
    (hi : t.findItem i.id = some i) (hq : 0 < i.quantity) {m : InventoryMovementRow}
    (hm : m ∈ depletionsOf t i.id) :
    i.quantity * sideOf i.landedCostAmount (postedCost t m.id) + depletionRest t i m =
      |i.landedCostAmount| * |m.quantity| := by
  have hprior := @priorDepleted_nonneg t m
  have hafter := share_add_rest i.landedCostAmount hq
    (add_nonneg hprior (abs_nonneg m.quantity))
  have hbefore := share_add_rest i.landedCostAmount hq hprior
  rw [postedCost_depletion hnd hi hm, FactTables.movementBasis, sideOf_sub, absDecimal,
    depletionRest]
  linarith

theorem lineCost_add_rest (hnd : (t.inventoryMovements.map (·.id)).Nodup)
    (hi : t.findItem i.id = some i) (hq : 0 < i.quantity) (d : DepletionFact) :
    i.quantity * sideOf i.landedCostAmount (lineCost t i.id d.orderLineId) + groupRest t i d =
      |i.landedCostAmount| * d.quantity := by
  have heach : (countedDepletions t i.id d.orderLineId).map (fun m =>
      |i.landedCostAmount| * |m.quantity| - depletionRest t i m) =
        (countedDepletions t i.id d.orderLineId).map fun m =>
          i.quantity * sideOf i.landedCostAmount (postedCost t m.id) := by
    refine List.map_congr_left fun m hm => ?_
    have hposted := postedCost_add_rest hnd hi hq (List.mem_of_mem_filter hm)
    linarith
  rw [groupRest, heach, List.sum_map_mul_left, lineCost, sideOf_sum, List.map_map]
  simp only [Function.comp_def]
  ring

end Posted

section Reported

variable {t : FactTables} {i : InventoryItemRow} {depletions events : List DepletionFact}

variable {depleted : Money}

theorem depletedPool_ok (hd : 0 < depleted) :
    Except.returns (depletedPool i depleted) = true := by
  unfold depletedPool
  split_ifs with hle
  · rfl
  · have hpos : ∀ w ∈ [depleted, i.quantity - depleted], 0 < w := by
      intro w hw
      rcases List.mem_pair.1 hw with rfl | rfl
      · exact hd
      · exact sub_pos.2 (not_le.1 hle)
    rw [distributeByWeights_pos (by simp) hpos]
    rfl

theorem depletedPool_eq (hq : 0 < i.quantity) (hd : 0 < depleted) :
    depletedPool i depleted =
      .ok (proRataShare i.landedCostAmount depleted i.quantity) := by
  rw [← proRata_eq_proRataShare hd hq, proRata, if_neg hq.ne']
  rfl

theorem sum_pos_of_events (hne : events ≠ []) (hpos : ∀ d ∈ events, 0 < d.quantity) :
    0 < (events.map (·.quantity)).sum := by
  rcases events with _ | ⟨d, ds⟩
  · exact absurd rfl hne
  · have hd := hpos d List.mem_cons_self
    have hds : 0 ≤ (ds.map (·.quantity)).sum := by
      refine List.sum_nonneg fun q hq => ?_
      obtain ⟨e, he, rfl⟩ := List.mem_map.1 hq
      exact (hpos e (List.mem_cons_of_mem _ he)).le
    rw [List.map_cons, List.sum_cons]
    exact add_pos_of_pos_of_nonneg hd hds

def basisShares (pool : Money) (events : List DepletionFact) : List Money :=
  (LargestRemainder.apportion pool.natAbs (events.map (·.quantity.toNat))).map (signedLike pool)

theorem basisByEvent_eq (hpos : ∀ d ∈ depletions, 0 < d.quantity)
    (hne : itemEvents depletions i.id ≠ []) : ∃ pool,
      depletedPool i ((itemEvents depletions i.id).map (·.quantity)).sum = .ok pool ∧
      basisByEvent depletions i = .ok (((itemEvents depletions i.id).map (·.orderLineId)).zip
        (basisShares pool (itemEvents depletions i.id))) := by
  have hevents : ∀ d ∈ itemEvents depletions i.id, 0 < d.quantity :=
    fun d hd => hpos d (List.mem_of_mem_filter hd)
  obtain ⟨pool, hpool⟩ := Except.returns_iff.1
    (@depletedPool_ok i _ (sum_pos_of_events hne hevents))
  refine ⟨pool, hpool, ?_⟩
  have hweights : ∀ w ∈ (itemEvents depletions i.id).map (·.quantity), 0 < w := by
    intro w hw
    obtain ⟨d, hd, rfl⟩ := List.mem_map.1 hw
    exact hevents d hd
  simp only [basisByEvent, sumDecimals, Except.bind_eq_ok]
  refine ⟨pool, hpool, _, distributeByWeights_pos (by simpa using hne) hweights, ?_⟩
  simp only [basisShares, List.map_map]
  rfl

theorem lookup_zip_iff {κ : Type} [BEq κ] [LawfulBEq κ] {f : κ → Money} :
    ∀ {keys : List κ} {values : List Money}, keys.Nodup → values.length = keys.length →
      ((∀ k ∈ keys, ((keys.zip values).lookup k).getD 0 = f k) ↔ values = keys.map f)
  | [], [], _, _ => by simp
  | k :: keys, v :: values, hnd, hlen => by
    rw [List.nodup_cons] at hnd
    have hrest : ∀ k' ∈ keys, ((k :: keys).zip (v :: values)).lookup k' =
        (keys.zip values).lookup k' := by
      intro k' hk'
      have hne : (k' == k) = false := by
        rw [beq_eq_false_iff_ne]
        rintro rfl
        exact hnd.1 hk'
      rw [List.zip_cons_cons, List.lookup_cons, hne]
    have ih := lookup_zip_iff (f := f) hnd.2 (Nat.succ.inj hlen)
    rw [List.forall_mem_cons, List.map_cons, List.cons.injEq, ← ih]
    refine and_congr ?_ (forall₂_congr fun k' hk' => by rw [hrest k' hk'])
    simp

structure StatesGroup (t : FactTables) (depletions : List DepletionFact) (d : DepletionFact)
    (row : ItemContributionRow) : Prop where
  item : row.inventoryItemId = d.inventoryItemId
  line : row.orderLineId = d.orderLineId
  cost : ∃ item basis, t.findItem d.inventoryItemId = some item ∧
    basisByEvent depletions item = .ok basis ∧
      row.costBasisAmount = (basis.lookup d.orderLineId).getD 0

theorem contributionRows_ok (hpos : ∀ d ∈ depletions, 0 < d.quantity) :
    ∀ {ds : List DepletionFact}, ds ⊆ depletions →
      (∀ d ∈ ds, ∃ item order, t.findItem d.inventoryItemId = some item ∧
        t.findOrder d.orderId = some order) →
      ∃ rows, contributionRows t depletions ds = .ok rows ∧
        List.Forall₂ (StatesGroup t depletions) ds rows
  | [], _, _ => ⟨[], rfl, .nil⟩
  | d :: ds, hsub, hfound => by
    obtain ⟨⟨item, order, hitem, horder⟩, hrest⟩ := List.forall_mem_cons.1 hfound
    obtain ⟨rows, hrows, hall⟩ := contributionRows_ok hpos (List.subset_of_cons_subset hsub) hrest
    have hid : item.id = d.inventoryItemId := (findItem_id hitem).2
    have hne : itemEvents depletions item.id ≠ [] := by
      refine List.ne_nil_of_mem (a := d) ?_
      simp [itemEvents, hsub List.mem_cons_self, hid]
    obtain ⟨basis, hbasis⟩ : ∃ basis, basisByEvent depletions item = .ok basis := by
      obtain ⟨pool, -, hbasis⟩ := @basisByEvent_eq item depletions hpos hne
      exact ⟨_, hbasis⟩
    refine ⟨contributionRow t item order d basis :: rows, ?_, ?_⟩
    · simp only [contributionRows, hitem, horder, hbasis, hrows]
      rfl
    · exact .cons ⟨hid, rfl, item, basis, hitem, hbasis, rfl⟩ hall

theorem forall_rows_iff {α β : Type} {R : α → β → Prop} {P : α → Prop} {Q : β → Prop}
    (h : ∀ a b, R a b → (Q b ↔ P a)) : ∀ {as : List α} {bs : List β}, List.Forall₂ R as bs →
      ((∀ b ∈ bs, Q b) ↔ ∀ a ∈ as, P a)
  | [], [], .nil => by simp
  | a :: as, b :: bs, .cons hab hrest => by
    rw [List.forall_mem_cons, List.forall_mem_cons, h a b hab, forall_rows_iff h hrest]

variable {admits : OrderRow → InventoryItemRow → Bool} {d r : DepletionFact}

theorem depletionRow_eq_some {m : InventoryMovementRow} (h : t.depletionRow admits m = some r)
    : ∃ line order item,
      t.orderLines.find? (·.id == r.orderLineId) = some line ∧ line.orderId = r.orderId ∧
      t.findOrder r.orderId = some order ∧ t.findItem r.inventoryItemId = some item := by
  simp only [FactTables.depletionRow, Option.bind_eq_bind, Option.bind_eq_some_iff] at h
  obtain ⟨lineId, -, line, hline, order, horder, item, hitem, h⟩ := h
  split_ifs at h
  cases h
  exact ⟨line, order, item, hline, rfl, horder, hitem⟩

theorem mem_depletionFacts (h : d ∈ t.depletionFacts admits) :
    0 < d.quantity ∧ ∃ m r, t.depletionRow admits m = some r ∧ r.group = d.group := by
  simp only [FactTables.depletionFacts, List.mem_insertionSort, List.mem_filter, List.mem_map,
    List.mem_dedup, decide_eq_true_eq] at h
  obtain ⟨⟨group, ⟨r, hr, rfl⟩, rfl⟩, hpos⟩ := h
  obtain ⟨m, -, hm⟩ := List.mem_filterMap.1 hr
  exact ⟨hpos, m, r, hm, rfl⟩

theorem group_inj : d.group = r.group ↔ d.orderId = r.orderId ∧
    d.orderLineId = r.orderLineId ∧ d.inventoryItemId = r.inventoryItemId := by
  simp [DepletionFact.group]

theorem depletionFacts_joined (h : d ∈ t.depletionFacts admits) : ∃ line order item,
    t.orderLines.find? (·.id == d.orderLineId) = some line ∧ line.orderId = d.orderId ∧
      t.findOrder d.orderId = some order ∧ t.findItem d.inventoryItemId = some item := by
  obtain ⟨-, m, r, hr, hgroup⟩ := mem_depletionFacts h
  obtain ⟨horder, hline, hitem⟩ := group_inj.1 hgroup
  rw [← horder, ← hline, ← hitem]
  exact depletionRow_eq_some hr

theorem groups_nodup : ((t.depletionFacts admits).map (·.group)).Nodup := by
  have hperm := List.perm_insertionSort (fun a b : DepletionFact => a.group ≤ b.group)
  rw [FactTables.depletionFacts, ((hperm _).map _).nodup_iff]
  refine List.Nodup.sublist ((List.filter_sublist).map _) ?_
  rw [List.map_map]
  have hid : ∀ group : ℕ ×ₗ ℕ ×ₗ ℕ, toLex ((ofLex group).1,
      toLex ((ofLex (ofLex group).2).1, (ofLex (ofLex group).2).2)) = group := fun _ => rfl
  simp only [DepletionFact.group, Function.comp_def, hid, List.map_id']
  exact List.nodup_dedup _

theorem lines_nodup (item : ItemId) :
    ((itemEvents (t.depletionFacts admits) item).map (·.orderLineId)).Nodup := by
  have hgroups := @groups_nodup t admits
  have hnd : (itemEvents (t.depletionFacts admits) item).Nodup :=
    (List.Nodup.of_map _ hgroups).sublist List.filter_sublist
  refine List.Nodup.map_on (fun d hd e he hline => ?_) hnd
  simp only [itemEvents, List.mem_filter, beq_iff_eq] at hd he
  obtain ⟨_, _, _, hfound, horder, -⟩ := depletionFacts_joined hd.1
  obtain ⟨_, _, _, hfound', horder', -⟩ := depletionFacts_joined he.1
  rw [hline, hfound', Option.some.injEq] at hfound
  subst hfound
  refine List.inj_on_of_nodup_map hgroups hd.1 he.1 (group_inj.2 ⟨?_, hline, ?_⟩)
  · exact horder.symm.trans horder'
  · exact hd.2.trans he.2.symm

variable {filter : ProfitabilityFilter}

section

variable (hadmits : orderPredicates filter = .ok admits)
include hadmits

theorem report_ok :
    ∃ rows, itemRealizedContribution t filter = .ok rows ∧
      List.Forall₂ (StatesGroup t (t.depletionFacts admits)) (t.depletionFacts admits) rows := by
  have hfound : ∀ d ∈ t.depletionFacts admits, ∃ item order,
      t.findItem d.inventoryItemId = some item ∧ t.findOrder d.orderId = some order := by
    intro d hd
    obtain ⟨_, order, item, -, -, horder, hitem⟩ := depletionFacts_joined hd
    exact ⟨item, order, hitem, horder⟩
  obtain ⟨rows, hrows, hall⟩ := contributionRows_ok (fun d hd => (mem_depletionFacts hd).1)
    (List.Subset.refl _) hfound
  refine ⟨rows, ?_, hall⟩
  simp only [itemRealizedContribution, Except.bind_eq_ok]
  exact ⟨admits, hadmits, hrows⟩

theorem reportsPosted_iff_basis (hi : t.findItem i.id = some i) :
    ReportsPosted t filter i.id ↔ ∀ d ∈ itemEvents (t.depletionFacts admits) i.id,
      ∀ basis, basisByEvent (t.depletionFacts admits) i = .ok basis →
        (basis.lookup d.orderLineId).getD 0 = lineCost t i.id d.orderLineId := by
  obtain ⟨rows, hreport, hall⟩ := @report_ok t admits filter hadmits
  have hrow : ∀ d row, StatesGroup t (t.depletionFacts admits) d row →
      ((row.inventoryItemId = i.id → row.costBasisAmount = lineCost t i.id row.orderLineId) ↔
        (d.inventoryItemId = i.id → ∀ basis,
          basisByEvent (t.depletionFacts admits) i = .ok basis →
            (basis.lookup d.orderLineId).getD 0 = lineCost t i.id d.orderLineId)) := by
    intro d row hstates
    obtain ⟨item, basis, hitem, hbasis, hcost⟩ := hstates.cost
    rw [hstates.item, hstates.line, hcost]
    refine forall_congr' fun hsame => ?_
    rw [hsame, hi, Option.some.injEq] at hitem
    subst hitem
    rw [hbasis]
    simp only [Except.ok.injEq, forall_eq']
  simp only [ReportsPosted, hreport, Except.ok.injEq, exists_eq_left', itemEvents,
    List.mem_filter, beq_iff_eq, and_imp]
  exact forall_rows_iff hrow hall

theorem reportsPosted_iff_shares (hi : t.findItem i.id = some i) (hq : 0 < i.quantity)
    (hne : itemEvents (t.depletionFacts admits) i.id ≠ []) :
    ReportsPosted t filter i.id ↔
      basisShares (proRataShare i.landedCostAmount
          ((itemEvents (t.depletionFacts admits) i.id).map (·.quantity)).sum i.quantity)
        (itemEvents (t.depletionFacts admits) i.id) =
      (itemEvents (t.depletionFacts admits) i.id).map fun d => lineCost t i.id d.orderLineId := by
  have hpos : ∀ d ∈ t.depletionFacts admits, 0 < d.quantity :=
    fun d hd => (mem_depletionFacts hd).1
  obtain ⟨pool, hpool, hbasis⟩ := basisByEvent_eq hpos hne
  have hdepleted : 0 < ((itemEvents (t.depletionFacts admits) i.id).map (·.quantity)).sum :=
    sum_pos_of_events hne fun d hd => hpos d (List.mem_of_mem_filter hd)
  rw [depletedPool_eq hq hdepleted, Except.ok.injEq] at hpool
  rw [reportsPosted_iff_basis hadmits hi, hpool]
  have hlen : (basisShares pool (itemEvents (t.depletionFacts admits) i.id)).length =
      ((itemEvents (t.depletionFacts admits) i.id).map (·.orderLineId)).length := by
    simp [basisShares, LargestRemainder.length_apportion]
  have hlookup := lookup_zip_iff (f := lineCost t i.id) (lines_nodup i.id) hlen
  rw [List.map_map] at hlookup
  rw [← Function.comp_def, ← hlookup]
  simp only [hbasis, Except.ok.injEq, forall_eq', List.forall_mem_map]

end

end Reported

section Compare

variable {t : FactTables} {i : InventoryItemRow} {events : List DepletionFact}

theorem signedLike_pool {total pool : ℤ} (h : pool = signedLike total pool.natAbs) (ws : List ℕ) :
    (LargestRemainder.apportion pool.natAbs ws).map (signedLike pool) =
      (LargestRemainder.apportion pool.natAbs ws).map (signedLike total) := by
  by_cases hzero : pool = 0
  · subst hzero
    simp [LargestRemainder.apportion_zero, signedLike]
  · have hsign : pool < 0 ↔ total < 0 := by
      unfold signedLike at h
      split_ifs at h
      · omega
      · omega
    refine List.map_congr_left fun n _ => ?_
    simp only [signedLike, hsign]

theorem shares_eq_iff {total : Money} {ns : List ℕ} {xs : List Money} :
    ns.map (signedLike total) = xs ↔ xs.map (sideOf total) = ns.map (Nat.cast : ℕ → ℤ) := by
  constructor
  · rintro rfl
    rw [List.map_map]
    exact List.map_congr_left fun n _ => sideOf_sideOf (n : ℤ)
  · intro h
    have hback := congrArg (List.map (sideOf total)) h
    rw [List.map_map, List.map_map] at hback
    have hid : (sideOf total ∘ sideOf total) = id := funext sideOf_sideOf
    rw [hid, List.map_id] at hback
    exact hback.symm

theorem pool_eq (hq : 0 < i.quantity) {depleted : Money} (hd : 0 ≤ depleted) :
    proRataShare i.landedCostAmount depleted i.quantity = signedLike i.landedCostAmount
      (proRataShare i.landedCostAmount depleted i.quantity).natAbs := by
  obtain ⟨hpos, hneg⟩ := @proRataShare_between i.landedCostAmount depleted i.quantity hq hd
  generalize proRataShare i.landedCostAmount depleted i.quantity = share at *
  unfold signedLike
  split_ifs with hsign
  · rw [Int.ofNat_natAbs_of_nonpos (hneg (le_of_lt hsign)).1, neg_neg]
  · exact (Int.natAbs_of_nonneg (hpos (not_lt.1 hsign)).1).symm

theorem fair_iff_restsClose {pool : ℕ} {cost : DepletionFact → ℤ} (hq : 0 < i.quantity)
    (hpos : ∀ d ∈ events, 0 < d.quantity)
    (hcost : ∀ d, i.quantity * cost d + groupRest t i d = |i.landedCostAmount| * d.quantity)
    (htotal : i.quantity * pool + shareRest i.landedCostAmount (events.map (·.quantity)).sum
      i.quantity = |i.landedCostAmount| * (events.map (·.quantity)).sum)
    (hweights : (((events.map (·.quantity.toNat)).sum : ℕ) : ℤ) =
      (events.map (·.quantity)).sum) :
    LargestRemainder.Fair pool (events.map (·.quantity.toNat)) (events.map cost) ↔
      RestsClose t i events := by
  set depleted := (events.map (·.quantity)).sum with hdepleted
  set rest := shareRest i.landedCostAmount depleted i.quantity
  have hsum : i.quantity * (events.map cost).sum + (events.map (groupRest t i)).sum =
      |i.landedCostAmount| * depleted := by
    rw [hdepleted, ← List.sum_map_mul_left, ← List.sum_map_mul_left, ← List.sum_map_add]
    exact congrArg List.sum (List.map_congr_left fun d _ => hcost d)
  have hmisses : LargestRemainder.misses pool (events.map (·.quantity.toNat)) (events.map cost) =
      events.map fun d => pool * d.quantity - depleted * cost d := by
    rw [LargestRemainder.misses, hweights, List.zipWith_map, List.zipWith_self]
    refine List.map_congr_left fun d hd => ?_
    rw [Int.toNat_of_nonneg (hpos d hd).le]
  have hscaled : ∀ d, i.quantity * (pool * d.quantity - depleted * cost d) =
      depleted * groupRest t i d - rest * d.quantity := fun d => by
    linear_combination d.quantity * htotal - depleted * hcost d
  have hclose : ∀ a b : DepletionFact,
      ((pool * a.quantity - depleted * cost a) - (pool * b.quantity - depleted * cost b) <
          depleted ∧
        (pool * b.quantity - depleted * cost b) - (pool * a.quantity - depleted * cost a) ≤
          depleted) ↔
      ((depleted * groupRest t i a - rest * a.quantity) -
          (depleted * groupRest t i b - rest * b.quantity) < depleted * i.quantity ∧
        (depleted * groupRest t i b - rest * b.quantity) -
          (depleted * groupRest t i a - rest * a.quantity) ≤ depleted * i.quantity) := by
    intro a b
    rw [← hscaled a, ← hscaled b, ← mul_sub, ← mul_sub,
      mul_comm depleted i.quantity, mul_lt_mul_iff_right₀ hq, mul_le_mul_iff_right₀ hq]
  have htotals : (events.map cost).sum = pool ↔ (events.map (groupRest t i)).sum = rest := by
    constructor
    · intro h
      rw [h] at hsum
      linarith
    · intro h
      refine mul_left_cancel₀ hq.ne' ?_
      linarith
  constructor
  · intro hfair
    refine ⟨htotals.1 hfair.sum, ?_⟩
    have hpairs := hfair.close
    rw [hmisses, hweights, List.pairwise_map] at hpairs
    exact List.pairwise_map.2 (hpairs.imp fun {a b} h => (hclose a b).1 h)
  · rintro ⟨hrests, hpairs⟩
    refine ⟨by simp, htotals.2 hrests, ?_⟩
    rw [hmisses, hweights, List.pairwise_map]
    exact (List.pairwise_map.1 hpairs).imp fun {a b} h => (hclose a b).2 h

theorem shares_eq_cost_iff (hnd : (t.inventoryMovements.map (·.id)).Nodup)
    (hi : t.findItem i.id = some i) (hq : 0 < i.quantity) (hne : events ≠ [])
    (hpos : ∀ d ∈ events, 0 < d.quantity) :
    basisShares (proRataShare i.landedCostAmount (events.map (·.quantity)).sum i.quantity)
        events = events.map (fun d => lineCost t i.id d.orderLineId) ↔ RestsClose t i events := by
  have hdepleted := sum_pos_of_events hne hpos
  have hpool := pool_eq hq hdepleted.le
  have htotal := share_add_rest i.landedCostAmount hq hdepleted.le
  have hweights : (((events.map (·.quantity.toNat)).sum : ℕ) : ℤ) =
      (events.map (·.quantity)).sum := by
    change Nat.castAddMonoidHom ℤ _ = _
    rw [map_list_sum, List.map_map]
    refine congrArg List.sum (List.map_congr_left fun d hd => ?_)
    exact Int.toNat_of_nonneg (hpos d hd).le
  have hwpos : 0 < (events.map (·.quantity.toNat)).sum := by
    rw [← hweights] at hdepleted
    exact Int.natCast_pos.1 hdepleted
  rw [basisShares, signedLike_pool hpool, shares_eq_iff, ← LargestRemainder.fair_iff hwpos]
  rw [hpool, ← sideOf_natCast, sideOf_sideOf] at htotal
  rw [List.map_map]
  exact fair_iff_restsClose hq hpos (lineCost_add_rest hnd hi hq) htotal hweights

/-- The reader and the report give every order line of an item one cost exactly when the rests of
the item's reported groups are close. -/
theorem reports_posted_iff {filter : ProfitabilityFilter}
    {admits : OrderRow → InventoryItemRow → Bool} (hadmits : orderPredicates filter = .ok admits)
    (hnd : (t.inventoryMovements.map (·.id)).Nodup) (hi : t.findItem i.id = some i)
    (hq : 0 < i.quantity) :
    ReportsPosted t filter i.id ↔
      RestsClose t i (itemEvents (t.depletionFacts admits) i.id) := by
  have hpos : ∀ d ∈ itemEvents (t.depletionFacts admits) i.id, 0 < d.quantity :=
    fun d hd => (mem_depletionFacts (List.mem_of_mem_filter hd)).1
  by_cases hne : itemEvents (t.depletionFacts admits) i.id = []
  · have hrests : RestsClose t i [] := by
      have hnone := share_add_rest i.landedCostAmount hq le_rfl
      rw [proRataShare_zero_part, sideOf_zero, mul_zero, mul_zero, zero_add] at hnone
      exact ⟨hnone.symm, List.Pairwise.nil⟩
    rw [reportsPosted_iff_basis hadmits hi, hne]
    exact iff_of_true (fun d hd => absurd hd List.not_mem_nil) hrests
  · rw [reportsPosted_iff_shares hadmits hi hq hne]
    exact shares_eq_cost_iff hnd hi hq hne hpos

end Compare

namespace Small

def lot (landedCostAmount : Money) : InventoryItemRow :=
  ⟨0, "ITM-0", none, none, none, none, "depleted", 3 * moneyUnits, 0, "USD", landedCostAmount,
    landedCostAmount, true, .unit, none, none, none⟩

def order (id : FactId) : OrderRow :=
  ⟨id, "manual", "manual", none, "USD", "shipped", 0, 0, 0, 0, 0, 0, 0, "order", none,
    ⟨⟨2026, 1, 10⟩, 0⟩, none⟩

def unitSale (n hour : ℕ) : InventoryMovementRow :=
  ⟨n, 0, .depletionSale, -moneyUnits, none, some n, none, s!"ffl:{n}",
    ⟨⟨2026, 1, 15⟩, hour * 3600000000⟩⟩

def threeSold (landedCostAmount : Money) : FactTables :=
  { FactTables.empty with
    orders := [order 1, order 2, order 3]
    orderLines := [⟨1, 1⟩, ⟨2, 2⟩, ⟨3, 3⟩]
    inventoryItems := [lot landedCostAmount]
    inventoryMovements := [⟨0, 0, .found, 3 * moneyUnits, none, none, none, "found:0:item:0",
      ⟨⟨2026, 1, 1⟩, 0⟩⟩, unitSale 1 10, unitSale 2 11, unitSale 3 12] }

end Small

theorem odd_millionth_differs : ¬ ∀ (t : FactTables) (i : InventoryItemRow),
    (t.inventoryMovements.map (·.id)).Nodup → t.findItem i.id = some i → 0 < i.quantity →
      soldQuantity t i.id ≤ i.quantity → ReportsPosted t {} i.id := by
  intro hall
  have hposted := hall (Small.threeSold (100 * moneyUnits)) (Small.lot (100 * moneyUnits))
    (by decide) rfl (by decide) (by decide +kernel)
  have hnot : ¬ ReportsPosted (Small.threeSold (100 * moneyUnits)) {} 0 := by decide +kernel
  exact hnot hposted

theorem even_cost_agrees :
    ReportsPosted (Small.threeSold (90 * moneyUnits)) {} (Small.lot (90 * moneyUnits)).id := by
  have hnd : ((Small.threeSold (90 * moneyUnits)).inventoryMovements.map (·.id)).Nodup := by
    decide
  exact (reports_posted_iff (i := Small.lot (90 * moneyUnits)) rfl hnd rfl (by decide)).2
    (by decide +kernel)

end Loxep

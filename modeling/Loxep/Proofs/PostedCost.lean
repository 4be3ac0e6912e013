import Loxep.Lib.Increments
import Loxep.Proofs.StockSpec

/-!
# The cost of what is taken out

The shares of an amount, the cost a depletion posts, and what the depletions of an item come to.
-/

/-!
## Shares of an amount

The share a split hands over and the share a depletion relieves are one function of the amount, the
part and the whole: the part of the magnitude rounded half up, under the amount's sign.
-/

namespace Loxep

section Sign

variable {total : ℤ} {n : ℕ}

theorem signedLike_natAbs (total : ℤ) : signedLike total total.natAbs = total := by
  unfold signedLike
  split_ifs <;> omega

theorem signedLike_eq_self_iff : signedLike total n = total ↔ n = total.natAbs := by
  unfold signedLike
  split_ifs <;> omega

theorem signedLike_eq_zero_iff : signedLike total n = 0 ↔ n = 0 := by
  unfold signedLike
  split_ifs <;> omega

theorem signedLike_between (h : n ≤ total.natAbs) :
    (0 ≤ total → 0 ≤ signedLike total n ∧ signedLike total n ≤ total) ∧
      (total ≤ 0 → signedLike total n ≤ 0 ∧ total ≤ signedLike total n) := by
  unfold signedLike
  constructor <;> intro hsign <;> split_ifs <;> omega

theorem sum_signedLike (total : ℤ) (l : List ℕ) :
    (l.map (signedLike total)).sum = signedLike total l.sum := by
  induction l with
  | nil => simp [signedLike]
  | cons n l ih =>
    rw [List.map_cons, List.sum_cons, ih, List.sum_cons]
    unfold signedLike
    split_ifs <;> push_cast <;> ring

end Sign

section Share

variable {total part whole : ℤ}

theorem proRataShare_eq_signedLike (hw : 0 < whole) (hp : 0 ≤ part) (hle : part ≤ whole) :
    proRataShare total part whole =
      signedLike total (Rounding.halfUp (total.natAbs * part.toNat) whole.toNat) := by
  have hwn : 0 < whole.toNat := by omega
  unfold proRataShare
  rw [if_neg (not_le.2 hw)]
  split_ifs with hpart hwhole hneg
  · obtain rfl : part = 0 := le_antisymm hpart hp
    rw [Int.toNat_zero, Nat.mul_zero, eq_comm, signedLike_eq_zero_iff,
      Rounding.halfUp_eq_zero_iff hwn]
    omega
  · obtain rfl : part = whole := le_antisymm hle hwhole
    rw [Rounding.halfUp_mul_self hwn, signedLike_natAbs]
  · simp only [signedLike, if_pos hneg]
  · simp only [signedLike, if_neg hneg]

theorem proRataShare_eq_total_iff (hw : 0 < whole) (hp : 0 ≤ part) :
    proRataShare total part whole = total ↔ 2 * (|total| * (whole - part)) ≤ whole := by
  rcases lt_or_ge whole part with hlt | hle
  · rw [proRataShare_whole hw hlt.le]
    have : |total| * (whole - part) ≤ 0 :=
      mul_nonpos_of_nonneg_of_nonpos (abs_nonneg _) (by omega)
    exact iff_of_true rfl (by omega)
  · rw [proRataShare_eq_signedLike hw hp hle, signedLike_eq_self_iff,
      Rounding.halfUp_share_eq_whole_iff (by omega) (by omega)]
    have hsub : ((whole.toNat - part.toNat : ℕ) : ℤ) = whole - part := by omega
    rw [← Nat.cast_le (α := ℤ)]
    push_cast [hsub]
    rw [Int.toNat_of_nonneg hw.le]

theorem proRataShare_eq_zero_iff (hw : 0 < whole) (hp : 0 ≤ part) :
    proRataShare total part whole = 0 ↔ 2 * (|total| * part) < whole := by
  rcases le_or_gt whole part with hle | hlt
  · rw [proRataShare_whole hw hle]
    constructor
    · rintro rfl
      simpa using hw
    · intro h
      by_contra hne
      have hpos : 1 ≤ |total| := Int.one_le_abs hne
      nlinarith
  · rw [proRataShare_eq_signedLike hw hp hlt.le, signedLike_eq_zero_iff,
      Rounding.halfUp_eq_zero_iff (by omega), ← Nat.cast_lt (α := ℤ)]
    push_cast
    rw [Int.toNat_of_nonneg hw.le, Int.toNat_of_nonneg hp]

theorem proRataShare_zero_total : proRataShare 0 part whole = 0 := by
  unfold proRataShare
  split_ifs <;> simp_all [Rounding.halfUp]

theorem proRataShare_between (hw : 0 < whole) (hp : 0 ≤ part) :
    (0 ≤ total → 0 ≤ proRataShare total part whole ∧ proRataShare total part whole ≤ total) ∧
      (total ≤ 0 → proRataShare total part whole ≤ 0 ∧
        total ≤ proRataShare total part whole) := by
  rcases lt_or_ge whole part with hlt | hle
  · rw [proRataShare_whole hw hlt.le]
    exact ⟨fun h => ⟨h, le_rfl⟩, fun h => ⟨h, le_rfl⟩⟩
  · rw [proRataShare_eq_signedLike hw hp hle]
    exact signedLike_between (Rounding.halfUp_share_le (by omega) (by omega))

variable {part' : ℤ}

theorem proRataShare_mono (ht : 0 ≤ total) (hw : 0 < whole) (hp : 0 ≤ part) (hle : part ≤ part')
    : proRataShare total part whole ≤ proRataShare total part' whole := by
  rcases le_or_gt whole part' with hpast | hlt
  · rw [proRataShare_whole hw hpast]
    exact ((proRataShare_between hw hp).1 ht).2
  · rw [proRataShare_eq_signedLike hw hp (by omega),
      proRataShare_eq_signedLike hw (hp.trans hle) hlt.le]
    have hmono : Rounding.halfUp (total.natAbs * part.toNat) whole.toNat ≤
        Rounding.halfUp (total.natAbs * part'.toNat) whole.toNat :=
      Rounding.halfUp_mono (by omega) (Nat.mul_le_mul_left _ (by omega))
    simp only [signedLike, if_neg (not_lt.2 ht)]
    exact_mod_cast hmono

theorem proRataShare_min (hw : 0 < whole) :
    proRataShare total (min part whole) whole = proRataShare total part whole := by
  rcases le_total part whole with hle | hle
  · rw [min_eq_left hle]
  · rw [min_eq_right hle, proRataShare_whole hw le_rfl, proRataShare_whole hw hle]

theorem proRataShare_eq_zero_of_le (hw : 0 < whole) (hp : 0 ≤ part) (hle : part ≤ part')
    (h : proRataShare total part' whole = 0) :
    proRataShare total part whole = 0 := by
  rw [proRataShare_eq_zero_iff hw (hp.trans hle)] at h
  rw [proRataShare_eq_zero_iff hw hp]
  have : |total| * part ≤ |total| * part' := mul_le_mul_of_nonneg_left hle (abs_nonneg _)
  omega

end Share

section Distribute

variable {total : ℤ} {weights : List ℤ}

theorem distributeByWeights_pos (hne : weights ≠ []) (hw : ∀ w ∈ weights, 0 < w) :
    distributeByWeights total weights = .ok ⟨(LargestRemainder.apportion total.natAbs
      (weights.map Int.toNat)).map (signedLike total), 0⟩ := by
  have hsum : 0 < weights.sum := by
    rcases weights with _ | ⟨w, ws⟩
    · exact absurd rfl hne
    · obtain ⟨hw₀, hws⟩ := List.forall_mem_cons.1 hw
      have : 0 ≤ ws.sum := List.sum_nonneg fun w h => (hws w h).le
      rw [List.sum_cons]
      omega
  unfold distributeByWeights
  rw [if_neg hne, if_neg, if_neg hsum.ne']
  rintro ⟨w, hmem, hneg⟩
  exact absurd (hw w hmem) (not_lt.2 hneg.le)

variable {d : Distribution}

theorem distributeByWeights_conserves (h : distributeByWeights total weights = .ok d) :
    d.shares.sum + d.unallocated = total ∧ d.shares.length = weights.length := by
  unfold distributeByWeights at h
  split_ifs at h with hnil hneg hzero
  · cases h
    simp [hnil]
  · cases h
    simp
  · cases h
    have hnonneg : ∀ w ∈ weights, 0 ≤ w := fun w hw => not_lt.1 fun hlt => hneg ⟨w, hw, hlt⟩
    have hsum : ((weights.map Int.toNat).sum : ℤ) = weights.sum := by
      have hcast : ((weights.map Int.toNat).sum : ℤ) = (weights.map fun w => (w.toNat : ℤ)).sum := by
        rw [← Nat.coe_castAddMonoidHom, map_list_sum, List.map_map]
        rfl
      rw [hcast, List.map_congr_left fun w hw => Int.toNat_of_nonneg (hnonneg w hw), List.map_id']
    have hpos : 0 < (weights.map Int.toNat).sum := Nat.pos_of_ne_zero fun h => by
      rw [h, Nat.cast_zero] at hsum
      exact hzero hsum.symm
    refine ⟨?_, ?_⟩
    · rw [sum_signedLike, LargestRemainder.sum_apportion hpos, signedLike_natAbs, add_zero]
    · rw [List.length_map, LargestRemainder.length_apportion, List.length_map]

theorem sum_distributeByWeights (hne : weights ≠ []) (hw : ∀ w ∈ weights, 0 < w)
    (h : distributeByWeights total weights = .ok d) :
    d.shares.sum = total ∧ d.shares.length = weights.length := by
  obtain ⟨hsum, hlength⟩ := distributeByWeights_conserves h
  rw [distributeByWeights_pos hne hw, Except.ok.injEq] at h
  subst h
  exact ⟨(add_zero _).symm.trans hsum, hlength⟩

theorem proRata_eq_proRataShare {amount moved quantity : ℤ} (hm : 0 < moved) (hq : 0 < quantity) :
    proRata amount moved quantity = .ok (proRataShare amount moved quantity) := by
  unfold proRata
  rw [if_neg hq.ne']
  split_ifs with hle
  · rw [proRataShare_whole hq hle]
  · have hlt : moved < quantity := not_le.1 hle
    have hpos : ∀ w ∈ [moved, quantity - moved], 0 < w := by
      intro w hw
      rcases List.mem_pair.1 hw with rfl | rfl
      · exact hm
      · omega
    rw [distributeByWeights_pos (by simp) hpos]
    have hpair : [moved, quantity - moved].map Int.toNat =
        [moved.toNat, (quantity - moved).toNat] := rfl
    have hsum : moved.toNat + (quantity - moved).toNat = quantity.toNat := by omega
    have hwhole : 0 < moved.toNat + (quantity - moved).toNat := by omega
    rw [hpair, LargestRemainder.apportion_pair hwhole, hsum,
      proRataShare_eq_signedLike hq hm.le hlt.le]
    rfl

end Distribute

/-!
## The cost of goods sold of an item

The reader gives each depletion the difference of two cumulative shares, in the order of the
depletions' instants. Over all depletions of an item the differences telescope: together they
relieve the share of everything sold.
-/

section Cost

variable (t : FactTables)

def depletionsOf (item : ItemId) : List InventoryMovementRow :=
  t.inventoryMovements.filter fun m =>
    m.inventoryItemId == item && m.movementKind == .depletionSale

def soldQuantity (item : ItemId) : Money :=
  ((depletionsOf t item).map fun m => absDecimal m.quantity).sum

def postedCost (id : MovementId) : Money :=
  ((t.readInventoryMovement id).bind fun fact => fact.amounts.lookup .costBasis).getD 0

def itemCost (item : ItemId) : Money :=
  ((depletionsOf t item).map fun m => postedCost t m.id).sum

def movementOrder (m : InventoryMovementRow) : Timestamp ×ₗ ℕ := toLex (m.occurredAt, m.id)

variable {t} {item : ItemId} {i : InventoryItemRow} {m : InventoryMovementRow}

theorem mem_depletionsOf : m ∈ depletionsOf t item ↔
    m ∈ t.inventoryMovements ∧ m.inventoryItemId = item ∧ m.movementKind = .depletionSale := by
  simp [depletionsOf]

theorem precedes_iff (p m : InventoryMovementRow) :
    p.precedes m = true ↔ movementOrder p < movementOrder m := by
  simp only [InventoryMovementRow.precedes, movementOrder, Prod.Lex.toLex_lt_toLex,
    Bool.or_eq_true, Bool.and_eq_true, decide_eq_true_eq]

theorem findMovement_of_mem (hnd : (t.inventoryMovements.map (·.id)).Nodup)
    (h : m ∈ t.inventoryMovements) : t.findMovement m.id = some m := by
  rcases hfind : t.findMovement m.id with _ | found
  · have := List.find?_eq_none.1 hfind m h
    simp at this
  · have hid : found.id = m.id := by simpa using List.find?_some hfind
    rw [List.inj_on_of_nodup_map hnd (List.mem_of_find?_eq_some hfind) h hid]

theorem postedCost_depletion (hnd : (t.inventoryMovements.map (·.id)).Nodup)
    (hi : t.findItem item = some i) (hm : m ∈ depletionsOf t item) :
    postedCost t m.id = FactTables.movementBasis i (t.priorDepleted m) (absDecimal m.quantity) := by
  obtain ⟨hmem, hitem, hkind⟩ := mem_depletionsOf.1 hm
  have hmeasured : ¬ m.movementKind = .reversal := by
    rw [hkind]
    decide
  unfold postedCost FactTables.readInventoryMovement
  rw [findMovement_of_mem hnd hmem]
  simp only [Option.bind_eq_bind, Option.bind_some, hitem, hi, if_neg hmeasured]
  rfl

theorem priorDepleted_eq (hm : m ∈ depletionsOf t item) : t.priorDepleted m =
    Increments.before movementOrder (fun m => absDecimal m.quantity) (depletionsOf t item) m := by
  obtain ⟨-, hitem, -⟩ := mem_depletionsOf.1 hm
  unfold FactTables.priorDepleted Increments.before depletionsOf
  rw [List.filter_filter, hitem]
  have hsame : ∀ p : InventoryMovementRow, (p.inventoryItemId == item &&
      p.movementKind == .depletionSale && p.precedes m) =
      (decide (movementOrder p < movementOrder m) &&
        (p.inventoryItemId == item && p.movementKind == .depletionSale)) := by
    intro p
    rw [Bool.and_comm (decide _)]
    congr 1
    rw [Bool.eq_iff_iff, precedes_iff, decide_eq_true_eq]
  simp only [hsame]

theorem orders_nodup (hnd : (t.inventoryMovements.map (·.id)).Nodup) :
    ((depletionsOf t item).map movementOrder).Nodup := by
  have hids : ((depletionsOf t item).map (·.id)).Nodup :=
    hnd.sublist ((List.filter_sublist).map _)
  refine List.Nodup.of_map (fun key => (ofLex key).2) ?_
  rw [List.map_map]
  exact hids

theorem itemCost_eq (hnd : (t.inventoryMovements.map (·.id)).Nodup) (hi : t.findItem item = some i)
    :
    itemCost t item = proRataShare i.landedCostAmount (soldQuantity t item) i.quantity := by
  have hsum := Increments.sum_increments
    (fun sold => proRataShare i.landedCostAmount sold i.quantity) (@orders_nodup t item hnd)
    (q := fun m => absDecimal m.quantity)
  rw [proRataShare_zero_part, sub_zero] at hsum
  rw [soldQuantity, ← hsum, itemCost]
  refine congrArg List.sum (List.map_congr_left fun m hm => ?_)
  rw [postedCost_depletion hnd hi hm, priorDepleted_eq hm]
  rfl

theorem soldQuantity_nonneg : 0 ≤ soldQuantity t item := by
  refine List.sum_nonneg fun q hq => ?_
  obtain ⟨m, -, rfl⟩ := List.mem_map.1 hq
  exact abs_nonneg _

end Cost

/-!
## The cost of an item, depletion by depletion

In the order of their instants, each depletion relieves what the share of everything sold so far
gains by it. The share grows with what is sold and stays at the landed cost once the whole item is.
-/

section Telescope

variable (t : FactTables)

def depletionSequence (item : ItemId) : List InventoryMovementRow :=
  (depletionsOf t item).insertionSort fun a b => movementOrder a ≤ movementOrder b

def takenQuantity (movements : List InventoryMovementRow) : Money :=
  (movements.map fun m => absDecimal m.quantity).sum

def costRelieved (movements : List InventoryMovementRow) : Money :=
  (movements.map fun m => postedCost t m.id).sum

/-- No depletion relieves less than nothing, and the first ones together relieve the share of what
they take. -/
structure Telescopes (item : ItemId) (row : InventoryItemRow) : Prop where
  nonneg : ∀ m ∈ depletionSequence t item, 0 ≤ postedCost t m.id
  running : ∀ k, costRelieved t ((depletionSequence t item).take k) =
    proRataShare row.landedCostAmount
      (min (takenQuantity ((depletionSequence t item).take k)) row.quantity) row.quantity
  whole : row.quantity ≤ takenQuantity (depletionSequence t item) →
    costRelieved t (depletionSequence t item) = row.landedCostAmount

variable {t} {item : ItemId} {row : InventoryItemRow} {m : InventoryMovementRow}

theorem mem_depletionSequence : m ∈ depletionSequence t item ↔ m ∈ depletionsOf t item := by
  simp [depletionSequence]

theorem postedCost_sequence (hnd : (t.inventoryMovements.map (·.id)).Nodup)
    (hi : t.findItem item = some row) (hm : m ∈ depletionSequence t item) :
    let before := Increments.before movementOrder (fun m => absDecimal m.quantity)
      (depletionSequence t item) m
    postedCost t m.id = proRataShare row.landedCostAmount (before + absDecimal m.quantity)
      row.quantity - proRataShare row.landedCostAmount before row.quantity := by
  have hm' := mem_depletionSequence.1 hm
  have hperm : (depletionSequence t item).Perm (depletionsOf t item) :=
    List.perm_insertionSort _ _
  rw [postedCost_depletion hnd hi hm', priorDepleted_eq hm', Increments.before_perm hperm]
  rfl

theorem before_nonneg {movements : List InventoryMovementRow} :
    0 ≤ Increments.before movementOrder (fun m => absDecimal m.quantity) movements m := by
  refine List.sum_nonneg fun q hq => ?_
  obtain ⟨_, -, rfl⟩ := List.mem_map.1 hq
  exact abs_nonneg _

end Telescope

section Examples

def oversoldDollar : FactTables where
  __ := FactTables.empty
  inventoryItems := [{
    id := 1, itemCode := "INV-1", acquisitionId := none, economicEntityId := none
    locationId := none, originItemId := none, status := "depleted", quantity := 3 * moneyUnits
    quantityOnHand := -1 * moneyUnits, currency := "USD", acquisitionCostAmount := moneyUnits
    landedCostAmount := moneyUnits, costBasisLocked := true, saleMode := .unit }]
  inventoryMovements := [
    ⟨2, 1, .depletionSale, -2 * moneyUnits, none, none, none, "second", ⟨⟨2026, 3, 2⟩, 0⟩⟩,
    ⟨1, 1, .depletionSale, -2 * moneyUnits, none, none, none, "first", ⟨⟨2026, 3, 1⟩, 0⟩⟩]

end Examples

end Loxep

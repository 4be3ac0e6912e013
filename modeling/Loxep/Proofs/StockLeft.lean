import Loxep.Lib.ListSums
import Loxep.ManualSales

/-!
# When manual sales keep to the stock

A sale writes what its read of the listing leaves, so of two sales that read one quantity the later
hides the earlier, and what is sold beyond the quantity read is cut off at zero.
-/

namespace Loxep

namespace ManualSaleValue

variable {value : ManualSaleValue} {entities : List EntityId}

theorem amounts_eq_ok {amounts : SaleAmounts} : value.amounts = .ok amounts ↔
    value.unitPrice.scale ≤ 6 ∧ value.quantity.scale = 0
      ∧ amounts = ⟨value.unitPrice.rescale 6, value.unitPrice.rescale 6 * value.quantity.units⟩ := by
  unfold ManualSaleValue.amounts ScaledDecimal.multiplyDecimals ScaledDecimal.ofMoney
  simp only [Except.bind_eq_ok, Except.pure_eq_ok, ScaledDecimal.toMoney_eq_ok]
  constructor
  · rintro ⟨unitPrice, ⟨hprice, rfl⟩, lineSubtotal, ⟨hscale, rfl⟩, rfl⟩
    have hzero : value.quantity.scale = 0 := by omega
    refine ⟨hprice, hzero, ?_⟩
    simp [ScaledDecimal.rescale, hzero]
  · rintro ⟨hprice, hzero, rfl⟩
    refine ⟨_, ⟨hprice, rfl⟩, _, ⟨by omega, rfl⟩, ?_⟩
    simp [ScaledDecimal.rescale, hzero]

def Recordable (entities : List EntityId) (value : ManualSaleValue) : Prop :=
  value.amounts.toOption.any (·.fit (value.quantity.rescale 6)) = true ∧
    0 < value.quantity.units ∧ ∀ entity ∈ value.economicEntityId, entity ∈ entities

instance : Decidable (value.Recordable entities) := inferInstanceAs (Decidable (_ ∧ _ ∧ _))

theorem recordable_iff : value.Recordable entities ↔ ∃ amounts, value.amounts = .ok amounts ∧
    amounts.fit (value.quantity.rescale 6) = true ∧ 0 < value.quantity.units ∧
      ∀ entity ∈ value.economicEntityId, entity ∈ entities := by
  unfold Recordable
  rcases value.amounts with e | amounts <;> simp [Except.toOption]

theorem Recordable.scale (h : value.Recordable entities) : value.quantity.scale = 0 := by
  obtain ⟨amounts, hamounts, -, -⟩ := recordable_iff.1 h
  exact (amounts_eq_ok.1 hamounts).2.1

theorem Recordable.rescale (h : value.Recordable entities) :
    value.quantity.rescale 6 = value.quantity.units * moneyUnits := by
  simp [ScaledDecimal.rescale, h.scale, moneyUnits]

end ManualSaleValue

theorem remainingOf_eq {value : ManualSaleValue} {entities : List EntityId}
    (h : value.Recordable entities) (available : ℤ) :
    remainingOf available value.quantity =
      max 0 (available - value.quantity.units) * (moneyUnits : ℤ) := by
  rw [remainingOf, h.rescale]
  show (max 0 (available * 1000000 - value.quantity.units * 1000000) : ℤ) =
    max 0 (available - value.quantity.units) * 1000000
  omega

theorem integerOf_remainingOf {value : ManualSaleValue} {entities : List EntityId}
    (h : value.Recordable entities) (available : ℤ) :
    integerOf (remainingOf available value.quantity) = max 0 (available - value.quantity.units) := by
  obtain ⟨n, hn⟩ := Int.eq_ofNat_of_zero_le (le_max_left 0 (available - value.quantity.units))
  rw [integerOf, remainingOf_eq h, hn, ← Nat.cast_mul, Int.toNat_natCast,
    Rounding.halfUp_mul_self (by decide)]

theorem remainingOf_eq_zero {value : ManualSaleValue} {entities : List EntityId}
    (h : value.Recordable entities) {available : ℤ} :
    remainingOf available value.quantity = 0 ↔ available ≤ value.quantity.units := by
  rw [remainingOf_eq h]
  show max 0 (available - value.quantity.units) * 1000000 = 0 ↔ _
  omega

namespace ManualSaleTables

variable {s t : ManualSaleTables} {reading : SaleReading} {id : ChannelListingId}

def soldOf (s : ManualSaleTables) (id : ChannelListingId) : Money :=
  ((s.orderLines.filter (·.channelListingId == id)).map (·.quantity)).sum

theorem readSale_eq_ok {input : RecordManualSaleInput} (h : s.readSale input = .ok reading) :
    s.listingOf reading.listing.id = some reading.listing ∧ reading.listing.status ≠ .soldOut := by
  unfold readSale at h
  obtain ⟨value, -, h⟩ := Except.bind_eq_ok.1 h
  rcases hlisting : s.listingOf value.channelListingId with _ | listing
  · rw [hlisting] at h
    cases h
  · simp only [hlisting, Except.bind_eq_ok, Except.require_eq_ok] at h
    obtain ⟨-, -, -, hstatus, h⟩ := h
    split at h
    · cases h
    · obtain rfl := Except.pure_eq_ok.1 h
      have hid : listing.id = value.channelListingId := KeyedTable.get_key hlisting
      exact ⟨hid ▸ hlisting, hstatus.1⟩

variable {orderId : OrderId} {externalOrderId : String} {now : Timestamp}
variable {result : RecordManualSaleResult}

theorem writeSale_returns_iff : Except.returns (s.writeSale reading orderId externalOrderId now) =
    true ↔ reading.value.Recordable s.economicEntities := by
  unfold writeSale
  simp only [ManualSaleValue.recordable_iff, Except.returns_iff, Except.bind_eq_ok,
    Except.require_eq_ok, Except.pure_eq_ok]
  constructor
  · rintro ⟨_, amounts, hamounts, -, hfit, -, hpos, -, hknown, -⟩
    exact ⟨amounts, hamounts, hfit, hpos, hknown⟩
  · rintro ⟨amounts, hamounts, hfit, hpos, hknown⟩
    exact ⟨_, amounts, hamounts, (), hfit, (), hpos, (), hknown, rfl⟩

theorem not_recordable_of_writeSale {e : CommerceError}
    (h : s.writeSale reading orderId externalOrderId now = .error e) :
    ¬ reading.value.Recordable s.economicEntities := by
  intro hrecordable
  have hreturns : Except.returns (s.writeSale reading orderId externalOrderId now) = true :=
    writeSale_returns_iff.2 hrecordable
  rw [h] at hreturns
  cases hreturns

theorem writeSale_eq_ok (id : ChannelListingId)
    (h : s.writeSale reading orderId externalOrderId now = .ok (result, t)) :
    t.soldOf id = s.soldOf id +
        (if reading.listing.id = id then reading.value.quantity.units * moneyUnits else 0)
      ∧ t.listingOf id = if id = reading.listing.id
          then (s.listingOf id).map (reading.updateListing now) else s.listingOf id := by
  have hrecordable : reading.value.Recordable s.economicEntities :=
    writeSale_returns_iff.1 (Except.returns_iff.2 ⟨_, h⟩)
  unfold writeSale at h
  obtain ⟨amounts, -, h⟩ := Except.bind_eq_ok.1 h
  obtain ⟨-, -, h⟩ := Except.bind_eq_ok.1 h
  obtain ⟨-, -, h⟩ := Except.bind_eq_ok.1 h
  obtain ⟨-, -, h⟩ := Except.bind_eq_ok.1 h
  obtain ⟨-, rfl⟩ := Prod.mk.inj (Except.pure_eq_ok.1 h)
  constructor
  · by_cases hid : reading.listing.id = id
    · simp [soldOf, SaleReading.lineRow, hid, hrecordable.rescale]
    · simp [soldOf, SaleReading.lineRow, hid]
  · exact KeyedTable.get_set fun row hrow => hrow

end ManualSaleTables

theorem SaleReading.updateListing_of_known {reading : SaleReading} {entities : List EntityId}
    {r : ℤ} (hrecordable : reading.value.Recordable entities)
    (hstatus : reading.listing.status ≠ .soldOut)
    (hr : reading.listing.quantityAvailable = some r) (now : Timestamp) (row : ChannelListingRow) :
    (reading.updateListing now row).quantityAvailable =
        some (max 0 (r - reading.value.quantity.units))
      ∧ ((reading.updateListing now row).status = .soldOut
          ↔ max 0 (r - reading.value.quantity.units) = 0) := by
  have hremaining : reading.remaining = some (remainingOf r reading.value.quantity) := by
    rw [SaleReading.remaining, hr, Option.map_some]
  constructor
  · rw [SaleReading.updateListing, hremaining, Option.map_some, integerOf_remainingOf hrecordable]
  · show reading.listingStatus = _ ↔ _
    simp only [SaleReading.listingStatus, hremaining, Option.some_inj,
      remainingOf_eq_zero hrecordable]
    split_ifs with h
    · exact iff_of_true rfl (by omega)
    · exact iff_of_false hstatus (by omega)

theorem written_iff {left r quantity initial sold : ℤ} (hle : left ≤ r)
    (hbalance : left * moneyUnits = initial * moneyUnits - sold) :
    (sold + quantity * moneyUnits ≤ initial * moneyUnits
      ∧ max 0 (r - quantity) * moneyUnits = initial * moneyUnits - (sold + quantity * moneyUnits))
      ↔ left = r ∧ quantity ≤ r := by
  simp only [moneyUnits] at hbalance ⊢
  omega

/-- No more of the listing was sold than the quantity it had, and its quantity and status are what
that leaves of it. -/
def RespectsStock (start : ManualSaleTables) (id : ChannelListingId) (initial : ℤ) (s : SaleSystem)
    : Prop :=
  ∃ (row : ChannelListingRow) (left : ℤ), s.tables.listingOf id = some row
    ∧ row.quantityAvailable = some left
    ∧ s.tables.soldOf id - start.soldOf id ≤ initial * moneyUnits
    ∧ left * moneyUnits = initial * moneyUnits - (s.tables.soldOf id - start.soldOf id)
    ∧ (row.status = .soldOut ↔ left = 0)

theorem RespectsStock.left_eq {start : ManualSaleTables} {id : ChannelListingId} {initial : ℤ}
    {s : SaleSystem} (h : RespectsStock start id initial s) {row : ChannelListingRow} {left : ℤ}
    (hrow : s.tables.listingOf id = some row) (hleft : row.quantityAvailable = some left) :
    left * moneyUnits = initial * moneyUnits - (s.tables.soldOf id - start.soldOf id) := by
  obtain ⟨row', left', hrow', hleft', -, hbalance, -⟩ := h
  obtain rfl : row' = row := Option.some.inj (hrow'.symm.trans hrow)
  obtain rfl : left' = left := Option.some.inj (hleft'.symm.trans hleft)
  exact hbalance

def SaleReading.SellsWhatIsLeft (reading : SaleReading) (id : ChannelListingId)
    (tables : ManualSaleTables) : Prop :=
  reading.listing.id = id → reading.value.Recordable tables.economicEntities →
    (tables.listingOf id).bind (·.quantityAvailable) = reading.listing.quantityAvailable
      ∧ ∀ r ∈ reading.listing.quantityAvailable, reading.value.quantity.units ≤ r

instance {reading : SaleReading} {id : ChannelListingId} {tables : ManualSaleTables} :
    Decidable (reading.SellsWhatIsLeft id tables) :=
  inferInstanceAs (Decidable (_ → _ → _ ∧ _))

namespace SaleSystem

def SellsWhatIsLeft (id : ChannelListingId) (s : SaleSystem) : SaleAction → Prop
  | .commit session _ _ _ =>
    ∀ reading ∈ s.reading session, reading.SellsWhatIsLeft id s.tables
  | .read _ _ => True
  | .abort _ => True

instance {id : ChannelListingId} (s : SaleSystem) :
    ∀ action : SaleAction, Decidable (SellsWhatIsLeft id s action)
  | .commit session _ _ _ =>
    inferInstanceAs (Decidable (∀ reading ∈ s.reading session, _))
  | .read _ _ => .isTrue trivial
  | .abort _ => .isTrue trivial

def ReadInTime (id : ChannelListingId) (s : SaleSystem) : Prop :=
  ∀ session reading, s.reading session = some reading → reading.listing.id = id →
    reading.listing.status ≠ .soldOut ∧ ∀ row left, s.tables.listingOf id = some row →
      row.quantityAvailable = some left →
        ∃ r, reading.listing.quantityAvailable = some r ∧ left ≤ r

variable {start : ManualSaleTables} {id : ChannelListingId} {initial : ℤ} {s : SaleSystem}
variable {session : SaleSessionId} {reading : SaleReading} {tables : ManualSaleTables}
variable {orderId : OrderId} {externalOrderId : String} {now : Timestamp}
variable {result : RecordManualSaleResult}

theorem ReadInTime.setReading_none (h : ReadInTime id s) :
    ReadInTime id (s.setReading session none) := by
  intro other reading hreading
  simp only [setReading] at hreading
  split_ifs at hreading
  exact h other reading hreading

theorem respects_writeSale_iff (hs : ReadInTime id s) (hp : RespectsStock start id initial s)
    (hreading : s.reading session = some reading)
    (hwrite : s.tables.writeSale reading orderId externalOrderId now = .ok (result, tables)) :
    RespectsStock start id initial { s with tables } ↔ reading.SellsWhatIsLeft id s.tables := by
  obtain ⟨row, left, hrow, hleft, hwithin, hbalance, hsoldOut⟩ := hp
  obtain ⟨hsold, hlisting⟩ := ManualSaleTables.writeSale_eq_ok id hwrite
  have hrecordable : reading.value.Recordable s.tables.economicEntities :=
    ManualSaleTables.writeSale_returns_iff.1 (Except.returns_iff.2 ⟨_, hwrite⟩)
  by_cases hid : reading.listing.id = id
  · obtain ⟨hstatus, hread⟩ := hs session reading hreading hid
    obtain ⟨r, hr, hle⟩ := hread row left hrow hleft
    obtain ⟨hquantity, hsoldOut'⟩ :=
      SaleReading.updateListing_of_known hrecordable hstatus hr now row
    rw [if_pos hid.symm, hrow, Option.map_some] at hlisting
    rw [if_pos hid] at hsold
    have hguard : reading.SellsWhatIsLeft id s.tables
        ↔ left = r ∧ reading.value.quantity.units ≤ r := by
      simp [SaleReading.SellsWhatIsLeft, hid, hrecordable, hrow, hleft, hr]
    rw [hguard]
    have hsold' : tables.soldOf id - start.soldOf id =
        s.tables.soldOf id - start.soldOf id + reading.value.quantity.units * moneyUnits := by
      rw [hsold]
      ring
    rw [← written_iff hle hbalance, ← hsold']
    constructor
    · rintro ⟨row', left', hrow', hleft', hwithin', hbalance', -⟩
      obtain rfl : reading.updateListing now row = row' :=
        Option.some.inj (hlisting.symm.trans hrow')
      obtain rfl : max 0 (r - reading.value.quantity.units) = left' :=
        Option.some.inj (hquantity.symm.trans hleft')
      exact ⟨hwithin', hbalance'⟩
    · rintro ⟨hwithin', hbalance'⟩
      exact ⟨_, _, hlisting, hquantity, hwithin', hbalance', hsoldOut'⟩
  · rw [if_neg (Ne.symm hid)] at hlisting
    rw [if_neg hid, add_zero] at hsold
    refine iff_of_true ⟨row, left, hlisting.trans hrow, hleft, ?_, ?_, hsoldOut⟩
      fun hid' => absurd hid' hid
    · rw [hsold]
      exact hwithin
    · rw [hsold]
      exact hbalance

theorem ReadInTime.setReading (h : ReadInTime id s) (hlisting : ∀ row left,
      reading.listing.id = id → s.tables.listingOf id = some row →
        row.quantityAvailable = some left → reading.listing = row)
    (hstatus : reading.listing.status ≠ .soldOut) :
    ReadInTime id (s.setReading session (some reading)) := by
  intro other otherReading hother hid
  simp only [SaleSystem.setReading] at hother
  split_ifs at hother
  · obtain rfl := Option.some.inj hother
    refine ⟨hstatus, fun row left hrow hleft => ⟨left, ?_, le_rfl⟩⟩
    rw [hlisting row left hid hrow hleft]
    exact hleft
  · exact h other otherReading hother hid

theorem ReadInTime.writeSale (hs : ReadInTime id s) (hp : RespectsStock start id initial s)
    (hreading : s.reading session = some reading)
    (hwrite : s.tables.writeSale reading orderId externalOrderId now = .ok (result, tables))
    (hguard : reading.SellsWhatIsLeft id s.tables) : ReadInTime id { s with tables } := by
  intro other otherReading hother hid
  obtain ⟨hstatus, hread⟩ := hs other otherReading hother hid
  refine ⟨hstatus, fun row' left' hrow' hleft' => ?_⟩
  have hafter := ((respects_writeSale_iff hs hp hreading hwrite).2 hguard).left_eq hrow' hleft'
  have ⟨row, left, hrow, hleft, _⟩ := hp
  have hbefore := hp.left_eq hrow hleft
  obtain ⟨r, hr, hle⟩ := hread row left hrow hleft
  refine ⟨r, hr, le_trans ?_ hle⟩
  have hsold : s.tables.soldOf id ≤ tables.soldOf id := by
    rw [(ManualSaleTables.writeSale_eq_ok id hwrite).1]
    have hpos := (ManualSaleTables.writeSale_returns_iff.1 (Except.returns_iff.2 ⟨_, hwrite⟩)).2.1
    have hunits : (0 : ℤ) ≤ reading.value.quantity.units * moneyUnits := by positivity
    split_ifs <;> linarith
  have hpos : (0 : ℤ) < moneyUnits := by decide
  refine le_of_mul_le_mul_right ?_ hpos
  rw [hafter, hbefore]
  linarith

theorem respects_step_iff (hs : ReadInTime id s) (hp : RespectsStock start id initial s)
    (action : SaleAction) :
    RespectsStock start id initial (step s action) ↔ SellsWhatIsLeft id s action := by
  rcases action with ⟨session, input⟩ | ⟨session, orderId, externalOrderId, now⟩ | session
  · refine iff_of_true ?_ trivial
    simp only [step]
    split <;> exact hp
  · rcases hreading : s.reading session with _ | reading
    · simp only [step, SellsWhatIsLeft, hreading]
      exact iff_of_true hp (by simp)
    · have hsells : SellsWhatIsLeft id s (.commit session orderId externalOrderId now)
          ↔ reading.SellsWhatIsLeft id s.tables := by simp [SellsWhatIsLeft, hreading]
      rw [hsells]
      rcases hwrite : s.tables.writeSale reading orderId externalOrderId now with e | ⟨result, tables⟩
      · simp only [step, hreading, hwrite]
        exact iff_of_true hp fun _ hrecordable =>
          absurd hrecordable (ManualSaleTables.not_recordable_of_writeSale hwrite)
      · simp only [step, hreading, hwrite]
        exact respects_writeSale_iff hs hp hreading hwrite
  · exact iff_of_true hp trivial

theorem readInTime_step (hs : ReadInTime id s) (hp : RespectsStock start id initial s)
    {action : SaleAction} (hguard : SellsWhatIsLeft id s action) : ReadInTime id (step s action) := by
  rcases action with ⟨session, input⟩ | ⟨session, orderId, externalOrderId, now⟩ | session
  · rcases hread : s.tables.readSale input with e | reading
    · simp only [step, hread]
      cases s.reading session <;> exact hs
    · rcases hreading : s.reading session with _ | before
      · simp only [step, hread, hreading]
        obtain ⟨hlisting, hstatus⟩ := ManualSaleTables.readSale_eq_ok hread
        refine hs.setReading (fun row left hid hrow _ => ?_) hstatus
        rw [hid] at hlisting
        exact Option.some.inj (hlisting.symm.trans hrow)
      · simp only [step, hread, hreading]
        exact hs
  · rcases hreading : s.reading session with _ | reading
    · simp only [step, hreading]
      exact hs
    · rcases hwrite : s.tables.writeSale reading orderId externalOrderId now with
        e | ⟨result, tables⟩
      · simp only [step, hreading, hwrite]
        exact hs.setReading_none
      · simp only [step, hreading, hwrite]
        exact (hs.writeSale hp hreading hwrite (hguard reading hreading)).setReading_none
  · exact hs.setReading_none

/-- A listing's lines, its quantity and its status agree along a run exactly when they do at its
start and every sale finds the quantity it has read and takes no more. -/
theorem stock_respected_iff {listing : ChannelListingRow}
    (hlisting : start.listingOf id = some listing)
    (hknown : listing.quantityAvailable = some initial) (actions : List SaleAction) :
    Runs.Along step (RespectsStock start id initial) { tables := start } actions
      ↔ (0 ≤ initial ∧ (listing.status = .soldOut ↔ initial = 0))
        ∧ Runs.Meets step (SellsWhatIsLeft id) { tables := start } actions := by
  have hinitial : RespectsStock start id initial { tables := start }
      ↔ 0 ≤ initial ∧ (listing.status = .soldOut ↔ initial = 0) := by
    unfold RespectsStock
    constructor
    · rintro ⟨row, left, hrow, hleft, hwithin, -, hsoldOut⟩
      obtain rfl : listing = row := Option.some.inj (hlisting.symm.trans hrow)
      obtain rfl : initial = left := Option.some.inj (hknown.symm.trans hleft)
      rw [sub_self] at hwithin
      exact ⟨nonneg_of_mul_nonneg_left hwithin (by decide), hsoldOut⟩
    · rintro ⟨hnonneg, hsoldOut⟩
      refine ⟨listing, initial, hlisting, hknown, ?_, ?_, hsoldOut⟩
      · rw [sub_self]
        exact mul_nonneg hnonneg (by decide)
      · rw [sub_self, sub_zero]
  have hreads : ReadInTime id { tables := start } := fun _ _ h => nomatch h
  have hiff : RespectsStock start id initial { tables := start } →
      (Runs.Along step (RespectsStock start id initial) { tables := start } actions
        ↔ Runs.Meets step (SellsWhatIsLeft id) { tables := start } actions) := by
    intro hp
    exact Runs.along_iff_meets_of_guarded (fun _ _ hs hp => readInTime_step hs hp)
      (fun _ action hs hp => respects_step_iff hs hp action) hreads hp
  constructor
  · intro h
    exact ⟨hinitial.1 h.head, (hiff h.head).1 h⟩
  · rintro ⟨hstart, hmeets⟩
    exact (hiff (hinitial.2 hstart)).2 hmeets

section Examples

def fivePieces : ChannelListingRow where
  id := 1
  listingCode := "LST-2026-0001"
  catalogItemId := 1
  provider := MANUAL_PROVIDER
  channel := "craigslist"
  status := .active
  listingTitle := none
  currency := some "USD"
  quantityAvailable := some 5
  endedAt := none

def shop : ManualSaleTables where
  channelListings := [fivePieces]
  catalogItems := [⟨1, "ITM-1", "Widget"⟩]

def sells (quantity : String) : RecordManualSaleInput where
  channelListingId := 1
  quantity := quantity
  unitPrice := "45.00"

def shopClock (micros : ℕ) : Timestamp := ⟨⟨2026, 9, 30⟩, micros⟩

def soldAtOnce : List SaleAction :=
  [.read 0 (sells "3"), .read 1 (sells "3"), .commit 0 1 "manual:a" (shopClock 1),
    .commit 1 2 "manual:b" (shopClock 2)]

def soldInTurn : List SaleAction :=
  [.read 0 (sells "3"), .commit 0 1 "manual:a" (shopClock 1), .read 1 (sells "2"),
    .commit 1 2 "manual:b" (shopClock 2)]

theorem stock_oversold : ¬ ∀ (start : ManualSaleTables) (id : ChannelListingId)
    (listing : ChannelListingRow) (initial : ℤ) (actions : List SaleAction),
    start.listingOf id = some listing → listing.provider = MANUAL_PROVIDER →
    listing.quantityAvailable = some initial → 0 ≤ initial →
    (listing.status = .soldOut ↔ initial = 0) →
    Runs.Along step (RespectsStock start id initial) { tables := start } actions := by
  intro hall
  have hrun := (hall shop 1 fivePieces 5 soldAtOnce (by decide) rfl rfl (by decide) (by decide)).last
  obtain ⟨-, -, -, -, hwithin, -⟩ := hrun
  revert hwithin
  decide +kernel

theorem stock_respected_in_turn :
    Runs.Along step (RespectsStock shop 1 5) { tables := shop } soldInTurn := by
  have hknown : fivePieces.quantityAvailable = some 5 := rfl
  exact (stock_respected_iff (by decide) hknown soldInTurn).2
    ⟨⟨by decide, by decide⟩, by decide +kernel⟩

end Examples

end SaleSystem

end Loxep

import Loxep.Proofs.OrderMatching

/-!
# An order's rows are those of the fact

What the stored rows say is read with the numbers of the lines in the place of the rows' ids, and
compared with what the fact says. A shipment that names a line again keeps the line's first
quantity alone.
-/

namespace Loxep

def lineNumberOf (lines : List StoredOrderLine) (id : OrderLineId) : Option ℤ :=
  (lines.find? (·.id == id)).map (·.lineNumber)

def StoredOrderLine.fact (row : StoredOrderLine) : CommerceOrderLineFact :=
  ⟨row.lineNumber, row.externalLineId, row.values⟩

section Facts

variable (lines : List StoredOrderLine)

def StoredOrderFee.fact (fee : StoredOrderFee) : CommerceOrderFeeFact :=
  ⟨fee.orderLineId.bind (lineNumberOf lines), fee.values⟩

def StoredRefundLine.fact (line : StoredRefundLine) : CommerceOrderRefundLineFact :=
  ⟨line.orderLineId.bind (lineNumberOf lines), line.quantity, line.amount⟩

def StoredOrderRefund.fact (refund : StoredOrderRefund) : CommerceOrderRefundFact :=
  ⟨refund.values, refund.lines.map (StoredRefundLine.fact lines)⟩

def StoredOrderFulfillment.shippedLines (fulfillment : StoredOrderFulfillment) :
    List (Option ℤ × Money) :=
  fulfillment.lines.map fun line => (lineNumberOf lines line.orderLineId, line.quantity)

end Facts

def quantityOf {N : Type} [DecidableEq N] (quantities : List (N × Money)) (n : N) : Money :=
  ((quantities.filter fun said => decide (said.1 = n)).map (·.2)).sum

def CommerceOrderFulfillmentFact.quantities (fulfillment : CommerceOrderFulfillmentFact) :
    List (Option ℤ × Money) :=
  fulfillment.lines.map fun line => (some line.lineNumber, line.quantity)

def CommerceOrderFeeFact.stored (fee : CommerceOrderFeeFact) : CommerceOrderFeeFact :=
  { fee with values := fee.values.stored }

def CommerceOrderRefundFact.stored (refund : CommerceOrderRefundFact) :
    CommerceOrderRefundFact :=
  { refund with values := refund.values.stored }

/-- The rows are exactly those of the fact, every quantity counted. -/
structure OrderChildren.Records (children : OrderChildren) (fact : CommerceOrderFact) : Prop where
  lines : (children.lines.map StoredOrderLine.fact).Perm fact.lines
  fees : children.fees.map (StoredOrderFee.fact children.lines) = fact.fees.map (·.stored)
  refunds : children.refunds.map (StoredOrderRefund.fact children.lines) =
    fact.refunds.map (·.stored)
  fulfillments : children.fulfillments.map (·.values) = fact.fulfillments.map (·.values.stored)
  quantities : children.fulfillments.map
      (fun fulfillment => quantityOf (fulfillment.shippedLines children.lines)) =
    fact.fulfillments.map fun fulfillment => quantityOf fulfillment.quantities

/-- The rows of two children say the same, and the lines are the same rows. -/
structure OrderChildren.Same (children children' : OrderChildren) : Prop where
  lines : children.lines.Perm children'.lines
  fees : children.fees.map (StoredOrderFee.fact children.lines) =
    children'.fees.map (StoredOrderFee.fact children'.lines)
  refunds : children.refunds.map (StoredOrderRefund.fact children.lines) =
    children'.refunds.map (StoredOrderRefund.fact children'.lines)
  fulfillments : children.fulfillments.map
      (fun fulfillment => (fulfillment.values, fulfillment.shippedLines children.lines)) =
    children'.fulfillments.map
      fun fulfillment => (fulfillment.values, fulfillment.shippedLines children'.lines)

def OrderChildren.KeepsIds (existing after : OrderChildren) : Prop :=
  ∀ old ∈ existing.lines, old.externalLineId.isSome → ∀ row ∈ after.lines,
    row.externalLineId = old.externalLineId → row.id = old.id

structure CommerceOrderFact.Storable (fact : CommerceOrderFact) : Prop where
  parsed : fact.issues = []
  fits : fact.fits = true
  provider : fact.provider ≠ "manual"
  lines : LinesStorable fact.lines
  fee_ids : (fact.fees.filterMap (·.values.externalFeeId)).Nodup
  fee_lines : ∀ fee ∈ fact.fees, ∀ n ∈ fee.lineNumber, n ∈ fact.lines.map (·.lineNumber)
  refund_ids : (fact.refunds.filterMap (·.values.externalRefundId)).Nodup
  refund_lines : ∀ refund ∈ fact.refunds, ∀ line ∈ refund.lines, ∀ n ∈ line.lineNumber,
    n ∈ fact.lines.map (·.lineNumber)
  fulfillment_ids : (fact.fulfillments.filterMap (·.values.externalFulfillmentId)).Nodup
  fulfillment_lines : ∀ fulfillment ∈ fact.fulfillments, ∀ line ∈ fulfillment.lines,
    line.lineNumber ∈ fact.lines.map (·.lineNumber)
  shipped_quantities : ∀ fulfillment ∈ fact.fulfillments, ∀ line ∈ fulfillment.lines,
    0 < line.quantity

/-- No row that is to be deleted is referred to. -/
structure RowsFree (references : InboundReferences) (existing : OrderChildren)
    (fact : CommerceOrderFact) : Prop where
  lines : OrphansFree references.lines existing.lines fact.lines
  fees : ∀ fee ∈ existing.fees, ∀ reference ∈ references.fees, reference.id ≠ fee.id
  fulfillments : ∀ fulfillment ∈ existing.fulfillments, ∀ reference ∈ references.fulfillments,
    reference.id ≠ fulfillment.id

variable {α β : Type}

theorem insertEach_ok {γ : Type} {insert : List β → α → CommerceResult β} {reads : β → γ}
    {facts : List α} {said : α → γ}
    (h : ∀ done fact rest, facts = done ++ fact :: rest → ∀ stored : List β,
      stored.map reads = done.map said → ∃ row, insert stored fact = .ok row ∧ reads row = said fact) :
    ∃ rows, insertEach insert [] facts = .ok rows ∧ rows.map reads = facts.map said := by
  have run : ∀ rest done stored, facts = done ++ rest → stored.map reads = done.map said →
      ∃ rows, insertEach insert stored rest = .ok rows ∧ rows.map reads = facts.map said := by
    intro rest
    induction rest with
    | nil =>
      intro done stored hfacts hstored
      exact ⟨stored, rfl, by rw [hstored, hfacts, List.append_nil]⟩
    | cons fact rest ih =>
      intro done stored hfacts hstored
      obtain ⟨row, hrow, hreads⟩ := h done fact rest hfacts stored hstored
      obtain ⟨rows, hrows, hsame⟩ := ih (done ++ [fact]) (stored ++ [row])
        (by rw [hfacts, List.append_assoc, List.singleton_append])
        (by rw [List.map_append, List.map_append, hstored, List.map_singleton, hreads,
          List.map_singleton])
      refine ⟨rows, ?_, hsame⟩
      rw [insertEach, hrow]
      exact hrows
  exact run facts [] [] rfl rfl

theorem requireNewId_ok {facts done rest : List α} {fact : α} {stored : List β}
    {idOf : α → Option String} {idOf' : β → Option String} (constraint : String)
    (hids : (facts.filterMap idOf).Nodup) (hfacts : facts = done ++ fact :: rest)
    (hstored : stored.map idOf' = done.map idOf) :
    requireNewId (idOf fact) (stored.map idOf') constraint = .ok () := by
  refine Except.require_of ?_
  rcases hid : idOf fact with _ | id
  · exact .inl rfl
  · refine .inr fun hmem => ?_
    rw [hstored, List.mem_map] at hmem
    obtain ⟨other, hother, hsame⟩ := hmem
    rw [hfacts, List.filterMap_append, List.nodup_append] at hids
    have hfirst : id ∈ done.filterMap idOf := List.mem_filterMap.2 ⟨other, hother, hsame⟩
    have hsecond : id ∈ (fact :: rest).filterMap idOf :=
      List.mem_filterMap.2 ⟨fact, List.mem_cons_self, hid⟩
    exact hids.2.2 id hfirst id hsecond rfl

def onceEach (seen : List ℤ) :
    List CommerceOrderFulfillmentLineFact → List CommerceOrderFulfillmentLineFact
  | [] => []
  | line :: rest =>
    if line.lineNumber ∈ seen then onceEach seen rest
    else line :: onceEach (line.lineNumber :: seen) rest

section Once

variable {seen : List ℤ} {shipped : List CommerceOrderFulfillmentLineFact}
  {line : CommerceOrderFulfillmentLineFact}

theorem mem_onceEach (h : line ∈ onceEach seen shipped) :
    line ∈ shipped ∧ line.lineNumber ∉ seen := by
  induction shipped generalizing seen with
  | nil => cases h
  | cons first rest ih =>
    rw [onceEach] at h
    split_ifs at h with hseen
    · exact ⟨List.mem_cons_of_mem _ (ih h).1, (ih h).2⟩
    · rcases List.mem_cons.1 h with rfl | h
      · exact ⟨List.mem_cons_self, hseen⟩
      · obtain ⟨hmem, hnot⟩ := ih h
        exact ⟨List.mem_cons_of_mem _ hmem, fun hs => hnot (List.mem_cons_of_mem _ hs)⟩

theorem onceEach_nodup : ((onceEach seen shipped).map (·.lineNumber)).Nodup := by
  induction shipped generalizing seen with
  | nil => exact List.nodup_nil
  | cons first rest ih =>
    rw [onceEach]
    split_ifs with hseen
    · exact ih
    · rw [List.map_cons, List.nodup_cons]
      refine ⟨fun hmem => ?_, ih⟩
      obtain ⟨line, hline, heq⟩ := List.mem_map.1 hmem
      exact (mem_onceEach hline).2 (heq ▸ List.mem_cons_self)

def shippedOf (shipped : List CommerceOrderFulfillmentLineFact) (n : ℤ) : Money :=
  ((shipped.filter (·.lineNumber == n)).map (·.quantity)).sum

variable {n : ℤ}

theorem shippedOf_cons : shippedOf (line :: shipped) n =
    (if line.lineNumber = n then line.quantity else 0) + shippedOf shipped n := by
  unfold shippedOf
  by_cases h : line.lineNumber = n <;> simp [h]

theorem shippedOf_eq_zero (h : n ∉ shipped.map (·.lineNumber)) :
    shippedOf shipped n = 0 := by
  have hnone : shipped.filter (·.lineNumber == n) = [] := by
    rw [List.filter_eq_nil_iff]
    intro line hline heq
    exact h (List.mem_map.2 ⟨line, hline, beq_iff_eq.1 heq⟩)
  rw [shippedOf, hnone]
  rfl

theorem shippedOf_pos (hpos : ∀ line ∈ shipped, 0 < line.quantity)
    (h : n ∈ shipped.map (·.lineNumber)) : 0 < shippedOf shipped n := by
  induction shipped with
  | nil => cases h
  | cons first rest ih =>
    have hrest : ∀ line ∈ rest, 0 < line.quantity := fun line hline =>
      hpos line (List.mem_cons_of_mem _ hline)
    have hfirst := hpos first List.mem_cons_self
    rw [shippedOf_cons]
    by_cases hmem : n ∈ rest.map (·.lineNumber)
    · have hsum := ih hrest hmem
      split_ifs
      · exact add_pos hfirst hsum
      · rw [zero_add]
        exact hsum
    · have hsame : first.lineNumber = n := by
        rcases List.mem_cons.1 h with heq | h
        · exact heq.symm
        · exact absurd h hmem
      rw [if_pos hsame, shippedOf_eq_zero hmem, add_zero]
      exact hfirst

theorem filter_unseen_cons (hnot : n ∉ shipped.map (·.lineNumber)) :
    (shipped.filter fun line => decide (line.lineNumber ∉ seen)) =
      shipped.filter fun line => decide (line.lineNumber ∉ n :: seen) := by
  refine List.filter_congr fun line hline => ?_
  have hne : line.lineNumber ≠ n := fun heq => hnot (heq ▸ List.mem_map_of_mem hline)
  simp [hne]

theorem onceEach_quantities_iff (hpos : ∀ line ∈ shipped, 0 < line.quantity) :
    (∀ n ∉ seen, shippedOf (onceEach seen shipped) n = shippedOf shipped n) ↔
      ((shipped.filter fun line => decide (line.lineNumber ∉ seen)).map (·.lineNumber)).Nodup := by
  induction shipped generalizing seen with
  | nil => simp [onceEach]
  | cons first rest ih =>
    have hrest : ∀ line ∈ rest, 0 < line.quantity := fun line hline =>
      hpos line (List.mem_cons_of_mem _ hline)
    rw [onceEach]
    by_cases hseen : first.lineNumber ∈ seen
    · rw [if_pos hseen, List.filter_cons_of_neg (by simpa using hseen), ← ih hrest]
      refine forall_congr' fun n => imp_congr_right fun hn => ?_
      have hne : first.lineNumber ≠ n := fun heq => hn (heq ▸ hseen)
      rw [shippedOf_cons, if_neg hne, zero_add]
    · rw [if_neg hseen, List.filter_cons_of_pos (by simpa using hseen), List.map_cons,
        List.nodup_cons]
      have hfirst : shippedOf (onceEach (first.lineNumber :: seen) rest) first.lineNumber = 0 := by
        refine shippedOf_eq_zero fun hmem => ?_
        obtain ⟨line, hline, heq⟩ := List.mem_map.1 hmem
        exact (mem_onceEach hline).2 (heq ▸ List.mem_cons_self)
      have hlast : first.lineNumber ∉ (rest.filter fun line =>
          decide (line.lineNumber ∉ seen)).map (·.lineNumber) ↔
            first.lineNumber ∉ rest.map (·.lineNumber) := by
        refine not_congr ⟨fun h => ?_, fun h => ?_⟩
        · obtain ⟨line, hline, heq⟩ := List.mem_map.1 h
          exact List.mem_map.2 ⟨line, (List.mem_filter.1 hline).1, heq⟩
        · obtain ⟨line, hline, heq⟩ := List.mem_map.1 h
          exact List.mem_map.2 ⟨line, List.mem_filter.2 ⟨hline, by simpa [heq] using hseen⟩, heq⟩
      constructor
      · intro h
        have hown := h _ hseen
        rw [shippedOf_cons, shippedOf_cons, if_pos rfl, hfirst] at hown
        have hnot : first.lineNumber ∉ rest.map (·.lineNumber) := by
          intro hmem
          have hmore := shippedOf_pos hrest hmem
          exact hmore.ne (add_left_cancel hown)
        refine ⟨hlast.2 hnot, ?_⟩
        rw [filter_unseen_cons hnot, ← ih hrest]
        intro n hn
        rw [List.mem_cons, not_or] at hn
        have hother := h n hn.2
        rw [shippedOf_cons, shippedOf_cons, if_neg (Ne.symm hn.1), zero_add, zero_add] at hother
        exact hother
      · rintro ⟨hnot, hnodup⟩ n hn
        rw [hlast] at hnot
        rw [shippedOf_cons, shippedOf_cons]
        by_cases hsame : first.lineNumber = n
        · rw [← hsame, hfirst, shippedOf_eq_zero hnot]
        · rw [filter_unseen_cons hnot, ← ih hrest] at hnodup
          rw [hnodup n (by simp [Ne.symm hsame, hn])]

end Once

theorem insertEach_forall {insert : List β → α → CommerceResult β} {P : β → Prop}
    (h : ∀ stored fact row, insert stored fact = .ok row → P row) {stored rows : List β}
    (hstored : ∀ row ∈ stored, P row) : ∀ {facts : List α},
      insertEach insert stored facts = .ok rows → ∀ row ∈ rows, P row
  | [], hrows => by
    cases hrows
    exact hstored
  | fact :: rest, hrows => by
    rw [insertEach, Except.bind_eq_ok] at hrows
    obtain ⟨row, hrow, hrows⟩ := hrows
    refine insertEach_forall h (fun row' hmem => ?_) hrows
    rcases List.mem_append.1 hmem with hmem | hmem
    · exact hstored row' hmem
    · rw [List.mem_singleton.1 hmem]
      exact h stored fact row hrow

section Attachments

variable {existing : List StoredOrderLine} {start : ℕ}
  {lines : List CommerceOrderLineFact} {result : LineRewrite}

theorem LinesWritten.resolve (h : LinesWritten existing start lines result) {n : ℤ}
    (hn : n ∈ lines.map (·.lineNumber)) :
    ∃ id, result.lineIdByNumber.at n = some id ∧ lineNumberOf result.rows id = some n := by
  obtain ⟨line, hline, rfl⟩ := List.mem_map.1 hn
  obtain ⟨id, hat, -⟩ := h.assigned line hline
  refine ⟨id, hat, ?_⟩
  have hfound := (find?_key_eq_some_iff (k := id) h.ids_nodup).2 ⟨h.mem_of_at hline hat, rfl⟩
  rw [lineNumberOf, hfound]
  rfl

theorem resolveLineId_ok (h : LinesWritten existing start lines result) {lineNumber : Option ℤ}
    (hn : ∀ n ∈ lineNumber, n ∈ lines.map (·.lineNumber)) :
    ∃ id, resolveLineId result.lineIdByNumber lineNumber = .ok id
      ∧ id.bind (lineNumberOf result.rows) = lineNumber := by
  rcases lineNumber with _ | n
  · exact ⟨none, rfl, rfl⟩
  · obtain ⟨id, hat, hnumber⟩ := h.resolve (hn n rfl)
    refine ⟨some id, ?_, hnumber⟩
    rw [resolveLineId, hat]

theorem insertFees_ok (nextRowId : ℕ) (h : LinesWritten existing start lines result)
    {fees : List CommerceOrderFeeFact} (hids : (fees.filterMap (·.values.externalFeeId)).Nodup)
    (hn : ∀ fee ∈ fees, ∀ n ∈ fee.lineNumber, n ∈ lines.map (·.lineNumber)) :
    ∃ rows, insertEach (insertFee result.lineIdByNumber nextRowId) [] fees = .ok rows
      ∧ rows.map (StoredOrderFee.fact result.rows) = fees.map (·.stored) := by
  refine insertEach_ok fun done fee rest hfees stored hstored => ?_
  obtain ⟨id, hid, hnumber⟩ := resolveLineId_ok h (hn fee (hfees ▸ by simp))
  have hstoredIds : stored.map (·.values.externalFeeId) = done.map (·.values.externalFeeId) := by
    have hmap := congrArg (List.map fun fee : CommerceOrderFeeFact => fee.values.externalFeeId)
      hstored
    rw [List.map_map, List.map_map] at hmap
    exact hmap
  have hnew := requireNewId_ok "order_fees_order_id_external_fee_id_uq" hids hfees hstoredIds
  refine ⟨⟨nextRowId + stored.length, id, fee.values.stored⟩, ?_, ?_⟩
  · rw [insertFee, hid]
    simp only [bind, Except.bind, hnew]
    rfl
  · rw [StoredOrderFee.fact, CommerceOrderFeeFact.stored, hnumber]

theorem insertRefundLines_ok (h : LinesWritten existing start lines result)
    {touched : List CommerceOrderRefundLineFact}
    (hn : ∀ line ∈ touched, ∀ n ∈ line.lineNumber, n ∈ lines.map (·.lineNumber)) :
    ∃ rows, insertEach (insertRefundLine result.lineIdByNumber) [] touched = .ok rows
      ∧ rows.map (StoredRefundLine.fact result.rows) = touched.map id := by
  refine insertEach_ok fun done line rest htouched stored _ => ?_
  obtain ⟨id, hid, hnumber⟩ := resolveLineId_ok h (hn line (htouched ▸ by simp))
  refine ⟨⟨id, line.quantity, line.amount⟩, ?_, ?_⟩
  · rw [insertRefundLine, hid]
    rfl
  · rw [StoredRefundLine.fact, hnumber]
    rfl

theorem insertRefunds_ok (h : LinesWritten existing start lines result)
    {refunds : List CommerceOrderRefundFact}
    (hids : (refunds.filterMap (·.values.externalRefundId)).Nodup)
    (hn : ∀ refund ∈ refunds, ∀ line ∈ refund.lines, ∀ n ∈ line.lineNumber,
      n ∈ lines.map (·.lineNumber)) :
    ∃ rows, insertEach (insertRefund result.lineIdByNumber) [] refunds = .ok rows
      ∧ rows.map (StoredOrderRefund.fact result.rows) = refunds.map (·.stored) := by
  refine insertEach_ok fun done refund rest hrefunds stored hstored => ?_
  have hmem : refund ∈ refunds := hrefunds ▸ by simp
  obtain ⟨touched, htouched, hsame⟩ := insertRefundLines_ok h (hn refund hmem)
  have hstoredIds : stored.map (·.values.externalRefundId) =
      done.map (·.values.externalRefundId) := by
    have hmap := congrArg
      (List.map fun refund : CommerceOrderRefundFact => refund.values.externalRefundId) hstored
    rw [List.map_map, List.map_map] at hmap
    exact hmap
  have hnew := requireNewId_ok "order_refunds_order_id_external_refund_id_uq" hids hrefunds
    hstoredIds
  refine ⟨⟨refund.values.stored, touched⟩, ?_, ?_⟩
  · rw [insertRefund]
    simp only [bind, Except.bind, hnew, htouched]
    rfl
  · rw [StoredOrderRefund.fact, CommerceOrderRefundFact.stored, hsame, List.map_id]

def CommerceOrderFulfillmentFact.kept (fulfillment : CommerceOrderFulfillmentFact) :
    List (Option ℤ × Money) :=
  (onceEach [] fulfillment.lines).map fun line => (some line.lineNumber, line.quantity)

theorem fulfillmentLines_ok (h : LinesWritten existing start lines result) (seen : List ℤ)
    {shipped : List CommerceOrderFulfillmentLineFact}
    (hn : ∀ line ∈ shipped, line.lineNumber ∈ lines.map (·.lineNumber)) :
    ∃ rows, fulfillmentLines result.lineIdByNumber seen shipped = .ok rows
      ∧ rows.map (fun row => (lineNumberOf result.rows row.orderLineId, row.quantity)) =
        (onceEach seen shipped).map fun line => (some line.lineNumber, line.quantity) := by
  induction shipped generalizing seen with
  | nil => exact ⟨[], rfl, rfl⟩
  | cons line rest ih =>
    have hrest : ∀ line ∈ rest, line.lineNumber ∈ lines.map (·.lineNumber) :=
      fun line hline => hn line (List.mem_cons_of_mem _ hline)
    rw [fulfillmentLines, onceEach]
    split_ifs with hseen
    · exact ih seen hrest
    · obtain ⟨id, hat, hnumber⟩ := h.resolve (hn line List.mem_cons_self)
      obtain ⟨rows, hrows, hsame⟩ := ih (line.lineNumber :: seen) hrest
      refine ⟨⟨id, line.quantity⟩ :: rows, ?_, ?_⟩
      · rw [hat, hrows]
        rfl
      · rw [List.map_cons, List.map_cons, hsame, hnumber]

theorem insertFulfillments_ok (nextRowId : ℕ) (h : LinesWritten existing start lines result)
    {fulfillments : List CommerceOrderFulfillmentFact}
    (hids : (fulfillments.filterMap (·.values.externalFulfillmentId)).Nodup)
    (hn : ∀ fulfillment ∈ fulfillments, ∀ line ∈ fulfillment.lines,
      line.lineNumber ∈ lines.map (·.lineNumber))
    (hpos : ∀ fulfillment ∈ fulfillments, ∀ line ∈ fulfillment.lines, 0 < line.quantity) :
    ∃ rows, insertEach (insertFulfillment result.lineIdByNumber nextRowId) [] fulfillments = .ok rows
      ∧ rows.map (fun row => (row.values, row.shippedLines result.rows)) =
        fulfillments.map fun fulfillment => (fulfillment.values.stored, fulfillment.kept) := by
  refine insertEach_ok fun done fulfillment rest hfulfillments stored hstored => ?_
  have hmem : fulfillment ∈ fulfillments := hfulfillments ▸ by simp
  obtain ⟨shipped, hshipped, hsame⟩ :=
    fulfillmentLines_ok h [] (hn fulfillment hmem)
  have hstoredIds : stored.map (·.values.externalFulfillmentId) =
      done.map (·.values.externalFulfillmentId) := by
    have hmap := congrArg (List.map fun said : OrderFulfillmentValues × List (Option ℤ × Money) =>
      said.1.externalFulfillmentId) hstored
    rw [List.map_map, List.map_map] at hmap
    exact hmap
  have hnew := requireNewId_ok "order_fulfillments_order_id_external_id_uq" hids hfulfillments
    hstoredIds
  have hquantities : ∀ row ∈ shipped, 0 < row.quantity := by
    intro row hrow
    have hkept := List.mem_map_of_mem
      (f := fun row => (lineNumberOf result.rows row.orderLineId, row.quantity)) hrow
    rw [hsame] at hkept
    obtain ⟨line, hline, heq⟩ := List.mem_map.1 hkept
    have hquantity : line.quantity = row.quantity := congrArg Prod.snd heq
    rw [← hquantity]
    exact hpos fulfillment hmem line (mem_onceEach hline).1
  have hdistinct : (shipped.map (·.orderLineId)).Nodup := by
    have hnumbers : (shipped.map fun row => lineNumberOf result.rows row.orderLineId) =
        (onceEach [] fulfillment.lines).map fun line => some line.lineNumber := by
      have hmap := congrArg (List.map Prod.fst) hsame
      rw [List.map_map, List.map_map] at hmap
      exact hmap
    refine List.Nodup.of_map (lineNumberOf result.rows) ?_
    rw [List.map_map]
    refine hnumbers.symm ▸ ?_
    have honce : ((onceEach [] fulfillment.lines).map (·.lineNumber)).Nodup := onceEach_nodup
    have hsome := honce.map (Option.some_injective ℤ)
    rwa [List.map_map] at hsome
  refine ⟨⟨nextRowId + stored.length, fulfillment.values.stored, shipped⟩, ?_, ?_⟩
  · rw [insertFulfillment]
    simp only [bind, Except.bind, hnew, hshipped, Except.require_of hquantities,
      Except.require_of hdistinct]
    rfl
  · rw [StoredOrderFulfillment.shippedLines, CommerceOrderFulfillmentFact.kept, hsame]

end Attachments

structure Rewritten (existing : List StoredOrderLine) (start : ℕ) (fact : CommerceOrderFact)
    (after : OrderChildren) (next : ℕ) : Prop where
  written : ∃ result, LinesWritten existing start fact.lines result ∧ result.rows = after.lines
    ∧ result.nextRowId ≤ next
  fees : after.fees.map (StoredOrderFee.fact after.lines) = fact.fees.map (·.stored)
  refunds : after.refunds.map (StoredOrderRefund.fact after.lines) = fact.refunds.map (·.stored)
  fulfillments : after.fulfillments.map
      (fun fulfillment => (fulfillment.values, fulfillment.shippedLines after.lines)) =
    fact.fulfillments.map fun fulfillment => (fulfillment.values.stored, fulfillment.kept)
  fee_ids : ∀ fee ∈ after.fees, start ≤ fee.id
  fulfillment_ids : ∀ fulfillment ∈ after.fulfillments, start ≤ fulfillment.id

section Rewrite

variable {references : InboundReferences} {existing after after' : OrderChildren}
  {start next next' : ℕ} {fact : CommerceOrderFact}

theorem rewrite_ok (hs : LinesSound existing.lines start) (hfact : fact.Storable)
    (hfree : RowsFree references existing fact) :
    ∃ after next, existing.rewrite references start fact = .ok (after, next)
      ∧ Rewritten existing.lines start fact after next := by
  obtain ⟨result, hresult, hwritten⟩ := rewriteLines_ok hs hfact.lines hfree.lines
  have hfees : deleteRows references.fees (existing.fees.map (·.id)) = .ok () := by
    rw [deleteRows_eq_ok]
    intro reference href hmem
    obtain ⟨fee, hfee, hid⟩ := List.mem_map.1 hmem
    exact hfree.fees fee hfee reference href hid.symm
  have hfulfillments : deleteRows references.fulfillments (existing.fulfillments.map (·.id)) =
      .ok () := by
    rw [deleteRows_eq_ok]
    intro reference href hmem
    obtain ⟨fulfillment, hfulfillment, hid⟩ := List.mem_map.1 hmem
    exact hfree.fulfillments fulfillment hfulfillment reference href hid.symm
  obtain ⟨fees, hfeesOk, hfeesSame⟩ :=
    insertFees_ok result.nextRowId hwritten hfact.fee_ids hfact.fee_lines
  obtain ⟨refunds, hrefundsOk, hrefundsSame⟩ :=
    insertRefunds_ok hwritten hfact.refund_ids hfact.refund_lines
  obtain ⟨fulfillments, hfulfillmentsOk, hfulfillmentsSame⟩ :=
    insertFulfillments_ok (result.nextRowId + fees.length) hwritten
      hfact.fulfillment_ids hfact.fulfillment_lines hfact.shipped_quantities
  refine ⟨⟨result.rows, fees, refunds, fulfillments⟩,
    result.nextRowId + fees.length + fulfillments.length, ?_, ⟨result, hwritten, rfl, by omega⟩,
    hfeesSame, hrefundsSame, hfulfillmentsSame, ?_, ?_⟩
  · unfold OrderChildren.rewrite
    simp only [bind, Except.bind, hresult, hfees, hfulfillments, hfeesOk, hrefundsOk,
      hfulfillmentsOk]
    rfl
  · refine insertEach_forall (fun stored fee row hrow => ?_)
      (fun _ hmem => absurd hmem List.not_mem_nil) hfeesOk
    simp only [insertFee, Except.bind_eq_ok, Except.pure_eq_ok] at hrow
    obtain ⟨id, -, u, -, rfl⟩ := hrow
    exact hwritten.start_le.trans (Nat.le_add_right _ _)
  · refine insertEach_forall (fun stored fulfillment row hrow => ?_)
      (fun _ hmem => absurd hmem List.not_mem_nil) hfulfillmentsOk
    simp only [insertFulfillment, Except.bind_eq_ok, Except.pure_eq_ok] at hrow
    obtain ⟨u, -, shipped, -, u', -, u'', -, rfl⟩ := hrow
    have hle := hwritten.start_le
    show start ≤ result.nextRowId + fees.length + stored.length
    omega

theorem free_of_rewrite (hs : LinesSound existing.lines start)
    (h : existing.rewrite references start fact = .ok (after, next)) :
    RowsFree references existing fact := by
  simp only [OrderChildren.rewrite, rewriteLines, Except.bind_eq_ok] at h
  obtain ⟨result, ⟨u, hlines, -⟩, u', hfees, u'', hfulfillments, -⟩ := h
  rw [deleteRows_eq_ok] at hfees hfulfillments
  refine ⟨(orphans_free_iff hs).1 hlines, fun fee hfee reference href hid => ?_,
    fun fulfillment hfulfillment reference href hid => ?_⟩
  · exact hfees reference href (List.mem_map.2 ⟨fee, hfee, hid.symm⟩)
  · exact hfulfillments reference href (List.mem_map.2 ⟨fulfillment, hfulfillment, hid.symm⟩)

namespace Rewritten

theorem sound (hfact : fact.Storable) (h : Rewritten existing.lines start fact after next) :
    LinesSound after.lines next := by
  obtain ⟨result, hwritten, hrows, hnext⟩ := h.written
  have hsound := hwritten.sound hfact.lines
  rw [hrows] at hsound
  exact { hsound with ids_lt := fun row hrow => (hsound.ids_lt row hrow).trans_le hnext }

theorem start_le (h : Rewritten existing.lines start fact after next) : start ≤ next := by
  obtain ⟨result, hwritten, -, hnext⟩ := h.written
  exact hwritten.start_le.trans hnext

theorem records_iff (hfact : fact.Storable) (h : Rewritten existing.lines start fact after next) :
    after.Records fact ↔ ∀ fulfillment ∈ fact.fulfillments,
      (fulfillment.lines.map (·.lineNumber)).Nodup := by
  have hquantities : ∀ fulfillment ∈ fact.fulfillments,
      quantityOf fulfillment.kept = quantityOf fulfillment.quantities ↔
        (fulfillment.lines.map (·.lineNumber)).Nodup := by
    intro fulfillment hmem
    have hshipped : ∀ shipped : List CommerceOrderFulfillmentLineFact, ∀ n : ℤ,
        quantityOf (shipped.map fun line => (some line.lineNumber, line.quantity)) (some n) =
          shippedOf shipped n := by
      intro shipped n
      unfold quantityOf shippedOf
      rw [List.filter_map, List.map_map]
      have hsame : ((fun said : Option ℤ × Money => decide (said.1 = some n)) ∘
          fun line : CommerceOrderFulfillmentLineFact => (some line.lineNumber, line.quantity)) =
            fun line => line.lineNumber == n := by
        funext line
        rw [Bool.eq_iff_iff, Function.comp_apply, decide_eq_true_eq, beq_iff_eq,
          Option.some.injEq]
      rw [hsame]
      rfl
    have hnone : ∀ shipped : List CommerceOrderFulfillmentLineFact,
        quantityOf (shipped.map fun line => (some line.lineNumber, line.quantity)) none = 0 := by
      intro shipped
      unfold quantityOf
      have hnil : (shipped.map fun line => (some line.lineNumber, line.quantity)).filter
          (fun said : Option ℤ × Money => decide (said.1 = none)) = [] := by
        rw [List.filter_eq_nil_iff]
        intro said hsaid heq
        obtain ⟨line, -, rfl⟩ := List.mem_map.1 hsaid
        cases of_decide_eq_true heq
      rw [hnil]
      rfl
    have hiff : (∀ n ∉ ([] : List ℤ), _) ↔ _ :=
      onceEach_quantities_iff (hfact.shipped_quantities fulfillment hmem)
    simp only [List.not_mem_nil, not_false_eq_true, forall_const, decide_true,
      List.filter_true] at hiff
    rw [← hiff, funext_iff]
    constructor
    · intro heq n
      have hn := heq (some n)
      rwa [CommerceOrderFulfillmentFact.kept, CommerceOrderFulfillmentFact.quantities, hshipped,
        hshipped] at hn
    · rintro heq (_ | n)
      · rw [CommerceOrderFulfillmentFact.kept, CommerceOrderFulfillmentFact.quantities, hnone,
          hnone]
      · rw [CommerceOrderFulfillmentFact.kept, CommerceOrderFulfillmentFact.quantities, hshipped,
          hshipped, heq]
  have hstored : after.fulfillments.map
      (fun fulfillment => quantityOf (fulfillment.shippedLines after.lines)) =
        fact.fulfillments.map fun fulfillment => quantityOf fulfillment.kept := by
    have hmap := congrArg (List.map fun said : OrderFulfillmentValues × List (Option ℤ × Money) =>
      quantityOf said.2) h.fulfillments
    rw [List.map_map, List.map_map] at hmap
    exact hmap
  constructor
  · intro hrecords fulfillment hmem
    rw [← hquantities fulfillment hmem]
    have hall := hrecords.quantities
    rw [hstored] at hall
    exact List.map_inj_left.1 hall fulfillment hmem
  · intro honce
    refine ⟨?_, h.fees, h.refunds, ?_, ?_⟩
    · obtain ⟨result, hwritten, hrows, -⟩ := h.written
      rw [← hrows]
      refine ((hwritten.perm hfact.lines).map _).trans ?_
      rw [List.map_map]
      exact List.Perm.of_eq (List.map_id _)
    · have hmap := congrArg (List.map Prod.fst) h.fulfillments
      rw [List.map_map, List.map_map] at hmap
      exact hmap
    · rw [hstored]
      exact List.map_congr_left fun fulfillment hmem =>
        (hquantities fulfillment hmem).2 (honce fulfillment hmem)

theorem keepsIds_iff (hs : LinesSound existing.lines start) (hfact : fact.Storable)
    (h : Rewritten existing.lines start fact after next) : existing.KeepsIds after ↔
      fact.lines.Pairwise fun other line => other.externalLineId = none →
        ∀ old ∈ existing.lines, old.externalLineId.isSome →
          old.externalLineId = line.externalLineId → old.lineNumber ≠ other.lineNumber := by
  obtain ⟨result, hwritten, hrows, -⟩ := h.written
  unfold OrderChildren.KeepsIds
  rw [← hrows]
  exact hwritten.id_kept_iff hs hfact.lines

theorem again (hfact : fact.Storable) (h : Rewritten existing.lines start fact after next)
    (hfees : ∀ reference ∈ references.fees, reference.id < start)
    (hfulfillments : ∀ reference ∈ references.fulfillments, reference.id < start) :
    ∃ after' next', after.rewrite references next fact = .ok (after', next')
      ∧ after'.Same after := by
  obtain ⟨result, hwritten, hrows, -⟩ := h.written
  have hfree : RowsFree references after fact := by
    refine ⟨?_, fun fee hfee reference href => ?_, fun fulfillment hfulfillment reference href => ?_⟩
    · rw [← hrows]
      exact hwritten.orphansFree_again hfact.lines
    · exact ((hfees reference href).trans_le (h.fee_ids fee hfee)).ne
    · exact ((hfulfillments reference href).trans_le
        (h.fulfillment_ids fulfillment hfulfillment)).ne
  obtain ⟨after', next', hrewrite, h'⟩ := rewrite_ok (h.sound hfact) hfact hfree
  obtain ⟨result', hwritten', hrows', -⟩ := h'.written
  rw [← hrows] at hwritten'
  have hperm := (hwritten.again hfact.lines hwritten').2
  rw [hrows, hrows'] at hperm
  exact ⟨after', next', hrewrite, hperm, h'.fees.trans h.fees.symm, h'.refunds.trans h.refunds.symm,
    h'.fulfillments.trans h.fulfillments.symm⟩

end Rewritten

end Rewrite

end Loxep

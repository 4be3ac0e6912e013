import Loxep.Lib.ListSums
import Loxep.PurchaseSync

/-!
# A purchase ingested across crashes

An attempt that inserts the acquisition may stop before its costs are added, and the next one finds
the acquisition and skips them for good.
-/

namespace Loxep

section Spec

def nonzeroAmount (s : String) : Bool := s.toList.any fun c => c.isDigit && c != '0'

variable (input : IngestInput)

def ofPurchase (a : AcquisitionRow) : Bool :=
  a.connectionId == some input.connectionId &&
    a.externalReference == some (trim input.fact.externalOrderId)

def costsOfType (t : FactTables) (acquisition : AcquisitionId) (costType : String) :
    List (CostClass × Money) :=
  (t.acquisitionCosts.filter fun c =>
    c.acquisitionId == acquisition && c.costType == costType).map fun c => (c.costClass, c.amount)

def Costed (t : FactTables) (acquisition : AcquisitionId) : Prop :=
  ∀ cost ∈ input.fact.costs, nonzeroAmount cost.amount = true →
    costsOfType t acquisition cost.costType = [(cost.costClass, numericOf cost.amount)]

def Ingested (t : FactTables) : Prop :=
  ∃ a, t.acquisitions.filter (ofPurchase input) = [a] ∧ Costed input t a.id

def IngestStage.hasReturned : IngestStage → Bool
  | .returned _ => true
  | _ => false

def IngestStage.stopsShort : IngestStage → Bool
  | .costing _ costs => costs.any (nonzeroAmount ·.amount)
  | .raised _ costs => costs.any (nonzeroAmount ·.amount)
  | _ => false

/-- The tables, whether some attempt has returned, and whether some attempt has stopped short. -/
structure IngestRun where
  tables : PurchaseTables
  returned : Bool
  short : Bool

def IngestRun.start (tables : PurchaseTables) : IngestRun := ⟨tables, false, false⟩

def IngestRun.step (s : IngestRun) (attempt : IngestAttempt) : IngestRun :=
  let r := ingestEbayPurchase input attempt s.tables
  ⟨r.2, s.returned || r.1.hasReturned, s.short || r.1.stopsShort⟩

def IngestRun.Kept (s : IngestRun) : Prop :=
  s.returned = true → Ingested input s.tables.toFactTables

def NotAfterShort (s : IngestRun) (attempt : IngestAttempt) : Prop :=
  (ingestEbayPurchase input attempt s.tables).1.hasReturned = true → s.short = false

/-- The purchase is new, and every cost row belongs to an acquisition. -/
structure NewPurchase (t : FactTables) : Prop where
  absent : ∀ a ∈ t.acquisitions, ofPurchase input a = false
  owned : ∀ c ∈ t.acquisitionCosts, c.acquisitionId ∈ t.acquisitions.map (·.id)

end Spec

def dueCosts (fact : PurchaseFact) : List PurchaseCost :=
  fact.costs.filter fun cost => !isZeroText cost.amount

theorem not_zeroText_of_nonzero {s : String} (h : nonzeroAmount s = true) :
    isZeroText s = false := by
  rw [Bool.eq_false_iff]
  intro hzero
  obtain ⟨c, hc, hdigit⟩ := List.any_eq_true.1 h
  rw [Bool.and_eq_true, bne_iff_ne] at hdigit
  obtain ⟨hdigit, hne⟩ := hdigit
  unfold isZeroText at hzero
  cases hs : s.toList with
  | nil =>
    rw [hs] at hzero
    cases hzero
  | cons d rest =>
    rw [hs] at hc hzero
    cases rest with
    | nil =>
      simp only [Bool.and_true, beq_iff_eq] at hzero
      exact hne (List.mem_singleton.1 hc ▸ hzero)
    | cons e zeros =>
      simp only [Bool.and_eq_true, beq_iff_eq, List.all_eq_true] at hzero
      obtain ⟨hd, ⟨he, -⟩, hzeros⟩ := hzero
      rcases List.mem_cons.1 hc with rfl | hc
      · exact hne hd
      · rcases List.mem_cons.1 hc with rfl | hc
        · rw [he] at hdigit
          exact absurd hdigit (by decide)
        · exact hne (hzeros c hc)

theorem costTypes_nodup (fact : PurchaseFact) : (fact.costs.map (·.costType)).Nodup := by
  simp [PurchaseFact.costs]

theorem trim_costType {fact : PurchaseFact} {cost : PurchaseCost} (h : cost ∈ fact.costs) :
    trim cost.costType = cost.costType := by
  simp only [PurchaseFact.costs, List.mem_cons, List.not_mem_nil, or_false] at h
  rcases h with rfl | rfl | rfl
  · exact (by decide : trim "goods" = "goods")
  · exact (by decide : trim "inbound_freight" = "inbound_freight")
  · exact (by decide : trim "sales_tax" = "sales_tax")

section Attempts

variable {input : IngestInput} {attempt : IngestAttempt}

/-- The attempt has appended the acquisition and the costs before these. -/
structure Opened (input : IngestInput) (t₀ t : FactTables) (a : AcquisitionRow)
    (rest : List PurchaseCost) : Prop where
  absent : ∀ b ∈ t₀.acquisitions, ofPurchase input b = false
  own : ofPurchase input a = true
  fresh : a.id ∉ t₀.acquisitions.map (·.id)
  acquisitions : t.acquisitions = t₀.acquisitions ++ [a]
  costs : ∃ rows done, done ++ rest = dueCosts input.fact ∧
    t.acquisitionCosts = t₀.acquisitionCosts ++ rows ∧
    rows.map (fun c => (c.acquisitionId, c.costType, c.costClass, c.amount)) =
      done.map fun cost => (a.id, cost.costType, cost.costClass, numericOf cost.amount)

structure Unopened (t₀ t : FactTables) : Prop where
  acquisitions : t.acquisitions = t₀.acquisitions
  costs : t.acquisitionCosts = t₀.acquisitionCosts

def Reached (input : IngestInput) (s₀ : PurchaseTables) : IngestStage × PurchaseTables → Prop
  | (.started, s) => s = s₀
  | (.costing a costs, s) => Opened input s₀.toFactTables s.toFactTables a costs
  | (.retaining a true, s) => Opened input s₀.toFactTables s.toFactTables a []
  | (.retaining _ false, s) => Unopened s₀.toFactTables s.toFactTables ∧
      ∃ b ∈ s₀.acquisitions, ofPurchase input b = true
  | (.notifying a, s) => Opened input s₀.toFactTables s.toFactTables a []
  | (.returned r, s) => Opened input s₀.toFactTables s.toFactTables r.acquisition [] ∨
      Unopened s₀.toFactTables s.toFactTables ∧ ∃ b ∈ s₀.acquisitions, ofPurchase input b = true
  | (.raised _ costs, s) => (Unopened s₀.toFactTables s.toFactTables ∧ costs = []) ∨
      ∃ a, Opened input s₀.toFactTables s.toFactTables a costs

variable {a : AcquisitionRow} {t t₀ : FactTables} {rest : List PurchaseCost}

theorem sameSource_of_ofPurchase {b : AcquisitionRow} (ha : ofPurchase input a = true)
    (hb : ofPurchase input b = true) : b.sameSource a = true := by
  simp only [ofPurchase, Bool.and_eq_true, beq_iff_eq] at ha hb
  simp [AcquisitionRow.sameSource, ha.1, ha.2, hb.1, hb.2]

variable {t' : FactTables} {connections : List ConnectionRow}

theorem create_opened
    (h : t.createAcquisition connections attempt.now (acquisitionInput input attempt) =
      .ok (a, t')) : Opened input t t' a (dueCosts input.fact) := by
  obtain ⟨⟨_, _, _, ha⟩, hfresh, hsource, rfl⟩ := FactTables.createAcquisition_appends h
  have hown : ofPurchase input a = true := by
    rw [ha]
    simp [ofPurchase, FactTables.acquisitionRow, acquisitionInput]
  refine ⟨fun b hb => ?_, hown, ?_, rfl, [], [], rfl, (List.append_nil _).symm, rfl⟩
  · rw [Bool.eq_false_iff]
    intro hof
    have hsame := sameSource_of_ofPurchase hown hof
    rw [hsource b hb] at hsame
    cases hsame
  · rw [ha]
    exact hfresh

theorem parseAcquisition_raises {value : CreateAcquisitionInput} :
    Except.RaisesOnly (fun e : InventoryError => e.errorClass = .validation)
      (parseAcquisition value) := by
  unfold parseAcquisition
  iterate 6 refine Except.RaisesOnly.bind (Except.raisesOnly_require rfl) fun _ => ?_
  exact Except.raisesOnly_require rfl

theorem create_rejected
    (h : t.createAcquisition connections attempt.now (acquisitionInput input attempt) =
      .error (.database purchaseIdempotencyConstraint)) :
    ∃ b ∈ t.acquisitions, ofPurchase input b = true := by
  simp only [FactTables.createAcquisition, Except.bind_eq_error] at h
  rcases h with hparse | ⟨_, -, hretry⟩
  · cases parseAcquisition_raises _ hparse
  rcases retryCode_raises hretry with hclass | ⟨k, hk⟩
  · cases hclass
  simp only [FactTables.insertAcquisition, Except.bind_eq_error, Except.require_eq_error] at hk
  obtain ⟨⟨-, herror⟩ | ⟨_, -, ⟨-, herror⟩ | ⟨_, -, ⟨hsame, -⟩ | ⟨_, -, hpure⟩⟩⟩⟩ | ⟨_, -, hpure⟩ := hk
  · exact absurd herror (by decide)
  · exact absurd herror (by decide)
  · simp only [not_forall, Bool.not_eq_false] at hsame
    obtain ⟨b, hb, hsame⟩ := hsame
    simp only [AcquisitionRow.sameSource, FactTables.acquisitionRow, acquisitionInput,
      Bool.and_eq_true, beq_iff_eq] at hsame
    refine ⟨b, hb, ?_⟩
    simp [ofPurchase, hsame.1.2, hsame.2]
  · cases hpure
  · cases hpure

theorem start_reached (s : PurchaseTables) :
    Reached input s (proceedIngest input attempt (.started, s)) := by
  simp only [proceedIngest]
  split
  · next next h =>
    simp only [startIngest, Except.bind_eq_ok] at h
    obtain ⟨_, -, h⟩ := h
    split at h
    · next a t hcreate =>
      cases h
      exact create_opened hcreate
    · next e herror =>
      split_ifs at h with he
      split at h
      · cases h
        exact ⟨⟨rfl, rfl⟩, create_rejected (he ▸ herror)⟩
      · cases h
  · exact .inl ⟨⟨rfl, rfl⟩, rfl⟩

theorem Opened.add {row : AcquisitionCostRow} {cost : PurchaseCost}
    (h : Opened input t₀ t a (cost :: rest))
    (hadd : t.addCost (costInput input attempt a cost rest.length) = .ok (row, t')) :
    Opened input t₀ t' a rest := by
  obtain ⟨⟨acquisition, -, hrow⟩, rfl⟩ := FactTables.addCost_appends hadd
  obtain ⟨rows, done, hdone, hcosts, hrows⟩ := h.costs
  have hdue : cost ∈ dueCosts input.fact := by simp [← hdone]
  have htrim := trim_costType (List.mem_filter.1 hdue).1
  refine { h with costs := ⟨rows ++ [row], done ++ [cost], ?_, ?_, ?_⟩ }
  · rw [List.append_assoc]
    exact hdone
  · simp only [hcosts, List.append_assoc]
  · rw [List.map_append, List.map_append, hrows]
    subst hrow
    simp [costInput, htrim]

theorem retainProvenance_facts (s : PurchaseTables) :
    (retainProvenance input attempt s).toFactTables = s.toFactTables := by
  simp only [retainProvenance]
  split_ifs <;> rfl

theorem proceed_reached {s₀ : PurchaseTables} :
    ∀ {p : IngestStage × PurchaseTables}, Reached input s₀ p →
      Reached input s₀ (proceedIngest input attempt p)
  | (.started, s), h => by
    have hs : s = s₀ := h
    rw [hs]
    exact start_reached s₀
  | (.costing a [], s), h => h
  | (.costing a (cost :: rest), s), h => by
    simp only [proceedIngest]
    split
    · next hadd => exact Opened.add h hadd
    · exact .inr ⟨a, h⟩
  | (.retaining a created, s), h => by
    have hkept : (if attempt.retainProvenance then retainProvenance input attempt s
        else s).toFactTables = s.toFactTables := by
      split_ifs
      · exact retainProvenance_facts s
      · rfl
    cases created with
    | true =>
      simp only [proceedIngest, if_true, Reached, hkept]
      exact h
    | false =>
      simp only [proceedIngest, Bool.false_eq_true, if_false, Reached, hkept]
      exact .inr h
  | (.notifying _, _), h => .inl h
  | (.returned _, _), h => h
  | (.raised _ _, _), h => h

theorem ingest_reached (s : PurchaseTables) :
    Reached input s (ingestEbayPurchase input attempt s) := by
  have hiterate : ∀ n, Reached input s ((proceedIngest input attempt)^[n] (.started, s)) := by
    intro n
    induction n with
    | zero => exact rfl
    | succ n ih =>
      rw [Function.iterate_succ_apply']
      exact proceed_reached ih
  exact hiterate attempt.statements

theorem ingest_cases (input : IngestInput) (attempt : IngestAttempt) (s : PurchaseTables) :
    let r := ingestEbayPurchase input attempt s
    (∃ a rest, Opened input s.toFactTables r.2.toFactTables a rest ∧
        r.1.stopsShort = rest.any (nonzeroAmount ·.amount) ∧
        (r.1.hasReturned = true → rest = [])) ∨
      (Unopened s.toFactTables r.2.toFactTables ∧ r.1.stopsShort = false ∧
        (r.1.hasReturned = true → ∃ b ∈ s.acquisitions, ofPurchase input b = true)) := by
  intro r
  have h : Reached input s r := ingest_reached s
  obtain ⟨stage, t⟩ := r
  cases stage with
  | started =>
    have ht : t = s := h
    exact .inr ⟨ht ▸ ⟨rfl, rfl⟩, rfl, nofun⟩
  | costing a costs => exact .inl ⟨a, costs, h, rfl, nofun⟩
  | retaining a created =>
    cases created with
    | true => exact .inl ⟨a, [], h, rfl, nofun⟩
    | false => exact .inr ⟨h.1, rfl, nofun⟩
  | notifying a => exact .inl ⟨a, [], h, rfl, nofun⟩
  | returned result =>
    rcases h with h | ⟨h, hthere⟩
    · exact .inl ⟨result.acquisition, [], h, rfl, fun _ => rfl⟩
    · exact .inr ⟨h, rfl, fun _ => hthere⟩
  | raised e costs =>
    rcases h with ⟨h, rfl⟩ | ⟨a, h⟩
    · exact .inr ⟨h, rfl, nofun⟩
    · exact .inl ⟨a, costs, h, rfl, nofun⟩

theorem Opened.costsOfType_eq (h : Opened input t₀ t a rest)
    (howned : ∀ c ∈ t₀.acquisitionCosts, c.acquisitionId ∈ t₀.acquisitions.map (·.id)) :
    ∃ done, done ++ rest = dueCosts input.fact ∧ ∀ costType,
      costsOfType t a.id costType = (done.filter (·.costType == costType)).map fun cost =>
        (cost.costClass, numericOf cost.amount) := by
  obtain ⟨rows, done, hdone, hcosts, hrows⟩ := h.costs
  refine ⟨done, hdone, fun costType => ?_⟩
  have hold : t₀.acquisitionCosts.filter
      (fun c => c.acquisitionId == a.id && c.costType == costType) = [] := by
    rw [List.filter_eq_nil_iff]
    intro c hc hthis
    rw [Bool.and_eq_true, beq_iff_eq] at hthis
    exact h.fresh (hthis.1 ▸ howned c hc)
  have hnew := congrArg (fun l => (l.filter fun x : AcquisitionId × String × CostClass × Money =>
    x.1 == a.id && x.2.1 == costType).map fun x => (x.2.2.1, x.2.2.2)) hrows
  simp only [List.filter_map, List.map_map, Function.comp_def] at hnew
  rw [costsOfType, hcosts, List.filter_append, hold, List.nil_append, hnew]
  simp

theorem Opened.costed_iff (h : Opened input t₀ t a rest)
    (howned : ∀ c ∈ t₀.acquisitionCosts, c.acquisitionId ∈ t₀.acquisitions.map (·.id)) :
    Costed input t a.id ↔ rest.any (nonzeroAmount ·.amount) = false := by
  obtain ⟨done, hdone, heq⟩ := h.costsOfType_eq howned
  have hkeys : ((dueCosts input.fact).map (·.costType)).Nodup :=
    (costTypes_nodup input.fact).sublist (List.filter_sublist.map _)
  rw [← hdone] at hkeys
  constructor
  · intro hcosted
    rw [List.any_eq_false]
    intro cost hrest hnonzero
    have hdue : cost ∈ dueCosts input.fact := by simp [← hdone, hrest]
    have hrows := hcosted cost (List.mem_filter.1 hdue).1 hnonzero
    rw [heq] at hrows
    obtain ⟨other, others, hfilter, -⟩ := List.map_eq_cons_iff.1 hrows
    have hother := List.mem_filter.1 (hfilter ▸ List.mem_cons_self : other ∈ _)
    rw [List.map_append, List.nodup_append] at hkeys
    exact hkeys.2.2 _ (List.mem_map_of_mem hother.1) _ (List.mem_map_of_mem hrest)
      (eq_of_beq hother.2)
  · intro hnone cost hcost hnonzero
    rw [List.any_eq_false] at hnone
    have hdue : cost ∈ done ++ rest := by
      rw [hdone]
      exact List.mem_filter.2 ⟨hcost, by simp [not_zeroText_of_nonzero hnonzero]⟩
    have hmem : cost ∈ done := (List.mem_append.1 hdue).resolve_right fun hrest =>
      hnone cost hrest hnonzero
    rw [List.map_append, List.nodup_append] at hkeys
    rw [heq, filter_key_eq hkeys.1 hmem, List.map_singleton]

end Attempts

section Runs

variable {input : IngestInput}

/-- The purchase is new and no attempt has returned or stopped, or it is there once, and costed
unless an attempt stopped short. -/
structure IngestRun.Tracked (input : IngestInput) (s : IngestRun) : Prop where
  owned : ∀ c ∈ s.tables.acquisitionCosts, c.acquisitionId ∈ s.tables.acquisitions.map (·.id)
  state : ((∀ a ∈ s.tables.acquisitions, ofPurchase input a = false) ∧
      s.returned = false ∧ s.short = false) ∨
    ∃ a, s.tables.acquisitions.filter (ofPurchase input) = [a] ∧
      (Costed input s.tables.toFactTables a.id ↔ s.short = false)

variable {t t₀ : FactTables} {a : AcquisitionRow}

theorem ingested_iff_costed (h : t.acquisitions.filter (ofPurchase input) = [a]) :
    Ingested input t ↔ Costed input t a.id := by
  constructor
  · rintro ⟨b, hb, hcosted⟩
    rw [h, List.singleton_inj] at hb
    exact hb ▸ hcosted
  · exact fun hcosted => ⟨a, h, hcosted⟩

theorem Opened.filter_eq {rest : List PurchaseCost} (h : Opened input t₀ t a rest)
    : t.acquisitions.filter (ofPurchase input) = [a] := by
  have hnone : t₀.acquisitions.filter (ofPurchase input) = [] := by
    rw [List.filter_eq_nil_iff]
    intro b hb
    rw [h.absent b hb]
    exact Bool.false_ne_true
  rw [h.acquisitions, List.filter_append, hnone, List.nil_append, List.filter_singleton, h.own]
  rfl

theorem Opened.owned {rest : List PurchaseCost} (h : Opened input t₀ t a rest)
    (howned : ∀ c ∈ t₀.acquisitionCosts, c.acquisitionId ∈ t₀.acquisitions.map (·.id)) :
    ∀ c ∈ t.acquisitionCosts, c.acquisitionId ∈ t.acquisitions.map (·.id) := by
  obtain ⟨rows, done, -, hcosts, hrows⟩ := h.costs
  intro c hc
  rw [hcosts, List.mem_append] at hc
  rw [h.acquisitions, List.map_append, List.mem_append]
  rcases hc with hc | hc
  · exact .inl (howned c hc)
  · have hmem := List.mem_map_of_mem (f := fun c : AcquisitionCostRow =>
      (c.acquisitionId, c.costType, c.costClass, c.amount)) hc
    rw [hrows, List.mem_map] at hmem
    obtain ⟨cost, -, hcost⟩ := hmem
    have hid : a.id = c.acquisitionId := (Prod.ext_iff.1 hcost).1
    exact .inr (List.mem_singleton.2 hid.symm)

theorem Unopened.costed_iff (h : Unopened t₀ t) (id : AcquisitionId) :
    Costed input t id ↔ Costed input t₀ id := by
  simp only [Costed, costsOfType, h.costs]

variable {s : IngestRun}

theorem tracked_step (attempt : IngestAttempt) (h : s.Tracked input) :
    (s.step input attempt).Tracked input := by
  obtain ⟨howned, hstate⟩ := h
  rcases ingest_cases input attempt s.tables with
    ⟨a, rest, hopened, hshort, -⟩ | ⟨hunopened, hshort, hthere⟩
  · have hnew : (∀ a ∈ s.tables.acquisitions, ofPurchase input a = false) ∧
        s.returned = false ∧ s.short = false := by
      refine hstate.resolve_right fun ⟨b, hb, _⟩ => ?_
      have hmem := List.mem_filter.1 (hb ▸ List.mem_singleton_self b : b ∈ _)
      exact absurd hmem.2 (by simp [hopened.absent b hmem.1])
    refine ⟨hopened.owned howned, .inr ⟨a, hopened.filter_eq, ?_⟩⟩
    rw [IngestRun.step, hnew.2.2, Bool.false_or, hshort]
    exact hopened.costed_iff howned
  · refine ⟨?_, ?_⟩
    · simp only [IngestRun.step, hunopened.costs, hunopened.acquisitions]
      exact howned
    · simp only [IngestRun.step, hunopened.acquisitions, hunopened.costed_iff, hshort,
        Bool.or_false]
      refine hstate.imp (fun ⟨habsent, hreturned, hs⟩ => ⟨habsent, ?_, hs⟩) id
      rw [hreturned, Bool.false_or, Bool.eq_false_iff]
      intro hret
      obtain ⟨b, hb, hof⟩ := hthere hret
      rw [habsent b hb] at hof
      cases hof

theorem kept_step_iff {attempt : IngestAttempt} (h : s.Tracked input) (hkept : s.Kept input)
    : (s.step input attempt).Kept input ↔ NotAfterShort input s attempt := by
  rcases h.state with ⟨habsent, hreturned, hs⟩ | ⟨a, ha, hcosted⟩
  · refine iff_of_true (fun hret => ?_) fun _ => hs
    simp only [IngestRun.step, hreturned, Bool.false_or] at hret
    rcases ingest_cases input attempt s.tables with
      ⟨a, rest, hopened, -, hdone⟩ | ⟨-, -, hthere⟩
    · refine (ingested_iff_costed hopened.filter_eq).2 ((hopened.costed_iff h.owned).2 ?_)
      rw [hdone hret]
      rfl
    · obtain ⟨b, hb, hof⟩ := hthere hret
      rw [habsent b hb] at hof
      cases hof
  · rcases ingest_cases input attempt s.tables with
      ⟨b, rest, hopened, -, -⟩ | ⟨hunopened, -, -⟩
    · have hmem := List.mem_filter.1 (ha ▸ List.mem_singleton_self a : a ∈ _)
      exact absurd hmem.2 (by simp [hopened.absent a hmem.1])
    · have hnext : Ingested input (s.step input attempt).tables.toFactTables ↔ s.short = false := by
        rw [ingested_iff_costed (a := a) (by rw [IngestRun.step, hunopened.acquisitions, ha]),
          IngestRun.step, hunopened.costed_iff, hcosted]
      have hnow : Ingested input s.tables.toFactTables ↔ s.short = false :=
        (ingested_iff_costed ha).trans hcosted
      rw [IngestRun.Kept, hnow] at hkept
      rw [IngestRun.Kept, hnext, IngestRun.step, Bool.or_eq_true]
      exact ⟨fun hall hret => hall (.inr hret), fun hnew => Or.rec hkept hnew⟩

/-- Whenever some attempt has returned the purchase is there once with its costs, if and only if
none returns after one that stopped short. -/
theorem ingested_iff {tables : PurchaseTables} (h : NewPurchase input tables.toFactTables)
    (attempts : List IngestAttempt) :
    Runs.Along (IngestRun.step input) (IngestRun.Kept input) (IngestRun.start tables) attempts ↔
      Runs.Meets (IngestRun.step input) (NotAfterShort input) (IngestRun.start tables) attempts := by
  have hinv : ∀ (s : IngestRun) a, s.Tracked input → s.Kept input →
      (s.step input a).Tracked input :=
    fun _ a hs _ => tracked_step a hs
  have hstep : ∀ (s : IngestRun) a, s.Tracked input → s.Kept input →
      ((s.step input a).Kept input ↔ NotAfterShort input s a) :=
    fun _ _ hs hkept => kept_step_iff hs hkept
  exact Runs.along_iff_meets hinv hstep ⟨h.owned, .inl ⟨h.absent, rfl, rfl⟩⟩ nofun

end Runs

def oneGood : IngestInput :=
  { connectionId := 1
    fact :=
      { externalOrderId := "27-1"
        sellerExternalId := none
        currency := "USD"
        title := "Camera"
        itemPriceAmount := "10.00"
        shippingAmount := "0.00"
        taxAmount := "0"
        totalAmount := "10.00"
        purchasedAt := ⟨⟨2026, 2, 1⟩, 0⟩
        payloadHash := 0 } }

def noPurchases : PurchaseTables :=
  { FactTables.empty with connections := [], providerObjects := [] }

theorem noPurchases_new (input : IngestInput) : NewPurchase input noPurchases.toFactTables :=
  ⟨List.forall_mem_nil _, List.forall_mem_nil _⟩

def attemptFor (number statements : ℕ) : IngestAttempt :=
  { now := ⟨⟨2026, 2, 2⟩, 0⟩
    acquisitionId := number
    costId := fun left => 10 * number + left
    statements := statements }

theorem ingested_after_early_crash :
    (ingestEbayPurchase oneGood (attemptFor 2 5) noPurchases).1.hasReturned = true ∧
      Runs.Along (IngestRun.step oneGood) (IngestRun.Kept oneGood) (IngestRun.start noPurchases)
        [attemptFor 1 0, attemptFor 2 5] :=
  ⟨by decide +kernel, (ingested_iff (noPurchases_new oneGood) _).2
    ⟨fun _ => rfl, fun _ => by decide +kernel, trivial⟩⟩

theorem crash_before_costs_kept : ¬ ∀ (input : IngestInput) (tables : PurchaseTables),
    NewPurchase input tables.toFactTables → ∀ attempts : List IngestAttempt,
      Runs.Along (IngestRun.step input) (IngestRun.Kept input) (IngestRun.start tables)
        attempts := by
  intro hall
  have hkept := (hall oneGood noPurchases (noPurchases_new oneGood)
    [attemptFor 1 1, attemptFor 2 3]).last
  obtain ⟨a, ha, hcosted⟩ := hkept (by decide +kernel)
  have hgoods := hcosted ⟨"goods", .goods, "10.00"⟩ List.mem_cons_self (by decide)
  rw [costsOfType] at hgoods
  have hnone : (Runs.run (IngestRun.step oneGood) (IngestRun.start noPurchases)
      [attemptFor 1 1, attemptFor 2 3]).tables.acquisitionCosts.length = 0 := by decide +kernel
  rw [List.length_eq_zero_iff.1 hnone] at hgoods
  cases hgoods

end Loxep

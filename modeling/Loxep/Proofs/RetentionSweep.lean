import Loxep.Lib.Batches
import Loxep.Retention
import Mathlib.Data.Int.ConditionallyCompleteOrder

/-!
# When the retention sweep completes

A payload whose redactor fails stays at the head of the queue, and a batch of nothing else ends the
run.
-/

namespace Loxep

namespace RetainedPayload

variable (redactors : OrderPayloadRedactors)

def redactedBy (row : RetainedPayload) : Option JsonRecord :=
  (redactors.lookup row.objectType).bind fun redactor => (row.redactedPayload redactor).toOption

def succeeds (row : RetainedPayload) : Bool := (row.redactedBy redactors).isSome

end RetainedPayload

namespace RetainedPayloads

variable {s : RetainedPayloads} {types : List String} {cutoff now : EpochMicros}
variable {row row' : RetainedPayload} {payload : JsonRecord}

def pending (s : RetainedPayloads) (types : List String) : List RetainedPayload :=
  (s.rows.insertionSort fun a b => a.fetchedAt ≤ b.fetchedAt).filter fun row =>
    types.contains row.objectType && row.redactedAt.isNone

theorem findEligible_eq : s.findEligible types cutoff =
    (s.pending types).filter fun row => decide (row.fetchedAt < cutoff) := by
  unfold findEligible pending
  rw [List.filter_filter]
  refine List.filter_congr fun row _ => ?_
  rw [RetainedPayload.eligible, Bool.and_comm]

theorem mem_pending :
    row ∈ s.pending types ↔ row ∈ s.rows ∧ row.objectType ∈ types ∧ row.redactedAt = none := by
  simp [pending]

theorem mem_findEligible : row ∈ s.findEligible types cutoff ↔
    row ∈ s.rows ∧ row.eligible types cutoff = true := by
  simp [findEligible]

theorem findEligible_mono {later : EpochMicros} (hle : cutoff ≤ later)
    (h : row ∈ s.findEligible types cutoff) : row ∈ s.findEligible types later := by
  rw [findEligible_eq, List.mem_filter] at h ⊢
  exact ⟨h.1, decide_eq_true (lt_of_lt_of_le (of_decide_eq_true h.2) hle)⟩

theorem pending_pairwise :
    (s.pending types).Pairwise fun a b => a.fetchedAt ≤ b.fetchedAt := by
  have : Std.Total fun a b : RetainedPayload => a.fetchedAt ≤ b.fetchedAt :=
    ⟨fun a b => le_total a.fetchedAt b.fetchedAt⟩
  have : IsTrans RetainedPayload fun a b => a.fetchedAt ≤ b.fetchedAt :=
    ⟨fun _ _ _ => le_trans⟩
  exact (List.pairwise_insertionSort _ _).filter _

theorem rows_nodup : s.rows.Nodup := s.ids_nodup.of_map _

theorem pending_nodup : (s.pending types).Nodup :=
  ((List.perm_insertionSort _ _).nodup_iff.2 rows_nodup).filter _

theorem findEligible_nodup : (s.findEligible types cutoff).Nodup := by
  rw [findEligible_eq]
  exact pending_nodup.filter _

theorem eq_of_id (h : row ∈ s.rows) (h' : row' ∈ s.rows) (hid : row.id = row'.id) : row = row' :=
  List.inj_on_of_nodup_map s.ids_nodup h h' hid

theorem mem_claim_of_ne (h : row' ∈ s.rows) (hid : row'.id ≠ row.id) :
    row' ∈ (s.claim row.id now payload).rows :=
  List.mem_map.2 ⟨row', h, if_neg (by simp [unclaimed, hid])⟩

theorem pending_claim : (s.claim row.id now payload).pending types =
    (s.pending types).filter fun other => !(other.id == row.id) := by
  let f : RetainedPayload → RetainedPayload := fun other =>
    if unclaimed row.id other then other.redact now payload else other
  have hfetched : ∀ other, (f other).fetchedAt = other.fetchedAt := by
    intro other
    show (if unclaimed row.id other then other.redact now payload else other).fetchedAt = _
    split_ifs <;> rfl
  have hsort : ((s.rows.map f).insertionSort fun a b => a.fetchedAt ≤ b.fetchedAt) =
      (s.rows.insertionSort fun a b => a.fetchedAt ≤ b.fetchedAt).map f := by
    refine (List.map_insertionSort _ _ f s.rows fun a _ b _ => ?_).symm
    rw [hfetched, hfetched]
  have hother : ∀ other : RetainedPayload, other.id ≠ row.id → f other = other := by
    intro other hid
    show (if unclaimed row.id other then other.redact now payload else other) = other
    rw [if_neg (by simp [unclaimed, hid])]
  have hclaimed : (fun other : RetainedPayload =>
      types.contains other.objectType && other.redactedAt.isNone) ∘ f = fun other =>
      !(other.id == row.id) && (types.contains other.objectType && other.redactedAt.isNone) := by
    funext other
    by_cases hid : other.id = row.id
    · rcases hredacted : other.redactedAt with _ | at'
      · simp [f, unclaimed, hid, hredacted, RetainedPayload.redact]
      · simp [f, unclaimed, hid, hredacted]
    · simp [hother other hid, hid]
  unfold pending claim claimRows
  rw [hsort, List.filter_map, hclaimed, List.filter_filter]
  refine (List.map_congr_left fun other hmem => ?_).trans (List.map_id _)
  have hid := (List.mem_filter.1 hmem).2
  simp only [Bool.and_eq_true, Bool.not_eq_true', beq_eq_false_iff_ne] at hid
  exact hother other hid.1

end RetainedPayloads

namespace SweepProgress

variable {redactors : OrderPayloadRedactors} {now cutoff : EpochMicros} {p : SweepProgress}
variable {row : RetainedPayload} {rows : List RetainedPayload} {types : List String}

theorem sweepRow_of_redactedBy {payload : JsonRecord} (hrow : row ∈ p.table.rows)
    (hnone : row.redactedAt = none) (hpayload : row.redactedBy redactors = some payload) :
    p.sweepRow redactors now row = { p with
      table := p.table.claim row.id now payload
      redacted := p.redacted + 1
      progressed := p.progressed + 1 } := by
  obtain ⟨redactor, hredactor, hok⟩ := Option.bind_eq_some_iff.1 hpayload
  have hany : p.table.rows.any (RetainedPayloads.unclaimed row.id) = true :=
    List.any_eq_true.2 ⟨row, hrow, by simp [RetainedPayloads.unclaimed, hnone]⟩
  simp only [sweepRow, hredactor, Except.toOption_eq_some.1 hok, hany, if_true]

theorem sweepRow_of_none (hnone : row.redactedBy redactors = none) :
    (p.sweepRow redactors now row).table = p.table
      ∧ (p.sweepRow redactors now row).progressed = p.progressed
      ∧ (p.sweepRow redactors now row).batches = p.batches
      ∧ (p.sweepRow redactors now row).more = p.more := by
  rcases hredactor : redactors.lookup row.objectType with _ | redactor
  · simp [sweepRow, hredactor]
  · rcases hresult : row.redactedPayload redactor with e | payload
    · simp [sweepRow, hredactor, hresult]
    · simp [RetainedPayload.redactedBy, hredactor, hresult, Except.toOption] at hnone

def kept (redactors : OrderPayloadRedactors) (rows : List RetainedPayload) (other : RetainedPayload)
    : Bool :=
  !rows.any fun row => row.succeeds redactors && other.id == row.id

theorem kept_cons {other : RetainedPayload} : kept redactors (row :: rows) other =
    (!(row.succeeds redactors && other.id == row.id) && kept redactors rows other) := by
  rw [kept, kept, List.any_cons, Bool.not_or]

variable {P : RetainedPayloads → Prop} {later earlier : EpochMicros}

/-- The rows of a batch: those whose redactors succeed leave the queue, and what survives the
claim of every such row holds when they are through. -/
theorem sweepRows_spec
    (hclaim : ∀ t row payload, row ∈ rows → row ∈ t.rows → row.redactedAt = none →
      row.redactedBy redactors = some payload → P t → P (t.claim row.id now payload))
    (hrows : ∀ row ∈ rows, row ∈ p.table.rows ∧ row.redactedAt = none)
    (hnodup : (rows.map (·.id)).Nodup) (hp : P p.table) :
    P (rows.foldl (sweepRow redactors now) p).table
      ∧ (rows.foldl (sweepRow redactors now) p).progressed =
          p.progressed + rows.countP (·.succeeds redactors)
      ∧ (rows.foldl (sweepRow redactors now) p).batches = p.batches
      ∧ (rows.foldl (sweepRow redactors now) p).more = p.more
      ∧ ∀ types, (rows.foldl (sweepRow redactors now) p).table.pending types =
          (p.table.pending types).filter (kept redactors rows) := by
  induction rows generalizing p with
  | nil => exact ⟨hp, rfl, rfl, rfl, fun types => (List.filter_eq_self.2 fun _ _ => rfl).symm⟩
  | cons row rows ih =>
    obtain ⟨hid, hnodup⟩ := List.nodup_cons.1 hnodup
    obtain ⟨⟨hrow, hnone⟩, hrest⟩ := List.forall_mem_cons.1 hrows
    have hclaim' : ∀ t row payload, row ∈ rows → row ∈ t.rows → row.redactedAt = none →
        row.redactedBy redactors = some payload → P t → P (t.claim row.id now payload) :=
      fun t row payload hmem => hclaim t row payload (List.mem_cons_of_mem _ hmem)
    rw [List.foldl_cons, List.countP_cons]
    rcases hpayload : row.redactedBy redactors with _ | payload
    · have hfailed : (p.sweepRow redactors now row).table = p.table ∧ _ ∧ _ ∧ _ :=
        sweepRow_of_none hpayload
      obtain ⟨htable, hprogressed, hbatches, hmore⟩ := hfailed
      have hfails : row.succeeds redactors = false := by simp [RetainedPayload.succeeds, hpayload]
      have hspec := ih (p := p.sweepRow redactors now row) hclaim' (htable.symm ▸ hrest) hnodup
        (htable.symm ▸ hp)
      rw [htable, hprogressed, hbatches, hmore] at hspec
      have hkept : kept redactors (row :: rows) = kept redactors rows := by
        funext other
        simp [kept_cons, hfails]
      rw [hkept]
      simpa [hfails] using hspec
    · have hsucceeds : row.succeeds redactors = true := by
        simp [RetainedPayload.succeeds, hpayload]
      have hne : ∀ other ∈ rows, other.id ≠ row.id :=
        fun other hmem heq => hid (List.mem_map.2 ⟨other, hmem, heq⟩)
      rw [sweepRow_of_redactedBy hrow hnone hpayload]
      have hspec := ih (p := { p with
          table := p.table.claim row.id now payload
          redacted := p.redacted + 1
          progressed := p.progressed + 1 }) hclaim'
        (fun other hmem => ⟨RetainedPayloads.mem_claim_of_ne (hrest other hmem).1
          (hne other hmem), (hrest other hmem).2⟩) hnodup
        (hclaim p.table row payload List.mem_cons_self hrow hnone hpayload hp)
      obtain ⟨hp', hprogressed, hbatches, hmore, hpending⟩ := hspec
      refine ⟨hp', ?_, hbatches, hmore, fun types => ?_⟩
      · rw [hprogressed, if_pos hsucceeds]
        show p.progressed + 1 + _ = _
        omega
      · rw [hpending, RetainedPayloads.pending_claim, List.filter_filter]
        refine List.filter_congr fun other _ => ?_
        rw [kept_cons, hsucceeds, Bool.true_and, Bool.and_comm]

variable {batchSize maxBatches left : ℕ}

def nextBatch (p : SweepProgress) (redactors : OrderPayloadRedactors) (cutoff : EpochMicros)
    (batchSize : ℕ) : List RetainedPayload :=
  (p.table.findEligible (redactors.map (·.1)) cutoff).take batchSize

theorem mem_nextBatch (h : row ∈ p.nextBatch redactors cutoff batchSize) :
    row ∈ p.table.rows ∧ row.eligible (redactors.map (·.1)) cutoff = true :=
  RetainedPayloads.mem_findEligible.1 (List.mem_of_mem_take h)

theorem nextBatch_unredacted (h : row ∈ p.nextBatch redactors cutoff batchSize) :
    row ∈ p.table.rows ∧ row.redactedAt = none := by
  obtain ⟨hrow, heligible⟩ := mem_nextBatch h
  simp only [RetainedPayload.eligible, Bool.and_eq_true, Option.isNone_iff_eq_none] at heligible
  exact ⟨hrow, heligible.1.2⟩

theorem nextBatch_ids_nodup : ((p.nextBatch redactors cutoff batchSize).map (·.id)).Nodup := by
  refine List.Nodup.map_on (fun row hrow row' hrow' hid => ?_)
    (RetainedPayloads.findEligible_nodup.sublist (List.take_sublist _ _))
  exact RetainedPayloads.eq_of_id (mem_nextBatch hrow).1 (mem_nextBatch hrow').1 hid

theorem sweepBatch_spec
    (hclaim : ∀ t row payload, row ∈ p.nextBatch redactors cutoff batchSize → row ∈ t.rows →
      row.redactedAt = none → row.redactedBy redactors = some payload → P t →
        P (t.claim row.id now payload)) (hp : P p.table) :
    P (p.sweepBatch redactors now (p.nextBatch redactors cutoff batchSize)).table
      ∧ (p.sweepBatch redactors now (p.nextBatch redactors cutoff batchSize)).progressed =
          (p.nextBatch redactors cutoff batchSize).countP (·.succeeds redactors)
      ∧ (p.sweepBatch redactors now (p.nextBatch redactors cutoff batchSize)).batches =
          p.batches + 1
      ∧ (p.sweepBatch redactors now (p.nextBatch redactors cutoff batchSize)).more = p.more
      ∧ ∀ types, (p.sweepBatch redactors now
          (p.nextBatch redactors cutoff batchSize)).table.pending types =
          (p.table.pending types).filter
            (kept redactors (p.nextBatch redactors cutoff batchSize)) := by
  have hspec := sweepRows_spec (p := { p with
      batches := p.batches + 1
      scanned := p.scanned + (p.nextBatch redactors cutoff batchSize).length
      progressed := 0 }) hclaim (fun _ h => nextBatch_unredacted h) nextBatch_ids_nodup hp
  obtain ⟨hp', hprogressed, hrest⟩ := hspec
  exact ⟨hp', hprogressed.trans (Nat.zero_add _), hrest⟩

theorem progressed_sweepBatch :
    (p.sweepBatch redactors now (p.nextBatch redactors cutoff batchSize)).progressed =
      (p.nextBatch redactors cutoff batchSize).countP (·.succeeds redactors) :=
  (sweepBatch_spec (P := fun _ => True) (fun _ _ _ _ _ _ _ _ => trivial) trivial).2.1

theorem batches_sweepBatch :
    (p.sweepBatch redactors now (p.nextBatch redactors cutoff batchSize)).batches =
      p.batches + 1 :=
  (sweepBatch_spec (P := fun _ => True) (fun _ _ _ _ _ _ _ _ => trivial) trivial).2.2.1

theorem pending_sweepBatch :
    (p.sweepBatch redactors now (p.nextBatch redactors cutoff batchSize)).table.pending types =
      (p.table.pending types).filter (kept redactors (p.nextBatch redactors cutoff batchSize)) :=
  (sweepBatch_spec (P := fun _ => True) (fun _ _ _ _ _ _ _ _ => trivial) trivial).2.2.2.2 types

theorem findEligible_sweepBatch :
    (p.sweepBatch redactors now (p.nextBatch redactors cutoff batchSize)).table.findEligible types
        later =
      (p.table.findEligible types later).filter
        (kept redactors (p.nextBatch redactors cutoff batchSize)) := by
  rw [RetainedPayloads.findEligible_eq, RetainedPayloads.findEligible_eq, pending_sweepBatch,
    List.filter_filter, List.filter_filter]
  exact List.filter_congr fun _ _ => Bool.and_comm _ _

theorem kept_eq_true (hrow : row ∈ p.table.rows)
    (h : row ∈ p.nextBatch redactors cutoff batchSize → row.succeeds redactors = false) :
    kept redactors (p.nextBatch redactors cutoff batchSize) row = true := by
  simp only [kept, Bool.not_eq_true', List.any_eq_false, Bool.and_eq_true, beq_iff_eq]
  rintro other hother ⟨hsucceeds, hid⟩
  obtain rfl := RetainedPayloads.eq_of_id hrow (mem_nextBatch hother).1 hid
  simp [h hother] at hsucceeds

theorem kept_eq_false (h : row ∈ p.nextBatch redactors cutoff batchSize)
    (hsucceeds : row.succeeds redactors = true) :
    kept redactors (p.nextBatch redactors cutoff batchSize) row = false := by
  simp only [kept, Bool.not_eq_false', List.any_eq_true, Bool.and_eq_true, beq_iff_eq]
  exact ⟨row, h, hsucceeds, rfl⟩

theorem sweepBatches_succ : sweepBatches redactors now cutoff batchSize maxBatches (left + 1) p =
    if (p.nextBatch redactors cutoff batchSize).isEmpty then p
    else
      let swept := p.sweepBatch redactors now (p.nextBatch redactors cutoff batchSize)
      if swept.progressed = 0 then swept
      else if (p.nextBatch redactors cutoff batchSize).length < batchSize then swept
      else sweepBatches redactors now cutoff batchSize maxBatches left
        { swept with more := swept.more || decide (maxBatches ≤ swept.batches) } := rfl

theorem sweepBatches_induction (hbatch : ∀ p : SweepProgress, P p.table →
      P (p.sweepBatch redactors now (p.nextBatch redactors cutoff batchSize)).table)
    (hp : P p.table) :
    P (sweepBatches redactors now cutoff batchSize maxBatches left p).table := by
  induction left generalizing p with
  | zero => exact hp
  | succ left ih =>
    rw [sweepBatches_succ]
    simp only
    split_ifs
    · exact hp
    · exact hbatch p hp
    · exact hbatch p hp
    · exact ih (hbatch p hp)

theorem unblocked_sweepBatch {n : ℕ}
    (h : Batches.Unblocked (·.succeeds redactors) n (p.table.findEligible types later)) :
    Batches.Unblocked (·.succeeds redactors) n ((p.sweepBatch redactors now
      (p.nextBatch redactors cutoff batchSize)).table.findEligible types later) := by
  rw [findEligible_sweepBatch]
  exact h.filter

def Exhausted (redactors : OrderPayloadRedactors) (cutoff : EpochMicros) (s : RetainedPayloads) :
    Prop :=
  ∀ row ∈ s.findEligible (redactors.map (·.1)) cutoff, row.succeeds redactors = false

theorem exhausted_of_isEmpty (hbatch : 0 < batchSize)
    (h : (p.nextBatch redactors cutoff batchSize).isEmpty = true) :
    Exhausted redactors cutoff p.table := by
  rw [nextBatch, List.isEmpty_iff, List.take_eq_nil_iff] at h
  intro row hrow
  rw [h.resolve_left (by omega)] at hrow
  exact absurd hrow List.not_mem_nil

theorem exhausted_of_progressed (h : Batches.Unblocked (·.succeeds redactors) batchSize
      (p.table.findEligible (redactors.map (·.1)) cutoff))
    (hprogressed :
      (p.sweepBatch redactors now (p.nextBatch redactors cutoff batchSize)).progressed = 0) :
    Exhausted redactors cutoff
      (p.sweepBatch redactors now (p.nextBatch redactors cutoff batchSize)).table := by
  rw [progressed_sweepBatch, List.countP_eq_zero] at hprogressed
  intro row hrow
  rw [findEligible_sweepBatch] at hrow
  exact h.eq_false_of_take (fun other hother => by simpa using hprogressed other hother)
    (List.mem_filter.1 hrow).1

theorem exhausted_of_short (hshort : (p.nextBatch redactors cutoff batchSize).length < batchSize) :
    Exhausted redactors cutoff
      (p.sweepBatch redactors now (p.nextBatch redactors cutoff batchSize)).table := by
  have hall : p.nextBatch redactors cutoff batchSize =
      p.table.findEligible (redactors.map (·.1)) cutoff := by
    refine List.take_of_length_le ?_
    rw [nextBatch, List.length_take] at hshort
    omega
  intro row hrow
  rw [findEligible_sweepBatch] at hrow
  obtain ⟨hmem, hkept⟩ := List.mem_filter.1 hrow
  rw [← hall] at hmem
  by_contra hsucceeds
  rw [kept_eq_false hmem (by simpa using hsucceeds)] at hkept
  cases hkept

theorem exhausted_of_more (hbatch : 0 < batchSize)
    (h : Batches.Unblocked (·.succeeds redactors) batchSize
      (p.table.findEligible (redactors.map (·.1)) cutoff))
    (hleft : maxBatches = p.batches + (left + 1))
    (hmore : (sweepBatches redactors now cutoff batchSize maxBatches (left + 1) p).more = false) :
    Exhausted redactors cutoff
      (sweepBatches redactors now cutoff batchSize maxBatches (left + 1) p).table := by
  induction left generalizing p with
  | zero =>
    rw [sweepBatches_succ] at hmore ⊢
    simp only at hmore ⊢
    split_ifs at hmore ⊢ with hempty hprogressed hshort
    · exact exhausted_of_isEmpty hbatch hempty
    · exact exhausted_of_progressed h hprogressed
    · exact exhausted_of_short hshort
    · simp [sweepBatches, batches_sweepBatch, hleft] at hmore
  | succ left ih =>
    rw [sweepBatches_succ] at hmore ⊢
    simp only at hmore ⊢
    split_ifs at hmore ⊢ with hempty hprogressed hshort
    · exact exhausted_of_isEmpty hbatch hempty
    · exact exhausted_of_progressed h hprogressed
    · exact exhausted_of_short hshort
    · refine ih (unblocked_sweepBatch h) ?_ hmore
      show maxBatches = (p.sweepBatch redactors now _).batches + _
      rw [batches_sweepBatch]
      omega

theorem countP_sweepBatch_le :
    ((p.sweepBatch redactors now (p.nextBatch redactors cutoff batchSize)).table.findEligible types
        earlier).countP (·.succeeds redactors) ≤
      (p.table.findEligible types earlier).countP (·.succeeds redactors) := by
  rw [findEligible_sweepBatch]
  exact List.filter_sublist.countP_le

theorem countP_sweepBatch_lt (hle : earlier ≤ cutoff)
    (h : Batches.Unblocked (·.succeeds redactors) batchSize
      (p.table.findEligible (redactors.map (·.1)) cutoff))
    (hrow : row ∈ p.table.findEligible (redactors.map (·.1)) earlier)
    (hsucceeds : row.succeeds redactors = true) :
    ((p.sweepBatch redactors now (p.nextBatch redactors cutoff batchSize)).table.findEligible
        (redactors.map (·.1)) earlier).countP (·.succeeds redactors) <
      (p.table.findEligible (redactors.map (·.1)) earlier).countP (·.succeeds redactors) := by
  have hsorted : (p.table.findEligible (redactors.map (·.1)) cutoff).Pairwise
      fun a b => b.fetchedAt < earlier → a.fetchedAt < earlier := by
    rw [RetainedPayloads.findEligible_eq]
    exact (RetainedPayloads.pending_pairwise.imp fun hab hb => lt_of_le_of_lt hab hb).filter _
  have hqueue := RetainedPayloads.findEligible_mono hle hrow
  rw [RetainedPayloads.findEligible_eq, List.mem_filter] at hrow
  have hold := of_decide_eq_true hrow.2
  obtain ⟨first, hfirst, hgood, hfirstOld⟩ := h.exists_mem_take hsorted hqueue hsucceeds hold
  rw [findEligible_sweepBatch, List.countP_eq_length_filter, List.countP_eq_length_filter,
    List.filter_comm]
  refine List.length_filter_lt_length_iff_exists.2 ⟨first, ?_, ?_⟩
  · have hmem := List.mem_of_mem_take hfirst
    rw [RetainedPayloads.findEligible_eq, List.mem_filter] at hmem
    rw [RetainedPayloads.findEligible_eq]
    exact List.mem_filter.2 ⟨List.mem_filter.2 ⟨hmem.1, decide_eq_true hfirstOld⟩, hgood⟩
  · rw [kept_eq_false hfirst hgood]
    decide

theorem notMem_nextBatch_of_blocked (h : Batches.Blocked (·.succeeds redactors) batchSize
      (p.table.pending (redactors.map (·.1))) row) :
    row ∉ p.nextBatch redactors cutoff batchSize := by
  intro hmem
  have hold : decide (row.fetchedAt < cutoff) = true := by
    have heligible := (mem_nextBatch hmem).2
    simp only [RetainedPayload.eligible, Bool.and_eq_true] at heligible
    exact heligible.2
  have hblocked : Batches.Blocked (·.succeeds redactors) batchSize
      (p.table.findEligible (redactors.map (·.1)) cutoff) row := by
    rw [RetainedPayloads.findEligible_eq]
    refine h.filter_of_pairwise hold (RetainedPayloads.pending_pairwise.imp fun hab hb => ?_)
    exact decide_eq_true (lt_of_le_of_lt hab (of_decide_eq_true hb))
  exact hblocked.notMem_take RetainedPayloads.findEligible_nodup hmem

theorem blocked_sweepBatch (h : Batches.Blocked (·.succeeds redactors) batchSize
      (p.table.pending (redactors.map (·.1))) row) :
    Batches.Blocked (·.succeeds redactors) batchSize ((p.sweepBatch redactors now
      (p.nextBatch redactors cutoff batchSize)).table.pending (redactors.map (·.1))) row := by
  have hrows : ∀ other ∈ p.table.pending (redactors.map (·.1)), other ∈ p.table.rows :=
    fun other hmem => (RetainedPayloads.mem_pending.1 hmem).1
  rw [pending_sweepBatch]
  refine h.filter (kept_eq_true (hrows row h.mem) fun hmem =>
    absurd hmem (notMem_nextBatch_of_blocked h)) fun before after heq other hmem hfails => ?_
  exact kept_eq_true (hrows other (by simp [heq, hmem])) fun _ => hfails

end SweepProgress

def RedactedOnce (redactors : OrderPayloadRedactors) (clock : ℕ → EpochMicros)
    (row row' : RetainedPayload) : Prop :=
  row' = row ∨ row.redactedAt = none ∧ ∃ k payload, row.redactedBy redactors = some payload
    ∧ row' = row.redact (clock k) payload

structure KeptOrRedacted (redactors : OrderPayloadRedactors) (clock : ℕ → EpochMicros)
    (s t : RetainedPayloads) : Prop where
  ids : t.rows.map (·.id) = s.rows.map (·.id)
  rows : ∀ row' ∈ t.rows, ∃ row ∈ s.rows, RedactedOnce redactors clock row row'

section Kept

variable {redactors : OrderPayloadRedactors} {clock : ℕ → EpochMicros} {s t : RetainedPayloads}
variable {row row' : RetainedPayload} {payload : JsonRecord}

theorem RedactedOnce.id_eq (h : RedactedOnce redactors clock row row') : row'.id = row.id := by
  rcases h with rfl | ⟨-, k, payload, -, rfl⟩ <;> rfl

theorem KeptOrRedacted.refl : KeptOrRedacted redactors clock s s :=
  ⟨rfl, fun row hrow => ⟨row, hrow, .inl rfl⟩⟩

theorem KeptOrRedacted.exists_row (h : KeptOrRedacted redactors clock s t) (hrow : row ∈ s.rows) :
    ∃ row' ∈ t.rows, RedactedOnce redactors clock row row' := by
  have hid : row.id ∈ t.rows.map (·.id) := h.ids ▸ List.mem_map_of_mem hrow
  obtain ⟨row', hrow', hid⟩ := List.mem_map.1 hid
  obtain ⟨before, hbefore, honce⟩ := h.rows row' hrow'
  obtain rfl := RetainedPayloads.eq_of_id hrow hbefore (hid.symm.trans honce.id_eq)
  exact ⟨row', hrow', honce⟩

theorem KeptOrRedacted.claim (h : KeptOrRedacted redactors clock s t) {k : ℕ} (hrow : row ∈ t.rows)
    (hnone : row.redactedAt = none) (hpayload : row.redactedBy redactors = some payload) :
    KeptOrRedacted redactors clock s (t.claim row.id (clock k) payload) := by
  refine ⟨RetainedPayloads.claimRows_ids.trans h.ids, fun row'' hrow'' => ?_⟩
  obtain ⟨other, hother, rfl⟩ := List.mem_map.1 hrow''
  obtain ⟨base, hbase, honce⟩ := h.rows other hother
  refine ⟨base, hbase, ?_⟩
  by_cases hclaimed : RetainedPayloads.unclaimed row.id other = true
  · rw [if_pos hclaimed]
    simp only [RetainedPayloads.unclaimed, Bool.and_eq_true, beq_iff_eq] at hclaimed
    obtain rfl := RetainedPayloads.eq_of_id hother hrow hclaimed.1
    rcases honce with rfl | ⟨-, j, before, -, rfl⟩
    · exact .inr ⟨hnone, k, payload, hpayload, rfl⟩
    · cases hnone
  · rw [if_neg hclaimed]
    exact honce

end Kept

section Runs

variable {options : RedactionSweepOptions} {clock : ℕ → EpochMicros} {now : EpochMicros}
variable {s : RetainedPayloads} {row : RetainedPayload}

def redactionOf (options : RedactionSweepOptions) (now : EpochMicros) (s : RetainedPayloads) :
    SweepProgress :=
  SweepProgress.sweepBatches options.redactors now (options.cutoff now) options.batchSize.toNat
    options.maxBatches.toNat (if options.redactors = [] then 0 else options.maxBatches.toNat)
    { table := s }

/-- The options of a run that is not refused and has something to do. -/
structure RedactionSweepOptions.Redacting (options : RedactionSweepOptions) : Prop where
  batchSize : 1 ≤ options.batchSize
  maxBatches : 1 ≤ options.maxBatches
  mode : options.policy.mode = .redact

theorem run_eq_ok (h : options.Redacting) (now : EpochMicros) (s : RetainedPayloads) : ∃ result,
    runOrderPayloadRedactionSweep options now s = .ok (result, (redactionOf options now s).table)
      ∧ result.more = (redactionOf options now s).more := by
  unfold runOrderPayloadRedactionSweep
  rw [Except.require_of h.batchSize, Except.require_of h.maxBatches, h.mode]
  exact ⟨_, rfl, rfl⟩

theorem sweeps_succ (h : options.Redacting) {k : ℕ} : s.sweeps options clock (k + 1) =
    (redactionOf options (clock k) (s.sweeps options clock k)).table := by
  obtain ⟨result, hrun, -⟩ := run_eq_ok h (clock k) (s.sweeps options clock k)
  rw [RetainedPayloads.sweeps]
  simp only [hrun]

/-- Rows are kept, and redacted at most once; every row that is old enough at some time and can be
redacted is redacted from some run on; and a run reports more unless it has left nothing to redact.
-/
structure SweepCompletes (options : RedactionSweepOptions) (clock : ℕ → EpochMicros)
    (s : RetainedPayloads) : Prop where
  kept : ∀ k, KeptOrRedacted options.redactors clock s (s.sweeps options clock k)
  redacted : ∀ k, ∀ row ∈ s.findEligible (options.redactors.map (·.1)) (options.cutoff (clock k)),
    ∀ payload, row.redactedBy options.redactors = some payload →
      ∃ n j, ∀ m, n ≤ m → row.redact (clock j) payload ∈ (s.sweeps options clock m).rows
  more : ∀ k result t,
    runOrderPayloadRedactionSweep options (clock k) (s.sweeps options clock k) = .ok (result, t) →
      result.more = false →
        SweepProgress.Exhausted options.redactors (options.cutoff (clock k)) t

variable {P : RetainedPayloads → Prop} {n m : ℕ}

theorem redactionOf_induction
    (hbatch : ∀ p : SweepProgress, P p.table → P (p.sweepBatch options.redactors now
      (p.nextBatch options.redactors (options.cutoff now) options.batchSize.toNat)).table)
    (hs : P s) : P (redactionOf options now s).table :=
  SweepProgress.sweepBatches_induction hbatch hs

section

variable (h : options.Redacting)
include h

theorem sweeps_induction (hbatch : ∀ (k : ℕ) (p : SweepProgress), P p.table →
      P (p.sweepBatch options.redactors (clock k) (p.nextBatch options.redactors
        (options.cutoff (clock k)) options.batchSize.toNat)).table) (hle : n ≤ m)
    (hs : P (s.sweeps options clock n)) : P (s.sweeps options clock m) := by
  induction m, hle using Nat.le_induction with
  | base => exact hs
  | succ m _ ih =>
    rw [sweeps_succ h]
    exact redactionOf_induction (hbatch m) ih

theorem keptOrRedacted_sweeps (hle : n ≤ m) :
    KeptOrRedacted options.redactors clock (s.sweeps options clock n)
      (s.sweeps options clock m) := by
  refine sweeps_induction h (fun k p hp => ?_) hle .refl
  refine (SweepProgress.sweepBatch_spec (fun t row payload _ hrow hnone hpayload ht => ?_) hp).1
  exact ht.claim hrow hnone hpayload

theorem unblocked_sweeps {later : EpochMicros} {types : List String}
    (hs : Batches.Unblocked (·.succeeds options.redactors) n
      (s.findEligible types later)) (m : ℕ) :
    Batches.Unblocked (·.succeeds options.redactors) n
      ((s.sweeps options clock m).findEligible types later) := by
  refine sweeps_induction (P := fun t => Batches.Unblocked (·.succeeds options.redactors) n
    (t.findEligible types later)) h (fun k p hp => ?_) (Nat.zero_le m) hs
  exact SweepProgress.unblocked_sweepBatch hp

theorem blocked_sweeps (hs : Batches.Blocked (·.succeeds options.redactors) options.batchSize.toNat
      (s.pending (options.redactors.map (·.1))) row) (m : ℕ) :
    Batches.Blocked (·.succeeds options.redactors) options.batchSize.toNat
      ((s.sweeps options clock m).pending (options.redactors.map (·.1))) row := by
  refine sweeps_induction (P := fun t => Batches.Blocked (·.succeeds options.redactors)
    options.batchSize.toNat (t.pending (options.redactors.map (·.1))) row) h
    (fun k p hp => ?_) (Nat.zero_le m) hs
  exact SweepProgress.blocked_sweepBatch hp

theorem exhausted_redactionOf
    (hs : Batches.Unblocked (·.succeeds options.redactors) options.batchSize.toNat
      (s.findEligible (options.redactors.map (·.1)) (options.cutoff now)))
    (hmore : (redactionOf options now s).more = false) :
    SweepProgress.Exhausted options.redactors (options.cutoff now)
      (redactionOf options now s).table := by
  by_cases hredactors : options.redactors = []
  · intro row _
    simp [RetainedPayload.succeeds, RetainedPayload.redactedBy, hredactors]
  · have hbatch : 0 < options.batchSize.toNat := by
      have := h.batchSize
      omega
    obtain ⟨left, hleft⟩ : ∃ left, options.maxBatches.toNat = left + 1 :=
      ⟨options.maxBatches.toNat - 1, by have := h.maxBatches; omega⟩
    unfold redactionOf at hmore ⊢
    rw [if_neg hredactors] at hmore ⊢
    rw [hleft] at hmore ⊢
    exact SweepProgress.exhausted_of_more hbatch hs (by simp) hmore

theorem countP_redactionOf_lt {earlier : EpochMicros} (hle : earlier ≤ options.cutoff now)
    (hs : Batches.Unblocked (·.succeeds options.redactors) options.batchSize.toNat
      (s.findEligible (options.redactors.map (·.1)) (options.cutoff now)))
    (hrow : row ∈ s.findEligible (options.redactors.map (·.1)) earlier)
    (hsucceeds : row.succeeds options.redactors = true) :
    ((redactionOf options now s).table.findEligible (options.redactors.map (·.1)) earlier).countP
        (·.succeeds options.redactors) <
      (s.findEligible (options.redactors.map (·.1)) earlier).countP
        (·.succeeds options.redactors) := by
  have hredactors : options.redactors ≠ [] := by
    intro hnil
    simp [RetainedPayload.succeeds, RetainedPayload.redactedBy, hnil] at hsucceeds
  obtain ⟨left, hleft⟩ : ∃ left, options.maxBatches.toNat = left + 1 :=
    ⟨options.maxBatches.toNat - 1, by have := h.maxBatches; omega⟩
  let P : RetainedPayloads → Prop := fun t =>
    (t.findEligible (options.redactors.map (·.1)) earlier).countP (·.succeeds options.redactors) <
      (s.findEligible (options.redactors.map (·.1)) earlier).countP (·.succeeds options.redactors)
  have hfirst : P (SweepProgress.sweepBatch options.redactors now { table := s }
      (SweepProgress.nextBatch { table := s } options.redactors (options.cutoff now)
        options.batchSize.toNat)).table :=
    SweepProgress.countP_sweepBatch_lt (p := { table := s }) hle hs hrow hsucceeds
  have hnonempty : (SweepProgress.nextBatch { table := s } options.redactors (options.cutoff now)
      options.batchSize.toNat).isEmpty ≠ true := by
    intro hempty
    have hbatch : 0 < options.batchSize.toNat := by
      have := h.batchSize
      omega
    have hnone := SweepProgress.exhausted_of_isEmpty hbatch hempty row
      (RetainedPayloads.findEligible_mono hle hrow)
    rw [hsucceeds] at hnone
    cases hnone
  unfold redactionOf
  rw [if_neg hredactors]
  rw [hleft]
  rw [SweepProgress.sweepBatches_succ, if_neg hnonempty]
  simp only
  split_ifs
  · exact hfirst
  · exact hfirst
  · exact SweepProgress.sweepBatches_induction (P := P)
      (fun p hp => lt_of_le_of_lt SweepProgress.countP_sweepBatch_le hp) hfirst

theorem exhausted_sweeps (hclock : Monotone clock)
    (hs : ∀ k, Batches.Unblocked (·.succeeds options.redactors) options.batchSize.toNat
      (s.findEligible (options.redactors.map (·.1)) (options.cutoff (clock k)))) (k : ℕ) :
    ∃ n, SweepProgress.Exhausted options.redactors (options.cutoff (clock k))
      (s.sweeps options clock n) := by
  by_contra hnever
  push Not at hnever
  let count : ℕ → ℕ := fun m => ((s.sweeps options clock m).findEligible
    (options.redactors.map (·.1)) (options.cutoff (clock k))).countP (·.succeeds options.redactors)
  have hdrop : ∀ m, k ≤ m → count (m + 1) < count m := by
    intro m hm
    have hleft := hnever m
    unfold SweepProgress.Exhausted at hleft
    push Not at hleft
    obtain ⟨row, hrow, hsucceeds⟩ := hleft
    have hcutoff : options.cutoff (clock k) ≤ options.cutoff (clock m) :=
      sub_le_sub_right (hclock hm) _
    show ((s.sweeps options clock (m + 1)).findEligible _ _).countP _ < _
    rw [sweeps_succ h]
    exact countP_redactionOf_lt h hcutoff (unblocked_sweeps h (hs m) m) hrow
      (by simpa using hsucceeds)
  have hbound : ∀ j, count (k + j) + j ≤ count k := by
    intro j
    induction j with
    | zero => exact le_rfl
    | succ j ih =>
      have hstep := hdrop (k + j) (by omega)
      show count (k + j + 1) + (j + 1) ≤ count k
      omega
  have := hbound (count k + 1)
  omega

end

/-- The sweep completes exactly when no payload that can be redacted and gets old enough has a
batch of failing ones before it. -/
theorem sweep_completes_iff (h : options.Redacting) (hclock : Monotone clock) (s : RetainedPayloads)
    : SweepCompletes options clock s ↔
      ∀ k, Batches.Unblocked (·.succeeds options.redactors) options.batchSize.toNat
        (s.findEligible (options.redactors.map (·.1)) (options.cutoff (clock k))) := by
  constructor
  · intro hcompletes k row hsucceeds hblocked
    obtain ⟨payload, hpayload⟩ := Option.isSome_iff_exists.1 hsucceeds
    obtain ⟨n, j, hredacted⟩ := hcompletes.redacted k row hblocked.mem payload hpayload
    rw [RetainedPayloads.findEligible_eq] at hblocked
    have hpending : row ∈ (s.sweeps options clock n).pending (options.redactors.map (·.1)) :=
      (blocked_sweeps h hblocked.of_filter n).mem
    obtain ⟨hrow, -, hnone⟩ := RetainedPayloads.mem_pending.1 hpending
    have heq := RetainedPayloads.eq_of_id hrow (hredacted n le_rfl) rfl
    rw [heq] at hnone
    cases hnone
  · intro hs
    refine ⟨fun k => keptOrRedacted_sweeps h (Nat.zero_le k), fun k row hrow payload hpayload => ?_,
      fun k result t hrun hmore => ?_⟩
    · obtain ⟨n, hexhausted⟩ := exhausted_sweeps h hclock hs k
      obtain ⟨hmem, heligible⟩ := RetainedPayloads.mem_findEligible.1 hrow
      obtain ⟨row', hrow', honce⟩ := (keptOrRedacted_sweeps h (Nat.zero_le n)).exists_row hmem
      rcases honce with rfl | ⟨-, j, payload', hpayload', rfl⟩
      · have hfails := hexhausted row' (RetainedPayloads.mem_findEligible.2 ⟨hrow', heligible⟩)
        simp [RetainedPayload.succeeds, hpayload] at hfails
      · obtain rfl : payload = payload' := Option.some.inj (hpayload.symm.trans hpayload')
        refine ⟨n, j, fun m hm => ?_⟩
        obtain ⟨row'', hrow'', honce⟩ := (keptOrRedacted_sweeps h hm).exists_row hrow'
        rcases honce with rfl | ⟨hnone, -⟩
        · exact hrow''
        · cases hnone
    · obtain ⟨result', hrun', hmore'⟩ := run_eq_ok h (clock k) (s.sweeps options clock k)
      rw [hrun'] at hrun
      obtain ⟨rfl, rfl⟩ := Prod.mk.inj (Except.ok.inj hrun)
      exact exhausted_redactionOf h (unblocked_sweeps h (hs k) k) (hmore'.symm.trans hmore)

end Runs

section Examples

def picky : OrderPayloadRedactor := fun payload =>
  if payload.isEmpty then .error "unreadable order" else .ok (.object payload)

def pickyOptions : RedactionSweepOptions where
  redactors := [(WOO_ORDER_OBJECT_TYPE, picky)]
  policy := ⟨.redact, 180⟩
  batchSize := 1
  maxBatches := 25

theorem pickyOptions_redacting : pickyOptions.Redacting := ⟨by decide, by decide, rfl⟩

def unreadableFirst : RetainedPayloads where
  rows := [
    { id := 1, objectType := WOO_ORDER_OBJECT_TYPE, fetchedAt := 0, payload := [],
      payloadHash := "a" },
    { id := 2, objectType := WOO_ORDER_OBJECT_TYPE, fetchedAt := 1, payload := [("id", .null)],
      payloadHash := "b" }]
  ids_nodup := by decide

def readableOnly : RetainedPayloads where
  rows := [
    { id := 2, objectType := WOO_ORDER_OBJECT_TYPE, fetchedAt := 1, payload := [("id", .null)],
      payloadHash := "b" }]
  ids_nodup := by decide

def yearsLater : ℕ → EpochMicros := fun _ => 1000 * microsPerDay

theorem sweep_starves : ¬ ∀ (options : RedactionSweepOptions) (clock : ℕ → EpochMicros)
    (s : RetainedPayloads), options.Redacting → Monotone clock →
    SweepCompletes options clock s := by
  intro hall
  have hcompletes := hall pickyOptions yearsLater unreadableFirst pickyOptions_redacting
    monotone_const
  obtain ⟨result, hrun, hmore⟩ := run_eq_ok pickyOptions_redacting (yearsLater 0) unreadableFirst
  have hexhausted := hcompletes.more 0 result _ hrun (hmore.trans (by decide +kernel))
  unfold SweepProgress.Exhausted at hexhausted
  revert hexhausted
  decide +kernel

theorem sweep_completes_readable : SweepCompletes pickyOptions yearsLater readableOnly := by
  refine (sweep_completes_iff pickyOptions_redacting monotone_const readableOnly).2 fun k => ?_
  exact Batches.unblocked_of_countP_lt (by decide +kernel)

end Examples

end Loxep

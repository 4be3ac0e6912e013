import Loxep.TimeEntries

/-!
# What a time entry bills

Recording an entry makes its billable minutes from its minutes and its billability; an update makes
them zero when it turns billability off, and otherwise leaves what stands there.
-/

namespace Loxep

namespace WorkTables

variable {t t' : WorkTables} {id k : TimeEntryId} {row before : TimeEntryRow}
  {assign : TimeEntryRow → TimeEntryRow} {now : Timestamp}

theorem load_eq_ok : t.load id = .ok row ↔ t.entry id = some row := by
  unfold load
  cases t.entry id <;> simp

theorem checkRow_eq_ok :
    t.checkRow row = .ok () ↔ row.refusal = none ∧ t.danglingKey row = none := by
  unfold checkRow
  cases row.refusal <;> cases t.danglingKey row <;> simp

theorem entry_id (h : t.entry id = some row) : row.id = id := KeyedTable.get_key h

theorem entry_written (assign : TimeEntryRow → TimeEntryRow) (hid : ∀ row, (assign row).id = row.id)
    :
    (t.written id assign).entry k = if k = id then (t.entry k).map assign else t.entry k :=
  KeyedTable.get_set fun row hrow => (hid row).trans hrow

variable {r : TimeEntryRow × WorkTables}

theorem edit_eq_ok (assign : TimeEntryRow → TimeEntryRow) (hid : ∀ row, (assign row).id = row.id)
    (hbefore : t.entry id = some before) :
    (do
      let t ← t.updateEntry before.id assign
      let row ← t.load before.id
      return (row, t)) = Except.ok r ↔
      t.checkRow (assign before) = .ok () ∧ r = (assign before, t.written id assign) := by
  have hentry : (t.written id assign).entry id = some (assign before) := by
    rw [entry_written assign hid, if_pos rfl, hbefore, Option.map_some]
  rw [entry_id hbefore]
  simp only [updateEntry, hbefore, Except.bind_eq_ok, Except.pure_eq_ok]
  constructor
  · rintro ⟨_, ⟨u, hcheck, rfl⟩, read, hread, rfl⟩
    have hread' : (t.written id assign).entry id = some read := load_eq_ok.1 hread
    rw [hentry, Option.some.injEq] at hread'
    exact ⟨hcheck, by rw [← hread']⟩
  · rintro ⟨hcheck, rfl⟩
    exact ⟨_, ⟨(), hcheck, rfl⟩, assign before, load_eq_ok.2 hentry, rfl⟩

theorem insertEntry_eq_ok :
    t.insertEntry row = .ok t' ↔ t.entry row.id = none ∧ t.checkRow row = .ok () ∧
      t' = { t with timeEntries := t.timeEntries ++ [row] } := by
  simp only [insertEntry, Except.bind_eq_ok, Except.require_eq_ok, Except.pure_eq_ok]
  constructor
  · rintro ⟨_, hfree, _, hcheck, rfl⟩
    exact ⟨hfree, hcheck, rfl⟩
  · rintro ⟨hfree, hcheck, rfl⟩
    exact ⟨(), hfree, (), hcheck, rfl⟩

theorem entry_append :
    ({ t with timeEntries := t.timeEntries ++ [row] } : WorkTables).entry k =
      (t.entry k).or (if row.id = k then some row else none) := KeyedTable.get_append

theorem record_eq_ok {input : RecordTimeEntryInput} (h : t.record input id now = .ok r) :
    r.1.id = id ∧ r.1.billableMinutes =
        input.billableMinutes.getD (if r.1.billable then r.1.minutes else 0) ∧
      t.entry id = none ∧ t.checkRow r.1 = .ok () ∧
        r.2 = { t with timeEntries := t.timeEntries ++ [r.1] } := by
  simp only [record, RecordTimeEntryInput.parse, Except.bind_eq_ok, Except.pure_eq_ok] at h
  obtain ⟨_, ⟨_, _, rfl⟩, ⟨counterpartyId, economicEntityId⟩, _, currency, _, t', hinsert, rfl⟩ := h
  obtain ⟨hfree, hcheck, rfl⟩ := insertEntry_eq_ok.1 hinsert
  exact ⟨rfl, rfl, hfree, hcheck, rfl⟩

theorem update_eq_ok {input : UpdateTimeEntryInput} :
    t.update input now = .ok r ↔ input.trimmed.issues = [] ∧
      ∃ before, t.entry input.timeEntryId = some before ∧ input.trimmed.check before = .ok () ∧
        t.checkRow (input.trimmed.assign before now before) = .ok () ∧
        r = (input.trimmed.assign before now before,
          t.written input.timeEntryId (input.trimmed.assign before now)) := by
  simp only [update, UpdateTimeEntryInput.parse, refuseIssues, Except.bind_eq_ok,
    Except.require_eq_ok, Except.pure_eq_ok]
  constructor
  · rintro ⟨_, ⟨_, hissues, rfl⟩, before, hload, _, hcheck, hedit⟩
    have hbefore : t.entry input.timeEntryId = some before := load_eq_ok.1 hload
    have hedit' := (edit_eq_ok (input.trimmed.assign before now) (fun _ => rfl)
      hbefore (r := r)).1 (by simpa only [Except.bind_eq_ok, Except.pure_eq_ok] using hedit)
    exact ⟨hissues, before, hbefore, hcheck, hedit'⟩
  · rintro ⟨hissues, before, hbefore, hcheck, hedit⟩
    refine ⟨_, ⟨(), hissues, rfl⟩, before, load_eq_ok.2 hbefore, (), hcheck, ?_⟩
    simpa only [Except.bind_eq_ok, Except.pure_eq_ok] using
      (edit_eq_ok (input.trimmed.assign before now) (fun _ => rfl) hbefore).2 hedit

theorem approve_eq_ok {user : String} (h : t.approve id user now = .ok r) :
    ∃ before, t.entry id = some before ∧
      t.checkRow (before.approved user now) = .ok () ∧
      r = (before.approved user now, t.written id (TimeEntryRow.approved user now)) := by
  simp only [approve, Except.bind_eq_ok, Except.require_eq_ok, Except.pure_eq_ok] at h
  obtain ⟨before, hload, _, _, hedit⟩ := h
  have hbefore : t.entry id = some before := load_eq_ok.1 hload
  refine ⟨before, hbefore,
    (edit_eq_ok (TimeEntryRow.approved user now) (fun _ => rfl) hbefore).1 ?_⟩
  simpa only [Except.bind_eq_ok, Except.pure_eq_ok] using hedit

theorem reresolveRates_eq_ok (h : t.reresolveRates id now = .ok r) :
    ∃ before bill cost, t.entry id = some before ∧
      t.checkRow (before.rerated bill cost now) = .ok () ∧
      r = (before.rerated bill cost now, t.written id (TimeEntryRow.rerated bill cost now)) := by
  simp only [reresolveRates, Except.bind_eq_ok, Except.require_eq_ok, Except.pure_eq_ok] at h
  obtain ⟨before, hload, _, _, _, _, hedit⟩ := h
  have hbefore : t.entry id = some before := load_eq_ok.1 hload
  refine ⟨before, resolveRate t.billingRates (ladderOf before .bill),
    resolveRate t.billingRates (ladderOf before .cost), hbefore,
    (edit_eq_ok (TimeEntryRow.rerated _ _ now) (fun _ => rfl) hbefore).1 ?_⟩
  simpa only [Except.bind_eq_ok, Except.pure_eq_ok] using hedit

/-- Every stored entry is one the database would take again. -/
def Sound (t : WorkTables) : Prop :=
  ∀ k row, t.entry k = some row → t.checkRow row = .ok ()

theorem Sound.append (hs : t.Sound) (hcheck : t.checkRow row = .ok ()) :
    ({ t with timeEntries := t.timeEntries ++ [row] } : WorkTables).Sound := by
  intro k found hfound
  rw [entry_append] at hfound
  rcases hold : t.entry k with _ | old
  · rw [hold, Option.none_or] at hfound
    split_ifs at hfound
    cases hfound
    exact hcheck
  · rw [hold, Option.some_or] at hfound
    cases hfound
    exact hs k _ hold

theorem Sound.written (hs : t.Sound) (hid : ∀ row, (assign row).id = row.id)
    (hcheck : ∀ before, t.entry id = some before → t.checkRow (assign before) = .ok ()) :
    (t.written id assign).Sound := by
  intro k found hfound
  rw [entry_written assign hid] at hfound
  split_ifs at hfound with hk
  · obtain ⟨before, hbefore, rfl⟩ := Option.map_eq_some_iff.1 hfound
    exact hcheck before (hk ▸ hbefore)
  · exact hs k found hfound

theorem Sound.edited (hs : t.Sound) (hid : ∀ row, (assign row).id = row.id)
    (hbefore : t.entry id = some before) (hcheck : t.checkRow (assign before) = .ok ()) :
    (t.written id assign).Sound := by
  refine hs.written hid fun found hfound => ?_
  rw [hbefore] at hfound
  cases hfound
  exact hcheck

theorem Sound.writeRate (hs : t.Sound) (rate : BillingRateRow) :
    (t.writeRate rate).Sound := by
  have hkept : ∀ id, t.billingRates.any (·.id == id) → (KeyedTable.upsert BillingRateRow.id
      t.billingRates rate fun _ => rate).any (·.id == id) := by
    intro id hany
    obtain ⟨old, hold, hid⟩ := List.any_eq_true.1 hany
    rw [beq_iff_eq] at hid
    rw [List.any_eq_true]
    unfold KeyedTable.upsert
    split_ifs
    · refine ⟨if old.id = rate.id then rate else old, List.mem_map.2 ⟨old, hold, rfl⟩, ?_⟩
      split_ifs with hsame
      · simp [← hid, hsame]
      · simp [hid]
    · exact ⟨old, List.mem_append_left _ hold, by simp [hid]⟩
  intro k row hrow
  obtain ⟨hrefusal, hdangling⟩ := checkRow_eq_ok.1 (hs k row hrow)
  refine checkRow_eq_ok.2 ⟨hrefusal, ?_⟩
  simp only [danglingKey, Option.map_eq_none_iff, List.find?_eq_none, List.forall_mem_cons,
    Bool.not_eq_true', Bool.not_eq_false, Option.all_eq_true] at hdangling ⊢
  obtain ⟨h1, h2, h3, h4, h5, hrate, hrest⟩ := hdangling
  exact ⟨h1, h2, h3, h4, h5, fun id hid => hkept id (hrate id hid), hrest⟩

end WorkTables

def TimeEntryRow.worked (row : TimeEntryRow) : ℤ := if row.billable then row.minutes else 0

def TimeEntryRow.rates (row : TimeEntryRow) :
    (Option Money × RateSource) × (Option Money × RateSource) × Option String ×
      Option BillingRateId :=
  ((row.billRateAmount, row.billRateSource), (row.costRateAmount, row.costRateSource),
    row.currency, row.billingRateId)

/-- What an update must satisfy to be accepted, if it leaves the entry billable. -/
structure UpdateTimeEntryInput.Accepted (input : UpdateTimeEntryInput) (before : TimeEntryRow) :
    Prop where
  issues : input.trimmed.issues = []
  unlocked : before.lockedAt = none
  pair : instantPair (input.startedAt.getD before.startedAt) (input.endedAt.getD before.endedAt)
  order : instantOrder (input.startedAt.getD before.startedAt) (input.endedAt.getD before.endedAt)
  range : input.minutes.getD before.minutes ≤ integerLimit
  target : before.projectId.isSome ∨ before.counterpartyId.isSome

namespace WorkSystem

def BilledRight (s : WorkSystem) : Prop :=
  ∀ id row, s.tables.entry id = some row → id ∉ s.stated → row.billableMinutes = row.worked

/-- A refused call changes nothing, and only `reresolveRates` changes an entry's rates. -/
def RatesKept (s : WorkSystem) (action : WorkAction) : Prop :=
  (∀ call e, action = .call call → (s.tables.transaction call).1 = .error e →
      (s.step action).tables = s.tables) ∧
    ∀ id row row', s.tables.entry id = some row → (s.step action).tables.entry id = some row' →
      (∀ now, action ≠ .call (.reresolveRates id now)) → row'.rates = row.rates

/-- An accepted update of an entry nobody stated the billable minutes of leaves it unbillable, or
finds it billable and leaves its minutes. -/
def LeavesWorked (s : WorkSystem) : WorkAction → Prop
  | .call (.update input _) => ∀ before, s.tables.entry input.timeEntryId = some before →
      input.timeEntryId ∉ s.stated → input.billableMinutes = none → input.nextBillable before →
      input.Accepted before →
      before.billable ∧ input.minutes.getD before.minutes = before.minutes
  | _ => True

variable {s : WorkSystem} {t t' : WorkTables}

theorem transaction_cases (call : WorkCall) :
    (∃ row t', call.body t = .ok (row, t') ∧ t.transaction call = (.ok row, t')) ∨
      ∃ e, call.body t = .error e ∧ t.transaction call = (.error e, t) := by
  unfold WorkTables.transaction
  rcases call.body t with e | ⟨row, t'⟩
  · exact .inr ⟨e, rfl, rfl⟩
  · exact .inl ⟨row, t', rfl, rfl⟩

variable {call : WorkCall}

theorem body_sound (hs : t.Sound) {row : TimeEntryRow} (h : call.body t = .ok (row, t'))
    : t'.Sound := by
  cases call with
  | record input id now =>
    obtain ⟨-, -, -, hcheck, ht⟩ := WorkTables.record_eq_ok h
    simp only at ht
    subst ht
    exact hs.append hcheck
  | update input now =>
    obtain ⟨-, before, hbefore, -, hcheck, hr⟩ := WorkTables.update_eq_ok.1 h
    cases hr
    exact hs.edited (fun _ => rfl) hbefore hcheck
  | approve id user now =>
    obtain ⟨before, hbefore, hcheck, hr⟩ := WorkTables.approve_eq_ok h
    cases hr
    exact hs.edited (fun _ => rfl) hbefore hcheck
  | reresolveRates id now =>
    obtain ⟨before, bill, cost, hbefore, hcheck, hr⟩ := WorkTables.reresolveRates_eq_ok h
    cases hr
    exact hs.edited (fun _ => rfl) hbefore hcheck

theorem step_sound (action : WorkAction) (hs : s.tables.Sound) : (s.step action).tables.Sound := by
  cases action with
  | call call =>
    show (s.tables.transaction call).2.Sound
    rcases transaction_cases (t := s.tables) call with ⟨row, t', hbody, htx⟩ | ⟨e, -, htx⟩
    · rw [htx]
      exact body_sound hs hbody
    · rw [htx]
      exact hs
  | lock id now =>
    refine hs.written (fun _ => rfl) fun before hbefore => ?_
    exact hs id before hbefore
  | writeRate rate => exact hs.writeRate rate

section Update

variable {input : UpdateTimeEntryInput} {before : TimeEntryRow} {now : Timestamp}

theorem assign_billableMinutes (hstated : input.billableMinutes = none) :
    (input.trimmed.assign before now before).billableMinutes =
      if input.billable = some false then 0 else before.billableMinutes := by
  simp only [UpdateTimeEntryInput.assign, UpdateTimeEntryInput.trimmed,
    UpdateTimeEntryInput.nextBillableMinutes, hstated, Option.isSome_none, Bool.false_eq_true,
    false_or, Option.getD_none]
  split_ifs <;> rfl

theorem minutes_pos (hissues : input.trimmed.issues = []) (hpos : 0 < before.minutes) :
    0 < input.minutes.getD before.minutes := by
  rcases hm : input.minutes with _ | minutes
  · exact hpos
  · have hissue : WorkIssue.ofPositive "minutes" minutes = [] := by
      simp only [UpdateTimeEntryInput.issues, List.append_eq_nil_iff] at hissues
      simpa [UpdateTimeEntryInput.trimmed, hm] using hissues.1.2
    unfold WorkIssue.ofPositive at hissue
    split_ifs at hissue with hminutes
    exact hminutes

theorem assign_refusal (hvalid : before.refusal = none) (hstated : input.billableMinutes = none)
    (hbillable : input.nextBillable before) (haccepted : input.Accepted before) :
    (input.trimmed.assign before now before).refusal = none := by
  have hon : (input.trimmed.assign before now before).billable = true := hbillable
  have hstay : input.billable ≠ some false := by
    intro hoff
    simp [UpdateTimeEntryInput.nextBillable, hoff] at hbillable
  have hminutes : (input.trimmed.assign before now before).billableMinutes =
      before.billableMinutes := by
    rw [assign_billableMinutes hstated, if_neg hstay]
  have htarget : before.projectId.isSome || before.counterpartyId.isSome := by
    simpa using haccepted.target
  simp only [TimeEntryRow.refusal, Option.map_eq_none_iff, List.find?_eq_none,
    List.forall_mem_cons, Bool.not_eq_true', Bool.not_eq_false, decide_eq_true_eq] at hvalid ⊢
  obtain ⟨⟨-, hrange⟩, hoverflow, hbill, hzero, -, -, hcost, hcurrency, -, -, hpos, hworker,
    hnil⟩ := hvalid
  have hlong : 0 < input.minutes.getD before.minutes := minutes_pos haccepted.issues hpos
  rw [hon, hminutes]
  exact ⟨⟨haccepted.range, hrange⟩, hoverflow, hbill, hzero, htarget, rfl, hcost, hcurrency,
    haccepted.order, haccepted.pair, hlong, hworker, hnil⟩

theorem update_of_accepted (hs : t.Sound) (hbefore : t.entry input.timeEntryId = some before)
    (hstated : input.billableMinutes = none) (hbillable : input.nextBillable before)
    (haccepted : input.Accepted before) : ∃ r, t.update input now = .ok r := by
  obtain ⟨hvalid, hdangling⟩ := WorkTables.checkRow_eq_ok.1 (hs _ before hbefore)
  refine ⟨_, WorkTables.update_eq_ok.2 ⟨haccepted.issues, before, hbefore, ?_, ?_, rfl⟩⟩
  · simp only [UpdateTimeEntryInput.check, Except.bind_eq_ok, Except.require_eq_ok]
    exact ⟨(), haccepted.unlocked, (), .inl hbillable, (), haccepted.pair, haccepted.order⟩
  · exact WorkTables.checkRow_eq_ok.2
      ⟨assign_refusal hvalid hstated hbillable haccepted, hdangling⟩

theorem accepted_of_update (hbefore : t.entry input.timeEntryId = some before)
    (hbillable : input.nextBillable before) {r : TimeEntryRow × WorkTables}
    (h : t.update input now = .ok r) : input.Accepted before := by
  obtain ⟨hissues, found, hfound, hcheck, hrow, -⟩ := WorkTables.update_eq_ok.1 h
  rw [hbefore] at hfound
  cases hfound
  simp only [UpdateTimeEntryInput.check, Except.bind_eq_ok, Except.require_eq_ok] at hcheck
  obtain ⟨_, hunlocked, _, -, _, hpair, horder⟩ := hcheck
  have hvalid := (WorkTables.checkRow_eq_ok.1 hrow).1
  have hon : (input.trimmed.assign before now before).billable = true := hbillable
  simp only [TimeEntryRow.refusal, Option.map_eq_none_iff, List.find?_eq_none,
    List.forall_mem_cons, Bool.not_eq_true', Bool.not_eq_false, decide_eq_true_eq] at hvalid
  obtain ⟨⟨hrange, -⟩, -, -, -, htarget, -⟩ := hvalid
  rw [hon] at htarget
  have hsome : before.projectId.isSome || before.counterpartyId.isSome := htarget
  refine ⟨hissues, hunlocked, hpair, horder, hrange, ?_⟩
  simpa using hsome

theorem assign_worked_iff (hstated : input.billableMinutes = none)
    (hissues : input.trimmed.issues = []) (hpos : 0 < before.minutes)
    (hright : before.billableMinutes = before.worked) :
    (input.trimmed.assign before now before).billableMinutes =
        (input.trimmed.assign before now before).worked ↔
      (input.nextBillable before →
        before.billable ∧ input.minutes.getD before.minutes = before.minutes) := by
  have hlong : 0 < input.minutes.getD before.minutes := minutes_pos hissues hpos
  have hworked : (input.trimmed.assign before now before).worked =
      if input.nextBillable before then input.minutes.getD before.minutes else 0 := rfl
  rw [assign_billableMinutes hstated, hworked, hright, TimeEntryRow.worked]
  unfold UpdateTimeEntryInput.nextBillable
  rcases input.billable with _ | _ | _
  · cases hb : before.billable
    · simp
    · simp [eq_comm]
  · simp
  · cases hb : before.billable
    · have : input.minutes.getD before.minutes ≠ 0 := by omega
      simpa using this.symm
    · simp [eq_comm]

end Update

theorem BilledRight.restate {stated : List TimeEntryId} (hp : s.BilledRight)
    (hsub : s.stated ⊆ stated) : BilledRight ⟨s.tables, stated⟩ :=
  fun id row hrow hnew => hp id row hrow fun hold => hnew (hsub hold)

theorem billedRight_written {stated : List TimeEntryId} {id : TimeEntryId}
    (assign : TimeEntryRow → TimeEntryRow) (hp : s.BilledRight) (hsub : s.stated ⊆ stated)
    (hid : ∀ row, (assign row).id = row.id) :
    BilledRight ⟨s.tables.written id assign, stated⟩ ↔
      ∀ before, s.tables.entry id = some before → id ∉ stated →
        (assign before).billableMinutes = (assign before).worked := by
  constructor
  · intro h before hbefore hnew
    refine h id _ ?_ hnew
    rw [WorkTables.entry_written assign hid, if_pos rfl, hbefore, Option.map_some]
  · intro h k row hrow hnew
    rw [WorkTables.entry_written assign hid] at hrow
    split_ifs at hrow with hk
    · subst hk
      obtain ⟨before, hbefore, rfl⟩ := Option.map_eq_some_iff.1 hrow
      exact h before hbefore hnew
    · exact hp k row hrow fun hold => hnew (hsub hold)

theorem subset_stated (s : WorkSystem) (call : WorkCall) :
    s.stated ⊆ if call.statesMinutes then call.target :: s.stated else s.stated := by
  split_ifs
  · exact List.subset_cons_self _ _
  · exact List.Subset.refl _

theorem record_billedRight {input : RecordTimeEntryInput} {id : TimeEntryId} {now : Timestamp}
    (hp : s.BilledRight) : (s.step (.call (.record input id now))).BilledRight := by
  have hsub := subset_stated s (.record input id now)
  rcases transaction_cases (t := s.tables) (.record input id now) with
    ⟨row, t', hbody, htx⟩ | ⟨e, -, htx⟩
  · obtain ⟨hid, hminutes, hfree, -, ht⟩ := WorkTables.record_eq_ok hbody
    simp only at hid hminutes ht
    intro k found hfound hnew
    simp only [step, htx, ht, WorkTables.entry_append] at hfound hnew
    rcases hold : s.tables.entry k with _ | old
    · rw [hold, Option.none_or] at hfound
      split_ifs at hfound with hk
      cases hfound
      rw [hid] at hk
      subst hk
      rcases hgiven : input.billableMinutes with _ | minutes
      · rw [hminutes, hgiven]
        rfl
      · simp [WorkCall.statesMinutes, WorkCall.target, hgiven] at hnew
    · rw [hold, Option.some_or] at hfound
      cases hfound
      exact hp k _ hold fun hin => hnew (hsub hin)
  · simp only [step, htx]
    exact hp.restate hsub

theorem edit_billedRight (hp : s.BilledRight)
    (hedit : ∀ row t', call.body s.tables = .ok (row, t') → ∃ id assign,
      t' = s.tables.written id assign ∧ ∀ row, (assign row).id = row.id ∧
        (assign row).billableMinutes = row.billableMinutes ∧ (assign row).worked = row.worked) :
    (s.step (.call call)).BilledRight := by
  have hsub := subset_stated s call
  rcases transaction_cases (t := s.tables) call with ⟨row, t', hbody, htx⟩ | ⟨e, -, htx⟩
  · obtain ⟨id, assign, rfl, hassign⟩ := hedit row t' hbody
    simp only [step, htx]
    refine (billedRight_written _ hp hsub fun row => (hassign row).1).2
      fun before hbefore hnew => ?_
    rw [(hassign before).2.1, (hassign before).2.2]
    exact hp id before hbefore fun hin => hnew (hsub hin)
  · simp only [step, htx]
    exact hp.restate hsub

theorem update_billedRight_iff {input : UpdateTimeEntryInput} {now : Timestamp}
    (hs : s.tables.Sound) (hp : s.BilledRight) :
    (s.step (.call (.update input now))).BilledRight ↔
      s.LeavesWorked (.call (.update input now)) := by
  have hsub := subset_stated s (.update input now)
  rcases transaction_cases (t := s.tables) (.update input now) with
    ⟨row, t', hbody, htx⟩ | ⟨e, hbody, htx⟩
  · obtain ⟨hissues, before, hbefore, -, -, hr⟩ := WorkTables.update_eq_ok.1 hbody
    obtain ⟨-, rfl⟩ := Prod.mk.inj hr
    simp only [step, htx]
    rw [billedRight_written (input.trimmed.assign before now) hp hsub fun _ => rfl]
    have hpos : 0 < before.minutes := by
      have hvalid := (WorkTables.checkRow_eq_ok.1 (hs _ before hbefore)).1
      simp only [TimeEntryRow.refusal, Option.map_eq_none_iff, List.find?_eq_none,
        List.forall_mem_cons, Bool.not_eq_true', Bool.not_eq_false, decide_eq_true_eq] at hvalid
      obtain ⟨-, -, -, -, -, -, -, -, -, -, hpos, -⟩ := hvalid
      exact hpos
    constructor
    · intro h found hfound hnew hstated hbillable _
      rw [hbefore] at hfound
      cases hfound
      have hkept := h before hbefore (by simpa [WorkCall.statesMinutes, hstated] using hnew)
      exact (assign_worked_iff hstated hissues hpos (hp _ before hbefore hnew)).1 hkept hbillable
    · intro h found hfound hnew
      rw [hbefore] at hfound
      cases hfound
      have hstated : input.billableMinutes = none := by
        by_contra hgiven
        refine hnew ?_
        have hstates : input.billableMinutes.isSome := Option.isSome_iff_ne_none.2 hgiven
        simp [WorkCall.statesMinutes, WorkCall.target, hstates]
      have hunstated : input.timeEntryId ∉ s.stated := fun hin => hnew (hsub hin)
      refine (assign_worked_iff hstated hissues hpos (hp _ before hbefore hunstated)).2 ?_
      exact fun hbillable => h before hbefore hunstated hstated hbillable
        (accepted_of_update hbefore hbillable hbody)
  · simp only [step, htx]
    refine iff_of_true (hp.restate hsub) fun before hbefore _ hstated hbillable haccepted => ?_
    obtain ⟨r, hr⟩ : ∃ r, s.tables.update input now = .ok r :=
      update_of_accepted hs hbefore hstated hbillable haccepted
    exact absurd (hbody.symm.trans hr) (by simp)

theorem step_billedRight_iff (action : WorkAction) (hs : s.tables.Sound) (hp : s.BilledRight) :
    (s.step action).BilledRight ↔ s.LeavesWorked action := by
  cases action with
  | call call =>
    cases call with
    | record input id now => exact iff_of_true (record_billedRight hp) trivial
    | update input now => exact update_billedRight_iff hs hp
    | approve id user now =>
      refine iff_of_true (edit_billedRight hp fun row t' hbody => ?_) trivial
      obtain ⟨before, -, -, hr⟩ := WorkTables.approve_eq_ok hbody
      exact ⟨id, _, (Prod.mk.inj hr).2, fun _ => ⟨rfl, rfl, rfl⟩⟩
    | reresolveRates id now =>
      refine iff_of_true (edit_billedRight hp fun row t' hbody => ?_) trivial
      obtain ⟨before, bill, cost, -, -, hr⟩ := WorkTables.reresolveRates_eq_ok hbody
      exact ⟨id, _, (Prod.mk.inj hr).2, fun _ => ⟨rfl, rfl, rfl⟩⟩
  | lock id now =>
    refine iff_of_true ((billedRight_written (TimeEntryRow.locked now) hp
      (List.Subset.refl _) fun _ => rfl).2 ?_) trivial
    exact fun before hbefore hnew => hp id before hbefore hnew
  | writeRate rate => exact iff_of_true hp trivial

theorem rates_written {id k : TimeEntryId} (assign : TimeEntryRow → TimeEntryRow)
    {row row' : TimeEntryRow} (hid : ∀ row, (assign row).id = row.id)
    (hrates : ∀ row, (assign row).rates = row.rates) (hrow : t.entry k = some row)
    (hrow' : (t.written id assign).entry k = some row') : row'.rates = row.rates := by
  rw [WorkTables.entry_written assign hid, hrow] at hrow'
  split_ifs at hrow'
  · cases hrow'
    exact hrates row
  · cases hrow'
    rfl

theorem body_rates {returned : TimeEntryRow} (hbody : call.body t = .ok (returned, t'))
    {k : TimeEntryId} {row row' : TimeEntryRow} (hrow : t.entry k = some row)
    (hrow' : t'.entry k = some row') (hother : ∀ now, call ≠ .reresolveRates k now)
    : row'.rates = row.rates := by
  cases call with
  | record input id now =>
    obtain ⟨-, -, -, -, ht⟩ := WorkTables.record_eq_ok hbody
    simp only at ht
    rw [ht, WorkTables.entry_append, hrow, Option.some_or] at hrow'
    cases hrow'
    rfl
  | update input now =>
    obtain ⟨-, before, -, -, -, hr⟩ := WorkTables.update_eq_ok.1 hbody
    obtain ⟨-, rfl⟩ := Prod.mk.inj hr
    exact rates_written (input.trimmed.assign before now) (fun _ => rfl) (fun _ => rfl)
      hrow hrow'
  | approve id user now =>
    obtain ⟨before, -, -, hr⟩ := WorkTables.approve_eq_ok hbody
    obtain ⟨-, rfl⟩ := Prod.mk.inj hr
    exact rates_written (TimeEntryRow.approved user now) (fun _ => rfl) (fun _ => rfl)
      hrow hrow'
  | reresolveRates id now =>
    obtain ⟨before, bill, cost, -, -, hr⟩ := WorkTables.reresolveRates_eq_ok hbody
    obtain ⟨-, rfl⟩ := Prod.mk.inj hr
    have hk : k ≠ id := by
      rintro rfl
      exact hother now rfl
    rw [WorkTables.entry_written (TimeEntryRow.rerated bill cost now) fun _ => rfl,
      if_neg hk, hrow] at hrow'
    cases hrow'
    rfl

theorem step_ratesKept (s : WorkSystem) (action : WorkAction) : s.RatesKept action := by
  constructor
  · rintro call e rfl herror
    show (s.tables.transaction call).2 = s.tables
    rcases transaction_cases (t := s.tables) call with ⟨row, t', -, htx⟩ | ⟨e', -, htx⟩
    · simp [htx] at herror
    · rw [htx]
  · intro id row row' hrow hrow' hother
    cases action with
    | call call =>
      have hrow' : (s.tables.transaction call).2.entry id = some row' := hrow'
      rcases transaction_cases (t := s.tables) call with ⟨returned, t', hbody, htx⟩ | ⟨e, -, htx⟩
      · rw [htx] at hrow'
        exact body_rates hbody hrow hrow' fun now heq => hother now (by rw [heq])
      · rw [htx, hrow] at hrow'
        cases hrow'
        rfl
    | lock locked now =>
      exact rates_written (TimeEntryRow.locked now) (fun _ => rfl) (fun _ => rfl) hrow
        hrow'
    | writeRate rate =>
      have hsame : s.tables.entry id = some row' := hrow'
      rw [hrow] at hsame
      cases hsame
      rfl

/-- In every run an entry nobody stated the billable minutes of bills what was worked exactly as
long as no update moves the minutes of one that stays billable or makes one billable again. -/
theorem billed_right_iff (t : WorkTables) (actions : List WorkAction) :
    (Runs.Along step BilledRight (start t) actions ↔
      Runs.Meets step LeavesWorked (start t) actions) ∧
        Runs.Meets step RatesKept (start t) actions := by
  have hempty : ∀ id, (start t).tables.entry id = none := fun _ => rfl
  have hsound : (start t).tables.Sound := fun id row hrow => by simp [hempty] at hrow
  have hright : (start t).BilledRight := fun id row hrow => by simp [hempty] at hrow
  have hinv : ∀ (s : WorkSystem) (action : WorkAction), s.tables.Sound → s.BilledRight →
      (s.step action).tables.Sound := fun _ action hs _ => step_sound action hs
  refine ⟨Runs.along_iff_meets hinv ?_ hsound hright, ?_⟩
  · exact fun s action hs hp => step_billedRight_iff action hs hp
  · exact Runs.meets_of_forall step_ratesKept

end WorkSystem

section Examples

namespace Timesheet

def tables : WorkTables := ⟨[], [1], [], [], [], []⟩

def at9 (minute : ℕ) : Timestamp := ⟨⟨2026, 3, 2⟩, (540 + minute) * 60000000⟩

def hour (billable : Bool) : WorkAction :=
  .call (.record { counterpartyId := some 1, workedByLabel := "Ada", workedOn := ⟨2026, 3, 2⟩,
                   minutes := 60, billable := billable } 0 (at9 0))

end Timesheet

theorem corrected_minutes_not_billed : ¬ ∀ (t : WorkTables) (actions : List WorkAction),
    Runs.Along WorkSystem.step WorkSystem.BilledRight (WorkSystem.start t) actions := by
  intro hall
  have hrun := (hall Timesheet.tables [Timesheet.hour true,
    .call (.update { timeEntryId := 0, minutes := some 90 } (Timesheet.at9 1))]).last
  obtain ⟨row, hrow, hminutes⟩ : ∃ row, (Runs.run WorkSystem.step
      (WorkSystem.start Timesheet.tables) [Timesheet.hour true,
        .call (.update { timeEntryId := 0, minutes := some 90 }
          (Timesheet.at9 1))]).tables.entry 0 =
      some row ∧ row.billableMinutes ≠ row.worked := by
    refine ⟨_, rfl, ?_⟩
    decide +kernel
  exact hminutes (hrun 0 row hrow (by decide +kernel))

end Examples

end Loxep

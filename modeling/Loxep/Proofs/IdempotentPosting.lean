import Loxep.Chart
import Loxep.Lib.ListSums
import Loxep.Proofs.LiveEntries

/-!
# When a keyed posting really posts

`postEntry` looks its key up whatever the entry under it is.
-/

namespace Loxep

structure ReturnedCall where
  call : JournalCall
  entry : JournalEntryRow
  reused : Bool

namespace ReturnedCall

variable (r : ReturnedCall)

def creates : Bool :=
  match r.call with
  | .createDraft _ => true
  | .postEntry _ => !r.reused
  | .reverseEntry _ => !r.reused
  | _ => false

def posts (id : EntryId) : Bool :=
  match r.call with
  | .postDraft input => input.journalEntryId == id
  | _ => false

def voids (id : EntryId) : Bool :=
  match r.call with
  | .voidDraft input => input.journalEntryId == id
  | _ => false

def reverses (id : EntryId) : Bool :=
  match r.call with
  | .reverseEntry input => input.journalEntryId == id
  | _ => false

end ReturnedCall

/-- A ledger with the calls that returned on the way to it. -/
structure JournalHistory where
  ledger : Ledger
  log : List ReturnedCall

/-- One call under the reference data of its time; a refused one leaves everything as it was. -/
def JournalHistory.step (h : JournalHistory) (call : Setup × JournalCall) : JournalHistory :=
  match perform call.1 h.ledger call.2 with
  | .error _ => h
  | .ok (posted, ledger) => ⟨ledger, h.log ++ [⟨call.2, posted.entry, posted.reused⟩]⟩

def history (calls : List (Setup × JournalCall)) : JournalHistory :=
  Runs.run JournalHistory.step ⟨Ledger.empty, []⟩ calls

structure StatusStep (r : ReturnedCall) (e e' : JournalEntryRow) : Prop where
  reversed : r.reverses e.id = true →
    (e.status = .posted ∨ e.status = .reversed) ∧ e'.status = .reversed
  posted : r.posts e.id = true → e.status = .draft ∧ e'.status = .posted
  voided : r.voids e.id = true → (e.status = .draft ∨ e.status = .void) ∧ e'.status = .void
  other : r.reverses e.id = false → r.posts e.id = false → r.voids e.id = false →
    e'.status = e.status

structure Evolves (ledger ledger' : Ledger) (r : ReturnedCall) : Prop where
  kept : ∀ e ∈ ledger.entries, ∃ e' ∈ ledger'.entries, e'.id = e.id ∧
    e'.postingKey = e.postingKey ∧ e'.lines = e.lines ∧ StatusStep r e e'
  fresh : ∀ e' ∈ ledger'.entries, (∃ e ∈ ledger.entries, e'.id = e.id) ∨
    (r.creates = true ∧ r.entry.id = e'.id)
  created : r.creates = true → r.entry ∈ ledger'.entries ∧ r.entry.id = ledger.entries.length ∧
    (r.entry.status = .draft ∨ r.entry.status = .posted)
  named : ∀ id, r.reverses id = true ∨ r.posts id = true ∨ r.voids id = true →
    id < ledger.entries.length
  grows : ledger.entries.length ≤ ledger'.entries.length
  stamped : Stamped ledger'.toJournal

section Evolves

variable {setup : Setup} {ledger ledger' : Ledger} {posted : PostedEntry} {call : JournalCall}
  {row : JournalEntryRow}

theorem statusStep_refl {r : ReturnedCall} {e : JournalEntryRow} (hr : r.reverses e.id = false)
    (hp : r.posts e.id = false) (hv : r.voids e.id = false) : StatusStep r e e := by
  constructor <;> simp [hr, hp, hv]

theorem evolves_append {input : PostEntryInput} (hst : Stamped ledger.toJournal)
    (hcall : call = .createDraft input ∨ call = .postEntry input)
    (h : ledger'.entries = ledger.entries ++ [row]) (hid : row.id = ledger.entries.length)
    (hrow : row.reversesEntryId = none) (hstatus : row.status = .draft ∨ row.status = .posted) :
    Evolves ledger ledger' ⟨call, row, false⟩ where
  kept e he := by
    refine ⟨e, by rw [h]; exact List.mem_append_left _ he, rfl, rfl, rfl, ?_⟩
    rcases hcall with rfl | rfl <;> exact statusStep_refl rfl rfl rfl
  fresh e' he' := by
    rw [h, List.mem_append, List.mem_singleton] at he'
    rcases he' with he' | rfl
    · exact .inl ⟨e', he', rfl⟩
    · rcases hcall with rfl | rfl <;> exact .inr ⟨rfl, rfl⟩
  created _ := ⟨by rw [h]; simp, hid, hstatus⟩
  named id hn := by
    rcases hcall with rfl | rfl <;>
      simp [ReturnedCall.reverses, ReturnedCall.posts, ReturnedCall.voids] at hn
  grows := by
    rw [h, List.length_append]
    omega
  stamped := hst.append h hrow

theorem evolves_refl {r : ReturnedCall} (hst : Stamped ledger.toJournal)
    (hcreates : r.creates = false) (hnamed : ∀ id, r.reverses id = true ∨ r.posts id = true ∨
      r.voids id = true → id < ledger.entries.length)
    (hsame : ∀ e ∈ ledger.entries, StatusStep r e e) : Evolves ledger ledger r where
  kept e he := ⟨e, he, rfl, rfl, rfl, hsame e he⟩
  fresh e' he' := .inl ⟨e', he', rfl⟩
  created h := by
    rw [hcreates] at h
    cases h
  named := hnamed
  grows := le_rfl
  stamped := hst

theorem evolves_update {r : ReturnedCall} {d : JournalEntryRow}
    {update : JournalEntryRow → JournalEntryRow} (hst : Stamped ledger.toJournal)
    (hd : d ∈ ledger.entries) (hdraft : d.status = .draft)
    (h : ledger'.entries = (ledger.toJournal.updateEntry d.id update).entries)
    (hcreates : r.creates = false)
    (hnames : ∀ id, r.reverses id = true ∨ r.posts id = true ∨ r.voids id = true → id = d.id)
    (hkeep : (update d).id = d.id ∧ (update d).postingKey = d.postingKey ∧
      (update d).lines = d.lines ∧ (update d).reversesEntryId = d.reversesEntryId)
    (hstep : StatusStep r d (update d)) : Evolves ledger ledger' r := by
  have honly : ∀ e ∈ ledger.entries, e.id = d.id → e = d := fun e he hid =>
    ledger.eq_of_id he hd hid
  have hmem : ∀ {e'}, e' ∈ ledger'.entries ↔ ∃ e ∈ ledger.entries,
      (if e.id = d.id then update e else e) = e' := by
    intro e'
    rw [h]
    exact Journal.mem_updateEntry
  refine ⟨fun e he => ⟨_, hmem.2 ⟨e, he, rfl⟩, ?_⟩, fun e' he' => ?_, fun hc => ?_, fun id hn => ?_,
    ?_, ?_⟩
  · split_ifs with hid
    · obtain rfl := honly e he hid
      exact ⟨hkeep.1, hkeep.2.1, hkeep.2.2.1, hstep⟩
    · have hno : ¬ (r.reverses e.id = true ∨ r.posts e.id = true ∨ r.voids e.id = true) :=
        fun hn => hid (hnames _ hn)
      simp only [not_or, Bool.not_eq_true] at hno
      exact ⟨rfl, rfl, rfl, statusStep_refl hno.1 hno.2.1 hno.2.2⟩
  · obtain ⟨e, he, rfl⟩ := hmem.1 he'
    refine .inl ⟨e, he, ?_⟩
    split_ifs with hid
    · rw [honly e he hid]
      exact hkeep.1
    · rfl
  · rw [hcreates] at hc
    cases hc
  · rw [hnames id hn]
    exact ledger.id_lt hd
  · rw [h]
    simp [Journal.updateEntry]
  · intro r' hr' n hn
    obtain ⟨x, hx, rfl⟩ := hmem.1 hr'
    have hxn : x.reversesEntryId = some n := by
      split_ifs at hn with hid
      · rw [honly x hx hid] at hn ⊢
        exact hkeep.2.2.2 ▸ hn
      · exact hn
    obtain ⟨e, he, hid, hrev⟩ := hst x hx n hxn
    refine ⟨_, hmem.2 ⟨e, he, rfl⟩, ?_⟩
    rw [if_neg]
    · exact ⟨hid, hrev⟩
    · intro heq
      rw [honly e he heq, hdraft] at hrev
      cases hrev

theorem createDraft_eq_ok {input : CreateDraftInput}
    (h : createDraft setup ledger input = .ok (posted, ledger')) :
    ∃ p, prepareDraft setup (trimmedEntry input) = .ok p ∧
      posted = ⟨draftRow ledger.toJournal (trimmedEntry input) p, false⟩ ∧
      ledger'.entries = ledger.entries ++ [draftRow ledger.toJournal (trimmedEntry input) p] := by
  simp only [createDraft, Except.bind_eq_ok, parseEntry_eq_ok] at h
  obtain ⟨value, ⟨-, rfl⟩, p, hp, h⟩ := h
  split_ifs at h
  rw [Except.pure_eq_ok, Prod.mk.injEq] at h
  obtain ⟨rfl, rfl⟩ := h
  exact ⟨p, hp, rfl, rfl⟩

theorem postDraft_eq_ok {input : PostDraftInput}
    (h : postDraft setup ledger input = .ok (posted, ledger')) :
    ∃ draft ∈ ledger.entries, ∃ number p, draft.id = input.journalEntryId ∧
      draft.status = .draft ∧ posted = ⟨postedFrom number p draft, false⟩ ∧
      ledger'.entries = (ledger.toJournal.updateEntry draft.id (postedFrom number p)).entries ∧
      preparePosting setup ledger.toJournal draft input.allowBackdated = .ok p := by
  unfold postDraft at h
  split at h
  · cases h
  · rename_i draft hload
    obtain ⟨hfound, hdraft⟩ := loadDraft_eq_ok.1 hload
    obtain ⟨hmem, hid⟩ := loadEntry_eq_ok hfound
    simp only [Except.bind_eq_ok, Except.pure_eq_ok, Prod.mk.injEq] at h
    obtain ⟨p, hp, rfl, rfl⟩ := h
    exact ⟨draft, hmem, _, p, hid, hdraft, rfl, rfl, hp⟩

theorem voidDraft_eq_ok {input : VoidDraftInput} {entry : JournalEntryRow}
    (h : voidDraft ledger input = .ok (entry, ledger')) :
    ∃ before ∈ ledger.entries, before.id = input.journalEntryId ∧
      ((before.status = .void ∧ ledger' = ledger) ∨
        (before.status = .draft ∧
          ledger'.entries = (ledger.toJournal.updateEntry before.id Journal.voided).entries)) := by
  simp only [voidDraft, Except.bind_eq_ok, Except.require_eq_ok, exists_const] at h
  obtain ⟨-, before, hload, h⟩ := h
  obtain ⟨hmem, hid⟩ := loadEntry_eq_ok hload
  refine ⟨before, hmem, hid, ?_⟩
  split_ifs at h with hvoid
  · rw [Except.pure_eq_ok, Prod.mk.injEq] at h
    exact .inl ⟨hvoid, h.2.symm⟩
  · simp only [Except.bind_eq_ok, Except.require_eq_ok, Except.pure_eq_ok, Prod.mk.injEq,
      exists_const] at h
    obtain ⟨hdraft, -, rfl⟩ := h
    exact .inr ⟨hdraft, rfl⟩

theorem reverseEntry_evolves {input : ReverseEntryInput} (hst : Stamped ledger.toJournal)
    (h : reverseEntry setup ledger input = .ok (posted, ledger')) :
    Evolves ledger ledger' ⟨.reverseEntry input, posted.entry, posted.reused⟩ := by
  have hstamped := (reverseEntry_live hst h).1
  have hgrows := (reverseEntry_live hst h).2.1
  obtain ⟨-, original, hload, hstatus, -, hcase⟩ := reverseEntry_eq_ok.1 h
  obtain ⟨hmem, hid⟩ := loadEntry_eq_ok hload
  have hnames : ∀ id, (input.journalEntryId == id) = true → id = original.id := fun id hn =>
    (beq_iff_eq.1 hn).symm.trans hid.symm
  rcases hcase with ⟨already, halready, rfl, hsame⟩ | ⟨hnone, hposted, -, -⟩
  · rw [hsame]
    have hrev : original.status = .reversed := by
      obtain ⟨e, he, heid, hreversed⟩ := hst already (List.mem_of_find?_eq_some halready)
        original.id (by simpa using List.find?_some halready)
      rw [← ledger.eq_of_id he hmem heid]
      exact hreversed
    refine evolves_refl hst rfl (fun id hn => ?_) fun e he => ?_
    · rw [hnames id (by simpa [ReturnedCall.reverses, ReturnedCall.posts, ReturnedCall.voids]
        using hn)]
      exact ledger.id_lt hmem
    · refine ⟨fun hn => ?_, fun hn => ?_, fun hn => ?_, fun _ _ _ => rfl⟩
      · rw [ledger.eq_of_id he hmem (hnames _ hn)]
        exact ⟨.inr hrev, hrev⟩
      · cases hn
      · cases hn
  · obtain ⟨r, rfl, hr, hwith, -⟩ :=
      reverseEntry_standing hmem hid.symm (reversalOf_none.1 hnone) h
    have hmem' := @mem_withReversal original r _ _ hwith (ledger.id_lt hmem)
    refine ⟨fun e he => ?_, fun e' he' => ?_, fun _ => ?_, fun id hn => ?_, hgrows, hstamped⟩
    · refine ⟨stamp original.id e, hmem'.2 (.inr ⟨e, he, rfl⟩), stamp_id _, stamp_postingKey _,
        stamp_lines _, fun hn => ?_, fun hn => ?_, fun hn => ?_, fun hn _ _ => ?_⟩
      · obtain rfl := ledger.eq_of_id he hmem (hnames _ hn)
        exact ⟨.inl hposted, by simp [stamp]⟩
      · cases hn
      · cases hn
      · rw [stamp_of_ne]
        intro heq
        simp [ReturnedCall.reverses, heq, hid] at hn
    · rcases hmem'.1 he' with rfl | ⟨y, hy, rfl⟩
      · exact .inr ⟨rfl, rfl⟩
      · exact .inl ⟨y, hy, stamp_id _⟩
    · exact ⟨hmem'.2 (.inl rfl), hwith.2, .inr hr.status⟩
    · rw [hnames id (by simpa [ReturnedCall.reverses, ReturnedCall.posts, ReturnedCall.voids]
        using hn)]
      exact ledger.id_lt hmem

theorem perform_evolves (hst : Stamped ledger.toJournal)
    (h : perform setup ledger call = .ok (posted, ledger')) :
    Evolves ledger ledger' ⟨call, posted.entry, posted.reused⟩ := by
  cases call with
  | createDraft input =>
    obtain ⟨p, -, rfl, hl⟩ := createDraft_eq_ok h
    exact evolves_append hst (.inl rfl) hl rfl rfl (.inl rfl)
  | postDraft input =>
    obtain ⟨draft, hmem, number, p, hid, hdraft, rfl, hl, -⟩ := postDraft_eq_ok h
    refine evolves_update hst hmem hdraft hl rfl (fun id hn => ?_) ⟨rfl, rfl, rfl, rfl⟩ ?_
    · have : (input.journalEntryId == id) = true := by
        simpa [ReturnedCall.reverses, ReturnedCall.posts, ReturnedCall.voids] using hn
      exact (beq_iff_eq.1 this).symm.trans hid.symm
    · refine ⟨fun hn => ?_, fun _ => ⟨hdraft, rfl⟩, fun hn => ?_, fun _ hn _ => ?_⟩
      · cases hn
      · cases hn
      · simp [ReturnedCall.posts, hid] at hn
  | voidDraft input =>
    simp only [perform, Except.bind_eq_ok, Except.pure_eq_ok, Prod.exists, Prod.mk.injEq] at h
    obtain ⟨entry, l, h, rfl, rfl⟩ := h
    obtain ⟨before, hmem, hid, hcase⟩ := voidDraft_eq_ok h
    have hnames : ∀ id, (input.journalEntryId == id) = true → id = before.id := fun id hn =>
      (beq_iff_eq.1 hn).symm.trans hid.symm
    rcases hcase with ⟨hvoid, hsame⟩ | ⟨hdraft, hl⟩
    · rw [hsame]
      refine evolves_refl hst rfl (fun id hn => ?_) fun e he => ?_
      · rw [hnames id (by simpa [ReturnedCall.reverses, ReturnedCall.posts, ReturnedCall.voids]
          using hn)]
        exact ledger.id_lt hmem
      · refine ⟨fun hn => ?_, fun hn => ?_, fun hn => ?_, fun _ _ _ => rfl⟩
        · cases hn
        · cases hn
        · rw [ledger.eq_of_id he hmem (hnames _ hn)]
          exact ⟨.inr hvoid, hvoid⟩
    · refine evolves_update hst hmem hdraft hl rfl (fun id hn => ?_) ⟨rfl, rfl, rfl, rfl⟩ ?_
      · exact hnames id (by simpa [ReturnedCall.reverses, ReturnedCall.posts,
          ReturnedCall.voids] using hn)
      · refine ⟨fun hn => ?_, fun hn => ?_, fun _ => ⟨.inl hdraft, rfl⟩, fun _ _ hn => ?_⟩
        · cases hn
        · cases hn
        · simp [ReturnedCall.voids, hid] at hn
  | postEntry input =>
    obtain ⟨-, ⟨existing, -, rfl, rfl⟩ | ⟨-, p, -, rfl, hl⟩⟩ := postEntry_eq_ok.1 h
    · refine evolves_refl hst rfl (fun id hn => ?_) fun e he => statusStep_refl rfl rfl rfl
      simp [ReturnedCall.reverses, ReturnedCall.posts, ReturnedCall.voids] at hn
    · exact evolves_append hst (.inr rfl) (congrArg Journal.entries hl) rfl rfl (.inr rfl)
  | reverseEntry input => exact reverseEntry_evolves hst h

end Evolves

def PostedIn (log : List ReturnedCall) (r : ReturnedCall) : Prop :=
  r.entry.status = .posted ∨ ∃ c ∈ log, c.posts r.entry.id = true

def ReversedIn (log : List ReturnedCall) (id : EntryId) : Prop :=
  ∃ c ∈ log, c.reverses id = true

structure Recorded (log : List ReturnedCall) (r : ReturnedCall) (e : JournalEntryRow) : Prop where
  id : e.id = r.entry.id
  key : e.postingKey = r.entry.postingKey
  lines : e.lines = r.entry.lines
  reversed : e.status = .reversed ↔ ReversedIn log r.entry.id
  posted : e.status = .posted ↔ PostedIn log r ∧ ¬ ReversedIn log r.entry.id

structure Accounts (h : JournalHistory) : Prop where
  created : ∀ e ∈ h.ledger.entries, ∃ r ∈ h.log, r.creates = true ∧ r.entry.id = e.id
  recorded : ∀ r ∈ h.log, r.creates = true → ∃ e ∈ h.ledger.entries, Recorded h.log r e
  named : ∀ r ∈ h.log, ∀ id, r.reverses id = true ∨ r.posts id = true ∨ r.voids id = true →
    id < h.ledger.entries.length
  stamped : Stamped h.ledger.toJournal

section Accounts

variable {h : JournalHistory} {ledger' : Ledger} {r c : ReturnedCall} {e e' : JournalEntryRow}
  {log : List ReturnedCall}

theorem postedIn_append :
    PostedIn (log ++ [c]) r ↔ PostedIn log r ∨ c.posts r.entry.id = true := by
  simp [PostedIn, or_and_right, exists_or, or_assoc]

theorem reversedIn_append {id : EntryId} :
    ReversedIn (log ++ [c]) id ↔ ReversedIn log id ∨ c.reverses id = true := by
  simp [ReversedIn, or_and_right, exists_or]

theorem Recorded.step (hrec : Recorded log r e) (hid : e'.id = e.id)
    (hkey : e'.postingKey = e.postingKey) (hlines : e'.lines = e.lines) (hstep : StatusStep c e e')
    : Recorded (log ++ [c]) r e' := by
  have hreversed := hrec.reversed
  have hposted := hrec.posted
  refine ⟨hid.trans hrec.id, hkey.trans hrec.key, hlines.trans hrec.lines, ?_, ?_⟩
  all_goals
    rw [reversedIn_append, ← hreversed]
    try rw [postedIn_append]
    rw [← hrec.id]
    cases hr : c.reverses e.id with
    | true => simp [(hstep.reversed hr).2]
    | false =>
      cases hp : c.posts e.id with
      | true => simp [hstep.posted hp]
      | false =>
        cases hv : c.voids e.id with
        | true => 
          obtain ⟨hst, hst'⟩ := hstep.voided hv
          rcases hst with hst | hst <;> simp_all
        | false => simp [hstep.other hr hp hv, hposted, hreversed]

theorem recorded_created (hev : Evolves h.ledger ledger' c) (hacc : Accounts h)
    (hc : c.creates = true) : Recorded (h.log ++ [c]) c c.entry := by
  obtain ⟨-, hid, hst⟩ := hev.created hc
  have hunnamed : ∀ c' ∈ h.log ++ [c], ¬ (c'.reverses c.entry.id = true ∨
      c'.posts c.entry.id = true ∨ c'.voids c.entry.id = true) := by
    intro c' hc' hn
    rw [List.mem_append, List.mem_singleton] at hc'
    rcases hc' with hc' | rfl
    · exact (hacc.named c' hc' _ hn).ne hid
    · exact (hev.named _ hn).ne hid
  have hnot : ¬ ReversedIn (h.log ++ [c]) c.entry.id := by
    rintro ⟨c', hc', hn⟩
    exact hunnamed c' hc' (.inl hn)
  refine ⟨rfl, rfl, rfl, ?_, ?_⟩
  · refine iff_of_false ?_ hnot
    rcases hst with hst | hst <;> simp [hst]
  · refine ⟨fun hp => ⟨.inl hp, hnot⟩, ?_⟩
    rintro ⟨hp | ⟨c', hc', hn⟩, -⟩
    · exact hp
    · exact absurd (.inr (.inl hn)) (hunnamed c' hc')

theorem Accounts.step (hacc : Accounts h) (hev : Evolves h.ledger ledger' c) :
    Accounts ⟨ledger', h.log ++ [c]⟩ where
  created e' he' := by
    rcases hev.fresh e' he' with ⟨e, he, hid⟩ | ⟨hc, hid⟩
    · obtain ⟨r, hr, hcr, hrid⟩ := hacc.created e he
      exact ⟨r, List.mem_append_left _ hr, hcr, hrid.trans hid.symm⟩
    · exact ⟨c, by simp, hc, hid⟩
  recorded r hr hcr := by
    rw [List.mem_append, List.mem_singleton] at hr
    rcases hr with hr | rfl
    · obtain ⟨e, he, hrec⟩ := hacc.recorded r hr hcr
      obtain ⟨e', he', hid, hkey, hlines, hstep⟩ := hev.kept e he
      exact ⟨e', he', hrec.step hid hkey hlines hstep⟩
    · exact ⟨r.entry, (hev.created hcr).1, recorded_created hev hacc hcr⟩
  named r hr id hn := by
    rw [List.mem_append, List.mem_singleton] at hr
    rcases hr with hr | rfl
    · exact (hacc.named r hr id hn).trans_le hev.grows
    · exact (hev.named id hn).trans_le hev.grows
  stamped := hev.stamped

theorem history_accounts (calls : List (Setup × JournalCall)) : Accounts (history calls) := by
  refine Runs.Along.last (Runs.along_of_step (fun h call hacc => ?_) ?_)
  · unfold JournalHistory.step
    split
    · exact hacc
    · rename_i posted ledger' hp
      exact hacc.step (perform_evolves hacc.stamped hp)
  · constructor <;> simp [Ledger.empty, Stamped]

end Accounts

def requestedLines (setup : Setup) (value : PostEntryInput) : Result (List JournalLineRow) := do
  let book ← routeEntryBook setup value
  let lines ← resolveLines setup book value.lines
  return inLineOrder lines

def PostsUnder (setup : Setup) (value : PostEntryInput) (key : String) (posted : PostedEntry)
    (ledger : Ledger) : Prop :=
  ∃ e ∈ ledger.entries, e.postingKey = some key ∧ e.status = .posted ∧
    (posted.reused = true → posted.entry = e ∧ requestedLines setup value = .ok e.lines)

def KeptUnder (log : List ReturnedCall) (key : String) (lines : List JournalLineRow) : Prop :=
  ∃ r ∈ log, r.creates = true ∧ r.entry.postingKey = some key ∧ r.entry.lines = lines ∧
    PostedIn log r ∧ ¬ ReversedIn log r.entry.id

/-- A keyed posting that returns has posted its lines or found them posted exactly when the key is
new, or the call that wrote it asked for the same lines and its entry has been posted and not
reversed. -/
theorem keyed_posting_posts_iff (calls : List (Setup × JournalCall)) {setup : Setup}
    {input : PostEntryInput} {key : String} {posted : PostedEntry} {ledger' : Ledger}
    (hkey : (trimmedEntry input).postingKey = some key)
    (h : postEntry setup (history calls).ledger input = .ok (posted, ledger')) :
    PostsUnder setup (trimmedEntry input) key posted ledger' ↔
      (∀ r ∈ (history calls).log, r.creates = true → r.entry.postingKey ≠ some key) ∨
      ∃ lines, requestedLines setup (trimmedEntry input) = .ok lines ∧
        KeptUnder (history calls).log key lines := by
  have hacc := history_accounts calls
  generalize history calls = past at h hacc ⊢
  obtain ⟨-, ⟨existing, hfound, rfl, hsame⟩ | ⟨hnone, p, -, rfl, hl⟩⟩ := postEntry_eq_ok.1 h
  · rw [hsame]
    rw [hkey, Option.bind_some] at hfound
    obtain ⟨hmem, hex⟩ := existingByPostingKey_some hfound
    have hrec : ∀ r ∈ past.log, r.creates = true → r.entry.postingKey = some key →
        Recorded past.log r existing := by
      intro r hr hcr hk
      obtain ⟨e, he, hrec⟩ := hacc.recorded r hr hcr
      rwa [past.ledger.eq_of_key he hmem (hrec.key.trans hk) hex] at hrec
    obtain ⟨w, hw, hcw, hid⟩ := hacc.created existing hmem
    have hwrote : w.entry.postingKey = some key := by
      obtain ⟨e, he, hrecw⟩ := hacc.recorded w hw hcw
      rw [← hrecw.key, past.ledger.eq_of_id he hmem (hrecw.id.trans hid), hex]
    constructor
    · rintro ⟨e, he, hek, hposted, hreused⟩
      obtain ⟨rfl, hlines⟩ := hreused rfl
      have hrecw := hrec w hw hcw hwrote
      obtain ⟨hin, hnot⟩ := hrecw.posted.1 hposted
      exact .inr ⟨_, hlines, w, hw, hcw, hwrote, hrecw.lines.symm, hin, hnot⟩
    · rintro (hnew | ⟨lines, hlines, r, hr, hcr, hk, rfl, hin, hnot⟩)
      · exact absurd hwrote (hnew w hw hcw)
      · have hrecr := hrec r hr hcr hk
        refine ⟨existing, hmem, hex, hrecr.posted.2 ⟨hin, hnot⟩, fun _ => ⟨rfl, ?_⟩⟩
        rw [hlines, hrecr.lines]
  · rw [hkey, Option.bind_some] at hnone
    refine iff_of_true ?_ (.inl fun r hr hcr hk => ?_)
    · refine ⟨postedRow past.ledger.toJournal (trimmedEntry input) p, ?_, hkey, rfl,
        fun hreused => by cases hreused⟩
      rw [congrArg Journal.entries hl]
      exact List.mem_append_right _ (List.mem_singleton_self _)
    · obtain ⟨e, he, hrec⟩ := hacc.recorded r hr hcr
      exact existingByPostingKey_none.1 hnone e he (hrec.key.trans hk)

namespace Small

def shippingEntry (key : Option String) : PostEntryInput where
  accountingBookId := some 0
  economicEntityId := none
  installationDefaultBookId := none
  entryDate := ⟨2026, 1, 15⟩
  description := "Shipping"
  memo := none
  entrySource := .manual
  postingRuleVersionId := none
  postingKey := key
  sourceFactType := none
  sourceFactId := none
  sourceFactFingerprint := none
  lines :=
    [⟨some 1, none, none, none, none, none, 100 * moneyUnits, []⟩,
      ⟨some 0, none, none, none, none, none, -100 * moneyUnits, []⟩]
  sourceLinks := []
  allowBackdated := false

def keyed : PostEntryInput := shippingEntry (some "k")

def draftedFirst : JournalHistory := history [(setup, .createDraft keyed)]

def postedFirst : JournalHistory := history [(setup, .postEntry keyed)]

end Small

theorem keyed_draft_swallows_posting : ¬ ∀ (calls : List (Setup × JournalCall)) (setup : Setup)
    (input : PostEntryInput) (key : String) (posted : PostedEntry) (ledger' : Ledger),
    (trimmedEntry input).postingKey = some key →
    postEntry setup (history calls).ledger input = .ok (posted, ledger') →
    PostsUnder setup (trimmedEntry input) key posted ledger' := by
  intro hall
  have hrun : (postEntry Small.setup Small.draftedFirst.ledger Small.keyed).toOption.map
      (fun x => x.2.entries.map (·.status)) = some [.draft] := by decide +kernel
  cases hpost : postEntry Small.setup Small.draftedFirst.ledger Small.keyed with
  | error e =>
    rw [hpost] at hrun
    cases hrun
  | ok result =>
    rw [hpost] at hrun
    obtain ⟨posted, ledger'⟩ := result
    obtain ⟨e, he, -, hposted, -⟩ := hall _ Small.setup Small.keyed "k" posted ledger'
      (by decide +kernel) hpost
    have hstatuses : ledger'.entries.map (·.status) = [.draft] := Option.some.inj hrun
    have hst : e.status ∈ ledger'.entries.map (·.status) := List.mem_map_of_mem he
    rw [hposted, hstatuses] at hst
    simp at hst

theorem repeated_posting_posts : ∃ posted ledger',
    postEntry Small.setup Small.postedFirst.ledger Small.keyed = .ok (posted, ledger') ∧
      posted.reused = true ∧
      PostsUnder Small.setup (trimmedEntry Small.keyed) "k" posted ledger' := by
  have hrun : (postEntry Small.setup Small.postedFirst.ledger Small.keyed).toOption.map
      (·.1.reused) = some true := by decide +kernel
  cases hpost : postEntry Small.setup Small.postedFirst.ledger Small.keyed with
  | error e =>
    rw [hpost] at hrun
    cases hrun
  | ok result =>
    rw [hpost] at hrun
    obtain ⟨posted, ledger'⟩ := result
    have hlog : Small.postedFirst.log.map (fun r => (r.creates, r.reverses r.entry.id,
        r.entry.postingKey, r.entry.status)) = [(true, false, some "k", .posted)] := by
      decide +kernel
    have hrows : Small.postedFirst.log.map (fun r => some r.entry.lines) =
        [(requestedLines Small.setup (trimmedEntry Small.keyed)).toOption] := by decide +kernel
    obtain ⟨r, hr, hfields⟩ := List.map_eq_singleton_iff.1 hlog
    simp only [Prod.mk.injEq] at hfields
    obtain ⟨hcreates, hreverses, hkey, hposted⟩ := hfields
    have hlines : some r.entry.lines =
        (requestedLines Small.setup (trimmedEntry Small.keyed)).toOption := by
      rw [hr] at hrows
      exact (List.cons.inj hrows).1
    have hnot : ¬ ReversedIn Small.postedFirst.log r.entry.id := by
      rintro ⟨c, hc, hrev⟩
      rw [hr, List.mem_singleton] at hc
      rw [hc, hreverses] at hrev
      cases hrev
    exact ⟨posted, ledger', rfl, Option.some.inj hrun,
      (keyed_posting_posts_iff _ (by decide +kernel) hpost).2 (.inr ⟨_,
        Except.toOption_eq_some.1 hlines.symm, r,
        hr ▸ List.mem_singleton_self r, hcreates, hkey, rfl, .inl hposted, hnot⟩)⟩

/-!
## Lines and the chart

Every line of every entry stands on a postable account of its entry's book. A posting checks it,
a reversal repeats accounts that passed, and an account only becomes a header before it carries
lines.
-/

/-- The chart's keys, and every line on a postable account of the book of its entry. -/
structure ChartHolds (s : BookTables) : Prop where
  ids : (s.chart.map (·.id)).Nodup
  lines : ∀ e ∈ s.ledger.entries, ∀ l ∈ e.lines, ∃ a ∈ s.chart, a.id = l.ledgerAccountId ∧
    a.accountingBookId = e.accountingBookId ∧ a.isPostable = true

section Sources

variable {setup : Setup} {book : AccountingBookRow} {ledger ledger' : Ledger}

def PassedIn (setup : Setup) (bookId : BookId) (l : JournalLineRow) : Prop :=
  ∃ account ∈ setup.ledgerAccounts, account.id = l.ledgerAccountId ∧
    account.accountingBookId = bookId ∧ account.isPostable = true

def SourcedIn (setup : Setup) (ledger : Ledger) (e' : JournalEntryRow) : Prop :=
  (∃ e ∈ ledger.entries, e'.accountingBookId = e.accountingBookId ∧
    ∀ l' ∈ e'.lines, ∃ l ∈ e.lines, l'.ledgerAccountId = l.ledgerAccountId) ∨
  ∀ l ∈ e'.lines, PassedIn setup e'.accountingBookId l

variable {line : JournalLineInput} {position : ℕ}

theorem resolveAccount_mem {account : LedgerAccountRow}
    (h : resolveAccount setup book line position = .ok account) :
    account ∈ setup.ledgerAccounts := by
  unfold resolveAccount at h
  split at h
  · split at h
    · rename_i found hfound
      cases h
      exact List.mem_of_find?_eq_some hfound
    · cases h
  · simp only at h
    split at h
    · rename_i found hfound
      cases h
      exact List.mem_of_find?_eq_some hfound
    · cases h

theorem resolveLine_passed {l : JournalLineRow} (h : resolveLine setup book line position = .ok l)
    : PassedIn setup book.id l := by
  simp only [resolveLine, assertAccountUsable, Except.bind_eq_ok, Except.require_eq_ok,
    Except.pure_eq_ok, exists_const] at h
  obtain ⟨account, hacc, ⟨hbook, hpost, -⟩, _, -, -, -, rfl⟩ := h
  exact ⟨account, resolveAccount_mem hacc, rfl, hbook, hpost⟩

theorem resolveLinesFrom_passed : ∀ {inputs : List JournalLineInput} {position : ℕ}
    {lines : List JournalLineRow}, resolveLinesFrom setup book position inputs = .ok lines →
    ∀ l ∈ lines, PassedIn setup book.id l
  | [], _, _, h => by
    cases h
    simp
  | _ :: _, _, _, h => by
    simp only [resolveLinesFrom, Except.bind_eq_ok, Except.pure_eq_ok] at h
    obtain ⟨l, hl, rest, hrest, rfl⟩ := h
    rw [List.forall_mem_cons]
    exact ⟨resolveLine_passed hl, resolveLinesFrom_passed hrest⟩

theorem inLineOrder_passed {inputs : List JournalLineInput} {lines : List JournalLineRow}
    (h : resolveLines setup book inputs = .ok lines) :
    ∀ l ∈ inLineOrder lines, PassedIn setup book.id l := by
  intro l hl
  have hmem : l ∈ lines := ((List.perm_insertionSort _ lines).mem_iff).1 hl
  exact resolveLinesFrom_passed h l hmem

theorem sourcedIn_of_mem {e : JournalEntryRow} (he : e ∈ ledger.entries) :
    SourcedIn setup ledger e :=
  .inl ⟨e, he, rfl, fun l hl => ⟨l, hl, rfl⟩⟩

theorem sourcedIn_update {e' d : JournalEntryRow} {update : JournalEntryRow → JournalEntryRow}
    (h : e' ∈ (ledger.toJournal.updateEntry d.id update).entries)
    (hbook : ∀ e, (update e).accountingBookId = e.accountingBookId)
    (hlines : ∀ e, (update e).lines = e.lines) : SourcedIn setup ledger e' := by
  obtain ⟨e, he, rfl⟩ := Journal.mem_updateEntry.1 h
  split_ifs
  · exact .inl ⟨e, he, hbook e, fun l hl => ⟨l, hlines e ▸ hl, rfl⟩⟩
  · exact sourcedIn_of_mem he

theorem perform_sourced {call : JournalCall} {posted : PostedEntry}
    (h : perform setup ledger call = .ok (posted, ledger')) :
    ∀ e' ∈ ledger'.entries, SourcedIn setup ledger e' := by
  intro e' he'
  cases call with
  | createDraft input =>
    obtain ⟨p, hp, -, hl⟩ := createDraft_eq_ok h
    rw [hl, List.mem_append, List.mem_singleton] at he'
    rcases he' with he' | rfl
    · exact sourcedIn_of_mem he'
    · simp only [prepareDraft, Except.bind_eq_ok, Except.pure_eq_ok] at hp
      obtain ⟨book, -, lines, hlines, -, -, -, -, rfl⟩ := hp
      exact .inr (inLineOrder_passed hlines)
  | postDraft input =>
    obtain ⟨draft, -, number, p, -, -, -, hl, -⟩ := postDraft_eq_ok h
    rw [hl] at he'
    exact sourcedIn_update he' (fun _ => rfl) fun _ => rfl
  | voidDraft input =>
    simp only [perform, Except.bind_eq_ok, Except.pure_eq_ok, Prod.exists, Prod.mk.injEq] at h
    obtain ⟨entry, l, h, -, rfl⟩ := h
    obtain ⟨before, -, -, ⟨-, hsame⟩ | ⟨-, hl⟩⟩ := voidDraft_eq_ok h
    · rw [hsame] at he'
      exact sourcedIn_of_mem he'
    · rw [hl] at he'
      exact sourcedIn_update he' (fun _ => rfl) fun _ => rfl
  | postEntry input =>
    obtain ⟨-, ⟨existing, -, -, hsame⟩ | ⟨-, p, hp, -, hl⟩⟩ := postEntry_eq_ok.1 h
    · rw [hsame] at he'
      exact sourcedIn_of_mem he'
    · rw [congrArg Journal.entries hl] at he'
      simp only [Journal.appendPosted, List.mem_append, List.mem_singleton] at he'
      rcases he' with he' | rfl
      · exact sourcedIn_of_mem he'
      · exact .inr (inLineOrder_passed hp.resolved)
  | reverseEntry input =>
    obtain ⟨-, original, hload, -, -, ⟨already, -, -, hsame⟩ | ⟨-, -, -, p, hp, -, hl⟩⟩ :=
      reverseEntry_eq_ok.1 h
    · rw [hsame] at he'
      exact sourcedIn_of_mem he'
    · obtain rfl := hp.original_eq
      rw [congrArg Journal.entries hl] at he'
      simp only [Journal.stampReversed, Journal.appendPosted, List.mem_map, List.mem_append,
        List.mem_singleton] at he'
      obtain ⟨e, he | rfl, rfl⟩ := he'
      · refine .inl ⟨e, he, ?_, fun l hl => ⟨l, ?_, rfl⟩⟩ <;> split_ifs at * <;> first | rfl | exact hl
      · refine .inl ⟨p.original, (loadEntry_eq_ok hload).1, ?_, fun l hl => ?_⟩
        · split_ifs <;> rfl
        · have hneg : l ∈ p.original.lines.map negateLine := by
            split_ifs at hl <;> exact hl
          obtain ⟨l0, hl0, rfl⟩ := List.mem_map.1 hneg
          exact ⟨l0, hl0, rfl⟩

end Sources

section Chart

variable {s t : BookTables}

section

variable (hs : ChartHolds s)
include hs

theorem ChartHolds.journal {setup : Setup} {call : JournalCall} {posted : PostedEntry}
    {ledger' : Ledger} (h : Loxep.perform (s.setup setup) s.ledger call = .ok (posted, ledger')) :
    ChartHolds { s with ledger := ledger' } where
  ids := hs.ids
  lines e' he' l' hl' := by
    rcases perform_sourced h e' he' with ⟨e, he, hbook, hsame⟩ | hpassed
    · obtain ⟨l, hl, hid⟩ := hsame l' hl'
      rw [hbook, hid]
      exact hs.lines e he l hl
    · obtain ⟨account, hmem, hfields⟩ := hpassed l' hl'
      obtain ⟨a, ha, rfl⟩ := List.mem_map.1 hmem
      exact ⟨a, ha, hfields⟩

theorem ChartHolds.append {row : ChartAccountRow} (hrow : row.id ∉ s.chart.map (·.id))
    : ChartHolds { s with chart := s.chart ++ [row] } where
  ids := nodup_map_concat hs.ids hrow
  lines e he l hl := by
    obtain ⟨a, ha, hfields⟩ := hs.lines e he l hl
    exact ⟨a, List.mem_append_left _ ha, hfields⟩

theorem ChartHolds.updateRow {id : AccountId} {f : ChartAccountRow → ChartAccountRow}
    (hid : ∀ a, (f a).id = a.id)
    (hbook : ∀ a, (f a).accountingBookId = a.accountingBookId)
    (hpost : ∀ a, a.isPostable = true → s.carriesLines id = true → (f a).isPostable = true) :
    ChartHolds (s.updateRow id f) where
  ids := by
    have hmap : (s.updateRow id f).chart.map (·.id) = s.chart.map (·.id) := by
      simp only [BookTables.updateRow, List.map_map]
      refine List.map_congr_left fun a _ => ?_
      simp only [Function.comp_apply]
      split_ifs
      · exact hid a
      · rfl
    rw [hmap]
    exact hs.ids
  lines e he l hl := by
    obtain ⟨a, ha, haid, habook, hapost⟩ := hs.lines e he l hl
    refine ⟨_, List.mem_map_of_mem ha, ?_⟩
    split_ifs with hat
    · have hcarries : s.carriesLines id = true := by
        simp only [BookTables.carriesLines, List.any_eq_true, beq_iff_eq]
        exact ⟨e, he, l, hl, haid.symm.trans hat⟩
      exact ⟨(hid a).trans haid, (hbook a).trans habook, hpost a hapost hcarries⟩
    · exact ⟨haid, habook, hapost⟩

theorem ChartHolds.update {value : UpdateAccountInput} {row : ChartAccountRow}
    (h : updateAccount s value = .ok (row, t)) : ChartHolds t := by
  simp only [updateAccount, assertHeaderUnused, Except.bind_eq_ok, Except.require_eq_ok,
    Except.pure_eq_ok, Prod.mk.injEq, exists_const] at h
  obtain ⟨code, -, name, -, before, -, -, -, hunused, -, -, -, -, rfl⟩ := h
  refine hs.updateRow (fun _ => rfl) (fun _ => rfl) fun a hpost hcarries => ?_
  simp only [updatedAccount]
  rcases hvalue : value.isPostable with _ | postable
  · exact hpost
  · cases postable
    · rw [hunused hvalue] at hcarries
      cases hcarries
    · rfl

theorem ChartHolds.create {setup : Setup} {newId : AccountId} {value : CreateAccountInput}
    {row : ChartAccountRow} (h : createAccount setup s newId value = .ok (row, t))
    : ChartHolds t := by
  simp only [createAccount, Except.bind_eq_ok, Except.require_eq_ok, Except.pure_eq_ok,
    Prod.mk.injEq, exists_const] at h
  obtain ⟨code, -, name, -, -, book, -, -, -, hnew, -, -, -, rfl⟩ := h
  exact hs.append hnew

theorem ChartHolds.perform {call : BooksCall} (h : s.perform call = .ok t) :
    ChartHolds t := by
  cases call with
  | journal setup call =>
    obtain ⟨⟨posted, ledger'⟩, hcall, rfl⟩ := Except.map_eq_ok.1 h
    exact hs.journal hcall
  | createAccount setup newId value =>
    obtain ⟨⟨row, t'⟩, hcall, rfl⟩ := Except.map_eq_ok.1 h
    exact hs.create hcall
  | updateAccount value =>
    obtain ⟨⟨row, t'⟩, hcall, rfl⟩ := Except.map_eq_ok.1 h
    exact hs.update hcall
  | archiveAccount id =>
    obtain ⟨⟨row, t'⟩, hcall, rfl⟩ := Except.map_eq_ok.1 h
    simp only [archiveAccount, Except.bind_eq_ok, Except.require_eq_ok, Except.pure_eq_ok,
      Prod.mk.injEq, exists_const] at hcall
    obtain ⟨before, -, -, -, rfl⟩ := hcall
    exact hs.updateRow (fun _ => rfl) (fun _ => rfl) fun _ hpost _ => hpost
  | reactivateAccount id =>
    obtain ⟨⟨row, t'⟩, hcall, rfl⟩ := Except.map_eq_ok.1 h
    simp only [reactivateAccount, Except.bind_eq_ok, Except.pure_eq_ok, Prod.mk.injEq] at hcall
    obtain ⟨before, -, -, rfl⟩ := hcall
    exact hs.updateRow (fun _ => rfl) (fun _ => rfl) fun _ hpost _ => hpost

end

theorem ChartHolds.step (call : BooksCall) (hs : ChartHolds s) : ChartHolds (s.step call) := by
  unfold BookTables.step
  split
  · rename_i t ht
    exact hs.perform ht
  · exact hs

theorem ChartHolds.start {chart : List ChartAccountRow} (h : (chart.map (·.id)).Nodup) :
    ChartHolds ⟨chart, Ledger.empty⟩ where
  ids := h
  lines e he := by cases he

theorem chartHolds_run (hs : ChartHolds s) (calls : List BooksCall) :
    ChartHolds (Runs.run BookTables.step s calls) :=
  (Runs.along_of_step (fun _ call hs => hs.step call) hs).last

end Chart

/-- Whatever is posted, drafted, reversed and changed in the chart, one call after another, every
line stays on a postable account of the book of its entry. -/
theorem lines_stay_postable {chart : List ChartAccountRow} (h : (chart.map (·.id)).Nodup)
    (calls : List BooksCall) :
    Runs.Along BookTables.step (fun s => ∀ e ∈ s.ledger.entries, ∀ l ∈ e.lines, ∃ a ∈ s.chart,
      a.id = l.ledgerAccountId ∧ a.accountingBookId = e.accountingBookId ∧ a.isPostable = true)
      ⟨chart, Ledger.empty⟩ calls := by
  have hholds : Runs.Along BookTables.step ChartHolds ⟨chart, Ledger.empty⟩ calls :=
    Runs.along_of_step (fun _ call hs => hs.step call) (.start h)
  exact hholds.mono fun _ hs => hs.lines

theorem posted_and_archived : Runs.Along BookTables.step
    (fun s => ∀ e ∈ s.ledger.entries, ∀ l ∈ e.lines, ∃ a ∈ s.chart, a.id = l.ledgerAccountId ∧
      a.accountingBookId = e.accountingBookId ∧ a.isPostable = true)
    ⟨[⟨⟨0, 0, "1010", "Cash", true, none, .active⟩, .asset, none, none, false⟩], Ledger.empty⟩
    [.journal Small.setup (.postEntry (Small.shippingEntry none)), .archiveAccount 0] :=
  lines_stay_postable (by decide) _

end Loxep

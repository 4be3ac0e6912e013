import Loxep.Notifications
import Loxep.Lib.Runs

/-!
# When a notification is sent once

A job looks for an earlier delivery before it sends and writes the outcome after it, so another job
may send in between, and what has been sent is forgotten where the outcome is not written. A failure
is written over whatever the row holds.
-/

namespace Loxep

/-- The job is between its send and the write of its success. -/
def DeliveryStage.Records (key : DeliveryKey) : DeliveryStage → Prop
  | .recording other _ => other = key
  | _ => False

/-- The pair whose row the job relies on. -/
def DeliveryStage.ensured : DeliveryStage → Option DeliveryKey
  | .idle | .ensuring _ => none
  | .reading key | .readingEndpoint key | .readingEvent key _ | .abandoning key | .counting key _
  | .readingToken key | .sending key | .recording key _ | .failing key _ => some key

def NotificationDeliveryRow.IsSettled (row : NotificationDeliveryRow) : Prop :=
  row.status = .delivered ↔ row.deliveredAt.isSome = true

namespace DeliverySystem

def isDelivered (s : DeliverySystem) (key : DeliveryKey) : Bool :=
  (s.find key).any (·.deliveredAt.isSome)

def AllSettled (s : DeliverySystem) : Prop := ∀ key, ∀ row ∈ s.find key, row.IsSettled

def NoneRecords (s : DeliverySystem) (key : DeliveryKey) : Prop :=
  ∀ session, ¬ (s.stage session).Records key

/-- The transport takes one message at most for a pair, and its row is delivered exactly where it
has. -/
structure SentOnce (s : DeliverySystem) : Prop where
  once : ∀ key, s.accepted.count key ≤ 1
  settled : s.AllSettled
  outcome : ∀ key, s.NoneRecords key → (s.isDelivered key = true ↔ key ∈ s.accepted)

/-- A message is taken where the row is not delivered and no other job is about to write that it is;
what has been taken gets written, and no failure is written over a delivery. -/
def sendsOnce (s : DeliverySystem) : DeliveryAction → Prop
  | .accept session _ => match s.stage session with
    | .sending key => s.isDelivered key = false ∧ s.NoneRecords key
    | _ => True
  | .reject session taken _ => match s.stage session with
    | .sending _ => taken = false
    | _ => True
  | .fail session _ | .crash session => match s.stage session with
    | .recording _ _ => False
    | _ => True
  | .proceed session _ => match s.stage session with
    | .failing key _ | .abandoning key => s.isDelivered key = false
    | _ => True
  | _ => True

/-- A job about to write has had its message taken, and another one has if the row is delivered or
a second job is about to write. -/
structure OutcomesHeld (s : DeliverySystem) : Prop where
  present : ∀ session, ∀ key ∈ (s.stage session).ensured, (s.find key).isSome = true
  taken : ∀ session key, (s.stage session).Records key → key ∈ s.accepted
  two : ∀ session other key, session ≠ other → (s.stage session).Records key →
    (s.stage other).Records key → 2 ≤ s.accepted.count key
  after : ∀ session key, (s.stage session).Records key → s.isDelivered key = true →
    2 ≤ s.accepted.count key
  delivered : ∀ key, s.isDelivered key = true → key ∈ s.accepted

variable {s s' : DeliverySystem} {session other : DeliverySessionId} {key : DeliveryKey}
variable {stage : DeliveryStage} {f : NotificationDeliveryRow → NotificationDeliveryRow}

theorem stage_setStage_eq : (s.setStage session stage).stage session = stage := if_pos rfl

theorem stage_setStage_of_ne (h : other ≠ session) :
    (s.setStage session stage).stage other = s.stage other := if_neg h

theorem not_records_of_stage (h : s.stage session = stage) (hnew : ∀ k, ¬ stage.Records k) :
    ∀ k, ¬ (s.stage session).Records k := by
  rw [h]
  exact hnew

variable {k : DeliveryKey} {message : String} {messageId : Option String} {now : Timestamp}

theorem find_update (hf : ∀ row, (f row).key = row.key) :
    (s.update key f).find k = if k = key then (s.find k).map f else s.find k :=
  KeyedTable.get_set fun row hrow => (hf row).trans hrow

theorem find_ensure : (s.ensure key).find k =
    if k = key then some ((s.find key).getD { key := key }) else s.find k := by
  unfold ensure
  rcases hrow : s.find key with _ | row
  · have happend : find { s with deliveries := s.deliveries ++ [{ key := key }] } k =
        (s.find k).or (if key = k then some { key := key } else none) := KeyedTable.get_append
    rw [if_neg (by simp), happend]
    by_cases hk : k = key
    · rw [hk, if_pos rfl, if_pos rfl, hrow]
      rfl
    · rw [if_neg (Ne.symm hk), if_neg hk, Option.or_none]
  · rw [if_pos Option.isSome_some]
    split_ifs with hk
    · rw [hk, hrow]
      rfl
    · rfl

/-- The rows keep what they say of their deliveries. -/
structure Quiet (s s' : DeliverySystem) : Prop where
  accepted : s'.accepted = s.accepted
  stage : s'.stage = s.stage
  delivered : ∀ key, s'.isDelivered key = s.isDelivered key
  present : ∀ key, (s.find key).isSome = true → (s'.find key).isSome = true

theorem Quiet.refl : Quiet s s := ⟨rfl, rfl, fun _ => rfl, fun _ => id⟩

theorem quiet_ensure : Quiet s (s.ensure key) := by
  refine ⟨?_, ?_, fun k => ?_, fun k hk => ?_⟩
  · unfold ensure
    split_ifs <;> rfl
  · unfold ensure
    split_ifs <;> rfl
  · unfold isDelivered
    rw [find_ensure]
    split_ifs with hsame
    · rw [hsame]
      rcases s.find key with _ | row <;> rfl
    · rfl
  · rw [find_ensure]
    split_ifs
    · rfl
    · exact hk

theorem quiet_update (hf : ∀ row, (f row).key = row.key)
    (hdelivered : ∀ row, (f row).deliveredAt = row.deliveredAt) : Quiet s (s.update key f) := by
  refine ⟨rfl, rfl, fun k => ?_, fun k hk => ?_⟩
  · unfold isDelivered
    rw [find_update hf]
    split_ifs
    · rcases s.find k with _ | row
      · rfl
      · show (f row).deliveredAt.isSome = row.deliveredAt.isSome
        rw [hdelivered]
    · rfl
  · rw [find_update hf]
    split_ifs
    · rw [Option.isSome_map]
      exact hk
    · exact hk

theorem records_setStage (hq : Quiet s s') (hold : ¬ (s.stage session).Records key)
    (hnew : ¬ stage.Records key) :
    ((s'.setStage session stage).stage other).Records key ↔ (s.stage other).Records key := by
  by_cases hother : other = session
  · rw [hother, stage_setStage_eq]
    exact iff_of_false hnew hold
  · rw [stage_setStage_of_ne hother, hq.stage]

section Quiet

variable (hq : Quiet s s') (hold : ∀ key, ¬ (s.stage session).Records key)
  (hnew : ∀ key, ¬ stage.Records key)

include hq hold hnew

theorem Quiet.outcomesHeld (hensured : ∀ key ∈ stage.ensured, (s'.find key).isSome = true)
    (h : OutcomesHeld s) : OutcomesHeld (s'.setStage session stage) := by
  have hrecords : ∀ other key, ((s'.setStage session stage).stage other).Records key ↔
      (s.stage other).Records key := fun _ key => records_setStage hq (hold key) (hnew key)
  refine ⟨fun other key hkey => ?_, fun other key hother => ?_,
    fun one other key hne hone hother => ?_, fun other key hother hdelivered => ?_,
    fun key hdelivered => ?_⟩
  · by_cases hother : other = session
    · rw [hother, stage_setStage_eq] at hkey
      exact hensured key hkey
    · rw [stage_setStage_of_ne hother, hq.stage] at hkey
      exact hq.present key (h.present other key hkey)
  · show key ∈ s'.accepted
    rw [hq.accepted]
    exact h.taken other key ((hrecords other key).1 hother)
  · show 2 ≤ s'.accepted.count key
    rw [hq.accepted]
    exact h.two one other key hne ((hrecords one key).1 hone) ((hrecords other key).1 hother)
  · show 2 ≤ s'.accepted.count key
    have hdelivered' : s'.isDelivered key = true := hdelivered
    rw [hq.delivered] at hdelivered'
    rw [hq.accepted]
    exact h.after other key ((hrecords other key).1 hother) hdelivered'
  · show key ∈ s'.accepted
    have hdelivered' : s'.isDelivered key = true := hdelivered
    rw [hq.delivered] at hdelivered'
    rw [hq.accepted]
    exact h.delivered key hdelivered'

theorem Quiet.sentOnce_iff (h : SentOnce s) :
    SentOnce (s'.setStage session stage) ↔ s'.AllSettled := by
  refine ⟨fun hafter => hafter.settled, fun hsettled =>
    ⟨fun key => ?_, hsettled, fun key hnone => ?_⟩⟩
  · show s'.accepted.count key ≤ 1
    rw [hq.accepted]
    exact h.once key
  · show s'.isDelivered key = true ↔ key ∈ s'.accepted
    rw [hq.delivered, hq.accepted]
    refine h.outcome key fun other hother => hnone other ?_
    exact (records_setStage hq (hold key) (hnew key)).2 hother

end Quiet

theorem allSettled_ensure (h : s.AllSettled) : (s.ensure key).AllSettled := by
  intro k row hrow
  rw [Option.mem_def, find_ensure] at hrow
  split_ifs at hrow with hk
  · obtain rfl := Option.some.inj hrow
    rcases hfind : s.find key with _ | old
    · exact iff_of_false nofun nofun
    · exact h key old hfind
  · exact h k row hrow

theorem allSettled_update (hf : ∀ row, (f row).key = row.key)
    (hsettled : ∀ row, row.IsSettled → (f row).IsSettled) (h : s.AllSettled) :
    (s.update key f).AllSettled := by
  intro k row hrow
  rw [Option.mem_def, find_update hf] at hrow
  split_ifs at hrow
  · obtain ⟨old, hold, rfl⟩ := Option.map_eq_some_iff.1 hrow
    exact hsettled old (h k old hold)
  · exact h k row hrow

theorem allSettled_failed_iff (h : s.AllSettled) :
    (s.update key (·.failed message)).AllSettled ↔ s.isDelivered key = false := by
  have hkey : ∀ row : NotificationDeliveryRow, (row.failed message).key = row.key := fun _ => rfl
  constructor
  · intro hafter
    rcases hfind : s.find key with _ | row
    · rw [isDelivered, hfind]
      rfl
    · have hrow : (s.update key (·.failed message)).find key = some (row.failed message) := by
        rw [find_update hkey, if_pos rfl, hfind]
        rfl
      have hsettled := hafter key _ hrow
      rw [isDelivered, hfind, Option.any_some, Bool.eq_false_iff]
      exact fun hdelivered => nomatch hsettled.2 hdelivered
  · intro hnone k row hrow
    rw [Option.mem_def, find_update hkey] at hrow
    split_ifs at hrow with hk
    · obtain ⟨old, hold, rfl⟩ := Option.map_eq_some_iff.1 hrow
      rw [hk] at hold
      rw [isDelivered, hold, Option.any_some, Bool.eq_false_iff] at hnone
      exact iff_of_false nofun hnone
    · exact h k row hrow

theorem outcomesHeld_taken (hensured : ∀ k ∈ stage.ensured, k = key)
    (hpresent : (s.find key).isSome = true) (hrecords : ∀ k, stage.Records k → k = key)
    (hold : ∀ k, ¬ (s.stage session).Records k) (h : OutcomesHeld s) :
    OutcomesHeld ((s.take key).setStage session stage) := by
  have hgrow : ∀ k, s.accepted.count k ≤ (key :: s.accepted).count k := fun k =>
    List.count_le_count_cons
  have hin : ∀ {other k}, (((s.take key).setStage session stage).stage other).Records k →
      (other = session ∧ k = key) ∨ other ≠ session ∧ (s.stage other).Records k := by
    intro other k hother
    by_cases hsame : other = session
    · rw [hsame, stage_setStage_eq] at hother
      exact Or.inl ⟨hsame, hrecords k hother⟩
    · rw [stage_setStage_of_ne hsame] at hother
      exact Or.inr ⟨hsame, hother⟩
  have hmore : key ∈ s.accepted → 2 ≤ (key :: s.accepted).count key := by
    intro hmem
    rw [List.count_cons_self]
    exact Nat.succ_le_succ (List.count_pos_iff.2 hmem)
  refine ⟨fun other k hk => ?_, fun other k hother => ?_, fun one other k hne hone hother => ?_,
    fun other k hother hdelivered => ?_, fun k hdelivered => ?_⟩
  · by_cases hother : other = session
    · rw [hother, stage_setStage_eq] at hk
      rw [hensured k hk]
      exact hpresent
    · rw [stage_setStage_of_ne hother] at hk
      exact h.present other k hk
  · rcases hin hother with ⟨-, rfl⟩ | ⟨-, hrec⟩
    · exact List.mem_cons_self
    · exact List.mem_cons_of_mem _ (h.taken other k hrec)
  · rcases hin hone with ⟨rfl, rfl⟩ | ⟨-, hrec⟩ <;> rcases hin hother with ⟨rfl, heq⟩ | ⟨-, hrec'⟩
    · exact absurd rfl hne
    · exact hmore (h.taken other _ hrec')
    · rw [heq] at hrec ⊢
      exact hmore (h.taken one _ hrec)
    · exact (h.two one other k hne hrec hrec').trans (hgrow k)
  · rcases hin hother with ⟨-, rfl⟩ | ⟨-, hrec⟩
    · exact hmore (h.delivered _ hdelivered)
    · exact (h.after other k hrec hdelivered).trans (hgrow k)
  · exact List.mem_cons_of_mem _ (h.delivered k hdelivered)

theorem sentOnce_accepted_iff (h : OutcomesHeld s) (hs : SentOnce s)
    (hstage : s.stage session = .sending key) :
    SentOnce ((s.take key).setStage session (.recording key messageId)) ↔
      s.isDelivered key = false ∧ s.NoneRecords key := by
  constructor
  · intro hafter
    have hnot : key ∉ s.accepted := by
      have honce : (key :: s.accepted).count key ≤ 1 := hafter.once key
      rw [List.count_cons_self] at honce
      exact List.count_eq_zero.1 (by omega)
    refine ⟨Bool.eq_false_iff.2 fun hdelivered => hnot (h.delivered key hdelivered), ?_⟩
    exact fun other hother => hnot (h.taken other key hother)
  · rintro ⟨hdelivered, hnone⟩
    have hnot : key ∉ s.accepted := fun hmem =>
      Bool.eq_false_iff.1 hdelivered ((hs.outcome key hnone).2 hmem)
    refine ⟨fun k => ?_, hs.settled, fun k hk => ?_⟩
    · show (key :: s.accepted).count k ≤ 1
      by_cases hsame : k = key
      · rw [hsame, List.count_cons_self, List.count_eq_zero.2 hnot]
      · rw [List.count_cons_of_ne (Ne.symm hsame)]
        exact hs.once k
    · have hne : k ≠ key := by
        rintro rfl
        refine hk session ?_
        rw [stage_setStage_eq]
        rfl
      have hnone' : s.NoneRecords k := by
        intro other hother
        by_cases hsame : other = session
        · rw [hsame, hstage] at hother
          exact hother
        · refine hk other ?_
          rw [stage_setStage_of_ne hsame]
          exact hother
      show s.isDelivered k = true ↔ k ∈ key :: s.accepted
      rw [hs.outcome k hnone', List.mem_cons, or_iff_right hne]

theorem not_sentOnce_of_taken (hmem : key ∈ s.accepted) (hdelivered : s.isDelivered key = false)
    (hnone : s.NoneRecords key) : ¬ SentOnce s := by
  intro hs
  rw [(hs.outcome key hnone).2 hmem] at hdelivered
  cases hdelivered

theorem not_sentOnce_rejected (h : OutcomesHeld s) :
    ¬ SentOnce ((s.take key).setStage session (.failing key message)) := by
  intro hafter
  have hnot : key ∉ s.accepted := by
    have honce : (key :: s.accepted).count key ≤ 1 := hafter.once key
    rw [List.count_cons_self] at honce
    exact List.count_eq_zero.1 (by omega)
  refine not_sentOnce_of_taken List.mem_cons_self ?_ (fun other hother => ?_) hafter
  · exact Bool.eq_false_iff.2 fun hdelivered => hnot (h.delivered key hdelivered)
  · by_cases hsame : other = session
    · rw [hsame, stage_setStage_eq] at hother
      exact hother
    · rw [stage_setStage_of_ne hsame] at hother
      exact hnot (h.taken other key hother)

theorem not_sentOnce_dropped (h : OutcomesHeld s) (hs : SentOnce s)
    (hstage : s.stage session = .recording key messageId) (hnew : ∀ k, ¬ stage.Records k)
    : ¬ SentOnce (s.setStage session stage) := by
  have hrecords : (s.stage session).Records key := by
    rw [hstage]
    rfl
  have honce := hs.once key
  refine not_sentOnce_of_taken (h.taken session key hrecords) ?_ fun other hother => ?_
  · refine Bool.eq_false_iff.2 fun hdelivered => ?_
    have htwo := h.after session key hrecords hdelivered
    omega
  · by_cases hsame : other = session
    · rw [hsame, stage_setStage_eq] at hother
      exact hnew key hother
    · rw [stage_setStage_of_ne hsame] at hother
      have htwo := h.two session other key (Ne.symm hsame) hrecords hother
      omega

theorem key_succeeded (row : NotificationDeliveryRow)
    : (row.succeeded now messageId).key = row.key := rfl

theorem isDelivered_succeeded :
    (s.update key (·.succeeded now messageId)).isDelivered k =
      if k = key then (s.find k).isSome else s.isDelivered k := by
  unfold isDelivered
  rw [find_update key_succeeded]
  split_ifs
  · rcases s.find k with _ | row <;> rfl
  · rfl

theorem kept_recording (h : OutcomesHeld s) (hs : SentOnce s)
    (hstage : s.stage session = .recording key messageId) :
    OutcomesHeld ((s.update key (·.succeeded now messageId)).setStage session .idle) ∧
      SentOnce ((s.update key (·.succeeded now messageId)).setStage session .idle) := by
  have hrecords : (s.stage session).Records key := by
    rw [hstage]
    rfl
  have hpresent : (s.find key).isSome = true := h.present session key (by rw [hstage]; rfl)
  have hin : ∀ {other k}, (((s.update key (·.succeeded now messageId)).setStage session
      .idle).stage other).Records k → other ≠ session ∧ (s.stage other).Records k := by
    intro other k hother
    by_cases hsame : other = session
    · rw [hsame, stage_setStage_eq] at hother
      exact absurd hother id
    · rw [stage_setStage_of_ne hsame] at hother
      exact ⟨hsame, hother⟩
  have hdelivered : ∀ {k}, ((s.update key (·.succeeded now messageId)).setStage session
      .idle).isDelivered k = if k = key then (s.find k).isSome else s.isDelivered k :=
    isDelivered_succeeded
  refine ⟨⟨fun other k hk => ?_, fun other k hother => ?_, fun one other k hne hone hother => ?_,
    fun other k hother hafter => ?_, fun k hafter => ?_⟩, fun k => hs.once k, ?_, fun k hk => ?_⟩
  · have hother : k ∈ (s.stage other).ensured := by
      by_cases hsame : other = session
      · rw [hsame, stage_setStage_eq] at hk
        cases hk
      · rw [stage_setStage_of_ne hsame] at hk
        exact hk
    show ((s.update key (·.succeeded now messageId)).find k).isSome = true
    rw [find_update key_succeeded]
    split_ifs
    · rw [Option.isSome_map]
      exact h.present other k hother
    · exact h.present other k hother
  · exact h.taken other k (hin hother).2
  · exact h.two one other k hne (hin hone).2 (hin hother).2
  · obtain ⟨hne, hrec⟩ := hin hother
    rw [hdelivered] at hafter
    split_ifs at hafter with hk
    · rw [hk] at hrec ⊢
      exact h.two session other key (Ne.symm hne) hrecords hrec
    · exact h.after other k hrec hafter
  · rw [hdelivered] at hafter
    split_ifs at hafter with hk
    · rw [hk]
      exact h.taken session key hrecords
    · exact h.delivered k hafter
  · exact allSettled_update (fun _ => rfl) (fun _ _ => iff_of_true rfl rfl) hs.settled
  · rw [hdelivered]
    split_ifs with hsame
    · rw [hsame]
      exact iff_of_true hpresent (h.taken session key hrecords)
    · refine hs.outcome k fun other hother => hk other ?_
      have hne : other ≠ session := by
        rintro rfl
        rw [hstage] at hother
        exact hsame (Eq.symm hother)
      rw [stage_setStage_of_ne hne]
      exact hother

theorem kept_stage (next : DeliveryStage) (hold : ∀ k, ¬ (s.stage session).Records k)
    (hnew : ∀ k, ¬ next.Records k) (hensured : ∀ k ∈ next.ensured, (s.find k).isSome = true)
    (h : OutcomesHeld s) (hs : SentOnce s) :
    OutcomesHeld (s.setStage session next) ∧ SentOnce (s.setStage session next) :=
  ⟨Quiet.refl.outcomesHeld hold hnew hensured h,
    (Quiet.refl.sentOnce_iff hold hnew hs).2 hs.settled⟩

section

variable (hold : ∀ k, ¬ (s.stage session).Records k)
include hold

theorem kept_idle (h : OutcomesHeld s) (hs : SentOnce s) : OutcomesHeld (s.setStage session .idle) ∧
      SentOnce (s.setStage session .idle) :=
  kept_stage .idle hold (fun _ => id) nofun h hs

theorem failed_sentOnce_iff (h : OutcomesHeld s) (hs : SentOnce s) :
    OutcomesHeld ((s.update key (·.failed message)).setStage session .idle) ∧
      (SentOnce ((s.update key (·.failed message)).setStage session .idle) ↔
        s.isDelivered key = false) := by
  have hq : Quiet s (s.update key (·.failed message)) :=
    quiet_update (fun _ => rfl) fun _ => rfl
  refine ⟨hq.outcomesHeld hold (fun _ => id) nofun h, ?_⟩
  rw [hq.sentOnce_iff hold (fun _ => id) hs]
  exact allSettled_failed_iff hs.settled

theorem kept_counting {endpoint : NotificationEndpointRow} (hpresent : (s.find key).isSome = true)
    (h : OutcomesHeld s) (hs : SentOnce s) :
    OutcomesHeld ((s.update key (·.attempted)).setStage session
      (if endpoint.hasSecret then .readingToken key else .sending key)) ∧
    SentOnce ((s.update key (·.attempted)).setStage session
      (if endpoint.hasSecret then .readingToken key else .sending key)) := by
  have hq : Quiet s (s.update key (·.attempted)) := quiet_update (fun _ => rfl) fun _ => rfl
  have hnew : ∀ k, ¬ (if endpoint.hasSecret = true then DeliveryStage.readingToken key
      else .sending key).Records k := by
    intro k
    split_ifs <;> exact id
  refine ⟨hq.outcomesHeld hold hnew (fun k hk => ?_) h, (hq.sentOnce_iff hold hnew hs).2 ?_⟩
  · have heq : key = k := by split_ifs at hk <;> exact Option.some.inj hk
    rw [← heq]
    exact hq.present key hpresent
  · exact allSettled_update (fun _ => rfl) (fun _ hrow => hrow) hs.settled

theorem kept_ensuring (h : OutcomesHeld s) (hs : SentOnce s)
    : OutcomesHeld ((s.ensure key).setStage session (.reading key)) ∧
      SentOnce ((s.ensure key).setStage session (.reading key)) := by
  have hq : Quiet s (s.ensure key) := quiet_ensure
  refine ⟨hq.outcomesHeld hold (fun _ => id) (fun k hk => ?_) h,
    (hq.sentOnce_iff hold (fun _ => id) hs).2 (allSettled_ensure hs.settled)⟩
  obtain rfl := Option.some.inj hk
  rw [find_ensure, if_pos rfl]
  rfl

theorem kept_checked {endpoint : Option NotificationEndpointRow}
    (hpresent : ∀ k ∈ some key, (s.find k).isSome = true) (h : OutcomesHeld s) (hs : SentOnce s)
    : OutcomesHeld (s.setStage session (s.checkedStage key endpoint)) ∧
      SentOnce (s.setStage session (s.checkedStage key endpoint)) := by
  unfold checkedStage
  rcases endpoint with _ | row
  · exact kept_stage (.abandoning key) hold (fun _ => id) hpresent h hs
  · dsimp only
    split_ifs
    · exact kept_stage (.abandoning key) hold (fun _ => id) hpresent h hs
    · exact kept_stage (.counting key row) hold (fun _ => id) hpresent h hs
    · exact kept_idle hold h hs

end

section

variable (h : OutcomesHeld s)
include h

section

variable (hs : SentOnce s)
include hs

theorem proceed_sentOnce_iff :
    OutcomesHeld (s.proceed session now) ∧
      (SentOnce (s.proceed session now) ↔ s.sendsOnce (.proceed session now)) := by
  have hpresent := h.present session
  rcases hstage : s.stage session with _ | key | key | key | ⟨key, endpoint⟩ | key |
    ⟨key, endpoint⟩ | key | key | ⟨key, messageId⟩ | ⟨key, message⟩
  all_goals
    rw [hstage] at hpresent
    simp only [proceed, sendsOnce, hstage, iff_true]
  case recording => exact kept_recording h hs hstage
  case idle | sending => exact ⟨h, hs⟩
  all_goals
    have hold := not_records_of_stage hstage fun _ => id
  case ensuring =>
    split_ifs
    · exact kept_ensuring hold h hs
    · exact kept_idle hold h hs
  case reading =>
    rcases hrow : s.find key with _ | row
    · exact kept_idle hold h hs
    · dsimp only
      split_ifs
      · exact kept_idle hold h hs
      · exact kept_stage (.readingEndpoint key) hold (fun _ => id) hpresent h hs
  case readingEndpoint =>
    exact kept_stage (.readingEvent key _) hold (fun _ => id) hpresent h hs
  case readingEvent => exact kept_checked hold hpresent h hs
  case readingToken => exact kept_stage (.sending key) hold (fun _ => id) hpresent h hs
  case counting => exact kept_counting hold (hpresent key rfl) h hs
  case abandoning | failing => exact failed_sentOnce_iff hold h hs

theorem fail_sentOnce_iff :
    (s.sendsOnce (.fail session message) → OutcomesHeld (s.fail session message)) ∧
      (SentOnce (s.fail session message) ↔ s.sendsOnce (.fail session message)) := by
  rcases hstage : s.stage session with _ | _ | _ | _ | _ | _ | _ | _ | _ | ⟨key, messageId⟩ | _
  all_goals simp only [fail, sendsOnce, hstage]
  case recording =>
    exact ⟨nofun, iff_of_false (not_sentOnce_dropped h hs hstage fun _ => id) id⟩
  case sending => exact ⟨fun _ => h, iff_of_true hs trivial⟩
  all_goals
    have hold := not_records_of_stage hstage fun _ => id
    obtain ⟨hafter, hsent⟩ := kept_idle hold h hs
    exact ⟨fun _ => hafter, iff_of_true hsent trivial⟩

theorem crash_sentOnce_iff :
    (s.sendsOnce (.crash session) → OutcomesHeld (s.setStage session .idle)) ∧
      (SentOnce (s.setStage session .idle) ↔ s.sendsOnce (.crash session)) := by
  rcases hstage : s.stage session with _ | _ | _ | _ | _ | _ | _ | _ | _ | ⟨key, messageId⟩ | _
  all_goals simp only [sendsOnce, hstage]
  case recording =>
    exact ⟨nofun, iff_of_false (not_sentOnce_dropped h hs hstage fun _ => id) id⟩
  all_goals
    have hold := not_records_of_stage hstage fun _ => id
    obtain ⟨hafter, hsent⟩ := kept_idle hold h hs
    exact ⟨fun _ => hafter, iff_of_true hsent trivial⟩

theorem accept_sentOnce_iff :
    (s.sendsOnce (.accept session messageId) → OutcomesHeld (s.accept session messageId)) ∧
      (SentOnce (s.accept session messageId) ↔ s.sendsOnce (.accept session messageId)) := by
  have hpresent := h.present session
  rcases hstage : s.stage session with _ | _ | _ | _ | _ | _ | _ | _ | key | _ | _
  all_goals
    rw [hstage] at hpresent
    simp only [accept, sendsOnce, hstage]
  case sending =>
    have hold := not_records_of_stage hstage fun _ => id
    refine ⟨fun _ => ?_, sentOnce_accepted_iff h hs hstage⟩
    exact outcomesHeld_taken (fun k hk => (Option.some.inj hk).symm) (hpresent key rfl)
      (fun k hk => Eq.symm hk) hold h
  all_goals exact ⟨fun _ => h, iff_of_true hs trivial⟩

theorem reject_sentOnce_iff {taken : Bool} :
    (s.sendsOnce (.reject session taken message) → OutcomesHeld (s.reject session taken message)) ∧
      (SentOnce (s.reject session taken message) ↔
        s.sendsOnce (.reject session taken message)) := by
  have hpresent := h.present session
  rcases hstage : s.stage session with _ | _ | _ | _ | _ | _ | _ | _ | key | _ | _
  all_goals
    rw [hstage] at hpresent
    simp only [reject, sendsOnce, hstage]
  case sending =>
    have hold := not_records_of_stage hstage fun _ => id
    cases taken with
    | false =>
      have hkept := kept_stage (.failing key message) hold (fun _ => id) hpresent h hs
      exact ⟨fun _ => hkept.1, iff_of_true hkept.2 rfl⟩
    | true => exact ⟨nofun, iff_of_false (not_sentOnce_rejected h) nofun⟩
  all_goals exact ⟨fun _ => h, iff_of_true hs trivial⟩

theorem step_sentOnce_iff {action : DeliveryAction} :
    (s.sendsOnce action → OutcomesHeld (s.step action)) ∧
      (SentOnce (s.step action) ↔ s.sendsOnce action) := by
  cases action with
  | proceed session now =>
    obtain ⟨hafter, hiff⟩ := @proceed_sentOnce_iff s session now h hs
    exact ⟨fun _ => hafter, hiff⟩
  | deliver session key =>
    rcases hstage : s.stage session
    all_goals simp only [step, deliver, sendsOnce, hstage]
    case idle =>
      have hold := not_records_of_stage hstage fun _ => id
      have hkept := kept_stage (.ensuring key) hold (fun _ => id) nofun h hs
      exact ⟨fun _ => hkept.1, iff_of_true hkept.2 trivial⟩
    all_goals exact ⟨fun _ => h, iff_of_true hs trivial⟩
  | accept session messageId => exact accept_sentOnce_iff h hs
  | reject session taken message => exact reject_sentOnce_iff h hs
  | fail session message => exact fail_sentOnce_iff h hs
  | crash session => exact crash_sentOnce_iff h hs
  | recordEvent | setEndpoint =>
    exact ⟨fun _ => ⟨h.present, h.taken, h.two, h.after, h.delivered⟩,
      iff_of_true ⟨hs.once, hs.settled, hs.outcome⟩ trivial⟩
  | deleteEndpoint id =>
    simp only [step, deleteEndpoint, sendsOnce]
    split_ifs
    · exact ⟨fun _ => h, iff_of_true hs trivial⟩
    · exact ⟨fun _ => ⟨h.present, h.taken, h.two, h.after, h.delivered⟩,
        iff_of_true ⟨hs.once, hs.settled, hs.outcome⟩ trivial⟩

end

end

variable {events : List NotificationEventId} {endpoints : List NotificationEndpointRow}

theorem outcomesHeld_start :
    OutcomesHeld { events := events, endpoints := endpoints } where
  present := fun _ => nofun
  taken := fun _ _ => nofun
  two := fun _ _ _ _ => nofun
  after := fun _ _ => nofun
  delivered := fun _ => nofun

theorem sentOnce_start :
    SentOnce { events := events, endpoints := endpoints } where
  once := fun _ => Nat.zero_le _
  settled := fun _ => nofun
  outcome := fun _ _ => iff_of_false nofun nofun

/-- With no delivery yet, every notification is sent once and its row says so exactly as long as
every step meets the condition. -/
theorem sent_once_iff {events : List NotificationEventId} {endpoints : List NotificationEndpointRow}
    {actions : List DeliveryAction} :
    Runs.Along DeliverySystem.step SentOnce { events := events, endpoints := endpoints } actions ↔
      Runs.Meets DeliverySystem.step sendsOnce { events := events, endpoints := endpoints }
        actions :=
  Runs.along_iff_meets_of_guarded (fun _ _ h hs => (step_sentOnce_iff h hs).1)
    (fun _ _ h hs => (step_sentOnce_iff h hs).2) outcomesHeld_start sentOnce_start

end DeliverySystem

section Examples

def onePair : DeliveryKey where
  notificationEventId := 1
  endpointId := 7

def twoJobs (now : Timestamp) : List DeliveryAction :=
  .deliver 0 onePair :: List.replicate 5 (.proceed 0 now) ++
    .deliver 1 onePair :: List.replicate 5 (.proceed 1 now) ++
      [.accept 0 none, .proceed 0 now, .accept 1 none, .proceed 1 now]

theorem sent_twice : ¬ ∀ (events : List NotificationEventId)
    (endpoints : List NotificationEndpointRow) (actions : List DeliveryAction),
    Runs.Along DeliverySystem.step DeliverySystem.SentOnce
      { events := events, endpoints := endpoints } actions := by
  intro hall
  have honce := (hall [1] [{ id := 7 }] (twoJobs ⟨⟨2026, 9, 30⟩, 0⟩)).last.once onePair
  revert honce
  decide +kernel

end Examples

end Loxep

import Loxep.Lib.ListSums
import Loxep.Lib.Runs
import Loxep.Notifications

/-!
# When no notification is lost

A market event is published once, by the poll whose insert has stored it. A publication that fails,
or a poll that dies, leaves it with the jobs that were enqueued so far, and no later poll takes it
up again.
-/

namespace Loxep

def PublishStep.event : PublishStep → Option MarketEventRow
  | .loading event => some event
  | .recording source | .routing _ source | .enqueueing _ source _ => source.event

def PublishStage.inHand : PublishStage → List MarketEventRow
  | .publishing step queue _ => step.event.toList ++ queue
  | _ => []

namespace PublishSystem

def hasJob (s : PublishSystem) (event : MarketEventRow) (endpoint : EndpointId) : Bool :=
  s.notificationEvents.any fun row =>
    row.deduplicationKey == .marketEvent event.id && s.jobs.contains (row.id, endpoint)

def NothingLost (s : PublishSystem) : Prop :=
  ∀ event rule, (event, rule) ∈ s.due →
    (∃ session, event ∈ (s.stage session).inHand) ∨ s.hasJob event rule.endpointId = true

def settled (s : PublishSystem) (event : MarketEventRow) : Bool :=
  s.due.all fun (other, rule) => other != event || s.hasJob event rule.endpointId

def dropsNothing (s : PublishSystem) : PublishAction → Bool
  | .fail session => match s.stage session with
    | .publishing step _ _ => step.event.all s.settled
    | _ => true
  | .crash session => (s.stage session).inHand.all s.settled
  | _ => true

def Untold (s : PublishSystem) (event : MarketEventRow) : Prop :=
  ∀ row ∈ s.notificationEvents, row.deduplicationKey ≠ .marketEvent event.id

def Told (s : PublishSystem) (id : NotificationEventId) (event : MarketEventRow) : Prop :=
  ∃ row ∈ s.notificationEvents, row.id = id ∧ row.deduplicationKey = .marketEvent event.id

def StepFits (s : PublishSystem) : PublishStep → Prop
  | .loading event => s.Untold event
  | .recording source => ∀ event ∈ source.event, s.Untold event
  | .routing id source => ∀ event ∈ source.event, s.Told id event
  | .enqueueing id source endpoints => ∀ event ∈ source.event, s.Told id event ∧
      ∀ rule, (event, rule) ∈ s.due →
        rule.endpointId ∈ endpoints ∨ (id, rule.endpointId) ∈ s.jobs

def StageFits (s : PublishSystem) : PublishStage → Prop
  | .publishing step queue _ => s.StepFits step ∧ ∀ event ∈ queue, s.Untold event
  | _ => True

structure PublishFits (s : PublishSystem) : Prop where
  ids : (s.marketEvents.map (·.id)).Nodup
  bound : ∀ event ∈ s.marketEvents, event.id < s.marketEvents.length
  recorded : ∀ row ∈ s.notificationEvents, ∀ id, row.deduplicationKey = .marketEvent id →
    id < s.marketEvents.length
  due : ∀ event rule, (event, rule) ∈ s.due →
    event ∈ s.marketEvents ∧ rule ∈ s.rules ∧ rule.isMatch event.input.routable = true
  stored : ∀ session, ∀ event ∈ (s.stage session).inHand, event ∈ s.marketEvents
  once : ∀ session, (s.stage session).inHand.Nodup
  apart : ∀ session other event, event ∈ (s.stage session).inHand →
    event ∈ (s.stage other).inHand → session = other
  stages : ∀ session, s.StageFits (s.stage session)

variable {s : PublishSystem} {session other : PublishSessionId} {event : MarketEventRow}
variable {queue : List MarketEventRow} {left : List (List MarketEventCandidate)}
variable {source : PublishSource} {step : PublishStep} {stage : PublishStage}
variable {events : List NotificationEventRow} {jobs : List (NotificationEventId × EndpointId)}

theorem inHand_resume : (PublishStage.resume queue left).inHand = queue := by
  rcases queue with _ | ⟨event, queue⟩
  · rcases left with _ | ⟨candidates, left⟩ <;> rfl
  · rfl

theorem stageFits_resume (h : ∀ event ∈ queue, s.Untold event) :
    s.StageFits (.resume queue left) := by
  rcases queue with _ | ⟨event, queue⟩
  · rcases left with _ | ⟨candidates, left⟩ <;> trivial
  · exact List.forall_mem_cons.1 h

theorem stage_setStage_self : (s.setStage session stage).stage session = stage := if_pos rfl

theorem stage_setStage_ne (h : other ≠ session) :
    (s.setStage session stage).stage other = s.stage other := if_neg h

/-- The session records for what it has in hand, enqueues, and keeps part of what it has. -/
structure Moves (s : PublishSystem) (session : PublishSessionId)
    (events : List NotificationEventRow) (jobs : List (NotificationEventId × EndpointId))
    (stage : PublishStage) : Prop where
  grow : s.notificationEvents ⊆ events
  enqueue : s.jobs ⊆ jobs
  keys : ∀ row ∈ events, row ∈ s.notificationEvents ∨ ∀ id,
    row.deduplicationKey = .marketEvent id → ∃ event ∈ (s.stage session).inHand, event.id = id
  sub : stage.inHand.Sublist (s.stage session).inHand
  fits : StageFits { s with notificationEvents := events, jobs := jobs } stage

def moved (s : PublishSystem) (session : PublishSessionId) (events : List NotificationEventRow)
    (jobs : List (NotificationEventId × EndpointId)) (stage : PublishStage) : PublishSystem :=
  PublishSystem.setStage { s with notificationEvents := events, jobs := jobs } session stage

theorem eq_of_id (h : PublishFits s) {a b : MarketEventRow} (ha : a ∈ s.marketEvents)
    (hb : b ∈ s.marketEvents) (hid : a.id = b.id) : a = b :=
  List.inj_on_of_nodup_map h.ids ha hb hid

theorem Moves.untold (hm : Moves s session events jobs stage) (h : PublishFits s)
    (hother : other ≠ session) (hevent : event ∈ (s.stage other).inHand) (huntold : s.Untold event)
    :
    Untold { s with notificationEvents := events, jobs := jobs } event := by
  intro row hrow hkey
  rcases hm.keys row hrow with hold | hown
  · exact huntold row hold hkey
  · obtain ⟨mine, hmine, hid⟩ := hown _ hkey
    have hsame : mine = event := eq_of_id h (h.stored _ _ hmine) (h.stored _ _ hevent) hid
    rw [hsame] at hmine
    exact hother (h.apart _ _ _ hevent hmine)

theorem Moves.told (hm : Moves s session events jobs stage) {id : NotificationEventId}
    (h : s.Told id event) :
    Told { s with notificationEvents := events, jobs := jobs } id event := by
  obtain ⟨row, hrow, hfacts⟩ := h
  exact ⟨row, hm.grow hrow, hfacts⟩

theorem stageFits_mono {s' : PublishSystem} (hfits : s.StageFits stage)
    (huntold : ∀ event ∈ stage.inHand, s.Untold event → s'.Untold event)
    (htold : ∀ id event, s.Told id event → s'.Told id event)
    (hdue : ∀ event ∈ stage.inHand, ∀ rule, (event, rule) ∈ s'.due →
      ∃ old, (event, old) ∈ s.due ∧ old.endpointId = rule.endpointId)
    (hjobs : s.jobs ⊆ s'.jobs) : s'.StageFits stage := by
  rcases stage with _ | ⟨candidates, left⟩ | ⟨step, queue, left⟩
  · trivial
  · trivial
  obtain ⟨hstep, hqueue⟩ := hfits
  have hin : ∀ event ∈ step.event, event ∈ (PublishStage.publishing step queue left).inHand :=
    fun event hevent => List.mem_append_left _ (Option.mem_toList.2 hevent)
  refine ⟨?_, fun event hevent =>
    huntold event (List.mem_append_right _ hevent) (hqueue event hevent)⟩
  cases step with
  | loading event => exact huntold event (hin event rfl) hstep
  | recording source =>
    exact fun event hevent => huntold event (hin event hevent) (hstep event hevent)
  | routing id source => exact fun event hevent => htold id event (hstep event hevent)
  | enqueueing id source endpoints =>
    intro event hevent
    obtain ⟨htell, hold⟩ := hstep event hevent
    refine ⟨htold id event htell, fun rule hrule => ?_⟩
    obtain ⟨old, hmem, heq⟩ := hdue event (hin event hevent) rule hrule
    rw [← heq]
    exact (hold old hmem).imp_right fun hjob => hjobs hjob

section

variable (hm : Moves s session events jobs stage)
include hm

theorem Moves.stageFits (h : PublishFits s) (hother : other ≠ session) :
    StageFits { s with notificationEvents := events, jobs := jobs } (s.stage other) :=
  stageFits_mono (h.stages other) (fun _ => hm.untold h hother) (fun _ _ => hm.told)
    (fun _ _ rule hrule => ⟨rule, hrule, rfl⟩) hm.enqueue

theorem Moves.publishFits (h : PublishFits s) :
    PublishFits (s.moved session events jobs stage) := by
  have hself : (s.moved session events jobs stage).stage session = stage := if_pos rfl
  have hne : ∀ {other}, other ≠ session →
      (s.moved session events jobs stage).stage other = s.stage other := fun h => if_neg h
  have hsub : ∀ other, ((s.moved session events jobs stage).stage other).inHand.Sublist
      (s.stage other).inHand := by
    intro other
    by_cases hother : other = session
    · rw [hother, hself]
      exact hm.sub
    · rw [hne hother]
  refine ⟨h.ids, h.bound, fun row hrow id hkey => ?_, h.due, fun other event hevent => ?_,
    fun other => ?_, fun one two event hone htwo => ?_, fun other => ?_⟩
  · rcases hm.keys row hrow with hold | hown
    · exact h.recorded row hold id hkey
    · obtain ⟨event, hevent, rfl⟩ := hown id hkey
      exact h.bound event (h.stored _ _ hevent)
  · exact h.stored other event ((hsub other).subset hevent)
  · exact (h.once other).sublist (hsub other)
  · exact h.apart one two event ((hsub one).subset hone) ((hsub two).subset htwo)
  · by_cases hother : other = session
    · rw [hother, hself]
      exact hm.fits
    · rw [hne hother]
      exact hm.stageFits h hother

theorem Moves.hasJob {endpoint : EndpointId} (h : s.hasJob event endpoint = true) :
    (s.moved session events jobs stage).hasJob event endpoint = true := by
  obtain ⟨row, hrow, hfacts⟩ := List.any_eq_true.1 h
  rw [Bool.and_eq_true, List.contains_iff_mem] at hfacts
  refine List.any_eq_true.2 ⟨row, hm.grow hrow, ?_⟩
  rw [Bool.and_eq_true, List.contains_iff_mem]
  exact ⟨hfacts.1, hm.enqueue hfacts.2⟩

theorem Moves.nothingLost (hlost : NothingLost s)
    (hkeeps : ∀ event ∈ (s.stage session).inHand, event ∈ stage.inHand ∨ ∀ rule,
      (event, rule) ∈ s.due → s.hasJob event rule.endpointId = true) :
    NothingLost (s.moved session events jobs stage) := by
  intro event rule hdue
  rcases hlost event rule hdue with ⟨holder, hheld⟩ | hjob
  · by_cases hsame : holder = session
    · rw [hsame] at hheld
      rcases hkeeps event hheld with hstill | hjobs
      · refine Or.inl ⟨session, ?_⟩
        rw [show (s.moved session events jobs stage).stage session = stage from if_pos rfl]
        exact hstill
      · exact Or.inr (hm.hasJob (hjobs rule hdue))
    · refine Or.inl ⟨holder, ?_⟩
      rw [show (s.moved session events jobs stage).stage holder = s.stage holder from if_neg hsame]
      exact hheld
  · exact Or.inr (hm.hasJob hjob)

theorem Moves.kept (h : PublishFits s) (hlost : NothingLost s)
    (hkeeps : ∀ event ∈ (s.stage session).inHand, event ∈ stage.inHand ∨ ∀ rule,
      (event, rule) ∈ s.due → s.hasJob event rule.endpointId = true) :
    PublishFits (s.moved session events jobs stage) ∧
      NothingLost (s.moved session events jobs stage) :=
  ⟨hm.publishFits h, hm.nothingLost hlost hkeeps⟩

end

theorem moves_stage (hsub : stage.inHand.Sublist (s.stage session).inHand)
    (hfits : s.StageFits stage) : Moves s session s.notificationEvents s.jobs stage :=
  ⟨fun _ => id, fun _ => id, fun _ hrow => Or.inl hrow, hsub, hfits⟩

theorem validate_market : event.input.validate = true := by
  unfold RecordNotificationEventInput.validate
  have htype : NotificationEventClass.market.eventTypes.contains event.eventType.text = true := by
    cases event.eventType <;> decide
  rw [show event.input.eventClass = .market from rfl,
    show event.input.eventType = event.eventType.text from rfl, htype]
  rfl

theorem isRecorded_of_untold (h : s.Untold event) :
    s.isRecorded event.input.deduplicationKey = false := by
  refine List.any_eq_false.2 fun row hrow => ?_
  rw [beq_iff_eq]
  exact h row hrow

variable {rule : NotificationRuleRow} {fact : DomainFact}

variable {rules : List NotificationRuleRow} {f : NotificationRuleRow → Option NotificationRuleRow}
  {enqueues : Bool} {action : PublishAction}

theorem mem_routeNotificationEvent {event : RoutableNotificationEvent} (hrule : rule ∈ rules)
    (hmatch : rule.isMatch event = true) :
    rule.endpointId ∈ routeNotificationEvent rules event := by
  have hkeep : ∀ (rules : List NotificationRuleRow) (endpoints : List EndpointId) endpoint,
      endpoint ∈ endpoints ∨ endpoint ∈ rules.map (·.endpointId) →
      endpoint ∈ rules.foldl (fun endpoints rule =>
        if rule.endpointId ∈ endpoints then endpoints else endpoints ++ [rule.endpointId])
          endpoints := by
    intro rules
    induction rules with
    | nil => exact fun endpoints endpoint h => h.resolve_right List.not_mem_nil
    | cons first rules ih =>
      intro endpoints endpoint h
      refine ih _ _ ?_
      rw [List.map_cons, List.mem_cons] at h
      dsimp only
      split_ifs with hmem
      · rcases h with h | rfl | h
        · exact Or.inl h
        · exact Or.inl hmem
        · exact Or.inr h
      · rw [List.mem_append, List.mem_singleton]
        tauto
  exact hkeep _ [] _ (Or.inr (List.mem_map_of_mem (List.mem_filter.2 ⟨hrule, hmatch⟩)))

section Steps

variable (h : PublishFits s) (hlost : NothingLost s)
variable {id : NotificationEventId} {endpoints : List EndpointId}

include h hlost

theorem kept_resume (hstage : s.stage session = .publishing step queue left)
    (hjobs : ∀ event ∈ step.event, ∀ rule, (event, rule) ∈ s.due →
      s.hasJob event rule.endpointId = true) :
    PublishFits (s.setStage session (.resume queue left)) ∧
      NothingLost (s.setStage session (.resume queue left)) := by
  have hfits := h.stages session
  rw [hstage] at hfits
  have hm : Moves s session s.notificationEvents s.jobs (.resume queue left) := by
    refine moves_stage ?_ (stageFits_resume hfits.2)
    rw [inHand_resume, hstage]
    exact List.sublist_append_right _ _
  refine hm.kept h hlost fun event hevent => ?_
  rw [hstage] at hevent
  rw [inHand_resume]
  rcases List.mem_append.1 hevent with hmine | hqueue
  · exact Or.inr (hjobs event (Option.mem_toList.1 hmine))
  · exact Or.inl hqueue

theorem kept_next {next : PublishStep} (hstage : s.stage session = .publishing step queue left)
    (hevent : next.event = step.event) (hfits : s.StepFits next) :
    PublishFits (s.setStage session (.publishing next queue left)) ∧
      NothingLost (s.setStage session (.publishing next queue left)) := by
  have hqueue := h.stages session
  rw [hstage] at hqueue
  have hsame : (PublishStage.publishing next queue left).inHand = (s.stage session).inHand := by
    rw [hstage]
    show next.event.toList ++ queue = step.event.toList ++ queue
    rw [hevent]
  have hm : Moves s session s.notificationEvents s.jobs (.publishing next queue left) :=
    moves_stage (hsame ▸ List.Sublist.refl _) ⟨hfits, hqueue.2⟩
  refine hm.kept h hlost fun event hmem => Or.inl ?_
  rw [hsame]
  exact hmem

theorem kept_loading (hstage : s.stage session = .publishing (.loading event) queue left) :
    PublishFits (s.publishStep session (.loading event) (.publishing · queue left)
      (.resume queue left)) ∧ NothingLost (s.publishStep session (.loading event)
        (.publishing · queue left) (.resume queue left)) := by
  have hin : event ∈ (s.stage session).inHand := by
    rw [hstage]
    exact List.mem_cons_self
  have hfind : s.marketEvents.find? (·.id == event.id) = some event :=
    find_of_nodup_map h.ids (h.stored _ _ hin)
  have hfits := h.stages session
  rw [hstage] at hfits
  simp only [publishStep, hfind]
  refine kept_next h hlost hstage rfl fun other hother => ?_
  obtain rfl := Option.some.inj hother
  exact hfits.1

omit hlost in
theorem moves_record (hstage : s.stage session = .publishing (.recording source) queue left)
    {stage : PublishStage} (hsub : stage.inHand.Sublist (s.stage session).inHand)
    (hfits : (∀ event ∈ queue, (s.record source.input).Untold event) →
      (s.record source.input).StageFits stage) :
    Moves s session (s.record source.input).notificationEvents s.jobs stage := by
  have hold := h.stages session
  have honce := h.once session
  have hstored := h.stored session
  rw [hstage] at hold honce hstored
  refine ⟨List.subset_append_left _ _, fun _ => id, fun row hrow => ?_, hsub, hfits ?_⟩
  · rcases List.mem_append.1 hrow with hmem | hnew
    · exact Or.inl hmem
    · obtain rfl := List.mem_singleton.1 hnew
      refine Or.inr fun id hkey => ?_
      cases source with
      | market event =>
        refine ⟨event, ?_, DeduplicationKey.marketEvent.inj hkey⟩
        rw [hstage]
        exact List.mem_cons_self
      | domain fact enqueues => cases hkey
  · intro event hevent row hrow hkey
    rcases List.mem_append.1 hrow with hmem | hnew
    · exact hold.2 event hevent row hmem hkey
    · obtain rfl := List.mem_singleton.1 hnew
      cases source with
      | market other =>
        have hid : other.id = event.id := DeduplicationKey.marketEvent.inj hkey
        have hsame : other = event := eq_of_id h (hstored other List.mem_cons_self)
          (hstored event (List.mem_cons_of_mem _ hevent)) hid
        rw [← hsame] at hevent
        exact (List.nodup_cons.1 honce).1 hevent
      | domain fact enqueues => cases hkey

theorem kept_recording (hstage : s.stage session = .publishing (.recording source) queue left) :
    PublishFits (s.publishStep session (.recording source) (.publishing · queue left)
      (.resume queue left)) ∧ NothingLost (s.publishStep session (.recording source)
        (.publishing · queue left) (.resume queue left)) := by
  have hfits := h.stages session
  rw [hstage] at hfits
  simp only [publishStep]
  cases source with
  | market event =>
    have hfree := isRecorded_of_untold (hfits.1 event rfl)
    rw [show (PublishSource.market event).input = event.input from rfl, validate_market, hfree,
      if_neg (by decide), if_pos (show (PublishSource.market event).enqueues = true from rfl)]
    have hsub : (PublishStage.publishing (.routing s.notificationEvents.length (.market event))
        queue left).inHand = (s.stage session).inHand := by
      rw [hstage]
      rfl
    have hm : Moves s session (s.record event.input).notificationEvents s.jobs
        (.publishing (.routing s.notificationEvents.length (.market event)) queue left) := by
      refine moves_record h hstage (hsub ▸ List.Sublist.refl _) fun hqueue => ⟨?_, hqueue⟩
      intro other hother
      obtain rfl := Option.some.inj hother
      exact ⟨_, List.mem_append_right _ (List.mem_singleton_self _), rfl, rfl⟩
    exact hm.kept h hlost fun other hmem => Or.inl (hsub ▸ hmem)
  | domain fact enqueues =>
    split_ifs
    · exact kept_resume h hlost hstage nofun
    · have hsub : (PublishStage.publishing (.routing s.notificationEvents.length
          (.domain fact enqueues)) queue left).inHand = (s.stage session).inHand := by
        rw [hstage]
        rfl
      have hm : Moves s session (s.record fact.input).notificationEvents s.jobs
          (.publishing (.routing s.notificationEvents.length (.domain fact enqueues)) queue left) :=
        moves_record h hstage (hsub ▸ List.Sublist.refl _) fun hqueue => ⟨nofun, hqueue⟩
      exact hm.kept h hlost fun other hmem => Or.inl (hsub ▸ hmem)
    · have hsub : (PublishStage.resume queue left).inHand = (s.stage session).inHand := by
        rw [hstage, inHand_resume]
        rfl
      have hm : Moves s session (s.record fact.input).notificationEvents s.jobs
          (.resume queue left) :=
        moves_record h hstage (hsub ▸ List.Sublist.refl _) stageFits_resume
      exact hm.kept h hlost fun other hmem => Or.inl (hsub ▸ hmem)

theorem kept_routing (hstage : s.stage session = .publishing (.routing id source) queue left) :
    PublishFits (s.publishStep session (.routing id source) (.publishing · queue left)
      (.resume queue left)) ∧ NothingLost (s.publishStep session (.routing id source)
        (.publishing · queue left) (.resume queue left)) := by
  have hfits := h.stages session
  rw [hstage] at hfits
  simp only [publishStep]
  refine kept_next h hlost hstage rfl fun event hevent =>
    ⟨hfits.1 event hevent, fun rule hdue => ?_⟩
  obtain ⟨-, hrule, hmatch⟩ := h.due event rule hdue
  refine Or.inl ?_
  cases source with
  | market other =>
    obtain rfl := Option.some.inj hevent
    exact mem_routeNotificationEvent hrule hmatch
  | domain fact enqueues => cases hevent

theorem kept_enqueueing
    (hstage : s.stage session = .publishing (.enqueueing id source endpoints) queue left) :
    PublishFits (s.publishStep session (.enqueueing id source endpoints) (.publishing · queue left)
      (.resume queue left)) ∧ NothingLost (s.publishStep session (.enqueueing id source endpoints)
        (.publishing · queue left) (.resume queue left)) := by
  have hfits := h.stages session
  rw [hstage] at hfits
  cases endpoints with
  | nil =>
    simp only [publishStep]
    refine kept_resume h hlost hstage fun event hevent rule hdue => ?_
    obtain ⟨⟨row, hrow, hid, hkey⟩, hjobs⟩ := hfits.1 event hevent
    have hjob := (hjobs rule hdue).resolve_left List.not_mem_nil
    refine List.any_eq_true.2 ⟨row, hrow, ?_⟩
    rw [hkey, hid, List.contains_iff_mem.2 hjob, beq_self_eq_true]
    rfl
  | cons endpoint endpoints =>
    simp only [publishStep]
    have hsub : (PublishStage.publishing (.enqueueing id source endpoints) queue left).inHand =
        (s.stage session).inHand := by
      rw [hstage]
      rfl
    have hm : Moves s session s.notificationEvents (s.jobs.insert (id, endpoint))
        (.publishing (.enqueueing id source endpoints) queue left) := by
      refine ⟨fun _ hrow => hrow, fun job hjob => List.mem_insert_of_mem hjob,
        fun _ hrow => Or.inl hrow, hsub ▸ List.Sublist.refl _, fun event hevent => ?_, hfits.2⟩
      obtain ⟨htold, hjobs⟩ := hfits.1 event hevent
      refine ⟨htold, fun rule hdue => ?_⟩
      rcases hjobs rule hdue with hmem | hjob
      · rcases List.mem_cons.1 hmem with heq | hrest
        · rw [heq]
          exact Or.inr List.mem_insert_self
        · exact Or.inl hrest
      · exact Or.inr (List.mem_insert_of_mem hjob)
    exact hm.kept h hlost fun other hmem => Or.inl (hsub ▸ hmem)

theorem kept_publishStep (hstage : s.stage session = .publishing step queue left) :
    PublishFits (s.publishStep session step (.publishing · queue left) (.resume queue left)) ∧
      NothingLost (s.publishStep session step (.publishing · queue left) (.resume queue left)) := by
  cases step with
  | loading event => exact kept_loading h hlost hstage
  | recording source => exact kept_recording h hlost hstage
  | routing id source => exact kept_routing h hlost hstage
  | enqueueing id source endpoints => exact kept_enqueueing h hlost hstage

end Steps

theorem newMarketEvents_ids : ∀ {candidates : List MarketEventCandidate}
    {events : List MarketEventRow}, (events.map (·.id)).Nodup →
    (∀ event ∈ events, event.id < events.length) →
    ((events ++ newMarketEvents events candidates).map (·.id)).Nodup
      ∧ (∀ event ∈ events ++ newMarketEvents events candidates,
        event.id < (events ++ newMarketEvents events candidates).length)
      ∧ ∀ event ∈ newMarketEvents events candidates, events.length ≤ event.id
  | [], events, hids, hbound => by
    rw [newMarketEvents, List.append_nil]
    exact ⟨hids, hbound, nofun⟩
  | candidate :: rest, events, hids, hbound => by
    unfold newMarketEvents
    split_ifs
    · exact newMarketEvents_ids hids hbound
    dsimp only
    generalize hrow : ({ candidate with id := events.length } : MarketEventRow) = row
    have hid : row.id = events.length := by rw [← hrow]
    have hids' : ((events ++ [row]).map (·.id)).Nodup := by
      refine nodup_map_concat hids fun hmem => ?_
      obtain ⟨event, hevent, heq⟩ := List.mem_map.1 hmem
      exact absurd (heq.trans hid) (hbound event hevent).ne
    have hbound' : ∀ event ∈ events ++ [row], event.id < (events ++ [row]).length := by
      intro event hevent
      rw [List.length_append, List.length_singleton]
      rcases List.mem_append.1 hevent with hmem | hnew
      · exact Nat.lt_succ_of_lt (hbound event hmem)
      · rw [List.mem_singleton.1 hnew, hid]
        exact Nat.lt_succ_self _
    obtain ⟨hnodup, hlt, hfresh⟩ := @newMarketEvents_ids rest _ hids' hbound'
    rw [List.append_assoc, List.singleton_append] at hnodup hlt
    refine ⟨hnodup, hlt, List.forall_mem_cons.2 ⟨hid.ge, fun event hevent => ?_⟩⟩
    have hle := hfresh event hevent
    rw [List.length_append] at hle
    exact Nat.le_of_succ_le hle

variable {rows : List MarketEventRow} {candidates : List MarketEventCandidate}

structure Fresh (s : PublishSystem) (rows : List MarketEventRow) : Prop where
  ids : ((s.marketEvents ++ rows).map (·.id)).Nodup
  bound : ∀ event ∈ s.marketEvents ++ rows, event.id < (s.marketEvents ++ rows).length
  untold : ∀ event ∈ rows, s.Untold event
  new : ∀ event ∈ rows, event ∉ s.marketEvents

theorem fresh_newMarketEvents (h : PublishFits s) :
    Fresh s (newMarketEvents s.marketEvents candidates) := by
  obtain ⟨hids, hbound, hfresh⟩ := @newMarketEvents_ids candidates _ h.ids h.bound
  refine ⟨hids, hbound, fun event hevent row hrow hkey => ?_, fun event hevent hold => ?_⟩
  · exact absurd (hfresh event hevent) (Nat.not_le.2 (h.recorded row hrow _ hkey))
  · exact absurd (hfresh event hevent) (Nat.not_le.2 (h.bound event hold))

theorem mem_due_derive :
    (event, rule) ∈ (s.derive rows).due ↔ (event, rule) ∈ s.due ∨
      event ∈ rows ∧ rule ∈ s.rules ∧ rule.isMatch event.input.routable = true := by
  unfold derive
  simp only [List.mem_append, List.mem_flatMap, List.mem_map, List.mem_filter, Prod.mk.injEq]
  constructor
  · rintro (hold | ⟨other, hother, matched, hmatch, rfl, rfl⟩)
    · exact Or.inl hold
    · exact Or.inr ⟨hother, hmatch⟩
  · rintro (hold | ⟨hevent, hmatch⟩)
    · exact Or.inl hold
    · exact Or.inr ⟨event, hevent, rule, hmatch, rfl, rfl⟩

theorem publishFits_derive (h : PublishFits s) (hfresh : Fresh s rows)
    (hnone : (s.stage session).inHand = []) :
    PublishFits ((s.derive rows).setStage session (.resume rows left)) := by
  have hself : (((s.derive rows).setStage session (.resume rows left)).stage session).inHand =
      rows := by
    rw [stage_setStage_self, inHand_resume]
  have hne : ∀ {other}, other ≠ session → ((s.derive rows).setStage session
      (.resume rows left)).stage other = s.stage other := fun hother => if_neg hother
  have hin : ∀ {other event}, event ∈ (((s.derive rows).setStage session
      (.resume rows left)).stage other).inHand →
      (other = session ∧ event ∈ rows) ∨ other ≠ session ∧ event ∈ (s.stage other).inHand := by
    intro other event hevent
    by_cases hother : other = session
    · rw [hother, hself] at hevent
      exact Or.inl ⟨hother, hevent⟩
    · rw [hne hother] at hevent
      exact Or.inr ⟨hother, hevent⟩
  refine ⟨hfresh.ids, hfresh.bound, fun row hrow id hkey => ?_, fun event rule hdue => ?_,
    fun other event hevent => ?_, fun other => ?_, fun one two event hone htwo => ?_,
    fun other => ?_⟩
  · refine (h.recorded row hrow id hkey).trans_le ?_
    exact (List.length_append ▸ Nat.le_add_right _ _ :
      s.marketEvents.length ≤ (s.marketEvents ++ rows).length)
  · rcases mem_due_derive.1 hdue with hold | ⟨hevent, hrule, hmatch⟩
    · obtain ⟨hstored, hfacts⟩ := h.due event rule hold
      exact ⟨List.mem_append_left _ hstored, hfacts⟩
    · exact ⟨List.mem_append_right _ hevent, hrule, hmatch⟩
  · rcases hin hevent with ⟨-, hrow⟩ | ⟨-, hheld⟩
    · exact List.mem_append_right _ hrow
    · exact List.mem_append_left _ (h.stored other event hheld)
  · by_cases hother : other = session
    · rw [hother, hself]
      exact (List.Nodup.of_map _ hfresh.ids).of_append_right
    · rw [hne hother]
      exact h.once other
  · rcases hin hone with ⟨rfl, hrow⟩ | ⟨-, hheld⟩ <;>
      rcases hin htwo with ⟨rfl, hrow'⟩ | ⟨-, hheld'⟩
    · rfl
    · exact absurd (h.stored _ _ hheld') (hfresh.new event hrow)
    · exact absurd (h.stored _ _ hheld) (hfresh.new event hrow')
    · exact h.apart _ _ event hheld hheld'
  · by_cases hother : other = session
    · rw [hother, stage_setStage_self]
      exact stageFits_resume hfresh.untold
    · rw [hne hother]
      refine stageFits_mono (h.stages other) (fun _ _ => id) (fun _ _ => id) ?_ fun _ => id
      intro event hevent rule hdue
      rcases mem_due_derive.1 hdue with hold | ⟨hrow, -⟩
      · exact ⟨rule, hold, rfl⟩
      · exact absurd (h.stored other event hevent) (hfresh.new event hrow)

theorem nothingLost_derive (hlost : NothingLost s) (hnone : (s.stage session).inHand = []) :
    NothingLost ((s.derive rows).setStage session (.resume rows left)) := by
  intro event rule hdue
  rcases mem_due_derive.1 hdue with hold | ⟨hrow, -⟩
  · refine (hlost event rule hold).imp_left ?_
    rintro ⟨holder, hheld⟩
    refine ⟨holder, ?_⟩
    have hne : holder ≠ session := by
      rintro rfl
      rw [hnone] at hheld
      exact List.not_mem_nil hheld
    rw [stage_setStage_ne hne]
    exact hheld
  · refine Or.inl ⟨session, ?_⟩
    rw [stage_setStage_self, inHand_resume]
    exact hrow

theorem mem_due_setRules :
    (event, rule) ∈ (s.setRules f).due ↔
      ∃ old, (event, old) ∈ s.due ∧ f old = some rule ∧
        rule.isMatch event.input.routable = true := by
  unfold setRules
  simp only [List.mem_filterMap, Prod.exists, Option.bind_eq_some_iff]
  constructor
  · rintro ⟨other, old, hold, new, hnew, hite⟩
    split_ifs at hite with hmatch
    obtain ⟨rfl, rfl⟩ := Prod.mk.inj (Option.some.inj hite)
    exact ⟨old, hold, hnew, hmatch⟩
  · rintro ⟨old, hold, hnew, hmatch⟩
    exact ⟨event, old, hold, rule, hnew, if_pos hmatch⟩

theorem kept_setRules (hf : ∀ rule new, f rule = some new → new.endpointId = rule.endpointId)
    (h : PublishFits s) (hlost : NothingLost s)
    : PublishFits (s.setRules f) ∧ NothingLost (s.setRules f) := by
  refine ⟨⟨h.ids, h.bound, h.recorded, fun event rule hdue => ?_, h.stored, h.once, h.apart,
    fun other => ?_⟩, fun event rule hdue => ?_⟩
  · obtain ⟨old, hold, hnew, hmatch⟩ := mem_due_setRules.1 hdue
    obtain ⟨hstored, hrule, -⟩ := h.due event old hold
    exact ⟨hstored, List.mem_filterMap.2 ⟨old, hrule, hnew⟩, hmatch⟩
  · refine stageFits_mono (h.stages other) (fun _ _ => id) (fun _ _ => id) ?_ fun _ => id
    intro event hevent rule hdue
    obtain ⟨old, hold, hnew, -⟩ := mem_due_setRules.1 hdue
    exact ⟨old, hold, (hf old rule hnew).symm⟩
  · obtain ⟨old, hold, hnew, -⟩ := mem_due_setRules.1 hdue
    rw [hf old rule hnew]
    exact hlost event old hold

theorem kept_createRule (h : PublishFits s) (hlost : NothingLost s) :
    PublishFits (s.createRule rule) ∧ NothingLost (s.createRule rule) := by
  unfold createRule
  split_ifs
  · refine ⟨⟨h.ids, h.bound, h.recorded, fun event rule hdue => ?_, h.stored, h.once, h.apart,
      fun other => ?_⟩, hlost⟩
    · obtain ⟨hstored, hrule, hmatch⟩ := h.due event rule hdue
      exact ⟨hstored, List.mem_append_left _ hrule, hmatch⟩
    · exact stageFits_mono (h.stages other) (fun _ _ => id) (fun _ _ => id)
        (fun _ _ rule hrule => ⟨rule, hrule, rfl⟩) fun _ => id
  · exact ⟨h, hlost⟩

theorem kept_fact (hjobs : s.jobs ⊆ jobs) (h : PublishFits s) (hlost : NothingLost s) :
    PublishFits { s with
      notificationEvents := (s.record fact.input).notificationEvents
      jobs := jobs } ∧ NothingLost { s with
        notificationEvents := (s.record fact.input).notificationEvents
        jobs := jobs } := by
  have huntold : ∀ event, s.Untold event → Untold { s with
      notificationEvents := (s.record fact.input).notificationEvents
      jobs := jobs } event := by
    intro event hevent row hrow hkey
    rcases List.mem_append.1 hrow with hold | hnew
    · exact hevent row hold hkey
    · obtain rfl := List.mem_singleton.1 hnew
      cases hkey
  have hm : Moves s 0 (s.record fact.input).notificationEvents jobs (s.stage 0) := by
    refine ⟨List.subset_append_left _ _, hjobs, fun row hrow => ?_, List.Sublist.refl _, ?_⟩
    · rcases List.mem_append.1 hrow with hold | hnew
      · exact Or.inl hold
      · obtain rfl := List.mem_singleton.1 hnew
        exact Or.inr fun id hkey => nomatch hkey
    · refine stageFits_mono (h.stages 0) (fun event _ => huntold event) ?_
        (fun _ _ rule hrule => ⟨rule, hrule, rfl⟩) hjobs
      rintro id event ⟨row, hrow, hfacts⟩
      exact ⟨row, List.mem_append_left _ hrow, hfacts⟩
  have hsame : s.moved 0 (s.record fact.input).notificationEvents jobs (s.stage 0) = { s with
      notificationEvents := (s.record fact.input).notificationEvents
      jobs := jobs } := by
    unfold moved setStage
    congr 1
    funext other
    split_ifs with hother
    · rw [hother]
    · rfl
  rw [← hsame]
  exact hm.kept h hlost fun event hevent => Or.inl hevent

theorem foldl_enqueue {id : NotificationEventId} : ∀ {endpoints : List EndpointId}
    {s : PublishSystem}, ∃ jobs, s.jobs ⊆ jobs ∧
      endpoints.foldl (·.enqueue id) s = { s with jobs := jobs }
  | [], s => ⟨s.jobs, fun _ hjob => hjob, rfl⟩
  | endpoint :: endpoints, s => by
    obtain ⟨jobs, hsub, heq⟩ := @foldl_enqueue id endpoints (s.enqueue id endpoint)
    exact ⟨jobs, fun job hjob => hsub (List.mem_insert_of_mem hjob), heq⟩

theorem kept_publishWithin (h : PublishFits s) (hlost : NothingLost s)
    : PublishFits (s.publishWithin fact enqueues) ∧
      NothingLost (s.publishWithin fact enqueues) := by
  unfold publishWithin
  split_ifs
  · exact ⟨h, hlost⟩
  · obtain ⟨jobs, hsub, heq⟩ := @foldl_enqueue s.notificationEvents.length
      (routeNotificationEvent s.rules fact.input.routable) (s.record fact.input)
    rw [heq]
    exact kept_fact (s := s) hsub h hlost
  · exact kept_fact (fun _ => id) h hlost

theorem kept_begin (hnone : stage.inHand = []) (hfits : s.StageFits stage) (h : PublishFits s)
    (hlost : NothingLost s) :
    PublishFits (s.begin session stage) ∧ NothingLost (s.begin session stage) := by
  unfold begin
  split
  · rename_i hidle
    have hm : Moves s session s.notificationEvents s.jobs stage :=
      moves_stage (hnone ▸ List.nil_sublist _) hfits
    refine hm.kept h hlost fun event hevent => ?_
    rw [hidle] at hevent
    exact absurd hevent List.not_mem_nil
  · exact ⟨h, hlost⟩

theorem settled_iff : s.settled event = true ↔
    ∀ rule, (event, rule) ∈ s.due → s.hasJob event rule.endpointId = true := by
  unfold settled
  rw [List.all_eq_true]
  constructor
  · intro hall rule hdue
    simpa using hall (event, rule) hdue
  · rintro hall ⟨other, rule⟩ hdue
    by_cases hsame : other = event
    · rw [hsame] at hdue
      simp [hall rule hdue]
    · simp [hsame]

theorem nothingLost_dropped_iff (h : PublishFits s) (hlost : NothingLost s) :
    NothingLost (s.setStage session stage) ↔ ∀ event ∈ (s.stage session).inHand,
      event ∉ stage.inHand → s.settled event = true := by
  constructor
  · intro hafter event hevent hdropped
    refine settled_iff.2 fun rule hdue => ?_
    rcases hafter event rule hdue with ⟨holder, hheld⟩ | hjob
    · by_cases hholder : holder = session
      · rw [hholder, stage_setStage_self] at hheld
        exact absurd hheld hdropped
      · rw [stage_setStage_ne hholder] at hheld
        exact absurd (h.apart _ _ event hheld hevent) hholder
    · exact hjob
  · intro hsettled event rule hdue
    rcases hlost event rule hdue with ⟨holder, hheld⟩ | hjob
    · by_cases hholder : holder = session
      · rw [hholder] at hheld
        by_cases hstill : event ∈ stage.inHand
        · refine Or.inl ⟨session, ?_⟩
          rw [stage_setStage_self]
          exact hstill
        · exact Or.inr (settled_iff.1 (hsettled event hheld hstill) rule hdue)
      · refine Or.inl ⟨holder, ?_⟩
        rw [stage_setStage_ne hholder]
        exact hheld
    · exact Or.inr hjob

theorem crash_nothingLost_iff (h : PublishFits s) (hlost : NothingLost s) :
    NothingLost (s.setStage session .idle) ↔ s.dropsNothing (.crash session) = true := by
  rw [nothingLost_dropped_iff h hlost, dropsNothing, List.all_eq_true]
  exact forall₂_congr fun event _ => forall_prop_of_true List.not_mem_nil

theorem fail_nothingLost_iff (h : PublishFits s) (hlost : NothingLost s) :
    NothingLost (s.fail session) ↔ s.dropsNothing (.fail session) = true := by
  have honce := h.once session
  rcases hstage : s.stage session with _ | ⟨candidates, left⟩ | ⟨step, queue, left⟩ <;>
    simp only [fail, dropsNothing, hstage]
  · rw [nothingLost_dropped_iff h hlost, hstage]
    exact iff_of_true nofun trivial
  · rw [nothingLost_dropped_iff h hlost, hstage]
    exact iff_of_true nofun trivial
  · rw [nothingLost_dropped_iff h hlost, inHand_resume, hstage, Option.all_eq_true]
    rw [hstage] at honce
    constructor
    · intro hsettled event hevent
      have hin : event ∈ step.event.toList := Option.mem_toList.2 hevent
      refine hsettled event (List.mem_append_left _ hin) fun hqueue => ?_
      exact (List.nodup_append.1 honce).2.2 event hin event hqueue rfl
    · intro hsettled event hevent hdropped
      refine hsettled event (Option.mem_toList.1 ?_)
      exact (List.mem_append.1 hevent).resolve_right hdropped

theorem publishFits_stage (hsub : stage.inHand.Sublist (s.stage session).inHand)
    (hfits : s.StageFits stage) (h : PublishFits s) : PublishFits (s.setStage session stage) :=
  (moves_stage hsub hfits).publishFits h

theorem publishFits_fail (h : PublishFits s) : PublishFits (s.fail session) := by
  have hfits := h.stages session
  rcases hstage : s.stage session with _ | ⟨candidates, left⟩ | ⟨step, queue, left⟩ <;>
    simp only [fail, hstage]
  · exact publishFits_stage (List.nil_sublist _) trivial h
  · exact publishFits_stage (List.nil_sublist _) trivial h
  · rw [hstage] at hfits
    refine publishFits_stage ?_ (stageFits_resume hfits.2) h
    rw [inHand_resume, hstage]
    exact List.sublist_append_right _ _

theorem kept_proceed (h : PublishFits s) (hlost : NothingLost s) :
    PublishFits (s.proceed session) ∧ NothingLost (s.proceed session) := by
  rcases hstage : s.stage session with _ | ⟨candidates, left⟩ | ⟨step, queue, left⟩ <;>
    simp only [proceed, hstage]
  · exact ⟨h, hlost⟩
  · have hnone : (s.stage session).inHand = [] := by
      rw [hstage]
      rfl
    exact ⟨publishFits_derive h (fresh_newMarketEvents h) hnone, nothingLost_derive hlost hnone⟩
  · exact kept_publishStep h hlost hstage

theorem updateRule_endpoint {id : NotificationRuleId} {patch : NotificationRulePatch}
    (rule new : NotificationRuleRow)
    (h : (if rule.id = id ∧ ruleTypeRegistered (rule.patched patch).eventClass
      (rule.patched patch).eventType then some (rule.patched patch) else some rule) = some new) :
    new.endpointId = rule.endpointId := by
  split_ifs at h <;>
    obtain rfl := Option.some.inj h
  · rfl
  · rfl

theorem stageFits_domain :
    s.StageFits (.publishing (.recording (.domain fact enqueues)) [] []) := ⟨nofun, nofun⟩

theorem publishFits_step (h : PublishFits s) (hlost : NothingLost s) :
    PublishFits (s.step action) := by
  cases action with
  | poll session derivations =>
    exact (kept_begin inHand_resume (stageFits_resume nofun) h hlost).1
  | publish session fact enqueues => exact (kept_begin rfl stageFits_domain h hlost).1
  | publishWithin fact enqueues => exact (kept_publishWithin h hlost).1
  | proceed session => exact (kept_proceed h hlost).1
  | fail session => exact publishFits_fail h
  | crash session => exact publishFits_stage (List.nil_sublist _) trivial h
  | createRule rule => exact (kept_createRule h hlost).1
  | updateRule id patch => exact (kept_setRules updateRule_endpoint h hlost).1
  | deleteRule id =>
    refine (kept_setRules (fun rule new hnew => ?_) h hlost).1
    split_ifs at hnew
    rw [Option.some.inj hnew]

theorem step_nothingLost_iff (h : PublishFits s) (hlost : NothingLost s) :
    NothingLost (s.step action) ↔ s.dropsNothing action = true := by
  cases action with
  | poll session derivations =>
    exact iff_of_true (kept_begin inHand_resume (stageFits_resume nofun) h hlost).2 rfl
  | publish session fact enqueues =>
    exact iff_of_true (kept_begin rfl stageFits_domain h hlost).2 rfl
  | publishWithin fact enqueues => exact iff_of_true (kept_publishWithin h hlost).2 rfl
  | proceed session => exact iff_of_true (kept_proceed h hlost).2 rfl
  | fail session => exact fail_nothingLost_iff h hlost
  | crash session => exact crash_nothingLost_iff h hlost
  | createRule rule => exact iff_of_true (kept_createRule h hlost).2 rfl
  | updateRule id patch => exact iff_of_true (kept_setRules updateRule_endpoint h hlost).2 rfl
  | deleteRule id =>
    refine iff_of_true (kept_setRules (fun rule new hnew => ?_) h hlost).2 rfl
    split_ifs at hnew
    rw [Option.some.inj hnew]

theorem publishFits_start : PublishFits { rules := rules } where
  ids := List.nodup_nil
  bound := nofun
  recorded := fun _ hrow => absurd hrow List.not_mem_nil
  due := fun _ _ hdue => absurd hdue List.not_mem_nil
  stored := fun _ => nofun
  once := fun _ => List.nodup_nil
  apart := fun _ _ _ => nofun
  stages := fun _ => trivial

/-- From an installation with any rules, no notification is lost exactly as long as every failure
and every crash finds what was in hand settled. -/
theorem nothing_lost_iff {rules : List NotificationRuleRow} {actions : List PublishAction} :
    Runs.Along PublishSystem.step NothingLost { rules := rules } actions ↔
      Runs.Meets PublishSystem.step (fun s action => s.dropsNothing action = true)
        { rules := rules } actions := by
  have hstart : NothingLost { rules := rules } := fun event rule hdue => nomatch hdue
  exact Runs.along_iff_meets (fun _ _ h hlost => publishFits_step h hlost)
    (fun _ _ h hlost => step_nothingLost_iff h hlost) publishFits_start hstart

end PublishSystem

section Examples

def twoRules : List NotificationRuleRow :=
  [{ id := 1, eventClass := .market, endpointId := 7 },
    { id := 2, eventClass := .market, endpointId := 8 }]

def priceDrop : MarketEventCandidate where
  marketplaceItemId := 5
  eventType := .priceDropped
  toObservedAt := ⟨⟨2026, 9, 30⟩, 0⟩

def pollTwice : List PublishAction :=
  [.poll 0 [[priceDrop]], .proceed 0, .crash 0, .poll 0 [[priceDrop]], .proceed 0]

theorem notification_lost : ¬ ∀ (rules : List NotificationRuleRow) (actions : List PublishAction),
    Runs.Along PublishSystem.step PublishSystem.NothingLost { rules := rules } actions := by
  intro hall
  have hlast := (hall twoRules pollTwice).last
  have hidle : ∀ session, ((Runs.run PublishSystem.step { rules := twoRules }
      pollTwice).stage session).inHand = [] := by
    rintro (_ | session) <;> rfl
  have hdue : (({ priceDrop with id := 0 } : MarketEventRow), twoRules.head (by decide)) ∈
      (Runs.run PublishSystem.step { rules := twoRules } pollTwice).due := by decide +kernel
  rcases hlast _ _ hdue with ⟨session, hheld⟩ | hjob
  · rw [hidle session] at hheld
    exact List.not_mem_nil hheld
  · revert hjob
    decide +kernel

end Examples

end Loxep

import Loxep.ContainerHosts
import Loxep.Lib.Runs

/-!
# The connection a host is known from

A declaration writes the connection of a host, a reconcile its id.
-/

namespace Loxep

theorem updated_of_planOperation {observed : List ObservedContainerHost}
    {desired : DesiredContainerHost} {operation : ContainerHostOperation} {id : String}
    (hplan : planOperation observed desired = some operation) (hid : operation.updated = some id) :
    desired.externalHostId = some id ∨
      ∃ host ∈ observed, host.name = desired.name ∧ host.externalHostId = id := by
  unfold planOperation at hplan
  rcases hmatch : matchObserved observed desired with _ | host
  · rw [hmatch] at hplan
    cases hplan
    cases hid
  · rw [hmatch] at hplan
    simp only [Option.ite_none_left_eq_some, Option.some.injEq] at hplan
    obtain ⟨-, rfl⟩ := hplan
    obtain rfl : host.externalHostId = id := by simpa [ContainerHostOperation.updated] using hid
    unfold matchObserved at hmatch
    rcases Option.or_eq_some_iff.1 hmatch with hknown | ⟨-, hnamed⟩
    · obtain ⟨known, hdesired, hfound⟩ := Option.bind_eq_some_iff.1 hknown
      have hsame := List.find?_some hfound
      left
      rw [hdesired, beq_iff_eq.1 hsame]
    · have hsame := List.find?_some hnamed
      right
      exact ⟨host, List.mem_reverse.1 (List.mem_of_find?_eq_some hnamed), by simpa using hsame, rfl⟩

namespace ContainerHostReconcile

variable {run : ContainerHostReconcile} {name : String} {link : CompanionLink}
  {meta' : ContainerHostIntentMetadata} {operation : ContainerHostOperation} {id : String}

variable {observed : List ObservedContainerHost}

theorem mem_namesakes {host : ObservedContainerHost} (hread : run.read = .ok observed)
    (hhost : host ∈ observed) (hname : host.name = name) :
    host.externalHostId ∈ run.namesakes name := by
  unfold namesakes
  rw [hread]
  exact List.mem_map_of_mem (List.mem_filter.2 ⟨hhost, by simpa using hname⟩)

def matched (name : String) (link : CompanionLink) (observed : List ObservedContainerHost) :
    Option String :=
  link.externalId.or ((observed.find? (·.name == name)).map (·.externalHostId))

theorem operations_desired (desired : DesiredContainerHost) (observed : List ObservedContainerHost)
    :
    (planContainerHostOperations [desired] observed).operations =
      (planOperation observed desired).toList := by
  unfold planContainerHostOperations
  rcases hplan : planOperation observed desired with _ | operation <;> simp [hplan]

theorem settle_read (hread : run.read = .ok observed) :
    run.settle name link meta' =
      (planOperation observed (run.desired name link meta')).elim
        (.ok (0, matched name link observed)) fun operation =>
          if run.mode ≠ .apply ∨ run.writePolicyBlocks link then
            .ok (0, matched name link observed)
          else run.applyOperation (matched name link observed) operation := by
  unfold settle
  simp only [hread, operations_desired]
  rcases planOperation observed (run.desired name link meta') with _ | operation <;> rfl

theorem sends_read (hread : run.read = .ok observed) :
    run.sends name link meta' =
      (planOperation observed (run.desired name link meta')).filter fun operation =>
        run.mode == .apply && !run.writePolicyBlocks link && operation.isSent run.begin := by
  unfold sends
  simp only [hread, operations_desired]
  rcases planOperation observed (run.desired name link meta') with _ | operation <;> rfl

theorem sends_eq_some (h : run.sends name link meta' = some operation) :
    ∃ observed, run.read = .ok observed ∧
      planOperation observed (run.desired name link meta') = some operation ∧
      run.mode = .apply ∧ run.writePolicyBlocks link = false ∧ operation.isSent run.begin := by
  rcases hread : run.read with kind | observed
  · unfold sends at h
    rw [hread] at h
    cases h
  · rw [sends_read hread] at h
    obtain ⟨hplan, hsent⟩ := Option.filter_eq_some_iff.1 h
    exact ⟨observed, rfl, hplan, by simpa [and_assoc] using hsent⟩

theorem updated_of_sends (h : run.sends name link meta' = some operation)
    (hid : operation.updated = some id) :
    link.externalId = some id ∨ id ∈ run.namesakes name := by
  obtain ⟨observed, hread, hplan, -⟩ := sends_eq_some h
  rcases updated_of_planOperation hplan hid with hknown | ⟨host, hhost, hname, rfl⟩
  · exact .inl hknown
  · exact .inr (mem_namesakes hread hhost hname)

theorem namesakes_subset_learns : run.namesakes name ⊆ run.learns name link meta' := by
  unfold learns
  split
  · exact List.subset_cons_self _ _
  · exact List.Subset.refl _

theorem matched_of_applyOperation {known : Option String}
    (h : run.applyOperation known operation = .ok (0, some id)) : known = some id := by
  rcases operation with host | ⟨other, host⟩
  · unfold applyOperation at h
    rcases hbegin : run.begin with _ | _ | _
    · rcases hreply : run.reply (.create host) with kind | result <;> simp [hbegin, hreply] at h
    · simpa [hbegin] using h
    · rcases hback : run.readBack with kind | hosts
      · simp [hbegin, hback] at h
      · rcases hfind : hosts.find? (·.name == host.name) with _ | found
        · simpa [hbegin, hback, hfind] using h
        · simp [hbegin, hback, hfind] at h
  · unfold applyOperation at h
    rcases hreply : run.reply (.update other host) with kind | result <;> simp [hreply] at h

theorem settle_matched {applied : ℕ} (h : run.settle name link meta' = .ok (applied, some id)) :
    link.externalId = some id ∨ id ∈ run.learns name link meta' := by
  rcases applied with _ | applied
  · rcases hread : run.read with kind | observed
    · unfold settle at h
      rw [hread] at h
      cases h
    · have hmatched : matched name link observed = some id := by
        rw [settle_read hread] at h
        rcases hplan : planOperation observed (run.desired name link meta') with _ | operation
        · simpa [hplan] using h
        · simp only [hplan, Option.elim_some] at h
          split_ifs at h
          · simpa using h
          · exact matched_of_applyOperation h
      rcases Option.or_eq_some_iff.1 hmatched with hknown | ⟨-, hnamed⟩
      · exact .inl hknown
      · obtain ⟨host, hfound, rfl⟩ := Option.map_eq_some_iff.1 hnamed
        have hname := List.find?_some hfound
        exact .inr (namesakes_subset_learns
          (mem_namesakes hread (List.mem_of_find?_eq_some hfound) (by simpa using hname)))
  · right
    unfold learns
    rw [h]
    exact List.mem_cons_self

end ContainerHostReconcile

namespace ConnectedHosts

variable {s : ConnectedHosts} {session : HostSessionId}

/-- An update that is sent is of a host that the connection of the port has given. -/
def SendsKnown (s : ConnectedHosts) : ConnectedAction → Prop
  | .call (.settle session) =>
    match s.hosts.stage session with
    | .reading run name link meta' =>
      ∀ connection ∈ s.port session,
        ∀ id ∈ (run.sends name link meta').bind ContainerHostOperation.updated,
          (connection, id) ∈ s.learned ∨ id ∈ run.namesakes name
    | _ => True
  | _ => True

/-- No id is left beside another connection: a declaration does not take a row with an id to
another connection, the link of a reconcile is on the connection it was handed the port of, and so
are still the rows its id is written to. -/
def KeepsConnection (s : ConnectedHosts) : ConnectedAction → Prop
  | .call (.findLink session) =>
    match s.hosts.stage session with
    | .reconciling _ _ =>
      ∀ link ∈ findContainerHostLink s.hosts.links,
        link.externalId = none ∨ link.connectionId = s.port session
    | _ => True
  | .call (.commitIntent session _ _) =>
    match s.hosts.stage session with
    | .declared input _ (some existing) =>
      ∀ row ∈ s.hosts.links, row.externalResourceId = existing.externalResourceId →
        row.externalId = none ∨ row.connectionId = some input.connectionId
    | _ => True
  | .call (.selfRetireIdentity session stored) =>
    match s.hosts.stage session with
    | .settled _ link _ _ matchedExternalHostId =>
      stored ∧ matchedExternalHostId ≠ none ∧ matchedExternalHostId ≠ link.externalId →
        ∀ row ∈ s.hosts.links, row.externalResourceId = link.externalResourceId →
          row.connectionId = s.port session
    | _ => True
  | _ => True

section Decidable

instance (action : ConnectedAction) : Decidable (s.SendsKnown action) := by
  unfold SendsKnown
  split
  · split <;> infer_instance
  · infer_instance

instance (action : ConnectedAction) : Decidable (s.KeepsConnection action) := by
  unfold KeepsConnection
  split
  · split <;> infer_instance
  · split <;> infer_instance
  · split <;> infer_instance
  · infer_instance

end Decidable

def Given (s : ConnectedHosts) (connection : Option ConnectionId) (id : Option String) : Prop :=
  ∀ c ∈ connection, ∀ i ∈ id, (c, i) ∈ s.learned

def StageGiven (s : ConnectedHosts) (connection : Option ConnectionId) : HostStage → Prop
  | .reading _ _ link _ => s.Given connection link.externalId
  | .settled _ _ _ _ matchedExternalHostId => s.Given connection matchedExternalHostId
  | _ => True

structure Paired (s : ConnectedHosts) : Prop where
  rows : ∀ row ∈ s.hosts.links, s.Given row.connectionId row.externalId
  calls : ∀ session, s.StageGiven (s.port session) (s.hosts.stage session)

variable {connection : Option ConnectionId} {t : ConnectedHosts}

theorem given_none_right : s.Given connection none :=
  fun _ _ _ hi => by cases hi

theorem Given.mono {id : Option String} (hst : s.learned ⊆ t.learned) (h : s.Given connection id)
    : t.Given connection id :=
  fun c hc i hi => hst (h c hc i hi)

variable {stage : HostStage} {now : Timestamp}

theorem StageGiven.mono (hst : s.learned ⊆ t.learned) (h : s.StageGiven connection stage) :
    t.StageGiven connection stage := by
  rcases stage with _ | _ | _ | _ | _ | _ | _
  case reading => exact Given.mono hst h
  case settled => exact Given.mono hst h
  all_goals trivial

theorem paired_start (target : HostingTargetRow) (links : List CompanionLink) :
    (start target links).Paired where
  rows := by
    intro row hrow connection hconnection id hid
    refine List.mem_filterMap.2 ⟨row, hrow, ?_⟩
    rw [Option.mem_def.1 hconnection, Option.mem_def.1 hid]
    rfl
  calls := fun _ => trivial

section

variable (hs : s.Paired)
include hs

theorem Paired.of_call (session : HostSessionId) (hlearned : s.learned ⊆ t.learned)
    (hrows : ∀ row ∈ t.hosts.links, t.Given row.connectionId row.externalId)
    (hcall : t.StageGiven (t.port session) (t.hosts.stage session))
    (hothers : ∀ other, other ≠ session →
      t.port other = s.port other ∧ t.hosts.stage other = s.hosts.stage other) : t.Paired where
  rows := hrows
  calls := by
    intro other
    by_cases hother : other = session
    · rw [hother]
      exact hcall
    · obtain ⟨hport, hstage⟩ := hothers other hother
      rw [hport, hstage]
      exact (hs.calls other).mono hlearned

theorem Paired.setStage (hcall : s.StageGiven (s.port session) stage) :
    ({ s with hosts := s.hosts.setStage session stage } : ConnectedHosts).Paired := by
  refine hs.of_call session (List.Subset.refl _) hs.rows ?_ fun other hother => ⟨rfl, ?_⟩
  · show ConnectedHosts.StageGiven _ (s.port session) (if session = session then stage else _)
    rw [if_pos rfl]
    exact hcall
  · show (if other = session then stage else _) = _
    rw [if_neg hother]

theorem paired_reconcile (connection : ConnectionId) (run : ContainerHostReconcile)
    : (s.reconcile session connection run).Paired := by
  unfold reconcile
  rcases hstage : s.hosts.stage session with _ | _ | _ | _ | _ | _ | _
  case idle =>
    simp only [HostSystem.step, hstage]
    refine hs.of_call session (List.Subset.refl _) ?_ ?_ fun other hother => ⟨if_neg hother, ?_⟩
    · split_ifs <;> exact hs.rows
    · split_ifs
      · rw [hstage]
        trivial
      · simp only [HostSystem.setStage, if_true]
        trivial
    · split_ifs
      · rfl
      · exact if_neg hother
  all_goals exact hs

theorem paired_findLink (hkeeps : s.KeepsConnection (.call (.findLink session))) :
    (s.step (.call (.findLink session))).Paired := by
  refine hs.setStage ?_
  have hgiven := hs.calls session
  simp only [KeepsConnection] at hkeeps
  rcases hstage : s.hosts.stage session with _ | _ | _ | ⟨run, name⟩ | _ | _ | _
  case reconciling =>
    rw [hstage] at hkeeps
    rcases hfound : findContainerHostLink s.hosts.links with _ | link
    · trivial
    · simp only [HostSystem.found]
      rcases hmeta : link.metadata with _ | meta'
      · trivial
      · show s.Given (s.port session) link.externalId
        rcases hkeeps link hfound with hnone | hsame
        · rw [hnone]
          exact given_none_right
        · rw [← hsame]
          have hmem : link ∈ listLinksFor s.hosts.links := List.mem_of_find?_eq_some hfound
          exact hs.rows link ((List.mem_insertionSort _).1 hmem)
  all_goals
    rw [hstage] at hgiven
    exact hgiven

theorem paired_updateResource {id : ExternalResourceId} {f : CompanionLink → CompanionLink}
    (hf : ∀ row ∈ s.hosts.links, row.externalResourceId = id →
      s.Given (f row).connectionId (f row).externalId) :
    ∀ row ∈ updateResource id f s.hosts.links, s.Given row.connectionId row.externalId := by
  intro row hrow
  obtain ⟨before, hbefore, rfl⟩ := List.mem_map.1 hrow
  split_ifs with hid
  · exact hf before hbefore hid
  · exact hs.rows before hbefore

theorem paired_commitIntent {id : ExternalResourceId}
    (hkeeps : s.KeepsConnection (.call (.commitIntent session id now))) :
    (s.step (.call (.commitIntent session id now))).Paired := by
  simp only [KeepsConnection] at hkeeps
  simp only [step, HostSystem.step]
  rcases hstage : s.hosts.stage session with _ | _ | ⟨input, startedAt, existing⟩ | _ | _ | _ | _
  case declared =>
    rw [hstage] at hkeeps
    refine hs.of_call session (List.Subset.refl _) ?_ ?_ fun other hother => ⟨rfl, if_neg hother⟩
    · rcases existing with _ | existing
      · intro row hrow
        rcases List.mem_cons.1 hrow with rfl | hrow
        · exact given_none_right
        · exact hs.rows row hrow
      · refine paired_updateResource hs fun row hrow hid => ?_
        show s.Given (some input.connectionId) row.externalId
        rcases hkeeps row hrow hid with hnone | hsame
        · rw [hnone]
          exact given_none_right
        · rw [← hsame]
          exact hs.rows row hrow
    · show ConnectedHosts.StageGiven _ _ (if session = session then HostStage.idle else _)
      rw [if_pos rfl]
      trivial
  all_goals exact hs

theorem paired_settle : (s.step (.call (.settle session))).Paired := by
  have hgiven := hs.calls session
  have hrows : ∀ (t : ConnectedHosts), s.learned ⊆ t.learned → t.hosts.links = s.hosts.links →
      ∀ row ∈ t.hosts.links, t.Given row.connectionId row.externalId := by
    intro t hlearned hlinks row hrow
    rw [hlinks] at hrow
    exact (hs.rows row hrow).mono hlearned
  simp only [step, HostSystem.step, learnedAt]
  rcases hstage : s.hosts.stage session with _ | _ | _ | _ | ⟨run, name, link, meta'⟩ | _ | _
  case reading =>
    rw [hstage] at hgiven
    refine hs.of_call session (List.subset_append_right _ _)
      (hrows _ (List.subset_append_right _ _) rfl) ?_ fun other hother => ⟨rfl, if_neg hother⟩
    show ConnectedHosts.StageGiven _ (s.port session)
      (if session = session then HostSystem.settled run name link meta' else _)
    rw [if_pos rfl]
    unfold HostSystem.settled
    rcases hsettle : run.settle name link meta' with error | ⟨applied, matched⟩
    · trivial
    · intro connection hconnection id hid
      cases hid
      rw [Option.mem_def.1 hconnection]
      rcases run.settle_matched hsettle with hknown | hlearned
      · exact List.mem_append_right _ (hgiven connection hconnection id hknown)
      · exact List.mem_append_left _ (List.mem_map_of_mem hlearned)
  all_goals exact hs

theorem paired_selfRetireIdentity {stored : Bool}
    (hkeeps : s.KeepsConnection (.call (.selfRetireIdentity session stored))) :
    (s.step (.call (.selfRetireIdentity session stored))).Paired := by
  have hgiven := hs.calls session
  simp only [KeepsConnection] at hkeeps
  simp only [step, HostSystem.step]
  rcases hstage : s.hosts.stage session with _ | _ | _ | _ | _ |
    ⟨mode, link, meta', applied, matched⟩ | _
  case settled =>
    rw [hstage] at hkeeps hgiven
    simp only
    split_ifs with hwrites
    · refine hs.of_call session (List.Subset.refl _) ?_ ?_ fun other hother => ⟨rfl, if_neg hother⟩
      · refine paired_updateResource hs fun row hrow hid => ?_
        show s.Given row.connectionId matched
        rw [hkeeps hwrites row hrow hid]
        exact hgiven
      · show ConnectedHosts.StageGiven _ _
          (if session = session then HostStage.identified mode link meta' applied else _)
        rw [if_pos rfl]
        trivial
    · exact hs.setStage trivial
  all_goals exact hs

theorem paired_writeApplied :
    (s.step (.call (.writeApplied session now))).Paired := by
  simp only [step, HostSystem.step]
  rcases hstage : s.hosts.stage session with _ | _ | _ | _ | _ | _ | ⟨mode, link, meta', applied⟩
  case identified =>
    simp only
    split_ifs with hwrites
    · refine hs.of_call session (List.Subset.refl _) ?_ ?_ fun other hother => ⟨rfl, if_neg hother⟩
      · exact paired_updateResource hs fun row hrow _ => hs.rows row hrow
      · show ConnectedHosts.StageGiven _ _ (if session = session then HostStage.idle else _)
        rw [if_pos rfl]
        trivial
    · exact hs.setStage trivial
  all_goals exact hs

theorem paired_step (action : ConnectedAction) (hkeeps : s.KeepsConnection action)
    : (s.step action).Paired := by
  rcases action with (⟨session, input, now⟩ | ⟨session, run⟩ | session | ⟨session, id, now⟩ |
    session | ⟨session, stored⟩ | ⟨session, now⟩ | now | session) | ⟨session, connection, run⟩
  · simp only [step, HostSystem.step]
    split
    · split_ifs
      · exact hs
      · exact hs.setStage trivial
    · exact hs
  · simp only [step]
    split
    · exact hs
    · exact paired_reconcile hs _ run
  · exact paired_findLink hs hkeeps
  · exact paired_commitIntent hs hkeeps
  · exact paired_settle hs
  · exact paired_selfRetireIdentity hs hkeeps
  · exact paired_writeApplied hs
  · exact ⟨hs.rows, hs.calls⟩
  · exact hs.setStage trivial
  · simp only [step]
    split_ifs
    · exact paired_reconcile hs connection _
    · exact hs

theorem Paired.sendsKnown (action : ConnectedAction) : s.SendsKnown action := by
  unfold SendsKnown
  split
  · rename_i session
    have hgiven := hs.calls session
    split
    · rename_i run name link meta' hstage
      rw [hstage] at hgiven
      intro connection hconnection id hid
      obtain ⟨operation, hsends, hupdated⟩ := Option.bind_eq_some_iff.1 hid
      rcases run.updated_of_sends hsends hupdated with hknown | hnamed
      · exact .inl (hgiven connection hconnection id hknown)
      · exact .inr hnamed
    · trivial
  · trivial

end

/-- Every update goes to a host that its own connection has given, in a run that leaves no id beside
another connection. -/
theorem updates_known_of_kept (target : HostingTargetRow) (links : List CompanionLink)
    (actions : List ConnectedAction)
    (hkept : Runs.Meets step KeepsConnection (start target links) actions) :
    Runs.Meets step SendsKnown (start target links) actions :=
  Runs.Meets.of_invariant (fun _ action hs hkeeps => paired_step hs action hkeeps)
    (fun _ action hs _ => hs.sendsKnown action) (paired_start target links) hkept

section Examples

def nodeTarget : HostingTargetRow where
  id := 1
  name := "node"
  controlSurface := .none
  frontedByTargetId := none
  proxyConnectionId := none
  externalSiteId := none
  decommissionedAt := none

def declaredAt (micros : ℕ) : Timestamp := ⟨⟨2026, 9, 30⟩, micros⟩

def declaresOn (connection : ConnectionId) (connectionType : String) :
    DeclareContainerHostIntentInput where
  connectionId := connection
  url := "https://dockhand.test"
  connectionType := connectionType

def reconciles (hosts : List ObservedContainerHost) : ContainerHostReconcile where
  mode := .apply
  trigger := .intentChange
  read := .ok hosts
  policyTier := .additive
  reply
    | .create _ => .ok ⟨"7"⟩
    | .update id _ => .ok ⟨id⟩

def declaresAndReconciles (input : DeclareContainerHostIntentInput)
    (hosts : List ObservedContainerHost) (micros : ℕ) : List ConnectedAction :=
  [.call (.declareIntent 0 input (declaredAt micros)), .call (.findLink 0),
    .call (.commitIntent 0 1 (declaredAt (micros + 1))),
    .call (.reconcile 0 (reconciles hosts)), .call (.findLink 0), .call (.settle 0),
    .call (.selfRetireIdentity 0 true), .call (.writeApplied 0 (declaredAt (micros + 2)))]

def node (id : String) : ObservedContainerHost where
  externalHostId := id
  name := "node"
  connectionType := "socket"

def stranger (id : String) : ObservedContainerHost where
  externalHostId := id
  name := "stranger"
  connectionType := "socket"

def switched : List ConnectedAction :=
  declaresAndReconciles (declaresOn 1 "socket") [] 1000 ++
    declaresAndReconciles (declaresOn 2 "direct") [stranger "7", node "8"] 2000

def redeclared : List ConnectedAction :=
  declaresAndReconciles (declaresOn 1 "socket") [] 1000 ++
    declaresAndReconciles (declaresOn 1 "direct") [stranger "6", node "7"] 2000

theorem redeclared_known : Runs.Meets step SendsKnown (start nodeTarget []) redeclared :=
  updates_known_of_kept nodeTarget [] redeclared (by decide +kernel)

theorem switched_overwrites :
    ¬∀ (target : HostingTargetRow) (links : List CompanionLink) (actions : List ConnectedAction),
      Runs.Meets step SendsKnown (start target links) actions := by
  intro h
  have hsent : ¬Runs.Meets step SendsKnown (start nodeTarget []) switched := by
    decide +kernel
  exact hsent (h nodeTarget [] switched)

end Examples

end ConnectedHosts

end Loxep

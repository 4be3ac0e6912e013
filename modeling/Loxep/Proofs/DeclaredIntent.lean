import Loxep.ContainerHosts
import Loxep.Lib.Runs
import Loxep.Lib.SortedLists

/-!
# Declared container-host intent

A reconcile that has applied something writes back all of the metadata it read before it called the
provider.
-/

namespace Loxep

def CompanionLink.declaration (link : CompanionLink) : Option ContainerHostDeclaration :=
  link.metadata.map fun meta' => ⟨link.connectionId, link.url, meta'.toContainerHostIntent⟩

namespace DeclareContainerHostIntentInput

variable (input : DeclareContainerHostIntentInput) {now startedAt : Timestamp}
  {existing link : CompanionLink} {id : ExternalResourceId}

@[simp] theorem patch_isContainerHost :
    (input.patch now existing link).isContainerHost = link.isContainerHost := rfl

@[simp] theorem patch_createdAt : (input.patch now existing link).createdAt = link.createdAt := rfl

@[simp] theorem patch_declaration :
    (input.patch now existing link).declaration = some (input.declaration now) := rfl

@[simp] theorem newLink_isContainerHost :
    (input.newLink id startedAt now).isContainerHost = true := by
  unfold newLink CompanionLink.isContainerHost
  simp

@[simp] theorem newLink_declaration :
    (input.newLink id startedAt now).declaration = some (input.declaration now) := rfl

end DeclareContainerHostIntentInput

section Links

variable {links : List CompanionLink} {id : ExternalResourceId}

theorem find_updateResource {f : CompanionLink → CompanionLink}
    (hhost : ∀ link, (f link).isContainerHost = link.isContainerHost)
    (hcreated : ∀ link, (f link).createdAt = link.createdAt) :
    findContainerHostLink (updateResource id f links) = (findContainerHostLink links).map
      fun link => if link.externalResourceId = id then f link else link := by
  have hkept : ∀ link : CompanionLink,
      (if link.externalResourceId = id then f link else link).createdAt = link.createdAt := by
    intro link
    split_ifs
    · exact hcreated link
    · rfl
  have hfound : ∀ link : CompanionLink, (if link.externalResourceId = id then f link
      else link).isContainerHost = link.isContainerHost := by
    intro link
    split_ifs
    · exact hhost link
    · rfl
  have hsorts : listLinksFor (updateResource id f links) = (listLinksFor links).map
      fun link => if link.externalResourceId = id then f link else link := by
    unfold listLinksFor updateResource
    refine (List.map_insertionSort (fun a b : CompanionLink => b.createdAt ≤ a.createdAt) _ _
      links ?_).symm
    intro a _ b _
    rw [hkept, hkept]
  unfold findContainerHostLink
  rw [hsorts, List.find?_map]
  simp only [Function.comp_def, hfound]

theorem find_newLink {input : DeclareContainerHostIntentInput} {startedAt now : Timestamp} :
    findContainerHostLink (input.newLink id startedAt now :: links) =
      some (((findContainerHostLink links).filter fun link => ¬link.createdAt ≤ startedAt).getD
        (input.newLink id startedAt now)) := by
  have hsorted : (listLinksFor links).Pairwise fun a b => b.createdAt ≤ a.createdAt := by
    have : Std.Total fun a b : CompanionLink => b.createdAt ≤ a.createdAt :=
      ⟨fun a b => le_total b.createdAt a.createdAt⟩
    have : IsTrans CompanionLink fun a b => b.createdAt ≤ a.createdAt :=
      ⟨fun _ _ _ hab hbc => le_trans hbc hab⟩
    exact List.pairwise_insertionSort _ links
  have htrans : ∀ a b c : CompanionLink, b.createdAt ≤ a.createdAt → c.createdAt ≤ b.createdAt →
      c.createdAt ≤ a.createdAt := fun _ _ _ hab hbc => le_trans hbc hab
  exact find?_orderedInsert htrans input.newLink_isContainerHost hsorted

end Links

namespace HostSystem

variable {s : HostSystem} {session : HostSessionId}

def CarriesLatest (s : HostSystem) : Prop :=
  (findContainerHostLink s.links).bind CompanionLink.declaration = s.latest

instance (s : HostSystem) : Decidable s.CarriesLatest := inferInstanceAs (Decidable (_ = _))

def WritesLooked (s : HostSystem) (declaration : ContainerHostDeclaration)
    (existing : CompanionLink) : Prop :=
  ∃ link ∈ findContainerHostLink s.links,
    link.externalResourceId = existing.externalResourceId ∨ link.declaration = some declaration

def NoneNewer (s : HostSystem) (declaration : ContainerHostDeclaration) (startedAt : Timestamp) :
    Prop :=
  ∀ link ∈ findContainerHostLink s.links,
    link.createdAt ≤ startedAt ∨ link.declaration = some declaration

def StillCarries (s : HostSystem) (read : CompanionLink) (intent : ContainerHostIntent) : Prop :=
  ∀ link ∈ findContainerHostLink s.links, link.externalResourceId = read.externalResourceId →
    link.metadata.map (·.toContainerHostIntent) = some intent

/-- What a write may find, which other calls may have changed since its call read it. -/
def WritesWhatIsLooked (s : HostSystem) : HostAction → Prop
  | .commitIntent session _ now =>
    match s.stage session with
    | .declared input _ (some existing) => s.WritesLooked (input.declaration now) existing
    | .declared input startedAt none => s.NoneNewer (input.declaration now) startedAt
    | _ => True
  | .writeApplied session _ =>
    match s.stage session with
    | .identified mode link meta' applied =>
      mode = .apply ∧ 0 < applied → s.StillCarries link meta'.toContainerHostIntent
    | _ => True
  | _ => True

section Decidable

variable {declaration : ContainerHostDeclaration} {link : CompanionLink} {startedAt : Timestamp}
  {intent : ContainerHostIntent}

instance : Decidable (s.WritesLooked declaration link) :=
  inferInstanceAs (Decidable (∃ _ ∈ _, _))

instance : Decidable (s.NoneNewer declaration startedAt) :=
  inferInstanceAs (Decidable (∀ _ ∈ _, _))

instance : Decidable (s.StillCarries link intent) := inferInstanceAs (Decidable (∀ _ ∈ _, _))

instance (action : HostAction) : Decidable (s.WritesWhatIsLooked action) := by
  unfold WritesWhatIsLooked
  split
  · split <;> infer_instance
  · split <;> infer_instance
  · infer_instance

end Decidable

theorem carries_commit {input : DeclareContainerHostIntentInput} {startedAt now : Timestamp}
    {existing : Option CompanionLink} (id : ExternalResourceId)
    (hstage : s.stage session = .declared input startedAt existing) :
    (s.step (.commitIntent session id now)).CarriesLatest ↔
      s.WritesWhatIsLooked (.commitIntent session id now) := by
  unfold CarriesLatest
  simp only [step, WritesWhatIsLooked, hstage]
  rcases existing with _ | existing
  · show (findContainerHostLink (input.newLink id startedAt now :: s.links)).bind _ = _ ↔ _
    rw [find_newLink, Option.bind_some]
    show _ ↔ s.NoneNewer (input.declaration now) startedAt
    unfold NoneNewer
    rcases hfind : findContainerHostLink s.links with _ | link
    · simp
    · by_cases hle : link.createdAt ≤ startedAt
      · simp [Option.filter_some, hle, not_lt.2 hle]
      · simp [Option.filter_some, hle, not_le.1 hle]
  · show (findContainerHostLink (updateResource _ (input.patch now existing) s.links)).bind _ = _ ↔
      s.WritesLooked (input.declaration now) existing
    rw [find_updateResource (fun _ => input.patch_isContainerHost) fun _ => input.patch_createdAt]
    unfold WritesLooked
    rcases hfind : findContainerHostLink s.links with _ | link
    · simp
    · by_cases hid : link.externalResourceId = existing.externalResourceId
      · simp [hid]
      · simp [hid]

theorem declaration_withMetadata (row : CompanionLink) (meta' : ContainerHostIntentMetadata)
    (now : Timestamp) :
    ({ row with metadata := some { meta' with lastAppliedAt := some now } } :
      CompanionLink).declaration = row.declaration ↔
        row.metadata.map (·.toContainerHostIntent) = some meta'.toContainerHostIntent := by
  rcases hmeta : row.metadata with _ | stored
  · simp [CompanionLink.declaration, hmeta]
  · simp [CompanionLink.declaration, hmeta, eq_comm]

theorem carries_writeApplied {mode : ReconcileMode} {link : CompanionLink}
    {meta' : ContainerHostIntentMetadata} {applied : ℕ} {now : Timestamp} (hs : s.CarriesLatest)
    (hstage : s.stage session = .identified mode link meta' applied) :
    (s.step (.writeApplied session now)).CarriesLatest ↔
      s.WritesWhatIsLooked (.writeApplied session now) := by
  simp only [step, WritesWhatIsLooked, hstage]
  split_ifs with hwrites
  · unfold CarriesLatest at hs ⊢
    simp only [hwrites, and_self, true_imp_iff]
    show (findContainerHostLink (updateResource _ _ s.links)).bind _ = s.latest ↔ _
    rw [find_updateResource, ← hs]
    · unfold StillCarries
      rcases hfind : findContainerHostLink s.links with _ | row
      · simp
      · by_cases hid : row.externalResourceId = link.externalResourceId
        · simpa [hid] using declaration_withMetadata row meta' now
        · simp [hid]
    · exact fun _ => rfl
    · exact fun _ => rfl
  · exact iff_of_true hs fun h => absurd h hwrites

theorem carries_selfRetireIdentity {stored : Bool} (hs : s.CarriesLatest) :
    (s.step (.selfRetireIdentity session stored)).CarriesLatest := by
  unfold CarriesLatest at hs ⊢
  simp only [step]
  split
  · split_ifs
    · show (findContainerHostLink (updateResource _ _ s.links)).bind _ = s.latest
      rw [find_updateResource, ← hs]
      · rcases findContainerHostLink s.links with _ | row
        · rfl
        · rw [Option.map_some, Option.bind_some, Option.bind_some]
          split_ifs <;> rfl
      · exact fun _ => rfl
      · exact fun _ => rfl
    · exact hs
  · exact hs

theorem carries_step_iff (hs : s.CarriesLatest) (action : HostAction) :
    (s.step action).CarriesLatest ↔ s.WritesWhatIsLooked action := by
  rcases action with ⟨session, input, now⟩ | ⟨session, run⟩ | session | ⟨session, id, now⟩ |
    session | ⟨session, stored⟩ | ⟨session, now⟩ | now | session
  · refine iff_of_true ?_ trivial
    simp only [step]
    split
    · split_ifs <;> exact hs
    · exact hs
  · refine iff_of_true ?_ trivial
    simp only [step]
    split
    · split_ifs <;> exact hs
    · exact hs
  · exact iff_of_true hs trivial
  · rcases hstage : s.stage session with _ | _ | ⟨input, startedAt, existing⟩ | _ | _ | _ | _
    case declared => exact carries_commit id hstage
    all_goals
      simp only [step, WritesWhatIsLooked, hstage]
      exact iff_of_true hs trivial
  · refine iff_of_true ?_ trivial
    simp only [step]
    split <;> exact hs
  · exact iff_of_true (carries_selfRetireIdentity hs) trivial
  · rcases hstage : s.stage session with _ | _ | _ | _ | _ | _ | ⟨mode, link, meta', applied⟩
    case identified => exact carries_writeApplied hs hstage
    all_goals
      simp only [step, WritesWhatIsLooked, hstage]
      exact iff_of_true hs trivial
  · exact iff_of_true hs trivial
  · exact iff_of_true hs trivial

/-- The declared intent is kept in every run whose writes find what their calls read, and in no
other. -/
theorem latest_declared_carried_iff (hs : s.CarriesLatest) (actions : List HostAction) :
    Runs.Along step CarriesLatest s actions ↔ Runs.Meets step WritesWhatIsLooked s actions := by
  have hinv : ∀ (s : HostSystem) (action : HostAction), True → s.CarriesLatest → True :=
    fun _ _ _ _ => trivial
  exact Runs.along_iff_meets hinv (fun _ action _ hs => carries_step_iff hs action) trivial hs

section Examples

def unlinkedTarget : HostSystem where
  target := {
    id := 1
    name := "node"
    controlSurface := .none
    frontedByTargetId := none
    proxyConnectionId := none
    externalSiteId := none
    decommissionedAt := none }

def hostClock (micros : ℕ) : Timestamp := ⟨⟨2026, 9, 30⟩, micros⟩

def declaresSocket : DeclareContainerHostIntentInput where
  connectionId := 1
  url := "https://dockhand.test"
  connectionType := "socket"

def declaresDirect : DeclareContainerHostIntentInput where
  connectionId := 1
  url := "https://dockhand.test"
  connectionType := "direct"
  host := some "10.0.0.9"

def registers : ContainerHostReconcile where
  mode := .apply
  trigger := .intentChange
  read := .ok []
  policyTier := .additive
  reply := fun _ => .ok ⟨"7"⟩

def declaredMeanwhile : List HostAction :=
  [.declareIntent 0 declaresSocket (hostClock 1000), .findLink 0,
    .commitIntent 0 1 (hostClock 1001),
    .reconcile 0 registers, .findLink 0,
    .declareIntent 1 declaresDirect (hostClock 2000), .findLink 1,
    .commitIntent 1 2 (hostClock 2001),
    .settle 0, .selfRetireIdentity 0 true, .writeApplied 0 (hostClock 3000)]

def declaredAfter : List HostAction :=
  [.declareIntent 0 declaresSocket (hostClock 1000), .findLink 0,
    .commitIntent 0 1 (hostClock 1001),
    .reconcile 0 registers, .findLink 0, .settle 0, .selfRetireIdentity 0 true,
    .writeApplied 0 (hostClock 1500),
    .declareIntent 1 declaresDirect (hostClock 2000), .findLink 1,
    .commitIntent 1 2 (hostClock 2001)]

theorem declared_after_carried : Runs.Along step CarriesLatest unlinkedTarget declaredAfter :=
  (latest_declared_carried_iff (by decide) declaredAfter).2 (by decide +kernel)

theorem declared_meanwhile_lost :
    ¬Runs.Along step CarriesLatest unlinkedTarget declaredMeanwhile := by
  intro h
  have hlost : ¬(Runs.run step unlinkedTarget declaredMeanwhile).CarriesLatest := by
    decide +kernel
  exact hlost h.last

end Examples

end HostSystem

end Loxep

import Loxep.Proofs.DnsConvergence
import Loxep.Proofs.EndsOnce

/-!
# What a pointed domain publishes

The run of a `dns.point-at-target` step sees the desired records that stand when it reads them, not
those that follow from the intent just written.
-/

namespace Loxep

section Spec

def DesiredRecord.payload (d : DesiredRecord) : DnsRecordPayload :=
  ⟨d.type, d.name, d.content, d.ttlSeconds, d.priority, d.proxied⟩

def ObservedDnsRecord.payload (o : ObservedDnsRecord) : DnsRecordPayload :=
  ⟨o.type, o.name, o.content, o.ttlSeconds, o.priority, o.proxied⟩

def ProvisioningTables.addressRecords (t : ProvisioningTables) (domain : ManagedDomainRow)
    (capabilities : DnsCapabilities) : List DesiredRecord :=
  match materializeDesiredRecords (t.materializeInput domain capabilities) with
  | .ok desired => desired.filter fun d => d.owner = .apex ∨ d.owner = .wildcard
  | .error _ => []

def RecordedSucceeded (outcome : InfrastructureResult StepOutcome) : Prop :=
  (recordedOutcome outcome).status = .succeeded

def PublishesTarget (plan : CompiledPlan) (step : CompiledStep) (params : DnsPointAtTargetParams)
    (met : PointEncounter) : Prop :=
  let result := dispatchDnsPointAtTarget plan step params met
  RecordedSucceeded result.outcome → ∀ domain, met.domainOf plan step = .ok domain →
    ∀ d ∈ result.tables.addressRecords domain met.capabilities,
      ∃ o ∈ result.zone, o.payload = d.payload

def WantedOrLeft (live tombstoned : List IntentRecord) (zone : List ObservedDnsRecord)
    (record : DnsRecordPayload) : Prop :=
  (∃ r ∈ live, r.owner ≠ .manual ∧ r.payload = record) ∨
    ∃ o ∈ zone, o.payload = record ∧
      ∀ op ∈ (planSync live tombstoned zone).operations, ¬op.Targets o

def MaterializedBefore (plan : CompiledPlan) (step : CompiledStep) (params : DnsPointAtTargetParams)
    (met : PointEncounter) : Prop :=
  ∀ domain, met.domainOf plan step = .ok domain →
    ∀ d ∈ (met.tables.withIntent domain.id params).addressRecords domain met.capabilities,
      WantedOrLeft (met.found.intentOf domain.id) (met.found.tombstonedOf domain.id) met.zone
        d.payload

variable {n : ℕ}

/-- What happens to a run: a statement of a session, or the end of a pointing step's dispatch. -/
inductive ProvisioningEvent (n : ℕ)
  | statement (a : ProvisioningAction n)
  | point (w : Fin n) (met : PointEncounter)

def ProvisioningRun.pointing (s : ProvisioningRun n) (w : Fin n) :
    Option (CompiledStep × DnsPointAtTargetParams) :=
  match s.stage w with
  | .attempting step _ _ =>
    match step.step with
    | .dnsPointAtTarget params => some (step, params)
    | _ => none
  | _ => none

def ProvisioningRun.happen (s : ProvisioningRun n) : ProvisioningEvent n → ProvisioningRun n
  | .statement (.settle w result) => if (s.pointing w).isSome then s else s.settle w result
  | .statement a => s.step a
  | .point w met =>
    match s.pointing w with
    | some (step, params) =>
      s.settle w (dispatchDnsPointAtTarget s.plan step params met).outcome
    | none => s

def TellsTruth (s : ProvisioningRun n) : ProvisioningEvent n → Prop
  | .statement _ => True
  | .point w met => ∀ step params, s.pointing w = some (step, params) →
      PublishesTarget s.plan step params met

def MaterializedFirst (s : ProvisioningRun n) : ProvisioningEvent n → Prop
  | .statement _ => True
  | .point w met => ∀ step params, s.pointing w = some (step, params) →
      RecordedSucceeded (dispatchDnsPointAtTarget s.plan step params met).outcome →
        MaterializedBefore s.plan step params met

end Spec

theorem carries_iff_payload {r : IntentRecord} {o : ObservedDnsRecord} :
    Carries r o ↔ o.payload = r.payload := by
  constructor
  · rintro ⟨hkey, httl, hpriority, hproxied⟩
    simp only [IntentRecord.naturalKey, ObservedDnsRecord.naturalKey, Prod.mk.injEq] at hkey
    obtain ⟨htype, hname, hcontent⟩ := hkey
    simp [ObservedDnsRecord.payload, IntentRecord.payload, htype, hname, hcontent, httl, hpriority,
      hproxied]
  · intro h
    simp only [ObservedDnsRecord.payload, IntentRecord.payload, DnsRecordPayload.mk.injEq] at h
    obtain ⟨htype, hname, hcontent, httl, hpriority, hproxied⟩ := h
    exact ⟨by simp [IntentRecord.naturalKey, ObservedDnsRecord.naturalKey, htype, hname, hcontent],
      httl, hpriority, hproxied⟩

section Zone

variable {live tombstoned : List IntentRecord} {zone : DnsZone}

theorem published_iff (provider : DnsProvider) (h : NaturallyKeyed live tombstoned zone)
    (record : DnsRecordPayload) :
    (∃ o ∈ provider.applyRun live tombstoned zone.records, o.payload = record) ↔
      WantedOrLeft live tombstoned zone.records record := by
  constructor
  · rintro ⟨o, ho, rfl⟩
    obtain ⟨⟨hzone, huntouched⟩ | ⟨r, hr, hmanual, hcarries⟩, hkept⟩ := mem_applyRun provider ho
    · refine .inr ⟨o, hzone, rfl, fun op hop htarget => ?_⟩
      rcases mem_operations.1 hop with
        ⟨r, -, -, rfl⟩ | ⟨e, he, hmanual, rfl⟩ | ⟨t, ht, hmanual, rfl⟩
      · exact htarget
      · have he := mem_updates.2 ⟨he, hmanual⟩
        exact huntouched e he (DnsZone.eq_of_id (update_mem he).2.2 hzone htarget.symm)
      · exact hkept t (mem_deletes.2 ⟨ht, hmanual⟩) htarget.symm
    · exact .inl ⟨r, hr, hmanual, (carries_iff_payload.1 hcarries).symm⟩
  · rintro (⟨r, hr, hmanual, rfl⟩ | ⟨o, ho, rfl, huntargeted⟩)
    · obtain ⟨o, ho, hcarries⟩ := present_of_live provider h hr hmanual
      exact ⟨o, ho, carries_iff_payload.1 hcarries⟩
    · exact ⟨o, mem_apply_of_untargeted provider ho huntargeted, rfl⟩

end Zone

section Run

variable {t : SyncTables} {input : RecordSyncInput} {result : RecordSyncResult}

theorem sent_of_succeeded (h : (t.runRecordSync input).1 = .ok result)
    (hstatus : result.status = .succeeded) (hmode : input.mode = .apply) :
    ∃ domain observed, t.domains.find? (·.id == input.domainId) = some domain ∧
      domain.externalZoneId.isSome = true ∧ input.read = .ok observed ∧ input.sends = true ∧
        noUnexpectedDeletions
          (planSync (t.intentOf input.domainId) (t.tombstonedOf input.domainId) observed).diff
          (planSync (t.intentOf input.domainId) (t.tombstonedOf input.domainId) observed).operations
            = true := by
  unfold SyncTables.runRecordSync at h
  rcases hdomain : t.domains.find? (·.id == input.domainId) with _ | domain
  · simp [hdomain] at h
  · simp only [hdomain] at h
    split_ifs at h with hzone
    · rcases hread : input.read with kind | observed
      · simp [hread] at h
      · simp only [hread] at h
        refine ⟨domain, observed, hdomain, Option.isSome_iff_ne_none.2 hzone, rfl, ?_⟩
        unfold SyncTables.runOver at h
        dsimp only at h
        rcases happly : t.applyStep input (planSync (t.intentOf input.domainId)
            (t.tombstonedOf input.domainId) observed) with error | ⟨applied, u⟩
        · simp [happly] at h
        · simp only [happly] at h
          split at h
          · simp at h
          · obtain rfl := Except.ok.inj h
            have hopen : input.writePolicyBlocks = false := by
              by_contra hblocked
              rw [Bool.not_eq_false] at hblocked
              simp [hblocked] at hstatus
            have hsends : input.sends = true := by
              simp [RecordSyncInput.sends, hmode, hopen]
            refine ⟨hsends, ?_⟩
            simp only [SyncTables.applyStep, hsends, if_true, Except.bind_eq_ok] at happly
            obtain ⟨_, hrequire, -⟩ := happly
            exact Except.require_eq_ok.1 hrequire

end Run

theorem recordedSucceeded_iff {outcome : InfrastructureResult StepOutcome} :
    RecordedSucceeded outcome ↔ ∃ o, outcome = .ok o ∧ o.status = .succeeded := by
  rcases outcome with error | o
  · refine iff_of_false ?_ (by simp)
    rcases error with ⟨errorClass, message⟩
    cases errorClass <;>
      simp [RecordedSucceeded, recordedOutcome, caughtOutcome, failedOutcome]
  · simp [RecordedSucceeded, recordedOutcome]

section Step

variable (plan : CompiledPlan) (step : CompiledStep) (params : DnsPointAtTargetParams)
  (met : PointEncounter)

def PointEncounter.dnsZone : DnsZone := ⟨met.zone, met.zoneIdentified⟩

theorem encounter_keyed (domain : ManagedDomainId) : NaturallyKeyed
    (met.found.intentOf domain) (met.found.tombstonedOf domain) met.dnsZone where
  records := met.zoneKeyed
  rows := by
    have hinj := List.inj_on_of_nodup_map met.rowsKeyed
    have hnodup : met.found.dnsRecords.Nodup := List.Nodup.of_map _ met.rowsKeyed
    have hsame : ∀ r ∈ met.found.dnsRecords, ∀ r' ∈ met.found.dnsRecords,
        r.domainId = domain → r'.domainId = domain →
          r.toIntentRecord.naturalKey = r'.toIntentRecord.naturalKey → r = r' := by
      intro r hr r' hr' hdomain hdomain' hkey
      simp only [IntentRecord.naturalKey, Prod.mk.injEq] at hkey
      exact hinj hr hr' (by simp [hdomain, hdomain', hkey])
    have hlive : ∀ r ∈ met.found.dnsRecords.filter
        fun r => r.domainId == domain && r.desiredDeletedAt.isNone, r ∈ met.found.dnsRecords ∧
          r.domainId = domain ∧ r.desiredDeletedAt.isNone = true := by
      intro r hr
      simpa [and_assoc] using hr
    have htombstoned : ∀ r ∈ met.found.dnsRecords.filter
        fun r => r.domainId == domain && r.desiredDeletedAt.isSome, r ∈ met.found.dnsRecords ∧
          r.domainId = domain ∧ r.desiredDeletedAt.isSome = true := by
      intro r hr
      simpa [and_assoc] using hr
    rw [KeyedRows, List.map_append, List.nodup_append]
    simp only [SyncTables.intentOf, SyncTables.tombstonedOf, List.map_map]
    refine ⟨?_, ?_, ?_⟩
    · refine (hnodup.filter _).map_on fun r hr r' hr' hkey => ?_
      obtain ⟨hr, hdomain, -⟩ := hlive r hr
      obtain ⟨hr', hdomain', -⟩ := hlive r' hr'
      exact hsame r hr r' hr' hdomain hdomain' hkey
    · refine (hnodup.filter _).map_on fun r hr r' hr' hkey => ?_
      obtain ⟨hr, hdomain, -⟩ := htombstoned r hr
      obtain ⟨hr', hdomain', -⟩ := htombstoned r' hr'
      exact hsame r hr r' hr' hdomain hdomain' hkey
    · intro key hkey key' hkey' heq
      obtain ⟨r, hr, rfl⟩ := List.mem_map.1 hkey
      obtain ⟨r', hr', rfl⟩ := List.mem_map.1 hkey'
      obtain ⟨hr, hdomain, hnone⟩ := hlive r hr
      obtain ⟨hr', hdomain', hsome⟩ := htombstoned r' hr'
      obtain rfl := hsame r hr r' hr' hdomain hdomain' heq
      rw [Option.isNone_iff_eq_none] at hnone
      simp [hnone] at hsome

/-- A step that succeeds leaves the intent written and the zone as an apply run over the rows it has
read makes it. -/
theorem dispatch_of_succeeded
    (h : RecordedSucceeded (dispatchDnsPointAtTarget plan step params met).outcome) :
    ∃ (domain : ManagedDomainRow) (provider : DnsProvider),
      met.domainOf plan step = .ok domain ∧
      (dispatchDnsPointAtTarget plan step params met).zone = provider.applyRun
        (met.found.intentOf domain.id) (met.found.tombstonedOf domain.id) met.zone ∧
      (dispatchDnsPointAtTarget plan step params met).tables.materializeInput =
        (met.tables.withIntent domain.id params).materializeInput := by
  obtain ⟨o, houtcome, hstatus⟩ := recordedSucceeded_iff.1 h
  unfold dispatchDnsPointAtTarget at houtcome ⊢
  rcases hdomain : met.domainOf plan step with error | domain
  · simp [hdomain] at houtcome
  · simp only [hdomain] at houtcome ⊢
    split_ifs at houtcome ⊢ with hpolicy
    · obtain rfl := Except.ok.inj houtcome
      simp [credentialScope] at hstatus
    · rcases hintent : met.tables.updateIntent domain.id params with error | t
      · simp [hintent] at houtcome
      · simp only [hintent] at houtcome ⊢
        obtain rfl : met.tables.withIntent domain.id params = t := by
          simp only [ProvisioningTables.updateIntent, Except.bind_eq_ok,
            Except.pure_eq_ok] at hintent
          obtain ⟨-, -, -, -, heq⟩ := hintent
          exact heq
        unfold PointEncounter.sync at houtcome ⊢
        rcases hprovider : met.resolveDnsProvider
            (met.tables.target domain.id).dnsConnectionId with error | provider
        · simp [hprovider] at houtcome
        · simp only [hprovider] at houtcome ⊢
          refine ⟨domain, provider, rfl, ?_, rfl⟩
          obtain ⟨result, hrun, rfl⟩ := Except.map_eq_ok.1 houtcome
          have hsucceeded : result.status = .succeeded := by
            rcases hresult : result.status
            · rfl
            · simp [classifyReconcileOutcome, hresult, credentialScope] at hstatus
          obtain ⟨row, observed, hrow, hzone, hread, hsends, hguard⟩ :=
            sent_of_succeeded hrun hsucceeded rfl
          have hobserved : observed = met.zone := by
            simp only [PointEncounter.syncInput] at hread
            split at hread
            · simp at hread
            · exact (Except.ok.inj hread).symm
          subst hobserved
          simp only [SyncTables.zoneAfter, hrow, hread, hzone, hsends, hguard, Bool.and_true,
            if_true]
          rfl

theorem publishes_iff
    (h : RecordedSucceeded (dispatchDnsPointAtTarget plan step params met).outcome) :
    PublishesTarget plan step params met ↔ MaterializedBefore plan step params met := by
  obtain ⟨domain, provider, hdomain, hzone, htables⟩ := dispatch_of_succeeded plan step params met h
  have hpublished := fun record : DnsRecordPayload =>
    published_iff provider (encounter_keyed met domain.id) record
  have hrecords : (dispatchDnsPointAtTarget plan step params met).tables.addressRecords domain
      met.capabilities = (met.tables.withIntent domain.id params).addressRecords domain
        met.capabilities := by
    unfold ProvisioningTables.addressRecords
    rw [htables]
  unfold PublishesTarget MaterializedBefore
  simp only [h, hdomain, true_imp_iff, Except.ok.injEq, forall_eq', hrecords, hzone]
  exact forall₂_congr fun d _ => hpublished d.payload

end Step

/-- The pointing steps recorded as succeeded publish their domain's address records exactly if what
those are was materialized before each. -/
theorem run_tells_truth_iff (n : ℕ) (plan : CompiledPlan) (events : List (ProvisioningEvent n)) :
    Runs.Meets ProvisioningRun.happen TellsTruth (startRun n plan) events ↔
      Runs.Meets ProvisioningRun.happen MaterializedFirst (startRun n plan) events := by
  have hstep : ∀ (s : ProvisioningRun n) e, True → (TellsTruth s e ↔ MaterializedFirst s e) := by
    intro s e _
    cases e with
    | statement a => exact Iff.rfl
    | point w met =>
      refine forall₃_congr fun step params _ => ?_
      by_cases h : RecordedSucceeded (dispatchDnsPointAtTarget s.plan step params met).outcome
      · rw [publishes_iff s.plan step params met h, imp_iff_right h]
      · exact iff_of_true (fun hrecorded => absurd hrecorded h) fun hrecorded => absurd hrecorded h
  exact Runs.meets_iff_meets (fun _ _ _ => trivial) hstep trivial

def declaredDomain : ManagedDomainRow where
  id := 1
  name := "example.com"
  externalZoneId := some "zone-1"
  driftDetectedAt := none
  lastReconciledAt := none
  lastErrorCode := none
  consecutiveErrors := 0

def edgeNode : HostingTargetRow where
  id := 1
  name := "edge"
  controlSurface := .proxyNode
  frontedByTargetId := none
  proxyConnectionId := none
  externalSiteId := none
  decommissionedAt := none

def edgeAddress : HostAddressRow where
  id := 1
  hostingTargetId := 1
  kind := .wan
  family := .v4
  value := "203.0.113.10"
  provenance := .operatorDeclared
  isPrimary := true

def freshEncounter : PointEncounter where
  tables :=
    { domains := [declaredDomain]
      findings := []
      dnsRecords := []
      target := fun _ => ⟨1, none, false, false, false⟩
      addresses := ⟨[edgeNode], [edgeAddress]⟩
      caaPolicy := ⟨false, [], [], none⟩
      mailRecords := fun _ => none
      policies := fun _ => some .additive }
  found := ⟨⟨[declaredDomain], []⟩, []⟩
  zone := []
  capabilities := ⟨true, true, [⟨"A", DnsLabel.a_plain⟩]⟩
  resolveDnsProvider _ := .ok lengtheningProvider
  readFailure := none
  actorIsAdmin := some true
  now := abandonedAt
  runId := 1
  newFindingId index := index
  rowsKeyed := List.nodup_nil
  zoneIdentified := List.nodup_nil
  zoneKeyed := List.nodup_nil

def pointStep : CompiledStep where
  sequence := 1
  step := .dnsPointAtTarget ⟨1, none, none⟩
  optional := false
  dependsOnSequence := some 0

def pointPlan : CompiledPlan := ⟨[declareStep, pointStep], by decide⟩

def pointedInOnePass : List (ProvisioningEvent 1) :=
  [.advance, .load, .attempt, (.settle · (.ok { status := .succeeded })), .attempt].map
    (fun action => .statement (action (Fin.last 0))) ++ [.point (Fin.last 0) freshEncounter]

theorem fresh_domain_unpublished : ¬ ∀ (n : ℕ) (plan : CompiledPlan)
    (events : List (ProvisioningEvent n)),
    Runs.Meets ProvisioningRun.happen TellsTruth (startRun n plan) events := by
  intro hall
  have hpoint := (hall 1 pointPlan pointedInOnePass).2.2.2.2.2.1
  have htruth : PublishesTarget pointPlan pointStep ⟨1, none, none⟩ freshEncounter :=
    hpoint pointStep ⟨1, none, none⟩ rfl
  have hsucceeded : RecordedSucceeded (dispatchDnsPointAtTarget pointPlan pointStep
      ⟨1, none, none⟩ freshEncounter).outcome := by
    unfold RecordedSucceeded
    decide +kernel
  have hdomain : freshEncounter.domainOf pointPlan pointStep = .ok declaredDomain := by
    decide +kernel
  have hyields : ((dispatchDnsPointAtTarget pointPlan pointStep ⟨1, none, none⟩
      freshEncounter).tables.addressRecords declaredDomain freshEncounter.capabilities).length
        = 2 := by
    decide +kernel
  have hzone : (dispatchDnsPointAtTarget pointPlan pointStep ⟨1, none, none⟩
      freshEncounter).zone = [] := by
    decide +kernel
  obtain ⟨d, hd⟩ := List.exists_mem_of_length_pos (hyields ▸ Nat.zero_lt_two)
  obtain ⟨o, ho, -⟩ := htruth hsucceeded declaredDomain hdomain d hd
  rw [hzone] at ho
  exact List.not_mem_nil ho

end Loxep

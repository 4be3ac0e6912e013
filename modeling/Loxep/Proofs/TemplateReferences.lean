import Loxep.Lib.ListSums
import Loxep.Proofs.AttemptOrder
import Loxep.ProvisioningTemplates

/-!
# What the steps of a plan refer to

A compiled step depends on the nearest earlier step of a kind, and refers to what it works on by
name. The domain is named by the chain of its prerequisites itself. The resource of the rules is
named apart, so the two agree for the templates whose nearest earlier resource is the one named.
-/

namespace Loxep

/-- What a step declares, or refers to. -/
inductive ProvisionedObject
  | domain (name : String)
  | resource (domain : String) (subdomain : Option String)
  deriving DecidableEq

namespace StepParams

def declares (domain : String) : StepParams → List ProvisionedObject
  | .domainDeclare _ => [.domain domain]
  | .proxyEnsureResource params => [.resource domain params.subdomain]
  | _ => []

def refersTo (domain : String) : StepParams → List ProvisionedObject
  | .domainDeclare _ => []
  | .proxyEnsureRules params => [.domain domain, .resource domain params.subdomain]
  | _ => [.domain domain]

end StepParams

namespace TemplatePlan

variable (plan : TemplatePlan)

def Prerequisite (step parent : PlannedStep) : Prop :=
  step ∈ plan.steps ∧ parent ∈ plan.steps ∧ step.dependsOnSequence = some parent.sequence ∧
    parent.sequence < step.sequence

/-- The step depends on the other through a strictly decreasing chain. -/
def Requires : PlannedStep → PlannedStep → Prop := Relation.TransGen plan.Prerequisite

def domainOf (step : PlannedStep) : Option String :=
  (plan.plan.findAncestorDomainName step.toStep).toOption

/-- Every step works on some domain and, unless it declares that, depends on a declaration; and each
object a step refers to is declared by a step it depends on. -/
structure FollowsReferences : Prop where
  named : ∀ step ∈ plan.steps, ∃ domain, plan.domainOf step = some domain
  rooted : ∀ step ∈ plan.steps, step.kind ≠ .domainDeclare →
    ∃ declaration, declaration.kind = .domainDeclare ∧ plan.Requires step declaration
  declared : ∀ step ∈ plan.steps, ∀ domain, plan.domainOf step = some domain →
    ∀ object ∈ step.params.refersTo domain, ∃ declaring, plan.Requires step declaring ∧
      ∃ name, plan.domainOf declaring = some name ∧ object ∈ declaring.params.declares name

end TemplatePlan

def StepParams.declaredSubdomain : StepParams → Option (Option String)
  | .proxyEnsureResource params => some params.subdomain
  | _ => none

def StepParams.namedSubdomain : StepParams → Option (Option String)
  | .proxyEnsureRules params => some params.subdomain
  | _ => none

namespace ProvisioningTemplate

variable (template : ProvisioningTemplate)

def NearestResource (rules resource : TemplateStepDefinition) : Prop :=
  resource.stepKind = .proxyEnsureResource ∧ resource.sequence < rules.sequence ∧
    ∀ other ∈ template.steps, other.stepKind = .proxyEnsureResource →
      other.sequence < rules.sequence → other.sequence ≤ resource.sequence

instance (rules resource : TemplateStepDefinition) :
    Decidable (template.NearestResource rules resource) :=
  inferInstanceAs (Decidable (_ ∧ _ ∧ _))

def NearestDeclares (inputs : JsonRecord) : Prop :=
  ∀ rules ∈ template.steps, rules.stepKind = .proxyEnsureRules →
    ∀ resource ∈ template.steps, template.NearestResource rules resource →
      (rules.parse inputs).toOption.bind StepParams.namedSubdomain =
        (resource.parse inputs).toOption.bind StepParams.declaredSubdomain

instance (inputs : JsonRecord) : Decidable (template.NearestDeclares inputs) :=
  inferInstanceAs (Decidable (∀ _ ∈ _, _))

end ProvisioningTemplate

theorem kind_of_parse {kind : ProvisioningStepKind} {json : Json} {params : StepParams}
    (h : kind.parse json = .ok params) : params.kind = kind := by
  cases kind <;>
  · obtain ⟨parsed, -, rfl⟩ := Except.map_eq_ok.1 h
    rfl

theorem TemplateStepDefinition.kind_of_parse {inputs : JsonRecord} {step : TemplateStepDefinition}
    {params : StepParams} (h : step.parse inputs = .ok params) : params.kind = step.stepKind := by
  obtain ⟨json, -, hparsed⟩ := Except.bind_eq_ok.1 h
  exact Loxep.kind_of_parse hparsed

def PlannedStep.Compiles (inputs : JsonRecord) (step : TemplateStepDefinition)
    (compiled : PlannedStep) : Prop :=
  compiled.sequence = step.sequence ∧ compiled.kind = step.stepKind ∧
    step.parse inputs = .ok compiled.params

section Compile

variable {inputs : JsonRecord} {last : LastSequenceByKind} {step : TemplateStepDefinition}
  {steps : List TemplateStepDefinition} {compiled : List PlannedStep}

theorem compileSteps_compiles : ∀ {steps : List TemplateStepDefinition} {last : LastSequenceByKind}
    {compiled : List PlannedStep},
    compileSteps inputs last steps = .ok compiled →
      (∀ step ∈ compiled, ∃ d ∈ steps, step.Compiles inputs d) ∧
        ∀ d ∈ steps, ∃ step ∈ compiled, step.Compiles inputs d
  | [], _, _, h => by
    cases h
    exact ⟨List.forall_mem_nil _, List.forall_mem_nil _⟩
  | step :: steps, _, _, h => by
    obtain ⟨params, parent, rest, hparams, -, hrest, rfl⟩ := compileSteps_cons h
    obtain ⟨hfrom, hto⟩ := compileSteps_compiles hrest
    have hfirst : PlannedStep.Compiles inputs step
        ⟨step.sequence, params, step.provider, step.optional, parent⟩ :=
      ⟨rfl, step.kind_of_parse hparams, hparams⟩
    constructor
    · intro c hc
      rcases List.mem_cons.1 hc with rfl | hc
      · exact ⟨step, List.mem_cons_self, hfirst⟩
      · obtain ⟨d, hd, hcompile⟩ := hfrom c hc
        exact ⟨d, List.mem_cons_of_mem _ hd, hcompile⟩
    · intro d hd
      rcases List.mem_cons.1 hd with rfl | hd
      · exact ⟨_, List.mem_cons_self, hfirst⟩
      · obtain ⟨c, hc, hcompile⟩ := hto d hd
        exact ⟨c, List.mem_cons_of_mem _ hc, hcompile⟩

/-- A step depends on nothing, or on the nearest step of the kind before it, compiled or last of the
kind before them all. -/
structure DependsOnNearest (last : LastSequenceByKind) (compiled : List PlannedStep)
    (step : PlannedStep) : Prop where
  independent : STEP_DEPENDENCY_PARENT_KIND step.kind = none → step.dependsOnSequence = none
  nearest : ∀ kind, STEP_DEPENDENCY_PARENT_KIND step.kind = some kind →
    (∃ parent ∈ compiled, parent.kind = kind ∧ step.dependsOnSequence = some parent.sequence ∧
      parent.sequence < step.sequence ∧ ∀ other ∈ compiled, other.kind = kind →
        other.sequence < step.sequence → other.sequence ≤ parent.sequence) ∨
    (last kind).isSome ∧ step.dependsOnSequence = last kind ∧
      ∀ other ∈ compiled, other.kind = kind → ¬other.sequence < step.sequence

theorem dependsOn_eq_ok {parent : Option ℕ} (h : step.dependsOn last = .ok parent) :
    (STEP_DEPENDENCY_PARENT_KIND step.stepKind = none → parent = none) ∧
      ∀ kind, STEP_DEPENDENCY_PARENT_KIND step.stepKind = some kind →
        (last kind).isSome ∧ parent = last kind := by
  unfold TemplateStepDefinition.dependsOn at h
  rcases hkind : STEP_DEPENDENCY_PARENT_KIND step.stepKind with _ | kind
  · rw [hkind] at h
    cases h
    exact ⟨fun _ => rfl, nofun⟩
  · rw [hkind] at h
    rcases hlast : last kind with _ | sequence
    · simp [hlast] at h
    · simp only [hlast] at h
      cases h
      refine ⟨nofun, fun other hother => ?_⟩
      cases hother
      rw [hlast]
      exact ⟨rfl, rfl⟩

theorem DependsOnNearest.cons {first other : PlannedStep}
    (hlater : ∀ c ∈ compiled, first.sequence < c.sequence) (hother : other ∈ compiled)
    (h : DependsOnNearest (Function.update last first.kind (some first.sequence)) compiled other) :
    DependsOnNearest last (first :: compiled) other := by
  refine ⟨h.independent, fun kind hkind => ?_⟩
  rcases h.nearest kind hkind with ⟨parent, hparent, hsame, hdepends, hlt, hnearest⟩ |
    ⟨hsome, hdepends, hnone⟩
  · left
    refine ⟨parent, List.mem_cons_of_mem _ hparent, hsame, hdepends, hlt, ?_⟩
    intro c hc hck hclt
    rcases List.mem_cons.1 hc with rfl | hc
    · have := hlater parent hparent
      omega
    · exact hnearest c hc hck hclt
  · by_cases hfirst : kind = first.kind
    · left
      rw [hfirst, Function.update_self] at hdepends
      refine ⟨first, List.mem_cons_self, hfirst.symm, hdepends, hlater other hother, ?_⟩
      intro c hc hck hclt
      rcases List.mem_cons.1 hc with rfl | hc
      · exact le_rfl
      · exact absurd hclt (hnone c hc hck)
    · right
      rw [Function.update_of_ne hfirst] at hsome hdepends
      refine ⟨hsome, hdepends, ?_⟩
      intro c hc hck
      rcases List.mem_cons.1 hc with rfl | hc
      · exact absurd hck.symm hfirst
      · exact hnone c hc hck

theorem compileSteps_nearest : ∀ {steps : List TemplateStepDefinition} {last : LastSequenceByKind}
    {compiled : List PlannedStep},
    compileSteps inputs last steps = .ok compiled →
      compiled.Pairwise (fun a b => a.sequence < b.sequence) →
        ∀ step ∈ compiled, DependsOnNearest last compiled step
  | [], _, _, h, _ => by
    cases h
    exact List.forall_mem_nil _
  | step :: steps, last, _, h, hordered => by
    obtain ⟨params, parent, rest, hparams, hparent, hrest, rfl⟩ := compileSteps_cons h
    obtain ⟨hlater, hordered⟩ := List.pairwise_cons.1 hordered
    have hkind : params.kind = step.stepKind := step.kind_of_parse hparams
    intro other hother
    rcases List.mem_cons.1 hother with rfl | hother
    · obtain ⟨hindependent, hdepends⟩ := dependsOn_eq_ok hparent
      rw [← hkind] at hindependent hdepends
      refine ⟨hindependent, fun kind hparentKind => .inr ?_⟩
      obtain ⟨hsome, hlast⟩ := hdepends kind hparentKind
      refine ⟨hsome, hlast, ?_⟩
      intro c hc _
      rcases List.mem_cons.1 hc with rfl | hc
      · exact lt_irrefl _
      · exact not_lt.2 (hlater c hc).le
    · refine DependsOnNearest.cons hlater hother ?_
      have hupdate : Function.update last params.kind (some step.sequence) =
          Function.update last step.stepKind (some step.sequence) := by
        rw [hkind]
      show DependsOnNearest (Function.update last params.kind (some step.sequence)) rest other
      rw [hupdate]
      exact compileSteps_nearest hrest hordered other hother

end Compile

section Plan

variable {template : ProvisioningTemplate} {inputs : JsonRecord} {plan : TemplatePlan}

theorem compileTemplate_steps (h : compileTemplate template inputs = .ok plan) :
    compileSteps inputs (fun _ => none) template.ordered = .ok plan.steps := by
  unfold compileTemplate at h
  split at h
  · cases h
  · rename_i steps hsteps
    cases h
    exact hsteps

structure TemplatePlan.CompiledFrom (plan : TemplatePlan) (template : ProvisioningTemplate)
    (inputs : JsonRecord) : Prop where
  definition : ∀ step ∈ plan.steps, ∃ d ∈ template.steps, step.Compiles inputs d
  step : ∀ d ∈ template.steps, ∃ step ∈ plan.steps, step.Compiles inputs d
  independent : ∀ step ∈ plan.steps, STEP_DEPENDENCY_PARENT_KIND step.kind = none →
    step.dependsOnSequence = none
  nearest : ∀ step ∈ plan.steps, ∀ kind, STEP_DEPENDENCY_PARENT_KIND step.kind = some kind →
    ∃ parent, plan.Prerequisite step parent ∧ parent.kind = kind ∧
      ∀ other ∈ plan.steps, other.kind = kind → other.sequence < step.sequence →
        other.sequence ≤ parent.sequence

theorem compiledFrom (h : compileTemplate template inputs = .ok plan) :
    plan.CompiledFrom template inputs := by
  have hsteps := compileTemplate_steps h
  obtain ⟨hfrom, hto⟩ := compileSteps_compiles hsteps
  have hnearest := compileSteps_nearest hsteps plan.ordered
  have hmem : ∀ d, d ∈ template.ordered ↔ d ∈ template.steps := fun d => List.mem_insertionSort _
  constructor
  · intro step hstep
    obtain ⟨d, hd, hcompile⟩ := hfrom step hstep
    exact ⟨d, (hmem d).1 hd, hcompile⟩
  · intro d hd
    exact hto d ((hmem d).2 hd)
  · intro step hstep
    exact (hnearest step hstep).independent
  · intro step hstep kind hkind
    rcases (hnearest step hstep).nearest kind hkind with
      ⟨parent, hparent, hsame, hdepends, hlt, hmost⟩ | ⟨hsome, -⟩
    · exact ⟨parent, ⟨hstep, hparent, hdepends, hlt⟩, hsame, hmost⟩
    · cases hsome

end Plan

namespace TemplatePlan

variable {plan : TemplatePlan} {step parent : PlannedStep} {template : ProvisioningTemplate}
  {inputs : JsonRecord}

theorem eq_of_sequence (ha : step ∈ plan.steps) (hb : parent ∈ plan.steps)
    (h : step.sequence = parent.sequence) : step = parent := by
  have hnodup : (plan.steps.map (·.sequence)).Nodup :=
    List.pairwise_map.2 (plan.ordered.imp Nat.ne_of_lt)
  exact List.inj_on_of_nodup_map hnodup ha hb h

theorem find_step (hstep : step ∈ plan.steps) :
    plan.plan.steps.find? (·.sequence == step.sequence) = some step.toStep := by
  have hnodup : (plan.plan.steps.map (·.sequence)).Nodup :=
    List.pairwise_map.2 (plan.plan.ordered.imp Nat.ne_of_lt)
  exact find_of_nodup_map hnodup (List.mem_map_of_mem hstep)

def depth : ProvisioningStepKind → ℕ
  | .domainDeclare => 1
  | .dnsPointAtTarget | .dnsManualRecord | .proxyEnsureResource | .mailEnable => 2
  | .proxyEnsureRules | .mailEnsureMailbox => 3

theorem depth_parent {kind parentKind : ProvisioningStepKind}
    (h : STEP_DEPENDENCY_PARENT_KIND kind = some parentKind) :
    depth kind = depth parentKind + 1 := by
  cases kind <;> cases h <;> rfl

structure Rooted (plan : TemplatePlan) (step declaration : PlannedStep)
    (params : DomainDeclareStepParams) : Prop where
  declares : declaration.params = .domainDeclare params
  chain : Relation.ReflTransGen plan.Prerequisite step declaration
  found : ∀ fuel, depth step.kind ≤ fuel →
    plan.plan.ancestorDomain fuel step.toStep = some params.name
  long : ∃ steps : List PlannedStep, steps.length = depth step.kind ∧
    steps.Pairwise (fun a b => b.sequence < a.sequence) ∧
      ∀ c ∈ steps, c ∈ plan.steps ∧ c.sequence ≤ step.sequence

variable {params : DomainDeclareStepParams}

theorem Rooted.declaration (hstep : step ∈ plan.steps)
    (hparams : step.params = .domainDeclare params) : plan.Rooted step step params where
  declares := hparams
  chain := .refl
  found := by
    intro fuel hfuel
    have hkind : step.kind = .domainDeclare := by
      unfold PlannedStep.kind
      rw [hparams]
      rfl
    rw [hkind] at hfuel
    obtain ⟨fuel, rfl⟩ : ∃ n, fuel = n + 1 := ⟨fuel - 1, (Nat.sub_add_cancel hfuel).symm⟩
    have htoStep : step.toStep.step = .domainDeclare params.toDomainDeclareParams := by
      show step.params.step = _
      rw [hparams]
      rfl
    unfold CompiledPlan.ancestorDomain
    rw [htoStep]
  long := by
    have hkind : step.kind = .domainDeclare := by
      unfold PlannedStep.kind
      rw [hparams]
      rfl
    refine ⟨[step], by rw [hkind]; rfl, List.pairwise_singleton _ _, fun c hc => ?_⟩
    obtain rfl := List.mem_singleton.1 hc
    exact ⟨hstep, le_rfl⟩

variable {declaration : PlannedStep}

theorem Rooted.prerequisite (hprerequisite : plan.Prerequisite step parent)
    (hkind : depth step.kind = depth parent.kind + 1) (h : plan.Rooted parent declaration params)
    : plan.Rooted step declaration params where
  declares := h.declares
  chain := Relation.ReflTransGen.head hprerequisite h.chain
  found := by
    intro fuel hfuel
    obtain ⟨-, hparent, hdepends, -⟩ := hprerequisite
    rw [hkind] at hfuel
    obtain ⟨fuel, rfl⟩ : ∃ n, fuel = n + 1 := ⟨fuel - 1, by omega⟩
    have hdepends' : step.toStep.dependsOnSequence = some parent.sequence := hdepends
    have hother : ∀ name, step.toStep.step ≠ .domainDeclare name := by
      intro name hname
      have hone : depth step.kind = 1 := by
        unfold PlannedStep.kind
        rcases hparams : step.params with p | p | p | p | p | p | p
        · rfl
        all_goals
          have : step.params.step = .domainDeclare name := hname
          rw [hparams] at this
          cases this
      have hpos : 0 < depth parent.kind := by cases parent.kind <;> decide
      omega
    unfold CompiledPlan.ancestorDomain
    split
    · rename_i name hname
      exact absurd hname (hother name)
    · rw [hdepends', Option.bind_some, find_step hparent]
      exact h.found fuel (by omega)
  long := by
    obtain ⟨hstep, -, -, hlt⟩ := hprerequisite
    obtain ⟨steps, hlength, hdecreasing, hmem⟩ := h.long
    refine ⟨step :: steps, by rw [List.length_cons, hlength, hkind], ?_, fun c hc => ?_⟩
    · refine List.pairwise_cons.2 ⟨fun c hc => ?_, hdecreasing⟩
      exact (hmem c hc).2.trans_lt hlt
    · rcases List.mem_cons.1 hc with rfl | hc
      · exact ⟨hstep, le_rfl⟩
      · exact ⟨(hmem c hc).1, (hmem c hc).2.trans hlt.le⟩

theorem Rooted.domainOf (h : plan.Rooted step declaration params)
    : plan.domainOf step = some params.name := by
  obtain ⟨steps, hlength, hdecreasing, hmem⟩ := h.long
  have hnodup : steps.Nodup := hdecreasing.imp fun hlt heq => by
    rw [heq] at hlt
    exact lt_irrefl _ hlt
  have hle : steps.length ≤ plan.steps.length :=
    (List.subperm_of_subset hnodup fun c hc => (hmem c hc).1).length_le
  have hfuel : depth step.kind ≤ plan.plan.steps.length := by
    show _ ≤ (plan.steps.map PlannedStep.toStep).length
    rw [List.length_map]
    omega
  unfold TemplatePlan.domainOf CompiledPlan.findAncestorDomainName
  rw [h.found _ hfuel]
  rfl

theorem CompiledFrom.rooted (hfrom : plan.CompiledFrom template inputs) :
    ∀ (n : ℕ) (step : PlannedStep), step ∈ plan.steps → depth step.kind = n →
      ∃ declaration params, plan.Rooted step declaration params
  | n, step, hstep, hdepth => by
    rcases hparent : STEP_DEPENDENCY_PARENT_KIND step.kind with _ | kind
    · rcases hparams : step.params with p | p | p | p | p | p | p
      · exact ⟨step, p, .declaration hstep hparams⟩
      all_goals
        unfold PlannedStep.kind at hparent
        rw [hparams] at hparent
        cases hparent
    · obtain ⟨parent, hprerequisite, hkind, -⟩ := hfrom.nearest step hstep kind hparent
      have hdeeper : depth step.kind = depth parent.kind + 1 := by
        rw [hkind]
        exact depth_parent hparent
      obtain ⟨declaration, params, hrooted⟩ :=
        hfrom.rooted (n - 1) parent hprerequisite.2.1 (by omega)
      exact ⟨declaration, params, hrooted.prerequisite hprerequisite hdeeper⟩
  termination_by n => n
  decreasing_by omega

def ParentDeclares (plan : TemplatePlan) : Prop :=
  ∀ rules ∈ plan.steps, rules.kind = .proxyEnsureRules → ∀ resource,
    plan.Prerequisite rules resource →
      rules.params.namedSubdomain = resource.params.declaredSubdomain

theorem Prerequisite.unique {other : PlannedStep} (h : plan.Prerequisite step parent)
    (hother : plan.Prerequisite step other) : parent = other := by
  refine eq_of_sequence h.2.1 hother.2.1 ?_
  have hsame := h.2.2.1.symm.trans hother.2.2.1
  exact Option.some.inj hsame

section

variable (hfrom : plan.CompiledFrom template inputs)
include hfrom

theorem CompiledFrom.parentDeclares_iff :
    plan.ParentDeclares ↔ template.NearestDeclares inputs := by
  constructor
  · intro h d hd hdk e he hnearest
    obtain ⟨rules, hrules, hrs, hrk, hrp⟩ := hfrom.step d hd
    obtain ⟨resource, hresource, hes, hek, hep⟩ := hfrom.step e he
    obtain ⟨hresourceKind, hbefore, hmost⟩ := hnearest
    have hkind : rules.kind = .proxyEnsureRules := hrk.trans hdk
    obtain ⟨parent, hprerequisite, hpk, hpmost⟩ := hfrom.nearest rules hrules .proxyEnsureResource
      (by rw [hkind]; rfl)
    obtain ⟨f, hf, hfs, hfk, -⟩ := hfrom.definition parent hprerequisite.2.1
    have hle : parent.sequence ≤ resource.sequence := by
      have := hmost f hf (hfk.symm.trans hpk) (by rw [← hfs, ← hrs]; exact hprerequisite.2.2.2)
      omega
    have hge : resource.sequence ≤ parent.sequence :=
      hpmost resource hresource (hek.trans hresourceKind) (by omega)
    have hsame : resource = parent := eq_of_sequence hresource hprerequisite.2.1 (by omega)
    rw [hrp, hep]
    show rules.params.namedSubdomain = resource.params.declaredSubdomain
    rw [hsame]
    exact h rules hrules hkind parent hprerequisite
  · intro h rules hrules hkind resource hprerequisite
    obtain ⟨d, hd, hds, hdk, hdp⟩ := hfrom.definition rules hrules
    obtain ⟨e, he, hes, hek, hep⟩ := hfrom.definition resource hprerequisite.2.1
    obtain ⟨parent, hparent, hpk, hpmost⟩ := hfrom.nearest rules hrules .proxyEnsureResource
      (by rw [hkind]; rfl)
    obtain rfl := hprerequisite.unique hparent
    have hnearest : template.NearestResource d e := by
      refine ⟨hek.symm.trans hpk, ?_, fun other hother hok hlt => ?_⟩
      · have := hprerequisite.2.2.2
        omega
      · obtain ⟨c, hc, hcs, hck, -⟩ := hfrom.step other hother
        have := hpmost c hc (hck.trans hok) (by omega)
        omega
    have hsame := h d hd (hdk.symm.trans hkind) e he hnearest
    rw [hdp, hep] at hsame
    exact hsame

theorem CompiledFrom.domainOf_prerequisite (h : plan.Prerequisite step parent)
    : plan.domainOf step = plan.domainOf parent := by
  obtain ⟨declaration, params, hrooted⟩ := hfrom.rooted _ parent h.2.1 rfl
  obtain ⟨kind, hkind⟩ : ∃ kind, STEP_DEPENDENCY_PARENT_KIND step.kind = some kind := by
    rcases hparent : STEP_DEPENDENCY_PARENT_KIND step.kind with _ | kind
    · have hnone := hfrom.independent step h.1 hparent
      rw [h.2.2.1] at hnone
      cases hnone
    · exact ⟨kind, rfl⟩
  obtain ⟨other, hother, hsame, -⟩ := hfrom.nearest step h.1 kind hkind
  obtain rfl := h.unique hother
  have hdeeper : depth step.kind = depth parent.kind + 1 := by
    rw [hsame]
    exact depth_parent hkind
  rw [hrooted.domainOf, (hrooted.prerequisite h hdeeper).domainOf]

theorem CompiledFrom.requires_declaration (hstep : step ∈ plan.steps)
    (hkind : step.kind ≠ .domainDeclare) :
    ∃ declaration params, declaration.params = .domainDeclare params ∧
      plan.Requires step declaration ∧ plan.domainOf step = some params.name ∧
        plan.domainOf declaration = some params.name := by
  obtain ⟨declaration, params, hrooted⟩ := hfrom.rooted _ step hstep rfl
  have hdeclares : declaration.kind = .domainDeclare := by
    unfold PlannedStep.kind
    rw [hrooted.declares]
    rfl
  rcases Relation.reflTransGen_iff_eq_or_transGen.1 hrooted.chain with heq | hchain
  · rw [heq] at hdeclares
    exact absurd hdeclares hkind
  · obtain ⟨_, -, hlast⟩ := Relation.TransGen.tail'_iff.1 hchain
    have hdeclaration : plan.Rooted declaration declaration params :=
      .declaration hlast.2.1 hrooted.declares
    exact ⟨declaration, params, hrooted.declares, hchain, hrooted.domainOf,
      hdeclaration.domainOf⟩

theorem CompiledFrom.declares_domain {domain : String} (hstep : step ∈ plan.steps)
    (hkind : step.kind ≠ .domainDeclare) (hdomain : plan.domainOf step = some domain) :
    ∃ declaring, plan.Requires step declaring ∧ ∃ name, plan.domainOf declaring = some name ∧
      ProvisionedObject.domain domain ∈ declaring.params.declares name := by
  obtain ⟨declaration, params, hdeclares, hchain, hname, hown⟩ :=
    hfrom.requires_declaration hstep hkind
  rw [hname] at hdomain
  cases hdomain
  refine ⟨declaration, hchain, params.name, hown, ?_⟩
  rw [hdeclares]
  exact List.mem_singleton_self _

theorem CompiledFrom.followsReferences (hparent : plan.ParentDeclares)
    : plan.FollowsReferences where
  named := by
    intro step hstep
    obtain ⟨_, params, hrooted⟩ := hfrom.rooted _ step hstep rfl
    exact ⟨params.name, hrooted.domainOf⟩
  rooted := by
    intro step hstep hkind
    obtain ⟨declaration, params, hdeclares, hchain, -⟩ := hfrom.requires_declaration hstep hkind
    refine ⟨declaration, ?_, hchain⟩
    unfold PlannedStep.kind
    rw [hdeclares]
    rfl
  declared := by
    intro step hstep domain hdomain object hobject
    rcases hparams : step.params with p | p | p | p | p | p | p
    case domainDeclare =>
      rw [hparams] at hobject
      cases hobject
    case proxyEnsureRules =>
      have hkind : step.kind = .proxyEnsureRules := by
        unfold PlannedStep.kind
        rw [hparams]
        rfl
      rw [hparams] at hobject
      rcases List.mem_cons.1 hobject with rfl | hobject
      · exact hfrom.declares_domain hstep (by rw [hkind]; nofun) hdomain
      · obtain rfl := List.mem_singleton.1 hobject
        obtain ⟨resource, hprerequisite, -⟩ := hfrom.nearest step hstep .proxyEnsureResource
          (by rw [hkind]; rfl)
        have hsame := hparent step hstep hkind resource hprerequisite
        rw [hparams] at hsame
        refine ⟨resource, .single hprerequisite, domain, ?_, ?_⟩
        · rw [← hfrom.domainOf_prerequisite hprerequisite]
          exact hdomain
        · rcases hresource : resource.params with q | q | q | q | q | q | q
          case proxyEnsureResource =>
            rw [hresource] at hsame
            have hsubdomain : p.subdomain = q.subdomain := Option.some.inj hsame
            rw [hsubdomain]
            exact List.mem_singleton_self _
          all_goals
            rw [hresource] at hsame
            cases hsame
    all_goals
      rw [hparams] at hobject
      obtain rfl := List.mem_singleton.1 hobject
      refine hfrom.declares_domain hstep ?_ hdomain
      unfold PlannedStep.kind
      rw [hparams]
      nofun

theorem CompiledFrom.parentDeclares (h : plan.FollowsReferences) : plan.ParentDeclares := by
  intro rules hrules hkind resource hprerequisite
  rcases hparams : rules.params with p | p | p | p | p | p | p
  case proxyEnsureRules =>
    obtain ⟨domain, hdomain⟩ := h.named rules hrules
    obtain ⟨declaring, hchain, name, -, hdeclares⟩ := h.declared rules hrules domain hdomain
      (.resource domain p.subdomain) (by rw [hparams]; simp [StepParams.refersTo])
    obtain ⟨parent, hparent, hpk, -⟩ := hfrom.nearest rules hrules .proxyEnsureResource
      (by rw [hkind]; rfl)
    obtain rfl := hprerequisite.unique hparent
    rcases hdeclaring : declaring.params with q | q | q | q | q | q | q
    case proxyEnsureResource =>
      rw [hdeclaring] at hdeclares
      obtain ⟨-, hsubdomain⟩ := ProvisionedObject.resource.inj (List.mem_singleton.1 hdeclares)
      -- the chain goes on from the resource to a declaration, and ends there
      have hsame : declaring = resource := by
        rcases Relation.TransGen.head'_iff.1 hchain with ⟨first, hfirst, hrest⟩
        obtain rfl := hprerequisite.unique hfirst
        rcases Relation.reflTransGen_iff_eq_or_transGen.1 hrest with heq | hrest
        · exact heq
        · obtain ⟨second, hsecond, hrest⟩ := Relation.TransGen.head'_iff.1 hrest
          obtain ⟨above, habove, hak, -⟩ := hfrom.nearest resource hprerequisite.2.1
            .domainDeclare (by rw [hpk]; rfl)
          obtain rfl := hsecond.unique habove
          have hdk : declaring.kind = .proxyEnsureResource := by
            unfold PlannedStep.kind
            rw [hdeclaring]
            rfl
          rcases Relation.reflTransGen_iff_eq_or_transGen.1 hrest with heq | hrest
          · rw [heq, hak] at hdk
            cases hdk
          · obtain ⟨third, hthird, -⟩ := Relation.TransGen.head'_iff.1 hrest
            have hnone := hfrom.independent second hthird.1 (by rw [hak]; rfl)
            rw [hthird.2.2.1] at hnone
            cases hnone
      rw [← hsame, hdeclaring]
      exact congrArg some hsubdomain
    all_goals
      rw [hdeclaring] at hdeclares
      simp [StepParams.declares] at hdeclares
  all_goals
    unfold PlannedStep.kind at hkind
    rw [hparams] at hkind
    cases hkind

end

def AttemptsDeclared {n : ℕ} (plan : TemplatePlan) (s : RecordedRun n) (a : ProvisioningAction n) :
    Prop :=
  ∀ attempted ∈ s.run.attempted a, ∀ step ∈ plan.steps, step.toStep = attempted →
    ∀ domain ∈ plan.domainOf step, ∀ object ∈ step.params.refersTo domain,
      ∃ declaring ∈ plan.steps, declaring.sequence ∈ s.succeeded ∧
        ∃ name ∈ plan.domainOf declaring, object ∈ declaring.params.declares name

instance {n : ℕ} (s : RecordedRun n) (a : ProvisioningAction n) :
    Decidable (plan.AttemptsDeclared s a) :=
  inferInstanceAs (Decidable (∀ _ ∈ _, _))

theorem dependsOn_of_requires (h : plan.Requires step parent) :
    Relation.TransGen plan.plan.DependsOn step.sequence parent.sequence := by
  refine Relation.TransGen.lift PlannedStep.sequence ?_ _ _ h
  rintro a b ⟨ha, -, hdepends, -⟩
  exact ⟨a.toStep, List.mem_map_of_mem ha, rfl, hdepends⟩

theorem Requires.mem (h : plan.Requires step parent) : parent ∈ plan.steps := by
  obtain ⟨_, -, hlast⟩ := Relation.TransGen.tail'_iff.1 h
  exact hlast.2.1

theorem run_plan {n : ℕ} (s : ProvisioningRun n) (a : ProvisioningAction n) :
    (s.step a).plan = s.plan := by
  cases a with
  | advance w => exact (s.read_cases w .loading).2.2
  | abandon w => exact (s.read_cases w .abandoning).2.2
  | load w =>
    simp only [ProvisioningRun.step]
    split_ifs <;> rfl
  | attempt w =>
    rw [ProvisioningRun.step]
    rcases s.attemptNext_cases w with ⟨-, heq | heq⟩ | ⟨-, _, _, _, _, -, -, heq⟩
    all_goals
      rw [heq]
    all_goals rfl
  | settle w result =>
    rw [ProvisioningRun.step]
    rcases s.settle_cases w result with ⟨-, heq⟩ | ⟨_, _, _, -, heq⟩
    · rw [heq]
    · rw [heq]
      rfl
  | finish w now =>
    simp only [ProvisioningRun.step]
    split <;> rfl
  | fail w now =>
    simp only [ProvisioningRun.step]
    split_ifs <;> rfl
  | crash w => rfl

theorem FollowsReferences.attempts {n : ℕ} (h : plan.FollowsReferences)
    (actions : List (ProvisioningAction n)) :
    Runs.Meets RecordedRun.step plan.AttemptsDeclared (.start n plan.plan) actions := by
  have hkept : ∀ (s : RecordedRun n) a, s.run.plan = plan.plan → s.AttemptsInOrder a →
      (s.step a).run.plan = plan.plan :=
    fun s a hplan _ => (run_plan s.run a).trans hplan
  refine Runs.Meets.of_invariant hkept ?_ rfl
    (RecordedRun.meets_attemptsInOrder plan.plan actions)
  intro s a hplan horder attempted hattempted step hstep heq domain hdomain object hobject
  obtain ⟨declaring, hchain, hdeclares⟩ := h.declared step hstep domain hdomain object hobject
  refine ⟨declaring, hchain.mem, ?_, hdeclares⟩
  have hdepends := dependsOn_of_requires hchain
  refine horder attempted hattempted declaring.sequence ?_
  rw [hplan, ← heq]
  exact hdepends

/-- A plan follows what its steps refer to exactly if all rules are of the subdomain of the resource
step nearest before them. -/
theorem references_followed_iff (h : compileTemplate template inputs = .ok plan) :
    (plan.FollowsReferences ∧ ∀ (n : ℕ) (actions : List (ProvisioningAction n)),
      Runs.Meets RecordedRun.step plan.AttemptsDeclared (.start n plan.plan) actions) ↔
    template.NearestDeclares inputs := by
  have hfrom := compiledFrom h
  rw [← hfrom.parentDeclares_iff]
  constructor
  · rintro ⟨hfollows, -⟩
    exact hfrom.parentDeclares hfollows
  · intro hparent
    have hfollows := hfrom.followsReferences hparent
    exact ⟨hfollows, fun _ actions => hfollows.attempts actions⟩

section Examples

def declaresDomain : TemplateStepDefinition where
  sequence := 0
  stepKind := .domainDeclare
  provider := none
  params := .object [("name", .string "${domain}"), ("dnsConnectionId", .string "${id}")]
  optional := false

def ensuresResource (sequence : ℕ) (subdomain : String) : TemplateStepDefinition where
  sequence := sequence
  stepKind := .proxyEnsureResource
  provider := some .pangolin
  params := .object [("subdomain", .string subdomain), ("hostingTargetId", .string "${id}")]
  optional := false

def acceptRule : Json :=
  .object [("action", .string "ACCEPT"), ("match", .string "IP"), ("value", .string "10.0.0.9"),
    ("priority", .number "1")]

def ensuresRules (sequence : ℕ) (subdomain : String) : TemplateStepDefinition where
  sequence := sequence
  stepKind := .proxyEnsureRules
  provider := some .pangolin
  params := .object [("subdomain", .string subdomain), ("rules", .array [acceptRule])]
  optional := false

def rulesAfterResource : ProvisioningTemplate where
  steps := [declaresDomain, ensuresResource 1 "git", ensuresRules 2 "git", ensuresResource 3 "www"]
  distinct := by decide

def rulesAfterBoth : ProvisioningTemplate where
  steps := [declaresDomain, ensuresResource 1 "git", ensuresResource 2 "www", ensuresRules 3 "git"]
  distinct := by decide

def operatorInputs : JsonRecord :=
  [("domain", .string "example.test"), ("id", .string "11111111-1111-4111-8111-111111111111")]

def uuidValue : ℕ := 0x11111111111141118111111111111111

def domainPlanned : PlannedStep where
  sequence := 0
  params := .domainDeclare {
    name := "example.test", dnsConnectionId := uuidValue, registrar := none, mailEnabled := none }
  provider := none
  optional := false
  dependsOnSequence := none

def resourcePlanned (sequence : ℕ) (subdomain : String) : PlannedStep where
  sequence := sequence
  params := .proxyEnsureResource {
    subdomain := some subdomain
    hostingTargetId := uuidValue
    mode := none
    proxyPort := none
    ssl := none
    externalDomainId := none }
  provider := some .pangolin
  optional := false
  dependsOnSequence := some 0

def rulesPlanned (sequence : ℕ) (subdomain : String) (parent : ℕ) : PlannedStep where
  sequence := sequence
  params := .proxyEnsureRules {
    subdomain := some subdomain
    rules := [{ action := .ACCEPT, match' := .IP, value := "10.0.0.9", priority := 1 }] }
  provider := some .pangolin
  optional := false
  dependsOnSequence := some parent

def planAfterResource : TemplatePlan where
  steps := [domainPlanned, resourcePlanned 1 "git", rulesPlanned 2 "git" 1, resourcePlanned 3 "www"]
  ordered := by decide

def planAfterBoth : TemplatePlan where
  steps := [domainPlanned, resourcePlanned 1 "git", resourcePlanned 2 "www", rulesPlanned 3 "git" 2]
  ordered := by decide

theorem rules_after_resource_followed : planAfterResource.FollowsReferences ∧
    ∀ (n : ℕ) (actions : List (ProvisioningAction n)), Runs.Meets RecordedRun.step
      planAfterResource.AttemptsDeclared (.start n planAfterResource.plan) actions :=
  have hcompiles : compileTemplate rulesAfterResource operatorInputs = .ok planAfterResource := by
    decide +kernel
  (references_followed_iff hcompiles).2 (by decide +kernel)

def firstResourceFails : List (ProvisioningAction 1) :=
  [.advance 0, .load 0,
    .attempt 0, .settle 0 (.ok { status := .succeeded }),
    .attempt 0, .settle 0 (.ok { status := .failed }),
    .attempt 0, .settle 0 (.ok { status := .succeeded }),
    .attempt 0]

theorem rules_after_both_astray :
    ¬∀ (template : ProvisioningTemplate) (inputs : JsonRecord) (plan : TemplatePlan),
      compileTemplate template inputs = .ok plan →
        plan.FollowsReferences ∧ ∀ (n : ℕ) (actions : List (ProvisioningAction n)),
          Runs.Meets RecordedRun.step plan.AttemptsDeclared (.start n plan.plan) actions := by
  intro h
  have hcompiles : compileTemplate rulesAfterBoth operatorInputs = .ok planAfterBoth := by
    decide +kernel
  have hattempted : ¬Runs.Meets RecordedRun.step planAfterBoth.AttemptsDeclared
      (.start 1 planAfterBoth.plan) firstResourceFails := by
    decide +kernel
  exact hattempted ((h rulesAfterBoth operatorInputs planAfterBoth hcompiles).2 1 _)

end Examples

end TemplatePlan

end Loxep

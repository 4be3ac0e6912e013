import Loxep.Mailboxes
import Loxep.Provisioning
import Loxep.ProviderPayloads
import Mathlib.Logic.Function.Basic

/-!
# Provisioning templates

A template is compiled with the inputs of an operator into the plan of a run. Each step's parameters
have the inputs put in and are checked, and each step is made to depend on the nearest earlier step
of the kind its own kind depends on.
-/

namespace Loxep

/-- `[a-zA-Z0-9_]`. -/
def isInputKeyChar (c : Char) : Bool := c.isAlphanum || c == '_'

def placeholderKey (value : String) : Option String :=
  match value.toList with
  | '$' :: '{' :: rest =>
    if rest.getLast? = some '}' ∧ rest.dropLast ≠ [] ∧ rest.dropLast.all isInputKeyChar then
      some (String.ofList rest.dropLast)
    else none
  | _ => none

section

variable (inputs : JsonRecord)

def inputValue (key : String) : InfrastructureResult Json :=
  match inputs.lookup key with
  | some value => .ok value
  | none => .error (.validation s!"template input \"{key}\" was not supplied")

mutual

def substitutePlaceholders : Json → InfrastructureResult Json
  | .string value =>
    match placeholderKey value with
    | none => .ok (.string value)
    | some key => inputValue inputs key
  | .array entries => (substituteEntries entries).map .array
  | .object fields => (substituteFields fields).map .object
  | .null => .ok .null
  | .bool value => .ok (.bool value)
  | .number text => .ok (.number text)

def substituteEntries : List Json → InfrastructureResult (List Json)
  | [] => .ok []
  | entry :: entries => do
    let substituted ← substitutePlaceholders entry
    let rest ← substituteEntries entries
    return substituted :: rest

def substituteFields : JsonRecord → InfrastructureResult JsonRecord
  | [] => .ok []
  | field :: fields => do
    let substituted ← substituteField field
    let rest ← substituteFields fields
    return substituted :: rest

def substituteField : String × Json → InfrastructureResult (String × Json)
  | (key, entry) => do
    let substituted ← substitutePlaceholders entry
    return (key, substituted)

end

end

/-! ## Fields

What a schema reads of a field, which may be absent. It refuses with the path of the field.
-/

abbrev ParamField (α : Type) := String → Option Json → InfrastructureResult α

namespace ParamField

variable {α : Type}

def required (read : Json → Option α) : ParamField α := fun path json =>
  match json.bind read with
  | some value => .ok value
  | none => .error (.other path)

/-- `.optional()`. -/
def optional (read : Json → Option α) : ParamField (Option α) := fun path json =>
  match json with
  | none => .ok none
  | some json => (required read path (some json)).map some

/-- `.nullish()`. -/
def nullish (read : Json → Option α) : ParamField (Option α) := fun path json =>
  match json with
  | none | some .null => .ok none
  | some json => (required read path (some json)).map some

end ParamField

def utf16Length (text : String) : ℕ :=
  (text.toList.map fun c => if c.toNat < 0x10000 then 1 else 2).sum

namespace Json

/-- `z.string().trim()`, with its bounds. -/
def textParam (least : ℕ) (most : Option ℕ) : Json → Option String
  | .string value =>
    if least ≤ utf16Length (trim value) ∧ ∀ bound ∈ most, utf16Length (trim value) ≤ bound then
      some (trim value)
    else none
  | _ => none

def booleanParam : Json → Option Bool
  | .bool value => some value
  | _ => none

/-- `z.number().int()`, with its bounds: integers are safe integers. -/
def integerParam (least most : ℕ) : Json → Option ℕ
  | .number text =>
    match parseDecimalText text with
    | some value =>
      if value.scale = 0 ∧ 0 ≤ value.units ∧ least ≤ value.units.toNat ∧
          value.units.toNat ≤ most then some value.units.toNat
      else none
    | none => none
  | _ => none

/-- `z.enum`. -/
def enumParam {α : Type} (values : List (String × α)) : Json → Option α
  | .string value => values.lookup value
  | _ => none

end Json

def hexDigitValue (c : Char) : Option ℕ :=
  if c.isDigit then some (c.toNat - '0'.toNat)
  else if 'a' ≤ c ∧ c ≤ 'f' then some (c.toNat - 'a'.toNat + 10)
  else if 'A' ≤ c ∧ c ≤ 'F' then some (c.toNat - 'A'.toNat + 10)
  else none

/-- The 128 bits a UUID is written for. -/
def hexValue (digits : List Char) : Option ℕ :=
  digits.foldlM (fun value c => (hexDigitValue c).map (16 * value + ·)) 0

/-- The version is one of the first eight and the variant the standard's, unless all digits are
zero, or all of them `f`. -/
def isUuidShape (digits : List Char) (version variant : Option Char) : Bool :=
  version.any (fun c => '1' ≤ c && c ≤ '8') &&
      variant.any (fun c => c ∈ ['8', '9', 'a', 'b', 'A', 'B'])
    || digits.all (· == '0') || digits.all (· == 'f')

/-- `z.string().uuid()`. The database compares ids by their bits. -/
def Json.uuidParam : Json → Option ℕ
  | .string value =>
    let groups := value.toList.splitOn '-'
    let digits := groups.flatten
    if groups.map (·.length) = [8, 4, 4, 4, 12] ∧
        isUuidShape digits (digits.drop 12).head? (digits.drop 16).head? then
      hexValue digits
    else none
  | _ => none

/-- `z.strictObject`: a field that is not of the schema is refused. -/
def strictObject (path : String) (keys : List String) :
    Option Json → InfrastructureResult JsonRecord
  | some (.object fields) =>
    if fields.all fun field => field.1 ∈ keys then .ok fields else .error (.other path)
  | _ => .error (.other path)

inductive ProvisioningStepKind
  | domainDeclare
  | dnsPointAtTarget
  | dnsManualRecord
  | proxyEnsureResource
  | proxyEnsureRules
  | mailEnable
  | mailEnsureMailbox
  deriving DecidableEq

inductive ProvisioningStepProvider
  | cloudflare
  | purelymail
  | pangolin
  deriving DecidableEq

structure DomainDeclareStepParams extends DomainDeclareParams where
  registrar : Option String
  mailEnabled : Option Bool
  deriving DecidableEq

structure DnsManualRecordParams where
  type : String
  name : String
  content : String
  ttlSeconds : Option ℕ
  priority : Option ℕ
  proxied : Option Bool
  deriving DecidableEq

inductive ProxyResourceMode
  | http
  | ssh
  | rdp
  | vnc
  | tcp
  | udp
  deriving DecidableEq

structure ProxyEnsureResourceParams where
  subdomain : Option String
  hostingTargetId : HostingTargetId
  mode : Option ProxyResourceMode
  proxyPort : Option ℕ
  ssl : Option Bool
  externalDomainId : Option String
  deriving DecidableEq

inductive ProxyRuleAction
  | ACCEPT
  | DROP
  | PASS
  deriving DecidableEq

inductive ProxyRuleMatch
  | CIDR
  | IP
  | PATH
  | COUNTRY
  | COUNTRY_IS_NOT
  | ASN
  | REGION
  deriving DecidableEq

structure ProxyRuleParams where
  action : ProxyRuleAction
  match' : ProxyRuleMatch
  value : String
  priority : ℕ
  deriving DecidableEq

structure ProxyEnsureRulesParams where
  subdomain : Option String
  rules : List ProxyRuleParams
  deriving DecidableEq

structure MailEnableParams where
  mailConnectionId : ℕ
  deriving DecidableEq

structure MailEnsureMailboxParams where
  localPart : String
  kind : MailboxKind
  forwardTo : Option String
  deriving DecidableEq

inductive StepParams
  | domainDeclare (params : DomainDeclareStepParams)
  | dnsPointAtTarget (params : DnsPointAtTargetParams)
  | dnsManualRecord (params : DnsManualRecordParams)
  | proxyEnsureResource (params : ProxyEnsureResourceParams)
  | proxyEnsureRules (params : ProxyEnsureRulesParams)
  | mailEnable (params : MailEnableParams)
  | mailEnsureMailbox (params : MailEnsureMailboxParams)
  deriving DecidableEq

def ProvisioningStepKind.text : ProvisioningStepKind → String
  | .domainDeclare => "domain.declare"
  | .dnsPointAtTarget => "dns.point-at-target"
  | .dnsManualRecord => "dns.manual-record"
  | .proxyEnsureResource => "proxy.ensure-resource"
  | .proxyEnsureRules => "proxy.ensure-rules"
  | .mailEnable => "mail.enable"
  | .mailEnsureMailbox => "mail.ensure-mailbox"

namespace StepParams

def kind : StepParams → ProvisioningStepKind
  | .domainDeclare _ => .domainDeclare
  | .dnsPointAtTarget _ => .dnsPointAtTarget
  | .dnsManualRecord _ => .dnsManualRecord
  | .proxyEnsureResource _ => .proxyEnsureResource
  | .proxyEnsureRules _ => .proxyEnsureRules
  | .mailEnable _ => .mailEnable
  | .mailEnsureMailbox _ => .mailEnsureMailbox

/-- What an advance reads of them. -/
def step : StepParams → ProvisioningStep
  | .domainDeclare params => .domainDeclare params.toDomainDeclareParams
  | .dnsPointAtTarget params => .dnsPointAtTarget params
  | .dnsManualRecord _ => .dnsManualRecord
  | .proxyEnsureResource _ => .proxyEnsureResource
  | .proxyEnsureRules _ => .proxyEnsureRules
  | .mailEnable _ => .mailEnable
  | .mailEnsureMailbox _ => .mailEnsureMailbox

end StepParams

section

variable (json : Json)

def parseDomainDeclare : InfrastructureResult DomainDeclareStepParams := do
  let fields ← strictObject "" ["name", "dnsConnectionId", "registrar", "mailEnabled"] (some json)
  let name ← ParamField.required (Json.textParam 1 (some 253)) "name" (fields.lookup "name")
  let dnsConnectionId ←
    ParamField.required Json.uuidParam "dnsConnectionId" (fields.lookup "dnsConnectionId")
  let registrar ←
    ParamField.nullish (Json.textParam 1 none) "registrar" (fields.lookup "registrar")
  let mailEnabled ←
    ParamField.optional Json.booleanParam "mailEnabled" (fields.lookup "mailEnabled")
  return { name, dnsConnectionId, registrar, mailEnabled }

def parseDnsPointAtTarget : InfrastructureResult DnsPointAtTargetParams := do
  let fields ← strictObject "" ["apexTargetId", "apexProxied", "wildcardProxied"] (some json)
  let apexTargetId ←
    ParamField.required Json.uuidParam "apexTargetId" (fields.lookup "apexTargetId")
  let apexProxied ←
    ParamField.optional Json.booleanParam "apexProxied" (fields.lookup "apexProxied")
  let wildcardProxied ←
    ParamField.optional Json.booleanParam "wildcardProxied" (fields.lookup "wildcardProxied")
  return { apexTargetId, apexProxied, wildcardProxied }

def parseDnsManualRecord : InfrastructureResult DnsManualRecordParams := do
  let fields ← strictObject ""
    ["type", "name", "content", "ttlSeconds", "priority", "proxied"] (some json)
  let type ← ParamField.required (Json.textParam 1 (some 16)) "type" (fields.lookup "type")
  let name ← ParamField.required (Json.textParam 1 none) "name" (fields.lookup "name")
  let content ← ParamField.required (Json.textParam 1 none) "content" (fields.lookup "content")
  let ttlSeconds ← ParamField.nullish (Json.integerParam 1 Json.maxSafeInteger) "ttlSeconds"
    (fields.lookup "ttlSeconds")
  let priority ← ParamField.nullish (Json.integerParam 0 Json.maxSafeInteger) "priority"
    (fields.lookup "priority")
  let proxied ← ParamField.optional Json.booleanParam "proxied" (fields.lookup "proxied")
  return { type, name, content, ttlSeconds, priority, proxied }

def PROXY_RESOURCE_MODE_VALUES : List (String × ProxyResourceMode) :=
  [("http", .http), ("ssh", .ssh), ("rdp", .rdp), ("vnc", .vnc), ("tcp", .tcp), ("udp", .udp)]

def parseProxyEnsureResource : InfrastructureResult ProxyEnsureResourceParams := do
  let fields ← strictObject ""
    ["subdomain", "hostingTargetId", "mode", "proxyPort", "ssl", "externalDomainId"] (some json)
  let subdomain ←
    ParamField.nullish (Json.textParam 1 (some 63)) "subdomain" (fields.lookup "subdomain")
  let hostingTargetId ←
    ParamField.required Json.uuidParam "hostingTargetId" (fields.lookup "hostingTargetId")
  let mode ←
    ParamField.optional (Json.enumParam PROXY_RESOURCE_MODE_VALUES) "mode" (fields.lookup "mode")
  let proxyPort ←
    ParamField.nullish (Json.integerParam 1 65535) "proxyPort" (fields.lookup "proxyPort")
  let ssl ← ParamField.optional Json.booleanParam "ssl" (fields.lookup "ssl")
  let externalDomainId ← ParamField.nullish (Json.textParam 1 none) "externalDomainId"
    (fields.lookup "externalDomainId")
  return { subdomain, hostingTargetId, mode, proxyPort, ssl, externalDomainId }

def PROXY_RULE_ACTION_VALUES : List (String × ProxyRuleAction) :=
  [("ACCEPT", .ACCEPT), ("DROP", .DROP), ("PASS", .PASS)]

def PROXY_RULE_MATCH_VALUES : List (String × ProxyRuleMatch) :=
  [("CIDR", .CIDR), ("IP", .IP), ("PATH", .PATH), ("COUNTRY", .COUNTRY),
    ("COUNTRY_IS_NOT", .COUNTRY_IS_NOT), ("ASN", .ASN), ("REGION", .REGION)]

def parseProxyRule (path : String) : InfrastructureResult ProxyRuleParams := do
  let fields ← strictObject path ["action", "match", "value", "priority"] (some json)
  let action ← ParamField.required (Json.enumParam PROXY_RULE_ACTION_VALUES) s!"{path}.action"
    (fields.lookup "action")
  let match' ← ParamField.required (Json.enumParam PROXY_RULE_MATCH_VALUES) s!"{path}.match"
    (fields.lookup "match")
  let value ←
    ParamField.required (Json.textParam 1 none) s!"{path}.value" (fields.lookup "value")
  let priority ← ParamField.required (Json.integerParam 0 Json.maxSafeInteger)
    s!"{path}.priority" (fields.lookup "priority")
  return { action, match', value, priority }

/-- `z.array(proxyRuleParamsSchema).min(1)`. -/
def parseProxyRules : Option Json → InfrastructureResult (List ProxyRuleParams)
  | some (.array entries) =>
    if entries.isEmpty then .error (.other "rules")
    else entries.zipIdx.mapM fun (entry, index) => parseProxyRule entry s!"rules.{index}"
  | _ => .error (.other "rules")

def parseProxyEnsureRules : InfrastructureResult ProxyEnsureRulesParams := do
  let fields ← strictObject "" ["subdomain", "rules"] (some json)
  let subdomain ←
    ParamField.nullish (Json.textParam 1 (some 63)) "subdomain" (fields.lookup "subdomain")
  let rules ← parseProxyRules (fields.lookup "rules")
  return { subdomain, rules }

def parseMailEnable : InfrastructureResult MailEnableParams := do
  let fields ← strictObject "" ["mailConnectionId"] (some json)
  let mailConnectionId ←
    ParamField.required Json.uuidParam "mailConnectionId" (fields.lookup "mailConnectionId")
  return { mailConnectionId }

def MAILBOX_KIND_VALUES : List (String × MailboxKind) :=
  [("mailbox", .mailbox), ("alias", .alias), ("catchall", .catchall)]

def parseMailEnsureMailbox : InfrastructureResult MailEnsureMailboxParams := do
  let fields ← strictObject "" ["localPart", "kind", "forwardTo"] (some json)
  let localPart ←
    ParamField.required (Json.textParam 1 (some 64)) "localPart" (fields.lookup "localPart")
  let kind ←
    ParamField.required (Json.enumParam MAILBOX_KIND_VALUES) "kind" (fields.lookup "kind")
  let forwardTo ←
    ParamField.nullish (Json.textParam 3 none) "forwardTo" (fields.lookup "forwardTo")
  return { localPart, kind, forwardTo }

/-- `provisioningStepParamsSchemas`. -/
def ProvisioningStepKind.parse : ProvisioningStepKind → InfrastructureResult StepParams
  | .domainDeclare => (parseDomainDeclare json).map .domainDeclare
  | .dnsPointAtTarget => (parseDnsPointAtTarget json).map .dnsPointAtTarget
  | .dnsManualRecord => (parseDnsManualRecord json).map .dnsManualRecord
  | .proxyEnsureResource => (parseProxyEnsureResource json).map .proxyEnsureResource
  | .proxyEnsureRules => (parseProxyEnsureRules json).map .proxyEnsureRules
  | .mailEnable => (parseMailEnable json).map .mailEnable
  | .mailEnsureMailbox => (parseMailEnsureMailbox json).map .mailEnsureMailbox

end

def STEP_DEPENDENCY_PARENT_KIND : ProvisioningStepKind → Option ProvisioningStepKind
  | .domainDeclare => none
  | .dnsPointAtTarget => some .domainDeclare
  | .dnsManualRecord => some .domainDeclare
  | .proxyEnsureResource => some .domainDeclare
  | .proxyEnsureRules => some .proxyEnsureResource
  | .mailEnable => some .domainDeclare
  | .mailEnsureMailbox => some .mailEnable

structure TemplateStepDefinition where
  sequence : ℕ
  stepKind : ProvisioningStepKind
  provider : Option ProvisioningStepProvider
  params : Json
  optional : Bool

structure ProvisioningTemplate where
  steps : List TemplateStepDefinition
  distinct : (steps.map (·.sequence)).Nodup

structure PlannedStep where
  sequence : ℕ
  params : StepParams
  provider : Option ProvisioningStepProvider
  optional : Bool
  dependsOnSequence : Option ℕ
  deriving DecidableEq

def TemplateStepDefinition.parse (inputs : JsonRecord) (step : TemplateStepDefinition) :
    InfrastructureResult StepParams := do
  let substituted ← substitutePlaceholders inputs step.params
  step.stepKind.parse substituted

abbrev LastSequenceByKind := ProvisioningStepKind → Option ℕ

def TemplateStepDefinition.dependsOn (lastSequenceByKind : LastSequenceByKind)
    (step : TemplateStepDefinition) : InfrastructureResult (Option ℕ) :=
  match STEP_DEPENDENCY_PARENT_KIND step.stepKind with
  | none => .ok none
  | some parentKind =>
    match lastSequenceByKind parentKind with
    | some parentSequence => .ok (some parentSequence)
    | none => .error (.validation (s!"step {step.sequence} (\"{step.stepKind.text}\") has no " ++
        s!"preceding \"{parentKind.text}\" step in this template"))

def compileSteps (inputs : JsonRecord) :
    LastSequenceByKind → List TemplateStepDefinition → InfrastructureResult (List PlannedStep)
  | _, [] => .ok []
  | lastSequenceByKind, step :: steps => do
    let params ← step.parse inputs
    let dependsOnSequence ← step.dependsOn lastSequenceByKind
    let rest ← compileSteps inputs
      (Function.update lastSequenceByKind step.stepKind (some step.sequence)) steps
    return {
      sequence := step.sequence
      params := params
      provider := step.provider
      optional := step.optional
      dependsOnSequence := dependsOnSequence } :: rest

def ProvisioningTemplate.ordered (template : ProvisioningTemplate) : List TemplateStepDefinition :=
  template.steps.insertionSort fun a b => a.sequence ≤ b.sequence

section

variable {inputs : JsonRecord} {last : LastSequenceByKind} {step : TemplateStepDefinition}
  {steps : List TemplateStepDefinition} {compiled : List PlannedStep}

theorem compileSteps_cons (h : compileSteps inputs last (step :: steps) = .ok compiled) :
    ∃ params parent rest, step.parse inputs = .ok params ∧ step.dependsOn last = .ok parent ∧
      compileSteps inputs (Function.update last step.stepKind (some step.sequence)) steps =
        .ok rest ∧
      compiled = ⟨step.sequence, params, step.provider, step.optional, parent⟩ :: rest := by
  unfold compileSteps at h
  obtain ⟨params, hparams, h⟩ := Except.bind_eq_ok.1 h
  obtain ⟨parent, hparent, h⟩ := Except.bind_eq_ok.1 h
  obtain ⟨rest, hrest, h⟩ := Except.bind_eq_ok.1 h
  cases h
  exact ⟨params, parent, rest, hparams, hparent, hrest, rfl⟩

theorem compileSteps_sequences : ∀ {steps : List TemplateStepDefinition} {last : LastSequenceByKind}
    {compiled : List PlannedStep},
    compileSteps inputs last steps = .ok compiled →
      compiled.map (·.sequence) = steps.map (·.sequence)
  | [], _, _, h => by
    cases h
    rfl
  | step :: steps, _, _, h => by
    obtain ⟨params, parent, rest, -, -, hrest, rfl⟩ := compileSteps_cons h
    rw [List.map_cons, List.map_cons, compileSteps_sequences hrest]

end

structure TemplatePlan where
  steps : List PlannedStep
  ordered : steps.Pairwise fun a b => a.sequence < b.sequence
  deriving DecidableEq

theorem ProvisioningTemplate.ordered_pairwise (template : ProvisioningTemplate) :
    (template.ordered.map (·.sequence)).Pairwise (· < ·) := by
  have : Std.Total fun a b : TemplateStepDefinition => a.sequence ≤ b.sequence :=
    ⟨fun a b => le_total a.sequence b.sequence⟩
  have : IsTrans TemplateStepDefinition fun a b => a.sequence ≤ b.sequence :=
    ⟨fun _ _ _ hab hbc => le_trans hab hbc⟩
  have hsorted : template.ordered.Pairwise fun a b => a.sequence ≤ b.sequence :=
    List.pairwise_insertionSort _ template.steps
  have hdistinct : (template.ordered.map (·.sequence)).Nodup :=
    ((List.perm_insertionSort _ template.steps).map _).nodup_iff.2 template.distinct
  have hle := List.pairwise_map.2 hsorted
  exact (List.pairwise_and_iff.2 ⟨hle, hdistinct⟩).imp fun h => lt_of_le_of_ne h.1 h.2

def compileTemplate (template : ProvisioningTemplate) (inputs : JsonRecord) :
    InfrastructureResult TemplatePlan :=
  match h : compileSteps inputs (fun _ => none) template.ordered with
  | .error error => .error error
  | .ok steps => .ok {
      steps := steps
      ordered := List.pairwise_map.1 (by
        rw [compileSteps_sequences h]
        exact template.ordered_pairwise) }

def PlannedStep.kind (step : PlannedStep) : ProvisioningStepKind := step.params.kind

def PlannedStep.toStep (step : PlannedStep) : CompiledStep where
  sequence := step.sequence
  step := step.params.step
  optional := step.optional
  dependsOnSequence := step.dependsOnSequence

def TemplatePlan.plan (plan : TemplatePlan) : CompiledPlan where
  steps := plan.steps.map PlannedStep.toStep
  ordered := List.pairwise_map.2 plan.ordered

end Loxep

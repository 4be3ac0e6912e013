import Loxep.Acquisitions
import Loxep.HostAddresses
import Loxep.ProviderOperations
import Loxep.RecordSync
import Mathlib.Data.List.Basic

/-!
# Container hosts

A plan of the projects of a container host, and the host a target gets from it.
-/

/-!
## The container-host planner

A host Loxep wants is compared with the hosts a container manager reports. It is matched by the
provider's id where the link knows one, by its name otherwise; what is not matched is created, and
what differs is updated. Secret material is sent where it is supplied and never compared.
-/

namespace Loxep

/-- The write-only material; a field that is absent is no opinion. -/
structure ContainerHostSecretPayload where
  tlsCa : Option String := none
  tlsCert : Option String := none
  tlsKey : Option String := none
  hawserToken : Option String := none
  deriving DecidableEq

def ContainerHostSecretPayload.isEmpty (payload : ContainerHostSecretPayload) : Bool :=
  payload == {}

structure ObservedContainerHost where
  externalHostId : String
  name : String
  connectionType : String
  host : Option String := none
  port : Option ℕ := none
  protocol : Option String := none
  socketPath : Option String := none
  tlsSkipVerify : Option Bool := none
  labels : List String := []
  publicIp : Option String := none

/-- What a create carries. The reconciler supplies every field but the secret ones. -/
structure ContainerHostPayload where
  name : String
  connectionType : String
  host : Option String
  port : Option ℕ
  protocol : Option String
  socketPath : Option String
  tlsSkipVerify : Option Bool
  labels : List String
  publicIp : Option String
  secrets : ContainerHostSecretPayload

structure DesiredContainerHost extends ContainerHostPayload where
  externalHostId : Option String

/-- What an update carries: a field that is absent is left as it is. -/
structure ContainerHostChanges where
  connectionType : Option String := none
  host : Option (Option String) := none
  port : Option (Option ℕ) := none
  protocol : Option (Option String) := none
  socketPath : Option (Option String) := none
  tlsSkipVerify : Option (Option Bool) := none
  labels : Option (List String) := none
  publicIp : Option (Option String) := none
  secrets : ContainerHostSecretPayload := {}
  deriving DecidableEq

inductive ContainerHostOperation
  | create (host : ContainerHostPayload)
  | update (externalHostId : String) (host : ContainerHostChanges)

structure ContainerHostApplyResult where
  externalHostId : String

structure ContainerHostPlan where
  operations : List ContainerHostOperation
  unmatchedObserved : List ObservedContainerHost

def changed {α : Type} [DecidableEq α] (want observed : α) : Option α :=
  if want = observed then none else some want

/-- The fields that can be compared; labels are compared without their order. -/
def differs (desired : DesiredContainerHost) (observed : ObservedContainerHost) :
    ContainerHostChanges where
  connectionType := changed desired.connectionType observed.connectionType
  host := changed desired.host observed.host
  protocol := changed desired.protocol observed.protocol
  socketPath := changed desired.socketPath observed.socketPath
  publicIp := changed desired.publicIp observed.publicIp
  port := changed desired.port observed.port
  tlsSkipVerify := changed desired.tlsSkipVerify observed.tlsSkipVerify
  labels := if desired.labels.isPerm observed.labels then none else some desired.labels

def matchObserved (observed : List ObservedContainerHost) (desired : DesiredContainerHost) :
    Option ObservedContainerHost :=
  (desired.externalHostId.bind fun id => observed.reverse.find? (·.externalHostId == id)).or
    (observed.reverse.find? (·.name == desired.name))

def planOperation (observed : List ObservedContainerHost) (desired : DesiredContainerHost) :
    Option ContainerHostOperation :=
  match matchObserved observed desired with
  | none => some (.create desired.toContainerHostPayload)
  | some host =>
    let changes := differs desired host
    if changes = {} ∧ desired.secrets.isEmpty then none
    else some (.update host.externalHostId { changes with secrets := desired.secrets })

def planContainerHostOperations (desired : List DesiredContainerHost)
    (observed : List ObservedContainerHost) : ContainerHostPlan where
  operations := desired.filterMap (planOperation observed)
  unmatchedObserved :=
    let matched := desired.filterMap fun d => (matchObserved observed d).map (·.externalHostId)
    observed.filter fun host => host.externalHostId ∉ matched

/-!
## The container host of a target

An operator declares how a hosting target is registered with the container manager, and a job
reconciles the manager with it. Both write the row of the resource linked to the target: a
declaration its columns and metadata, a reconcile the provider's id and, later, the metadata.
-/

abbrev ExternalResourceId := ℕ
abbrev HostSessionId := ℕ

def CONTAINER_HOST_LINK_PURPOSE : String := "container_console"
def CONTAINER_HOST_EXTERNAL_TYPE : String := "environment"
def CONTAINER_HOST_PROVIDER : String := "dockhand"

structure ContainerHostIntent where
  connectionType : String
  host : Option String
  port : Option ℕ
  protocol : Option String
  socketPath : Option String
  tlsSkipVerify : Option Bool
  labels : List String
  publicIp : Option String
  desiredAt : Timestamp
  deriving DecidableEq

structure ContainerHostIntentMetadata extends ContainerHostIntent where
  lastAppliedAt : Option Timestamp

/-- A link of the target with the resource it links. Metadata without `desiredAt` is of discovery
alone and has no fields that are read here. -/
structure CompanionLink where
  externalResourceId : ExternalResourceId
  purpose : String
  provider : String
  externalType : String
  createdAt : Timestamp
  externalId : Option String
  connectionId : Option ConnectionId
  url : String
  metadata : Option ContainerHostIntentMetadata

def CompanionLink.isContainerHost (link : CompanionLink) : Bool :=
  link.provider == CONTAINER_HOST_PROVIDER && link.externalType == CONTAINER_HOST_EXTERNAL_TYPE
    && link.purpose == CONTAINER_HOST_LINK_PURPOSE

/-- `order by created_at desc`. -/
def listLinksFor (links : List CompanionLink) : List CompanionLink :=
  links.insertionSort fun a b => b.createdAt ≤ a.createdAt

def findContainerHostLink (links : List CompanionLink) : Option CompanionLink :=
  (listLinksFor links).find? (·.isContainerHost)

def updateResource (id : ExternalResourceId) (f : CompanionLink → CompanionLink)
    (links : List CompanionLink) : List CompanionLink :=
  links.map fun link => if link.externalResourceId = id then f link else link

structure DeclareContainerHostIntentInput where
  connectionId : ConnectionId
  url : String
  connectionType : String
  host : Option String := none
  port : Option ℕ := none
  protocol : Option String := none
  socketPath : Option String := none
  tlsSkipVerify : Option Bool := none
  labels : List String := []
  publicIp : Option String := none

def DeclareContainerHostIntentInput.intent (input : DeclareContainerHostIntentInput)
    (now : Timestamp) : ContainerHostIntent where
  connectionType := input.connectionType
  host := input.host
  port := input.port
  protocol := input.protocol
  socketPath := input.socketPath
  tlsSkipVerify := input.tlsSkipVerify
  labels := input.labels
  publicIp := input.publicIp
  desiredAt := now

namespace DeclareContainerHostIntentInput

variable (input : DeclareContainerHostIntentInput)

def metadata (now : Timestamp) (existing : Option CompanionLink) : ContainerHostIntentMetadata where
  toContainerHostIntent := input.intent now
  lastAppliedAt := existing.bind fun link => link.metadata.bind (·.lastAppliedAt)

def patch (now : Timestamp) (existing link : CompanionLink) : CompanionLink :=
  { link with
    connectionId := some input.connectionId
    url := input.url
    metadata := some (input.metadata now (some existing)) }

def newLink (id : ExternalResourceId) (startedAt now : Timestamp) : CompanionLink where
  externalResourceId := id
  purpose := CONTAINER_HOST_LINK_PURPOSE
  provider := CONTAINER_HOST_PROVIDER
  externalType := CONTAINER_HOST_EXTERNAL_TYPE
  createdAt := startedAt
  externalId := none
  connectionId := some input.connectionId
  url := input.url
  metadata := some (input.metadata now none)

def write (id : ExternalResourceId) (startedAt now : Timestamp) (existing : Option CompanionLink)
    (links : List CompanionLink) : List CompanionLink :=
  match existing with
  | some found => updateResource found.externalResourceId (input.patch now found) links
  | none => input.newLink id startedAt now :: links

end DeclareContainerHostIntentInput

/-- A reconcile to make, with what is answered in it. -/
structure ContainerHostReconcile where
  mode : ReconcileMode
  trigger : ReconcileTrigger
  actorIsAdmin : Option Bool := none
  secret : ContainerHostSecretPayload := {}
  read : Except String (List ObservedContainerHost)
  policyTier : WritePolicyTier
  begin : BeginDecision := .proceed
  readBack : Except String (List ObservedContainerHost) := .ok []
  reply : ContainerHostOperation → Except String ContainerHostApplyResult

namespace ContainerHostReconcile

variable (run : ContainerHostReconcile)

def secretPayload (link : CompanionLink) : ContainerHostSecretPayload :=
  if run.mode = .apply ∧ (link.externalId = none ∨ run.trigger = .intentChange) then run.secret
  else {}

def desired (name : String) (link : CompanionLink) (meta' : ContainerHostIntentMetadata) :
    DesiredContainerHost where
  name := name
  connectionType := meta'.connectionType
  host := meta'.host
  port := meta'.port
  protocol := meta'.protocol
  socketPath := meta'.socketPath
  tlsSkipVerify := meta'.tlsSkipVerify
  labels := meta'.labels
  publicIp := meta'.publicIp
  externalHostId := link.externalId
  secrets := run.secretPayload link

def writePolicyBlocks (link : CompanionLink) : Bool :=
  run.mode == .apply && link.connectionId.isSome &&
    !Except.returns (assertWritePolicy run.mode run.trigger run.policyTier 1 run.actorIsAdmin
      (s!"allow writes for this Dockhand connection (currently '{run.policyTier.text}') on " ++
        "/settings/connections to register or update this host"))

def applyOperation (matchedExternalHostId : Option String) :
    ContainerHostOperation → InfrastructureResult (ℕ × Option String)
  | .create host =>
    match run.begin with
    | .alreadySucceeded => .ok (0, matchedExternalHostId)
    | .needsReadBack =>
      match run.readBack with
      | .error kind => .error (.other kind)
      | .ok hosts =>
        match hosts.find? (·.name == host.name) with
        | none => .ok (0, matchedExternalHostId)
        | some found => .ok (1, some found.externalHostId)
    | .proceed =>
      match run.reply (.create host) with
      | .error kind => .error (.providerCall kind "dockhand host create failed")
      | .ok result => .ok (1, some result.externalHostId)
  | .update id host =>
    match run.reply (.update id host) with
    | .error kind => .error (.providerCall kind "dockhand host update failed")
    | .ok result => .ok (1, some result.externalHostId)

def settle (name : String) (link : CompanionLink) (meta' : ContainerHostIntentMetadata) :
    InfrastructureResult (ℕ × Option String) :=
  match run.read with
  | .error kind => .error (.providerCall kind "dockhand host read failed")
  | .ok observed =>
    let plan := planContainerHostOperations [run.desired name link meta'] observed
    let matchedExternalHostId :=
      link.externalId.or ((observed.find? (·.name == name)).map (·.externalHostId))
    match plan.operations with
    | [] => .ok (0, matchedExternalHostId)
    | operation :: _ =>
      if run.mode ≠ .apply ∨ run.writePolicyBlocks link then .ok (0, matchedExternalHostId)
      else run.applyOperation matchedExternalHostId operation

end ContainerHostReconcile

/-- How far a call has come. -/
inductive HostStage
  | idle
  | declaring (input : DeclareContainerHostIntentInput) (startedAt : Timestamp)
  | declared (input : DeclareContainerHostIntentInput) (startedAt : Timestamp)
      (existing : Option CompanionLink)
  | reconciling (run : ContainerHostReconcile) (name : String)
  | reading (run : ContainerHostReconcile) (name : String) (link : CompanionLink)
      (meta' : ContainerHostIntentMetadata)
  | settled (mode : ReconcileMode) (link : CompanionLink) (meta' : ContainerHostIntentMetadata)
      (applied : ℕ) (matchedExternalHostId : Option String)
  | identified (mode : ReconcileMode) (link : CompanionLink) (meta' : ContainerHostIntentMetadata)
      (applied : ℕ)

inductive HostAction
  | declareIntent (session : HostSessionId) (input : DeclareContainerHostIntentInput)
      (now : Timestamp)
  | reconcile (session : HostSessionId) (run : ContainerHostReconcile)
  | findLink (session : HostSessionId)
  | commitIntent (session : HostSessionId) (id : ExternalResourceId) (now : Timestamp)
  | settle (session : HostSessionId)
  | selfRetireIdentity (session : HostSessionId) (stored : Bool)
  | writeApplied (session : HostSessionId) (now : Timestamp)
  | decommission (now : Timestamp)
  | crash (session : HostSessionId)

structure ContainerHostDeclaration where
  connectionId : Option ConnectionId
  url : String
  intent : ContainerHostIntent
  deriving DecidableEq

structure HostSystem where
  target : HostingTargetRow
  links : List CompanionLink := []
  stage : HostSessionId → HostStage := fun _ => .idle
  latest : Option ContainerHostDeclaration := none

def DeclareContainerHostIntentInput.declaration (input : DeclareContainerHostIntentInput)
    (now : Timestamp) : ContainerHostDeclaration where
  connectionId := some input.connectionId
  url := input.url
  intent := input.intent now

namespace HostSystem

variable (s : HostSystem)

def setStage (session : HostSessionId) (stage : HostStage) : HostSystem :=
  { s with stage := fun other => if other = session then stage else s.stage other }

/-- Intent is looked up by a declaration to be patched, by a reconcile to be converged; without it
the reconcile is skipped. -/
def found (link : Option CompanionLink) : HostStage → HostStage
  | .declaring input startedAt => .declared input startedAt link
  | .reconciling run name =>
    match link with
    | none => .idle
    | some row =>
      match row.metadata with
      | none => .idle
      | some meta' => .reading run name row meta'
  | stage => stage

def settled (run : ContainerHostReconcile) (name : String) (link : CompanionLink)
    (meta' : ContainerHostIntentMetadata) : HostStage :=
  match run.settle name link meta' with
  | .error _ => .idle
  | .ok (applied, matchedExternalHostId) =>
    .settled run.mode link meta' applied matchedExternalHostId

/-- A call that raises ends where it stands, as one that crashes does; so does a reconcile of a
target that is decommissioned. -/
def step : HostAction → HostSystem
  | .declareIntent session input now =>
    match s.stage session with
    | .idle =>
      if s.target.decommissionedAt.isSome then s else s.setStage session (.declaring input now)
    | _ => s
  | .reconcile session run =>
    match s.stage session with
    | .idle =>
      if s.target.decommissionedAt.isSome then s
      else s.setStage session (.reconciling run s.target.name)
    | _ => s
  | .findLink session =>
    s.setStage session (found (findContainerHostLink s.links) (s.stage session))
  | .commitIntent session id now =>
    match s.stage session with
    | .declared input startedAt existing =>
      { s.setStage session .idle with
        links := input.write id startedAt now existing s.links
        latest := some (input.declaration now) }
    | _ => s
  | .settle session =>
    match s.stage session with
    | .reading run name link meta' => s.setStage session (settled run name link meta')
    | _ => s
  | .selfRetireIdentity session stored =>
    match s.stage session with
    | .settled mode link meta' applied matchedExternalHostId =>
      let s' := s.setStage session (.identified mode link meta' applied)
      if stored ∧ matchedExternalHostId ≠ none ∧ matchedExternalHostId ≠ link.externalId then
        { s' with
          links := updateResource link.externalResourceId
            (fun row => { row with externalId := matchedExternalHostId }) s.links }
      else s'
    | _ => s
  | .writeApplied session now =>
    match s.stage session with
    | .identified mode link meta' applied =>
      let s' := s.setStage session .idle
      if mode = .apply ∧ 0 < applied then
        { s' with
          links := updateResource link.externalResourceId
            (fun row => { row with metadata := some { meta' with lastAppliedAt := some now } })
            s.links }
      else s'
    | _ => s
  | .decommission now => { s with target := { s.target with decommissionedAt := some now } }
  | .crash session => s.setStage session .idle

end HostSystem

/-! ### Connections

A reconcile is handed a port to one connection: the job resolves it from the link before the call,
the drift sweep makes it of the hosts it has just read from a connection it goes through.
-/

namespace ContainerHostOperation

def updated : ContainerHostOperation → Option String
  | .create _ => none
  | .update id _ => some id

def isSent (begin' : BeginDecision) : ContainerHostOperation → Bool
  | .create _ => begin' == .proceed
  | .update _ _ => true

end ContainerHostOperation

namespace ContainerHostReconcile

variable (run : ContainerHostReconcile)

def sends (name : String) (link : CompanionLink) (meta' : ContainerHostIntentMetadata) :
    Option ContainerHostOperation :=
  match run.read with
  | .error _ => none
  | .ok observed =>
    (planContainerHostOperations [run.desired name link meta'] observed).operations.head?.filter
      fun operation =>
        run.mode == .apply && !run.writePolicyBlocks link && operation.isSent run.begin

def namesakes (name : String) : List String :=
  match run.read with
  | .error _ => []
  | .ok observed => (observed.filter (·.name == name)).map (·.externalHostId)

/-- The ids by which the connection gives the target's host in the call. -/
def learns (name : String) (link : CompanionLink) (meta' : ContainerHostIntentMetadata) :
    List String :=
  match run.settle name link meta' with
  | .ok (_ + 1, some id) => id :: run.namesakes name
  | _ => run.namesakes name

end ContainerHostReconcile

inductive ConnectedAction
  | call (action : HostAction)
  | sweep (session : HostSessionId) (connection : ConnectionId) (run : ContainerHostReconcile)

/-- The calls with the connection each is handed the port of, and the ids of the target's host that
each connection has given. -/
structure ConnectedHosts where
  hosts : HostSystem
  port : HostSessionId → Option ConnectionId := fun _ => none
  learned : List (ConnectionId × String) := []

namespace ConnectedHosts

variable (s : ConnectedHosts)

def start (target : HostingTargetRow) (links : List CompanionLink) : ConnectedHosts where
  hosts := { target := target, links := links }
  learned := links.filterMap fun link =>
    link.connectionId.bind fun connection => link.externalId.map (connection, ·)

def reconcile (session : HostSessionId) (connection : ConnectionId) (run : ContainerHostReconcile)
    : ConnectedHosts :=
  match s.hosts.stage session with
  | .idle =>
    { s with
      hosts := s.hosts.step (.reconcile session run)
      port := fun other => if other = session then some connection else s.port other }
  | _ => s

/-- The connection that `resolveContainerHostProvider` resolves. -/
def resolved : Option ConnectionId :=
  (findContainerHostLink s.hosts.links).bind (·.connectionId)

/-- `listDeclaredTargets`, for the sweep of one connection. -/
def listsOn (connection : ConnectionId) : Bool :=
  s.hosts.links.any fun link =>
    link.isContainerHost && link.metadata.isSome && link.connectionId == some connection

def learnedAt (session : HostSessionId) : List (ConnectionId × String) :=
  match s.hosts.stage session, s.port session with
  | .reading run name link meta', some connection =>
    (run.learns name link meta').map (connection, ·)
  | _, _ => []

def step : ConnectedAction → ConnectedHosts
  | .call (.reconcile session run) =>
    match s.resolved with
    | none => s
    | some connection => s.reconcile session connection run
  | .call (.settle session) =>
    { s with
      hosts := s.hosts.step (.settle session)
      learned := s.learnedAt session ++ s.learned }
  | .call action => { s with hosts := s.hosts.step action }
  | .sweep session connection run =>
    if s.listsOn connection then
      s.reconcile session connection { run with mode := .check, trigger := .poll }
    else s

end ConnectedHosts

end Loxep

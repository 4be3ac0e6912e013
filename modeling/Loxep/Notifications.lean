import Loxep.MarketItems
import Loxep.Text

/-!
# Notifiable facts and the rules that route them

A fact is recorded once for its deduplication key, as an event of a class. A rule names an endpoint
for the events of a class, of any type or of one, of any monitor target or of one.
-/

namespace Loxep

inductive NotificationEventClass
  | market
  | purchase
  | document
  | sale
  | health
  | infrastructure
  deriving DecidableEq

inductive NotificationSubjectType
  | marketEvent
  | acquisition
  | document
  | order
  | connection
  | notificationEndpoint
  | storageBackend
  | externalResource
  | hostingTarget
  | managedDomain
  | monitorTarget
  | reconcileRun
  deriving DecidableEq

inductive MarketEventType
  | priceChanged
  | priceDropped
  | restocked
  | soldOut
  | quantityChanged
  | listingEnded
  | newListing
  deriving DecidableEq

def MarketEventType.text : MarketEventType → String
  | priceChanged => "price_changed"
  | priceDropped => "price_dropped"
  | restocked => "restocked"
  | soldOut => "sold_out"
  | quantityChanged => "quantity_changed"
  | listingEnded => "listing_ended"
  | newListing => "new_listing"

namespace NotificationEventClass

def eventTypes : NotificationEventClass → List String
  | market => [.priceChanged, .priceDropped, .restocked, .soldOut, .quantityChanged, .listingEnded,
      .newListing].map MarketEventType.text
  | purchase => ["purchase_ingested"]
  | document => ["document_confirmed"]
  | sale => ["manual_sale_recorded"]
  | health => ["health_degraded", "health_recovered"]
  | infrastructure =>
    ["drift_found", "drift_disappeared", "reconcile_run_failed", "ip_alias_changed"]

def subjectTypes : NotificationEventClass → List NotificationSubjectType
  | market => [.marketEvent]
  | purchase => [.acquisition]
  | document => [.document]
  | sale => [.order]
  | health => [.connection, .notificationEndpoint, .storageBackend]
  | infrastructure => [.managedDomain, .reconcileRun, .hostingTarget]

end NotificationEventClass

abbrev MarketEventId := ℕ
abbrev NotificationEventId := ℕ
abbrev NotificationRuleId := ℕ
abbrev EndpointId := ℕ

/-- The key of a market event is `market_event:<id>`; other emitters write texts of their own. -/
inductive DeduplicationKey
  | marketEvent (id : MarketEventId)
  | text (key : String)
  deriving DecidableEq

def DeduplicationKey.isBlank : DeduplicationKey → Bool
  | marketEvent _ => false
  | text key => trim key == ""

structure RecordNotificationEventInput where
  eventClass : NotificationEventClass
  eventType : String
  subjectType : NotificationSubjectType
  subjectId : ℕ
  monitorTargetId : Option MonitorTargetId := none
  deduplicationKey : DeduplicationKey

def RecordNotificationEventInput.validate (input : RecordNotificationEventInput) : Bool :=
  input.eventClass.eventTypes.contains input.eventType &&
    input.eventClass.subjectTypes.contains input.subjectType && !input.deduplicationKey.isBlank

structure NotificationEventRow extends RecordNotificationEventInput where
  id : NotificationEventId

structure RoutableNotificationEvent where
  eventClass : NotificationEventClass
  eventType : String
  monitorTargetId : Option MonitorTargetId

def RecordNotificationEventInput.routable (input : RecordNotificationEventInput) :
    RoutableNotificationEvent where
  eventClass := input.eventClass
  eventType := input.eventType
  monitorTargetId := input.monitorTargetId

structure NotificationRuleRow where
  id : NotificationRuleId
  enabled : Bool := true
  eventClass : NotificationEventClass
  eventType : Option String := none
  monitorTargetId : Option MonitorTargetId := none
  endpointId : EndpointId
  deriving DecidableEq

def ruleTypeRegistered (eventClass : NotificationEventClass) (eventType : Option String) : Bool :=
  eventType.all eventClass.eventTypes.contains

structure NotificationRulePatch where
  enabled : Option Bool := none
  eventClass : Option NotificationEventClass := none
  eventType : Option (Option String) := none
  monitorTargetId : Option (Option MonitorTargetId) := none

namespace NotificationRuleRow

variable (rule : NotificationRuleRow)

def isMatch (event : RoutableNotificationEvent) : Bool :=
  rule.enabled && decide (rule.eventClass = event.eventClass) &&
    rule.eventType.all (· == event.eventType) &&
    rule.monitorTargetId.all fun target => event.monitorTargetId == some target

def patched (patch : NotificationRulePatch) : NotificationRuleRow :=
  { rule with
    enabled := patch.enabled.getD rule.enabled
    eventClass := patch.eventClass.getD rule.eventClass
    eventType := patch.eventType.getD rule.eventType
    monitorTargetId := patch.monitorTargetId.getD rule.monitorTargetId }

end NotificationRuleRow

def routeNotificationEvent (rules : List NotificationRuleRow) (event : RoutableNotificationEvent) :
    List EndpointId :=
  (rules.filter (·.isMatch event)).foldl
    (fun endpoints rule =>
      if rule.endpointId ∈ endpoints then endpoints else endpoints ++ [rule.endpointId]) []

/-!
## Deliveries, side by side

A delivery job makes sure that its pair of event and endpoint has a row, looks whether that is
delivered, counts an attempt, sends the message and records the outcome, a statement at a time. A
send and the write of its success stand in one `try`; whatever throws there is recorded as a
failure, and retried.
-/

/-- `unique (notification_event_id, endpoint_id)`. -/
structure DeliveryKey where
  notificationEventId : NotificationEventId
  endpointId : EndpointId
  deriving DecidableEq

inductive DeliveryStatus
  | pending
  | delivered
  | failed

structure NotificationDeliveryRow where
  key : DeliveryKey
  status : DeliveryStatus := .pending
  attemptCount : ℕ := 0
  deliveredAt : Option Timestamp := none
  providerMessageId : Option String := none
  lastError : Option String := none

namespace NotificationDeliveryRow

variable (row : NotificationDeliveryRow)

def attempted : NotificationDeliveryRow := { row with attemptCount := row.attemptCount + 1 }

def succeeded (now : Timestamp) (messageId : Option String) : NotificationDeliveryRow :=
  { row with
    status := .delivered
    deliveredAt := some now
    providerMessageId := messageId
    lastError := none }

def failed (message : String) : NotificationDeliveryRow :=
  { row with
    status := .failed
    lastError := some message }

end NotificationDeliveryRow

structure NotificationEndpointRow where
  id : EndpointId
  enabled : Bool := true
  /-- A secret holds its token. -/
  hasSecret : Bool := false

/-- `message.slice(0, 500)`. -/
def errorText (message : String) : String := String.ofList (message.toList.take 500)

inductive DeliveryStage
  | idle
  /-- The insert that does nothing where there is a row. -/
  | ensuring (key : DeliveryKey)
  | reading (key : DeliveryKey)
  | readingEndpoint (key : DeliveryKey)
  | readingEvent (key : DeliveryKey) (endpoint : Option NotificationEndpointRow)
  /-- Endpoint or event is missing. -/
  | abandoning (key : DeliveryKey)
  | counting (key : DeliveryKey) (endpoint : NotificationEndpointRow)
  | readingToken (key : DeliveryKey)
  /-- The transport has the message, and has not answered. -/
  | sending (key : DeliveryKey)
  /-- The transport has accepted the message. -/
  | recording (key : DeliveryKey) (messageId : Option String)
  /-- The send or the write of its success has thrown. -/
  | failing (key : DeliveryKey) (message : String)

abbrev DeliverySessionId := ℕ

inductive DeliveryAction
  | deliver (session : DeliverySessionId) (key : DeliveryKey)
  | proceed (session : DeliverySessionId) (now : Timestamp)
  | accept (session : DeliverySessionId) (messageId : Option String)
  /-- The send throws, though the transport may have taken the message. -/
  | reject (session : DeliverySessionId) (taken : Bool) (message : String)
  /-- The next statement fails. -/
  | fail (session : DeliverySessionId) (message : String)
  | crash (session : DeliverySessionId)
  | recordEvent (id : NotificationEventId)
  | setEndpoint (endpoint : NotificationEndpointRow)
  | deleteEndpoint (id : EndpointId)

/-- The rows, the messages the transport has taken, and the running jobs. -/
structure DeliverySystem where
  events : List NotificationEventId := []
  endpoints : List NotificationEndpointRow := []
  deliveries : List NotificationDeliveryRow := []
  accepted : List DeliveryKey := []
  stage : DeliverySessionId → DeliveryStage := fun _ => .idle

namespace DeliverySystem

variable (s : DeliverySystem)

def setStage (session : DeliverySessionId) (stage : DeliveryStage) : DeliverySystem :=
  { s with stage := fun other => if other = session then stage else s.stage other }

def find (key : DeliveryKey) : Option NotificationDeliveryRow :=
  KeyedTable.get (·.key) s.deliveries key

def findEndpoint (id : EndpointId) : Option NotificationEndpointRow :=
  KeyedTable.get (·.id) s.endpoints id

def update (key : DeliveryKey) (f : NotificationDeliveryRow → NotificationDeliveryRow) :
    DeliverySystem :=
  { s with deliveries := KeyedTable.set (·.key) s.deliveries key f }

/-- A row refers to an event and an endpoint that are there. -/
def ensure (key : DeliveryKey) : DeliverySystem :=
  if (s.find key).isSome then s else { s with deliveries := s.deliveries ++ [{ key := key }] }

def take (key : DeliveryKey) : DeliverySystem := { s with accepted := key :: s.accepted }

def refersToRows (key : DeliveryKey) : Bool :=
  s.events.contains key.notificationEventId && (s.findEndpoint key.endpointId).isSome

def checkedStage (key : DeliveryKey) (endpoint : Option NotificationEndpointRow) :
    DeliveryStage :=
  match endpoint with
  | none => .abandoning key
  | some row =>
    if !s.events.contains key.notificationEventId then .abandoning key
    else if row.enabled then .counting key row
    else .idle

def proceed (session : DeliverySessionId) (now : Timestamp) : DeliverySystem :=
  match s.stage session with
  | .idle | .sending _ => s
  | .ensuring key =>
    if s.refersToRows key then (s.ensure key).setStage session (.reading key)
    else s.setStage session .idle
  | .reading key =>
    s.setStage session (match s.find key with
      | none => .idle
      | some row => if row.deliveredAt.isSome then .idle else .readingEndpoint key)
  | .readingEndpoint key =>
    s.setStage session (.readingEvent key (s.findEndpoint key.endpointId))
  | .readingEvent key endpoint => s.setStage session (s.checkedStage key endpoint)
  | .abandoning key =>
    (s.update key (·.failed "endpoint or notification event no longer exists")).setStage session
      .idle
  | .counting key endpoint =>
    (s.update key (·.attempted)).setStage session
      (if endpoint.hasSecret then .readingToken key else .sending key)
  | .readingToken key => s.setStage session (.sending key)
  | .recording key messageId =>
    (s.update key (·.succeeded now messageId)).setStage session .idle
  | .failing key message => (s.update key (·.failed (errorText message))).setStage session .idle

def accept (session : DeliverySessionId) (messageId : Option String) : DeliverySystem :=
  match s.stage session with
  | .sending key => (s.take key).setStage session (.recording key messageId)
  | _ => s

def reject (session : DeliverySessionId) (taken : Bool) (message : String) : DeliverySystem :=
  match s.stage session with
  | .sending key =>
    (if taken then s.take key else s).setStage session (.failing key message)
  | _ => s

def fail (session : DeliverySessionId) (message : String) : DeliverySystem :=
  match s.stage session with
  | .recording key _ => s.setStage session (.failing key message)
  | .sending _ => s
  | _ => s.setStage session .idle

def deleteEndpoint (id : EndpointId) : DeliverySystem :=
  if s.deliveries.any (·.key.endpointId == id) then s
  else { s with endpoints := s.endpoints.filter (·.id != id) }

def deliver (session : DeliverySessionId) (key : DeliveryKey) : DeliverySystem :=
  match s.stage session with
  | .idle => s.setStage session (.ensuring key)
  | _ => s

def step : DeliveryAction → DeliverySystem
  | .deliver session key => s.deliver session key
  | .proceed session now => s.proceed session now
  | .accept session messageId => s.accept session messageId
  | .reject session taken message => s.reject session taken message
  | .fail session message => s.fail session message
  | .crash session => s.setStage session .idle
  | .recordEvent id => { s with events := id :: s.events }
  | .setEndpoint endpoint =>
    { s with endpoints := KeyedTable.upsert (·.id) s.endpoints endpoint fun _ => endpoint }
  | .deleteEndpoint id => s.deleteEndpoint id

end DeliverySystem

/-!
## Publishing market events

A poll stores the market events an observation implies and publishes those that this statement has
inserted: it reads the event, records a notification event, and, where this call has created that,
enqueues a job for each endpoint, a statement at a time.
-/

structure MarketEventCandidate where
  marketplaceItemId : MarketplaceItemId
  eventType : MarketEventType
  monitorTargetId : Option MonitorTargetId := none
  toObservedAt : Timestamp
  deriving DecidableEq

/-- `<item>:<type>:<instant>`. -/
def MarketEventCandidate.deduplicationKey (candidate : MarketEventCandidate) :
    MarketplaceItemId × MarketEventType × Timestamp :=
  (candidate.marketplaceItemId, candidate.eventType, candidate.toObservedAt)

structure MarketEventRow extends MarketEventCandidate where
  id : MarketEventId
  deriving DecidableEq

def MarketEventRow.input (event : MarketEventRow) : RecordNotificationEventInput where
  eventClass := .market
  eventType := event.eventType.text
  subjectType := .marketEvent
  subjectId := event.id
  monitorTargetId := event.monitorTargetId
  deduplicationKey := .marketEvent event.id

def newMarketEvents (events : List MarketEventRow) :
    List MarketEventCandidate → List MarketEventRow
  | [] => []
  | candidate :: rest =>
    if events.any (·.deduplicationKey == candidate.deduplicationKey) then
      newMarketEvents events rest
    else
      let row : MarketEventRow := { candidate with id := events.length }
      row :: newMarketEvents (events ++ [row]) rest

structure DomainFact where
  eventClass : NotificationEventClass
  eventType : String
  subjectType : NotificationSubjectType
  subjectId : ℕ
  deduplicationKey : String

def DomainFact.input (fact : DomainFact) : RecordNotificationEventInput where
  eventClass := fact.eventClass
  eventType := fact.eventType
  subjectType := fact.subjectType
  subjectId := fact.subjectId
  deduplicationKey := .text fact.deduplicationKey

inductive PublishSource
  | market (event : MarketEventRow)
  | domain (fact : DomainFact) (enqueues : Bool)

namespace PublishSource

def input : PublishSource → RecordNotificationEventInput
  | market event => event.input
  | domain fact _ => fact.input

def enqueues : PublishSource → Bool
  | market _ => true
  | domain _ enqueues => enqueues

def event : PublishSource → Option MarketEventRow
  | market event => some event
  | domain _ _ => none

end PublishSource

inductive PublishStep
  /-- `enqueueDeliveriesForEvent` reads the market event. -/
  | loading (event : MarketEventRow)
  | recording (source : PublishSource)
  /-- This call has created the notification event. -/
  | routing (id : NotificationEventId) (source : PublishSource)
  | enqueueing (id : NotificationEventId) (source : PublishSource) (endpoints : List EndpointId)

inductive PublishStage
  | idle
  /-- A poll stores these next, and the others later. -/
  | deriving (candidates : List MarketEventCandidate) (left : List (List MarketEventCandidate))
  /-- It publishes, with these events to publish next. -/
  | publishing (step : PublishStep) (queue : List MarketEventRow)
      (left : List (List MarketEventCandidate))

def PublishStage.resume :
    List MarketEventRow → List (List MarketEventCandidate) → PublishStage
  | event :: queue, left => .publishing (.loading event) queue left
  | [], candidates :: left => .deriving candidates left
  | [], [] => .idle

abbrev PublishSessionId := ℕ

inductive PublishAction
  /-- A poll with what each of its observations implies. -/
  | poll (session : PublishSessionId) (derivations : List (List MarketEventCandidate))
  | publish (session : PublishSessionId) (fact : DomainFact) (enqueues : Bool)
  | publishWithin (fact : DomainFact) (enqueues : Bool)
  | proceed (session : PublishSessionId)
  /-- The next statement fails. -/
  | fail (session : PublishSessionId)
  /-- The process dies between two statements. -/
  | crash (session : PublishSessionId)
  | createRule (rule : NotificationRuleRow)
  | updateRule (id : NotificationRuleId) (patch : NotificationRulePatch)
  | deleteRule (id : NotificationRuleId)

/-- The committed rows, the delivery jobs that were enqueued, and the sessions. What is due is not
stored: each market event with the rules that have matched it ever since it was stored. -/
structure PublishSystem where
  marketEvents : List MarketEventRow := []
  rules : List NotificationRuleRow := []
  notificationEvents : List NotificationEventRow := []
  jobs : List (NotificationEventId × EndpointId) := []
  due : List (MarketEventRow × NotificationRuleRow) := []
  stage : PublishSessionId → PublishStage := fun _ => .idle

namespace PublishSystem

variable (s : PublishSystem)

def setStage (session : PublishSessionId) (stage : PublishStage) : PublishSystem :=
  { s with stage := fun other => if other = session then stage else s.stage other }

def isRecorded (key : DeduplicationKey) : Bool :=
  s.notificationEvents.any (·.deduplicationKey == key)

/-- `insert … on conflict (deduplication_key) do nothing`. -/
def record (input : RecordNotificationEventInput) : PublishSystem :=
  { s with notificationEvents :=
      s.notificationEvents ++ [{ input with id := s.notificationEvents.length }] }

/-- A job with the key of one that is there replaces it. -/
def enqueue (id : NotificationEventId) (endpoint : EndpointId) : PublishSystem :=
  { s with jobs := s.jobs.insert (id, endpoint) }

/-- `deriveMarketEvents`, with the rules that match what it stores. -/
def derive (rows : List MarketEventRow) : PublishSystem :=
  { s with
    marketEvents := s.marketEvents ++ rows
    due := s.due ++ rows.flatMap fun event =>
      (s.rules.filter (·.isMatch event.input.routable)).map (event, ·) }

/-- One statement of a publication; `after` is where the session goes when it is over. -/
def publishStep (session : PublishSessionId) (step : PublishStep)
    (next : PublishStep → PublishStage) (after : PublishStage) : PublishSystem :=
  match step with
  | .loading event =>
    match s.marketEvents.find? (·.id == event.id) with
    | none => s.setStage session after
    | some row => s.setStage session (next (.recording (.market row)))
  | .recording source =>
    if !source.input.validate || s.isRecorded source.input.deduplicationKey then
      s.setStage session after
    else if source.enqueues then
      (s.record source.input).setStage session
        (next (.routing s.notificationEvents.length source))
    else (s.record source.input).setStage session after
  | .routing id source =>
    s.setStage session
      (next (.enqueueing id source (routeNotificationEvent s.rules source.input.routable)))
  | .enqueueing id source (endpoint :: endpoints) =>
    (s.enqueue id endpoint).setStage session (next (.enqueueing id source endpoints))
  | .enqueueing _ _ [] => s.setStage session after

def proceed (session : PublishSessionId) : PublishSystem :=
  match s.stage session with
  | .idle => s
  | .deriving candidates left =>
    let rows := newMarketEvents s.marketEvents candidates
    (s.derive rows).setStage session (.resume rows left)
  | .publishing step queue left =>
    s.publishStep session step (.publishing · queue left) (.resume queue left)

def fail (session : PublishSessionId) : PublishSystem :=
  match s.stage session with
  | .publishing _ queue left => s.setStage session (.resume queue left)
  | _ => s.setStage session .idle

def publishWithin (fact : DomainFact) (enqueues : Bool) : PublishSystem :=
  if !fact.input.validate || s.isRecorded fact.input.deduplicationKey then s
  else if enqueues then
    (routeNotificationEvent s.rules fact.input.routable).foldl
      (·.enqueue s.notificationEvents.length) (s.record fact.input)
  else s.record fact.input

def setRules (f : NotificationRuleRow → Option NotificationRuleRow) : PublishSystem :=
  { s with
    rules := s.rules.filterMap f
    due := s.due.filterMap fun (event, rule) =>
      (f rule).bind fun rule =>
        if rule.isMatch event.input.routable then some (event, rule) else none }

def updateRule (id : NotificationRuleId) (patch : NotificationRulePatch) : PublishSystem :=
  s.setRules fun rule =>
    let changed := rule.patched patch
    if rule.id = id ∧ ruleTypeRegistered changed.eventClass changed.eventType then some changed
    else some rule

def createRule (rule : NotificationRuleRow) : PublishSystem :=
  if ruleTypeRegistered rule.eventClass rule.eventType ∧ s.rules.all (·.id != rule.id) then
    { s with rules := s.rules ++ [rule] }
  else s

def begin (session : PublishSessionId) (stage : PublishStage) : PublishSystem :=
  match s.stage session with
  | .idle => s.setStage session stage
  | _ => s

def step : PublishAction → PublishSystem
  | .poll session derivations => s.begin session (.resume [] derivations)
  | .publish session fact enqueues =>
    s.begin session (.publishing (.recording (.domain fact enqueues)) [] [])
  | .publishWithin fact enqueues => s.publishWithin fact enqueues
  | .proceed session => s.proceed session
  | .fail session => s.fail session
  | .crash session => s.setStage session .idle
  | .createRule rule => s.createRule rule
  | .updateRule id patch => s.updateRule id patch
  | .deleteRule id => s.setRules fun rule => if rule.id = id then none else some rule

end PublishSystem

end Loxep

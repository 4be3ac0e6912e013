import Loxep.ProviderPayloads

/-!
# Who may become a user, and who is an administrator

The provisioning policy is read from a stored setting and governs the creation of accounts. A role
column is a list separated by commas; the guards of the server and the statements of the database
read it each in their own way. A claim of a stored identity token may designate an administrator.
-/

namespace Loxep

inductive LoxepRole
  | admin
  | member
  deriving DecidableEq

def LoxepRole.ofText : String → Option LoxepRole
  | "admin" => some .admin
  | "member" => some .member
  | _ => none

def commaSeparated (chars : List Char) : List String := (chars.splitOn ',').map String.ofList

def sessionRoles (role : Option String) : List LoxepRole :=
  match role with
  | none => [.member]
  | some raw =>
    if trim raw = "" then [.member]
    else
      let roles := (commaSeparated raw.toList).filterMap fun piece => LoxepRole.ofText (trim piece)
      if roles.isEmpty then [.member] else roles

def hasRole (role : Option String) (wanted : LoxepRole) : Bool :=
  (sessionRoles role).contains wanted

/-- `'admin' = any (string_to_array(replace(role, ' ', ''), ','))`. -/
def isAdminColumn (role : Option String) : Bool :=
  role.any fun raw => (commaSeparated (raw.toList.filter (· ≠ ' '))).contains "admin"

inductive ProvisioningStance
  | opened
  | closed
  deriving DecidableEq

inductive ClaimApplyMoment
  | create
  | everySignIn
  deriving DecidableEq

structure OidcAdminClaimPolicy where
  claim : Option String := none
  adminValues : List String := []
  applyOn : ClaimApplyMoment := .create

structure NewUsersPolicy where
  magicLink : ProvisioningStance := .closed
  oidc : ProvisioningStance := .closed

/-- The defaults are those of `DEFAULT_PROVISIONING_POLICY`. -/
structure AuthProvisioningPolicy where
  newUsers : NewUsersPolicy := {}
  magicLinkEmailDomains : List String := []
  oidcAdminClaim : OidcAdminClaimPolicy := {}

namespace Json

def stance : Json → ProvisioningStance
  | .string "open" => .opened
  | _ => .closed

def stringList : Json → List String
  | .array entries => entries.filterMap asText
  | _ => []

end Json

def parseProvisioningPolicy (value : Json) : AuthProvisioningPolicy :=
  match value.asRecord with
  | none => {}
  | some record =>
    let newUsers := (record.field "newUsers").asRecord.getD []
    let claim := (record.field "oidcAdminClaim").asRecord.getD []
    { newUsers :=
        { magicLink := (newUsers.field "magicLink").stance
          oidc := (newUsers.field "oidc").stance }
      magicLinkEmailDomains := (record.field "magicLinkEmailDomains").stringList
      oidcAdminClaim :=
        { claim := (claim.field "claim").asText
          adminValues := (claim.field "adminValues").stringList
          applyOn := match claim.field "applyOn" with
            | .string "every_sign_in" => .everySignIn
            | _ => .create } }

inductive ProvisioningMethod
  | magicLink
  | oidc
  | admin
  | unknown
  deriving DecidableEq

def provisioningMethodForPath (path : Option String) : ProvisioningMethod :=
  match path with
  | none => .unknown
  | some text =>
    if text = "/magic-link/verify" then .magicLink
    else if "/callback".toList.isPrefixOf text.toList then .oidc
    else if text = "/admin/create-user" then .admin
    else .unknown

section LowerCase

-- how JavaScript folds the case of a text
variable (toLowerCase : String → String)

/-- What follows the last `@`, lowercased; none where nothing stands before or behind it. -/
def emailDomain (email : String) : Option String :=
  let front := email.toList.rdropWhile (· ≠ '@')
  let domain := email.toList.rtakeWhile (· ≠ '@')
  if front.length ≤ 1 ∨ domain = [] then none
  else some (toLowerCase (trim (String.ofList domain)))

def emailDomainAllowed (email : String) (domains : List String) : Bool :=
  domains.isEmpty || match emailDomain toLowerCase email with
    | none => false
    | some domain => domains.any fun allowed => toLowerCase (trim allowed) == domain

inductive ProvisioningDenialReason
  | methodClosed
  | emailDomainNotAllowed
  deriving DecidableEq

inductive ProvisioningDecision
  | allowed
  | denied (reason : ProvisioningDenialReason)
  deriving DecidableEq

def decideProvisioning (method : ProvisioningMethod) (email : Option String)
    (policy : AuthProvisioningPolicy) (installationHasAdmin : Bool) : ProvisioningDecision :=
  if !installationHasAdmin then .allowed
  else match method with
    | .admin => .allowed
    | .magicLink =>
      if policy.newUsers.magicLink = .closed then .denied .methodClosed
      else if email.any fun address =>
        !emailDomainAllowed toLowerCase address policy.magicLinkEmailDomains then
        .denied .emailDomainNotAllowed
      else .allowed
    | .oidc => if policy.newUsers.oidc = .closed then .denied .methodClosed else .allowed
    | .unknown =>
      if policy.newUsers.magicLink = .closed ∧ policy.newUsers.oidc = .closed then
        .denied .methodClosed
      else .allowed

/-- The payload of a token of three parts, where it is read as an object. How the payload is decoded
is `read`, none where that throws. -/
def decodeIdTokenClaims (read : String → Option Json) (idToken : Option String) :
    Option JsonRecord :=
  idToken.bind fun token => match token.toList.splitOn '.' with
    | [_, payload, _] =>
      if payload = [] then none else (read (String.ofList payload)).bind (·.asRecord)
    | _ => none

/-- What the path leads to; `null` where a segment is missing. -/
def resolveClaimPath (claims : JsonRecord) (path : String) : Json :=
  match (path.toList.splitOn '.').filter (· ≠ []) with
  | [] => .null
  | segments => segments.foldl (fun current segment => match current.asRecord with
    | some record => record.field (String.ofList segment)
    | none => .null) (.object claims)

def spaceSeparated (text : String) : List String :=
  ((text.toList.splitOnP isSpace).filter (· ≠ [])).map String.ofList

namespace Json

def pushTokens : Json → List String
  | .number text => [text]
  | .bool value => [toString value]
  | .string text =>
    if trim text = "" then []
    else trim text :: (spaceSeparated (trim text)).filter (· ≠ trim text)
  | _ => []

def claimTokens : Json → List String
  | .array entries => entries.flatMap pushTokens
  | value => value.pushTokens

end Json

def claimMappingEnabled (policy : AuthProvisioningPolicy) : Bool :=
  policy.oidcAdminClaim.claim.isSome && !policy.oidcAdminClaim.adminValues.isEmpty

def claimGrantsAdmin (claims : JsonRecord) (policy : OidcAdminClaimPolicy) : Bool :=
  policy.claim.any fun path =>
    let tokens := (resolveClaimPath claims path).claimTokens.map toLowerCase
    policy.adminValues.any fun value => tokens.contains (toLowerCase (trim value))

end LowerCase

example : (Json.string "users loxep-admins").claimTokens =
    ["users loxep-admins", "users", "loxep-admins"] := by decide

/-!
## Sign-ins, side by side

A sign-in first runs the first-administrator bootstrap, which grants the role with its marker in one
transaction, and then maps the claims of the user's stored token to the role. Each statement sees
what is committed when it runs, and other sign-ins run between any two of them.
-/

abbrev UserId := ℕ

structure UserRow where
  id : UserId
  email : String
  role : Option String := none

structure AccountRow where
  userId : UserId
  providerId : String
  idToken : Option String := none

/-- The value under `auth.first_admin_bootstrap`. -/
structure FirstAdminBootstrapRecord where
  userId : UserId
  email : String

def oidcProviderId : String := "oidc"

/-- The two hooks that apply the mapping. -/
inductive ClaimRoleMoment
  | create
  | signIn
  deriving DecidableEq

inductive SignInStage
  | idle
  /-- `runFirstAdminBootstrap` looks for its marker. -/
  | bootstrapping (userId : UserId)
  /-- It reads the user. -/
  | matching (userId : UserId)
  /-- The email is the one that was named: it inserts the marker. -/
  | marking (record : FirstAdminBootstrapRecord)
  /-- It holds the marker, and grants the role and commits. -/
  | granting (record : FirstAdminBootstrapRecord)
  | readingPolicy (userId : UserId) (moment : ClaimRoleMoment)
  /-- `applyOidcClaimRole` reads the account. -/
  | mapping (userId : UserId) (policy : AuthProvisioningPolicy) (moment : ClaimRoleMoment)
  /-- It reads the user. -/
  | comparing (userId : UserId) (shouldBeAdmin : Bool) (moment : ClaimRoleMoment)
  | promoting (userId : UserId)
  /-- It counts the other administrators. -/
  | counting (userId : UserId)
  | demoting (userId : UserId)
  /-- `mayCreateUser` has allowed the user. -/
  | creating (user : UserRow)

abbrev SignInSessionId := ℕ

inductive SignInAction
  | signIn (session : SignInSessionId) (userId : UserId)
  | accountCreated (session : SignInSessionId) (userId : UserId)
  | createUser (session : SignInSessionId) (path : Option String) (userId : UserId) (email : String)
  | proceed (session : SignInSessionId)
  | crash (session : SignInSessionId)
  /-- The provider's callback stores the token it was given. -/
  | storeToken (account : AccountRow)
  | storePolicy (value : Json)

structure SignInSystem where
  users : List UserRow := []
  accounts : List AccountRow := []
  policy : Json := .null
  marker : Option FirstAdminBootstrapRecord := none
  markerLock : Option SignInSessionId := none
  stage : SignInSessionId → SignInStage := fun _ => .idle

/-- `LOXEP_BOOTSTRAP_ADMIN_EMAIL`, and how case is folded and the payload of a token decoded. -/
structure SignInConfig where
  bootstrapAdminEmail : Option String := none
  toLowerCase : String → String
  readPayload : String → Option Json

namespace SignInSystem

variable (s : SignInSystem) (config : SignInConfig)

def setStage (session : SignInSessionId) (stage : SignInStage) : SignInSystem :=
  { s with stage := fun other => if other = session then stage else s.stage other }

def findUser (userId : UserId) : Option UserRow := s.users.find? (·.id == userId)

def findAccount (userId : UserId) (providerId : String) : Option AccountRow :=
  s.accounts.find? fun account => account.userId == userId && account.providerId == providerId

/-- `update "user" set role = $2 where id = $1`. -/
def setRole (userId : UserId) (role : String) : SignInSystem :=
  { s with users := s.users.map fun user =>
      if user.id = userId then { user with role := some role } else user }

def installationHasAdmin : Bool := s.users.any fun user => isAdminColumn user.role

def countOtherAdmins (userId : UserId) : ℕ :=
  s.users.countP fun user => decide (user.id ≠ userId) && isAdminColumn user.role

def mayCreateUser (path : Option String) (email : Option String) : ProvisioningDecision :=
  if provisioningMethodForPath path = .admin then .allowed
  else decideProvisioning config.toLowerCase (provisioningMethodForPath path) email
    (parseProvisioningPolicy s.policy) s.installationHasAdmin

def appliesAt (policy : AuthProvisioningPolicy) (moment : ClaimRoleMoment) : Bool :=
  claimMappingEnabled policy &&
    decide (policy.oidcAdminClaim.applyOn = .create ↔ moment = .create)

/-- What `runFirstAdminBootstrap` does with the user it reads. -/
def matchedStage (userId : UserId) : SignInStage :=
  match s.findUser userId, config.bootstrapAdminEmail with
  | some user, some email =>
    if config.toLowerCase user.email = config.toLowerCase email then .marking ⟨user.id, user.email⟩
    else .readingPolicy userId .signIn
  | _, _ => .readingPolicy userId .signIn

/-- What `applyOidcClaimRole` does with the account it reads. -/
def mappedStage (userId : UserId) (policy : AuthProvisioningPolicy) (moment : ClaimRoleMoment) :
    SignInStage :=
  match s.findAccount userId oidcProviderId with
  | none => .idle
  | some account => match decodeIdTokenClaims config.readPayload account.idToken with
    | none => .idle
    | some claims =>
      .comparing userId (claimGrantsAdmin config.toLowerCase claims policy.oidcAdminClaim) moment

def comparedStage (userId : UserId) (shouldBeAdmin : Bool) (moment : ClaimRoleMoment) :
    SignInStage :=
  match s.findUser userId with
  | none => .idle
  | some user =>
    if shouldBeAdmin = hasRole user.role .admin then .idle
    else if shouldBeAdmin then .promoting userId
    else if moment = .create then .idle
    else .counting userId

def insertMarker (session : SignInSessionId) (record : FirstAdminBootstrapRecord) :
    SignInSystem :=
  if s.marker.isSome then s.setStage session (.readingPolicy record.userId .signIn)
  else if s.markerLock.any (· ≠ session) then s
  else { s.setStage session (.granting record) with markerLock := some session }

def commitGrant (session : SignInSessionId) (record : FirstAdminBootstrapRecord) : SignInSystem :=
  { (s.setRole record.userId "admin").setStage session .idle with
    marker := some record
    markerLock := none }

def insertUser (user : UserRow) : SignInSystem :=
  if s.users.any fun other => other.id == user.id || other.email == user.email then s
  else { s with users := s.users ++ [user] }

def proceed (session : SignInSessionId) : SignInSystem :=
  match s.stage session with
  | .idle => s
  | .bootstrapping userId =>
    s.setStage session
      (if s.marker.isSome then .readingPolicy userId .signIn else .matching userId)
  | .matching userId => s.setStage session (s.matchedStage config userId)
  | .marking record => s.insertMarker session record
  | .granting record => s.commitGrant session record
  | .readingPolicy userId moment =>
    let policy := parseProvisioningPolicy s.policy
    s.setStage session (if appliesAt policy moment then .mapping userId policy moment else .idle)
  | .mapping userId policy moment => s.setStage session (s.mappedStage config userId policy moment)
  | .comparing userId shouldBeAdmin moment =>
    s.setStage session (s.comparedStage userId shouldBeAdmin moment)
  | .promoting userId => (s.setRole userId "admin").setStage session .idle
  | .counting userId =>
    s.setStage session (if s.countOtherAdmins userId = 0 then .idle else .demoting userId)
  | .demoting userId => (s.setRole userId "member").setStage session .idle
  | .creating user => (s.insertUser user).setStage session .idle

def firstStage (userId : UserId) : SignInStage :=
  if config.bootstrapAdminEmail.isSome then .bootstrapping userId else .readingPolicy userId .signIn

def begin (session : SignInSessionId) (stage : SignInStage) : SignInSystem :=
  match s.stage session with
  | .idle => s.setStage session stage
  | _ => s

def step : SignInAction → SignInSystem
  | .signIn session userId => s.begin session (firstStage config userId)
  | .accountCreated session userId => s.begin session (.readingPolicy userId .create)
  | .createUser session path userId email =>
    if s.mayCreateUser config path (some email) = .allowed then
      s.begin session (.creating { id := userId, email := email, role := some "member" })
    else s
  | .proceed session => s.proceed config session
  | .crash session =>
    { s.setStage session .idle with
      markerLock := if s.markerLock = some session then none else s.markerLock }
  | .storeToken account =>
    { s with accounts := account :: s.accounts.filter fun other =>
        !(other.userId == account.userId && other.providerId == account.providerId) }
  | .storePolicy value => { s with policy := value }

end SignInSystem

end Loxep

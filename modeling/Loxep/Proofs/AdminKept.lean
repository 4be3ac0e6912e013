import Loxep.SignInPolicy

/-!
# When the installation keeps an administrator

A demotion counts the other administrators first and is written later. The count reads the role
column its own way, and what it has counted may be demoted before the demotion is written. The
bootstrap grant happens once in any case.
-/

namespace Loxep

namespace SignInSystem

def HasAdmin (reading : Option String → Bool) (s : SignInSystem) : Prop :=
  ∃ user ∈ s.users, reading user.role = true

def actsAsAdmin (role : Option String) : Bool := hasRole role .admin

def grants (s : SignInSystem) : SignInAction → ℕ
  | .proceed session => match s.stage session with
    | .granting _ => 1
    | _ => 0
  | _ => 0

/-- Once there is an administrator for the database, or one for the guards, there always is, and the
bootstrap grants the role once at most. -/
structure AdminKept (config : SignInConfig) (s : SignInSystem) (actions : List SignInAction) :
    Prop where
  window : Runs.Persists (SignInSystem.step · config)
    (fun s => s.installationHasAdmin = true) s actions
  acting : Runs.Persists (SignInSystem.step · config) (HasAdmin actsAsAdmin) s actions
  granted : Runs.total (SignInSystem.step · config) grants s actions ≤ 1

/-- Someone else is an administrator, or no one is. -/
def spares (s : SignInSystem) (reading : Option String → Bool) (userId : UserId) : Bool :=
  s.users.any (fun user => decide (user.id ≠ userId) && reading user.role) ||
    s.users.all fun user => !reading user.role

def demotesSparing (s : SignInSystem) (reading : Option String → Bool) : SignInAction → Bool
  | .proceed session => match s.stage session with
    | .demoting userId => s.spares reading userId
    | _ => true
  | _ => true

variable {s : SignInSystem} {config : SignInConfig} {session : SignInSessionId}
variable {reading : Option String → Bool} {userId : UserId} {action : SignInAction}

theorem installationHasAdmin_iff : s.installationHasAdmin = true ↔ HasAdmin isAdminColumn s :=
  List.any_eq_true

theorem isAdminColumn_admin : isAdminColumn (some "admin") = true := by decide

theorem isAdminColumn_member : isAdminColumn (some "member") = false := by decide

theorem actsAsAdmin_admin : actsAsAdmin (some "admin") = true := by decide

theorem actsAsAdmin_member : actsAsAdmin (some "member") = false := by decide

theorem hasAdmin_promoted (hadmin : reading (some "admin") = true) (h : HasAdmin reading s) :
    HasAdmin reading (s.setRole userId "admin") := by
  obtain ⟨user, huser, hreading⟩ := h
  refine ⟨_, List.mem_map_of_mem huser, ?_⟩
  split_ifs
  · exact hadmin
  · exact hreading

theorem hasAdmin_demoted_iff (hmember : reading (some "member") = false) :
    HasAdmin reading (s.setRole userId "member") ↔
      ∃ user ∈ s.users, user.id ≠ userId ∧ reading user.role = true := by
  constructor
  · rintro ⟨_, hmem, hreading⟩
    obtain ⟨user, huser, rfl⟩ := List.mem_map.1 hmem
    split_ifs at hreading with hid
    · rw [hmember] at hreading
      cases hreading
    · exact ⟨user, huser, hid, hreading⟩
  · rintro ⟨user, huser, hid, hreading⟩
    refine ⟨user, ?_, hreading⟩
    exact List.mem_map.2 ⟨user, huser, if_neg hid⟩

theorem keeps_demoted_iff (hmember : reading (some "member") = false) :
    (HasAdmin reading s → HasAdmin reading (s.setRole userId "member")) ↔
      s.spares reading userId = true := by
  rw [hasAdmin_demoted_iff hmember, spares, Bool.or_eq_true, List.any_eq_true, List.all_eq_true]
  simp only [Bool.and_eq_true, decide_eq_true_eq, Bool.not_eq_true']
  constructor
  · intro h
    by_cases hhas : HasAdmin reading s
    · exact Or.inl (h hhas)
    · refine Or.inr fun user huser => Bool.eq_false_iff.2 fun hreading => ?_
      exact hhas ⟨user, huser, hreading⟩
  · rintro (hother | hnone) ⟨user, huser, hreading⟩
    · exact hother
    · rw [hnone user huser] at hreading
      cases hreading

variable {user : UserRow} {actions : List SignInAction} {moment : ClaimRoleMoment}

theorem hasAdmin_inserted (h : HasAdmin reading s) :
    HasAdmin reading (s.insertUser user) := by
  unfold insertUser
  split_ifs
  · exact h
  · obtain ⟨found, hfound, hreading⟩ := h
    exact ⟨found, List.mem_append_left _ hfound, hreading⟩

variable {stage : SignInStage} {record : FirstAdminBootstrapRecord}

theorem hasAdmin_begin (h : HasAdmin reading s) :
    HasAdmin reading (s.begin session stage) := by
  unfold begin
  split <;> exact h

theorem insertMarker_users :
    (s.insertMarker session record).users = s.users := by
  unfold insertMarker
  split_ifs <;> rfl

section

variable (hadmin : reading (some "admin") = true)
include hadmin

theorem proceed_keeps_iff (hmember : reading (some "member") = false) :
    (HasAdmin reading s → HasAdmin reading (s.proceed config session)) ↔
      s.demotesSparing reading (.proceed session) = true := by
  rcases hstage : s.stage session with _ | userId | userId | record | record | ⟨userId, moment⟩ |
    ⟨userId, policy, moment⟩ | ⟨userId, shouldBeAdmin, moment⟩ | userId | userId | userId | user
  case demoting =>
    simp only [proceed, demotesSparing, hstage]
    exact keeps_demoted_iff hmember
  case marking =>
    simp only [proceed, demotesSparing, hstage]
    unfold HasAdmin
    rw [insertMarker_users]
    exact iff_of_true id trivial
  case granting | promoting =>
    simp only [proceed, demotesSparing, hstage]
    exact iff_of_true (hasAdmin_promoted hadmin) trivial
  case creating =>
    simp only [proceed, demotesSparing, hstage]
    exact iff_of_true hasAdmin_inserted trivial
  all_goals
    simp only [proceed, demotesSparing, hstage]
    exact iff_of_true id trivial

theorem step_keeps_iff (hmember : reading (some "member") = false) :
    (HasAdmin reading s → HasAdmin reading (s.step config action)) ↔
      s.demotesSparing reading action = true := by
  cases action with
  | proceed session => exact proceed_keeps_iff hadmin hmember
  | signIn | accountCreated => exact iff_of_true hasAdmin_begin rfl
  | createUser session path userId email =>
    refine iff_of_true (fun h => ?_) rfl
    unfold step
    simp only
    split_ifs
    · exact hasAdmin_begin h
    · exact h
  | crash | storeToken | storePolicy => exact iff_of_true id rfl

theorem persists_hasAdmin_iff (hmember : reading (some "member") = false) :
    Runs.Persists (SignInSystem.step · config) (HasAdmin reading) s actions ↔
      Runs.Meets (SignInSystem.step · config)
        (fun s action => s.demotesSparing reading action = true) s actions := by
  have hany : ∀ (s : SignInSystem) (_ : SignInAction), True → True := fun _ _ _ => trivial
  rw [Runs.persists_iff_meets]
  exact Runs.meets_iff_meets hany (fun _ _ _ => step_keeps_iff hadmin hmember) trivial

end

def GrantHeld (s : SignInSystem) : Prop :=
  ∀ session record, s.stage session = .granting record →
    s.marker = none ∧ s.markerLock = some session

theorem grantHeld_setStage (h : GrantHeld s) (hstage : ∀ record, stage ≠ .granting record)
    : GrantHeld (s.setStage session stage) := by
  intro other record hother
  have heq : (if other = session then stage else s.stage other) = .granting record := hother
  split_ifs at heq
  · exact absurd heq (hstage record)
  · exact h other record heq

theorem grantHeld_insertMarker (h : GrantHeld s) :
    GrantHeld (s.insertMarker session record) := by
  unfold insertMarker
  split_ifs with hmarker hlock
  · exact grantHeld_setStage h nofun
  · exact h
  · intro other held hother
    have heq : (if other = session then SignInStage.granting record else s.stage other) =
        .granting held := hother
    have hnone : s.marker = none := Option.not_isSome_iff_eq_none.1 hmarker
    refine ⟨hnone, ?_⟩
    by_cases hsame : other = session
    · rw [hsame]
    · rw [if_neg hsame] at heq
      refine absurd ?_ hlock
      rw [(h other held heq).2]
      simpa using hsame

theorem grantHeld_released (h : GrantHeld s) (hstage : s.stage session = .granting record) :
    GrantHeld (s.commitGrant session record) := by
  intro other held hother
  have heq : (if other = session then SignInStage.idle else s.stage other) = .granting held :=
    hother
  split_ifs at heq with hsame
  have hlock := (h other held heq).2
  rw [(h session record hstage).2] at hlock
  exact absurd (Option.some.inj hlock).symm hsame

theorem grantHeld_crash (h : GrantHeld s) : GrantHeld (s.step config (.crash session)) := by
  intro other held hother
  have heq : (if other = session then SignInStage.idle else s.stage other) = .granting held :=
    hother
  split_ifs at heq with hsame
  obtain ⟨hmarker, hlock⟩ := h other held heq
  refine ⟨hmarker, ?_⟩
  show (if s.markerLock = some session then none else s.markerLock) = some other
  rw [hlock, if_neg]
  exact fun hsession => hsame (Option.some.inj hsession)

theorem matchedStage_ne_granting (record : FirstAdminBootstrapRecord) :
    s.matchedStage config userId ≠ .granting record := by
  unfold matchedStage
  split
  · split_ifs <;> nofun
  · nofun

theorem mappedStage_ne_granting {policy : AuthProvisioningPolicy}
    (record : FirstAdminBootstrapRecord) :
    s.mappedStage config userId policy moment ≠ .granting record := by
  unfold mappedStage
  split
  · nofun
  · split <;> nofun

theorem comparedStage_ne_granting {shouldBeAdmin : Bool} (record : FirstAdminBootstrapRecord) :
    s.comparedStage userId shouldBeAdmin moment ≠ .granting record := by
  unfold comparedStage
  split
  · nofun
  · split_ifs <;> nofun

theorem grantHeld_insertUser (h : GrantHeld s) :
    GrantHeld (s.insertUser user) := by
  unfold insertUser
  split_ifs <;> exact h

theorem grantHeld_proceed (h : GrantHeld s) : GrantHeld (s.proceed config session) := by
  rcases hstage : s.stage session with _ | userId | userId | record | record | ⟨userId, moment⟩ |
    ⟨userId, policy, moment⟩ | ⟨userId, shouldBeAdmin, moment⟩ | userId | userId | userId | user
  all_goals simp only [proceed, hstage]
  case idle => exact h
  case matching => exact grantHeld_setStage h matchedStage_ne_granting
  case marking => exact grantHeld_insertMarker h
  case granting => exact grantHeld_released h hstage
  case mapping => exact grantHeld_setStage h mappedStage_ne_granting
  case comparing => exact grantHeld_setStage h comparedStage_ne_granting
  case promoting | demoting =>
    have hset : ∀ role, GrantHeld (s.setRole userId role) := fun _ => h
    exact grantHeld_setStage (hset _) nofun
  case creating => exact grantHeld_setStage (grantHeld_insertUser h) nofun
  all_goals
    refine grantHeld_setStage h fun record => ?_
    split_ifs <;> nofun

theorem grantHeld_begin (h : GrantHeld s) (hstage : ∀ record, stage ≠ .granting record)
    : GrantHeld (s.begin session stage) := by
  unfold begin
  split
  · exact grantHeld_setStage h hstage
  · exact h

theorem grantHeld_step (h : GrantHeld s) : GrantHeld (s.step config action) := by
  cases action with
  | proceed session => exact grantHeld_proceed h
  | crash session => exact grantHeld_crash h
  | signIn session userId =>
    refine grantHeld_begin h fun record => ?_
    unfold firstStage
    split_ifs <;> nofun
  | accountCreated session userId => exact grantHeld_begin h nofun
  | createUser session path userId email =>
    unfold step
    simp only
    split_ifs
    · exact grantHeld_begin h nofun
    · exact h
  | storeToken | storePolicy => exact h

def marked (s : SignInSystem) : ℕ := if s.marker.isSome then 1 else 0

theorem marked_proceed (h : GrantHeld s) :
    (s.proceed config session).marked = s.marked + s.grants (.proceed session) := by
  rcases hstage : s.stage session with _ | userId | userId | record | record | ⟨userId, moment⟩ |
    ⟨userId, policy, moment⟩ | ⟨userId, shouldBeAdmin, moment⟩ | userId | userId | userId | user
  all_goals simp only [proceed, grants, hstage]
  case granting =>
    have hnone : s.marked = 0 := by
      rw [marked, (h session record hstage).1]
      rfl
    rw [hnone]
    rfl
  case marking =>
    unfold insertMarker
    split_ifs <;> rfl
  case creating =>
    unfold insertUser
    split_ifs <;> rfl
  all_goals rfl

theorem marked_begin : (s.begin session stage).marked = s.marked := by
  unfold begin
  split <;> rfl

theorem marked_step (h : GrantHeld s) :
    (s.step config action).marked = s.marked + s.grants action := by
  cases action with
  | proceed session => exact marked_proceed h
  | signIn | accountCreated => exact marked_begin
  | createUser session path userId email =>
    unfold step
    simp only
    split_ifs
    · exact marked_begin
    · rfl
  | crash | storeToken | storePolicy => rfl

theorem total_grants_le (h : GrantHeld s) :
    Runs.total (SignInSystem.step · config) grants s actions ≤ 1 := by
  have hrun : (Runs.run (SignInSystem.step · config) s actions).marked =
      s.marked + Runs.total (SignInSystem.step · config) grants s actions :=
    Runs.run_eq_add_total (fun _ _ h => grantHeld_step h) (fun _ _ h => marked_step h) h
  have hle : (Runs.run (SignInSystem.step · config) s actions).marked ≤ 1 := by
    unfold marked
    split_ifs <;> omega
  omega

theorem grantHeld_rest (hrest : ∀ session, s.stage session = .idle) : GrantHeld s := by
  intro session record hstage
  rw [hrest session] at hstage
  cases hstage

/-- The installation keeps its administrator exactly as long as every demotion, when it is written,
still spares one. -/
theorem admin_kept_iff {actions : List SignInAction} (hrest : ∀ session, s.stage session = .idle) :
    AdminKept config s actions ↔ Runs.Meets (SignInSystem.step · config) (fun s action =>
      s.demotesSparing isAdminColumn action = true ∧ s.demotesSparing actsAsAdmin action = true) s
        actions := by
  have hwindow : Runs.Persists (SignInSystem.step · config)
      (fun s => s.installationHasAdmin = true) s actions ↔ Runs.Persists
        (SignInSystem.step · config) (HasAdmin isAdminColumn) s actions := by
    simp only [installationHasAdmin_iff]
  rw [Runs.meets_and_iff, ← persists_hasAdmin_iff isAdminColumn_admin isAdminColumn_member,
    ← persists_hasAdmin_iff actsAsAdmin_admin actsAsAdmin_member]
  constructor
  · rintro ⟨hdatabase, hacting, -⟩
    exact ⟨hwindow.1 hdatabase, hacting⟩
  · rintro ⟨hdatabase, hacting⟩
    exact ⟨hwindow.2 hdatabase, hacting, total_grants_le (grantHeld_rest hrest)⟩

end SignInSystem

section Examples

def twoAdmins : SignInSystem where
  users :=
    [{ id := 1, email := "ada@example.com", role := some "admin" },
      { id := 2, email := "grace@example.com", role := some "admin" }]
  accounts :=
    [{ userId := 1, providerId := "oidc", idToken := some "h.p.s" },
      { userId := 2, providerId := "oidc", idToken := some "h.p.s" }]
  policy := .object [("oidcAdminClaim", .object
    [("claim", .string "groups"), ("adminValues", .array [.string "loxep-admins"]),
      ("applyOn", .string "every_sign_in")])]

def opsGroup : SignInConfig where
  toLowerCase := String.toLower
  readPayload := fun _ => some (.object [("groups", .array [.string "ops"])])

def demoteFirst : List SignInAction := .signIn 0 1 :: List.replicate 5 (.proceed 0)

theorem twoAdmins_kept : SignInSystem.AdminKept opsGroup twoAdmins demoteFirst := by
  refine (SignInSystem.admin_kept_iff fun _ => rfl).2 ?_
  decide +kernel

def demoteBoth : List SignInAction :=
  .signIn 0 1 :: .signIn 1 2 :: List.replicate 4 (.proceed 0) ++ List.replicate 4 (.proceed 1) ++
    [.proceed 0, .proceed 1]

theorem admins_lost : ¬ ∀ (config : SignInConfig) (s : SignInSystem) (actions : List SignInAction),
    (∀ session, s.stage session = .idle) → SignInSystem.AdminKept config s actions := by
  intro hall
  have hkept := hall opsGroup twoAdmins demoteBoth fun _ => rfl
  have hstart : twoAdmins.installationHasAdmin = true := by decide
  have hend : (Runs.run (SignInSystem.step · opsGroup) twoAdmins demoteBoth).installationHasAdmin =
      false := by decide +kernel
  have halong : Runs.Along (SignInSystem.step · opsGroup)
      (fun s => s.installationHasAdmin = true) twoAdmins demoteBoth := hkept.window.1 hstart
  rw [halong.last] at hend
  cases hend

end Examples

end Loxep

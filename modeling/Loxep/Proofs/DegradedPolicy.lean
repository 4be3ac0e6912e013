import Loxep.SignInPolicy

/-!
# A provisioning policy that is stored malformed

What the parser cannot make sense of becomes the closed default, entry by entry in a list. The
stances and the claim mapping only lose by that; an allowlist that loses all of its domains
restricts no one any more.
-/

namespace Loxep

variable {value value' : Json}

namespace Json

def Keeps (wellFormed : Json → Bool) (value value' : Json) : Prop :=
  value' = value ∨ wellFormed value' = false

def isStance (value : Json) : Bool :=
  match value with
  | .string "open" | .string "closed" => true
  | _ => false

def isMoment (value : Json) : Bool :=
  match value with
  | .string "create" | .string "every_sign_in" => true
  | _ => false

def isText (value : Json) : Bool := value.asText.isSome

def KeepsEntries (value value' : Json) : Prop :=
  ∀ entries', value' = .array entries' →
    ∃ entries, value = .array entries ∧ List.Forall₂ (Keeps isText) entries entries'

def KeepsFields (fields : List (String × (Json → Json → Prop))) (value value' : Json) : Prop :=
  ∀ record', value'.asRecord = some record' → ∃ record, value.asRecord = some record ∧
    ∀ f ∈ fields, f.2 (record.field f.1) (record'.field f.1)

def Degrades : Json → Json → Prop :=
  KeepsFields [
    ("newUsers", KeepsFields [("magicLink", Keeps isStance), ("oidc", Keeps isStance)]),
    ("magicLinkEmailDomains", KeepsEntries),
    ("oidcAdminClaim", KeepsFields [("claim", Keeps isText), ("adminValues", KeepsEntries),
      ("applyOn", Keeps isMoment)])]

def child (value : Json) (key : String) : Json := (value.asRecord.getD []).field key

variable {fields : List (String × (Json → Json → Prop))} {key : String} {R : Json → Json → Prop}

theorem KeepsFields.child (h : KeepsFields fields value value') (hkey : (key, R) ∈ fields)
    : R (value.child key) (value'.child key) ∨
      value'.child key = .null := by
  rcases hrecord' : value'.asRecord with _ | record'
  · exact .inr (by rw [Json.child, hrecord']; rfl)
  · obtain ⟨record, hrecord, hfields⟩ := h record' hrecord'
    refine .inl ?_
    rw [Json.child, Json.child, hrecord, hrecord']
    exact hfields _ hkey

theorem KeepsFields.grandchild {inner : List (String × (Json → Json → Prop))}
    (h : KeepsFields fields value value') {key' : String} (hkey : (key, KeepsFields inner) ∈ fields)
    (hkey' : (key', R) ∈ inner) :
    R ((value.child key).child key') ((value'.child key).child key') ∨
      (value'.child key).child key' = .null := by
  rcases h.child hkey with hinner | hnull
  · exact hinner.child hkey'
  · exact .inr (by rw [hnull]; rfl)

theorem stance_of_keeps (h : Keeps isStance value value') (hopen : value'.stance = .opened) :
    value.stance = .opened := by
  rcases h with rfl | hmalformed
  · exact hopen
  · unfold stance at hopen
    split at hopen
    · exact absurd hmalformed (by decide)
    · exact absurd hopen (by decide)

theorem asText_of_keeps (h : Keeps isText value value') {text : String}
    (htext : value'.asText = some text) : value.asText = some text := by
  rcases h with rfl | hmalformed
  · exact htext
  · rw [isText, htext] at hmalformed
    cases hmalformed

theorem stringList_of_keeps (h : KeepsEntries value value') :
    ∀ text ∈ value'.stringList, text ∈ value.stringList := by
  intro text htext
  unfold stringList at htext
  split at htext
  · next entries' =>
    obtain ⟨entries, rfl, hentries⟩ := h entries' rfl
    obtain ⟨entry', hentry', hread⟩ := List.mem_filterMap.1 htext
    obtain ⟨i, hi, rfl⟩ := List.getElem_of_mem hentry'
    have hi' : i < entries.length := hentries.length_eq ▸ hi
    exact List.mem_filterMap.2 ⟨entries[i], List.getElem_mem hi',
      asText_of_keeps (hentries.get hi' hi) hread⟩
  · exact absurd htext List.not_mem_nil

end Json

/-- The second policy admits and maps no more than the first, its allowlist aside. -/
structure AuthProvisioningPolicy.Narrows (policy policy' : AuthProvisioningPolicy) : Prop where
  magicLink : policy'.newUsers.magicLink = .opened → policy.newUsers.magicLink = .opened
  oidc : policy'.newUsers.oidc = .opened → policy.newUsers.oidc = .opened
  domains : ∀ domain ∈ policy'.magicLinkEmailDomains, domain ∈ policy.magicLinkEmailDomains
  claim : ∀ path, policy'.oidcAdminClaim.claim = some path → policy.oidcAdminClaim.claim = some path
  adminValues : ∀ text ∈ policy'.oidcAdminClaim.adminValues,
    text ∈ policy.oidcAdminClaim.adminValues

theorem parse_fields (value : Json) :
    (parseProvisioningPolicy value).newUsers.magicLink =
      ((value.child "newUsers").child "magicLink").stance ∧
    (parseProvisioningPolicy value).newUsers.oidc =
      ((value.child "newUsers").child "oidc").stance ∧
    (parseProvisioningPolicy value).magicLinkEmailDomains =
      (value.child "magicLinkEmailDomains").stringList ∧
    (parseProvisioningPolicy value).oidcAdminClaim.claim =
      ((value.child "oidcAdminClaim").child "claim").asText ∧
    (parseProvisioningPolicy value).oidcAdminClaim.adminValues =
      ((value.child "oidcAdminClaim").child "adminValues").stringList := by
  unfold parseProvisioningPolicy Json.child
  rcases value.asRecord with _ | record
  · exact ⟨rfl, rfl, rfl, rfl, rfl⟩
  · exact ⟨rfl, rfl, rfl, rfl, rfl⟩

theorem narrows_of_degrades (h : Json.Degrades value value') :
    (parseProvisioningPolicy value).Narrows (parseProvisioningPolicy value') := by
  obtain ⟨hmagic, hoidc, hdomains, hclaim, hvalues⟩ := parse_fields value
  obtain ⟨hmagic', hoidc', hdomains', hclaim', hvalues'⟩ := parse_fields value'
  refine ⟨?_, ?_, ?_, ?_, ?_⟩
  · rw [hmagic, hmagic']
    intro hopen
    rcases Json.KeepsFields.grandchild h (.head _) (.head _) with hkeeps | hnull
    · exact Json.stance_of_keeps hkeeps hopen
    · exact absurd (hnull ▸ hopen) (by decide)
  · rw [hoidc, hoidc']
    intro hopen
    rcases Json.KeepsFields.grandchild h (.head _) (.tail _ (.head _)) with hkeeps | hnull
    · exact Json.stance_of_keeps hkeeps hopen
    · exact absurd (hnull ▸ hopen) (by decide)
  · rw [hdomains, hdomains']
    rcases Json.KeepsFields.child h (.tail _ (.head _)) with hkeeps | hnull
    · exact Json.stringList_of_keeps hkeeps
    · rw [hnull]
      exact fun _ hmem => absurd hmem List.not_mem_nil
  · rw [hclaim, hclaim']
    intro path hpath
    rcases Json.KeepsFields.grandchild h (.tail _ (.tail _ (.head _))) (.head _) with
      hkeeps | hnull
    · exact Json.asText_of_keeps hkeeps hpath
    · rw [hnull] at hpath
      cases hpath
  · rw [hvalues, hvalues']
    rcases Json.KeepsFields.grandchild h (.tail _ (.tail _ (.head _))) (.tail _ (.head _)) with
      hkeeps | hnull
    · exact Json.stringList_of_keeps hkeeps
    · rw [hnull]
      exact fun _ hmem => absurd hmem List.not_mem_nil

variable {toLowerCase : String → String}

theorem emailDomainAllowed_of_subset {domains domains' : List String} {email : String}
    (hdomains : ∀ domain ∈ domains', domain ∈ domains) (hleft : domains = [] ∨ domains' ≠ [])
    (h : emailDomainAllowed toLowerCase email domains' = true) :
    emailDomainAllowed toLowerCase email domains = true := by
  unfold Loxep.emailDomainAllowed at h ⊢
  rcases hleft with rfl | hleft
  · rfl
  · rw [List.isEmpty_eq_false_iff.2 hleft, Bool.false_or] at h
    refine Bool.or_eq_true_iff.2 (.inr ?_)
    split at h
    · cases h
    · obtain ⟨allowed, hallowed, hsame⟩ := List.any_eq_true.1 h
      exact List.any_eq_true.2 ⟨allowed, hdomains allowed hallowed, hsame⟩

variable {policy policy' : AuthProvisioningPolicy} {method : ProvisioningMethod}
  {email : Option String}

theorem AuthProvisioningPolicy.Narrows.claimGrantsAdmin (h : policy.Narrows policy')
    {claims : JsonRecord}
    (hgrants : claimGrantsAdmin toLowerCase claims policy'.oidcAdminClaim = true) :
    claimGrantsAdmin toLowerCase claims policy.oidcAdminClaim = true := by
  unfold Loxep.claimGrantsAdmin at hgrants ⊢
  obtain ⟨path, hpath, hany⟩ := (Option.any_eq_true _ _).1 hgrants
  obtain ⟨text, htext, htoken⟩ := List.any_eq_true.1 hany
  refine (Option.any_eq_true _ _).2 ⟨path, h.claim path hpath, ?_⟩
  exact List.any_eq_true.2 ⟨text, h.adminValues text htext, htoken⟩

theorem decideProvisioning_allowed :
    decideProvisioning toLowerCase method email policy true = .allowed ↔ match method with
      | .admin => True
      | .magicLink => policy.newUsers.magicLink = .opened ∧
          ∀ address ∈ email,
            emailDomainAllowed toLowerCase address policy.magicLinkEmailDomains = true
      | .oidc => policy.newUsers.oidc = .opened
      | .unknown => policy.newUsers.magicLink = .opened ∨ policy.newUsers.oidc = .opened := by
  have hstance : ∀ stance : ProvisioningStance, ¬ stance = .closed ↔ stance = .opened := by
    rintro (_ | _) <;> simp
  cases method with
  | admin => simp [decideProvisioning]
  | magicLink =>
    cases email with
    | none => simp [decideProvisioning, ← hstance]
    | some address =>
      by_cases hclosed : policy.newUsers.magicLink = .closed
      · simp [decideProvisioning, ← hstance, hclosed]
      · rcases hmay : emailDomainAllowed toLowerCase address policy.magicLinkEmailDomains with _ | _
        · simp [decideProvisioning, hclosed, hmay]
        · simp [decideProvisioning, ← hstance, hclosed, hmay]
  | oidc => simp [decideProvisioning, ← hstance]
  | unknown => simp [decideProvisioning, ← hstance, imp_iff_not_or]

theorem AuthProvisioningPolicy.Narrows.decideProvisioning (h : policy.Narrows policy')
    (hleft : policy'.newUsers.magicLink = .opened →
      policy.magicLinkEmailDomains = [] ∨ policy'.magicLinkEmailDomains ≠ [])
    (hallowed : decideProvisioning toLowerCase method email policy' true = .allowed) :
    decideProvisioning toLowerCase method email policy true = .allowed := by
  rw [decideProvisioning_allowed] at hallowed ⊢
  cases method with
  | admin => trivial
  | magicLink =>
    obtain ⟨hopen, hall⟩ := hallowed
    exact ⟨h.magicLink hopen, fun address haddress =>
      emailDomainAllowed_of_subset h.domains (hleft hopen) (hall address haddress)⟩
  | oidc => exact h.oidc hallowed
  | unknown => exact hallowed.imp h.magicLink h.oidc

def EmptiesAllowlist (value value' : Json) : Prop :=
  ((value'.child "newUsers").child "magicLink").stance = .opened ∧
    (value.child "magicLinkEmailDomains").stringList ≠ [] ∧
    (value'.child "magicLinkEmailDomains").stringList = []

theorem degrades_towards_closed_iff (h : Json.Degrades value value') :
    (∀ method email claims,
      (decideProvisioning toLowerCase method email (parseProvisioningPolicy value') true =
          .allowed →
        decideProvisioning toLowerCase method email (parseProvisioningPolicy value) true =
          .allowed) ∧
      (claimGrantsAdmin toLowerCase claims (parseProvisioningPolicy value').oidcAdminClaim = true →
        claimGrantsAdmin toLowerCase claims (parseProvisioningPolicy value).oidcAdminClaim =
          true)) ↔
    ¬ EmptiesAllowlist value value' := by
  have hnarrows := narrows_of_degrades h
  obtain ⟨hmagic', -, hdomains', -, -⟩ := parse_fields value'
  obtain ⟨-, -, hdomains, -, -⟩ := parse_fields value
  constructor
  · rintro hall ⟨hopen, hsome, hnone⟩
    rw [← hmagic'] at hopen
    rw [← hdomains, ← List.isEmpty_eq_false_iff] at hsome
    rw [← hdomains'] at hnone
    have hadmitted : decideProvisioning toLowerCase .magicLink (some "")
        (parseProvisioningPolicy value') true = .allowed := by
      rw [decideProvisioning_allowed, hnone]
      exact ⟨hopen, fun _ _ => rfl⟩
    have hrefused := (decideProvisioning_allowed.1 ((hall .magicLink (some "") []).1 hadmitted)).2
      "" rfl
    have hnowhere : emailDomain toLowerCase "" = none := rfl
    rw [emailDomainAllowed, hsome, hnowhere] at hrefused
    exact absurd hrefused Bool.false_ne_true
  · intro hkeeps method email claims
    refine ⟨hnarrows.decideProvisioning fun hopen => ?_, hnarrows.claimGrantsAdmin⟩
    by_contra hlost
    rw [not_or, not_not, hdomains, hdomains'] at hlost
    exact hkeeps ⟨hmagic' ▸ hopen, hlost⟩

def storedPolicy (magicLink domain : Json) : Json :=
  .object [("newUsers", .object [("magicLink", magicLink), ("oidc", .string "closed")]),
    ("magicLinkEmailDomains", .array [domain]),
    ("oidcAdminClaim", .object [("claim", .null), ("adminValues", .array []),
      ("applyOn", .string "create")])]

theorem storedPolicy_degrades {magicLink magicLink' domain domain' : Json}
    (hmagic : Json.Keeps Json.isStance magicLink magicLink')
    (hdomain : Json.Keeps Json.isText domain domain') :
    Json.Degrades (storedPolicy magicLink domain) (storedPolicy magicLink' domain') := by
  rintro record' ⟨⟩
  refine ⟨_, rfl, ?_⟩
  simp only [List.forall_mem_cons, List.not_mem_nil, false_imp_iff, implies_true, and_true]
  refine ⟨?_, ?_, ?_⟩
  · rintro record' ⟨⟩
    refine ⟨_, rfl, ?_⟩
    simp only [List.forall_mem_cons, List.not_mem_nil, false_imp_iff, implies_true, and_true]
    exact ⟨hmagic, .inl rfl⟩
  · rintro entries' ⟨⟩
    exact ⟨_, rfl, .cons hdomain .nil⟩
  · rintro record' ⟨⟩
    refine ⟨_, rfl, ?_⟩
    simp only [List.forall_mem_cons, List.not_mem_nil, false_imp_iff, implies_true, and_true]
    refine ⟨.inl rfl, ?_, .inl rfl⟩
    rintro entries' ⟨⟩
    exact ⟨_, rfl, .nil⟩

theorem degraded_allowlist_opens :
    Json.Degrades (storedPolicy (.string "open") (.string "example.com"))
      (storedPolicy (.string "open") (.number "5")) ∧
    decideProvisioning String.toLower .magicLink (some "eve@evil.test")
      (parseProvisioningPolicy (storedPolicy (.string "open") (.string "example.com"))) true =
        .denied .emailDomainNotAllowed ∧
    decideProvisioning String.toLower .magicLink (some "eve@evil.test")
      (parseProvisioningPolicy (storedPolicy (.string "open") (.number "5"))) true = .allowed := by
  refine ⟨storedPolicy_degrades (.inl rfl) (.inr rfl), ?_, ?_⟩
  · decide +kernel
  · decide +kernel

theorem unknown_stance_closes :
    let stored := storedPolicy (.string "open") (.string "example.com")
    let degraded := storedPolicy (.string "ajar") (.string "example.com")
    ∀ method email,
      decideProvisioning String.toLower method email (parseProvisioningPolicy degraded) true =
        .allowed →
      decideProvisioning String.toLower method email (parseProvisioningPolicy stored) true =
        .allowed :=
  fun method email =>
    ((degrades_towards_closed_iff (storedPolicy_degrades (.inr rfl) (.inl rfl))).2
      (fun h => absurd h.1 (by decide)) method email []).1

end Loxep

import Loxep.IpAliases

/-!
# What a fan-out retires

An address change is planned as a rule to add and, where a live rule of the previous address is
observed, one to retire. Observed rules are told apart by action, match and literal value only, so a
rule of another origin can be the one found.
-/

namespace Loxep

def IpAliasFanOutRuleAction.retires (action : IpAliasFanOutRuleAction) :
    Option (ProxyResourceId × String) :=
  action.retire.map fun r => (action.proxyResourceId, r.externalRuleId)

namespace AliasFanOut

abbrev ProviderRules := List (ProxyResourceId × ObservedProxyRule)

def carryOutAdds (actions : List IpAliasFanOutRuleAction) (given : List String)
    (rules : ProviderRules) : ProviderRules :=
  rules ++ (actions.zip given).map fun entry => (entry.1.proxyResourceId, ⟨entry.1.add, entry.2⟩)

def carryOutRetires (actions : List IpAliasFanOutRuleAction) (rules : ProviderRules) :
    ProviderRules :=
  actions.foldl (fun rules action => rules.map fun row =>
    match action.retire with
    | some r => if (row.1, row.2.externalRuleId) = (action.proxyResourceId, r.externalRuleId)
        then (row.1, r) else row
    | none => row) rules

variable {input : IpAliasFanOutInput} {resource : IpAliasFanOutResourceInput}
  {rule : IpAliasFanOutRuleInput}

theorem observedRule_eq_some {r : ObservedProxyRule} :
    input.observedRule resource rule = some r → input.live rule r = true ∧
      ∃ rules, resource.observed = some rules ∧ r ∈ rules := by
  intro h
  obtain ⟨rules, hrules, hfind⟩ := Option.bind_eq_some_iff.1 h
  exact ⟨List.find?_some hfind, rules, hrules, List.mem_of_find?_eq_some hfind⟩

def OwnFirst (own : ProxyResourceId → String → Prop) (input : IpAliasFanOutInput) : Prop :=
  ∀ entry ∈ input.entries, ∀ before r after, entry.1.observed = some (before ++ r :: after) →
    input.live entry.2 r = true → ¬ own entry.1.proxyResourceId r.externalRuleId →
    ∃ r' ∈ before, input.live entry.2 r' = true ∧
      own entry.1.proxyResourceId r'.externalRuleId

def Apart (input : IpAliasFanOutInput) : Prop :=
  input.entries.Pairwise fun a b => a.1.proxyResourceId = b.1.proxyResourceId →
    a.2.action = b.2.action → a.2.match_ = b.2.match_ →
    ∀ rules, a.1.observed = some rules → ∀ r ∈ rules, input.live a.2 r = false

/-- One observed state for a resource, in which the identifiers tell the rules apart. -/
structure Observed (input : IpAliasFanOutInput) : Prop where
  same : ∀ a ∈ input.resources, ∀ b ∈ input.resources,
    a.proxyResourceId = b.proxyResourceId → a.observed = b.observed
  distinct : ∀ a ∈ input.resources, ∀ rules, a.observed = some rules →
    (rules.map (·.externalRuleId)).Nodup

theorem mem_resources_of_entry {entry : IpAliasFanOutResourceInput × IpAliasFanOutRuleInput}
    (h : entry ∈ input.entries) : entry.1 ∈ input.resources := by
  obtain ⟨resource, hresource, hmem⟩ := List.mem_flatMap.1 h
  obtain ⟨rule, -, rfl⟩ := List.mem_map.1 hmem
  exact hresource

theorem retires_own_iff {own : ProxyResourceId → String → Prop} :
    (∀ entry ∈ input.entries, ∀ r, input.observedRule entry.1 entry.2 = some r →
      own entry.1.proxyResourceId r.externalRuleId) ↔ OwnFirst own input := by
  constructor
  · intro h entry hentry before r after hobserved hlive hforeign
    have hfind : input.observedRule entry.1 entry.2 =
        (before ++ r :: after).find? (input.live entry.2) := by
      rw [IpAliasFanOutInput.observedRule, hobserved, Option.bind_some]
    rw [List.find?_append] at hfind
    rcases hbefore : before.find? (input.live entry.2) with _ | r'
    · rw [hbefore, Option.none_or, List.find?_cons_of_pos hlive] at hfind
      exact absurd (h entry hentry r hfind) hforeign
    · rw [hbefore, Option.some_or] at hfind
      exact ⟨r', List.mem_of_find?_eq_some hbefore, List.find?_some hbefore,
        h entry hentry r' hfind⟩
  · intro h entry hentry r hfound
    obtain ⟨rules, hrules, hfind⟩ := Option.bind_eq_some_iff.1 hfound
    obtain ⟨hlive, before, after, rfl, hbefore⟩ := List.find?_eq_some_iff_append.1 hfind
    by_contra hforeign
    obtain ⟨r', hmem, hlive', -⟩ := h entry hentry before r after hrules hlive hforeign
    simpa [hlive'] using hbefore r' hmem

theorem same_retire_iff (h : Observed input)
    {a b : IpAliasFanOutResourceInput × IpAliasFanOutRuleInput} (ha : a ∈ input.entries)
    (hb : b ∈ input.entries) :
    (∀ x ∈ (input.action a.1 a.2).retires, ∀ y ∈ (input.action b.1 b.2).retires, x ≠ y) ↔
      (a.1.proxyResourceId = b.1.proxyResourceId → a.2.action = b.2.action →
        a.2.match_ = b.2.match_ →
        ∀ rules, a.1.observed = some rules → ∀ r ∈ rules, input.live a.2 r = false) := by
  have hretires : ∀ entry : IpAliasFanOutResourceInput × IpAliasFanOutRuleInput, ∀ x,
      x ∈ (input.action entry.1 entry.2).retires ↔
        ∃ r, input.observedRule entry.1 entry.2 = some r ∧
          (entry.1.proxyResourceId, r.externalRuleId) = x := by
    intro entry x
    simp [IpAliasFanOutRuleAction.retires, IpAliasFanOutInput.action]
  constructor
  · intro hne hid haction hmatch rules hrules r hr
    by_contra hlive
    have hsame : input.live b.2 = input.live a.2 := by
      funext r
      rw [IpAliasFanOutInput.live, IpAliasFanOutInput.live, haction, hmatch]
    have hfind : ∃ r', input.observedRule a.1 a.2 = some r' := by
      rw [IpAliasFanOutInput.observedRule, hrules, Option.bind_some]
      exact Option.isSome_iff_exists.1 (List.find?_isSome.2 ⟨r, hr, by simpa using hlive⟩)
    obtain ⟨r', hr'⟩ := hfind
    refine hne _ ((hretires a _).2 ⟨r', hr', rfl⟩) _ ((hretires b _).2 ⟨r', ?_, rfl⟩) (by rw [hid])
    rw [← hr', IpAliasFanOutInput.observedRule, IpAliasFanOutInput.observedRule, hsame,
      h.same _ (mem_resources_of_entry ha) _ (mem_resources_of_entry hb) hid]
  · intro happart x hx y hy heq
    obtain ⟨r, hr, rfl⟩ := (hretires a x).1 hx
    obtain ⟨r', hr', rfl⟩ := (hretires b y).1 hy
    obtain ⟨hid, hrule⟩ := Prod.ext_iff.1 heq
    obtain ⟨hlive, rules, hrules, hmem⟩ := observedRule_eq_some hr
    obtain ⟨hlive', rules', hrules', hmem'⟩ := observedRule_eq_some hr'
    have hsame := h.same _ (mem_resources_of_entry ha) _ (mem_resources_of_entry hb) hid
    rw [hsame, hrules', Option.some_inj] at hrules
    subst hrules
    obtain rfl := List.inj_on_of_nodup_map
      (h.distinct _ (mem_resources_of_entry hb) _ hrules') hmem hmem' hrule
    simp only [IpAliasFanOutInput.live, Bool.and_eq_true, beq_iff_eq] at hlive hlive'
    have := happart hid (hlive.1.1.2.symm.trans hlive'.1.1.2) (hlive.1.2.symm.trans hlive'.1.2)
      rules' (hsame.trans hrules') r hmem
    simp only [IpAliasFanOutInput.live, hlive.1.1.1, hlive.1.1.2, hlive.1.2, hlive.2] at this
    simp at this

theorem retires_once_iff (h : Observed input) :
    ((planIpAliasFanOut input).actions.filterMap (·.retires)).Nodup ↔ Apart input := by
  rw [List.Nodup, List.pairwise_filterMap, planIpAliasFanOut, List.pairwise_map]
  exact List.Pairwise.iff_of_mem fun ha hb => same_retire_iff h ha hb

variable {actions : List IpAliasFanOutRuleAction}

theorem mem_carryOutRetires {rules : ProviderRules} {row : ProxyResourceId × ObservedProxyRule}
    (hrow : row ∈ rules)
    (hkept : ∀ action ∈ actions, ∀ x ∈ action.retires, x ≠ (row.1, row.2.externalRuleId)) :
    row ∈ carryOutRetires actions rules := by
  induction actions generalizing rules with
  | nil => exact hrow
  | cons action actions ih =>
    refine ih (List.mem_map.2 ⟨row, hrow, ?_⟩) fun a ha => hkept a (List.mem_cons_of_mem _ ha)
    rcases hretire : action.retire with _ | r
    · rfl
    · exact if_neg fun heq => hkept action (by simp) _
        (by simp [IpAliasFanOutRuleAction.retires, hretire]) heq.symm

theorem exists_added {given : List String} (hlength : given.length = actions.length)
    {action : IpAliasFanOutRuleAction} (h : action ∈ actions)
    : ∃ id ∈ given, (action, id) ∈ actions.zip given := by
  obtain ⟨i, hi, rfl⟩ := List.getElem_of_mem h
  refine ⟨given[i], List.getElem_mem _, List.mem_iff_getElem.2 ⟨i, ?_, List.getElem_zip⟩⟩
  rw [List.length_zip, hlength, min_self]
  exact hi

/-- The plan retires enabled rules that come from the alias, each once, and what carrying it out
leaves has every enabled dynamic rule at the new address. `own` tells which rules come from the
alias, `given` are the identifiers the provider gives to what is added. -/
structure RetiresReplaced (own : ProxyResourceId → String → Prop) (input : IpAliasFanOutInput)
    (rules : ProviderRules) (given : List String) : Prop where
  replaced : ∀ entry ∈ input.entries, ∀ r ∈ (input.action entry.1 entry.2).retire,
    ∃ observed, entry.1.observed = some observed ∧ { r with enabled := true } ∈ observed ∧
      own entry.1.proxyResourceId r.externalRuleId
  once : ((planIpAliasFanOut input).actions.filterMap (·.retires)).Nodup
  added : ∀ entry ∈ input.entries, entry.2.enabled = true →
    ∃ row ∈ carryOutRetires (planIpAliasFanOut input).actions
      (carryOutAdds (planIpAliasFanOut input).actions given rules),
    row.1 = entry.1.proxyResourceId ∧ row.2.enabled = true ∧ row.2.action = entry.2.action ∧
      row.2.match_ = entry.2.match_ ∧ row.2.value = ipAliasCidrValue input.newAddress

/-- For every change of an address and all rules, exactly if a live rule of the alias is observed
before each live rule of another origin, and no two dynamic rules share a live rule. -/
theorem planIpAliasFanOut_retires (own : ProxyResourceId → String → Prop) (h : Observed input)
    (rules : ProviderRules) {given : List String}
    (hlength : given.length = (planIpAliasFanOut input).actions.length)
    (hfresh : ∀ a ∈ input.resources, ∀ observed, a.observed = some observed →
      ∀ r ∈ observed, r.externalRuleId ∉ given) :
    RetiresReplaced own input rules given ↔ OwnFirst own input ∧ Apart input := by
  rw [← retires_own_iff, ← retires_once_iff h]
  constructor
  · rintro ⟨hreplaced, honce, -⟩
    refine ⟨fun entry hentry r hfound => ?_, honce⟩
    obtain ⟨-, -, -, hown⟩ := hreplaced entry hentry _ (Option.map_eq_some_iff.2 ⟨r, hfound, rfl⟩)
    exact hown
  · rintro ⟨hown, honce⟩
    refine ⟨fun entry hentry r hr => ?_, honce, fun entry hentry henabled => ?_⟩
    · obtain ⟨r, hfound, rfl⟩ := Option.map_eq_some_iff.1 hr
      obtain ⟨hlive, observed, hobserved, hmem⟩ := observedRule_eq_some hfound
      simp only [IpAliasFanOutInput.live, Bool.and_eq_true] at hlive
      refine ⟨observed, hobserved, ?_, hown entry hentry r hfound⟩
      rw [← hlive.1.1.1]
      exact hmem
    · have haction : input.action entry.1 entry.2 ∈ (planIpAliasFanOut input).actions :=
        List.mem_map_of_mem hentry
      obtain ⟨id, hid, hzip⟩ := exists_added hlength haction
      refine ⟨(entry.1.proxyResourceId, ⟨(input.action entry.1 entry.2).add, id⟩),
        mem_carryOutRetires (List.mem_append_right _ (List.mem_map.2 ⟨_, hzip, rfl⟩)) ?_,
        rfl, henabled, rfl, rfl, rfl⟩
      -- what is retired was observed, and the provider gives no identifier twice
      rintro action hmem x hx rfl
      obtain ⟨other, hother, rfl⟩ := List.mem_map.1 hmem
      obtain ⟨r, hr, heq⟩ := Option.map_eq_some_iff.1 hx
      obtain ⟨r, hfound, rfl⟩ := Option.map_eq_some_iff.1 hr
      obtain ⟨-, observed, hobserved, hmem⟩ := observedRule_eq_some hfound
      obtain rfl : r.externalRuleId = id := (Prod.ext_iff.1 heq).2
      exact hfresh _ (mem_resources_of_entry hother) _ hobserved r hmem hid

def handWritten : ObservedProxyRule := ⟨⟨"ACCEPT", "CIDR", "203.0.113.4/32", 10, true⟩, "900"⟩

def materialized : ObservedProxyRule := ⟨⟨"ACCEPT", "CIDR", "203.0.113.4/32", 100, true⟩, "901"⟩

def moved (observed : List ObservedProxyRule) (enabled : Bool) : IpAliasFanOutInput where
  aliasName := "home"
  previousAddress := some "203.0.113.4"
  newAddress := "203.0.113.7"
  resources := [⟨1, some observed, [⟨"ACCEPT", "CIDR", 100, enabled⟩]⟩]

/-- The dynamic rule is switched off; nothing of the alias is live. -/
theorem hand_written_retired : ¬ ∀ (own : ProxyResourceId → String → Prop)
    (input : IpAliasFanOutInput) (rules : ProviderRules) (given : List String), Observed input →
    given.length = (planIpAliasFanOut input).actions.length →
    (∀ a ∈ input.resources, ∀ observed, a.observed = some observed →
      ∀ r ∈ observed, r.externalRuleId ∉ given) → RetiresReplaced own input rules given := by
  intro hall
  obtain ⟨hreplaced, -, -⟩ := hall (fun _ rule => rule = "901") (moved [handWritten] false) []
    ["902"] ⟨by simp [moved], by simp [moved]⟩ rfl (by simp [moved, handWritten])
  obtain ⟨-, -, -, hown⟩ := hreplaced _ (List.mem_singleton.2 rfl)
    { handWritten with enabled := false } (by decide)
  revert hown
  decide

theorem moved_alias_retires_own :
    RetiresReplaced (fun _ rule => rule = "901") (moved [materialized, handWritten] true)
      [(1, materialized), (1, handWritten)] ["902"] := by
  refine (planIpAliasFanOut_retires _ ⟨by simp [moved], ?_⟩ _ rfl ?_).2 ⟨?_, ?_⟩
  · simp [moved, materialized, handWritten]
  · simp [moved, materialized, handWritten]
  · rw [← retires_own_iff]
    intro entry hentry r hr
    obtain rfl := List.mem_singleton.1 hentry
    have hfirst : (moved [materialized, handWritten] true).observedRule
        ⟨1, some [materialized, handWritten], [⟨"ACCEPT", "CIDR", 100, true⟩]⟩
        ⟨"ACCEPT", "CIDR", 100, true⟩ = some materialized := by decide
    rw [hfirst] at hr
    cases hr
    rfl
  · exact List.pairwise_singleton _ _

end AliasFanOut

end Loxep

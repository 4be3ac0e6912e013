import Loxep.Lib.ChildRows
import Loxep.RuleTransactions

/-!
# One active version of a rule

The update that retires the active versions only finds those committed when it started.
-/

namespace Loxep

section Spec

variable (rb rb' : RuleBase)

/-- Every rule points at its one active version, and the candidates of a fact are led by the one
that resolves it. -/
structure VersionsAgree : Prop where
  single : ∀ v ∈ rb.versions, ∀ w ∈ rb.versions, v.postingRuleId = w.postingRuleId →
    v.status = .active → w.status = .active → v = w
  current : ∀ rule ∈ rb.rules, ∀ v ∈ rb.versions, v.postingRuleId = rule.id →
    (v.status = .active ↔ rule.currentVersionId = some v.id)
  resolved : ∀ (fact : SourceFact) (book : BookId),
    ((rb.candidatesForFact fact book).find? (·.matched)).map
        (fun c => (c.rule, c.rule.currentVersionId)) =
      (rb.resolveForFact fact book).map fun r => (r.rule, some r.version.id)

def SupersededStay : Prop :=
  ∀ v ∈ rb.versions, v.status = .superseded →
    ∀ v' ∈ rb'.versions, v'.id = v.id → v'.status = .superseded

def ActivationTarget.Overtaken : ActivationTarget → Prop
  | .stored version => ∃ v ∈ rb.versions, v.id = version.id ∧ v.status = .superseded
  | .inserted _ => False

def ActivationTarget.NumberFree : ActivationTarget → Prop
  | .stored _ => True
  | .inserted version => ∀ v ∈ rb.versions,
      (v.postingRuleId, v.version) ≠ (version.postingRuleId, version.version)

/-- An activation about to commit has retired every other active version of the rule, and its own
version is still what it was judged to be. -/
def RuleStage.Alone : RuleStage → Prop
  | .pointing target retired => target.NumberFree rb →
      (∀ v ∈ rb.versions, target.retires v = true → v.id ∈ retired) ∧ ¬target.Overtaken rb
  | _ => True

def activatesAlone (s : RuleSessions) : RuleAction → Prop
  | .proceed session => (s.stage session).Alone s.base
  | _ => True

end Spec

def RuleBase.keys (rb : RuleBase) : List (VersionId × RuleId) :=
  rb.versions.map fun v => (v.id, v.postingRuleId)

structure RulesSound (rb : RuleBase) : Prop where
  rule_ids : rb.rules.map (·.id) = List.range rb.rules.length
  version_ids : rb.versions.map (·.id) = List.range rb.versions.length
  owners : ∀ v ∈ rb.versions, v.postingRuleId < rb.rules.length
  points : ∀ rule ∈ rb.rules, ∀ id ∈ rule.currentVersionId,
    ∃ v ∈ rb.versions, v.id = id ∧ v.postingRuleId = rule.id ∧ v.status = .active

def CurrentOnly (rb : RuleBase) : Prop :=
  ∀ rule ∈ rb.rules, ∀ v ∈ rb.versions, v.postingRuleId = rule.id → v.status = .active →
    rule.currentVersionId = some v.id

section Tables

variable {rb : RuleBase}

theorem RulesSound.ids_nodup (h : RulesSound rb) : (rb.versions.map (·.id)).Nodup :=
  h.version_ids ▸ List.nodup_range

theorem RulesSound.id_lt (h : RulesSound rb) {v : PostingRuleVersionRow} (hv : v ∈ rb.versions) :
    v.id < rb.versions.length := by
  rw [← List.mem_range, ← h.version_ids]
  exact List.mem_map_of_mem hv

variable {rule : PostingRuleRow} {id : RuleId}

section

variable (h : RulesSound rb)
include h

theorem RulesSound.ruleId_lt (hr : rule ∈ rb.rules) :
    rule.id < rb.rules.length := by
  rw [← List.mem_range, ← h.rule_ids]
  exact List.mem_map_of_mem hr

theorem RulesSound.exists_rule (hid : id < rb.rules.length) :
    ∃ rule ∈ rb.rules, rule.id = id := by
  rw [← List.mem_range, ← h.rule_ids] at hid
  exact List.mem_map.1 hid

theorem RulesSound.owner_unique {v : PostingRuleVersionRow} (hv : v ∈ rb.versions)
    (hid : (v.id, id) ∈ rb.keys) : v.postingRuleId = id := by
  obtain ⟨w, hw, heq⟩ := List.mem_map.1 hid
  obtain ⟨hwid, rfl⟩ := Prod.mk.injEq .. ▸ heq
  rw [eq_of_key h.ids_nodup hw hv hwid.symm]

theorem candidate_matched (fact : SourceFact) (book : BookId) (hr : rule ∈ rb.rules) :
    (if (rb.candidate fact book rule).matched then some (rule, rule.currentVersionId) else none) =
      (rb.firing fact book rule).map fun r => (r.rule, some r.version.id) := by
  unfold RuleBase.candidate RuleBase.firing
  by_cases hbook : rule.accountingBookId.any (· != book) = true
  · rw [if_pos hbook, if_pos hbook]
    rfl
  rw [if_neg hbook, if_neg hbook]
  cases hcur : rule.currentVersionId with
  | none => rfl
  | some id =>
    obtain ⟨v, hv, rfl, -, hactive⟩ := h.points rule hr id hcur
    have hfind : rb.findVersion v.id = some v := (find?_key_eq_some_iff h.ids_nodup).2 ⟨hv, rfl⟩
    by_cases hm : versionMatches v fact = true <;> simp [hfind, hactive, hm]

theorem resolved_of_sound (fact : SourceFact) (book : BookId) :
    ((rb.candidatesForFact fact book).find? (·.matched)).map
        (fun c => (c.rule, c.rule.currentVersionId)) =
      (rb.resolveForFact fact book).map fun r => (r.rule, some r.version.id) := by
  unfold RuleBase.candidatesForFact RuleBase.resolveForFact
  have hmem : ∀ rule ∈ (rb.rules.filter fun rule =>
      rule.sourceFactType == fact.sourceFactType && rule.status == .active).insertionSort
        RuleBase.ruleOrder, rule ∈ rb.rules := by
    intro rule hr
    exact List.mem_of_mem_filter (List.mem_insertionSort _ |>.1 hr)
  revert hmem
  generalize (rb.rules.filter fun rule =>
    rule.sourceFactType == fact.sourceFactType && rule.status == .active).insertionSort
      RuleBase.ruleOrder = rules
  intro hmem
  induction rules with
  | nil => rfl
  | cons rule rules ih =>
    obtain ⟨hr, hrest⟩ := List.forall_mem_cons.1 hmem
    have hcase := candidate_matched h fact book hr
    have hrule : (rb.candidate fact book rule).rule = rule := by
      unfold RuleBase.candidate
      split_ifs
      · rfl
      · cases rule.currentVersionId with
        | none => rfl
        | some id => cases hv : rb.findVersion id <;> simp [hv]
    rw [List.map_cons, List.find?_cons, List.findSome?_cons]
    cases hm : (rb.candidate fact book rule).matched with
    | true =>
      rw [hm, if_pos rfl] at hcase
      cases hf : rb.firing fact book rule with
      | none => rw [hf] at hcase; cases hcase
      | some r =>
        rw [hf] at hcase
        rw [Option.map_some, hrule]
        exact hcase
    | false =>
      rw [hm, if_neg Bool.false_ne_true] at hcase
      rw [Option.map_eq_none_iff.1 hcase.symm]
      exact ih hrest

theorem versionsAgree_iff : VersionsAgree rb ↔ CurrentOnly rb := by
  constructor
  · exact fun hagree rule hr v hv hown => (hagree.current rule hr v hv hown).1
  intro hcur
  refine ⟨fun v hv w hw hown hva hwa => ?_, fun rule hr v hv hown => ⟨hcur rule hr v hv hown, ?_⟩,
    resolved_of_sound h⟩
  · obtain ⟨rule, hr, hid⟩ := h.exists_rule (h.owners v hv)
    have hv' := hcur rule hr v hv hid.symm hva
    have hw' := hcur rule hr w hw (hown ▸ hid.symm) hwa
    rw [hv', Option.some.injEq] at hw'
    exact eq_of_key h.ids_nodup hw hv hw'
  · intro hpoint
    obtain ⟨w, hw, hid, -, hactive⟩ := h.points rule hr v.id hpoint
    exact eq_of_key h.ids_nodup hv hw hid ▸ hactive

theorem SupersededStay.refl : SupersededStay rb rb := by
  intro v hv hstatus v' hv' hid
  rw [eq_of_key h.ids_nodup hv hv' hid]
  exact hstatus

end

end Tables

structure Raises (rb : RuleBase) (version : PostingRuleVersionRow) (retired : List VersionId) :
    Prop where
  key : (version.id, version.postingRuleId) ∈ rb.keys
  retired : ∀ id ∈ retired, (id, version.postingRuleId) ∈ rb.keys

section Activation

variable {rb : RuleBase} {version : PostingRuleVersionRow} {retired : List VersionId}

theorem keys_activateOver : (rb.activateOver version retired).keys = rb.keys := by
  simp only [RuleBase.keys, RuleBase.activateOver, List.map_map]
  refine List.map_congr_left fun v _ => ?_
  simp only [Function.comp]
  split_ifs <;> rfl

variable {v : PostingRuleVersionRow}

theorem Raises.untouched (hr : Raises rb version retired) (h : RulesSound rb) (hv : v ∈ rb.versions)
    (hother : v.postingRuleId ≠ version.postingRuleId) :
    v ∈ (rb.activateOver version retired).versions := by
  have hid : v.id ≠ version.id := fun hid => hother (h.owner_unique hv (hid ▸ hr.key))
  have hkept : v.id ∉ retired := fun hmem => hother (h.owner_unique hv (hr.retired _ hmem))
  exact List.mem_map.2 ⟨v, hv, by rw [if_neg hid, if_neg hkept]⟩

theorem Raises.raised (hr : Raises rb version retired) :
    ∃ v ∈ rb.versions, v.id = version.id ∧ v.postingRuleId = version.postingRuleId ∧
      { v with status := .active } ∈ (rb.activateOver version retired).versions := by
  obtain ⟨v, hv, heq⟩ := List.mem_map.1 hr.key
  obtain ⟨hid, hown⟩ := Prod.mk.injEq .. ▸ heq
  exact ⟨v, hv, hid, hown, List.mem_map.2 ⟨v, hv, if_pos hid⟩⟩

theorem RulesSound.activateOver (h : RulesSound rb) (hr : Raises rb version retired) :
    RulesSound (rb.activateOver version retired) where
  rule_ids := by
    simp only [RuleBase.activateOver, List.map_map, List.length_map, ← h.rule_ids]
    refine List.map_congr_left fun rule _ => ?_
    simp only [Function.comp]
    split_ifs <;> rfl
  version_ids := by
    simp only [RuleBase.activateOver, List.map_map, List.length_map, ← h.version_ids]
    refine List.map_congr_left fun v _ => ?_
    simp only [Function.comp]
    split_ifs <;> rfl
  owners v hv := by
    obtain ⟨w, hw, rfl⟩ := List.mem_map.1 hv
    simp only [RuleBase.activateOver, List.length_map]
    split_ifs <;> exact h.owners w hw
  points rule hrule id hid := by
    obtain ⟨r, hr', rfl⟩ := List.mem_map.1 hrule
    by_cases hown : r.id = version.postingRuleId
    · rw [if_pos hown] at hid ⊢
      obtain rfl := Option.mem_some_iff.1 hid
      obtain ⟨v, -, hvid, hvown, hmem⟩ := hr.raised
      exact ⟨_, hmem, hvid, hvown.trans hown.symm, rfl⟩
    · rw [if_neg hown] at hid ⊢
      obtain ⟨v, hv, hvid, hvown, hactive⟩ := h.points r hr' id hid
      exact ⟨v, hr.untouched h hv (hvown ▸ hown), hvid, hvown, hactive⟩

theorem retires_stored :
    (ActivationTarget.stored version).retires v = true ↔
      v.postingRuleId = version.postingRuleId ∧ v.status = .active ∧ v.id ≠ version.id := by
  simp only [ActivationTarget.retires, ActivationTarget.version, Bool.and_eq_true, beq_iff_eq,
    bne_iff_ne, and_assoc]

theorem retires_inserted :
    (ActivationTarget.inserted version).retires v = true ↔
      v.postingRuleId = version.postingRuleId ∧ v.status = .active := by
  simp only [ActivationTarget.retires, ActivationTarget.version, Bool.and_eq_true, beq_iff_eq,
    and_true]

theorem currentOnly_activateOver (h : RulesSound rb) (hr : Raises rb version retired)
    (hcur : CurrentOnly rb) :
    CurrentOnly (rb.activateOver version retired) ↔
      ∀ v ∈ rb.versions, (ActivationTarget.stored version).retires v = true → v.id ∈ retired := by
  constructor
  · intro hcur' v hv hret
    obtain ⟨hown, hactive, hne⟩ := retires_stored.1 hret
    by_contra hmiss
    obtain ⟨rule, hrule, hid⟩ := h.exists_rule (h.owners v hv)
    have hmem : v ∈ (rb.activateOver version retired).versions :=
      List.mem_map.2 ⟨v, hv, by rw [if_neg hne, if_neg hmiss]⟩
    have hrule' : { rule with currentVersionId := some version.id, status := .active } ∈
        (rb.activateOver version retired).rules :=
      List.mem_map.2 ⟨rule, hrule, if_pos (hid.trans hown)⟩
    have hpoint := hcur' _ hrule' v hmem hid.symm hactive
    exact hne (Option.some.inj hpoint).symm
  · intro hall rule hrule v hv hown hactive
    obtain ⟨r, hr', rfl⟩ := List.mem_map.1 hrule
    obtain ⟨w, hw, rfl⟩ := List.mem_map.1 hv
    by_cases hid : w.id = version.id
    · have hwown : w.postingRuleId = version.postingRuleId := h.owner_unique hw (hid ▸ hr.key)
      rw [if_pos hid] at hown ⊢
      have hrid : r.id = version.postingRuleId := by
        rw [← hwown, hown]
        split_ifs <;> rfl
      rw [if_pos hrid]
      exact congrArg some hid.symm
    · rw [if_neg hid] at hown hactive ⊢
      by_cases hmem : w.id ∈ retired
      · rw [if_pos hmem] at hactive
        cases hactive
      · rw [if_neg hmem] at hown hactive ⊢
        have hother : r.id ≠ version.postingRuleId := by
          intro hrid
          rw [if_pos hrid] at hown
          exact hmem (hall w hw (retires_stored.2 ⟨hown.trans hrid, hactive, hid⟩))
        rw [if_neg hother] at hown ⊢
        exact hcur r hr' w hw hown hactive

theorem supersededStay_activateOver (h : RulesSound rb) (hr : Raises rb version retired) :
    SupersededStay rb (rb.activateOver version retired) ↔
      ¬(ActivationTarget.stored version).Overtaken rb := by
  constructor
  · rintro hstay ⟨v, hv, hid, hstatus⟩
    obtain ⟨w, -, hwid, -, hmem⟩ := hr.raised
    have hsuper := hstay v hv hstatus _ hmem (hwid.trans hid.symm)
    cases hsuper
  · intro hnot v hv hstatus v' hv' hid
    obtain ⟨w, hw, rfl⟩ := List.mem_map.1 hv'
    have hwid : w.id = v.id := by
      rw [← hid]
      split_ifs <;> rfl
    obtain rfl := eq_of_key h.ids_nodup hv hw hwid
    have hne : w.id ≠ version.id := fun hne => hnot ⟨w, hv, hne, hstatus⟩
    rw [if_neg hne]
    split_ifs
    · rfl
    · exact hstatus

theorem activate_eq_activateOver (h : (rb.versions.map (·.id)).Nodup) : rb.activate version =
    rb.activateOver version
      ((rb.versions.filter (ActivationTarget.stored version).retires).map (·.id)) := by
  unfold RuleBase.activate RuleBase.activateOver
  congr 1
  refine List.map_congr_left fun v hv => ?_
  by_cases hid : v.id = version.id
  · rw [if_pos hid, if_pos hid]
  rw [if_neg hid, if_neg hid]
  have hiff : v.id ∈ (rb.versions.filter (ActivationTarget.stored version).retires).map (·.id) ↔
      v.postingRuleId = version.postingRuleId ∧ v.status = .active := by
    constructor
    · intro hmem
      obtain ⟨w, hw, hwid⟩ := List.mem_map.1 hmem
      obtain ⟨hw, hret⟩ := List.mem_filter.1 hw
      obtain ⟨hown, hactive, -⟩ := retires_stored.1 hret
      rw [eq_of_key h hw hv hwid.symm]
      exact ⟨hown, hactive⟩
    · rintro ⟨hown, hactive⟩
      exact List.mem_map_of_mem (List.mem_filter.2 ⟨hv, retires_stored.2 ⟨hown, hactive, hid⟩⟩)
  simp only [hiff]

end Activation

structure Enlarges (rb rb' : RuleBase) : Prop where
  keys : rb.keys ⊆ rb'.keys
  rules : rb.rules.length ≤ rb'.rules.length

def ActivationTarget.Sound (rb : RuleBase) : ActivationTarget → Prop
  | .stored version => (version.id, version.postingRuleId) ∈ rb.keys
  | .inserted version => version.postingRuleId < rb.rules.length ∧ version.status = .draft

def RuleStage.Sound (rb : RuleBase) : RuleStage → Prop
  | .versioning rule _ => rule.id < rb.rules.length
  | .numbered version _ => version.postingRuleId < rb.rules.length ∧ version.status = .draft
  | .activating target => target.Sound rb
  | .retiring target waiting retired => target.Sound rb ∧
      ∀ id ∈ waiting ++ retired, (id, target.version.postingRuleId) ∈ rb.keys
  | .raising target retired => target.Sound rb ∧
      ∀ id ∈ retired, (id, target.version.postingRuleId) ∈ rb.keys
  | .pointing target retired => target.Sound rb ∧
      ∀ id ∈ retired, (id, target.version.postingRuleId) ∈ rb.keys
  | _ => True

/-- A commit keeps the tables sound, the one active version of the rules just under the first
condition, and what is superseded just under the second. -/
structure CommitsWhen (rb rb' : RuleBase) (alone fresh : Prop) : Prop where
  sound : RulesSound rb'
  enlarges : Enlarges rb rb'
  agrees : CurrentOnly rb → (CurrentOnly rb' ↔ alone)
  stays : SupersededStay rb rb' ↔ fresh

section Commits

variable {rb rb' : RuleBase}

theorem ActivationTarget.Sound.mono {target : ActivationTarget} (hgrow : Enlarges rb rb')
    (h : target.Sound rb) : target.Sound rb' := by
  cases target with
  | stored version => exact hgrow.keys h
  | inserted version => exact ⟨h.1.trans_le hgrow.rules, h.2⟩

theorem RuleStage.Sound.mono {stage : RuleStage} (hgrow : Enlarges rb rb') (h : stage.Sound rb) :
    stage.Sound rb' := by
  cases stage with
  | versioning rule input => exact lt_of_lt_of_le h hgrow.rules
  | numbered version activate => exact ⟨h.1.trans_le hgrow.rules, h.2⟩
  | activating target => exact ActivationTarget.Sound.mono hgrow h
  | retiring target waiting retired => exact ⟨h.1.mono hgrow, fun id hid => hgrow.keys (h.2 id hid)⟩
  | raising target retired => exact ⟨h.1.mono hgrow, fun id hid => hgrow.keys (h.2 id hid)⟩
  | pointing target retired => exact ⟨h.1.mono hgrow, fun id hid => hgrow.keys (h.2 id hid)⟩
  | _ => trivial

theorem CommitsWhen.activateOver {version : PostingRuleVersionRow} {retired : List VersionId}
    (h : RulesSound rb) (hr : Raises rb version retired) :
    CommitsWhen rb (rb.activateOver version retired)
      (∀ v ∈ rb.versions, (ActivationTarget.stored version).retires v = true → v.id ∈ retired)
      (¬(ActivationTarget.stored version).Overtaken rb) where
  sound := h.activateOver hr
  enlarges := ⟨keys_activateOver.symm ▸ List.Subset.refl _, by simp [RuleBase.activateOver]⟩
  agrees := currentOnly_activateOver h hr
  stays := supersededStay_activateOver h hr

theorem CommitsWhen.append (h : RulesSound rb) (version : PostingRuleVersionRow)
    (hid : version.id = rb.versions.length) (hstatus : version.status = .draft)
    (hown : version.postingRuleId < rb.rules.length) :
    CommitsWhen rb { rb with versions := rb.versions ++ [version] } True True where
  sound :=
    { rule_ids := h.rule_ids
      version_ids := by
        rw [List.map_append, h.version_ids, List.length_append, List.length_singleton,
          List.range_succ, List.map_singleton, hid]
      owners := fun v hv => by
        rcases List.mem_append.1 hv with hv | hv
        · exact h.owners v hv
        · exact List.mem_singleton.1 hv ▸ hown
      points := fun rule hr id hcur => by
        obtain ⟨v, hv, hrest⟩ := h.points rule hr id hcur
        exact ⟨v, List.mem_append_left _ hv, hrest⟩ }
  enlarges := ⟨by simp [RuleBase.keys], le_rfl⟩
  agrees hcur := by
    refine iff_of_true (fun rule hr v hv hvown hactive => ?_) trivial
    rcases List.mem_append.1 hv with hv | hv
    · exact hcur rule hr v hv hvown hactive
    · rw [List.mem_singleton.1 hv, hstatus] at hactive
      cases hactive
  stays := by
    refine iff_of_true (fun v hv hsuper v' hv' heq => ?_) trivial
    rcases List.mem_append.1 hv' with hv' | hv'
    · exact SupersededStay.refl h v hv hsuper v' hv' heq
    · have hlt := h.id_lt hv
      rw [← heq, List.mem_singleton.1 hv', hid] at hlt
      exact absurd hlt (lt_irrefl _)

theorem CommitsWhen.appendRule (h : RulesSound rb) (rule : PostingRuleRow)
    (hid : rule.id = rb.rules.length) (hcur : rule.currentVersionId = none) :
    CommitsWhen rb { rb with rules := rb.rules ++ [rule] } True True where
  sound :=
    { rule_ids := by
        rw [List.map_append, h.rule_ids, List.length_append, List.length_singleton,
          List.range_succ, List.map_singleton, hid]
      version_ids := h.version_ids
      owners := fun v hv => (h.owners v hv).trans_le (by simp)
      points := fun r hr id hpoint => by
        rcases List.mem_append.1 hr with hr | hr
        · exact h.points r hr id hpoint
        · rw [List.mem_singleton.1 hr, hcur] at hpoint
          cases hpoint }
  enlarges := ⟨List.Subset.refl _, by simp⟩
  agrees hall := by
    refine iff_of_true (fun r hr v hv hown hactive => ?_) trivial
    rcases List.mem_append.1 hr with hr | hr
    · exact hall r hr v hv hown hactive
    · have hlt := h.owners v hv
      rw [hown, List.mem_singleton.1 hr, hid] at hlt
      exact absurd hlt (lt_irrefl _)
  stays := iff_of_true (SupersededStay.refl h) trivial

theorem CommitsWhen.setStatus (h : RulesSound rb) (id : RuleId) (status : PostingRuleStatus) :
    CommitsWhen rb (rb.setStatus id status) True True where
  sound :=
    { rule_ids := by
        simp only [RuleBase.setStatus, List.map_map, List.length_map, ← h.rule_ids]
        refine List.map_congr_left fun rule _ => ?_
        simp only [Function.comp]
        split_ifs <;> rfl
      version_ids := h.version_ids
      owners := fun v hv => by
        rw [RuleBase.setStatus, List.length_map]
        exact h.owners v hv
      points := fun rule hrule => by
        obtain ⟨r, hr, rfl⟩ := List.mem_map.1 hrule
        split_ifs <;> exact h.points r hr }
  enlarges := ⟨List.Subset.refl _, by simp [RuleBase.setStatus]⟩
  agrees hcur := by
    refine iff_of_true (fun rule hrule => ?_) trivial
    obtain ⟨r, hr, rfl⟩ := List.mem_map.1 hrule
    split_ifs <;> exact hcur r hr
  stays := iff_of_true (SupersededStay.refl h) trivial

theorem CommitsWhen.trans {base : RuleBase} {alone : Prop} (h : CommitsWhen rb base True True)
    (hversions : rb.versions ⊆ base.versions) (h' : CommitsWhen base rb' alone True) :
    CommitsWhen rb rb' alone True where
  sound := h'.sound
  enlarges := ⟨List.Subset.trans h.enlarges.keys h'.enlarges.keys,
    h.enlarges.rules.trans h'.enlarges.rules⟩
  agrees hcur := h'.agrees ((h.agrees hcur).2 trivial)
  stays := iff_of_true (fun v hv => h'.stays.2 trivial v (hversions hv)) trivial

theorem CommitsWhen.activateNew (h : RulesSound rb) (version : PostingRuleVersionRow)
    (retired : List VersionId) (hid : version.id = rb.versions.length)
    (hstatus : version.status = .draft) (hown : version.postingRuleId < rb.rules.length)
    (hretired : ∀ id ∈ retired, (id, version.postingRuleId) ∈ rb.keys) :
    CommitsWhen rb (RuleBase.activateOver { rb with versions := rb.versions ++ [version] }
      version retired)
      (∀ v ∈ rb.versions, (ActivationTarget.inserted version).retires v = true → v.id ∈ retired)
      True := by
  have happ := CommitsWhen.append h version hid hstatus hown
  have hr : Raises { rb with versions := rb.versions ++ [version] } version retired :=
    ⟨by simp [RuleBase.keys], fun id hmem => happ.enlarges.keys (hretired id hmem)⟩
  have hnot : ¬(ActivationTarget.stored version).Overtaken
      { rb with versions := rb.versions ++ [version] } := by
    rintro ⟨v, hv, hvid, hsuper⟩
    have hv' : version ∈ rb.versions ++ [version] := by simp
    rw [eq_of_key happ.sound.ids_nodup hv' hv hvid, hstatus] at hsuper
    cases hsuper
  have hact := CommitsWhen.activateOver happ.sound hr
  simp only [hnot, not_false_eq_true] at hact
  have htrans := happ.trans (List.subset_append_left _ _) hact
  refine ⟨htrans.sound, htrans.enlarges, fun hcur => (htrans.agrees hcur).trans ?_, htrans.stays⟩
  simp only [retires_stored, retires_inserted]
  constructor
  · rintro hall v hv ⟨hvown, hactive⟩
    have hne : v.id ≠ version.id := hid ▸ (h.id_lt hv).ne
    exact hall v (List.mem_append_left _ hv) ⟨hvown, hactive, hne⟩
  · rintro hall v hv ⟨hvown, hactive, hne⟩
    rcases List.mem_append.1 hv with hv | hv
    · exact hall v hv ⟨hvown, hactive⟩
    · exact absurd (congrArg _ (List.mem_singleton.1 hv)) hne

end Commits

section Stages

variable {rb rb' : RuleBase}

theorem loadRule_eq_ok {id : RuleId} {rule : PostingRuleRow} (h : rb.loadRule id = .ok rule) :
    rule ∈ rb.rules := by
  unfold RuleBase.loadRule at h
  split at h
  · cases h
  · next hfind =>
    cases h
    exact List.mem_of_find?_eq_some hfind

theorem loadActivatable_eq_ok {id : VersionId} {version : PostingRuleVersionRow}
    (h : rb.loadActivatable id = .ok version) : version ∈ rb.versions := by
  unfold RuleBase.loadActivatable at h
  split at h
  · cases h
  · next hfind =>
    simp only [Except.bind_eq_ok, Except.pure_eq_ok] at h
    obtain ⟨-, -, rfl⟩ := h
    exact List.mem_of_find?_eq_some hfind

theorem insertVersion_eq_ok {version v : PostingRuleVersionRow} :
    rb.insertVersion version = .ok (v, rb') ↔
      (ActivationTarget.inserted version).NumberFree rb ∧
        v = { version with id := rb.versions.length } ∧
        rb' = { rb with versions := rb.versions ++ [v] } := by
  simp only [RuleBase.insertVersion, Except.bind_eq_ok, Except.require_eq_ok, exists_const,
    Except.pure_eq_ok, Prod.mk.injEq, ActivationTarget.NumberFree]
  constructor
  · rintro ⟨hfree, rfl, rfl⟩
    exact ⟨hfree, rfl, rfl⟩
  · rintro ⟨hfree, rfl, rfl⟩
    exact ⟨hfree, rfl, rfl⟩

theorem createRule_commits {input : CreatePostingRuleInput} (h : RulesSound rb)
    (hc : rb.createRule input = .ok rb') : CommitsWhen rb rb' True True := by
  simp only [RuleBase.createRule, Except.bind_eq_ok, Except.require_eq_ok, exists_const,
    Except.pure_eq_ok] at hc
  obtain ⟨-, -, -, rfl⟩ := hc
  let rule : PostingRuleRow := ⟨rb.rules.length, input.code, input.sourceFactType,
    input.accountingBookId, input.priority, .draft, none⟩
  let version : PostingRuleVersionRow :=
    { id := rb.versions.length
      postingRuleId := rb.rules.length
      version := 1
      status := .draft
      predicates := { input.toVersionPredicates with
        matchCurrency := input.matchCurrency.map String.toUpper }
      lines := input.lines }
  have hrule := CommitsWhen.appendRule h rule rfl rfl
  have hown : version.postingRuleId < (rb.rules ++ [rule]).length := by simp [version]
  have happ := CommitsWhen.append hrule.sound version rfl rfl hown
  have hnew : ∀ v ∈ rb.versions, v.postingRuleId ≠ version.postingRuleId :=
    fun v hv => (h.owners v hv).ne
  split_ifs
  · rw [activate_eq_activateOver happ.sound.ids_nodup]
    have hnone : (rb.versions ++ [version]).filter (ActivationTarget.stored version).retires = [] := by
      refine List.filter_eq_nil_iff.2 fun v hv hret => ?_
      obtain ⟨hvown, hactive, hne⟩ := retires_stored.1 hret
      rcases List.mem_append.1 hv with hv | hv
      · exact hnew v hv hvown
      · exact hne (congrArg _ (List.mem_singleton.1 hv))
    change CommitsWhen rb (RuleBase.activateOver _ version
      (((rb.versions ++ [version]).filter (ActivationTarget.stored version).retires).map _)) _ _
    rw [hnone]
    have hact := CommitsWhen.activateNew hrule.sound version [] rfl rfl hown
      fun _ hid => absurd hid List.not_mem_nil
    have hall := hrule.trans (List.Subset.refl _) hact
    refine ⟨hall.sound, hall.enlarges, fun hcur => (hall.agrees hcur).trans ?_, hall.stays⟩
    refine iff_of_true (fun v hv hret => ?_) trivial
    exact absurd (retires_inserted.1 hret).1 (hnew v hv)
  · exact hrule.trans (List.Subset.refl _) happ

theorem CommitsWhen.both {alone fresh : Prop} (h : CommitsWhen rb rb' alone fresh)
    (hcur : CurrentOnly rb) : CurrentOnly rb' ∧ SupersededStay rb rb' ↔ alone ∧ fresh :=
  and_congr (h.agrees hcur) h.stays

structure Settles (rb rb' : RuleBase) (stage : RuleStage) : Prop where
  sound : RulesSound rb'
  enlarges : Enlarges rb rb'
  agrees : CurrentOnly rb → (CurrentOnly rb' ∧ SupersededStay rb rb' ↔ stage.Alone rb)

variable {stage : RuleStage} {target : ActivationTarget}

theorem CommitsWhen.settles (h : CommitsWhen rb rb' True True) (hstage : stage.Alone rb)
    : Settles rb rb' stage :=
  ⟨h.sound, h.enlarges, fun hcur => (h.both hcur).trans (iff_of_true ⟨trivial, trivial⟩ hstage)⟩

theorem activation_settles (h : RulesSound rb) {retired : List VersionId}
    (hs : (RuleStage.pointing target retired).Sound rb)
    (hc : rb.commitActivation retired target = .ok rb') :
    Settles rb rb' (.pointing target retired) := by
  obtain ⟨htarget, hretired⟩ := hs
  cases target with
  | stored version =>
    cases hc
    have hact := CommitsWhen.activateOver h ⟨htarget, hretired⟩
    refine ⟨hact.sound, hact.enlarges, fun hcur => (hact.both hcur).trans ?_⟩
    exact ⟨fun hand _ => hand, fun hall => hall trivial⟩
  | inserted version =>
    obtain ⟨⟨v, base⟩, hinsert, rfl⟩ := Except.map_eq_ok.1 hc
    obtain ⟨hfree, rfl, rfl⟩ := insertVersion_eq_ok.1 hinsert
    have hact := CommitsWhen.activateNew h { version with id := rb.versions.length } _
      rfl htarget.2 htarget.1 hretired
    refine ⟨hact.sound, hact.enlarges, fun hcur => (hact.both hcur).trans ?_⟩
    simp only [RuleStage.Alone, ActivationTarget.Overtaken, not_false_eq_true, retires_inserted]
    exact ⟨fun hand _ => hand, fun hall => hall hfree⟩

def RuleOutcome.Fits (rb : RuleBase) (stage : RuleStage) : RuleOutcome → Prop
  | .goTo next => next.Sound rb ∧ stage.Alone rb
  | .lock _ next => next.Sound rb ∧ stage.Alone rb
  | .commit rb' => Settles rb rb' stage
  | .finish => stage.Alone rb

theorem fits_ofRead (hstage : stage.Alone rb) {r : Result RuleStage}
    (h : ∀ next, r = .ok next → next.Sound rb) : (RuleOutcome.ofRead r).Fits rb stage := by
  cases r with
  | ok next => exact ⟨h next rfl, hstage⟩
  | error e => exact hstage

theorem fits_ofWrite {r : Result RuleBase} (hok : ∀ rb', r = .ok rb' → Settles rb rb' stage)
    (herror : ∀ e, r = .error e → stage.Alone rb) :
    (RuleOutcome.ofWrite r).Fits rb stage := by
  cases r with
  | ok rb' => exact hok rb' rfl
  | error e => exact herror e rfl

theorem mem_keys {v : PostingRuleVersionRow} (hv : v ∈ rb.versions) :
    (v.id, v.postingRuleId) ∈ rb.keys := List.mem_map_of_mem hv

theorem begun_fits (h : RulesSound rb) (call : RuleCall) :
    (begunRule rb call).Fits rb (.requested call) := by
  have halone : (RuleStage.requested call).Alone rb := trivial
  cases call with
  | createRule input =>
    exact fits_ofWrite (fun _ hok => (createRule_commits h hok).settles trivial)
      fun _ _ => trivial
  | addVersion input =>
    refine fits_ofRead halone fun next hok => ?_
    simp only [loadVersioning, Except.bind_eq_ok, Except.pure_eq_ok] at hok
    obtain ⟨rule, hload, -, -, rfl⟩ := hok
    exact h.ruleId_lt (loadRule_eq_ok hload)
  | activateVersion id =>
    refine fits_ofRead halone fun next hok => ?_
    obtain ⟨version, hload, rfl⟩ := Except.map_eq_ok.1 hok
    exact mem_keys (loadActivatable_eq_ok hload)
  | setRuleStatus id status =>
    refine fits_ofRead halone fun next hok => ?_
    simp only [loadSettingStatus, Except.bind_eq_ok, Except.pure_eq_ok] at hok
    obtain ⟨rule, -, -, -, rfl⟩ := hok
    trivial

theorem insert_fits (h : RulesSound rb) {version : PostingRuleVersionRow} {activate : Bool}
    (hs : (RuleStage.numbered version activate).Sound rb) :
    (insertNumbered rb version activate).Fits rb (.numbered version activate) := by
  have halone : (RuleStage.numbered version activate).Alone rb := trivial
  cases activate with
  | true =>
    refine fits_ofRead halone fun next hok => ?_
    obtain ⟨-, -, rfl⟩ := Except.map_eq_ok.1 hok
    exact hs
  | false =>
    refine fits_ofWrite (fun rb' hok => ?_) fun _ _ => trivial
    obtain ⟨-, -, hok⟩ := Except.bind_eq_ok.1 hok
    obtain ⟨⟨v, base⟩, hinsert, rfl⟩ := Except.map_eq_ok.1 hok
    obtain ⟨-, rfl, rfl⟩ := insertVersion_eq_ok.1 hinsert
    have happ := CommitsWhen.append h { version with id := rb.versions.length }
      rfl hs.2 hs.1
    exact happ.settles trivial

theorem activation_refused {retired : List VersionId} {e : AccountingError}
    (hc : rb.commitActivation retired target = .error e) :
    (RuleStage.pointing target retired).Alone rb := by
  intro hfree
  cases target with
  | stored version => cases hc
  | inserted version =>
    have hok := insertVersion_eq_ok.2 ⟨hfree, rfl, rfl⟩
    rw [RuleBase.commitActivation, hok] at hc
    cases hc

theorem retiring_fits {row : VersionId} {waiting retired : List VersionId}
    (hs : (RuleStage.retiring target (row :: waiting) retired).Sound rb) :
    (RuleStage.retiring target waiting
      (if rb.isActive row then retired ++ [row] else retired)).Sound rb := by
  refine ⟨hs.1, fun id hid => hs.2 id ?_⟩
  rcases List.mem_append.1 hid with hid | hid
  · exact List.mem_append_left _ (List.mem_cons_of_mem _ hid)
  · split_ifs at hid
    · rcases List.mem_append.1 hid with hid | hid
      · exact List.mem_append_right _ hid
      · exact List.mem_append_left _ (List.mem_singleton.1 hid ▸ List.mem_cons_self)
    · exact List.mem_append_right _ hid

theorem proceed_fits (h : RulesSound rb) (hs : stage.Sound rb) :
    (proceedRule rb stage).Fits rb stage := by
  cases stage with
  | idle => exact ⟨trivial, trivial⟩
  | requested call => exact begun_fits h call
  | versioning rule input => exact ⟨⟨hs, rfl⟩, trivial⟩
  | numbered version activate => exact insert_fits h hs
  | activating target =>
    refine ⟨⟨hs, fun id hid => ?_⟩, trivial⟩
    rw [List.append_nil] at hid
    obtain ⟨v, hv, rfl⟩ := List.mem_map.1 hid
    obtain ⟨hv, hret⟩ := List.mem_filter.1 hv
    simp only [ActivationTarget.retires, Bool.and_eq_true, beq_iff_eq] at hret
    exact hret.1.1 ▸ mem_keys hv
  | retiring target waiting retired =>
    cases waiting with
    | nil => exact ⟨hs, trivial⟩
    | cons row waiting => exact ⟨retiring_fits hs, trivial⟩
  | raising target retired =>
    cases target with
    | stored version => exact ⟨hs, trivial⟩
    | inserted version => exact ⟨hs, trivial⟩
  | pointing target retired =>
    exact fits_ofWrite (fun _ hok => activation_settles h hs hok) fun _ hc => activation_refused hc
  | settingStatus rule status => exact (CommitsWhen.setStatus h rule.id status).settles trivial
  | finished => trivial

end Stages

section Sessions

open RuleSessions

variable {s : RuleSessions}

structure SessionsSound (s : RuleSessions) : Prop where
  base : RulesSound s.base
  stages : ∀ session, (s.stage session).Sound s.base

theorem initial_sound : SessionsSound initial where
  base :=
    { rule_ids := rfl
      version_ids := rfl
      owners := fun _ hv => absurd hv List.not_mem_nil
      points := fun _ hr => absurd hr List.not_mem_nil }
  stages _ := trivial

theorem initial_agrees : VersionsAgree initial.base :=
  (versionsAgree_iff initial_sound.base).2 fun _ hr => absurd hr List.not_mem_nil

theorem SessionsSound.setStage (h : SessionsSound s) (session : ℕ) {stage : RuleStage}
    (hstage : stage.Sound s.base) : SessionsSound (s.setStage session stage) where
  base := h.base
  stages r := by
    simp only [RuleSessions.setStage]
    split_ifs
    · exact hstage
    · exact h.stages r

theorem SessionsSound.finish (h : SessionsSound s) (session : ℕ) :
    SessionsSound (s.finish session) where
  base := h.base
  stages :=
    have hstage : RuleStage.Sound s.base .finished := trivial
    (h.setStage session hstage).stages

theorem SessionsSound.lock (h : SessionsSound s) (session : ℕ) (row : VersionId) {stage : RuleStage}
    (hstage : stage.Sound s.base) :
    SessionsSound (s.lock session row stage) := by
  unfold RuleSessions.lock
  split_ifs
  · exact ⟨h.base, (h.setStage session hstage).stages⟩
  · exact h

theorem SessionsSound.commit (h : SessionsSound s) (session : ℕ) {base : RuleBase}
    (hbase : RulesSound base) (hgrow : Enlarges s.base base) :
    SessionsSound { s.finish session with base := base } where
  base := hbase
  stages r := ((h.finish session).stages r).mono hgrow

theorem lock_base (session : ℕ) (row : VersionId) (stage : RuleStage) :
    (s.lock session row stage).base = s.base := by
  unfold RuleSessions.lock
  split_ifs <;> rfl

theorem step_agrees_of_base {s' : RuleSessions} (hs : RulesSound s.base) (hcur : CurrentOnly s.base)
    (hbase : s'.base = s.base) {condition : Prop} (hcondition : condition) :
    CurrentOnly s'.base ∧ SupersededStay s.base s'.base ↔ condition := by
  rw [hbase]
  exact iff_of_true ⟨hcur, SupersededStay.refl hs⟩ hcondition

theorem step_sound (h : SessionsSound s) (action : RuleAction) : SessionsSound (s.step action) ∧
    (CurrentOnly s.base → (CurrentOnly (s.step action).base ∧
      SupersededStay s.base (s.step action).base ↔ activatesAlone s action)) := by
  cases action with
  | begin session call =>
    simp only [RuleSessions.step]
    split
    · exact ⟨h.setStage session trivial, fun hcur => step_agrees_of_base h.base hcur rfl trivial⟩
    · exact ⟨h, fun hcur => step_agrees_of_base h.base hcur rfl trivial⟩
  | abort session =>
    simp only [RuleSessions.step]
    split
    · exact ⟨h, fun hcur => step_agrees_of_base h.base hcur rfl trivial⟩
    · exact ⟨h.finish session, fun hcur => step_agrees_of_base h.base hcur rfl trivial⟩
  | proceed session =>
    have hfits := proceed_fits h.base (h.stages session)
    simp only [RuleSessions.step, activatesAlone]
    cases hout : proceedRule s.base (s.stage session) with
    | goTo next =>
      rw [hout] at hfits
      exact ⟨h.setStage session hfits.1, fun hcur => step_agrees_of_base h.base hcur rfl hfits.2⟩
    | lock row next =>
      rw [hout] at hfits
      exact ⟨h.lock session row hfits.1, fun hcur =>
        step_agrees_of_base h.base hcur (lock_base session row next) hfits.2⟩
    | commit base =>
      rw [hout] at hfits
      exact ⟨h.commit session hfits.sound hfits.enlarges, hfits.agrees⟩
    | finish =>
      rw [hout] at hfits
      exact ⟨h.finish session, fun hcur => step_agrees_of_base h.base hcur rfl hfits⟩

/-- Every rule has one active version all along a run, its current one, and what is superseded
stays so, exactly when every activation that commits was alone. -/
theorem versions_agree_iff (actions : List RuleAction) :
    Runs.Along step (fun s => VersionsAgree s.base) initial actions ∧
        Runs.Meets step (fun s action => SupersededStay s.base (s.step action).base) initial
          actions ↔
      Runs.Meets step activatesAlone initial actions := by
  have hsound : ∀ s action, SessionsSound s → SessionsSound (step s action) :=
    fun s action hs => (step_sound hs action).1
  have hstep : ∀ s action, SessionsSound s → VersionsAgree s.base →
      (VersionsAgree (step s action).base ∧ SupersededStay s.base (step s action).base ↔
        activatesAlone s action) := by
    intro s action hs hagree
    rw [versionsAgree_iff (hsound s action hs).base]
    exact (step_sound hs action).2 ((versionsAgree_iff hs.base).1 hagree)
  exact Runs.along_and_meets_iff (fun s action hs _ => hsound s action hs) hstep initial_sound
    initial_agrees

def wholeAmount (number : ℕ) (systemKey : String) (source : PostingAmountSource) :
    PostingRuleLineRow where
  lineNumber := number
  accountSystemKey := some systemKey
  ledgerAccountId := none
  amountSource := source
  amountMultiplier := 1000000
  inheritEntity := true
  dimensionValueId := none
  descriptionTemplate := none

def purchaseLines : List PostingRuleLineRow :=
  [wholeAmount 1 "cogs" .total, wholeAmount 2 "undeposited_funds" .remainder]

def purchaseRule : CreatePostingRuleInput where
  code := "expenses"
  sourceFactType := .expense
  lines := purchaseLines
  activate := true

def purchaseVersion : AddVersionInput where
  postingRuleId := 0
  lines := purchaseLines

def draftedRule : List RuleAction :=
  let calls := fun session call count =>
    RuleAction.begin session call :: List.replicate count (.proceed session)
  calls 0 (.createRule purchaseRule) 1 ++ calls 1 (.addVersion purchaseVersion) 3 ++
    calls 2 (.addVersion purchaseVersion) 3

def crossedActivations : List RuleAction :=
  [.begin 3 (.activateVersion 1), .begin 4 (.activateVersion 2), .proceed 3, .proceed 4,
    .proceed 3, .proceed 4, .proceed 3, .proceed 3, .proceed 3, .proceed 3, .proceed 4,
    .proceed 4, .proceed 4, .proceed 4]

theorem crossed_activations_both_active : ¬ ∀ actions : List RuleAction,
    Runs.Along step (fun s => VersionsAgree s.base) initial actions ∧
      Runs.Meets step (fun s action => SupersededStay s.base (s.step action).base) initial
        actions := by
  intro hall
  have hlast := (hall (draftedRule ++ crossedActivations)).1.last
  obtain ⟨v, hv, w, hw, hown, hva, hwa, hne⟩ :
      ∃ v ∈ (Runs.run step initial (draftedRule ++ crossedActivations)).base.versions,
        ∃ w ∈ (Runs.run step initial (draftedRule ++ crossedActivations)).base.versions,
          v.postingRuleId = w.postingRuleId ∧ v.status = .active ∧ w.status = .active ∧ v ≠ w := by
    decide +kernel
  exact hne (hlast.single v hv w hw hown hva hwa)

end Sessions

end Loxep

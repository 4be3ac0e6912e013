import Loxep.RuleGuard
import Loxep.Lib.Runs

/-!
# What the rule guard keeps

The trigger on lines looks an updated line up by the version it moves to. So a line can leave a
version posted entries reference for one that none does. Every other statement leaves such a
version its text and its lines.
-/

namespace Loxep

def RuleTables.postedUnder (t : RuleTables) (id : VersionId) : Bool :=
  t.entries.any fun e => e.isPosted && e.postingRuleVersionId == some id

def RuleTables.textOf (t : RuleTables) (id : VersionId) : Option StoredVersion :=
  (t.findVersion id).map (·.text)

/-- The tables as they stand, and all those the statements have passed. -/
structure RuleHistory where
  passed : List RuleTables
  current : RuleTables

namespace RuleHistory

def start : RuleHistory := ⟨[.empty], .empty⟩

variable (h : RuleHistory)

def step (statement : RuleStatement) : RuleHistory :=
  ⟨h.passed ++ [h.current.step statement], h.current.step statement⟩

def Frozen : Prop :=
  ∀ t ∈ h.passed, ∀ id, t.postedUnder id = true →
    h.current.textOf id = t.textOf id ∧ h.current.linesOf id = t.linesOf id

def LeavesReferenced (h : RuleHistory) : RuleStatement → Prop
  | .updateLine id new => Except.returns (h.current.execute (.updateLine id new)) = true →
      ∀ old ∈ h.current.findLine id, h.current.postedUnder old.postingRuleVersionId = true →
        new.postingRuleVersionId = old.postingRuleVersionId
  | _ => True

end RuleHistory

section Statement

variable {t t' : RuleTables} {statement : RuleStatement}

structure RuleTables.Sound (t : RuleTables) : Prop where
  version_ids : (t.versions.map (·.id)).Nodup
  line_ids : (t.lines.map (·.id)).Nodup
  entry_ids : (t.entries.map (·.id)).Nodup
  versions_there : ∀ e ∈ t.entries, ∀ id ∈ e.postingRuleVersionId, id ∈ t.versions.map (·.id)

def Reposted (old new : RuleEntry) : Prop :=
  old.status = .draft ∨ (new.isPosted = true ∧ new.id = old.id
    ∧ new.postingRuleVersionId = old.postingRuleVersionId)

inductive RuleEffect (t : RuleTables) : RuleStatement → RuleTables → Prop
  | insertVersion {new : StoredVersion} :
      RuleEffect t (.insertVersion new) { t with versions := t.versions ++ [new] }
  | updateVersion {new old : StoredVersion} (found : old ∈ t.versions)
      (allowed : t.postedUnder old.id = true → new.text = old.text) :
      RuleEffect t (.updateVersion old.id new)
        { t with versions := replaceRow (·.id) t.versions old.id new }
  | deleteVersion {id : VersionId} (unposted : t.postedUnder id = false) :
      RuleEffect t (.deleteVersion id)
        { t with
          versions := t.versions.filter (·.id != id)
          lines := t.lines.filter (·.postingRuleVersionId != id) }
  | insertLine {new : StoredRuleLine} (unposted : t.postedUnder new.postingRuleVersionId = false) :
      RuleEffect t (.insertLine new) { t with lines := t.lines ++ [new] }
  | updateLine {new old : StoredRuleLine} (found : old ∈ t.lines)
      (unposted : t.postedUnder new.postingRuleVersionId = false) :
      RuleEffect t (.updateLine old.id new)
        { t with lines := replaceRow (·.id) t.lines old.id new }
  | deleteLine {old : StoredRuleLine} (found : old ∈ t.lines)
      (unposted : t.postedUnder old.postingRuleVersionId = false) :
      RuleEffect t (.deleteLine old.id) { t with lines := t.lines.filter (·.id != old.id) }
  | insertEntry {new : RuleEntry} :
      RuleEffect t (.insertEntry new) { t with entries := t.entries ++ [new] }
  | updateEntry {new old : RuleEntry} (found : old ∈ t.entries) (allowed : Reposted old new) :
      RuleEffect t (.updateEntry old.id new)
        { t with entries := replaceRow (·.id) t.entries old.id new }
  | deleteEntry {old : RuleEntry} (found : old ∈ t.entries) (draft : old.status = .draft) :
      RuleEffect t (.deleteEntry old.id) { t with entries := t.entries.filter (·.id != old.id) }
  | missing {statement : RuleStatement}
      (nothing : ∀ id new, statement = .updateLine id new → t.findLine id = none) :
      RuleEffect t statement t

theorem checkRuleTables_eq_ok (h : checkRuleTables t = .ok t') : t' = t ∧ t.Sound := by
  simp only [checkRuleTables, Except.bind_eq_ok, Except.require_eq_ok, Except.pure_eq_ok,
    exists_const] at h
  obtain ⟨hversions, hlines, hentries, -, -, -, -, hthere, rfl⟩ := h
  exact ⟨rfl, hversions, hlines, hentries, hthere⟩

variable {id : VersionId}

theorem referenced_of_postedUnder (hp : t.postedUnder id = true) :
    t.referenced id = true := by
  obtain ⟨e, he, hpost⟩ := List.any_eq_true.1 hp
  rw [Bool.and_eq_true] at hpost
  exact List.any_eq_true.2 ⟨e, he, hpost.2⟩

theorem RuleTables.Sound.find_postedUnder (hs : t.Sound) (hp : t.postedUnder id = true)
    : ∃ v, t.findVersion id = some v := by
  obtain ⟨e, he, hpost⟩ := List.any_eq_true.1 hp
  rw [Bool.and_eq_true, beq_iff_eq] at hpost
  obtain ⟨v, hv, hid⟩ := List.mem_map.1 (hs.versions_there e he id hpost.2)
  exact ⟨v, (find?_key_eq_some_iff hs.version_ids).2 ⟨hv, hid⟩⟩

variable {op : String} {u : Unit} {e : RuleEntry}

theorem RuleTables.Sound.unposted_of_lines (hs : t.Sound) {target : VersionId}
    (h : postingRuleLinesImmutable t op target = .ok u) :
    t.postedUnder target = false := by
  rw [← Bool.not_eq_true]
  intro hp
  obtain ⟨v, hv⟩ := hs.find_postedUnder hp
  unfold postingRuleLinesImmutable at h
  rw [hv] at h
  have hfree := Except.require_eq_ok.1 h
  rw [referenced_of_postedUnder hp] at hfree
  cases hfree

theorem reposted_of_entries {old new : RuleEntry}
    (h : ruleEntriesImmutable op old (some new) = .ok u) : Reposted old new := by
  rcases Except.require_eq_ok.1 h with hdraft | hstamp
  · exact .inl hdraft
  · simp only [Option.any_some, Bool.and_eq_true, beq_iff_eq] at hstamp
    obtain ⟨⟨-, hreversed⟩, hsame⟩ := hstamp
    have hid := congrArg RuleEntry.id hsame
    have hversion := congrArg RuleEntry.postingRuleVersionId hsame
    exact .inr ⟨by simp [RuleEntry.isPosted, hreversed], hid, hversion⟩

theorem execute_ruleEffect (hs : t.Sound) (h : t.execute statement = .ok t') :
    RuleEffect t statement t' ∧ t'.Sound := by
  cases statement with
  | insertVersion new =>
    simp only [RuleTables.execute, Except.bind_eq_ok] at h
    obtain ⟨_, -, hcheck⟩ := h
    obtain ⟨rfl, hsound⟩ := checkRuleTables_eq_ok hcheck
    exact ⟨.insertVersion, hsound⟩
  | updateVersion id new =>
    cases hfound : t.findVersion id with
    | none =>
      simp only [RuleTables.execute, hfound, Except.ok.injEq] at h
      exact h ▸ ⟨.missing fun _ _ heq => RuleStatement.noConfusion heq, hs⟩
    | some old =>
      simp only [RuleTables.execute, hfound, Except.bind_eq_ok] at h
      obtain ⟨_, himm, _, -, hcheck⟩ := h
      obtain ⟨rfl, hsound⟩ := checkRuleTables_eq_ok hcheck
      obtain ⟨hmem, rfl⟩ := (find?_key_eq_some_iff hs.version_ids).1 hfound
      refine ⟨.updateVersion hmem fun hp => ?_, hsound⟩
      simp only [postingRuleVersionsImmutable, referenced_of_postedUnder hp, Bool.not_true,
        Bool.false_eq_true, ↓reduceIte, Except.require_eq_ok] at himm
      exact himm
  | deleteVersion id =>
    cases hfound : t.findVersion id with
    | none =>
      simp only [RuleTables.execute, hfound, Except.ok.injEq] at h
      exact h ▸ ⟨.missing fun _ _ heq => RuleStatement.noConfusion heq, hs⟩
    | some old =>
      simp only [RuleTables.execute, hfound, Except.bind_eq_ok] at h
      obtain ⟨_, himm, _, -, hcheck⟩ := h
      obtain ⟨rfl, hsound⟩ := checkRuleTables_eq_ok hcheck
      obtain ⟨-, rfl⟩ := (find?_key_eq_some_iff hs.version_ids).1 hfound
      refine ⟨.deleteVersion (Bool.eq_false_iff.2 fun hp => ?_), hsound⟩
      simp [postingRuleVersionsImmutable, referenced_of_postedUnder hp] at himm
  | insertLine new =>
    simp only [RuleTables.execute, Except.bind_eq_ok] at h
    obtain ⟨_, himm, _, -, hcheck⟩ := h
    obtain ⟨rfl, hsound⟩ := checkRuleTables_eq_ok hcheck
    exact ⟨.insertLine (hs.unposted_of_lines himm), hsound⟩
  | updateLine id new =>
    cases hfound : t.findLine id with
    | none =>
      simp only [RuleTables.execute, hfound, Except.ok.injEq] at h
      refine h ▸ ⟨.missing fun id' new' heq => ?_, hs⟩
      cases heq
      exact hfound
    | some old =>
      simp only [RuleTables.execute, hfound, Except.bind_eq_ok] at h
      obtain ⟨_, himm, _, -, hcheck⟩ := h
      obtain ⟨rfl, hsound⟩ := checkRuleTables_eq_ok hcheck
      obtain ⟨hmem, rfl⟩ := (find?_key_eq_some_iff hs.line_ids).1 hfound
      exact ⟨.updateLine hmem (hs.unposted_of_lines himm), hsound⟩
  | deleteLine id =>
    cases hfound : t.findLine id with
    | none =>
      simp only [RuleTables.execute, hfound, Except.ok.injEq] at h
      exact h ▸ ⟨.missing fun _ _ heq => RuleStatement.noConfusion heq, hs⟩
    | some old =>
      simp only [RuleTables.execute, hfound, Except.bind_eq_ok] at h
      obtain ⟨_, himm, hcheck⟩ := h
      obtain ⟨rfl, hsound⟩ := checkRuleTables_eq_ok hcheck
      obtain ⟨hmem, rfl⟩ := (find?_key_eq_some_iff hs.line_ids).1 hfound
      exact ⟨.deleteLine hmem (hs.unposted_of_lines himm), hsound⟩
  | insertEntry new =>
    simp only [RuleTables.execute, Except.bind_eq_ok] at h
    obtain ⟨_, -, hcheck⟩ := h
    obtain ⟨rfl, hsound⟩ := checkRuleTables_eq_ok hcheck
    exact ⟨.insertEntry, hsound⟩
  | updateEntry id new =>
    cases hfound : t.findEntry id with
    | none =>
      simp only [RuleTables.execute, hfound, Except.ok.injEq] at h
      exact h ▸ ⟨.missing fun _ _ heq => RuleStatement.noConfusion heq, hs⟩
    | some old =>
      simp only [RuleTables.execute, hfound, Except.bind_eq_ok] at h
      obtain ⟨_, himm, _, -, hcheck⟩ := h
      obtain ⟨rfl, hsound⟩ := checkRuleTables_eq_ok hcheck
      obtain ⟨hmem, rfl⟩ := (find?_key_eq_some_iff hs.entry_ids).1 hfound
      exact ⟨.updateEntry hmem (reposted_of_entries himm), hsound⟩
  | deleteEntry id =>
    cases hfound : t.findEntry id with
    | none =>
      simp only [RuleTables.execute, hfound, Except.ok.injEq] at h
      exact h ▸ ⟨.missing fun _ _ heq => RuleStatement.noConfusion heq, hs⟩
    | some old =>
      simp only [RuleTables.execute, hfound, Except.bind_eq_ok] at h
      obtain ⟨_, himm, hcheck⟩ := h
      obtain ⟨rfl, hsound⟩ := checkRuleTables_eq_ok hcheck
      obtain ⟨hmem, rfl⟩ := (find?_key_eq_some_iff hs.entry_ids).1 hfound
      refine ⟨.deleteEntry hmem ?_, hsound⟩
      exact (Except.require_eq_ok.1 himm).resolve_right (by simp)

theorem not_draft_of_rulePosted (hp : e.isPosted = true) : e.status ≠ .draft := by
  intro hdraft
  simp [RuleEntry.isPosted, hdraft] at hp

theorem postedUnder_of_mem (he : e ∈ t.entries) (hp : e.isPosted = true)
    (hid : e.postingRuleVersionId = some id) :
    t.postedUnder id = true :=
  List.any_eq_true.2 ⟨e, he, by simp [hp, hid]⟩

theorem RuleEffect.postedUnder (hs : t.Sound) (h : RuleEffect t statement t')
    (hp : t.postedUnder id = true) : t'.postedUnder id = true := by
  obtain ⟨e, he, hpost⟩ := List.any_eq_true.1 hp
  rw [Bool.and_eq_true, beq_iff_eq] at hpost
  cases h with
  | insertEntry => exact postedUnder_of_mem (List.mem_append_left _ he) hpost.1 hpost.2
  | @updateEntry new old found allowed =>
    by_cases hsame : e.id = old.id
    · obtain rfl := eq_of_key hs.entry_ids found he hsame
      obtain ⟨hnew, -, hversion⟩ := allowed.resolve_left (not_draft_of_rulePosted hpost.1)
      exact postedUnder_of_mem (new_mem_replaceRow found) hnew (hversion.trans hpost.2)
    · exact postedUnder_of_mem (mem_replaceRow he hsame) hpost.1 hpost.2
  | @deleteEntry old found draft =>
    have hother : e.id ≠ old.id := by
      intro hsame
      obtain rfl := eq_of_key hs.entry_ids found he hsame
      exact not_draft_of_rulePosted hpost.1 draft
    exact postedUnder_of_mem (List.mem_filter.2 ⟨he, bne_iff_ne.2 hother⟩) hpost.1 hpost.2
  | _ => exact hp

theorem RuleTables.Sound.textOf_eq (hs : t.Sound) {v : StoredVersion} (hv : v ∈ t.versions) :
    t.textOf v.id = some v.text := by
  rw [RuleTables.textOf, RuleTables.findVersion, (find?_key_eq_some_iff hs.version_ids).2 ⟨hv, rfl⟩,
    Option.map_some]

theorem RuleEffect.textOf (hs : t.Sound) (hs' : t'.Sound) (h : RuleEffect t statement t')
    (hp : t.postedUnder id = true) : t'.textOf id = t.textOf id := by
  obtain ⟨v, hfound⟩ := hs.find_postedUnder hp
  obtain ⟨hv, rfl⟩ := (find?_key_eq_some_iff hs.version_ids).1 hfound
  rw [hs.textOf_eq hv]
  cases h with
  | insertVersion => exact hs'.textOf_eq (List.mem_append_left _ hv)
  | @updateVersion new old found allowed =>
    by_cases hsame : v.id = old.id
    · obtain rfl := eq_of_key hs.version_ids found hv hsame
      have htext := allowed hp
      have hid := congrArg StoredVersion.id htext
      have hnew := hs'.textOf_eq (new_mem_replaceRow found)
      rw [htext] at hnew
      exact (congrArg _ hid.symm).trans hnew
    · exact hs'.textOf_eq (mem_replaceRow hv hsame)
  | @deleteVersion id unposted =>
    refine hs'.textOf_eq (List.mem_filter.2 ⟨hv, bne_iff_ne.2 ?_⟩)
    rintro rfl
    rw [unposted] at hp
    cases hp
  | _ => exact hs.textOf_eq hv

def ruleLinesLeft (lines : List StoredRuleLine) : RuleStatement → List StoredRuleLine
  | .updateLine id _ => lines.filter (·.id != id)
  | _ => lines

theorem ne_of_unposted {id' : VersionId} (hp : t.postedUnder id = true)
    (hp' : t.postedUnder id' = false) : id' ≠ id := by
  rintro rfl
  rw [hp] at hp'
  cases hp'

theorem RuleEffect.linesOf (hs : t.Sound) (h : RuleEffect t statement t')
    (hp : t.postedUnder id = true) : t'.linesOf id = ruleLinesLeft (t.linesOf id) statement := by
  cases h with
  | deleteVersion unposted => exact childrenOf_removeParent (ne_of_unposted hp unposted).symm
  | insertLine unposted => exact childrenOf_append (ne_of_unposted hp unposted)
  | updateLine found unposted => exact childrenOf_replace (ne_of_unposted hp unposted)
  | deleteLine found unposted =>
    exact childrenOf_remove hs.line_ids found (ne_of_unposted hp unposted)
  | missing nothing =>
    cases statement with
    | updateLine lineId new =>
      have hnone := List.find?_eq_none.1 (nothing lineId new rfl)
      refine (List.filter_eq_self.2 fun l hl => bne_iff_ne.2 fun hid => ?_).symm
      exact hnone l (mem_childrenOf.1 hl).1 (beq_iff_eq.2 hid)
    | _ => rfl
  | _ => rfl

theorem RuleEffect.unposted_of_updateLine {id : RuleLineId} {new old : StoredRuleLine}
    (h : RuleEffect t (.updateLine id new) t') (hfound : t.findLine id = some old) :
    t.postedUnder new.postingRuleVersionId = false := by
  generalize hst : RuleStatement.updateLine id new = updated at h
  cases h with
  | updateLine found unposted =>
    cases hst
    exact unposted
  | missing nothing =>
    rw [nothing id new hst.symm] at hfound
    cases hfound
  | _ => cases hst

end Statement

namespace RuleHistory

variable {h : RuleHistory} {statement : RuleStatement}

structure Ordered (h : RuleHistory) : Prop where
  sound : h.current.Sound
  current_mem : h.current ∈ h.passed
  postedUnder : ∀ t ∈ h.passed, ∀ id, t.postedUnder id = true → h.current.postedUnder id = true

theorem start_ordered : start.Ordered where
  sound := ⟨List.nodup_nil, List.nodup_nil, List.nodup_nil, fun _ he => by cases he⟩
  current_mem := List.mem_singleton_self _
  postedUnder t ht id hp := by
    rw [List.mem_singleton.1 ht] at hp
    exact hp

theorem start_frozen : start.Frozen := by
  intro t ht id hp
  rw [List.mem_singleton.1 ht] at hp
  cases hp

theorem keepsLines_iff (ho : h.Ordered) {t' : RuleTables}
    (hx : h.current.execute statement = .ok t') :
    (∀ id, h.current.postedUnder id = true → t'.linesOf id = h.current.linesOf id) ↔
      h.LeavesReferenced statement := by
  have heffect := (execute_ruleEffect ho.sound hx).1
  cases statement with
  | updateLine lineId new =>
    have hreturns : Except.returns (h.current.execute (.updateLine lineId new)) = true := by
      rw [hx]
      rfl
    rw [LeavesReferenced, forall_prop_of_true hreturns]
    constructor
    · intro hkeeps old hfound hp
      obtain ⟨hold, rfl⟩ := (find?_key_eq_some_iff ho.sound.line_ids).1 hfound
      have hleft := heffect.linesOf ho.sound hp
      rw [hkeeps _ hp, ruleLinesLeft, eq_comm, RuleTables.linesOf,
        filter_key_eq_self_iff ho.sound.line_ids hold] at hleft
      exact absurd rfl hleft
    · intro hstays id hp
      rw [heffect.linesOf ho.sound hp, ruleLinesLeft]
      cases hfound : h.current.findLine lineId with
      | none =>
        refine List.filter_eq_self.2 fun l hl => bne_iff_ne.2 fun hid => ?_
        exact List.find?_eq_none.1 hfound l (mem_childrenOf.1 hl).1 (beq_iff_eq.2 hid)
      | some old =>
        obtain ⟨hold, rfl⟩ := (find?_key_eq_some_iff ho.sound.line_ids).1 hfound
        refine (filter_key_eq_self_iff ho.sound.line_ids hold).2 ?_
        intro hparent
        have hunposted := heffect.unposted_of_updateLine hfound
        rw [hstays old hfound (hparent ▸ hp), hparent, hp] at hunposted
        cases hunposted
  | _ => exact iff_of_true (fun id hp => heffect.linesOf ho.sound hp) trivial

theorem Ordered.step_ordered (ho : h.Ordered) (statement : RuleStatement) :
    (h.step statement).Ordered := by
  unfold step RuleTables.step
  cases hx : h.current.execute statement with
  | error e =>
    refine ⟨ho.sound, List.mem_append_left _ ho.current_mem, fun t ht => ?_⟩
    rcases List.mem_append.1 ht with ht | ht
    · exact ho.postedUnder t ht
    · rw [List.mem_singleton.1 ht]
      exact fun _ hp => hp
  | ok t' =>
    obtain ⟨heffect, hsound⟩ := execute_ruleEffect ho.sound hx
    refine ⟨hsound, List.mem_append_right _ (List.mem_singleton_self _), fun t ht => ?_⟩
    rcases List.mem_append.1 ht with ht | ht
    · exact fun id hp => heffect.postedUnder ho.sound (ho.postedUnder t ht id hp)
    · rw [List.mem_singleton.1 ht]
      exact fun _ hp => hp

theorem step_frozen_iff (ho : h.Ordered) (hf : h.Frozen) :
    (h.step statement).Frozen ↔ h.LeavesReferenced statement := by
  unfold step RuleTables.step
  cases hx : h.current.execute statement with
  | error e =>
    refine iff_of_true (fun t ht => ?_) ?_
    · rcases List.mem_append.1 ht with ht | ht
      · exact hf t ht
      · rw [List.mem_singleton.1 ht]
        exact fun _ _ => ⟨rfl, rfl⟩
    · cases statement with
      | updateLine id new =>
        intro hreturns
        rw [hx] at hreturns
        cases hreturns
      | _ => trivial
  | ok t' =>
    obtain ⟨heffect, hsound⟩ := execute_ruleEffect ho.sound hx
    rw [← keepsLines_iff ho hx]
    constructor
    · intro hfrozen id hp
      exact (hfrozen _ (List.mem_append_left _ ho.current_mem) id hp).2
    · intro hkeeps t ht id hp
      rcases List.mem_append.1 ht with ht | ht
      · have hnow := ho.postedUnder t ht id hp
        obtain ⟨htext, hlines⟩ := hf t ht id hp
        exact ⟨(heffect.textOf ho.sound hsound hnow).trans htext, (hkeeps id hnow).trans hlines⟩
      · rw [List.mem_singleton.1 ht]
        exact ⟨rfl, rfl⟩

end RuleHistory

/-- From empty tables on, no version changes under posted entries exactly when no UPDATE moves one
of its lines to another version. -/
theorem rule_guard_iff (statements : List RuleStatement) :
    Runs.Along RuleHistory.step RuleHistory.Frozen .start statements ↔
      Runs.Meets RuleHistory.step RuleHistory.LeavesReferenced .start statements :=
  Runs.along_iff_meets (fun _ statement (ho : RuleHistory.Ordered _) _ => ho.step_ordered statement)
    (fun _ _ ho hf => RuleHistory.step_frozen_iff ho hf) RuleHistory.start_ordered
    RuleHistory.start_frozen

namespace GuardedRules

def version (id : VersionId) (number : ℤ) (status : PostingRuleVersionStatus) : StoredVersion where
  id := id
  postingRuleId := 0
  version := number
  status := status
  predicates := {}
  note := none
  createdByUserId := none
  createdAt := ⟨⟨2026, 1, 5⟩, 0⟩

def line (versionId : VersionId) : StoredRuleLine where
  id := 0
  postingRuleVersionId := versionId
  lineNumber := 1
  accountSystemKey := some "suspense"
  ledgerAccountId := none
  amountSource := .remainder
  amountMultiplier := moneyUnits
  inheritEntity := true
  dimensionValueId := none
  descriptionTemplate := none
  createdAt := ⟨⟨2026, 1, 5⟩, 0⟩

def entry : RuleEntry := ⟨0, .posted, .postingRule, some 0⟩

def statements : List RuleStatement :=
  [.insertVersion (version 0 1 .active), .insertLine (line 0), .insertEntry entry,
    .insertVersion (version 1 2 .draft), .updateLine 0 (line 1)]

def posted : RuleTables := ⟨[version 0 1 .active], [line 0], [entry]⟩

def moved : RuleTables := ⟨[version 0 1 .active, version 1 2 .draft], [line 1], [entry]⟩

end GuardedRules

theorem rule_line_moved_to_draft : ¬ ∀ statements : List RuleStatement,
    Runs.Along RuleHistory.step RuleHistory.Frozen .start statements := by
  intro hall
  have hpassed : GuardedRules.posted ∈
      (Runs.run RuleHistory.step .start GuardedRules.statements).passed := by
    decide +kernel
  have hcurrent : (Runs.run RuleHistory.step .start GuardedRules.statements).current =
      GuardedRules.moved := by
    decide +kernel
  have hlines := ((hall GuardedRules.statements).last _ hpassed 0 rfl).2
  rw [hcurrent] at hlines
  exact absurd hlines (by decide)

/-! ## The versions posted under -/

/-- What was posted under in `t` still is, with the text it had and no line that it lacked. -/
def RuleTables.Preserves (t t' : RuleTables) : Prop :=
  ∀ id, t.postedUnder id = true → t'.postedUnder id = true ∧ t'.textOf id = t.textOf id ∧
    (t'.linesOf id).Sublist (t.linesOf id)

namespace RuleHistory

variable {h : RuleHistory}

def Preserved (h : RuleHistory) : Prop :=
  h.Ordered ∧ ∀ t ∈ h.passed, t.Preserves h.current

theorem start_preserved : start.Preserved := by
  refine ⟨start_ordered, fun t ht id hp => ?_⟩
  rw [List.mem_singleton.1 ht] at hp
  cases hp

theorem ruleLinesLeft_sublist (lines : List StoredRuleLine) (statement : RuleStatement) :
    (ruleLinesLeft lines statement).Sublist lines := by
  cases statement with
  | updateLine id new => exact List.filter_sublist
  | _ => exact .refl _

theorem Preserved.step (hs : h.Preserved) (statement : RuleStatement) :
    (h.step statement).Preserved := by
  refine ⟨hs.1.step_ordered statement, ?_⟩
  have hnow : h.current.Preserves (h.current.step statement) := by
    intro id hp
    unfold RuleTables.step
    cases hx : h.current.execute statement with
    | error e => exact ⟨hp, rfl, .refl _⟩
    | ok t' =>
      obtain ⟨heffect, hsound⟩ := execute_ruleEffect hs.1.sound hx
      refine ⟨heffect.postedUnder hs.1.sound hp, heffect.textOf hs.1.sound hsound hp, ?_⟩
      show (t'.linesOf id).Sublist _
      rw [heffect.linesOf hs.1.sound hp]
      exact ruleLinesLeft_sublist _ _
  intro t ht id hp
  rcases List.mem_append.1 ht with ht | ht
  · obtain ⟨hbefore, htext, hlines⟩ := hs.2 t ht id hp
    obtain ⟨hafter, htext', hlines'⟩ := hnow id hbefore
    exact ⟨hafter, htext'.trans htext, hlines'.trans hlines⟩
  · rw [List.mem_singleton.1 ht] at hp ⊢
    exact ⟨hp, rfl, .refl _⟩

end RuleHistory

/-- Whatever statements are made, a version that was posted under once keeps its text and gains no
line. -/
theorem posted_versions_stay (statements : List RuleStatement) :
    Runs.Along RuleHistory.step (fun h => ∀ t ∈ h.passed, t.Preserves h.current) .start
      statements := by
  have hkept : Runs.Along RuleHistory.step RuleHistory.Preserved .start statements :=
    Runs.along_of_step (fun _ statement hs => hs.step statement) RuleHistory.start_preserved
  exact hkept.mono fun _ hs => hs.2

end Loxep

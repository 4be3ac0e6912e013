import Loxep.IpAliases
import Loxep.Lib.Runs
import Loxep.Lib.StaleCopies

/-!
# When the operators' edits survive

A sweep and an operator's call both write a whole map back, made from what they have read.
-/

namespace Loxep

open StaleCopies

def IpAliasEntry.declared (entry : IpAliasEntry) : IpAliasEntry :=
  { entry with
    address := ""
    previousAddress := none
    observedAt := none }

def IpAliasMap.Agree (names : AliasName → Prop) (detected : List AliasName) (m m' : IpAliasMap)
    : Prop :=
  StaleCopies.Agree IpAliasEntry.declared names (· ∈ detected) m.find m'.find

namespace AliasSystem

/-- The setting is as the operators' edits make it, apart from the address, the previous address
and the observation of aliases that a sweep has detected a change for. -/
def Contains (s : AliasSystem) : Prop :=
  IpAliasMap.Agree (fun _ => True) s.detected s.setting s.edited

/-- Whoever writes holds a copy that agrees with the setting: the sweep apart from the address it
has detected, an operator's call apart from the alias it edits. -/
def WritesFresh (s : AliasSystem) : AliasAction → Prop
  | .proceedSweep => match s.sweep with
    | .storing context changed =>
      (context.stored changed).aliases.valid = true →
        IpAliasMap.Agree (fun _ => True) (changed.name :: s.detected)
          (context.stored changed).aliases s.setting
    | _ => True
  | .write call => match s.operator call with
    | .writing current edit =>
      (edit.apply current).valid = true →
        IpAliasMap.Agree (· ≠ edit.name) s.detected current s.setting
    | _ => True
  | _ => True

end AliasSystem

namespace IpAliasMap

variable {m m' : IpAliasMap} {name other : AliasName} {entry : IpAliasEntry}

theorem find_put : (m.put name entry).find other =
    if other = name then some entry else m.find other := by
  unfold find put
  rw [KeyedTable.get_upsert fun _ _ => rfl]
  split_ifs
  · rcases KeyedTable.get Prod.fst m other with _ | _ <;> rfl
  · rfl

theorem find_erase : (m.erase name).find other = if other = name then none else m.find other := by
  unfold find erase KeyedTable.get
  rw [List.find?_filter]
  split_ifs with hname
  · rw [Option.map_eq_none_iff, List.find?_eq_none]
    intro row _
    simp [hname]
  · congr 2
    funext row
    by_cases hrow : row.1 = other
    · simp [hrow, hname]
    · simp [hrow]

end IpAliasMap

namespace AliasEdit

variable {m m' : IpAliasMap} {edit : AliasEdit} {other : AliasName}

theorem find_apply_of_ne (h : other ≠ edit.name) : (edit.apply m).find other = m.find other := by
  cases edit with
  | put name entry => exact IpAliasMap.find_put.trans (if_neg h)
  | erase name => exact IpAliasMap.find_erase.trans (if_neg h)

theorem find_apply_name : (edit.apply m).find edit.name = (edit.apply m').find edit.name := by
  cases edit with
  | put name entry =>
    exact (IpAliasMap.find_put.trans (if_pos rfl)).trans
      (IpAliasMap.find_put.trans (if_pos rfl)).symm
  | erase name =>
    exact (IpAliasMap.find_erase.trans (if_pos rfl)).trans
      (IpAliasMap.find_erase.trans (if_pos rfl)).symm

theorem agree_apply_iff {detected : List AliasName} :
    IpAliasMap.Agree (fun _ => True) (detected.filter fun name => decide (name ≠ edit.name))
        (edit.apply m) (edit.apply m') ↔
      IpAliasMap.Agree (· ≠ edit.name) detected m m' := by
  have hloose : (· ∈ detected.filter fun name => decide (name ≠ edit.name)) =
      fun name => name ∈ detected ∧ name ≠ edit.name := by
    funext name
    simp
  unfold IpAliasMap.Agree
  rw [hloose]
  exact StaleCopies.Agree.iff_off find_apply_name (fun _ => find_apply_of_ne)
    fun _ => find_apply_of_ne

end AliasEdit

namespace AliasSystem

variable {s : AliasSystem} {action : AliasAction} {call : OperatorCallId}

theorem contains_storeDetected_iff {context : SweepContext} {changed : ChangedAlias}
    (hs : s.Contains) : (s.storeDetected context changed).Contains ↔
      ((context.stored changed).aliases.valid = true →
        IpAliasMap.Agree (fun _ => True) (changed.name :: s.detected)
          (context.stored changed).aliases s.setting) := by
  unfold storeDetected
  simp only
  split_ifs with hvalid
  · have hloose : IpAliasMap.Agree (fun _ => True) (changed.name :: s.detected) s.setting
        s.edited := hs.mono (fun _ h => h) fun _ h => List.mem_cons_of_mem _ h
    rw [forall_prop_of_true hvalid]
    exact hloose.iff_of_agree
  · exact iff_of_true hs fun h => absurd h hvalid

theorem contains_write_iff (hs : s.Contains) :
    (s.write call).Contains ↔ s.WritesFresh (.write call) := by
  rcases hstage : s.operator call with _ | operator | ⟨current, edit⟩
  · simp only [write, WritesFresh, hstage]
    exact iff_of_true hs trivial
  · simp only [write, WritesFresh, hstage]
    exact iff_of_true hs trivial
  · simp only [write, WritesFresh, hstage]
    split_ifs with hvalid
    · have hoff : IpAliasMap.Agree (· ≠ edit.name) s.detected s.setting s.edited :=
        hs.mono (fun _ _ => trivial) fun _ h => h
      rw [forall_prop_of_true hvalid]
      exact AliasEdit.agree_apply_iff.trans (StaleCopies.Agree.iff_of_agree hoff)
    · exact iff_of_true hs fun h => absurd h hvalid

/-- All that the edits survive by is left as it was. -/
structure SameSetting (s s' : AliasSystem) : Prop where
  setting : s'.setting = s.setting
  edited : s'.edited = s.edited
  detected : s'.detected = s.detected

theorem SameSetting.contains {s' : AliasSystem} (h : s.SameSetting s') (hs : s.Contains) :
    s'.Contains := by
  unfold Contains
  rw [h.setting, h.edited, h.detected]
  exact hs

theorem sameSetting_record {context : SweepContext} {fanOut : FanOut} {first : ProxyRuleRow} :
    s.SameSetting (s.record context fanOut first) := by
  unfold record
  simp only
  split_ifs <;> exact ⟨rfl, rfl, rfl⟩

theorem contains_proceedSweep_iff (hs : s.Contains) :
    s.proceedSweep.Contains ↔ s.WritesFresh .proceedSweep := by
  rcases hstage : s.sweep with outcomes | _ | now | context | ⟨context, changed⟩ |
    ⟨context, changed⟩ | ⟨context, fanOut⟩ | ⟨context, fanOut, rule⟩ | ⟨context, fanOut, first⟩ |
    ⟨context, fanOut⟩
  all_goals simp only [proceedSweep, WritesFresh, hstage]
  case storing => exact contains_storeDetected_iff hs
  case recording => exact iff_of_true (sameSetting_record.contains hs) trivial
  case resolving =>
    refine iff_of_true ?_ trivial
    split_ifs <;> exact hs
  all_goals exact iff_of_true hs trivial

theorem sameSetting_detect {reading : DetectorReading} : s.SameSetting (s.detect reading) := by
  unfold detect
  split <;> exact ⟨rfl, rfl, rfl⟩

theorem sameSetting_resolve {found : Bool} {observed : Option (List ObservedProxyRule)} :
    s.SameSetting (s.resolve found observed) := by
  unfold resolve
  split
  · split <;> exact ⟨rfl, rfl, rfl⟩
  · exact ⟨rfl, rfl, rfl⟩

theorem sameSetting_reconcile {applied : Option ℕ} : s.SameSetting (s.reconcile applied) := by
  unfold reconcile
  split <;> exact ⟨rfl, rfl, rfl⟩

variable {now : ℕ}

theorem sameSetting_startSweep : s.SameSetting (s.startSweep now) := by
  unfold startSweep
  split <;> exact ⟨rfl, rfl, rfl⟩

theorem sameSetting_failSweep : s.SameSetting s.failSweep := by
  unfold failSweep
  split <;> exact ⟨rfl, rfl, rfl⟩

theorem sameSetting_request {operator : OperatorRequest} :
    s.SameSetting (s.request call operator) := by
  unfold request
  split <;> exact ⟨rfl, rfl, rfl⟩

theorem sameSetting_read : s.SameSetting (s.read call now) := by
  unfold read
  split
  · split <;> exact ⟨rfl, rfl, rfl⟩
  · exact ⟨rfl, rfl, rfl⟩

theorem contains_step_iff (hs : s.Contains) : (s.step action).Contains ↔ s.WritesFresh action := by
  cases action with
  | proceedSweep => exact contains_proceedSweep_iff hs
  | write call => exact contains_write_iff hs
  | startSweep now => exact iff_of_true (sameSetting_startSweep.contains hs) trivial
  | detect reading => exact iff_of_true (sameSetting_detect.contains hs) trivial
  | resolve found observed => exact iff_of_true (sameSetting_resolve.contains hs) trivial
  | reconcile applied => exact iff_of_true (sameSetting_reconcile.contains hs) trivial
  | failSweep => exact iff_of_true (sameSetting_failSweep.contains hs) trivial
  | request call operator => exact iff_of_true (sameSetting_request.contains hs) trivial
  | read call now => exact iff_of_true (sameSetting_read.contains hs) trivial
  | abandon call | setRules rules => exact iff_of_true hs trivial

theorem contains_withAliases (setting : IpAliasMap) : (withAliases setting).Contains :=
  StaleCopies.Agree.refl _

/-- Under any sweeps and operators' calls, the setting contains the operators' edits exactly as long
as whoever writes the map holds a copy that still agrees with it. -/
theorem edits_contained_iff (setting : IpAliasMap) (actions : List AliasAction) :
    Runs.Along step Contains (withAliases setting) actions ↔
      Runs.Meets step WritesFresh (withAliases setting) actions := by
  have hinv : ∀ (s : AliasSystem) (_ : AliasAction), True → s.Contains → True :=
    fun _ _ _ _ => trivial
  exact Runs.along_iff_meets hinv (fun s action _ hs => contains_step_iff hs) trivial
    (contains_withAliases setting)

end AliasSystem

section Examples

namespace SmallAliases

open AliasAction

def aliases : IpAliasMap :=
  [("home", { address := "203.0.113.4", source := .dns, hostname := some "home.example" }),
    ("office", { address := "198.51.100.7", source := .manual })]

def deletedMeanwhile : List AliasAction :=
  [startSweep 1, proceedSweep,
    request 0 (.deleteIpAlias "office"), read 0 2, write 0,
    detect { addresses := some ["203.0.113.9"] }, proceedSweep, proceedSweep, proceedSweep,
    detect {}, detect {}]

end SmallAliases

open SmallAliases AliasSystem

theorem removed_alias_returns : ¬ ∀ (setting : IpAliasMap) (actions : List AliasAction),
    (Runs.run step (withAliases setting) actions).Finished →
      (Runs.run step (withAliases setting) actions).Contains := by
  intro h
  have hfinished : (Runs.run step (withAliases aliases) deletedMeanwhile).Finished := by
    refine ⟨⟨_, rfl⟩, fun call => ?_⟩
    by_cases hcall : call = 0
    · rw [hcall]
      rfl
    · show (if call = 0 then _ else if call = 0 then _ else if call = 0 then _ else _) = _
      rw [if_neg hcall, if_neg hcall, if_neg hcall]
      rfl
  have hoffice := (h aliases deletedMeanwhile hfinished "office" trivial).1
  revert hoffice
  decide

end Examples

end Loxep

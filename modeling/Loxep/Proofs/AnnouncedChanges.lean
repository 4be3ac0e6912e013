import Loxep.IpAliases
import Loxep.Lib.Runs

/-!
# When every changed address is announced

A sweep stores the new address first and then reconciles the resources behind its rules and records
an event. The next sweep compares with the stored address, so that what a sweep leaves undone is
never made up for.
-/

namespace Loxep

def AliasChange.Announced (change : AliasChange) : Prop :=
  ∃ bound, change.bound = some bound ∧ (∀ id ∈ bound, id ∈ change.reconciled.map (·.1)) ∧
    change.events = 1

namespace AliasSystem

structure Unswept (s : AliasSystem) : Prop where
  sweep : s.sweep = .done []
  changes : s.changes = []

def AllAnnounced (s : AliasSystem) : Prop :=
  ∀ outcomes, s.sweep = .done outcomes → ∀ change ∈ s.changes, change.Announced

/-- A sweep that has stored an address is not cut off before its event is recorded, every hosting
target it comes to has a provider, some rule is on the alias, and the key of the event is new. -/
def fansOut (s : AliasSystem) : AliasAction → Bool
  | .failSweep => match s.sweep with
    | .listing _ _ | .resolving _ _ | .reconciling _ _ _ | .recording _ _ _ => false
    | _ => true
  | .resolve found _ => match s.sweep with
    | .resolving _ fanOut => found || fanOut.left.isEmpty
    | _ => true
  | .proceedSweep => match s.sweep with
    | .resolving _ fanOut => !(fanOut.left.isEmpty && fanOut.referencing.isEmpty)
    | .recording _ fanOut _ => !s.isRecorded
        (.text (ipAliasDeduplicationKey fanOut.name fanOut.entry.previousAddress
          fanOut.entry.address))
    | _ => true
  | _ => true

end AliasSystem

variable {changes : List AliasChange} {todo : AliasChange → Prop}

def Pending (changes : List AliasChange) (todo : AliasChange → Prop) : Prop :=
  ∃ change earlier, changes = change :: earlier ∧ (∀ other ∈ earlier, other.Announced) ∧
    change.events = 0 ∧ todo change

def FanOut.Covers (fanOut : FanOut) (left : List ProxyRuleRow) (change : AliasChange) : Prop :=
  change.bound = some (fanOut.referencing.map (·.resourceId)) ∧
    ∀ rule ∈ fanOut.referencing, rule.resourceId ∈ change.reconciled.map (·.1) ∨ rule ∈ left

def SweepStage.Progress (changes : List AliasChange) : SweepStage → Prop
  | .listing _ _ => Pending changes fun _ => True
  | .resolving _ fanOut => Pending changes (fanOut.Covers fanOut.left)
  | .reconciling _ fanOut rule => Pending changes (fanOut.Covers (rule :: fanOut.left))
  | .recording _ fanOut _ => Pending changes (fanOut.Covers [])
  | _ => ∀ change ∈ changes, change.Announced

variable {fanOut : FanOut} {change : AliasChange}

theorem FanOut.Covers.announced (h : fanOut.Covers [] change) (hevents : change.events = 0) :
    AliasChange.Announced { change with events := change.events + 1 } := by
  obtain ⟨hbound, hall⟩ := h
  refine ⟨_, hbound, ?_, by simp [hevents]⟩
  intro id hid
  obtain ⟨rule, hrule, rfl⟩ := List.mem_map.1 hid
  rcases hall rule hrule with h | h
  · exact h
  · cases h

theorem FanOut.Covers.reconciled {rule : ProxyRuleRow} {left : List ProxyRuleRow}
    {mode : ReconcileMode} (h : fanOut.Covers (rule :: left) change) :
    fanOut.Covers left
      { change with reconciled := change.reconciled ++ [(rule.resourceId, mode)] } := by
  refine ⟨h.1, fun other hother => ?_⟩
  rw [List.map_append, List.mem_append]
  rcases h.2 other hother with hdone | hleft
  · exact Or.inl (Or.inl hdone)
  · rcases List.mem_cons.1 hleft with rfl | hleft
    · exact Or.inl (Or.inr (by simp))
    · exact Or.inr hleft

theorem announced_detect {context : SweepContext} {reading : DetectorReading}
    (h : ∀ change ∈ changes, change.Announced) : (context.detect reading).Progress changes := by
  unfold SweepContext.detect
  split
  · exact h
  · extract_lets next
    split_ifs
    · exact h
    · split
      · exact h
      · split_ifs <;> exact h

namespace AliasSystem

variable {s : AliasSystem} {action : AliasAction}

theorem changes_noteChange {f : AliasChange → AliasChange} {change : AliasChange}
    {earlier : List AliasChange} (h : s.changes = change :: earlier) :
    (s.noteChange f).changes = f change :: earlier := by
  unfold noteChange
  rw [h]

structure Inv (s : AliasSystem) : Prop where
  progress : s.sweep.Progress s.changes

namespace Inv

theorem at_stage (hs : s.Inv) {stage : SweepStage} (hsweep : s.sweep = stage) :
    stage.Progress s.changes := by
  have h := hs.progress
  rwa [hsweep] at h

theorem allAnnounced (hs : s.Inv) : s.AllAnnounced := fun _ hsweep => hs.at_stage hsweep

variable {context : SweepContext}

variable {changed : ChangedAlias} {fanOut : FanOut} {now : ℕ}

theorem storeDetected (h : ∀ change ∈ s.changes, change.Announced)
    : (s.storeDetected context changed).Inv := by
  unfold AliasSystem.storeDetected
  extract_lets stored
  split_ifs
  · exact ⟨_, _, rfl, h, rfl, trivial⟩
  · exact ⟨h⟩

theorem list (h : Pending s.changes fun _ => True) : (s.list context changed).Inv := by
  obtain ⟨change, earlier, hchanges, hearlier, hevents, -⟩ := h
  refine ⟨_, _, changes_noteChange hchanges, hearlier, hevents, rfl, ?_⟩
  exact fun rule hrule => Or.inr hrule

theorem record {first : ProxyRuleRow} (h : Pending s.changes (fanOut.Covers []))
    (hnew : s.isRecorded (.text (ipAliasDeduplicationKey fanOut.name fanOut.entry.previousAddress
      fanOut.entry.address)) = false) : (s.record context fanOut first).Inv := by
  obtain ⟨change, earlier, hchanges, hearlier, hevents, hcovers⟩ := h
  have hvalid := validate_ipAliasEvent fanOut.name fanOut.entry first fanOut.plan
    fanOut.anyApplied context.now
  unfold AliasSystem.record
  extract_lets event
  have hvalid' : ¬event.validate = false := by
    rw [hvalid]
    simp
  have hnew' : ¬s.isRecorded event.deduplicationKey = true := by
    rw [Bool.not_eq_true]
    exact hnew
  rw [if_neg hvalid', if_neg hnew']
  refine ⟨fun other hother => ?_⟩
  replace hother : other ∈ (s.noteChange _).changes := hother
  rw [changes_noteChange hchanges] at hother
  rcases List.mem_cons.1 hother with rfl | hother
  · exact hcovers.announced hevents
  · exact hearlier other hother

theorem afterRules (h : Pending s.changes (fanOut.Covers [])) (hrules : fanOut.referencing ≠ []) :
    Inv { s with sweep := fanOut.afterRules context } := by
  unfold FanOut.afterRules
  rcases hreferencing : fanOut.referencing with _ | ⟨first, rest⟩
  · exact absurd hreferencing hrules
  · exact ⟨h⟩

section

variable (hs : s.Inv)
include hs

theorem proceedSweep (hg : s.fansOut .proceedSweep = true) :
    s.proceedSweep.Inv := by
  unfold AliasSystem.proceedSweep
  split
  next now hsweep =>
    have h := hs.at_stage hsweep
    exact ⟨h⟩
  next context changed hsweep => exact storeDetected (hs.at_stage hsweep)
  next context changed hsweep => exact list (hs.at_stage hsweep)
  next context fanOut hsweep =>
    split_ifs with hleft
    · have h : Pending s.changes (fanOut.Covers fanOut.left) := hs.at_stage hsweep
      rw [hleft] at h
      refine afterRules h fun hrules => ?_
      simp [fansOut, hsweep, hleft, hrules] at hg
    · exact hs
  next context fanOut first hsweep =>
    refine record (hs.at_stage hsweep) ?_
    simpa [fansOut, hsweep] using hg
  next context fanOut hsweep =>
    have h := hs.at_stage hsweep
    exact ⟨h⟩
  next => exact hs

theorem resolve {found : Bool} {observed : Option (List ObservedProxyRule)}
    (hg : s.fansOut (.resolve found observed) = true) : (s.resolve found observed).Inv := by
  unfold AliasSystem.resolve
  split
  next context fanOut hsweep =>
    split
    next => exact hs
    next rule left hleft =>
      have h : Pending s.changes (fanOut.Covers fanOut.left) := hs.at_stage hsweep
      rw [hleft] at h
      have hfound : found = true := by simpa [fansOut, hsweep, hleft] using hg
      rw [if_pos hfound]
      exact ⟨h⟩
  next => exact hs

theorem reconcile {applied : Option ℕ} : (s.reconcile applied).Inv := by
  unfold AliasSystem.reconcile
  split
  next context fanOut rule hsweep =>
    obtain ⟨change, earlier, hchanges, hearlier, hevents, hcovers⟩ := hs.at_stage hsweep
    exact ⟨_, _, changes_noteChange hchanges, hearlier, hevents, hcovers.reconciled⟩
  next => exact hs

theorem detect {reading : DetectorReading} : (s.detect reading).Inv := by
  unfold AliasSystem.detect
  split
  next context hsweep => exact ⟨announced_detect (hs.at_stage hsweep)⟩
  next => exact hs

theorem startSweep : (s.startSweep now).Inv := by
  unfold AliasSystem.startSweep
  split
  next outcomes hsweep =>
    have h := hs.at_stage hsweep
    exact ⟨h⟩
  next hsweep =>
    have h := hs.at_stage hsweep
    exact ⟨h⟩
  next => exact hs

theorem failSweep (hg : s.fansOut .failSweep = true) : s.failSweep.Inv := by
  unfold AliasSystem.failSweep
  split
  next => exact hs
  next =>
    refine ⟨?_⟩
    have h := hs.progress
    rcases hsweep : s.sweep with outcomes | _ | now | context | ⟨context, changed⟩ |
      ⟨context, changed⟩ | ⟨context, fanOut⟩ | ⟨context, fanOut, rule⟩ |
      ⟨context, fanOut, first⟩ | ⟨context, fanOut⟩
    all_goals rw [hsweep] at h
    case listing | resolving | reconciling | recording => simp [fansOut, hsweep] at hg
    all_goals exact h

theorem of_same {s' : AliasSystem} (hsweep : s'.sweep = s.sweep) (hchanges : s'.changes = s.changes)
    : s'.Inv := by
  refine ⟨?_⟩
  rw [hsweep, hchanges]
  exact hs.progress

theorem request {call : OperatorCallId} {operator : OperatorRequest} :
    (s.request call operator).Inv := by
  unfold AliasSystem.request
  split
  · exact hs.of_same rfl rfl
  · exact hs

theorem read {call : OperatorCallId} : (s.read call now).Inv := by
  unfold AliasSystem.read
  split
  · split <;> exact hs.of_same rfl rfl
  · exact hs

theorem write {call : OperatorCallId} : (s.write call).Inv := by
  unfold AliasSystem.write
  split
  · extract_lets next
    split_ifs <;> exact hs.of_same rfl rfl
  · exact hs

theorem step (hg : s.fansOut action = true) : (s.step action).Inv := by
  cases action with
  | startSweep now => exact hs.startSweep
  | proceedSweep => exact hs.proceedSweep hg
  | detect reading => exact hs.detect
  | resolve found observed => exact hs.resolve hg
  | reconcile applied => exact hs.reconcile
  | failSweep => exact hs.failSweep hg
  | request call operator => exact hs.request
  | read call now => exact hs.read
  | write call => exact hs.write
  | abandon call | setRules rules => exact hs.of_same rfl rfl

end

end Inv

theorem Unswept.inv (h : s.Unswept) : s.Inv := by
  refine ⟨?_⟩
  rw [h.sweep, h.changes]
  exact fun change hchange => absurd hchange List.not_mem_nil

/-- Over any sweeps, retries and operators' calls, every change of a stored address is announced as
long as each sweep that has stored one fans out. -/
theorem all_announced (hs : s.Unswept) {actions : List AliasAction}
    (hm : Runs.Meets step (fun s action => s.fansOut action = true) s actions) :
    Runs.Along step AllAnnounced s actions := by
  have halong : Runs.Along step Inv s actions :=
    Runs.along_of_meets (fun s action hs hg => hs.step hg) hs.inv hm
  exact halong.mono fun s => Inv.allAnnounced

end AliasSystem

section Examples

namespace SmallSweeps

open AliasAction

def home : AliasSystem :=
  { AliasSystem.withAliases
      [("home", { address := "203.0.113.4", source := .dns, hostname := some "home.example" })] with
    rules :=
      [{ action := "ACCEPT", match_ := "CIDR", priority := 10, enabled := true
         resourceId := 1, hostingTargetId := 1, owner := .dynamicIp, value := "alias:home" }] }

def stored (address : Address) (now : ℕ) : List AliasAction :=
  [startSweep now, proceedSweep, detect { addresses := some [address] }, proceedSweep]

def fannedOut : List AliasAction :=
  [proceedSweep, resolve true, reconcile (some 0), proceedSweep, proceedSweep, proceedSweep,
    detect {}]

def unchanged (address : Address) (now : ℕ) : List AliasAction :=
  [startSweep now, proceedSweep, detect { addresses := some [address] }, detect {}]

/-- The process dies after the write, and the job is run again. -/
def cutOff : List AliasAction :=
  stored "203.0.113.9" 1 ++ failSweep :: unchanged "203.0.113.9" 2

end SmallSweeps

open SmallSweeps AliasSystem

theorem address_never_announced : ¬ ∀ actions, Runs.Along step AllAnnounced home actions := by
  intro h
  have hlast := (h cutOff).last [noChange "home"
    { address := "203.0.113.9", source := .dns, hostname := some "home.example"
      previousAddress := some "203.0.113.4", observedAt := some 1 }] rfl
  obtain ⟨bound, hbound, -⟩ := hlast ⟨"home", some "203.0.113.4", "203.0.113.9", none, [], 0⟩
    (List.mem_singleton.2 rfl)
  cases hbound

theorem move_and_return_announced : Runs.Along step AllAnnounced home
    (stored "203.0.113.9" 1 ++ fannedOut ++ (stored "203.0.113.4" 2 ++ fannedOut)) :=
  all_announced ⟨rfl, rfl⟩ (by decide)

end Examples

end Loxep

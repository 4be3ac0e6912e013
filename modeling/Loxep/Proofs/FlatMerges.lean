import Loxep.CounterpartyMerge
import Loxep.Lib.Runs

/-!
# When merged counterparties stay one pointer away

A merge checks rows that another merge may write before it commits.
-/

namespace Loxep

/-- The merged-into relation has no cycle and no chain, every row resolves to an unmerged one, and
no row points at a merged one. -/
structure MergesFlat (s : MergeTables) : Prop where
  acyclic : ∀ id, ¬ Relation.TransGen (Pointers.PointsTo s.next) id id
  oneLevel : ∀ a b c, Pointers.PointsTo s.next a b → ¬ Pointers.PointsTo s.next b c
  resolves : ∀ id, (s.find id).isSome = true →
    ∃ row, s.resolve id = .ok row.id ∧ s.find row.id = some row ∧ row.mergedInto = none
  sameSurvivor : ∀ a b, Relation.ReflTransGen (Pointers.PointsTo s.next) a b →
    (s.find a).isSome = true → s.resolve a = s.resolve b
  noReferences : s.referencesToMergedRows = []

/-- What is pointed at is there and unmerged. -/
structure PointersFlat (s : MergeTables) : Prop where
  flat : Pointers.Flat s.next
  targets : ∀ a b, s.next a = some b → (s.find b).isSome = true

namespace MergeTables

variable {s : MergeTables} {id target : CounterpartyId} {row : CounterpartyRow}

theorem find_id (h : s.find id = some row) : row.id = id := KeyedTable.get_key h

theorem find_of_mem (h : row ∈ s.counterparties) : s.find row.id = some row := by
  rcases hfind : s.find row.id with _ | other
  · exact absurd rfl (KeyedTable.get_eq_none.1 hfind row h)
  · rw [List.inj_on_of_nodup_map s.ids_nodup (KeyedTable.get_mem hfind) h (find_id hfind)]

theorem next_of_find (h : s.find id = some row) : s.next id = row.mergedInto := by
  rw [next, h, Option.bind_some]

theorem isSome_of_next (h : s.next id = some target) : (s.find id).isSome = true := by
  obtain ⟨row, hrow, -⟩ := Option.bind_eq_some_iff.1 h
  rw [hrow, Option.isSome_some]

theorem find_of_loadState (h : s.loadState id = .ok row) : s.find id = some row := by
  unfold loadState at h
  split at h
  · rename_i found hfind
    rw [hfind, Except.ok.inj h]
  · cases h

theorem resolve_eq_ok (h : (s.find id).isSome = true) :
    s.resolve id = .ok (Pointers.resolve s.next id) := by
  obtain ⟨row, hrow⟩ := Option.isSome_iff_exists.1 h
  unfold resolve loadState Pointers.resolve
  rw [next_of_find hrow, hrow, ← find_id hrow]
  rfl

end MergeTables

theorem mergesFlat_iff {s : MergeTables} : MergesFlat s ↔ PointersFlat s := by
  constructor
  · intro h
    refine ⟨fun a b hab => ?_, fun a b hab => ?_⟩
    · rcases hb : s.next b with _ | c
      · rfl
      · exact absurd hb (h.oneLevel a b c hab)
    · have ha := MergeTables.isSome_of_next hab
      obtain ⟨row, hresolve, hrow, -⟩ := h.resolves a ha
      rw [MergeTables.resolve_eq_ok ha, Pointers.resolve_of_pointsTo hab] at hresolve
      rw [Except.ok.inj hresolve, hrow, Option.isSome_some]
  · intro h
    refine ⟨fun _ => h.flat.acyclic, fun _ _ c hab => h.flat.not_pointsTo hab c, fun id hid => ?_,
      fun a b hchain ha => ?_, ?_⟩
    · have hfound : (s.find (Pointers.resolve s.next id)).isSome = true := by
        rcases hnext : s.next id with _ | target
        · rwa [Pointers.resolve_of_none hnext]
        · rw [Pointers.resolve_of_pointsTo hnext]
          exact h.targets id target hnext
      obtain ⟨row, hrow⟩ := Option.isSome_iff_exists.1 hfound
      have hrowId := MergeTables.find_id hrow
      refine ⟨row, ?_, ?_, ?_⟩
      · rw [MergeTables.resolve_eq_ok hid, hrowId]
      · rw [hrowId]
        exact hrow
      · rw [← MergeTables.next_of_find hrow]
        exact h.flat.next_resolve
    · have hb : (s.find b).isSome = true := by
        rcases Relation.ReflTransGen.cases_tail hchain with rfl | ⟨c, -, hcb⟩
        · exact ha
        · exact h.targets c b hcb
      rw [MergeTables.resolve_eq_ok ha, MergeTables.resolve_eq_ok hb, h.flat.resolve_eq hchain]
    · refine List.filterMap_eq_nil_iff.2 fun row hrow => ?_
      rcases hmerged : row.mergedInto with _ | target
      · rfl
      · have hnext : s.next row.id = some target := by
          rw [MergeTables.next_of_find (MergeTables.find_of_mem hrow), hmerged]
        simp [h.flat _ _ hnext]

theorem mergesFlat_of_unmerged {s : MergeTables}
    (h : ∀ row ∈ s.counterparties, row.mergedInto = none) : MergesFlat s := by
  have hnext : ∀ a b, s.next a ≠ some b := by
    intro a b hab
    obtain ⟨row, hrow, hmerged⟩ := Option.bind_eq_some_iff.1 hab
    rw [h row (KeyedTable.get_mem hrow)] at hmerged
    cases hmerged
  refine mergesFlat_iff.2 ⟨fun a b hab => ?_, fun a b hab => ?_⟩
  · exact absurd hab (hnext a b)
  · exact absurd hab (hnext a b)

structure MovedBy (s : MergeSystem) (session : MergeSessionId) (loser survivor : CounterpartyRow)
    (done : List CounterpartyId) : Prop where
  hasLoser : (s.tables.find loser.id).isSome = true
  hasSurvivor : (s.tables.find survivor.id).isSome = true
  distinct : survivor.id ≠ loser.id
  locked : ∀ id ∈ done, s.lockedBy id = some session
  pointing : ∀ id ∈ done, s.tables.next id = some loser.id
  notSurvivor : survivor.id ∉ done

def MergeStage.Knows (s : MergeSystem) (session : MergeSessionId) : MergeStage → Prop
  | .idle => True
  | .loserRead loser survivorId => (s.tables.find loser.id).isSome = true ∧ survivorId ≠ loser.id
  | .admitted loser survivor => MovedBy s session loser survivor []
  | .compressing loser survivor _ done => MovedBy s session loser survivor done
  | .marked loser survivor done =>
    MovedBy s session loser survivor done ∧ s.lockedBy loser.id = some session
  | .unmerging _ => True
  | .cleared row => s.lockedBy row.id = some session

def MergesKnown (s : MergeSystem) : Prop := ∀ session, (s.stage session).Knows s session

namespace MergeSystem

variable {s s' : MergeSystem} {session other : MergeSessionId} {stage : MergeStage}
variable {loser survivor row : CounterpartyRow} {done left : List CounterpartyId}
variable {id : CounterpartyId}

theorem Knows.mono (hfind : ∀ id, (s.tables.find id).isSome = true →
      (s'.tables.find id).isSome = true)
    (hlocked : ∀ id, s.lockedBy id = some session → s'.lockedBy id = some session
      ∧ s'.tables.next id = s.tables.next id)
    (h : stage.Knows s session) : stage.Knows s' session := by
  have hmoved : ∀ {loser survivor : CounterpartyRow} {done : List CounterpartyId},
      MovedBy s session loser survivor done → MovedBy s' session loser survivor done := by
    intro loser survivor done h
    refine ⟨hfind _ h.hasLoser, hfind _ h.hasSurvivor, h.distinct, fun id hid => ?_,
      fun id hid => ?_, h.notSurvivor⟩
    · exact (hlocked id (h.locked id hid)).1
    · rw [(hlocked id (h.locked id hid)).2]
      exact h.pointing id hid
  cases stage with
  | loserRead loser survivorId => exact ⟨hfind _ h.1, h.2⟩
  | admitted loser survivor => exact hmoved h
  | compressing loser survivor left done => exact hmoved h
  | marked loser survivor done => exact ⟨hmoved h.1, (hlocked _ h.2).1⟩
  | cleared row => exact (hlocked _ h).1
  | _ => trivial

theorem mergesKnown_setStage (h : MergesKnown s) (hstage : stage.Knows s session) :
    MergesKnown (s.setStage session stage) := by
  intro other
  by_cases hother : other = session
  · subst hother
    have heq : (s.setStage other stage).stage other = stage := if_pos rfl
    rw [heq]
    exact Knows.mono (s := s) (fun _ h => h) (fun _ h => ⟨h, rfl⟩) hstage
  · have heq : (s.setStage session stage).stage other = s.stage other := if_neg hother
    rw [heq]
    exact Knows.mono (s := s) (fun _ h => h) (fun _ h => ⟨h, rfl⟩) (h other)

theorem mergesKnown_lock (h : MergesKnown s) (hwaits : s.waits session id = false) :
    MergesKnown (s.lock session id) := by
  intro other
  have hlocks : ∀ locked, s.lockedBy locked = some other →
      (s.lock session id).lockedBy locked = some other ∧
        (s.lock session id).tables.next locked = s.tables.next locked := by
    refine fun locked hlocked => ⟨?_, rfl⟩
    show (if locked = id then some session else s.lockedBy locked) = some other
    split_ifs with heq
    · rw [waits, ← heq, hlocked, Option.any_some, bne_eq_false_iff_eq] at hwaits
      rw [hwaits]
    · exact hlocked
  exact Knows.mono (s := s) (fun _ h => h) hlocks (h other)

theorem mergesKnown_close (h : MergesKnown s) {t : MergeTables}
    (hfind : ∀ id, (s.tables.find id).isSome = true → (t.find id).isSome = true)
    (hnext : ∀ id, s.lockedBy id ≠ some session → t.next id = s.tables.next id) :
    MergesKnown (({ s with tables := t } : MergeSystem).close session) := by
  intro other
  by_cases hother : other = session
  · have heq : (({ s with tables := t } : MergeSystem).close session).stage other = .idle :=
      if_pos hother
    rw [heq]
    trivial
  · have heq : (({ s with tables := t } : MergeSystem).close session).stage other =
        s.stage other := if_neg hother
    rw [heq]
    refine Knows.mono hfind (fun id hlocked => ⟨?_, hnext id ?_⟩) (h other)
    · show (if s.lockedBy id = some session then none else s.lockedBy id) = some other
      rw [if_neg (by simp [hlocked, hother]), hlocked]
    · simp [hlocked, hother]

end MergeSystem

namespace MergeTables

variable {s : MergeTables} {f : CounterpartyRow → CounterpartyRow}
variable {hf : ∀ row, (f row).id = row.id} {id : CounterpartyId}

theorem find_mapRows : (s.mapRows f hf).find id = (s.find id).map f := KeyedTable.get_map hf

theorem next_mapRows :
    (s.mapRows f hf).next id = (s.find id).bind fun row => (f row).mergedInto := by
  rw [next, find_mapRows]
  cases s.find id <;> rfl

end MergeTables

namespace MergeSystem

variable {s : MergeSystem} {session : MergeSessionId} {loser survivor row : CounterpartyRow}
variable {done : List CounterpartyId} {now : Timestamp}

def moves (loser : CounterpartyRow) (done : List CounterpartyId) (id : CounterpartyId) : Prop :=
  id = loser.id ∨ id ∈ done

instance : DecidablePred (moves loser done) := fun _ => inferInstanceAs (Decidable (_ ∨ _))

theorem next_mergeRow (now : Timestamp) (h : MovedBy s session loser survivor done) :
    (s.tables.mapRows (mergeRow loser survivor done now) mergeRow_id).next =
      Pointers.redirect s.tables.next (moves loser done) survivor.id := by
  funext id
  rw [MergeTables.next_mapRows]
  rcases hfind : s.tables.find id with _ | row
  · have hmoved : ¬ moves loser done id := by
      rintro (rfl | hid)
      · have hfound := h.hasLoser
        rw [hfind] at hfound
        cases hfound
      · have hfound := MergeTables.isSome_of_next (h.pointing id hid)
        rw [hfind] at hfound
        cases hfound
    rw [Pointers.redirect, if_neg hmoved, MergeTables.next, hfind]
    rfl
  · have hid := MergeTables.find_id hfind
    rw [Option.bind_some, Pointers.redirect, MergeTables.next_of_find hfind]
    unfold mergeRow moves
    rw [hid]
    by_cases hloser : id = loser.id
    · simp [hloser]
    · by_cases hdone : id ∈ done
      · simp [hloser, hdone]
      · simp [hloser, hdone]

theorem mem_pointingAt {id target : CounterpartyId} :
    id ∈ s.pointingAt target ↔ s.tables.next id = some target := by
  unfold pointingAt
  rw [List.mem_map]
  constructor
  · rintro ⟨row, hrow, rfl⟩
    obtain ⟨hmem, hpoints⟩ := List.mem_filter.1 hrow
    rw [MergeTables.next_of_find (MergeTables.find_of_mem hmem)]
    exact eq_of_beq hpoints
  · intro hnext
    obtain ⟨row, hrow, hpoints⟩ := Option.bind_eq_some_iff.1 hnext
    refine ⟨row, List.mem_filter.2 ⟨KeyedTable.get_mem hrow, ?_⟩, MergeTables.find_id hrow⟩
    rw [hpoints, beq_self_eq_true]

theorem pointersFlat_mergeRow (hmoved : MovedBy s session loser survivor done)
    (hflat : PointersFlat s.tables) :
    PointersFlat (s.tables.mapRows (mergeRow loser survivor done now) mergeRow_id) ↔
      s.tables.next survivor.id = none ∧ ∀ id ∈ s.pointingAt loser.id, id ∈ done := by
  have htarget : ¬ moves loser done survivor.id := by
    rintro (heq | hdone)
    · exact hmoved.distinct heq
    · exact hmoved.notSurvivor hdone
  have hiff := Pointers.flat_redirect_iff hflat.flat (Or.inl rfl : moves loser done loser.id)
    htarget
  rw [← next_mergeRow now hmoved] at hiff
  constructor
  · intro h
    obtain ⟨hnone, hall⟩ := hiff.1 h.flat
    refine ⟨hnone, fun id hid => ?_⟩
    have hpoints := mem_pointingAt.1 hid
    rcases hall id loser.id hpoints (Or.inl rfl) with rfl | hdone
    · exact absurd hpoints (hflat.flat.not_pointsTo hpoints _)
    · exact hdone
  · rintro ⟨hnone, hall⟩
    refine ⟨hiff.2 ⟨hnone, fun b c hbc hc => ?_⟩, fun a b hab => ?_⟩
    · rcases hc with rfl | hdone
      · exact Or.inr (hall b (mem_pointingAt.2 hbc))
      · exact absurd (hmoved.pointing c hdone) (hflat.flat.not_pointsTo hbc _)
    · rw [MergeTables.find_mapRows, Option.isSome_map]
      rw [next_mergeRow now hmoved, Pointers.redirect] at hab
      split_ifs at hab
      · obtain rfl := Option.some.inj hab
        exact hmoved.hasSurvivor
      · exact hflat.targets a b hab

theorem next_clearRow : (s.tables.mapRows (clearRow row) clearRow_id).next =
    fun id => if id = row.id then none else s.tables.next id := by
  funext id
  rw [MergeTables.next_mapRows]
  rcases hfind : s.tables.find id with _ | found
  · rw [MergeTables.next, hfind]
    split_ifs <;> rfl
  · have hid := MergeTables.find_id hfind
    rw [Option.bind_some, MergeTables.next_of_find hfind]
    unfold clearRow
    rw [hid]
    split_ifs <;> rfl

theorem pointersFlat_clearRow (hflat : PointersFlat s.tables) :
    PointersFlat (s.tables.mapRows (clearRow row) clearRow_id) := by
  refine ⟨?_, fun a b hab => ?_⟩
  · rw [next_clearRow]
    exact hflat.flat.clear
  · rw [MergeTables.find_mapRows, Option.isSome_map]
    simp only [next_clearRow] at hab
    split_ifs at hab
    exact hflat.targets a b hab

def SawAll (s : MergeSystem) : MergeStage → Prop
  | .marked loser survivor done =>
    s.tables.next survivor.id = none ∧ ∀ id ∈ s.pointingAt loser.id, id ∈ done
  | _ => True

instance : ∀ stage, Decidable (SawAll s stage)
  | .marked _ _ _ => inferInstanceAs (Decidable (_ ∧ _))
  | .idle | .loserRead _ _ | .admitted _ _ | .compressing _ _ _ _ | .unmerging _ | .cleared _ =>
    .isTrue trivial

def CommitsWhatItSaw (s : MergeSystem) : MergeAction → Prop
  | .commit session _ => SawAll s (s.stage session)
  | _ => True

instance : ∀ action, Decidable (CommitsWhatItSaw s action)
  | .commit _ _ => inferInstanceAs (Decidable (SawAll _ _))
  | .merge _ _ _ | .unmerge _ _ | .proceed _ | .abort _ => .isTrue trivial

theorem tables_proceed : (s.proceed session).tables = s.tables := by
  unfold proceed
  split <;> (try split_ifs) <;> (try split) <;> rfl

theorem mergesKnown_end (h : MergesKnown s) : MergesKnown (s.close session) :=
  mergesKnown_close h (fun _ h => h) fun _ _ => rfl

variable {survivorId counterpartyId : CounterpartyId} {action : MergeAction}

theorem knows_readSurvivor {stage : MergeStage}
    (hknows : (MergeStage.loserRead loser survivorId).Knows s session)
    (hread : s.readSurvivor loser survivorId = .ok stage) : stage.Knows s session := by
  obtain ⟨survivor, hload, hread⟩ := Except.bind_eq_ok.1 hread
  obtain ⟨-, -, hread⟩ := Except.bind_eq_ok.1 hread
  obtain rfl := Except.ok.inj hread
  have hfind := MergeTables.find_of_loadState hload
  have hid := MergeTables.find_id hfind
  refine ⟨hknows.1, ?_, ?_, by simp, by simp, by simp⟩
  · rw [hid, hfind, Option.isSome_some]
  · rw [hid]
    exact hknows.2

theorem knows_beginMerge {stage : MergeStage}
    (hbegin : s.beginMerge counterpartyId survivorId = .ok stage) : stage.Knows s session := by
  obtain ⟨_, hne, hbegin⟩ := Except.bind_eq_ok.1 hbegin
  obtain ⟨loser, hload, hbegin⟩ := Except.bind_eq_ok.1 hbegin
  obtain rfl := Except.ok.inj hbegin
  have hfind := MergeTables.find_of_loadState hload
  have hid := MergeTables.find_id hfind
  refine ⟨?_, ?_⟩
  · rw [hid, hfind, Option.isSome_some]
  · rw [hid]
    exact Ne.symm (Except.require_eq_ok.1 hne)

theorem knows_beginUnmerge {stage : MergeStage} (hbegin : s.beginUnmerge counterpartyId = .ok stage)
    : stage.Knows s session := by
  obtain ⟨row, -, hbegin⟩ := Except.bind_eq_ok.1 hbegin
  obtain ⟨-, -, hbegin⟩ := Except.bind_eq_ok.1 hbegin
  obtain rfl := Except.ok.inj hbegin
  trivial

theorem knows_lock {id : CounterpartyId} (hknows : MovedBy s session loser survivor done) :
    MovedBy (s.lock session id) session loser survivor done := by
  refine ⟨hknows.hasLoser, hknows.hasSurvivor, hknows.distinct, fun other hother => ?_,
    hknows.pointing, hknows.notSurvivor⟩
  show (if other = id then some session else s.lockedBy other) = some session
  rw [hknows.locked other hother, ite_self]

theorem lockedBy_lock {id : CounterpartyId} : (s.lock session id).lockedBy id = some session :=
  if_pos rfl

theorem knows_compressing {id : CounterpartyId} (hknows : MovedBy s session loser survivor done)
    (hpoints : s.tables.next id = some loser.id) (hid : id ≠ survivor.id) :
    MovedBy (s.lock session id) session loser survivor (done ++ [id]) := by
  have hlocked := (knows_lock hknows : MovedBy (s.lock session id) session loser survivor done)
  refine { hlocked with locked := fun other hother => ?_, pointing := fun other hother => ?_,
                        notSurvivor := fun hsurvivor => ?_ }
  · rcases List.mem_append.1 hother with hdone | hnew
    · exact hlocked.locked other hdone
    · rw [List.mem_singleton.1 hnew]
      exact lockedBy_lock
  · rcases List.mem_append.1 hother with hdone | hnew
    · exact hknows.pointing other hdone
    · rw [List.mem_singleton.1 hnew]
      exact hpoints
  · rcases List.mem_append.1 hsurvivor with hdone | hnew
    · exact hknows.notSurvivor hdone
    · exact hid (List.mem_singleton.1 hnew).symm

theorem mergesKnown_proceed (h : MergesKnown s) : MergesKnown (s.proceed session) := by
  have hknows := h session
  unfold proceed
  rcases hstage : s.stage session with _ | ⟨loser, survivorId⟩ | ⟨loser, survivor⟩ |
    ⟨loser, survivor, left, done⟩ | ⟨loser, survivor, done⟩ | row | row
  · exact h
  · rw [hstage] at hknows
    simp only
    rcases hread : s.readSurvivor loser survivorId with error | stage
    · exact mergesKnown_end h
    · exact mergesKnown_setStage h (knows_readSurvivor hknows hread)
  · rw [hstage] at hknows
    exact mergesKnown_setStage h hknows
  · rw [hstage] at hknows
    rcases left with _ | ⟨id, left⟩
    · simp only
      split_ifs with hwaits
      · exact h
      · have hlock := mergesKnown_lock h (Bool.eq_false_iff.2 hwaits)
        exact mergesKnown_setStage hlock ⟨knows_lock hknows, lockedBy_lock⟩
    · simp only
      split_ifs with hwaits hpoints hself
      · exact h
      · exact mergesKnown_setStage h hknows
      · exact mergesKnown_end h
      · have hlock := mergesKnown_lock h (Bool.eq_false_iff.2 hwaits)
        exact mergesKnown_setStage hlock
          (knows_compressing hknows (not_ne_iff.1 hpoints) hself)
  · exact h
  · simp only
    split_ifs with hwaits
    · exact h
    · exact mergesKnown_setStage (mergesKnown_lock h (Bool.eq_false_iff.2 hwaits)) lockedBy_lock
  · exact h

theorem mergesKnown_commit {now : Timestamp} (h : MergesKnown s) :
    MergesKnown (s.commit session now) := by
  have hknows := h session
  unfold commit
  rcases hstage : s.stage session with _ | _ | _ | _ | ⟨loser, survivor, done⟩ | _ | row
  case marked =>
    rw [hstage] at hknows
    obtain ⟨hmoved, hloser⟩ := hknows
    refine mergesKnown_close h (fun id hid => ?_) fun id hid => ?_
    · rwa [MergeTables.find_mapRows, Option.isSome_map]
    · rw [next_mergeRow now hmoved, Pointers.redirect, if_neg]
      rintro (rfl | hdone)
      · exact hid hloser
      · exact hid (hmoved.locked id hdone)
  case cleared =>
    rw [hstage] at hknows
    refine mergesKnown_close h (fun id hid => ?_) fun id hid => ?_
    · rwa [MergeTables.find_mapRows, Option.isSome_map]
    · simp only [next_clearRow]
      rw [if_neg]
      rintro rfl
      exact hid hknows
  all_goals exact h

theorem mergesKnown_step (h : MergesKnown s) :
    MergesKnown (s.step action) := by
  cases action with
  | merge session counterpartyId survivorId =>
    simp only [step]
    split
    · rename_i hbegin
      exact mergesKnown_setStage h (knows_beginMerge hbegin)
    · exact h
  | unmerge session counterpartyId =>
    simp only [step]
    split
    · rename_i hbegin
      exact mergesKnown_setStage h (knows_beginUnmerge hbegin)
    · exact h
  | proceed session => exact mergesKnown_proceed h
  | commit session now => exact mergesKnown_commit h
  | abort session => exact mergesKnown_end h

theorem pointersFlat_step (h : MergesKnown s) (hflat : PointersFlat s.tables) :
    PointersFlat (s.step action).tables ↔ CommitsWhatItSaw s action := by
  cases action with
  | merge session counterpartyId survivorId =>
    simp only [step]
    split <;> exact iff_of_true hflat trivial
  | unmerge session counterpartyId =>
    simp only [step]
    split <;> exact iff_of_true hflat trivial
  | proceed session =>
    show PointersFlat (s.proceed session).tables ↔ True
    rw [tables_proceed]
    exact iff_of_true hflat trivial
  | commit session now =>
    have hknows := h session
    show PointersFlat (s.commit session now).tables ↔ SawAll s (s.stage session)
    unfold commit
    rcases hstage : s.stage session with _ | _ | _ | _ | ⟨loser, survivor, done⟩ | _ | row
    case marked =>
      rw [hstage] at hknows
      exact pointersFlat_mergeRow hknows.1 hflat
    case cleared => exact iff_of_true (pointersFlat_clearRow hflat) trivial
    all_goals exact iff_of_true hflat trivial
  | abort session => exact iff_of_true hflat trivial

/-- The pointers stay flat exactly as long as no merge overlooks what another one has committed. -/
theorem merges_flat_iff {tables : MergeTables} {actions : List MergeAction} :
    Runs.Along step (fun s => MergesFlat s.tables) { tables } actions ↔
      MergesFlat tables ∧ Runs.Meets step CommitsWhatItSaw { tables } actions := by
  have hiff : ∀ hflat : MergesFlat tables,
      (Runs.Along step (fun s => MergesFlat s.tables) { tables } actions ↔
        Runs.Meets step CommitsWhatItSaw { tables } actions) := by
    intro hflat
    have hknown : MergesKnown { tables } := fun _ => trivial
    have hstart : MergesFlat ({ tables } : MergeSystem).tables := hflat
    refine Runs.along_iff_meets (fun s action hs _ => mergesKnown_step hs)
      (fun s action hs hp => ?_) hknown hstart
    rw [mergesFlat_iff] at hp ⊢
    exact pointersFlat_step hs hp
  constructor
  · intro h
    exact ⟨h.head, (hiff h.head).1 h⟩
  · rintro ⟨hflat, hmeets⟩
    exact (hiff hflat).2 hmeets

end MergeSystem

section Examples

def twoDuplicates : MergeTables where
  counterparties := [{ id := 1, referenceCode := "CP-1" }, { id := 2, referenceCode := "CP-2" }]
  ids_nodup := by decide

def wholeMerge (session : MergeSessionId) (counterpartyId survivorId : CounterpartyId) (rows : ℕ)
    : List MergeAction :=
  .merge session counterpartyId survivorId :: List.replicate (rows + 3) (.proceed session)

def intoEachOther : List MergeAction :=
  wholeMerge 0 1 2 0 ++ wholeMerge 1 2 1 0 ++ [.commit 0 ⟨⟨2026, 9, 30⟩, 0⟩,
    .commit 1 ⟨⟨2026, 9, 30⟩, 0⟩]

theorem merge_cycle : ¬ ∀ (tables : MergeTables) (actions : List MergeAction),
    MergesFlat tables →
    (∀ session, (Runs.run MergeSystem.step { tables } actions).stage session = .idle) →
    MergesFlat (Runs.run MergeSystem.step { tables } actions).tables := by
  intro hall
  have hflat : MergesFlat twoDuplicates := mergesFlat_of_unmerged (by decide)
  have hclosed : ∀ session, (Runs.run MergeSystem.step { tables := twoDuplicates }
      intoEachOther).stage session = .idle := by
    rintro (_ | _ | session)
    · rfl
    · rfl
    · rfl
  have hend := hall twoDuplicates intoEachOther hflat hclosed
  have hone : (Runs.run MergeSystem.step { tables := twoDuplicates } intoEachOther).tables.next 1 =
      some 2 := by decide +kernel
  have htwo : (Runs.run MergeSystem.step { tables := twoDuplicates } intoEachOther).tables.next 2 =
      some 1 := by decide +kernel
  exact hend.oneLevel 1 2 1 hone htwo

end Examples

end Loxep

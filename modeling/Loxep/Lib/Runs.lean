import Mathlib.Algebra.Group.Defs
import Mathlib.Data.List.Basic

/-!
# Runs of a step function

A system takes one action after another. A property holds all along a run when it holds of every
state the run passes. The rules reduce that to what a single step keeps.
-/

namespace Loxep

namespace Runs

variable {S A : Type*} (step : S → A → S)

/-- The state after the actions. -/
def run (s : S) (actions : List A) : S := actions.foldl step s

/-- `P` holds of every state the run passes, the first and the last among them. -/
def Along (P : S → Prop) : S → List A → Prop
  | s, [] => P s
  | s, a :: actions => P s ∧ Along P (step s a) actions

/-- Every action meets the condition in the state it is taken in. -/
def Meets (guard : S → A → Prop) : S → List A → Prop
  | _, [] => True
  | s, a :: actions => guard s a ∧ Meets guard (step s a) actions

instance instDecidableMeets {guard : S → A → Prop} [∀ s a, Decidable (guard s a)] :
    ∀ (s : S) (actions : List A), Decidable (Meets step guard s actions)
  | _, [] => .isTrue trivial
  | s, a :: actions =>
    have : Decidable (Meets step guard (step s a) actions) := instDecidableMeets _ actions
    inferInstanceAs (Decidable (_ ∧ _))

variable {step} {P Inv : S → Prop} {guard : S → A → Prop}

@[simp] theorem run_cons (s : S) (a : A) (actions : List A) :
    run step s (a :: actions) = run step (step s a) actions := rfl

theorem run_append (s : S) (actions actions' : List A) :
    run step s (actions ++ actions') = run step (run step s actions) actions' := List.foldl_append

variable {s : S} {actions : List A} {guard' : S → A → Prop}

theorem meets_append {actions' : List A} :
    Meets step guard s (actions ++ actions') ↔
      Meets step guard s actions ∧ Meets step guard (run step s actions) actions' := by
  induction actions generalizing s with
  | nil => exact (and_iff_right trivial).symm
  | cons a actions ih => exact (and_congr_right fun _ => ih).trans and_assoc.symm

theorem run_replicate_of_rank (step : S → A → S) (a : A) (rank : S → ℕ)
    (hinv : ∀ s, Inv s → Inv (step s a)) (hrank : ∀ s, Inv s → rank (step s a) ≤ rank s - 1) :
    ∀ {n : ℕ} {s : S}, Inv s → rank s ≤ n →
      Inv (run step s (List.replicate n a)) ∧ rank (run step s (List.replicate n a)) = 0
  | 0, _, hs, hle => ⟨hs, Nat.le_zero.1 hle⟩
  | n + 1, s, hs, hle => by
    have hlower := hrank s hs
    have hrest := run_replicate_of_rank step a rank hinv hrank (n := n) (hinv s hs) (by omega)
    rw [List.replicate_succ, run_cons]
    exact hrest

/-- The items are worked off one after the other. -/
theorem run_flatMap {B : Type*} {actions : B → List A} (Left : List B → S → Prop)
    (hitem : ∀ b items s, Left (b :: items) s → Left items (run step s (actions b))) :
    ∀ {items : List B} {s : S}, Left items s → Left [] (run step s (items.flatMap actions))
  | [], _, hs => hs
  | b :: items, s, hs => by
    rw [List.flatMap_cons, run_append]
    exact run_flatMap Left hitem (hitem b items s hs)

theorem Along.head : ∀ {actions : List A}, Along step P s actions → P s
  | [], h => h
  | _ :: _, h => h.1

theorem Along.last : ∀ {s : S} {actions : List A}, Along step P s actions → P (run step s actions)
  | _, [], h => h
  | s, a :: actions, h => by
    rw [run_cons]
    exact Along.last h.2

theorem Along.mono {Q : S → Prop} (h : ∀ s, P s → Q s) :
    ∀ {s : S} {actions : List A}, Along step P s actions → Along step Q s actions
  | _, [], hp => h _ hp
  | _, _ :: _, hp => ⟨h _ hp.1, Along.mono h hp.2⟩

variable {ok : A → Prop} {Q : S → A → Prop}

/-- What every step meeting the condition keeps holds all along a run whose actions meet it. -/
theorem along_of_meets_of_forall (hstep : ∀ s a, ok a → Inv s → guard s a → Inv (step s a)) :
    ∀ {s : S} {actions : List A}, (∀ a ∈ actions, ok a) → Inv s → Meets step guard s actions →
      Along step Inv s actions
  | _, [], _, hs, _ => hs
  | s, a :: _, hok, hs, hm => by
    obtain ⟨ha, hrest⟩ := List.forall_mem_cons.1 hok
    exact ⟨hs, along_of_meets_of_forall hstep hrest (hstep s a ha hs hm.1) hm.2⟩

theorem along_of_meets (hstep : ∀ s a, Inv s → guard s a → Inv (step s a)) (hs : Inv s)
    (hm : Meets step guard s actions) :
    Along step Inv s actions :=
  along_of_meets_of_forall (fun s a _ => hstep s a) (fun _ _ => trivial) hs hm

/-- What every step keeps holds all along every run. -/
theorem along_of_step (hstep : ∀ s a, Inv s → Inv (step s a)) :
    ∀ {s : S} {actions : List A}, Inv s → Along step Inv s actions
  | _, [], hs => hs
  | s, a :: _, hs => ⟨hs, along_of_step hstep (hstep s a hs)⟩

/-- Where the invariant makes the condition exact for one step, it is exact for whole runs. -/
theorem along_iff_meets_of_forall (hinv : ∀ s a, ok a → Inv s → P s → Inv (step s a))
    (hstep : ∀ s a, ok a → Inv s → P s → (P (step s a) ↔ guard s a)) :
    ∀ {s : S} {actions : List A}, (∀ a ∈ actions, ok a) → Inv s → P s →
      (Along step P s actions ↔ Meets step guard s actions)
  | _, [], _, _, hp => iff_of_true hp trivial
  | s, a :: actions, hok, hs, hp => by
    obtain ⟨ha, hrest⟩ := List.forall_mem_cons.1 hok
    have hiff := hstep s a ha hs hp
    constructor
    · rintro ⟨-, h⟩
      exact ⟨hiff.1 h.head,
        (along_iff_meets_of_forall hinv hstep hrest (hinv s a ha hs hp) h.head).1 h⟩
    · rintro ⟨hg, hm⟩
      have hp' := hiff.2 hg
      exact ⟨hp, (along_iff_meets_of_forall hinv hstep hrest (hinv s a ha hs hp) hp').2 hm⟩

theorem along_iff_meets (hinv : ∀ s a, Inv s → P s → Inv (step s a))
    (hstep : ∀ s a, Inv s → P s → (P (step s a) ↔ guard s a)) (hs : Inv s) (hp : P s)
    : Along step P s actions ↔ Meets step guard s actions :=
  along_iff_meets_of_forall (fun s a _ => hinv s a) (fun s a _ => hstep s a)
    (fun _ _ => trivial) hs hp

/-- The same for a property of the states together with one of the steps between them; the
invariant need survive the steps that meet the condition alone. -/
theorem along_and_meets_iff_of_guarded (hinv : ∀ s a, Inv s → P s → guard s a → Inv (step s a))
    (hstep : ∀ s a, Inv s → P s → (P (step s a) ∧ Q s a ↔ guard s a)) :
    ∀ {s : S} {actions : List A}, Inv s → P s →
      (Along step P s actions ∧ Meets step Q s actions ↔ Meets step guard s actions)
  | _, [], _, hp => iff_of_true ⟨hp, trivial⟩ trivial
  | s, a :: actions, hs, hp => by
    have hiff := hstep s a hs hp
    constructor
    · rintro ⟨⟨-, hrest⟩, hq, hqs⟩
      have hg := hiff.1 ⟨hrest.head, hq⟩
      refine ⟨hg, ?_⟩
      exact (along_and_meets_iff_of_guarded hinv hstep (hinv s a hs hp hg) hrest.head).1
        ⟨hrest, hqs⟩
    · rintro ⟨hg, hm⟩
      obtain ⟨hp', hq⟩ := hiff.2 hg
      obtain ⟨hrest, hqs⟩ :=
        (along_and_meets_iff_of_guarded hinv hstep (hinv s a hs hp hg) hp').2 hm
      exact ⟨⟨hp, hrest⟩, hq, hqs⟩

theorem meets_of_forall (h : ∀ s a, guard s a) :
    ∀ {s : S} {actions : List A}, Meets step guard s actions
  | _, [] => trivial
  | s, a :: _ => ⟨h s a, meets_of_forall h⟩

theorem along_iff_meets_of_guarded (hinv : ∀ s a, Inv s → P s → guard s a → Inv (step s a))
    (hstep : ∀ s a, Inv s → P s → (P (step s a) ↔ guard s a)) (hs : Inv s) (hp : P s)
    : Along step P s actions ↔ Meets step guard s actions := by
  have hiff : Along step P s actions ∧ Meets step (fun _ _ => True) s actions ↔
      Meets step guard s actions :=
    along_and_meets_iff_of_guarded hinv
      (fun s a hs hp => (and_iff_left trivial).trans (hstep s a hs hp)) hs hp
  exact (and_iff_left (meets_of_forall fun _ _ => trivial)).symm.trans hiff

theorem along_and_meets_iff (hinv : ∀ s a, Inv s → P s → Inv (step s a))
    (hstep : ∀ s a, Inv s → P s → (P (step s a) ∧ Q s a ↔ guard s a)) (hs : Inv s) (hp : P s) :
    Along step P s actions ∧ Meets step Q s actions ↔ Meets step guard s actions :=
  along_and_meets_iff_of_guarded (fun s a hs hp _ => hinv s a hs hp) hstep hs hp

theorem Meets.of_invariant (hinv : ∀ s a, Inv s → guard s a → Inv (step s a))
    (himp : ∀ s a, Inv s → guard s a → guard' s a) :
    ∀ {s : S} {actions : List A}, Inv s → Meets step guard s actions → Meets step guard' s actions
  | _, [], _, _ => trivial
  | s, a :: _, hs, hm =>
    ⟨himp s a hs hm.1, Meets.of_invariant hinv himp (hinv s a hs hm.1) hm.2⟩

/-- What the actions add up to, each counted in the state it is taken in. -/
def total {M : Type*} [AddCommMonoid M] (step : S → A → S) (count : S → A → M) : S → List A → M
  | _, [] => 0
  | s, a :: actions => count s a + total step count (step s a) actions

theorem run_eq_add_total {M : Type*} [AddCommMonoid M] {count : S → A → M} {figure : S → M}
    (hinv : ∀ s a, Inv s → Inv (step s a))
    (hstep : ∀ s a, Inv s → figure (step s a) = figure s + count s a) :
    ∀ {s : S} {actions : List A}, Inv s →
      figure (run step s actions) = figure s + total step count s actions
  | _, [], _ => (add_zero _).symm
  | s, a :: actions, hs => by
    rw [run_cons, run_eq_add_total hinv hstep (hinv s a hs), hstep s a hs, total, add_assoc]

theorem run_of_step (hstep : ∀ s a, Inv s → Inv (step s a)) (hs : Inv s)
    : Inv (run step s actions) := (along_of_step hstep hs).last

theorem meets_iff_meets (hinv : ∀ s a, Inv s → Inv (step s a))
    (hstep : ∀ s a, Inv s → (guard s a ↔ guard' s a)) :
    ∀ {s : S} {actions : List A}, Inv s →
      (Meets step guard s actions ↔ Meets step guard' s actions)
  | _, [], _ => Iff.rfl
  | s, a :: _, hs => and_congr (hstep s a hs) (meets_iff_meets hinv hstep (hinv s a hs))

theorem meets_and_iff : ∀ {s : S} {actions : List A},
    Meets step (fun s a => guard s a ∧ guard' s a) s actions ↔
      Meets step guard s actions ∧ Meets step guard' s actions
  | _, [] => iff_of_true trivial ⟨trivial, trivial⟩
  | s, a :: actions => by
    unfold Meets
    rw [meets_and_iff]
    tauto

/-- Once `P` holds of a state of the run, it holds of every later one. -/
def Persists (step : S → A → S) (P : S → Prop) : S → List A → Prop
  | _, [] => True
  | s, a :: actions => (P s → Along step P s (a :: actions)) ∧ Persists step P (step s a) actions

theorem persists_iff_meets : ∀ {s : S} {actions : List A},
    Persists step P s actions ↔ Meets step (fun s a => P s → P (step s a)) s actions
  | _, [] => Iff.rfl
  | s, a :: actions => by
    unfold Persists
    rw [persists_iff_meets]
    constructor
    · rintro ⟨hfrom, hrest⟩
      exact ⟨fun hp => (hfrom hp).2.head, hrest⟩
    · rintro ⟨hstep, hrest⟩
      have hkeep : ∀ s a, P s → (P s → P (step s a)) → P (step s a) :=
        fun _ _ hp hkeeps => hkeeps hp
      exact ⟨fun hp => ⟨hp, along_of_meets hkeep (hstep hp) hrest⟩, hrest⟩

end Runs

end Loxep

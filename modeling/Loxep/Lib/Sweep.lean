import Mathlib.Data.List.Nodup

/-!
# Sweeps over keyed items

A sweep takes items in turn and stops at the first that raises. Where each item, as long as it
finds under its key what was read of it, writes there alone, no item sees another one's work: what
a sweep leaves under a key is what its item makes of what was read.
-/

namespace Loxep

universe u

variable {A K S V B O : Type u} {ε : Type*}

/-- Take the items in turn, up to the first that raises. -/
def sweep (f : A → S → Except ε O × S) : List A → S → Except ε (List O) × S
  | [], s => (.ok [], s)
  | a :: as, s =>
    match f a s with
    | (.error e, s') => (.error e, s')
    | (.ok o, s') =>
      match sweep f as s' with
      | (.error e, s'') => (.error e, s'')
      | (.ok os, s'') => (.ok (o :: os), s'')

/-- While it finds what was read of its key, an item leaves the other keys and the frame alone. -/
structure Confined (f : A → S → Except ε O × S) (key : A → K) (view : S → K → V) (frame : S → B)
    (read : K → V) (a : A) : Prop where
  others : ∀ s, view s (key a) = read (key a) → ∀ k, k ≠ key a → view (f a s).2 k = view s k
  frame : ∀ s, view s (key a) = read (key a) → frame (f a s).2 = frame s

namespace Sweep

variable {f : A → S → Except ε O × S} {key : A → K} {view : S → K → V} {frame : S → B}
  {read : K → V}

theorem sweep_cons_state (a : A) (as : List A) (s : S) :
    (sweep f (a :: as) s).2 = (f a s).2 ∨
      (sweep f (a :: as) s).2 = (sweep f as (f a s).2).2 := by
  rw [sweep]
  rcases f a s with ⟨_ | o, s'⟩
  · exact .inl rfl
  · refine .inr ?_
    rcases hrest : sweep f as s' with ⟨_ | os, s''⟩ <;> simp [hrest]

variable {a : A} {as : List A} {s : S}

theorem sweep_cons_ok {os : List O} (h : (sweep f (a :: as) s).1 = .ok os) :
    ∃ o os', (f a s).1 = .ok o ∧ (sweep f as (f a s).2).1 = .ok os' ∧
      (sweep f (a :: as) s).2 = (sweep f as (f a s).2).2 := by
  rw [sweep] at h ⊢
  rcases hfirst : f a s with ⟨_ | o, s'⟩
  · simp [hfirst] at h
  · rcases hrest : sweep f as s' with ⟨_ | os', s''⟩
    · simp [hfirst, hrest] at h
    · exact ⟨o, os', rfl, rfl, by simp [hrest]⟩

theorem read_of_cons (ha : Confined f key view frame read a) (hkeys : ((a :: as).map key).Nodup)
    (hread : ∀ b ∈ a :: as, view s (key b) = read (key b)) :
    ∀ b ∈ as, view (f a s).2 (key b) = read (key b) := by
  intro b hb
  have hne : key b ≠ key a := by
    intro heq
    rw [List.map_cons, List.nodup_cons] at hkeys
    exact hkeys.1 (heq ▸ List.mem_map_of_mem hb)
  rw [ha.others s (hread a List.mem_cons_self) _ hne]
  exact hread b (List.mem_cons_of_mem a hb)

theorem sweep_others : ∀ {as : List A} {s : S}, (∀ a ∈ as, Confined f key view frame read a) →
    (as.map key).Nodup → (∀ a ∈ as, view s (key a) = read (key a)) →
    ∀ k, k ∉ as.map key → view (sweep f as s).2 k = view s k
  | [], _, _, _, _, _, _ => rfl
  | a :: as, s, hconf, hkeys, hread, k, hk => by
    have ha := hconf a List.mem_cons_self
    have hread' := read_of_cons ha hkeys hread
    rw [List.map_cons, List.mem_cons, not_or] at hk
    have hfirst := ha.others s (hread a List.mem_cons_self) k hk.1
    rcases sweep_cons_state a as s with heq | heq
    · rw [heq, hfirst]
    · rw [heq, sweep_others (fun b hb => hconf b (List.mem_cons_of_mem a hb))
        (List.nodup_cons.1 hkeys).2 hread' k hk.2, hfirst]

theorem sweep_frame : ∀ {as : List A} {s : S}, (∀ a ∈ as, Confined f key view frame read a) →
    (as.map key).Nodup → (∀ a ∈ as, view s (key a) = read (key a)) →
    frame (sweep f as s).2 = frame s
  | [], _, _, _, _ => rfl
  | a :: as, s, hconf, hkeys, hread => by
    have ha := hconf a List.mem_cons_self
    have hread' := read_of_cons ha hkeys hread
    have hfirst := ha.frame s (hread a List.mem_cons_self)
    rcases sweep_cons_state a as s with heq | heq
    · rw [heq, hfirst]
    · rw [heq, sweep_frame (fun b hb => hconf b (List.mem_cons_of_mem a hb))
        (List.nodup_cons.1 hkeys).2 hread', hfirst]

theorem sweep_effect {R : A → V → Prop} : ∀ {as : List A} {s : S} {os : List O},
    (∀ a ∈ as, Confined f key view frame read a) →
    (∀ a ∈ as, ∀ s o, view s (key a) = read (key a) → (f a s).1 = .ok o →
      R a (view (f a s).2 (key a))) →
    (as.map key).Nodup → (∀ a ∈ as, view s (key a) = read (key a)) →
    (sweep f as s).1 = .ok os → ∀ a ∈ as, R a (view (sweep f as s).2 (key a))
  | [], _, _, _, _, _, _, _ => nofun
  | a :: as, s, os, hconf, heffect, hkeys, hread, hok => by
    obtain ⟨o, os', hfirst, hrest, hstate⟩ := sweep_cons_ok hok
    have ha := hconf a List.mem_cons_self
    have hconf' := fun b hb => hconf b (List.mem_cons_of_mem a hb)
    have hread' := read_of_cons ha hkeys hread
    have hnodup := List.nodup_cons.1 hkeys
    rw [hstate]
    intro b hb
    rcases List.mem_cons.1 hb with rfl | hb
    · rw [sweep_others hconf' hnodup.2 hread' _ hnodup.1]
      exact heffect b List.mem_cons_self s o (hread b List.mem_cons_self) hfirst
    · exact sweep_effect hconf' (fun c hc => heffect c (List.mem_cons_of_mem a hc)) hnodup.2
        hread' hrest b hb

/-- Where an item either always returns or always raises, a sweep returns what its invariant
holds of if no item raises, and raises otherwise. -/
theorem sweep_returns_iff (Inv : S → Prop) (ok : A → Prop)
    (hok : ∀ a ∈ as, ok a → ∀ s, Inv s → (∃ o, (f a s).1 = .ok o) ∧ Inv (f a s).2)
    (hraise : ∀ a ∈ as, ¬ok a → ∀ s, Inv s → ∃ e, (f a s).1 = .error e) (hs : Inv s) :
    (∃ os, (sweep f as s).1 = .ok os) ↔ ∀ a ∈ as, ok a := by
  induction as generalizing s with
  | nil => exact iff_of_true ⟨[], rfl⟩ fun _ h => absurd h List.not_mem_nil
  | cons a as ih =>
    rw [List.forall_mem_cons]
    by_cases ha : ok a
    · obtain ⟨⟨o, ho⟩, hs'⟩ := hok a List.mem_cons_self ha s hs
      rw [and_iff_right ha, ← ih (fun b hb => hok b (List.mem_cons_of_mem a hb))
        (fun b hb => hraise b (List.mem_cons_of_mem a hb)) hs', sweep]
      rcases hfirst : f a s with ⟨_ | o', s'⟩
      · rw [hfirst] at ho
        cases ho
      · rcases hrest : sweep f as s' with ⟨_ | os, s''⟩ <;> simp [hrest]
    · obtain ⟨e, he⟩ := hraise a List.mem_cons_self ha s hs
      refine iff_of_false ?_ fun h => ha h.1
      rw [sweep]
      rcases hfirst : f a s with ⟨_ | o', s'⟩
      · simp
      · rw [hfirst] at he
        cases he

theorem sweep_keeps (Inv : S → Prop) (hkeep : ∀ a ∈ as, ∀ s, Inv s → Inv (f a s).2) (hs : Inv s)
    : Inv (sweep f as s).2 := by
  induction as generalizing s with
  | nil => exact hs
  | cons a as ih =>
    rcases sweep_cons_state a as s with heq | heq
    · rw [heq]
      exact hkeep a List.mem_cons_self s hs
    · rw [heq]
      exact ih (fun b hb => hkeep b (List.mem_cons_of_mem a hb)) (hkeep a List.mem_cons_self s hs)

end Sweep

end Loxep

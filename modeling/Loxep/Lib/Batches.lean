import Mathlib.Data.List.Count
import Mathlib.Data.List.Nodup

/-!
# A queue worked from its head

A worker takes the first entries of a queue, over and over; those that succeed leave it, and those
that fail stay where they stand. An entry with a whole batch of failing ones before it is never
reached, and every other one that succeeds is.
-/

namespace Loxep

namespace Batches

variable {α : Type*} {good keep : α → Bool} {n : ℕ} {queue : List α} {x : α}

/-- So many entries that fail stand before this one. -/
def Blocked (good : α → Bool) (n : ℕ) (queue : List α) (x : α) : Prop :=
  ∃ before after, queue = before ++ x :: after ∧ n ≤ before.countP (!good ·)

/-- No entry that succeeds has so many failing ones before it. -/
def Unblocked (good : α → Bool) (n : ℕ) (queue : List α) : Prop :=
  ∀ x, good x = true → ¬ Blocked good n queue x

theorem unblocked_of_countP_lt (h : queue.countP (!good ·) < n) : Unblocked good n queue := by
  rintro x - ⟨before, after, rfl, hle⟩
  rw [List.countP_append] at h
  omega

theorem Blocked.filter (h : Blocked good n queue x) (hx : keep x = true)
    (hkeep : ∀ before after, queue = before ++ x :: after →
      ∀ y ∈ before, good y = false → keep y = true) :
    Blocked good n (queue.filter keep) x := by
  obtain ⟨before, after, rfl, hle⟩ := h
  refine ⟨before.filter keep, after.filter keep, by simp [hx], ?_⟩
  rw [List.countP_filter]
  have hcount : before.countP (fun y => (!good y) && keep y) = before.countP (!good ·) := by
    refine List.countP_congr fun y hy => ?_
    rcases hgood : good y with _ | _
    · simp [hkeep before after rfl y hy hgood]
    · simp
  exact hcount.symm ▸ hle

theorem Blocked.filter_of_pairwise (h : Blocked good n queue x) (hx : keep x = true)
    (hkeep : queue.Pairwise fun y z => keep z = true → keep y = true) :
    Blocked good n (queue.filter keep) x := by
  refine h.filter hx fun before after heq y hy _ => ?_
  rw [heq] at hkeep
  exact (List.pairwise_append.1 hkeep).2.2 y hy x List.mem_cons_self hx

theorem Blocked.of_filter (h : Blocked good n (queue.filter keep) x) : Blocked good n queue x := by
  obtain ⟨before, after, heq, hle⟩ := h
  obtain ⟨start, rest, rfl, rfl, hrest⟩ := List.filter_eq_append_iff.1 heq
  obtain ⟨skipped, last, rfl, hskipped, -, rfl⟩ := List.filter_eq_cons_iff.1 hrest
  refine ⟨start ++ skipped, last, by simp, ?_⟩
  have hsub : (start.filter keep).countP (!good ·) ≤ start.countP (!good ·) :=
    List.filter_sublist.countP_le
  rw [List.countP_append]
  omega

theorem Unblocked.filter (h : Unblocked good n queue) : Unblocked good n (queue.filter keep) :=
  fun x hx hblocked => h x hx hblocked.of_filter

theorem Blocked.mem (h : Blocked good n queue x) : x ∈ queue := by
  obtain ⟨before, after, rfl, -⟩ := h
  simp

theorem Blocked.notMem_take (h : Blocked good n queue x) (hnodup : queue.Nodup) :
    x ∉ queue.take n := by
  obtain ⟨before, after, rfl, hle⟩ := h
  have hlength : before.countP (!good ·) ≤ before.length := List.countP_le_length
  rw [List.take_append_of_le_length (by omega)]
  intro hx
  exact (List.nodup_append.1 hnodup).2.2 x (List.mem_of_mem_take hx) x List.mem_cons_self rfl

/-- The first entry that succeeds is within reach, and has whatever a later one passes on to the
earlier. -/
theorem Unblocked.exists_mem_take {p : α → Prop} (h : Unblocked good n queue)
    (hp : queue.Pairwise fun x y => p y → p x) (hx : x ∈ queue) (hgood : good x = true) (hpx : p x)
    : ∃ y ∈ queue.take n, good y = true ∧ p y := by
  rcases hfind : queue.find? good with _ | y
  · exact absurd hgood (List.find?_eq_none.1 hfind x hx)
  · obtain ⟨hy, before, after, rfl, hbefore⟩ := List.find?_eq_some_iff_append.1 hfind
    have hcount : before.countP (!good ·) = before.length := List.countP_eq_length.2 hbefore
    have hlt : before.length < n := by
      by_contra hle
      exact h y hy ⟨before, after, rfl, by omega⟩
    refine ⟨y, ?_, hy, ?_⟩
    · rw [List.take_append]
      refine List.mem_append_right _ ?_
      rw [List.take_cons (by omega)]
      exact List.mem_cons_self
    · rcases List.mem_append.1 hx with hmem | hmem
      · have := hbefore x hmem
        simp [hgood] at this
      · rcases List.mem_cons.1 hmem with rfl | hmem
        · exact hpx
        · exact List.rel_of_pairwise_cons (List.pairwise_append.1 hp).2.1 hmem hpx

theorem Unblocked.eq_false_of_take (h : Unblocked good n queue)
    (hnone : ∀ y ∈ queue.take n, good y = false) (hx : x ∈ queue) : good x = false := by
  by_contra hgood
  obtain ⟨y, hy, hgood', -⟩ := h.exists_mem_take (p := fun _ => True)
    (List.pairwise_of_forall fun _ _ _ => trivial) hx (by simpa using hgood) trivial
  simp [hnone y hy] at hgood'

end Batches

end Loxep

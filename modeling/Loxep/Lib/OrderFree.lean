import Mathlib.Data.List.Dedup
import Mathlib.Data.List.Perm.Basic
import Mathlib.Order.Lattice

/-!
# Folds that do not mind the order

Reports are folded into a state in whatever order they arrive, and some arrive again. Where two
reports can trade places and a repeated one changes nothing, the state depends on which reports
arrived alone.
-/

namespace Loxep

namespace OrderFree

variable {S B V W : Type*}

/-- The sequence is of the reports of the list and leaves none of them out. -/
def Covers (seq reports : List B) : Prop := ∀ b, b ∈ seq ↔ b ∈ reports

/-- Any two of the reports can trade places, and none has an effect twice. -/
structure Confluent (act : S → B → S) (reports : List B) : Prop where
  swap : ∀ b ∈ reports, ∀ b' ∈ reports, ∀ s, act (act s b) b' = act (act s b') b
  again : ∀ b ∈ reports, ∀ s, act (act s b) b = act s b

variable {act : S → B → S} {seq seq' reports : List B} {b : B}

theorem covers_concat (hb : b ∈ reports) : Covers (reports ++ [b]) reports := by
  intro b'
  rw [List.mem_append, List.mem_singleton]
  exact ⟨fun h => h.elim id fun heq => heq ▸ hb, Or.inl⟩

theorem Covers.dedup [DecidableEq B] (h : Covers seq reports) : Covers seq.dedup reports :=
  fun b => List.mem_dedup.trans (h b)

theorem Confluent.absorb (hact : Confluent act reports) :
    ∀ (s : S) {seq : List B}, (∀ b' ∈ seq, b' ∈ reports) → b ∈ seq →
      seq.foldl act (act s b) = seq.foldl act s
  | s, first :: rest, hseq, hb => by
    have hfirst := hseq first List.mem_cons_self
    have hrest := fun b' h => hseq b' (List.mem_cons_of_mem _ h)
    rw [List.foldl_cons, List.foldl_cons]
    rcases List.mem_cons.1 hb with rfl | hb
    · rw [hact.again b hfirst]
    · rw [hact.swap b (hrest b hb) first hfirst]
      exact hact.absorb _ hrest hb

theorem Confluent.foldl_dedup [DecidableEq B] (hact : Confluent act reports) :
    ∀ (s : S) {seq : List B}, (∀ b ∈ seq, b ∈ reports) →
      seq.dedup.foldl act s = seq.foldl act s
  | _, [], _ => rfl
  | s, first :: rest, hseq => by
    have hrest := fun b' h => hseq b' (List.mem_cons_of_mem _ h)
    by_cases hmem : first ∈ rest
    · rw [List.dedup_cons_of_mem hmem, List.foldl_cons, hact.absorb s hrest hmem]
      exact hact.foldl_dedup s hrest
    · rw [List.dedup_cons_of_notMem hmem, List.foldl_cons, List.foldl_cons]
      exact hact.foldl_dedup _ hrest

theorem Confluent.foldl_eq (hact : Confluent act reports) (h : Covers seq reports)
    (h' : Covers seq' reports) (s : S) : seq.foldl act s = seq'.foldl act s := by
  classical
  rw [← hact.foldl_dedup s fun b => (h b).1, ← hact.foldl_dedup s fun b => (h' b).1]
  have hperm : seq.dedup.Perm seq'.dedup :=
    (List.perm_ext_iff_of_nodup seq.nodup_dedup seq'.nodup_dedup).2
      fun b => (h.dedup b).trans (h'.dedup b).symm
  refine hperm.foldl_eq' (fun b hb b' hb' s => ?_) s
  exact hact.swap b ((h.dedup b).1 hb) b' ((h.dedup b').1 hb') s

section Writes

variable (write : B → Option V)

/-- No two of the reports carry different values. -/
def Agreeing (reports : List B) : Prop :=
  ∀ b ∈ reports, ∀ b' ∈ reports, ∀ v ∈ write b, ∀ v' ∈ write b', v = v'

variable {write} {x y z : Option V}

theorem or_left_comm (h : ∀ v ∈ x, ∀ w ∈ y, v = w) : x.or (y.or z) = y.or (x.or z) := by
  rcases x with _ | v
  · simp
  · rcases y with _ | w
    · simp
    · simp [h v rfl w rfl]

theorem or_or_self : x.or (x.or z) = x.or z := by
  cases x <;> rfl

variable {read : S → Option V}

/-- A cell that every report's value is written to holds that of a report applied last. -/
theorem agreeing_of_order_free (act : S → B → S) {s : S}
    (hread : ∀ s b, b ∈ reports → read (act s b) = (write b).or (read s))
    (hfree : ∀ seq seq', Covers seq reports → Covers seq' reports →
      read (seq.foldl act s) = read (seq'.foldl act s)) :
    Agreeing write reports := by
  intro b hb b' hb' v hv v' hv'
  have hsame := hfree _ _ (covers_concat hb) (covers_concat hb')
  simp only [List.foldl_append, List.foldl_cons, List.foldl_nil] at hsame
  rw [hread _ b hb, hread _ b' hb', Option.mem_def.1 hv, Option.mem_def.1 hv'] at hsame
  simpa using hsame

theorem read_of_agreeing (act : S → B → S)
    (hread : ∀ s b, b ∈ reports → read (act s b) = (write b).or (read s))
    (hagree : Agreeing write reports) (hb : b ∈ reports) {v : V} (hv : v ∈ write b) :
    ∀ (s : S) {seq : List B}, (∀ b ∈ seq, b ∈ reports) → b ∈ seq ∨ read s = some v →
      read (seq.foldl act s) = some v
  | s, [], _, h => h.resolve_left List.not_mem_nil
  | s, first :: rest, hseq, h => by
    have hfirst := hseq first List.mem_cons_self
    refine read_of_agreeing act hread hagree hb hv (act s first)
      (fun b' h => hseq b' (List.mem_cons_of_mem _ h)) ?_
    rw [hread s first hfirst]
    rcases hw : write first with _ | w
    · rcases h with h | h
      · rcases List.mem_cons.1 h with rfl | h
        · simp [hw] at hv
        · exact .inl h
      · exact .inr h
    · rw [hagree first hfirst b hb w hw v hv]
      exact .inr rfl

end Writes

end OrderFree

end Loxep

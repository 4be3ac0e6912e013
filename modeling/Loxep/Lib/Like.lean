import Mathlib.Data.List.Forall2
import Mathlib.Data.List.Infix

/-!
# Patterns with wildcards

Text against a pattern that may leave one character open, or a whole stretch. A pattern that leaves
only its end open fits the texts whose beginning fits the rest of it, place by place.
-/

namespace Loxep

namespace Like

variable {α : Type*} [DecidableEq α]

inductive Token (α : Type*)
  | char (a : α)
  | one
  | text

/-- The pattern fits the whole text. -/
def Matches : List (Token α) → List α → Bool
  | [], s => s.isEmpty
  | .text :: p, s => s.tails.any (Matches p)
  | .one :: p, s =>
    match s with
    | [] => false
    | _ :: s => Matches p s
  | .char a :: p, s =>
    match s with
    | [] => false
    | b :: s => a == b && Matches p s

/-- The token takes the character. -/
def Token.Takes : Token α → α → Prop
  | .char a, b => a = b
  | .one, _ => True
  | .text, _ => False

/-- The pattern fits the text, character by character. -/
abbrev Fits (p : List (Token α)) (s : List α) : Prop := List.Forall₂ Token.Takes p s

theorem matches_text (s : List α) : Matches [.text] s = true := by
  rw [Matches, List.any_eq_true]
  exact ⟨[], (List.mem_tails _ _).2 List.nil_suffix, rfl⟩

theorem matches_append_text : ∀ {p : List (Token α)} {s : List α}, (∀ t ∈ p, t ≠ .text) →
    (Matches (p ++ [.text]) s = true ↔ ∃ front rest, s = front ++ rest ∧ Fits p front)
  | [], s, _ => by
    refine iff_of_true (matches_text s) ⟨[], s, rfl, .nil⟩
  | .text :: p, s, h => absurd rfl (h _ List.mem_cons_self)
  | .one :: p, [], _ => by
    refine iff_of_false (by simp [Matches]) ?_
    rintro ⟨front, rest, hs, hfits⟩
    cases hfits
    cases hs
  | .one :: p, b :: s, h => by
    have ih := matches_append_text (p := p) (s := s) fun t ht => h t (List.mem_cons_of_mem _ ht)
    rw [List.cons_append, Matches, ih]
    constructor
    · rintro ⟨front, rest, rfl, hfits⟩
      exact ⟨b :: front, rest, rfl, .cons trivial hfits⟩
    · rintro ⟨front, rest, hs, hfits⟩
      cases hfits with
      | cons _ hfits =>
        rw [List.cons_append, List.cons_eq_cons] at hs
        exact ⟨_, rest, hs.2, hfits⟩
  | .char a :: p, [], _ => by
    refine iff_of_false (by simp [Matches]) ?_
    rintro ⟨front, rest, hs, hfits⟩
    cases hfits
    cases hs
  | .char a :: p, b :: s, h => by
    have ih := matches_append_text (p := p) (s := s) fun t ht => h t (List.mem_cons_of_mem _ ht)
    rw [List.cons_append, Matches, Bool.and_eq_true, beq_iff_eq, ih]
    constructor
    · rintro ⟨rfl, front, rest, rfl, hfits⟩
      exact ⟨a :: front, rest, rfl, .cons rfl hfits⟩
    · rintro ⟨front, rest, hs, hfits⟩
      cases hfits with
      | cons htakes hfits =>
        rw [List.cons_append, List.cons_eq_cons] at hs
        exact ⟨htakes.trans hs.1.symm, _, rest, hs.2, hfits⟩

omit [DecidableEq α] in
theorem fits_append_char {a : α} : ∀ {p : List (Token α)} {s : List α},
    Fits (p ++ [.char a]) s ↔ ∃ front, s = front ++ [a] ∧ Fits p front
  | [], s => by
    constructor
    · rintro (_ | ⟨rfl, hrest⟩)
      cases hrest
      exact ⟨[], rfl, .nil⟩
    · rintro ⟨front, rfl, hfits⟩
      cases hfits
      exact .cons rfl .nil
  | t :: p, s => by
    constructor
    · rintro (_ | ⟨htakes, hrest⟩)
      obtain ⟨front, rfl, hfits⟩ := fits_append_char.1 hrest
      exact ⟨_ :: front, rfl, .cons htakes hfits⟩
    · rintro ⟨front, rfl, hfits⟩
      cases hfits with
      | cons htakes hfits => exact .cons htakes (fits_append_char.2 ⟨_, rfl, hfits⟩)

theorem matches_char_text {a : α} {p : List (Token α)} {s : List α} (h : ∀ t ∈ p, t ≠ .text) :
    Matches (p ++ [.char a, .text]) s = true ↔
      ∃ front rest, s = front ++ a :: rest ∧ Fits p front := by
  have hno : ∀ t ∈ p ++ [.char a], t ≠ .text := by
    intro t ht
    rcases List.mem_append.1 ht with ht | ht
    · exact h t ht
    · rw [List.mem_singleton.1 ht]
      nofun
  rw [show p ++ [.char a, .text] = (p ++ [.char a]) ++ [.text] by simp, matches_append_text hno]
  constructor
  · rintro ⟨front, rest, rfl, hfits⟩
    obtain ⟨start, rfl, hstart⟩ := fits_append_char.1 hfits
    exact ⟨start, rest, by simp, hstart⟩
  · rintro ⟨front, rest, rfl, hfits⟩
    exact ⟨front ++ [a], rest, by simp, fits_append_char.2 ⟨front, rfl, hfits⟩⟩

end Like

end Loxep

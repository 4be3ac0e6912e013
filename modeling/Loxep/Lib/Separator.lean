import Mathlib.Data.List.Basic

/-!
# Fields joined by a separator

A list written as fields with a separator between them is read back from the right: the last
field is what follows the last separator, as long as the field holds none itself.
-/

namespace Loxep

namespace Separator

variable {α : Type*} {sep : α}

theorem cut_at_last_or_before {cut rest front last : List α} (hl : sep ∉ last)
    (h : front ++ sep :: last = cut ++ sep :: rest) :
    (cut = front ∧ rest = last) ∨ ∃ mid, front = cut ++ sep :: mid := by
  rcases List.append_eq_append_iff.1 h with ⟨c, rfl, hc⟩ | ⟨c, rfl, hc⟩
  · rcases c with _ | ⟨x, xs⟩
    · simp_all
    · obtain ⟨rfl, rfl⟩ := List.cons_eq_cons.1 hc
      exact absurd (List.mem_append_right xs List.mem_cons_self) hl
  · rcases c with _ | ⟨x, xs⟩
    · simp_all
    · obtain ⟨rfl, -⟩ := List.cons_eq_cons.1 hc
      exact .inr ⟨xs, rfl⟩

theorem last_field_inj {front front' last last' : List α} (hl : sep ∉ last) (hl' : sep ∉ last')
    (h : front ++ sep :: last = front' ++ sep :: last') : front = front' ∧ last = last' := by
  rcases cut_at_last_or_before hl h with ⟨hfront, hlast⟩ | ⟨mid, rfl⟩
  · exact ⟨hfront.symm, hlast.symm⟩
  · rw [List.append_assoc, List.cons_append] at h
    obtain ⟨-, hrest⟩ := List.cons_eq_cons.1 (List.append_cancel_left h)
    exact absurd (hrest ▸ List.mem_append_right mid List.mem_cons_self) hl'

theorem first_field_inj {first first' rest rest' : List α} (hf : sep ∉ first) (hf' : sep ∉ first')
    (h : first ++ sep :: rest = first' ++ sep :: rest') :
    first = first' ∧ rest = rest' := by
  have hrev : rest.reverse ++ sep :: first.reverse = rest'.reverse ++ sep :: first'.reverse := by
    simpa using congrArg List.reverse h
  obtain ⟨hrest, hfirst⟩ := last_field_inj (by simpa using hf) (by simpa using hf') hrev
  exact ⟨List.reverse_injective hfirst, List.reverse_injective hrest⟩

theorem last_three_fields_inj {front front' a a' b b' c c' : List α} (ha : sep ∉ a) (ha' : sep ∉ a')
    (hb : sep ∉ b) (hb' : sep ∉ b') (hc : sep ∉ c) (hc' : sep ∉ c')
    (h : front ++ sep :: (a ++ sep :: (b ++ sep :: c)) =
      front' ++ sep :: (a' ++ sep :: (b' ++ sep :: c'))) :
    front = front' ∧ a = a' ∧ b = b' ∧ c = c' := by
  have h₁ : ((front ++ sep :: a) ++ sep :: b) ++ sep :: c =
      ((front' ++ sep :: a') ++ sep :: b') ++ sep :: c' := by simpa using h
  obtain ⟨h₂, hcc⟩ := last_field_inj hc hc' h₁
  obtain ⟨h₃, hbb⟩ := last_field_inj hb hb' h₂
  obtain ⟨hff, haa⟩ := last_field_inj ha ha' h₃
  exact ⟨hff, haa, hbb, hcc⟩

end Separator

end Loxep

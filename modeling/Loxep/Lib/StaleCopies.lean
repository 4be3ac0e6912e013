import Mathlib.Data.Option.Basic

/-!
# Stale copies

Writers of a shared map copy it, change an entry and write the whole copy back. What the others
have written in the meantime survives where the copy still agrees with the map. At some keys the
agreement is up to a part of the value, the one that writers may change by themselves.
-/

namespace Loxep

namespace StaleCopies

variable {K V C : Type*} (part : V → C)

/-- The maps agree at the keys: in the part, and entirely where the key is not loose. -/
def Agree (keys loose : K → Prop) (m m' : K → Option V) : Prop :=
  ∀ k, keys k → (m k).map part = (m' k).map part ∧ (¬loose k → m k = m' k)

variable {part} {keys keys' loose loose' : K → Prop} {m m' m'' copy : K → Option V}

namespace Agree

theorem refl (m : K → Option V) : Agree part keys loose m m := fun _ _ => ⟨rfl, fun _ => rfl⟩

section

variable (h : Agree part keys loose m m')
include h

theorem symm : Agree part keys loose m' m := fun k hk =>
  ⟨(h k hk).1.symm, fun hloose => ((h k hk).2 hloose).symm⟩

theorem trans (h' : Agree part keys loose m' m'') :
    Agree part keys loose m m'' := fun k hk =>
  ⟨(h k hk).1.trans (h' k hk).1, fun hloose => ((h k hk).2 hloose).trans ((h' k hk).2 hloose)⟩

theorem mono (hkeys : ∀ k, keys' k → keys k) (hloose : ∀ k, loose k → loose' k)
    : Agree part keys' loose' m m' := fun k hk =>
  ⟨(h k (hkeys k hk)).1, fun hstrict => (h k (hkeys k hk)).2 fun hk' => hstrict (hloose k hk')⟩

theorem iff_of_agree :
    Agree part keys loose copy m' ↔ Agree part keys loose copy m :=
  ⟨fun hcopy => hcopy.trans h.symm, fun hcopy => hcopy.trans h⟩

end

theorem iff_off [DecidableEq K] {key : K} {n n' : K → Option V} (hkey : n key = n' key)
    (hm : ∀ k, k ≠ key → n k = m k) (hm' : ∀ k, k ≠ key → n' k = m' k) :
    Agree part (fun _ => True) (fun k => loose k ∧ k ≠ key) n n' ↔
      Agree part (· ≠ key) loose m m' := by
  constructor
  · intro h k hk
    obtain ⟨hpart, hfull⟩ := h k trivial
    rw [← hm k hk, ← hm' k hk]
    exact ⟨hpart, fun hstrict => hfull fun hloose => hstrict hloose.1⟩
  · intro h k _
    by_cases hk : k = key
    · rw [hk, hkey]
      exact ⟨rfl, fun _ => rfl⟩
    · rw [hm k hk, hm' k hk]
      exact ⟨(h k hk).1, fun hstrict => (h k hk).2 fun hloose => hstrict ⟨hloose, hk⟩⟩

end Agree

end StaleCopies

end Loxep

import Mathlib.Data.List.DropRight

/-!
# Strings as the services read them

`trim` follows JavaScript's, which counts the Unicode spaces and the byte-order mark as white
space. A description template names placeholders in braces; rendering replaces each `name` by
the fact's value, the empty string when the fact carries none, and trims the result.
-/

namespace Loxep

/-- The characters JavaScript's `trim` removes. -/
def isSpace (c : Char) : Bool :=
  [0x09, 0x0A, 0x0B, 0x0C, 0x0D, 0x20, 0xA0, 0x1680, 0x2028, 0x2029, 0x202F, 0x205F, 0x3000,
    0xFEFF].contains c.toNat || (0x2000 ≤ c.toNat && c.toNat ≤ 0x200A)

def trim (s : String) : String :=
  String.ofList ((s.toList.dropWhile isSpace).rdropWhile isSpace)

/-- `[a-z0-9_]`. -/
def isNameChar (c : Char) : Bool :=
  c.isLower || c.isDigit || c == '_'

abbrev Placeholders := List (String × String)

/-- `placeholders[name] ?? ""`. -/
def placeholderValue (placeholders : Placeholders) (name : String) : String :=
  (placeholders.lookup name).getD ""

/-- One left-to-right replacement of every `\{([a-z0-9_]+)\}`, with fuel for the characters
still to read. -/
def renderChars (placeholders : Placeholders) : Nat → List Char → List Char
  | 0, cs => cs
  | _ + 1, [] => []
  | fuel + 1, c :: cs =>
    if c = '{' then
      match cs.takeWhile isNameChar, cs.dropWhile isNameChar with
      | n :: ns, '}' :: rest =>
        (placeholderValue placeholders (String.ofList (n :: ns))).toList ++
          renderChars placeholders fuel rest
      | _, _ => c :: renderChars placeholders fuel cs
    else c :: renderChars placeholders fuel cs

def renderTemplate (template : String) (placeholders : Placeholders) : String :=
  trim (String.ofList (renderChars placeholders template.toList.length template.toList))

example : renderTemplate "{provider} sale {number} {x-}" [("provider", "ebay")] =
    "ebay sale  {x-}" := by decide

variable {s : String} {c : Char}

theorem trim_eq_self (hhead : ∀ c ∈ s.toList.head?, isSpace c = false)
    (hlast : ∀ c ∈ s.toList.getLast?, isSpace c = false) : trim s = s := by
  have hdrop : s.toList.dropWhile isSpace = s.toList := by
    cases h : s.toList with
    | nil => rfl
    | cons c cs => rw [List.dropWhile_cons_of_neg (by simp [hhead c (by simp [h])])]
  have hrdrop : s.toList.rdropWhile isSpace = s.toList := by
    refine List.rdropWhile_eq_self_iff.2 fun hne => ?_
    simp [hlast _ (List.getLast_mem_getLast? hne)]
  unfold trim
  rw [hdrop, hrdrop, String.ofList_toList]

theorem trim_trim (s : String) : trim (trim s) = trim s := by
  refine trim_eq_self (fun c hc => ?_) fun c hc => ?_
  · unfold trim at hc
    rw [String.toList_ofList] at hc
    obtain ⟨rest, hrest⟩ := List.rdropWhile_prefix isSpace (s.toList.dropWhile isSpace)
    have hc' : c ∈ (s.toList.dropWhile isSpace).head? := by
      rw [← hrest, List.head?_append_of_ne_nil _ (by rintro h; simp [h] at hc)]
      exact hc
    have := List.head?_dropWhile_not isSpace s.toList
    rw [hc'] at this
    simpa using this
  · unfold trim at hc
    rw [String.toList_ofList] at hc
    have hne : (s.toList.dropWhile isSpace).rdropWhile isSpace ≠ [] := by
      rintro h; simp [h] at hc
    have := List.rdropWhile_last_not isSpace _ hne
    rw [List.getLast?_eq_some_getLast hne, Option.mem_some_iff] at hc
    simpa [hc] using this

theorem trim_ne_empty (hc : c ∈ s.toList) (hs : isSpace c = false) :
    trim s ≠ "" := by
  intro h
  have hnil : (s.toList.dropWhile isSpace).rdropWhile isSpace = [] := by
    have := congrArg String.toList h
    rwa [trim, String.toList_ofList] at this
  have hspace : isSpace c = true := by
    rw [← List.takeWhile_append_dropWhile (p := isSpace) (l := s.toList), List.mem_append] at hc
    rcases hc with hc | hc
    · exact List.mem_takeWhile_imp hc
    · exact List.rdropWhile_eq_nil_iff.1 hnil c hc
  rw [hs] at hspace
  cases hspace

theorem trim_renderTemplate (template : String) (placeholders : Placeholders) :
    trim (renderTemplate template placeholders) = renderTemplate template placeholders :=
  trim_trim _

/-- `/^[A-Za-z]{3}$/`. -/
def isAlphabeticCode (s : String) : Bool :=
  s.toList.length == 3 && s.toList.all fun c => c.isUpper || c.isLower

theorem charUpper_of_not_lower (h : ¬ ('a'.val ≤ c.val ∧ c.val ≤ 'z'.val)) :
    c.toUpper = c := by
  unfold Char.toUpper
  rw [dif_neg h]

theorem charUpper_charUpper (c : Char) : c.toUpper.toUpper = c.toUpper := by
  by_cases h : 'a'.val ≤ c.val ∧ c.val ≤ 'z'.val
  · have hup : c.toUpper.val = c.val + ('A'.val - 'a'.val) := by
      unfold Char.toUpper
      rw [dif_pos h]
    refine charUpper_of_not_lower ?_
    rintro ⟨hle, -⟩
    obtain ⟨hlow, hhigh⟩ := h
    rw [hup, UInt32.le_iff_toNat_le, UInt32.toNat_add] at hle
    rw [UInt32.le_iff_toNat_le] at hlow hhigh
    have ha : 'a'.val.toNat = 97 := rfl
    have hz : 'z'.val.toNat = 122 := rfl
    have hshift : ('A'.val - 'a'.val).toNat = 2 ^ 32 - 32 := rfl
    omega
  · rw [charUpper_of_not_lower h, charUpper_of_not_lower h]

theorem toUpper_toUpper (s : String) : s.toUpper.toUpper = s.toUpper := by
  simp only [String.toUpper, String.map_map, Function.comp_def, charUpper_charUpper]

end Loxep

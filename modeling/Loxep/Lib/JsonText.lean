import Mathlib.Data.List.Basic
import Mathlib.Tactic.IntervalCases

/-!
# The text of a JSON value

Strings, null, arrays and objects, written the way `JSON.stringify` writes them with no spaces.
A value's text says where it ends, so two values with one text are one value.
-/

namespace Loxep

inductive JsonTree
  | null
  | str (s : List Char)
  | arr (items : List JsonTree)
  | obj (fields : List (List Char × JsonTree))

namespace JsonTree

def hexDigit (n : ℕ) : Char := "0123456789abcdef".toList.getD n '0'

/-- A control character, by its code. -/
def escapeControl : ℕ → List Char
  | 8 => ['\\', 'b']
  | 9 => ['\\', 't']
  | 10 => ['\\', 'n']
  | 12 => ['\\', 'f']
  | 13 => ['\\', 'r']
  | n => ['\\', 'u', '0', '0', hexDigit (n / 16), hexDigit (n % 16)]

def escapeChar (c : Char) : List Char :=
  if c = '"' then ['\\', '"']
  else if c = '\\' then ['\\', '\\']
  else if c.toNat < 32 then escapeControl c.toNat
  else [c]

def hexValue (c : Char) : ℕ := "0123456789abcdef".toList.idxOf c

/-- The character an escaped text begins with, and what follows. -/
def unescape : List Char → Option (Char × List Char)
  | '\\' :: '"' :: rest => some ('"', rest)
  | '\\' :: '\\' :: rest => some ('\\', rest)
  | '\\' :: 'b' :: rest => some (Char.ofNat 8, rest)
  | '\\' :: 't' :: rest => some (Char.ofNat 9, rest)
  | '\\' :: 'n' :: rest => some (Char.ofNat 10, rest)
  | '\\' :: 'f' :: rest => some (Char.ofNat 12, rest)
  | '\\' :: 'r' :: rest => some (Char.ofNat 13, rest)
  | '\\' :: 'u' :: '0' :: '0' :: high :: low :: rest =>
    some (Char.ofNat (16 * hexValue high + hexValue low), rest)
  | '"' :: _ => none
  | c :: rest => some (c, rest)
  | [] => none

theorem unescape_escapeControl {n : ℕ} (h : n < 32) (rest : List Char) :
    unescape (escapeControl n ++ rest) = some (Char.ofNat n, rest) := by
  interval_cases n <;> rfl

theorem unescape_escapeChar (c : Char) (rest : List Char) :
    unescape (escapeChar c ++ rest) = some (c, rest) := by
  unfold escapeChar
  split_ifs with hquote hslash hcontrol
  · rw [hquote]
    rfl
  · rw [hslash]
    rfl
  · rw [unescape_escapeControl hcontrol, Char.ofNat_toNat]
  · rw [List.singleton_append]
    unfold unescape
    split <;> simp_all

/-- The escaped characters and the closing quote. -/
def quoted : List Char → List Char
  | [] => ['"']
  | c :: s => escapeChar c ++ quoted s

theorem quoted_inj : ∀ {s s' rest rest' : List Char},
    quoted s ++ rest = quoted s' ++ rest' → s = s' ∧ rest = rest'
  | [], [], rest, rest', h => by simpa [quoted] using h
  | [], c :: s', rest, rest', h => by
    have hread := congrArg unescape h
    rw [quoted, quoted, List.append_assoc, unescape_escapeChar] at hread
    simp [unescape] at hread
  | c :: s, [], rest, rest', h => by
    have hread := congrArg unescape h
    rw [quoted, quoted, List.append_assoc, unescape_escapeChar] at hread
    simp [unescape] at hread
  | c :: s, c' :: s', rest, rest', h => by
    have hread := congrArg unescape h
    rw [quoted, quoted, List.append_assoc, List.append_assoc, unescape_escapeChar,
      unescape_escapeChar, Option.some.injEq, Prod.mk.injEq] at hread
    obtain ⟨rfl, hrest⟩ := hread
    obtain ⟨rfl, rfl⟩ := quoted_inj hrest
    exact ⟨rfl, rfl⟩

mutual

def stringify : JsonTree → List Char
  | null => ['n', 'u', 'l', 'l']
  | str s => '"' :: quoted s
  | arr items => '[' :: stringifyItems items
  | obj fields => '\x7b' :: stringifyFields fields

def stringifyItems : List JsonTree → List Char
  | [] => [']']
  | item :: items => stringify item ++ moreItems items

/-- The items after the first, each behind a comma, and the closing bracket. -/
def moreItems : List JsonTree → List Char
  | [] => [']']
  | item :: items => ',' :: (stringify item ++ moreItems items)

def stringifyFields : List (List Char × JsonTree) → List Char
  | [] => ['\x7d']
  | (key, value) :: fields =>
    '"' :: (quoted key ++ ':' :: (stringify value ++ moreFields fields))

def moreFields : List (List Char × JsonTree) → List Char
  | [] => ['\x7d']
  | (key, value) :: fields =>
    ',' :: '"' :: (quoted key ++ ':' :: (stringify value ++ moreFields fields))

end

theorem stringify_ne_bracket (value : JsonTree) (rest rest' : List Char) :
    stringify value ++ rest ≠ ']' :: rest' := by
  cases value <;> simp [stringify]

mutual

theorem stringify_inj : ∀ {value value' : JsonTree} {rest rest' : List Char},
    stringify value ++ rest = stringify value' ++ rest' → value = value' ∧ rest = rest'
  | null, value', rest, rest', h => by
    cases value' <;> simp [stringify] at h
    exact ⟨rfl, h⟩
  | str s, value', rest, rest', h => by
    cases value' <;> simp [stringify] at h
    obtain ⟨rfl, rfl⟩ := quoted_inj h
    exact ⟨rfl, rfl⟩
  | arr items, value', rest, rest', h => by
    cases value' <;> simp [stringify] at h
    obtain ⟨rfl, rfl⟩ := stringifyItems_inj h
    exact ⟨rfl, rfl⟩
  | obj fields, value', rest, rest', h => by
    cases value' <;> simp [stringify] at h
    obtain ⟨rfl, rfl⟩ := stringifyFields_inj h
    exact ⟨rfl, rfl⟩

theorem stringifyItems_inj : ∀ {items items' : List JsonTree} {rest rest' : List Char},
    stringifyItems items ++ rest = stringifyItems items' ++ rest' → items = items' ∧ rest = rest'
  | [], [], rest, rest', h => by simpa [stringifyItems] using h
  | [], item' :: items', rest, rest', h => by
    simp only [stringifyItems, List.append_assoc, List.singleton_append] at h
    exact absurd h.symm (stringify_ne_bracket _ _ _)
  | item :: items, [], rest, rest', h => by
    simp only [stringifyItems, List.append_assoc, List.singleton_append] at h
    exact absurd h (stringify_ne_bracket _ _ _)
  | item :: items, item' :: items', rest, rest', h => by
    simp only [stringifyItems, List.append_assoc] at h
    obtain ⟨rfl, hmore⟩ := stringify_inj h
    obtain ⟨rfl, rfl⟩ := moreItems_inj hmore
    exact ⟨rfl, rfl⟩

theorem moreItems_inj : ∀ {items items' : List JsonTree} {rest rest' : List Char},
    moreItems items ++ rest = moreItems items' ++ rest' → items = items' ∧ rest = rest'
  | [], [], rest, rest', h => by simpa [moreItems] using h
  | [], item' :: items', rest, rest', h => by simp [moreItems] at h
  | item :: items, [], rest, rest', h => by simp [moreItems] at h
  | item :: items, item' :: items', rest, rest', h => by
    simp only [moreItems, List.cons_append, List.cons.injEq, true_and, List.append_assoc] at h
    obtain ⟨rfl, hmore⟩ := stringify_inj h
    obtain ⟨rfl, rfl⟩ := moreItems_inj hmore
    exact ⟨rfl, rfl⟩

theorem stringifyFields_inj : ∀ {fields fields' : List (List Char × JsonTree)}
    {rest rest' : List Char}, stringifyFields fields ++ rest = stringifyFields fields' ++ rest' →
    fields = fields' ∧ rest = rest'
  | [], [], rest, rest', h => by simpa [stringifyFields] using h
  | [], (key', value') :: fields', rest, rest', h => by simp [stringifyFields] at h
  | (key, value) :: fields, [], rest, rest', h => by simp [stringifyFields] at h
  | (key, value) :: fields, (key', value') :: fields', rest, rest', h => by
    simp only [stringifyFields, List.cons_append, List.cons.injEq, true_and,
      List.append_assoc] at h
    obtain ⟨rfl, hvalue⟩ := quoted_inj h
    obtain ⟨rfl, hmore⟩ := stringify_inj (List.cons.inj hvalue).2
    obtain ⟨rfl, rfl⟩ := moreFields_inj hmore
    exact ⟨rfl, rfl⟩

theorem moreFields_inj : ∀ {fields fields' : List (List Char × JsonTree)}
    {rest rest' : List Char}, moreFields fields ++ rest = moreFields fields' ++ rest' →
    fields = fields' ∧ rest = rest'
  | [], [], rest, rest', h => by simpa [moreFields] using h
  | [], (key', value') :: fields', rest, rest', h => by simp [moreFields] at h
  | (key, value) :: fields, [], rest, rest', h => by simp [moreFields] at h
  | (key, value) :: fields, (key', value') :: fields', rest, rest', h => by
    simp only [moreFields, List.cons_append, List.cons.injEq, true_and, List.append_assoc] at h
    obtain ⟨rfl, hvalue⟩ := quoted_inj h
    obtain ⟨rfl, hmore⟩ := stringify_inj (List.cons.inj hvalue).2
    obtain ⟨rfl, rfl⟩ := moreFields_inj hmore
    exact ⟨rfl, rfl⟩

end

/-- Two values with one text are one value. -/
theorem stringify_injective : Function.Injective stringify := by
  intro value value' h
  have hwhole : stringify value ++ [] = stringify value' ++ [] := by rw [h]
  exact (stringify_inj hwhole).1

end JsonTree

end Loxep

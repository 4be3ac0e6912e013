import Mathlib.Order.MinMax
import Mathlib.Tactic.Common
import Loxep.ListingSearch

/-!
# What a paged search collects

A call that does not end the walk collects a listing, so no more are made than listings are
wanted. A page without a usable entry ends it, whatever lies behind.
-/

namespace Loxep.ListingSearch

variable {α : Type*} {provider : SearchProvider α} {input : SearchAllInput}
  {entries : List (RawSummary α)} {wanted : ℕ}

theorem searchPages_isSome {calls : ℕ} {result : SearchAllResult α} {cursor : Option ℕ}
    (hcalls : input.maxItems - result.summaries.length ≤ calls)
    (hwanted : result.summaries.length < input.maxItems) :
    (searchPages provider input calls result cursor).isSome := by
  induction calls generalizing result cursor with
  | zero => omega
  | succ calls ih =>
    rw [searchPages]
    rcases searchListings provider (input.pageLimit result.summaries.length) cursor with _ | page
    · rfl
    dsimp only
    split_ifs with hend
    · rfl
    · have := List.length_pos_iff.2 fun hnil => hend (.inl hnil)
      apply ih <;> simp only [List.length_append, not_or] at hend ⊢ <;> omega

abbrev usable (entries : List (RawSummary α)) : List (EbayListingSummary α) :=
  entries.filterMap mapSearchSummary

def listed (entries : List (RawSummary α)) (names : ℕ → Bool) : SearchProvider α :=
  fun limit cursor =>
    let offset := cursor.getD 0
    let stop := offset + limit
    .ok { itemSummaries := (entries.drop offset).take limit
          total := some entries.length
          offset := some offset
          next := if stop < entries.length then some ⟨if names stop then some stop else none⟩
            else none
          warnings := [] }

/-- Every page that the walk reads holds a usable entry, or there is none behind it either. -/
inductive ReadsOn (size : ℕ) : ℕ → List (RawSummary α) → Prop
  | collected {entries : List (RawSummary α)} : ReadsOn size 0 entries
  | exhausted {wanted : ℕ} {entries : List (RawSummary α)} :
      usable entries = [] → ReadsOn size wanted entries
  | page {wanted : ℕ} {entries : List (RawSummary α)} :
      usable (entries.take (min size wanted)) ≠ [] →
      ReadsOn size (wanted - (usable (entries.take (min size wanted))).length)
        (entries.drop (min size wanted)) →
      ReadsOn size wanted entries

theorem readsOn_iff {size : ℕ} (hwanted : 0 < wanted)
    (hpage : usable (entries.take (min size wanted)) ≠ []) :
    ReadsOn size wanted entries ↔
      ReadsOn size (wanted - (usable (entries.take (min size wanted))).length)
        (entries.drop (min size wanted)) := by
  refine ⟨fun h => ?_, .page hpage⟩
  cases h with
  | collected => omega
  | exhausted hnone =>
    rw [← List.take_append_drop (min size wanted) entries, usable, List.filterMap_append] at hnone
    exact absurd (List.append_eq_nil_iff.1 hnone).1 hpage
  | page _ hrest => exact hrest

theorem usable_eq (size : ℕ) (entries : List (RawSummary α)) :
    usable entries = usable (entries.take size) ++ usable (entries.drop size) := by
  rw [usable, usable, usable, ← List.filterMap_append, List.take_append_drop]

def SearchAllInput.size (input : SearchAllInput) : ℕ :=
  min (input.limit.getD maxSearchLimit) maxSearchLimit

variable {names : ℕ → Bool}

theorem searchListings_listed {cursor : Option ℕ} {limit : ℕ}
    (hlimit : 1 ≤ limit ∧ limit ≤ maxSearchLimit) (hcursor : cursor.getD 0 ≤ maxSearchOffset)
    (hbound : entries.length ≤ maxSearchOffset + 1) :
    searchListings (listed entries names) limit cursor = .ok
      { summaries := usable ((entries.drop (cursor.getD 0)).take limit)
        total := some entries.length
        cursor := if cursor.getD 0 + limit < entries.length then some (cursor.getD 0 + limit)
          else none
        warnings := [] } := by
  have hany : cursor.any (maxSearchOffset < ·) = false := by
    cases cursor with
    | none => rfl
    | some offset => simpa using hcursor
  rw [searchListings, if_neg (by omega), if_neg (by simp [hany])]
  change Except.ok _ = _
  congr 2
  unfold nextCursorFrom
  dsimp only
  split_ifs with hstop hname
  · exact if_neg (by simp only [Option.getD_some]; omega)
  · have hreturned : ((entries.drop (cursor.getD 0)).take limit).length = limit := by
      rw [List.length_take, List.length_drop]
      omega
    simp only [hreturned, Option.getD_none, Option.getD_some]
    exact if_neg (by omega)
  · rfl

/-- The run lemma: from any page on, the first of what is left is collected where each page
read on the way has a usable entry. -/
theorem searchPages_listed (hlimit : ∀ limit ∈ input.limit, 1 ≤ limit)
    (hbound : entries.length ≤ maxSearchOffset + 1) {calls : ℕ} {result : SearchAllResult α}
    {cursor : Option ℕ} (hcursor : cursor.getD 0 ≤ maxSearchOffset)
    (hwanted : wanted = input.maxItems - result.summaries.length) (hpos : 0 < wanted)
    (hcalls : wanted ≤ calls) :
    ∃ r, searchPages (listed entries names) input calls result cursor = some (.ok r) ∧
      (r.summaries = result.summaries ++ (usable (entries.drop (cursor.getD 0))).take wanted ↔
        ReadsOn input.size wanted (entries.drop (cursor.getD 0))) := by
  induction calls generalizing result cursor wanted with
  | zero => omega
  | succ calls ih =>
    have hsize : input.pageLimit result.summaries.length = min input.size wanted := by
      rw [SearchAllInput.pageLimit, SearchAllInput.size, ← hwanted, min_right_comm]
    have hone : 1 ≤ min input.size wanted := by
      refine le_min (le_min ?_ (by decide)) hpos
      rcases hl : input.limit with _ | limit
      · decide
      · exact hlimit limit hl
    have hmax : min input.size wanted ≤ maxSearchLimit :=
      (min_le_left _ _).trans (min_le_right _ _)
    rw [searchPages, hsize, searchListings_listed ⟨hone, hmax⟩ hcursor hbound]
    generalize hoffset : cursor.getD 0 = offset at *
    have hsplit := usable_eq (min input.size wanted) (entries.drop offset)
    have hlength : (usable ((entries.drop offset).take (min input.size wanted))).length ≤ wanted :=
      (List.length_filterMap_le _ _).trans ((List.length_take_le _ _).trans (min_le_right _ _))
    generalize hpage : usable ((entries.drop offset).take (min input.size wanted)) = page at *
    have htake : ∀ rest, (page ++ rest).take wanted = page ++ rest.take (wanted - page.length) :=
      fun rest => by rw [List.take_append, List.take_of_length_le hlength]
    have hwhole : (result.summaries ++ page).take input.maxItems = result.summaries ++ page :=
      List.take_of_length_le (by rw [List.length_append]; omega)
    dsimp only
    by_cases hnone : page = []
    · subst hnone
      refine ⟨_, if_pos (.inl rfl), ?_⟩
      rw [hwhole, List.append_nil, List.self_eq_append_right, List.take_eq_nil_iff,
        or_iff_right hpos.ne']
      refine ⟨.exhausted, fun h => ?_⟩
      cases h with
      | collected => omega
      | exhausted h => exact h
      | page h _ => exact absurd hpage h
    rw [readsOn_iff hpos (by rwa [hpage]), hpage, hsplit, htake, List.drop_drop]
    by_cases hfull : input.maxItems ≤ (result.summaries ++ page).length
    · refine ⟨_, if_pos (.inr (.inr hfull)), ?_⟩
      have : wanted - page.length = 0 := by
        rw [List.length_append] at hfull
        omega
      rw [hwhole, this, List.take_zero]
      exact iff_of_true (by simp) .collected
    by_cases hstop : offset + min input.size wanted < entries.length
    · have hsome := List.length_pos_iff.2 hnone
      rw [List.length_append] at hfull
      have hleft : wanted - page.length = input.maxItems -
          (SearchAllResult.summaries ⟨result.summaries ++ page, result.pages + 1,
            result.total.or (some entries.length), result.warnings ++ []⟩).length := by
        rw [List.length_append]
        omega
      have hnext : (some (offset + min input.size wanted)).getD 0 ≤ maxSearchOffset := by
        rw [Option.getD_some]
        omega
      obtain ⟨r, hr, hiff⟩ := ih hnext hleft (by omega) (by omega)
      refine ⟨r, ?_, ?_⟩
      · rw [if_neg (by simp [hnone, hstop, hfull]), if_pos hstop]
        exact hr
      · simpa using hiff
    · refine ⟨_, if_pos (.inr (.inl (if_neg hstop))), ?_⟩
      rw [hwhole, List.drop_eq_nil_of_le (by omega)]
      exact iff_of_true (by simp) (.exhausted rfl)

/-- Finitely many calls whatever is answered, and the first usable entries exactly where no page
that is read hides some behind it. -/
theorem searchAllListings_prefix_iff (hlimit : ∀ limit ∈ input.limit, 1 ≤ limit)
    (hcursor : input.cursor = none) (hmax : 1 ≤ input.maxItems)
    (hbound : entries.length ≤ maxSearchOffset + 1) (names : ℕ → Bool) :
    (∀ provider : SearchProvider α,
      (searchAllListings provider input input.maxItems).isSome) ∧
    ((∃ r, searchAllListings (listed entries names) input input.maxItems = some (.ok r) ∧
        r.summaries = (usable entries).take input.maxItems) ↔
      ReadsOn input.size input.maxItems entries) := by
  have hloop : ∀ provider : SearchProvider α, searchAllListings provider input input.maxItems =
      searchPages provider input input.maxItems ⟨[], 0, none, []⟩ none := fun provider => by
    rw [searchAllListings, if_neg (not_lt.2 hmax), hcursor]
  refine ⟨fun provider => hloop provider ▸ searchPages_isSome (Nat.sub_le _ _) hmax, ?_⟩
  obtain ⟨r, hr, hiff⟩ := @searchPages_listed _ input entries input.maxItems names hlimit
    hbound _ ⟨[], 0, none, []⟩ none (Nat.zero_le _) rfl hmax (le_refl _)
  rw [hloop, hr]
  rw [Option.getD_none, List.drop_zero, List.nil_append] at hiff
  rw [← hiff]
  exact ⟨fun ⟨_, hok, h⟩ => by cases hok; exact h, fun h => ⟨r, rfl, h⟩⟩

def placeholderFirst : List (RawSummary Unit) := [⟨none, ()⟩, ⟨some "v1|2|0", ()⟩]

theorem placeholder_page_ends :
    searchAllListings (listed placeholderFirst fun _ => true) ⟨some 1, none, 1⟩ 1 =
        some (.ok ⟨[], 1, some 2, []⟩) ∧
      (usable placeholderFirst).take 1 = [⟨"v1|2|0", ()⟩] := by
  decide

theorem placeholder_last_read :
    (∃ r, searchAllListings (listed placeholderFirst.reverse fun _ => true) ⟨some 1, none, 1⟩ 1 =
      some (.ok r) ∧ r.summaries = (usable placeholderFirst.reverse).take 1) :=
  (@searchAllListings_prefix_iff Unit ⟨some 1, none, 1⟩ placeholderFirst.reverse (by decide) rfl
    (by decide) (by decide) fun _ => true).2.2 (.page (by decide) .collected)

end Loxep.ListingSearch

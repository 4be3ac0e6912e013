import Mathlib.Data.List.Basic

/-!
# Paging a listing search

A page is asked for by its size and, after the first, the offset its cursor stands for. The
provider's link to the next page is read for an `offset` parameter.
-/

namespace Loxep.ListingSearch

variable {α : Type*}

def maxSearchLimit : ℕ := 200

def maxSearchOffset : ℕ := 9999

structure RawSummary (α : Type*) where
  itemId : Option String
  fields : α

structure EbayListingSummary (α : Type*) where
  externalItemId : String
  fields : α
  deriving DecidableEq

def mapSearchSummary (raw : RawSummary α) : Option (EbayListingSummary α) :=
  raw.itemId.map fun externalItemId => ⟨externalItemId, raw.fields⟩

/-- `offset` is what `/[?&]offset=(\d+)/` finds in the link. -/
structure NextLink where
  offset : Option ℕ

structure SearchResponse (α : Type*) where
  itemSummaries : List (RawSummary α)
  total : Option ℕ
  offset : Option ℕ
  next : Option NextLink
  warnings : List String

structure EbaySearchPage (α : Type*) where
  summaries : List (EbayListingSummary α)
  total : Option ℕ
  cursor : Option ℕ
  warnings : List String

inductive SearchError
  | invalid (message : String)
  | provider (message : String)
  deriving DecidableEq

/-- How the provider answers a page size and an offset: the query is that of the run, and what
it finds does not change between its calls. -/
abbrev SearchProvider (α : Type*) := ℕ → Option ℕ → Except SearchError (SearchResponse α)

def nextCursorFrom (next : Option NextLink) (offset : Option ℕ) (returned : ℕ) : Option ℕ :=
  match next with
  | none => none
  | some link =>
    let offset := link.offset.getD (offset.getD 0 + returned)
    if maxSearchOffset < offset then none else some offset

def searchListings (provider : SearchProvider α) (limit : ℕ) (cursor : Option ℕ) :
    Except SearchError (EbaySearchPage α) :=
  if limit < 1 ∨ maxSearchLimit < limit then
    .error (.invalid "eBay search limit must be an integer 1…200")
  else if cursor.any (maxSearchOffset < ·) then
    .error (.invalid ("eBay search cannot page past offset 9999; " ++
      "narrow the search or sort by newlyListed"))
  else do
    let response ← provider limit cursor
    return ⟨response.itemSummaries.filterMap mapSearchSummary, response.total,
      nextCursorFrom response.next response.offset response.itemSummaries.length,
      response.warnings⟩

structure SearchAllInput where
  limit : Option ℕ
  cursor : Option ℕ
  maxItems : ℕ

structure SearchAllResult (α : Type*) where
  summaries : List (EbayListingSummary α)
  pages : ℕ
  total : Option ℕ
  warnings : List String
  deriving DecidableEq

def SearchAllInput.pageLimit (input : SearchAllInput) (collected : ℕ) : ℕ :=
  min (min (input.limit.getD maxSearchLimit) (input.maxItems - collected)) maxSearchLimit

/-- The loop from what it has collected; `none` once as many calls as `calls` were not enough. -/
def searchPages (provider : SearchProvider α) (input : SearchAllInput) (calls : ℕ)
    (result : SearchAllResult α) (cursor : Option ℕ) :
    Option (Except SearchError (SearchAllResult α)) :=
  match calls with
  | 0 => none
  | calls + 1 =>
    match searchListings provider (input.pageLimit result.summaries.length) cursor with
    | .error error => some (.error error)
    | .ok page =>
      let result : SearchAllResult α :=
        { summaries := result.summaries ++ page.summaries
          pages := result.pages + 1
          total := result.total.or page.total
          warnings := result.warnings ++ page.warnings }
      if page.summaries = [] ∨ page.cursor = none ∨ input.maxItems ≤ result.summaries.length then
        some (.ok { result with summaries := result.summaries.take input.maxItems })
      else searchPages provider input calls result page.cursor

def searchAllListings (provider : SearchProvider α) (input : SearchAllInput) (calls : ℕ) :
    Option (Except SearchError (SearchAllResult α)) :=
  if input.maxItems < 1 then some (.error (.invalid "maxItems must be a positive integer"))
  else searchPages provider input calls ⟨[], 0, none, []⟩ input.cursor

end Loxep.ListingSearch

import Loxep.Inventory
import Loxep.Lib.Ancestry
import Loxep.Lib.Like
import Loxep.Lib.Runs

/-!
# Storage locations

A tree of places by parent pointers. `path`, the codes from the root joined by slashes, and `depth`
are caches that `create` and `setParent` maintain: everything under a location is what matches its
path, a slash and `%` in a `like`.
-/

namespace Loxep

structure LocationRow where
  id : LocationId
  parentLocationId : Option LocationId
  code : String
  name : String
  path : String
  depth : ℤ
  deriving DecidableEq

abbrev LocationTable := List LocationRow

def maxLocationDepth : ℤ := 6

structure CreateLocationInput where
  id : LocationId
  code : String
  name : String
  parentLocationId : Option LocationId := none

/-- `[A-Za-z0-9._-]`. -/
def isCodeChar (c : Char) : Bool := c.isAlphanum || c == '.' || c == '_' || c == '-'

/-- `codeSchema`. -/
def parseCode (code : String) : InventoryResult String := do
  let code := trim code
  Except.require (1 ≤ code.toList.length ∧ code.toList.length ≤ 64 ∧
    code.toList.head?.any Char.isAlphanum ∧ code.toList.all isCodeChar)
    (InventoryError.validation "invalid location input: code")
  return code

/-- What a character of a `like` pattern stands for; codes have no escape character. -/
def likeToken (c : Char) : Like.Token Char :=
  if c = '%' then .text else if c = '_' then .one else .char c

/-- `text like pattern`. -/
def like (text pattern : String) : Bool := Like.Matches (pattern.toList.map likeToken) text.toList

/-- `path like '<path>/' || '%'`. -/
def LocationRow.under (l : LocationRow) (path : String) : Bool := like l.path (path ++ "/" ++ "%")

/-- `substring(s from k + 1)`. -/
def substringFrom (s : String) (k : ℕ) : String := String.ofList (s.toList.drop k)

namespace LocationTable

variable (t : LocationTable)

def findLocation (id : LocationId) : Option LocationRow := t.find? (·.id == id)

/-- `parent_location_id` of a row. -/
def parent (id : LocationId) : Option LocationId := (t.findLocation id).bind (·.parentLocationId)

def get (id : LocationId) : InventoryResult LocationRow :=
  match t.findLocation id with
  | none => .error (.notFound s!"unknown inventory location \"{id}\"")
  | some location => .ok location

def check : InventoryResult LocationTable := do
  Except.require (t.map (·.id)).Nodup (InventoryError.database "inventory_locations_pkey")
  Except.require (t.map (·.code)).Nodup (InventoryError.database "inventory_locations_code_uq")
  Except.require (t.map fun l => (l.parentLocationId, l.name)).Nodup
    (InventoryError.database "inventory_locations_parent_name_uq")
  Except.require (∀ l ∈ t, ∀ parent ∈ l.parentLocationId, parent ∈ t.map (·.id))
    (InventoryError.database "inventory_locations_parent_fk")
  Except.require (∀ l ∈ t, l.parentLocationId ≠ some l.id)
    (InventoryError.database "inventory_locations_self_parent_check")
  Except.require (∀ l ∈ t, 0 ≤ l.depth ∧ l.depth ≤ 6)
    (InventoryError.database "inventory_locations_depth_check")
  return t

def placeUnder (code : String) : Option LocationId → InventoryResult (String × ℤ)
  | none => .ok (code, 0)
  | some id => do
    let parent ← t.get id
    let depth := parent.depth + 1
    Except.require (depth ≤ maxLocationDepth)
      (InventoryError.conflict (s!"location depth {depth} exceeds the cap of " ++
        s!"{maxLocationDepth}; the tree is a tree, not a filing system"))
    return (parent.path ++ "/" ++ code, depth)

def create (value : CreateLocationInput) : InventoryResult (LocationRow × LocationTable) := do
  let code ← parseCode value.code
  Except.require (trim value.name ≠ "")
    (InventoryError.validation "invalid location input: name")
  let (path, depth) ← t.placeUnder code value.parentLocationId
  let row : LocationRow := ⟨value.id, value.parentLocationId, code, trim value.name, path, depth⟩
  let t ← check (t ++ [row])
  return (row, t)

def chain : ℕ → LocationId → List LocationId
  | 0, id => ((t.findLocation id).map (·.id)).toList
  | left + 1, id =>
    match t.findLocation id with
    | none => []
    | some row => row.id :: (row.parentLocationId.map (chain left)).getD []

def newParent (locationId : LocationId) : Option LocationId → InventoryResult (String × ℤ)
  | none => .ok ("", -1)
  | some id => do
    Except.require (id ≠ locationId)
      (InventoryError.conflict "a location cannot be its own parent")
    let chain := t.chain (maxLocationDepth + 2).toNat id
    Except.require (chain ≠ [])
      (InventoryError.notFound s!"unknown inventory location \"{id}\"")
    Except.require (locationId ∉ chain)
      (InventoryError.conflict "re-parenting there would create a cycle in the location tree")
    let parent ← t.get id
    return (parent.path, parent.depth)

/-- `coalesce(max(depth), …)` over what is at the location's path or matches it as a prefix. -/
def subtreeDepth (location : LocationRow) : ℤ :=
  (((t.filter fun l => l.path == location.path || l.under location.path).map
    (·.depth)).max?).getD location.depth

/-- The first update: the row itself. -/
def repointed (id : LocationId) (parent : Option LocationId) (path : String) (depth : ℤ) :
    LocationTable :=
  t.map fun l =>
    if l.id = id then { l with parentLocationId := parent, path := path, depth := depth } else l

def rewritten (oldPath newPath : String) (shift : ℤ) : LocationTable :=
  t.map fun l =>
    if l.under oldPath then
      { l with
        path := newPath ++ substringFrom l.path oldPath.length
        depth := l.depth + shift }
    else l

def setParent (locationId : LocationId) (parentLocationId : Option LocationId) :
    InventoryResult (LocationRow × LocationTable) := do
  let location ← t.get locationId
  let (parentPath, parentDepth) ← t.newParent locationId parentLocationId
  let newPath := if parentPath = "" then location.code else parentPath ++ "/" ++ location.code
  let newDepth := parentDepth + 1
  Except.require (newDepth + (t.subtreeDepth location - location.depth) ≤ maxLocationDepth)
    (InventoryError.conflict
      s!"re-parenting would push the subtree past the depth cap of {maxLocationDepth}")
  let moved ← check (t.repointed locationId parentLocationId newPath newDepth)
  let moved ← check (rewritten moved location.path newPath (newDepth - location.depth))
  match findLocation moved locationId with
  | none => .error (.notFound "location vanished during re-parent")
  | some updated => .ok (updated, moved)

def subtree (locationId : LocationId) : InventoryResult LocationTable := do
  let location ← t.get locationId
  return t.filter fun l => l.path == location.path || l.under location.path

end LocationTable

inductive LocationAction
  | create (value : CreateLocationInput)
  | setParent (locationId : LocationId) (parentLocationId : Option LocationId)

namespace LocationTable

def execute (t : LocationTable) : LocationAction → InventoryResult LocationTable
  | .create value => (t.create value).map (·.2)
  | .setParent locationId parentLocationId => (t.setParent locationId parentLocationId).map (·.2)

/-- A call that raises rolls its transaction back. -/
def step (t : LocationTable) (action : LocationAction) : LocationTable :=
  match t.execute action with
  | .ok t' => t'
  | .error _ => t

end LocationTable

end Loxep

import Loxep.DecimalText

/-!
# Raw payloads

What a provider sends, as it was parsed, and how the adapters read it. A field that is absent reads
as null, and what is not of the shape that is asked for reads as absent.
-/

namespace Loxep

inductive Json
  | null
  | bool (value : Bool)
  | number (text : String)
  | string (value : String)
  | array (entries : List Json)
  | object (fields : List (String × Json))

abbrev JsonRecord := List (String × Json)

namespace JsonRecord

/-- `record[key]`. -/
def field (record : JsonRecord) (key : String) : Json := (record.lookup key).getD .null

end JsonRecord

namespace Json

def asRecord : Json → Option JsonRecord
  | .object fields => some fields
  | _ => none

def asText : Json → Option String
  | .string value => if trim value = "" then none else some (trim value)
  | _ => none

/-- The greatest `n` for which `n` and `n + 1` are exact. -/
def maxSafeInteger : ℕ := 2 ^ 53 - 1

end Json

end Loxep

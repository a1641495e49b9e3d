import Sieve.Decimal.Reading
import Sieve.Json.Basic

namespace Sieve.Json

-- What a JSON text says before it is taken as a value. Members keep their order and may share a
-- name. A number beyond all doubles, a string with half a surrogate pair and an object with such
-- a name are well written, but have no value.
inductive Source where
  | null
  | bool (b : Bool)
  | number (n : Option Number)
  | string (s : Option String)
  | array (items : List Source)
  | object (members : List (Option String × Source))

mutual

-- The value of a source in which arrays and objects are nested at most `depth` deep.
def Source.value? : Nat → Source → Option Json
  | _, .null => some .null
  | _, .bool b => some (.bool b)
  | _, .number n => n.map .number
  | _, .string s => s.map .string
  | 0, .array _ => none
  | depth + 1, .array items => (Source.values? depth items).map .array
  | 0, .object _ => none
  | depth + 1, .object members => (Source.memberValues? depth members).map ofMembers

def Source.values? : Nat → List Source → Option (List Json)
  | _, [] => some []
  | depth, item :: rest => do
    let value ← item.value? depth
    let values ← Source.values? depth rest
    return value :: values

def Source.memberValues? : Nat → List (Option String × Source) → Option (List (String × Json))
  | _, [] => some []
  | depth, (name, item) :: rest => do
    let name ← name
    let value ← item.value? depth
    let values ← Source.memberValues? depth rest
    return (name, value) :: values

end

mutual

-- A source that says exactly a given value.
def source : Json → Source
  | .null => .null
  | .bool b => .bool b
  | .number n => .number (some n)
  | .string s => .string (some s)
  | .array items => .array (sources items)
  | .object members => .object (memberSources members)

def sources : List Json → List Source
  | [] => []
  | item :: rest => item.source :: sources rest

def memberSources : List (String × Json) → List (Option String × Source)
  | [] => []
  | (name, value) :: rest => (some name, value.source) :: memberSources rest

end

end Sieve.Json

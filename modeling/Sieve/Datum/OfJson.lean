import Sieve.Datum
import Sieve.Json.Basic

namespace Sieve.Datum

def ofNumber (n : Json.Number) : Datum :=
  match n.int64? with
  | some i => scalar (.long i)
  | none => scalar (.double n.toFloat)

mutual

-- A JSON value as a record holds it: objects are mappings, numbers longs or doubles.
def ofJson : Json → Datum
  | .null => null
  | .bool b => scalar (.boolean b)
  | .number n => ofNumber n
  | .string s => scalar (.string s)
  | .array items => list (ofJsonItems items)
  | .object members => map (ofJsonMembers members)

def ofJsonItems : List Json → List Datum
  | [] => []
  | item :: rest => ofJson item :: ofJsonItems rest

def ofJsonMembers : List (String × Json) → List (String × Datum)
  | [] => []
  | (name, value) :: rest => (name, ofJson value) :: ofJsonMembers rest

end

end Sieve.Datum

import Sieve.Json.Printer
import Sieve.Value

namespace Sieve

-- The literal of a rule as it was given. What has no meaning as a scalar or a list is kept as it
-- is and later taken by its text.
inductive RawValue where
  | bool (b : Bool)
  | int (n : Int64)
  | float (x : Float)
  | text (s : String)
  | list (items : List RawValue)
  | other (json : Json)

namespace RawValue

def ofNumber (n : Json.Number) : RawValue :=
  match n.int64? with
  | some i => int i
  | none => float n.toFloat

mutual

-- Sorts a JSON value by its form.
def ofJson : Json → RawValue
  | .bool b => bool b
  | .number n => ofNumber n
  | .string s => text s
  | .array items => list (ofJsonItems items)
  | .null => other .null
  | .object members => other (.object members)

def ofJsonItems : List Json → List RawValue
  | [] => []
  | item :: rest => ofJson item :: ofJsonItems rest

end

def asBool? : Json → Option RawValue
  | .bool b => some (bool b)
  | _ => none

def asInt? : Json → Option RawValue
  | .number n => n.int64?.map int
  | _ => none

def asFloat? : Json → Option RawValue
  | .number n => some (float n.toFloat)
  | _ => none

def asText? : Json → Option RawValue
  | .string s => some (text s)
  | _ => none

-- The first reading that fits, in the order of the constructors; `items` are those of an array,
-- read already. The last reading fits everything.
def firstFitting (json : Json) (items : Option (List RawValue)) : RawValue :=
  (asBool? json <|> asInt? json <|> asFloat? json <|> asText? json <|> items.map list).getD
    (other json)

mutual

-- Tries one form after the other on a JSON value.
def read : Json → RawValue
  | .array items => firstFitting (.array items) (some (readItems items))
  | json => firstFitting json none

def readItems : List Json → List RawValue
  | [] => []
  | item :: rest => read item :: readItems rest

end

mutual

def toJson : RawValue → Json
  | bool b => .bool b
  | int n => .number (.integer n.toInt)
  | float x => if x.isFinite then .number (.double x) else .null
  | text s => .string s
  | list items => .array (toJsonItems items)
  | other json => json

def toJsonItems : List RawValue → List Json
  | [] => []
  | item :: rest => item.toJson :: toJsonItems rest

end

-- The value that is only given by its text.
def ofRendering (value : Value) : RawValue :=
  text value.render

end RawValue

end Sieve

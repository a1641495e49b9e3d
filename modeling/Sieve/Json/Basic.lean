namespace Sieve

namespace Json

-- A number of a JSON text: an integer of at most 64 bits, or a double.
inductive Number where
  | integer (n : Int)
  | double (x : Float)
  deriving DecidableEq

namespace Number

-- The integer, if there is one with a sign in 64 bits.
def int64? : Number → Option Int64
  | integer n =>
    if -9223372036854775808 ≤ n ∧ n ≤ 9223372036854775807 then some (Int64.ofInt n) else none
  | double _ => none

def toFloat : Number → Float
  | integer n => Float.ofInt n
  | double x => x

end Number

end Json

-- A JSON value. One that is read from a text has the members of its objects in the order of
-- their names, each name once.
inductive Json where
  | null
  | bool (b : Bool)
  | number (n : Json.Number)
  | string (s : String)
  | array (items : List Json)
  | object (members : List (String × Json))
  deriving Inhabited

namespace Json

-- Puts a member in its place among sorted ones; a member of the same name gives way.
def insertMember (name : String) (value : Json) : List (String × Json) → List (String × Json)
  | [] => [(name, value)]
  | (other, held) :: rest =>
    if name < other then (name, value) :: (other, held) :: rest
    else if name = other then (name, value) :: rest
    else (other, held) :: insertMember name value rest

-- The object with these members; of members that share a name the last one counts.
def ofMembers (members : List (String × Json)) : Json :=
  .object (members.foldl (fun sorted member => insertMember member.1 member.2 sorted) [])

def member? (name : String) : Json → Option Json
  | .object members => members.lookup name
  | _ => none

end Json

end Sieve

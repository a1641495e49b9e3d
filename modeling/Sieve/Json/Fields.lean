import Sieve.Json.Source

namespace Sieve.Json

-- Whether the member with this name is asked for, and by which place.
def placeOf? (names : List String) (name : String) : Option Nat :=
  names.findIdx? (· == name)

-- Files the members of an object under the places of their names. An unknown name is passed
-- over, whatever it holds; a known one may occur once.
def fileMembers? (names : List String) (filed : List (Nat × Source)) :
    List (Option String × Source) → Option (List (Nat × Source))
  | [] => some filed
  | (name, value) :: rest => do
    let name ← name
    match placeOf? names name with
    | none => fileMembers? names filed rest
    | some place =>
      if (filed.lookup place).isSome then none
      else fileMembers? names ((place, value) :: filed) rest

-- What a source says about a record of fields with these names, by place. An array gives the
-- fields in order and may leave out the last ones.
def Source.fields? (names : List String) : Source → Option (List (Nat × Source))
  | .object members => fileMembers? names [] members
  | .array items =>
    if items.length ≤ names.length then some ((List.range items.length).zip items) else none
  | _ => none

end Sieve.Json

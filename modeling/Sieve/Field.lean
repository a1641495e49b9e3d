import Sieve.Kind

namespace Sieve

-- One step from a datum to a datum inside it.
inductive Step where
  | member (name : String)
  | key (name : String)
  | index (indexer key : String)
  deriving DecidableEq

namespace Step

def memberName? : Step → Option String
  | member name => some name
  | _ => none

end Step

-- The steps from a datum to the one that is meant. Without steps it is the datum itself, which
-- is how the elements of a list are tested.
abbrev FieldPath := List Step

namespace FieldPath

def isElement (path : FieldPath) : Bool :=
  path.isEmpty

-- The names of a path that only goes through members.
def memberNames? : FieldPath → Option (List String)
  | [] => some []
  | step :: rest => do
    let name ← step.memberName?
    let names ← memberNames? rest
    return name :: names

def isPlain (path : FieldPath) : Bool :=
  path.all (·.memberName?.isSome)

def renderFirst : Step → String
  | .member name => name
  | .key name => "[\"" ++ name ++ "\"]"
  | .index indexer key => indexer ++ "[\"" ++ key ++ "\"]"

-- A key is written next to what it is looked up in, the other steps behind a point.
def renderNext : Step → String
  | .key name => renderFirst (.key name)
  | step => "." ++ renderFirst step

def render : FieldPath → String
  | [] => "it"
  | step :: rest => renderFirst step ++ String.join (rest.map renderNext)

end FieldPath

-- How a condition reads a field: where, as which kind, and whether the stored datum is first
-- turned into that kind, compared in lower case, or compared by its day.
structure FieldRef where
  path : FieldPath
  kind : Kind
  coerce : Bool := false
  fold : Bool := false
  dayOnly : Bool := false
  deriving DecidableEq

namespace FieldRef

def element (kind : Kind) : FieldRef where
  path := []
  kind := kind

def coerced (field : FieldRef) (coerce : Bool) : FieldRef :=
  { field with coerce := coerce }

-- Only texts are folded.
def folded (field : FieldRef) (fold : Bool) : FieldRef :=
  { field with fold := fold && field.kind == .string }

-- Only fields tested as dates are reduced to their day.
def truncated (field : FieldRef) (dayOnly : Bool) : FieldRef :=
  { field with dayOnly := dayOnly && field.kind == .date }

def render (field : FieldRef) : String :=
  let path := field.path.render
  if field.fold then "lower(" ++ path ++ ")"
  else if field.dayOnly then "date(" ++ path ++ ")"
  else path

end FieldRef

end Sieve

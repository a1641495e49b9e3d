import Sieve.Json.Fields
import Sieve.Json.Reader
import Sieve.Rule.Basic

namespace Sieve

namespace Combinator

-- The written forms: all lower case, all upper case, or a capital letter in front.
def ofName? (name : String) : Option Combinator :=
  if name == "and" || name == "AND" || name == "And" then some .and
  else if name == "or" || name == "OR" || name == "Or" then some .or
  else none

def name : Combinator → String
  | and => "and"
  | or => "or"

-- A condition is given by its name, or by an object with that one name and nothing under it.
def ofSource? (depth : Nat) : Json.Source → Option Combinator
  | .string (some name) => ofName? name
  | .object [(some name, .null)] => if depth = 0 then none else ofName? name
  | _ => none

end Combinator

namespace Rule

def fieldNames : List String :=
  ["condition", "field", "operator", "type", "value", "rules"]

-- Reads a slot that may be missing or null.
def optional? (read : Json.Source → Option α) : Option Json.Source → Option (Option α)
  | none => some none
  | some .null => some none
  | some source => (read source).map some

def text? : Json.Source → Option String
  | .string s => s
  | _ => none

-- Reads the children of a node, if arrays may be nested deep enough for them. Their list, unlike
-- the other slots, may not be null.
def children? (readChild : Option (Json.Source → Option Rule)) : Option Json.Source → Option (List Rule)
  | none => some []
  | some (.array items) => readChild.bind items.mapM
  | some _ => none

-- Reads a rule in the slots of which arrays and objects are nested at most `depth` deep.
def ofSlots? (depth : Nat) (readChild : Option (Json.Source → Option Rule)) (source : Json.Source) :
    Option Rule := do
  let fields ← source.fields? fieldNames
  let condition ← optional? (Combinator.ofSource? depth) (fields.lookup 0)
  let field ← optional? text? (fields.lookup 1)
  let operator ← optional? text? (fields.lookup 2)
  let type ← optional? text? (fields.lookup 3)
  let value ← optional? (·.value? depth) (fields.lookup 4)
  let rules ← children? readChild (fields.lookup 5)
  return { condition, field, operator, type, value := value.map RawValue.read, rules }

-- Reads a rule in which arrays and objects are nested at most `depth` deep, those of unknown
-- members aside. Between a node and its children there is a list.
def ofSource? : Nat → Json.Source → Option Rule
  | 0, _ => none
  | 1, source => ofSlots? 0 none source
  | depth + 2, source => ofSlots? (depth + 1) (some (ofSource? depth)) source

def ofJson? (json : Json) : Option Rule :=
  ofSource? Json.maxDepth json.source

def read (text : String) : Option Rule :=
  (Json.Source.read text).bind (ofSource? Json.maxDepth)

mutual

-- The slots in order, those that are missing or empty left out.
def toJson : Rule → Json
  | ⟨condition, field, operator, type, value, rules⟩ =>
    .object <|
      (condition.map fun c => ("condition", Json.string c.name)).toList ++
      (field.map fun s => ("field", Json.string s)).toList ++
      (operator.map fun s => ("operator", Json.string s)).toList ++
      (type.map fun s => ("type", Json.string s)).toList ++
      (value.map fun v => ("value", v.toJson)).toList ++
      (match rules with
        | [] => []
        | rule :: rest => [("rules", Json.array (rule.toJson :: toJsonItems rest))])

def toJsonItems : List Rule → List Json
  | [] => []
  | rule :: rest => rule.toJson :: toJsonItems rest

end

def render (rule : Rule) : String :=
  rule.toJson.render

end Rule

end Sieve

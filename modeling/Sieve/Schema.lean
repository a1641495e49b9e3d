import Sieve.Kind

namespace Sieve

-- The shape of a field. A nested record names its schema by number, so that schemas can refer to
-- one another and to themselves.
inductive FieldType where
  | scalar (kind : Kind) (nullable : Bool)
  | list (element : FieldType)
  | object (schema : Nat)
  | map (value : FieldType)
  | dynamic
  deriving DecidableEq

namespace FieldType

-- Whether a conforming record may hold nothing there.
def isNullable : FieldType → Bool
  | scalar _ nullable => nullable
  | _ => true

def isCollection : FieldType → Bool
  | list _ => true
  | _ => false

-- What an operator on values tests: one layer of list aside.
def element : FieldType → FieldType
  | list inner => inner
  | ty => ty

end FieldType

-- The members of a record in order, and what its indexer yields, if it has one. Of members that
-- share a name the first one counts.
structure Schema where
  name : String
  fields : List (String × FieldType)
  indexer : Option (String × FieldType)
  deriving DecidableEq

namespace Schema

def field? (schema : Schema) (name : String) : Option FieldType :=
  schema.fields.lookup name

def unnamed : Schema where
  name := ""
  fields := []
  indexer := none

end Schema

-- Schemas that refer to one another by their place.
abbrev Catalog := List Schema

def Catalog.schema (catalog : Catalog) (i : Nat) : Schema :=
  catalog[i]?.getD Schema.unnamed

namespace FieldType

def render (catalog : Catalog) : FieldType → String
  | scalar kind nullable => if nullable then kind.name ++ "?" else kind.name
  | list inner => "list<" ++ inner.render catalog ++ ">"
  | object schema => (catalog.schema schema).name
  | map inner => "map<" ++ inner.render catalog ++ ">"
  | dynamic => "dynamic"

-- Whether two types agree, nested records being told apart by the names of their schemas alone.
def agrees (catalog : Catalog) : FieldType → FieldType → Bool
  | scalar kind nullable, scalar kind' nullable' => kind == kind' && nullable == nullable'
  | list inner, list inner' => inner.agrees catalog inner'
  | object schema, object schema' =>
    (catalog.schema schema).name == (catalog.schema schema').name
  | map inner, map inner' => inner.agrees catalog inner'
  | dynamic, dynamic => true
  | _, _ => false

end FieldType

-- A type of records: one schema of a catalog.
structure RecordType where
  catalog : Catalog
  root : Nat
  deriving DecidableEq

end Sieve

import Sieve.Condition

namespace Sieve

-- The languages that conditions are translated to.
inductive Target where
  | sql
  | document
  deriving DecidableEq

namespace Target

def name : Target → String
  | sql => "SQL"
  | document => "a document filter"

end Target

-- What one of the languages has no form for.
inductive Construct where
  | element
  | keyOrIndexer
  | collectionLength
  | quantifier
  | customTest
  | constantElement
  | compoundElement
  | foldedOrder
  | foldedRange
  | elementDay
  | nestedLength
  | nestedQuantifier
  | indexer
  deriving DecidableEq

namespace Construct

def description : Construct → String
  | element => "a collection element"
  | keyOrIndexer => "a map key or indexer step"
  | collectionLength => "a collection length test"
  | quantifier => "a collection quantifier"
  | customTest => "a custom predicate"
  | constantElement => "a constant element test"
  | compoundElement => "a compound test on collection elements"
  | foldedOrder => "case-insensitive ordering"
  | foldedRange => "case-insensitive range"
  | elementDay => "a day match on collection elements"
  | nestedLength => "a nested collection length test"
  | nestedQuantifier => "a nested collection quantifier"
  | indexer => "an indexer step"

end Construct

-- A condition that cannot be translated because of a construct in the part given by its text.
structure TranslationError where
  target : Target
  construct : Construct
  expression : String
  deriving DecidableEq

namespace TranslationError

def of (target : Target) (construct : Construct) (part : Condition) : TranslationError :=
  { target, construct, expression := part.render }

def message (e : TranslationError) : String :=
  e.target.name ++ " cannot express " ++ e.construct.description ++ " (in `" ++ e.expression ++ "`)"

end TranslationError

end Sieve

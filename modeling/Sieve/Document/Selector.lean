import Sieve.Translation

namespace Sieve.Document

-- A regular expression that matches a text literally, at the ends of the stored text if it is
-- anchored there, and in any case of its letters if it ignores case.
structure Regex where
  atStart : Bool
  literal : String
  atEnd : Bool
  ignoreCase : Bool
  deriving DecidableEq

-- What a stored value is measured against.
inductive Operand where
  | null
  | value (v : Value)
  | regex (r : Regex)
  deriving DecidableEq

-- What documents are selected by. Inside `inField` and `elementMatch` stands either a selector for
-- the parts of what is found there, or a test of the whole of it: `compares`, `oneOf`, `regex`,
-- `size`, `not`.
inductive Selector where
  | everything
  | nothing
  | all (parts : List Selector)
  | any (parts : List Selector)
  | noneOf (part : Selector)
  | inField (name : String) (test : Selector)
  | missing
  | not (test : Selector)
  | compares (tests : List (Comparison × Operand))
  | oneOf (operands : List Operand)
  | regex (r : Regex)
  | size (n : Nat)
  | elementMatch (test : Selector)

namespace Selector

def isEverything : Selector → Bool
  | everything => true
  | _ => false

end Selector

end Sieve.Document

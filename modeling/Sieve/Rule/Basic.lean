import Sieve.Rule.RawValue

namespace Sieve

-- How a fork combines its children.
inductive Combinator where
  | and
  | or
  deriving DecidableEq

namespace Combinator

def symbol : Combinator → String
  | and => "AND"
  | or => "OR"

end Combinator

-- A node of a rule tree as it was given. With children it is a fork, without children but with a
-- field it is a leaf, and otherwise it is empty; the slots of the other kinds are not looked at.
structure Rule where
  condition : Option Combinator := none
  field : Option String := none
  operator : Option String := none
  type : Option String := none
  value : Option RawValue := none
  rules : List Rule := []

namespace Rule

-- A fork without a condition is a conjunction.
def combinator (rule : Rule) : Combinator :=
  rule.condition.getD .and

def isFork (rule : Rule) : Bool :=
  !rule.rules.isEmpty

def isLeaf (rule : Rule) : Bool :=
  rule.rules.isEmpty && rule.field.isSome

mutual

-- Whether there is no leaf in the tree.
def isEmpty : Rule → Bool
  | ⟨_, field, _, _, _, rules⟩ =>
    match rules with
    | [] => field.isNone
    | rule :: rest => rule.isEmpty && allEmpty rest

def allEmpty : List Rule → Bool
  | [] => true
  | rule :: rest => rule.isEmpty && allEmpty rest

end

def fork (combinator : Combinator) (rules : List Rule) : Rule where
  condition := some combinator
  rules := rules

def leaf (field operator type : String) (value : Option RawValue) : Rule where
  field := some field
  operator := some operator
  type := some type
  value := value

end Rule

end Sieve

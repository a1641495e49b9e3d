import Sieve.Operator.Custom

namespace Sieve.Cache

mutual

-- What a plan depends on in a rule tree: everything but the literals. Children without a leaf
-- are left out, the others keep their place.
inductive Shape where
  | empty
  | leaf (field operator type : Option String)
  | fork (combinator : Combinator) (children : Branches)

inductive Branches where
  | nil
  | cons (place : Nat) (shape : Shape) (rest : Branches)

end

deriving instance DecidableEq for Shape, Branches

mutual

def Shape.ofRule : Rule → Shape
  | ⟨condition, field, operator, type, _, rules⟩ =>
    match rules with
    | [] => if field.isSome then .leaf field operator type else .empty
    | rule :: rest => .fork (condition.getD .and) (Branches.ofRules 0 (rule :: rest))

def Branches.ofRules (place : Nat) : List Rule → Branches
  | [] => .nil
  | rule :: rest =>
    if rule.isEmpty then Branches.ofRules (place + 1) rest
    else .cons place (Shape.ofRule rule) (Branches.ofRules (place + 1) rest)

end

def Shape.ofRule? : Option Rule → Shape
  | some rule => if rule.isEmpty then .empty else .ofRule rule
  | none => .empty

-- What a plan is found again by: the type of the records, the shape of the tree, and those
-- options that planning looks at. Locale and time zone only matter for literals.
structure Key where
  record : RecordType
  shape : Shape
  caseSensitive : Bool
  useIndexer : Bool
  indexerName : String
  operators : List (String × Nat)
  deriving DecidableEq

def Key.of (record : RecordType) (options : Options) (rule : Option Rule) : Key where
  record := record
  shape := .ofRule? rule
  caseSensitive := options.caseSensitive
  useIndexer := options.useIndexer
  indexerName := options.indexerName
  operators := options.operators.map fun op => (op.name, op.id)

end Sieve.Cache

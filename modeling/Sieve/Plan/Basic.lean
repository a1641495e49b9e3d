import Sieve.Operator.Builtin
import Sieve.Operator.Custom
import Sieve.Resolution

namespace Sieve

inductive Binding where
  | builtin (op : Operator)
  | custom (op : CustomOperator)

-- A leaf without its literal: its field found on the schema, its kind and its operator known.
structure LeafPlan where
  field : String
  declared : Kind
  binding : Binding
  resolution : Resolution
  fold : Bool

-- What a rule tree comes to before its literals are looked at. It fits every tree that differs
-- from the one it was made for in literals alone. Children of a fork keep their place among the
-- rules; those without a leaf are left out.
inductive Plan where
  | everything
  | leaf (leaf : LeafPlan)
  | fork (combinator : Combinator) (children : List (Nat × Plan))

namespace Plan

def require (slot : Slot) (text : Option String) : Except RuleError String :=
  match text with
  | some text => .ok text
  | none => .error (.configuration (.incompleteRule slot))

def readKind (name : String) : Except RuleError Kind :=
  match Kind.read name with
  | some kind => .ok kind
  | none => .error (.configuration (.unknownType name))

def findOperator (options : Options) (name : String) : Except RuleError Binding :=
  match options.operator? name with
  | some op => .ok (.custom op)
  | none =>
    match Operator.ofName? name with
    | some op => .ok (.builtin op)
    | none => .error (.configuration (.unknownOperator name))

-- Custom operators check for themselves what they can be applied to.
def checkTarget (binding : Binding) (field : String) (type : FieldType) (declared : Kind) :
    Except RuleError Unit :=
  match binding with
  | .custom _ => .ok ()
  | .builtin op =>
    match op.test.misuse? type declared with
    | some misuse => .error (.configuration (.unsupportedOperator op.name field misuse))
    | none => .ok ()

def ofLeaf (record : RecordType) (options : Options) (rule : Rule) :
    Except RuleError LeafPlan := do
  let field ← require .field rule.field
  let type ← require .type rule.type
  let declared ← readKind type
  let name ← require .operator rule.operator
  let binding ← findOperator options name
  let resolution ← Resolution.resolve record options.toSettings field
  (resolution.checkKind field declared).mapError .configuration
  checkTarget binding field resolution.type declared
  return {
    field, declared, binding, resolution,
    fold := declared == .string && !options.caseSensitive }

mutual

-- Plans a tree. The first leaf with a fault, from left to right, decides which error it is.
def ofRule (record : RecordType) (options : Options) : Rule → Except RuleError Plan
  | ⟨condition, field, operator, type, value, rules⟩ =>
    match rules with
    | [] =>
      if field.isSome then
        (ofLeaf record options ⟨condition, field, operator, type, value, []⟩).map leaf
      else .ok everything
    | rule :: rest =>
      (ofChildren record options 0 (rule :: rest)).map (fork (condition.getD .and))

def ofChildren (record : RecordType) (options : Options) (place : Nat) :
    List Rule → Except RuleError (List (Nat × Plan))
  | [] => .ok []
  | rule :: rest =>
    if rule.isEmpty then ofChildren record options (place + 1) rest
    else do
      let plan ← ofRule record options rule
      let plans ← ofChildren record options (place + 1) rest
      return (place, plan) :: plans

end

-- A tree without a leaf, or no tree at all, lets everything pass.
def ofRule? (record : RecordType) (options : Options) (rule : Option Rule) :
    Except RuleError Plan :=
  match rule with
  | some rule => if rule.isEmpty then .ok everything else ofRule record options rule
  | none => .ok everything

end Plan

end Sieve

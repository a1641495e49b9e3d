import Sieve.Decimal.Integer
import Sieve.Kind

namespace Sieve

-- How many literal values an operator takes.
inductive Arity where
  | nothing
  | one
  | two
  | atLeastOne
  deriving DecidableEq

namespace Arity

-- An operator that takes no value does not mind one.
def accepts (arity : Arity) (count : Nat) : Bool :=
  match arity with
  | nothing => true
  | one => count == 1
  | two => count == 2
  | atLeastOne => 1 ≤ count

def describe : Arity → String
  | nothing => "no"
  | one => "exactly 1"
  | two => "exactly 2"
  | atLeastOne => "at least 1"

end Arity

-- What a node of a rule may lack: what a leaf needs besides its value, or a child that a plan
-- speaks of.
inductive Slot where
  | field
  | type
  | operator
  | child
  deriving DecidableEq

namespace Slot

def name : Slot → String
  | field => "field"
  | type => "type"
  | operator => "operator"
  | child => "child rule"

end Slot

-- Why an operator cannot be applied to a field.
inductive Misuse where
  | emptiness
  | notScalar
  | notText
  deriving DecidableEq

namespace Misuse

def reason : Misuse → String
  | emptiness => "emptiness applies to string and collection fields"
  | notScalar => "the field is not a scalar or a collection of scalars"
  | notText => "text operators apply to string fields"

end Misuse

-- Faults of a rule that show without any literal or record.
inductive ConfigurationError where
  | unknownOperator (name : String)
  | unknownType (name : String)
  | unknownLocale (tag : String)
  | incompleteRule (missing : Slot)
  | arity (operator field : String) (expected : Arity) (actual : Nat)
  | indexerDisabled (field segment : String)
  | notTraversable (field segment : String)
  | typeMismatch (field : String) (declared actual : Kind)
  | unsupportedOperator (operator field : String) (misuse : Misuse)
  | rejected (operator reason : String)
  deriving DecidableEq

namespace ConfigurationError

def message : ConfigurationError → String
  | unknownOperator name => "unknown operator '" ++ name ++ "'"
  | unknownType name => "unknown type '" ++ name ++ "'"
  | unknownLocale tag => "unknown locale '" ++ tag ++ "'"
  | incompleteRule missing => "rule is missing its " ++ missing.name
  | arity operator field expected actual =>
    "operator '" ++ operator ++ "' on field '" ++ field ++ "' expects " ++ expected.describe ++
      " value(s), got " ++ Decimal.renderNat actual
  | indexerDisabled field segment =>
    "field '" ++ field ++ "' needs indexer access for segment '" ++ segment ++
      "' but indexed properties are disabled"
  | notTraversable field segment =>
    "cannot traverse into segment '" ++ segment ++ "' of field '" ++ field ++
      "': the preceding value is not an object, mapping or collection"
  | typeMismatch field declared actual =>
    "field '" ++ field ++ "' holds " ++ actual.name ++ " values but the rule declares type '" ++
      declared.name ++ "'"
  | unsupportedOperator operator field misuse =>
    "operator '" ++ operator ++ "' cannot be applied to field '" ++ field ++ "': " ++
      misuse.reason
  | rejected operator reason =>
    "custom operator '" ++ operator ++ "' rejected the rule: " ++ reason

end ConfigurationError

-- A text, of a literal or of a stored datum, that is no value of the declared kind.
structure CoercionError where
  operator : String
  field : String
  kind : Kind
  token : String
  deriving DecidableEq

namespace CoercionError

def message (e : CoercionError) : String :=
  "cannot coerce '" ++ e.token ++ "' to " ++ e.kind.name ++ " for operator '" ++ e.operator ++
    "' on field '" ++ e.field ++ "'"

end CoercionError

-- A segment of a path that names nothing on the schema it is looked up in.
structure ResolutionError where
  field : String
  segment : String
  schema : String
  deriving DecidableEq

namespace ResolutionError

def message (e : ResolutionError) : String :=
  "no member, mapping key or indexer named '" ++ e.segment ++ "' on '" ++ e.schema ++
    "' while resolving field '" ++ e.field ++ "'"

end ResolutionError

-- Why a rule does not become a filter.
inductive RuleError where
  | configuration (e : ConfigurationError)
  | resolution (e : ResolutionError)
  | coercion (e : CoercionError)
  deriving DecidableEq

namespace RuleError

def message : RuleError → String
  | configuration e => e.message
  | resolution e => e.message
  | coercion e => e.message

end RuleError

end Sieve

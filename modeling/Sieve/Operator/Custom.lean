import Sieve.Coercer
import Sieve.Condition
import Sieve.Rule.Basic
import Sieve.Schema
import Sieve.Settings

namespace Sieve

-- What a custom operator gets to see of the leaf it is used in: the rule, the type of the field
-- on its schema, the field ready for use in a condition, the texts of the literal, and how texts
-- are read.
structure OperatorContext where
  rule : Rule
  catalog : Catalog
  fieldType : FieldType
  field : FieldRef
  tokens : List String
  settings : Settings

namespace OperatorContext

def coercer (context : OperatorContext) : Coercer :=
  ⟨context.settings.locale, context.settings.datesAsUtc⟩

-- The literal as values of the declared kind.
def values (context : OperatorContext) : Except RuleError (List Value) :=
  (context.coercer.coerceAll context.field.kind (context.rule.operator.getD "")
    (context.rule.field.getD "") context.tokens).mapError .coercion

-- A description for messages; what is not listed is left open.
def inspect (context : OperatorContext) : String :=
  "OperatorContext \x7b field: " ++ Text.quoted context.field.render ++
    ", field_type: " ++ context.fieldType.render context.catalog ++
    ", tokens: " ++ Text.quotedList context.tokens ++ ", .. \x7d"

end OperatorContext

-- An operator that the caller brings along. It is found by its name before any other operator.
-- The condition it builds is about one element of the last collection on the way to the field.
-- `id` tells apart operators of one name.
structure CustomOperator where
  name : String
  id : Nat
  build : OperatorContext → Except RuleError Condition

namespace CustomOperator

-- Accepts the values of the literal and no others.
def anyOf (name : String) (id : Nat) : CustomOperator where
  name := name
  id := id
  build context := do
    let values ← context.values
    return .oneOf context.field values

end CustomOperator

-- How rules are read, together with the operators that the caller brings along, in the order in
-- which they were registered.
structure Options extends Settings where
  operators : List CustomOperator := []

namespace Options

def coercer (options : Options) : Coercer :=
  ⟨options.locale, options.datesAsUtc⟩

-- Of operators that share a name the one registered last counts.
def operator? (options : Options) (name : String) : Option CustomOperator :=
  options.operators.reverse.find? (·.name == name)

-- A description with the names of the operators.
def inspect (options : Options) : String :=
  let flag (b : Bool) : String := if b then "true" else "false"
  "CompileOptions \x7b locale: " ++ Text.quoted options.locale.render ++
    ", parse_dates_as_utc: " ++ flag options.datesAsUtc ++
    ", string_case_sensitive: " ++ flag options.caseSensitive ++
    ", use_indexed_property: " ++ flag options.useIndexer ++
    ", indexed_property_name: " ++ Text.quoted options.indexerName ++
    ", custom_operators: " ++ Text.quotedList (options.operators.map (·.name)) ++ " \x7d"

end Options

end Sieve

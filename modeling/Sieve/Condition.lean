import Sieve.Datum
import Sieve.Field
import Sieve.Text.Search

namespace Sieve

inductive Comparison where
  | equal
  | notEqual
  | greater
  | greaterOrEqual
  | less
  | lessOrEqual
  deriving DecidableEq

namespace Comparison

-- Whether a stored value that stands so relative to a literal passes.
def holds (op : Comparison) (order : Ordering) : Bool :=
  match op with
  | equal => order == .eq
  | notEqual => order != .eq
  | greater => order == .gt
  | greaterOrEqual => order != .lt
  | less => order == .lt
  | lessOrEqual => order != .gt

def operatorName : Comparison → String
  | equal => "equal"
  | notEqual => "not_equal"
  | greater => "greater"
  | greaterOrEqual => "greater_or_equal"
  | less => "less"
  | lessOrEqual => "less_or_equal"

def symbol : Comparison → String
  | equal => "=="
  | notEqual => "!="
  | greater => ">"
  | greaterOrEqual => ">="
  | less => "<"
  | lessOrEqual => "<="

end Comparison

inductive TextTest where
  | beginsWith
  | contains
  | endsWith
  deriving DecidableEq

namespace TextTest

def holds (test : TextTest) (text pattern : String) : Bool :=
  match test with
  | beginsWith => pattern.toList.isPrefixOf text.toList
  | contains => Text.occursIn pattern.toList text.toList
  | endsWith => pattern.toList.isSuffixOf text.toList

def operatorName : TextTest → String
  | beginsWith => "begins_with"
  | contains => "contains"
  | endsWith => "ends_with"

def symbol : TextTest → String
  | beginsWith => "BEGINS_WITH"
  | contains => "CONTAINS"
  | endsWith => "ENDS_WITH"

end TextTest

-- What an emptiness test measures.
inductive EmptyTarget where
  | text
  | collection
  deriving DecidableEq

-- A condition on a datum. `anyElement` holds if one element of a list passes, the fields of its
-- inner condition being read from the element. `custom` is a test that only code knows.
inductive Condition where
  | constant (b : Bool)
  | all (parts : List Condition)
  | any (parts : List Condition)
  | not (inner : Condition)
  | compare (field : FieldRef) (op : Comparison) (value : Value)
  | oneOf (field : FieldRef) (values : List Value)
  | between (field : FieldRef) (low high : Value)
  | text (field : FieldRef) (test : TextTest) (pattern : String)
  | isNull (field : FieldRef)
  | isEmpty (field : FieldRef) (target : EmptyTarget)
  | anyElement (collection : FieldRef) (inner : Condition)
  | custom (field : FieldRef) (name : String) (test : Datum → Bool)

namespace Condition

-- Conjoins two conditions, the second as one more part of a first that is a conjunction already.
def and (first second : Condition) : Condition :=
  match first with
  | all parts => all (parts ++ [second])
  | _ => all [first, second]

def or (first second : Condition) : Condition :=
  match first with
  | any parts => any (parts ++ [second])
  | _ => any [first, second]

-- Asks for an element of the last of some nested collections that passes.
def quantify (inner : Condition) (collections : List FieldRef) : Condition :=
  collections.foldr anyElement inner

mutual

-- How many tests of fields there are.
def leafCount : Condition → Nat
  | constant _ => 0
  | all parts => leafCounts parts
  | any parts => leafCounts parts
  | not inner => inner.leafCount
  | anyElement _ inner => inner.leafCount
  | _ => 1

def leafCounts : List Condition → Nat
  | [] => 0
  | part :: rest => part.leafCount + leafCounts rest

end

mutual

def render : Condition → String
  | constant b => if b then "true" else "false"
  | all parts => "(" ++ renderParts " AND " parts ++ ")"
  | any parts => "(" ++ renderParts " OR " parts ++ ")"
  | not inner => "(NOT " ++ inner.render ++ ")"
  | compare field op value => "(" ++ field.render ++ " " ++ op.symbol ++ " " ++ value.render ++ ")"
  | oneOf field values =>
    "(" ++ field.render ++ " IN (" ++ ", ".intercalate (values.map Value.render) ++ "))"
  | between field low high =>
    "(" ++ field.render ++ " BETWEEN " ++ low.render ++ " AND " ++ high.render ++ ")"
  | text field test pattern =>
    "(" ++ field.render ++ " " ++ test.symbol ++ " \"" ++ pattern ++ "\")"
  | isNull field => "(" ++ field.render ++ " IS NULL)"
  | isEmpty field _ => "(" ++ field.render ++ " IS EMPTY)"
  | anyElement collection inner => "ANY(" ++ collection.path.render ++ ", " ++ inner.render ++ ")"
  | custom field name _ => name ++ "(" ++ field.render ++ ")"

def renderParts (separator : String) : List Condition → String
  | [] => ""
  | [part] => part.render
  | part :: rest => part.render ++ separator ++ renderParts separator rest

end

end Condition

end Sieve

import Sieve.Condition
import Sieve.Error
import Sieve.Schema

namespace Sieve

-- What an operator asks of a field, its negation aside.
inductive Test where
  | compare (op : Comparison)
  | oneOf
  | between
  | text (test : TextTest)
  | isNull
  | isEmpty
  deriving DecidableEq

namespace Test

def arity : Test → Arity
  | oneOf => .atLeastOne
  | between => .two
  | isNull | isEmpty => .nothing
  | compare _ | text _ => .one

def takesValue (test : Test) : Bool :=
  test.arity != .nothing

-- Whether a text may stand for several values.
def splitsText (test : Test) : Bool :=
  test.arity == .two || test.arity == .atLeastOne

def isScalar : FieldType → Bool
  | .scalar _ _ | .dynamic => true
  | _ => false

-- Why the test cannot be applied to a field of this type that is declared to be of this kind.
def misuse? (test : Test) (type : FieldType) (declared : Kind) : Option Misuse :=
  match test with
  | isNull => none
  | isEmpty =>
    if type.isCollection || (isScalar type && declared == .string) then none else some .emptiness
  | text _ =>
    if !isScalar type.element then some .notScalar
    else if declared != .string then some .notText
    else none
  | _ => if isScalar type.element then none else some .notScalar

-- The test of one value against literals. Literals of a number the test does not take make it
-- constantly false.
def onValue (test : Test) (field : FieldRef) (values : List Value) : Condition :=
  match test with
  | compare op =>
    match values.getLast? with
    | some value => .compare field op value
    | none => .constant false
  | oneOf => .oneOf field values
  | between =>
    match values.reverse with
    | high :: low :: _ => .between field low high
    | _ => .constant false
  | text test =>
    match values with
    | .string pattern :: _ => .text field test pattern
    | value :: _ => .text field test value.render
    | [] => .constant false
  | isNull => .isNull field
  | isEmpty => .isEmpty field .text

-- A reference to an element of the collection that a field holds, read like the field.
def elementOf (field : FieldRef) : FieldRef :=
  (((FieldRef.element field.kind).coerced field.coerce).folded field.fold).truncated field.dayOnly

-- The test of a field. Of a collection, tests of values ask for one element that passes, tests
-- for null and emptiness look at the collection itself. A field that is never null needs no
-- test for null.
def build (test : Test) (field : FieldRef) (isCollection nullable : Bool) (values : List Value) :
    Condition :=
  match test with
  | isNull => if nullable then .isNull field else .constant false
  | isEmpty => .isEmpty field (if isCollection then .collection else .text)
  | _ =>
    if isCollection then .anyElement field (test.onValue (elementOf field) values)
    else test.onValue field values

end Test

-- The operators that every rule may use.
inductive Operator where
  | equal
  | notEqual
  | oneOf
  | notOneOf
  | less
  | lessOrEqual
  | greater
  | greaterOrEqual
  | between
  | notBetween
  | beginsWith
  | notBeginsWith
  | contains
  | notContains
  | endsWith
  | notEndsWith
  | isNull
  | isNotNull
  | isEmpty
  | isNotEmpty
  deriving DecidableEq

namespace Operator

def all : List Operator :=
  [equal, notEqual, oneOf, notOneOf, less, lessOrEqual, greater, greaterOrEqual, between,
    notBetween, beginsWith, notBeginsWith, contains, notContains, endsWith, notEndsWith, isNull,
    isNotNull, isEmpty, isNotEmpty]

def name : Operator → String
  | equal => "equal"
  | notEqual => "not_equal"
  | oneOf => "in"
  | notOneOf => "not_in"
  | less => "less"
  | lessOrEqual => "less_or_equal"
  | greater => "greater"
  | greaterOrEqual => "greater_or_equal"
  | between => "between"
  | notBetween => "not_between"
  | beginsWith => "begins_with"
  | notBeginsWith => "not_begins_with"
  | contains => "contains"
  | notContains => "not_contains"
  | endsWith => "ends_with"
  | notEndsWith => "not_ends_with"
  | isNull => "is_null"
  | isNotNull => "is_not_null"
  | isEmpty => "is_empty"
  | isNotEmpty => "is_not_empty"

def ofName? (name : String) : Option Operator :=
  all.find? (·.name == name)

def test : Operator → Test
  | equal | notEqual => .compare .equal
  | oneOf | notOneOf => .oneOf
  | less => .compare .less
  | lessOrEqual => .compare .lessOrEqual
  | greater => .compare .greater
  | greaterOrEqual => .compare .greaterOrEqual
  | between | notBetween => .between
  | beginsWith | notBeginsWith => .text .beginsWith
  | contains | notContains => .text .contains
  | endsWith | notEndsWith => .text .endsWith
  | isNull | isNotNull => .isNull
  | isEmpty | isNotEmpty => .isEmpty

-- The operator that a negated one is the negation of.
def positive? : Operator → Option Operator
  | notEqual => some equal
  | notOneOf => some oneOf
  | notBetween => some between
  | notBeginsWith => some beginsWith
  | notContains => some contains
  | notEndsWith => some endsWith
  | isNotNull => some isNull
  | isNotEmpty => some isEmpty
  | _ => none

def isNegated (op : Operator) : Bool :=
  op.positive?.isSome

end Operator

end Sieve

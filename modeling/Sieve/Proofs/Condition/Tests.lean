import Mathlib.Logic.Basic
import Sieve.Condition

namespace Sieve.Condition

-- A property of conditions that each test of a field has, and each other condition once its
-- parts have it.
@[elab_as_elim]
theorem treeInduction {motive : Condition → Prop}
    (constant : ∀ b, motive (.constant b))
    (all : ∀ parts, (∀ part ∈ parts, motive part) → motive (.all parts))
    (any : ∀ parts, (∀ part ∈ parts, motive part) → motive (.any parts))
    (not : ∀ inner, motive inner → motive (.not inner))
    (anyElement : ∀ collection inner, motive inner → motive (.anyElement collection inner))
    (compare : ∀ field op value, motive (.compare field op value))
    (oneOf : ∀ field values, motive (.oneOf field values))
    (between : ∀ field low high, motive (.between field low high))
    (text : ∀ field test pattern, motive (.text field test pattern))
    (isNull : ∀ field, motive (.isNull field))
    (isEmpty : ∀ field target, motive (.isEmpty field target))
    (custom : ∀ field name test, motive (.custom field name test))
    (condition : Condition) : motive condition := by
  refine @Condition.rec motive (fun parts => ∀ part ∈ parts, motive part) constant all any not
    compare oneOf between text isNull isEmpty anyElement custom ?_ ?_ condition
  · intro part hpart
    cases hpart
  · intro head tail hhead htail part hpart
    cases hpart with
    | head => exact hhead
    | tail _ hmem => exact htail part hmem

mutual

-- The tests of fields in a condition from left to right.
def tests : Condition → List Condition
  | constant _ => []
  | all parts => testsOf parts
  | any parts => testsOf parts
  | not inner => inner.tests
  | anyElement _ inner => inner.tests
  | test => [test]

def testsOf : List Condition → List Condition
  | [] => []
  | part :: rest => part.tests ++ testsOf rest

end

theorem mem_testsOf {parts : List Condition} {test : Condition} :
    test ∈ testsOf parts ↔ ∃ part ∈ parts, test ∈ part.tests := by
  induction parts with
  | nil => simp [testsOf]
  | cons first rest ih => simp [testsOf, ih]

-- The field that a test reads.
def field? : Condition → Option FieldRef
  | compare field _ _ => some field
  | oneOf field _ => some field
  | between field _ _ => some field
  | text field _ _ => some field
  | isNull field => some field
  | isEmpty field _ => some field
  | custom field _ _ => some field
  | _ => none

-- The literals that a test holds its field against. Emptiness of a text is asked for with the
-- empty one.
def literals : Condition → List Value
  | compare _ _ value => [value]
  | oneOf _ values => values
  | between _ low high => [low, high]
  | text _ _ pattern => [.string pattern]
  | isEmpty _ .text => [.string ""]
  | _ => []

end Sieve.Condition

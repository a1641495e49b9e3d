import Sieve.Plan.Binding
import Sieve.Proofs.Condition.Tests
import Sieve.Proofs.Operator.Asking

-- Which tests a condition puts to a datum, and from where they read their fields.
namespace Sieve.Condition

mutual

-- The tests of fields that a condition may put to a datum, in order. Each comes with the datum it
-- reads its field from: the whole, or an element of the last list that the condition goes into.
def asked : Condition → Datum → List (Condition × Datum)
  | constant _, _ => []
  | all parts, scope => askedOf parts scope
  | any parts, scope => askedOf parts scope
  | not inner, scope => inner.asked scope
  | anyElement collection inner, scope =>
    (scope.walk collection.path).items.flatMap fun item => inner.asked item
  | test, scope => [(test, scope)]

def askedOf : List Condition → Datum → List (Condition × Datum)
  | [], _ => []
  | part :: rest, scope => part.asked scope ++ askedOf rest scope

end

variable {inner : Condition} {field : FieldRef} {values : List Value}

theorem asked_negate (condition : Condition) (datum : Datum) :
    condition.negate.asked datum = condition.asked datum := by
  cases condition <;> simp only [negate, asked]

theorem asked_quantify (inner : Condition) (kind : Kind) (hops : List FieldPath) (datum : Datum) :
    (inner.quantify (hops.map fun path => { path, kind })).asked datum =
      (datum.elementsAlong hops).flatMap fun element => inner.asked element := by
  induction hops generalizing datum with
  | nil => exact (List.flatMap_singleton _ _).symm
  | cons hop rest ih =>
      rw [Datum.elementsAlong, List.flatMap_assoc]
      change (anyElement { path := hop, kind }
        (inner.quantify (rest.map fun path => { path, kind }))).asked datum = _
      rw [asked]
      exact List.flatMap_congr fun item _ => ih item

-- A condition that is met if one of the tests it asks is. They are asked in order up to the first
-- that is met or cannot be read.
def AsksForOne (condition : Condition) : Prop :=
  ∀ coercer datum, condition.eval coercer datum =
    (condition.asked datum).anyM fun asked => asked.1.eval coercer asked.2

namespace AsksForOne

theorem anyElement (h : inner.AsksForOne) (collection : FieldRef) :
    (anyElement collection inner).AsksForOne := by
  intro coercer datum
  rw [eval_anyElement, asked, Outcome.anyM_flatMap]
  exact Outcome.anyM_congr fun item _ => h coercer item

theorem quantify (h : inner.AsksForOne) (collections : List FieldRef) :
    (inner.quantify collections).AsksForOne := by
  induction collections with
  | nil => exact h
  | cons collection rest ih => exact ih.anyElement collection

theorem onValue (test : Test) (field : FieldRef) (values : List Value) :
    (test.onValue field values).AsksForOne := by
  have single {condition : Condition}
      (h : ∀ datum, condition.asked datum = [(condition, datum)]) : condition.AsksForOne := by
    intro coercer datum
    rw [h, Outcome.anyM_singleton]
  apply Test.onValue_induction
  case constant => exact fun _ _ => rfl
  case compare => exact fun _ _ _ _ => single fun _ => rfl
  case oneOf => exact fun _ => single fun _ => rfl
  case between => exact fun _ _ _ _ _ => single fun _ => rfl
  case text => exact fun _ _ _ => single fun _ => rfl
  case isNull => exact fun _ => single fun _ => rfl
  case isEmpty => exact fun _ => single fun _ => rfl

theorem build_of_value {test : Test} (hnull : test ≠ .isNull) (hempty : test ≠ .isEmpty)
    (field : FieldRef) (isCollection nullable : Bool) (values : List Value) :
    (test.build field isCollection nullable values).AsksForOne := by
  rw [Test.build_of_value hnull hempty]
  split
  · exact (onValue _ _ _).anyElement field
  · exact onValue _ _ _

end AsksForOne

-- With literals that it takes, a test of one value asks for nothing but its field, and holds it
-- against all of the literals.
theorem onValue_of_takes {test : Test} (hnull : test ≠ .isNull) (hempty : test ≠ .isEmpty)
    (h : test.Takes values) (field : FieldRef) :
    (test.onValue field values).field? = some field ∧
      (test.onValue field values).literals = values ∧
      ∀ scope, (test.onValue field values).asked scope = [(test.onValue field values, scope)] := by
  cases test with
  | isNull => exact absurd rfl hnull
  | isEmpty => exact absurd rfl hempty
  | oneOf => exact ⟨rfl, rfl, fun _ => rfl⟩
  | compare op =>
      obtain ⟨value, rfl⟩ := h
      exact ⟨rfl, rfl, fun _ => rfl⟩
  | between =>
      obtain ⟨low, high, rfl⟩ := h
      exact ⟨rfl, rfl, fun _ => rfl⟩
  | text test =>
      obtain ⟨pattern, rfl⟩ := h
      exact ⟨rfl, rfl, fun _ => rfl⟩

end Sieve.Condition

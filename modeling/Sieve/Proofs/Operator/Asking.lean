import Sieve.Proofs.Operator.Typing
import Sieve.Proofs.Resolution.Places

-- What a leaf asks of a place that its path comes to, and that the condition built for it asks
-- the same of the places that a resolution leads to.
namespace Sieve

variable {coercer : Coercer} {declared : Kind} {fold : Bool} {values : List Value}

-- Reads what lies in a place as the declared kind. Only dynamic places are turned into that kind
-- first; texts are lower-cased if they are to be folded.
def Place.read (coercer : Coercer) (operator : String) (declared : Kind) (fold : Bool)
    (place : Place) : Except CoercionError Datum := do
  let datum ←
    if place.type.element = .dynamic then
      (coercer.coerceDatum place.datum declared).mapError fun token =>
        { operator, field := place.path.render, kind := declared, token }
    else .ok place.datum
  return if fold then datum.foldCase else datum

-- Whether a datum of a place of the type passes a test against literals.
def Test.accepts (test : Test) (values : List Value) (type : FieldType) (datum : Datum) : Bool :=
  match test, values with
  | .compare op, [value] => datum.passes op value
  | .oneOf, values => values.any (datum.passes .equal ·)
  | .between, [low, high] =>
    datum.passes .greaterOrEqual low && datum.passes .lessOrEqual high
  | .text test, [.string pattern] => datum.passesText test pattern
  | .isNull, _ => datum.isNull
  | .isEmpty, _ => datum.isEmptyAs (if type.isCollection then .collection else .text)
  | _, _ => false

def Place.ask (coercer : Coercer) (op : Operator) (declared : Kind) (fold : Bool)
    (values : List Value) (place : Place) : Except CoercionError Bool :=
  (place.read coercer op.name declared fold).map (op.test.accepts values place.type)

-- The places that an operator asks, of those that a path comes to. Operators on values go on to
-- the elements of a list at the end of the path; emptiness is asked of the list itself.
def Operator.targets (op : Operator) (places : List Place) : List Place :=
  if op.test = .isEmpty then places else places.flatMap Place.opened

namespace Test

-- As many literals as the test takes; a text for a test of texts.
def Takes : Test → List Value → Prop
  | compare _, values => ∃ value, values = [value]
  | between, values => ∃ low high, values = [low, high]
  | text _, values => ∃ pattern, values = [.string pattern]
  | _, _ => True

theorem string_of_misuse? {test : TextTest} {type : FieldType}
    (h : (Test.text test).misuse? type declared = none) : declared = .string := by
  by_contra hne
  simp only [misuse?, ne_eq, hne, bne_iff_ne, not_false_eq_true, if_true] at h
  split at h <;> cases h

theorem takes_of_arity {test : Test} {type : FieldType}
    (harity : test.arity.accepts values.length = true)
    (hkinds : ∀ value ∈ values, value.kind = declared)
    (hmisuse : test.misuse? type declared = none) : test.Takes values := by
  cases test with
  | compare op => exact List.length_eq_one_iff.mp (by simpa [arity, Arity.accepts] using harity)
  | between => exact List.length_eq_two.mp (by simpa [arity, Arity.accepts] using harity)
  | text test =>
      have hlength : values.length = 1 := by simpa [arity, Arity.accepts] using harity
      obtain ⟨value, rfl⟩ := List.length_eq_one_iff.mp hlength
      obtain ⟨pattern, rfl⟩ : ∃ s, value = .string s := by
        have hkind := hkinds value (by simp)
        rw [string_of_misuse? hmisuse] at hkind
        cases value <;> cases hkind
        exact ⟨_, rfl⟩
      exact ⟨pattern, rfl⟩
  | _ => trivial

end Test

-- The test of one value reads its field, under the name of the operator, and looks at the datum.
theorem Operator.eval_onValue {op : Operator} (hpositive : op.isNegated = false)
    (hempty : op.test ≠ .isEmpty) (htakes : op.test.Takes values) (field : FieldRef)
    (type : FieldType) (datum : Datum) :
    (op.test.onValue field values).eval coercer datum =
      (field.read coercer op.name datum).map (op.test.accepts values type) := by
  cases op <;> cases hpositive
  case isEmpty => exact absurd rfl hempty
  case oneOf => rfl
  case isNull => rfl
  case between =>
    obtain ⟨low, high, rfl⟩ := htakes
    rfl
  all_goals
    obtain ⟨value, rfl⟩ := htakes
    rfl

theorem Condition.eval_anyElement (collection : FieldRef) (inner : Condition) (datum : Datum) :
    (anyElement collection inner).eval coercer datum =
      (datum.walk collection.path).items.anyM fun item => inner.eval coercer item := by
  rw [eval]
  cases datum.walk collection.path <;> rfl

-- A condition asked of one element of the last of some nested lists.
theorem Condition.eval_quantify (inner : Condition) (kind : Kind) (hops : List FieldPath)
    (datum : Datum) :
    (inner.quantify (hops.map fun path => { path, kind })).eval coercer datum =
      (datum.elementsAlong hops).anyM fun element => inner.eval coercer element := by
  induction hops generalizing datum with
  | nil => exact (Outcome.anyM_singleton datum).symm
  | cons hop rest ih =>
      rw [Datum.elementsAlong, Outcome.anyM_flatMap]
      change (Condition.anyElement { path := hop, kind }
        (inner.quantify (rest.map fun path => { path, kind }))).eval coercer datum = _
      rw [eval_anyElement]
      exact Outcome.anyM_congr fun item _ => ih item

theorem FieldType.element_of_isScalar {type : FieldType} (h : Test.isScalar type = true) :
    type.element = type := by
  cases type <;> first | rfl | cases h

-- A place of a scalar is its own and only part.
theorem Place.spread_of_isScalar {type : FieldType} (h : Test.isScalar type = true)
    (path : FieldPath) (datum : Datum) : spread type path datum = [⟨type, path, datum⟩] := by
  cases type <;> first | rfl | cases h

namespace Resolution

variable {r : Resolution} {operator : String}

-- The field of a resolution, or an element of a collection that it holds, is read as the place is.
theorem read_fieldRef (hfold : fold = true → declared = .string) {type : FieldType}
    (htype : type.element = r.type.element) (path : FieldPath) (datum : Datum) :
    FieldRef.read coercer operator { r.fieldRef declared fold with path } datum =
      Place.read coercer operator declared fold ⟨type, path, datum.walk path⟩ := by
  have hfolds : (fold && declared == .string) = fold := by
    cases fold with
    | false => rfl
    | true => simp [hfold rfl]
  simp only [FieldRef.read, Place.read, fieldRef, FieldRef.coerced, FieldRef.folded,
    FieldRef.truncated, htype, beq_iff_eq, hfolds]

-- What is built for a field asks the place that the field leads to, or each element of the
-- collection there.
theorem eval_build {op : Operator} (hpositive : op.isNegated = false) (hnull : op.test ≠ .isNull)
    (htakes : op.test.Takes values) (hmisuse : op.test.misuse? r.type declared = none)
    (hfold : fold = true → declared = .string) (element : Datum) :
    (op.test.build (r.fieldRef declared fold) r.type.isCollection r.nullable values).eval
        coercer element =
      (op.targets [⟨r.type, r.path, element.walk r.path⟩]).anyM
        (Place.ask coercer op declared fold values) := by
  by_cases hempty : op.test = .isEmpty
  · obtain rfl : op = .isEmpty := by
      revert hpositive hempty
      cases op <;> decide
    rw [Operator.targets, if_pos hempty, Outcome.anyM_singleton, Place.ask,
      ← read_fieldRef hfold rfl]
    rfl
  · have hask {type : FieldType} (htype : type.element = r.type.element) (path : FieldPath)
        (datum : Datum) :
        (op.test.onValue { r.fieldRef declared fold with path } values).eval coercer datum =
          Place.ask coercer op declared fold values ⟨type, path, datum.walk path⟩ := by
      rw [Operator.eval_onValue hpositive hempty htakes _ type, read_fieldRef hfold htype]
      rfl
    have hscalar := Test.isScalar_of_misuse? hnull hempty hmisuse
    rw [Test.build_of_value hnull hempty, Operator.targets, if_neg hempty,
      List.flatMap_singleton, Place.opened]
    cases htype : r.type with
    | list inner =>
        have hinner : Test.isScalar inner = true := by rwa [htype] at hscalar
        have helement : inner.element = r.type.element := by
          rw [FieldType.element_of_isScalar hinner, htype]
          rfl
        simp only [Place.spread_list, Place.spread_of_isScalar hinner, ← List.map_eq_flatMap,
          Outcome.anyM_map]
        change (Condition.anyElement _ _).eval coercer element = _
        rw [Condition.eval_anyElement, elementOf_fieldRef]
        exact Outcome.anyM_congr fun item _ => hask helement [] item
    | object schema => rw [htype] at hscalar; cases hscalar
    | map value => rw [htype] at hscalar; cases hscalar
    | _ =>
        refine Eq.trans ?_ (Outcome.anyM_singleton _).symm
        exact hask (by rw [htype]) r.path element

end Resolution

end Sieve

import Sieve.Coercer
import Sieve.Condition

namespace Sieve

namespace Datum

-- What lies one step further. A step that does not suit the datum, or leads nowhere, reads as
-- null.
def step (datum : Datum) (step : Step) : Datum :=
  match datum, step with
  | record members _, .member name => (members.lookup name).getD null
  | record _ indexed, .index _ key => (indexed.lookup key).getD null
  | map entries, .key key => (entries.lookup key).getD null
  | _, _ => null

def walk (datum : Datum) (path : FieldPath) : Datum :=
  path.foldl step datum

end Datum

namespace FieldRef

-- Reads the field for a test: walks to it, brings it to the declared kind, lower-cases it, each
-- as the reference asks.
def read (coercer : Coercer) (operator : String) (field : FieldRef) (scope : Datum) :
    Except CoercionError Datum := do
  let datum := scope.walk field.path
  let datum ←
    if field.coerce then
      (coercer.coerceDatum datum field.kind).mapError fun token =>
        { operator, field := field.path.render, kind := field.kind, token }
    else .ok datum
  return if field.fold then datum.foldCase else datum

end FieldRef

namespace Datum

-- What cannot be compared passes no comparison.
def passes (datum : Datum) (op : Comparison) (literal : Value) : Bool :=
  match datum.compare? literal with
  | some order => op.holds order
  | none => false

def passesText (datum : Datum) (test : TextTest) (pattern : String) : Bool :=
  match datum.string? with
  | some s => test.holds s pattern
  | none => false

-- Nothing at all is empty whatever is measured.
def isEmptyAs (datum : Datum) (target : EmptyTarget) : Bool :=
  match target, datum with
  | _, null => true
  | .text, scalar (.string s) => s.isEmpty
  | .collection, list items => items.isEmpty
  | _, _ => false

end Datum

namespace Condition

mutual

-- Whether a datum meets a condition. Parts are tried from left to right and elements in order,
-- until the outcome is known; a field that cannot be read as its kind before that is the outcome.
def eval (coercer : Coercer) : Condition → Datum → Except CoercionError Bool
  | constant b, _ => .ok b
  | all parts, scope => evalAll coercer parts scope
  | any parts, scope => evalAny coercer parts scope
  | not inner, scope => (inner.eval coercer scope).map (!·)
  | compare field op value, scope =>
    (field.read coercer op.operatorName scope).map (·.passes op value)
  | oneOf field values, scope =>
    (field.read coercer "in" scope).map fun datum => values.any (datum.passes .equal ·)
  | between field low high, scope =>
    (field.read coercer "between" scope).map fun datum =>
      datum.passes .greaterOrEqual low && datum.passes .lessOrEqual high
  | text field test pattern, scope =>
    (field.read coercer test.operatorName scope).map (·.passesText test pattern)
  | isNull field, scope => (field.read coercer "is_null" scope).map Datum.isNull
  | isEmpty field target, scope =>
    (field.read coercer "is_empty" scope).map (·.isEmptyAs target)
  | anyElement collection inner, scope =>
    match scope.walk collection.path with
    | .list items => items.anyM fun item => inner.eval coercer item
    | _ => .ok false
  | custom field name test, scope => (field.read coercer name scope).map test

def evalAll (coercer : Coercer) : List Condition → Datum → Except CoercionError Bool
  | [], _ => .ok true
  | part :: rest, scope => do
    if ← part.eval coercer scope then evalAll coercer rest scope else return false

def evalAny (coercer : Coercer) : List Condition → Datum → Except CoercionError Bool
  | [], _ => .ok false
  | part :: rest, scope => do
    if ← part.eval coercer scope then return true else evalAny coercer rest scope

end

end Condition

end Sieve

import Sieve.Proofs.Document.Operand

-- Which stored values a store selects.
namespace Sieve

open Document (Operand Regex readOperand)

namespace Stored

-- Null stands for what is missing too.
def equals : Stored → Operand → Bool
  | null, .null => true
  | value stored, .value literal => stored.compare? literal == some .eq
  | _, _ => false

-- Orders fail on null; only `$ne` is the negation of `$eq`.
def compares (stored : Stored) (op : Comparison) (operand : Operand) : Bool :=
  match op with
  | .equal => stored.equals operand
  | .notEqual => !stored.equals operand
  | op =>
    match stored, operand with
    | value stored, .value literal => ((stored.compare? literal).map op.holds).getD false
    | _, _ => false

def isMatch (r : Regex) : Stored → Bool
  | value (.string s) => r.isMatch s
  | _ => false

-- Equality with one operand of `$in`, which may be a regular expression.
def isOneOf (stored : Stored) : Operand → Bool
  | .regex r => stored.isMatch r
  | operand => stored.equals operand

end Stored

namespace Document.Selector

mutual

-- Whether a selector holds of what is stored in its place. Operands are taken as the store reads
-- them in the document.
def holds : Selector → Stored → Bool
  | everything, _ => true
  | nothing, _ => false
  | all parts, stored => holdsAll parts stored
  | any parts, stored => holdsAny parts stored
  | noneOf part, stored => !part.holds stored
  | inField name test, stored => test.holds (stored.dotted name)
  | missing, stored => stored.isNull
  | not test, stored => !test.holds stored
  | compares tests, stored =>
    tests.all fun (op, operand) => (readOperand operand.toJson).any (stored.compares op)
  | oneOf operands, stored =>
    operands.any fun operand => (readOperand operand.toJson).any stored.isOneOf
  | regex r, stored => (readOperand r.toJson).any stored.isOneOf
  | size n, stored =>
    match stored with
    | .array items => items.length == n
    | _ => false
  | elementMatch test, stored =>
    match stored with
    | .array items => items.any test.holds
    | _ => false

def holdsAll : List Selector → Stored → Bool
  | [], _ => true
  | part :: rest, stored => part.holds stored && holdsAll rest stored

def holdsAny : List Selector → Stored → Bool
  | [], _ => false
  | part :: rest, stored => part.holds stored || holdsAny rest stored

end

theorem holdsAny_map {α : Type} (f : α → Selector) (items : List α) (stored : Stored) :
    holdsAny (items.map f) stored = items.any fun item => (f item).holds stored := by
  induction items with
  | nil => rfl
  | cons item rest ih => rw [List.map_cons, holdsAny, ih, List.any_cons]

end Document.Selector

end Sieve

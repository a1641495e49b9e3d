import Sieve.Evaluation
import Sieve.Proofs.Condition.Tests
import Sieve.Proofs.Outcome

-- The parts of a condition at any depth, and conditions that have constants in place of some.
namespace Sieve.Condition

mutual

-- A condition and all conditions that it is made of.
def parts : Condition → List Condition
  | all inner => all inner :: partsOf inner
  | any inner => any inner :: partsOf inner
  | not inner => not inner :: inner.parts
  | anyElement collection inner => anyElement collection inner :: inner.parts
  | part => [part]

def partsOf : List Condition → List Condition
  | [] => []
  | first :: rest => first.parts ++ partsOf rest

end

theorem mem_partsOf {conditions : List Condition} {part : Condition} :
    part ∈ partsOf conditions ↔ ∃ condition ∈ conditions, part ∈ condition.parts := by
  induction conditions with
  | nil => simp [partsOf]
  | cons first rest ih => simp [partsOf, ih]

-- A test of a field has no parts but itself.
theorem parts_of_field? {part : Condition} {field : FieldRef} (h : part.field? = some field) :
    part.parts = [part] := by
  cases part <;> first | rfl | cases h

mutual

-- The condition with constants in place of the parts whose truth value is known.
def settle (known? : Condition → Option Bool) : Condition → Condition
  | all inner => ((known? (all inner)).map constant).getD (all (settleAll known? inner))
  | any inner => ((known? (any inner)).map constant).getD (any (settleAll known? inner))
  | not inner => ((known? (not inner)).map constant).getD (not (inner.settle known?))
  | anyElement collection inner =>
    ((known? (anyElement collection inner)).map constant).getD
      (anyElement collection (inner.settle known?))
  | part => ((known? part).map constant).getD part

def settleAll (known? : Condition → Option Bool) : List Condition → List Condition
  | [] => []
  | first :: rest => first.settle known? :: settleAll known? rest

end

-- What holds of a conjunction or disjunction of nothing.
def emptyFork? : Condition → Option Bool
  | all [] => some true
  | any [] => some false
  | _ => none

-- Nothing is one of no values.
def emptyMembership? : Condition → Option Bool
  | oneOf _ [] => some false
  | _ => none

-- Evaluation never contradicts what is known of a part. It may find a field that it cannot read.
def Known (known? : Condition → Option Bool) : Prop :=
  ∀ part b, known? part = some b → ∀ coercer datum outcome,
    part.eval coercer datum = .ok outcome → outcome = b

theorem known_emptyFork? : Known emptyFork? := by
  intro part b hknown coercer datum outcome heval
  unfold emptyFork? at hknown
  split at hknown <;> cases hknown <;> cases heval <;> rfl

theorem known_emptyMembership? : Known emptyMembership? := by
  intro part b hknown coercer datum outcome heval
  unfold emptyMembership? at hknown
  split at hknown
  · cases hknown
    obtain ⟨place, -, hplace⟩ := Outcome.map_eq_ok.mp heval
    exact hplace.symm
  · cases hknown

section Settled

variable {known? : Condition → Option Bool} {coercer : Coercer}

theorem eval_known (h : Known known?) {part settled : Condition} {datum : Datum} {outcome : Bool}
    (heval : part.eval coercer datum = .ok outcome)
    (hsettled : settled.eval coercer datum = .ok outcome) :
    (((known? part).map constant).getD settled).eval coercer datum = .ok outcome := by
  cases hknown : known? part with
  | none => exact hsettled
  | some b =>
      rw [h part b hknown coercer datum outcome heval]
      rfl

theorem evalAll_settleAll {conditions : List Condition} {datum : Datum}
    (hparts : ∀ part ∈ conditions, ∀ outcome, part.eval coercer datum = .ok outcome →
      (part.settle known?).eval coercer datum = .ok outcome)
    {outcome : Bool} (heval : evalAll coercer conditions datum = .ok outcome) :
    evalAll coercer (settleAll known? conditions) datum = .ok outcome := by
  induction conditions with
  | nil => exact heval
  | cons first rest ih =>
      rw [List.forall_mem_cons] at hparts
      obtain ⟨b, hb, hrest⟩ := Outcome.bind_eq_ok.mp heval
      rw [settleAll, evalAll, hparts.1 b hb]
      cases b with
      | true => exact ih hparts.2 hrest
      | false => exact hrest

theorem evalAny_settleAll {conditions : List Condition} {datum : Datum}
    (hparts : ∀ part ∈ conditions, ∀ outcome, part.eval coercer datum = .ok outcome →
      (part.settle known?).eval coercer datum = .ok outcome)
    {outcome : Bool} (heval : evalAny coercer conditions datum = .ok outcome) :
    evalAny coercer (settleAll known? conditions) datum = .ok outcome := by
  induction conditions with
  | nil => exact heval
  | cons first rest ih =>
      rw [List.forall_mem_cons] at hparts
      obtain ⟨b, hb, hrest⟩ := Outcome.bind_eq_ok.mp heval
      rw [settleAll, evalAny, hparts.1 b hb]
      cases b with
      | true => exact hrest
      | false => exact ih hparts.2 hrest

theorem anyM_settle {inner : Condition} {items : List Datum}
    (hinner : ∀ item outcome, inner.eval coercer item = .ok outcome →
      (inner.settle known?).eval coercer item = .ok outcome)
    {outcome : Bool} (heval : (items.anyM fun item => inner.eval coercer item) = .ok outcome) :
    (items.anyM fun item => (inner.settle known?).eval coercer item) = .ok outcome := by
  induction items with
  | nil => exact heval
  | cons item rest ih =>
      rw [List.anyM_cons] at heval ⊢
      obtain ⟨b, hb, hrest⟩ := Outcome.bind_eq_ok.mp heval
      rw [hinner item b hb]
      cases b with
      | true => exact hrest
      | false => exact ih hrest

-- Where evaluation comes to a truth value, it comes to the same with the constants.
theorem eval_settle (h : Known known?) (condition : Condition) {datum : Datum} {outcome : Bool}
    (heval : condition.eval coercer datum = .ok outcome) :
    (condition.settle known?).eval coercer datum = .ok outcome := by
  induction condition using treeInduction generalizing datum outcome with
  | all conditions ih =>
      exact eval_known h heval (evalAll_settleAll (fun part hpart _ => ih part hpart) heval)
  | any conditions ih =>
      exact eval_known h heval (evalAny_settleAll (fun part hpart _ => ih part hpart) heval)
  | not inner ih =>
      obtain ⟨b, hb, rfl⟩ := Outcome.map_eq_ok.mp heval
      refine eval_known h heval ?_
      rw [eval, ih hb]
      rfl
  | anyElement collection inner ih =>
      refine eval_known h heval ?_
      rw [eval] at heval ⊢
      split at heval
      · exact anyM_settle (fun _ _ => ih) heval
      · exact heval
  | constant _ | compare _ _ _ | oneOf _ _ | between _ _ _ | text _ _ _ | isNull _ | isEmpty _ _
    | custom _ _ _ => exact eval_known h heval heval

end Settled

end Sieve.Condition

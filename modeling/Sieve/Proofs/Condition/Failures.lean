import Sieve.Proofs.Condition.Asked
import Sieve.Proofs.Condition.Typing
import Sieve.Proofs.Plan.Verdict

-- Why a condition cannot be evaluated: one of its tests is asked of a place whose datum cannot be
-- turned into the kind of the field.
namespace Sieve

variable {coercer : Coercer} {error : CoercionError}

theorem Combinator.mem_of_decide_eq_error {combinator : Combinator}
    {outcomes : List (Except CoercionError Bool)} (h : combinator.decide outcomes = .error error) :
    .error error ∈ outcomes := by
  induction outcomes with
  | nil => cases h
  | cons outcome rest ih =>
      cases outcome with
      | error e =>
          cases h
          exact .head _
      | ok b =>
          rw [decide] at h
          split at h
          · exact .tail _ (ih h)
          · cases h

-- A datum that is read as it is, or is nothing, or fits the kind already, can be read.
theorem FieldRef.read_of_fits {field : FieldRef} {scope : Datum}
    (h : scope.walk field.path = .null ∨
      ∃ value, scope.walk field.path = .scalar value ∧ Coercer.fits value field.kind = true)
    (operator : String) :
    field.read coercer operator scope =
      .ok (if field.fold then (scope.walk field.path).foldCase else scope.walk field.path) := by
  have hcoerced : coercer.coerceDatum (scope.walk field.path) field.kind =
      .ok (scope.walk field.path) := by
    rcases h with hnull | ⟨value, hvalue, hfits⟩
    · rw [hnull]
      rfl
    · rw [hvalue, Coercer.coerceDatum, if_pos hfits]
  rw [FieldRef.read, hcoerced]
  cases field.coerce <;> rfl

theorem Coercer.fits_of_kind {value : Value} {kind : Kind} (h : value.kind = kind) :
    Coercer.fits value kind = true := by
  subst h
  cases value <;> rfl

-- A field cannot be read only if its datum has to be turned into its kind, and cannot be. The
-- error names the field and the kind.
theorem FieldRef.read_eq_error {field : FieldRef} {operator : String} {scope : Datum} :
    field.read coercer operator scope = .error error ↔
      field.coerce = true ∧
        coercer.coerceDatum (scope.walk field.path) field.kind = .error error.token ∧
        error.field = field.path.render ∧ error.kind = field.kind ∧ error.operator = operator := by
  obtain ⟨operator', name, kind, token⟩ := error
  rw [FieldRef.read]
  cases field.coerce with
  | false => simp [bind, Except.bind, pure, Except.pure]
  | true =>
      cases coercer.coerceDatum (scope.walk field.path) field.kind with
      | ok datum => simp [bind, Except.bind, pure, Except.pure, Except.mapError]
      | error token' =>
          simp only [bind, Except.bind, Except.mapError, if_true, true_and, Except.error.injEq,
            CoercionError.mk.injEq]
          tauto

namespace Condition

theorem askedOf_eq_flatMap (parts : List Condition) (scope : Datum) :
    askedOf parts scope = parts.flatMap fun part => part.asked scope := by
  induction parts with
  | nil => rfl
  | cons part rest ih => rw [askedOf, ih, List.flatMap_cons]

theorem mem_askedOf {parts : List Condition} {test : Condition} {scope place : Datum} :
    (test, place) ∈ askedOf parts scope ↔ ∃ part ∈ parts, (test, place) ∈ part.asked scope := by
  rw [askedOf_eq_flatMap, List.mem_flatMap]

-- Nothing is asked but the tests that a condition is made of.
theorem mem_tests_of_mem_asked {condition test : Condition} {scope place : Datum}
    (h : (test, place) ∈ condition.asked scope) : test ∈ condition.tests := by
  induction condition using treeInduction generalizing scope with
  | constant b => cases h
  | all parts ih | any parts ih =>
      rw [asked] at h
      obtain ⟨part, hpart, hasked⟩ := mem_askedOf.mp h
      exact mem_testsOf.mpr ⟨part, hpart, ih part hpart hasked⟩
  | not inner ih => exact ih h
  | anyElement collection inner ih =>
      rw [asked] at h
      obtain ⟨item, -, hasked⟩ := List.mem_flatMap.mp h
      exact ih hasked
  | _ =>
      cases List.mem_singleton.mp h
      exact .head _

-- One of the tests that a condition asks fails, since its field cannot be read.
def FailsAtTest (coercer : Coercer) (condition : Condition) (scope : Datum)
    (error : CoercionError) : Prop :=
  ∃ test place field operator, (test, place) ∈ condition.asked scope ∧
    test.field? = some field ∧ field.read coercer operator place = .error error

theorem FailsAtTest.mono {condition part : Condition} {scope inside : Datum}
    (hasked : ∀ test place, (test, place) ∈ part.asked inside →
      (test, place) ∈ condition.asked scope)
    (h : part.FailsAtTest coercer inside error) : condition.FailsAtTest coercer scope error := by
  obtain ⟨test, place, field, operator, hmem, hfield, hread⟩ := h
  exact ⟨test, place, field, operator, hasked test place hmem, hfield, hread⟩

-- A condition that cannot be evaluated fails at a test, with the error of that test.
theorem failsAtTest_of_eval {condition : Condition} {scope : Datum}
    (h : condition.eval coercer scope = .error error) :
    condition.FailsAtTest coercer scope error := by
  induction condition using treeInduction generalizing scope with
  | constant b => cases h
  | all parts ih =>
      rw [eval, evalAll_eq_decide] at h
      obtain ⟨part, hpart, herror⟩ := List.mem_map.mp (Combinator.mem_of_decide_eq_error h)
      exact (ih part hpart herror).mono fun _ _ hmem => mem_askedOf.mpr ⟨part, hpart, hmem⟩
  | any parts ih =>
      rw [eval, evalAny_eq_decide] at h
      obtain ⟨part, hpart, herror⟩ := List.mem_map.mp (Combinator.mem_of_decide_eq_error h)
      exact (ih part hpart herror).mono fun _ _ hmem => mem_askedOf.mpr ⟨part, hpart, hmem⟩
  | not inner ih => exact (ih (Outcome.map_eq_error.mp h)).mono fun _ _ hmem => hmem
  | anyElement collection inner ih =>
      rw [eval_anyElement] at h
      obtain ⟨item, hitem, herror⟩ := Outcome.exists_of_anyM_eq_error h
      exact (ih herror).mono fun _ _ hmem => List.mem_flatMap.mpr ⟨item, hitem, hmem⟩
  | _ => exact ⟨_, scope, _, _, .head _, rfl, Outcome.map_eq_error.mp h⟩

-- The tests of a condition that fits the records of a type read what is stored as it is.
theorem Fits.coerce_eq_false {catalog : Catalog} {words : List String} {type : FieldType}
    {condition test : Condition} {field : FieldRef} (h : condition.Fits catalog words type)
    (htest : test ∈ condition.tests) (hfield : test.field? = some field) :
    field.coerce = false := by
  induction h with
  | constant b => cases htest
  | all h ih | any h ih =>
      obtain ⟨part, hpart, hmem⟩ := mem_testsOf.mp htest
      exact ih part hpart hmem
  | not h ih => exact ih htest
  | anyElement hpath h ih => exact ih htest
  | compare h | oneOf h | between h | text h | isEmptyText h =>
      cases List.mem_singleton.mp htest
      cases hfield
      exact h.stored
  | isNull hpath hne hstored | isEmptyCollection hpath hstored =>
      cases List.mem_singleton.mp htest
      cases hfield
      exact hstored

-- A condition comes to an outcome wherever none of its tests turns what it reads into another kind.
theorem exists_eval_eq_ok {condition : Condition}
    (hstored : ∀ test ∈ condition.tests, ∀ field, test.field? = some field → field.coerce = false)
    (coercer : Coercer) (scope : Datum) : ∃ b, condition.eval coercer scope = .ok b := by
  cases h : condition.eval coercer scope with
  | ok b => exact ⟨b, rfl⟩
  | error e =>
      obtain ⟨test, place, field, operator, hasked, hfield, hread⟩ := failsAtTest_of_eval h
      have hcoerce := (FieldRef.read_eq_error.mp hread).1
      rw [hstored test (mem_tests_of_mem_asked hasked) field hfield] at hcoerce
      cases hcoerce

end Condition

end Sieve

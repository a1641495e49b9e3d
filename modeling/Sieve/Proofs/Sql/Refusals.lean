import Sieve.Proofs.Condition.Parts
import Sieve.Proofs.Sql.Columns
import Sieve.Sql.Fragment

-- Which conditions no statement can be made of, and which of their parts the error is about.
namespace Sieve.Sql

open Outcome (error?)
open Condition

-- A part that no statement has a form for: it asks for an element of a collection or for its length,
-- is a test that only code knows, or reads what is not stored in a column.
inductive Unsayable : Condition → Prop where
  | quantifier (collection : FieldRef) (inner : Condition) :
      Unsayable (.anyElement collection inner)
  | customTest (field : FieldRef) (name : String) (test : Datum → Bool) :
      Unsayable (.custom field name test)
  | collectionLength (field : FieldRef) : Unsayable (.isEmpty field .collection)
  | element {part : Condition} {field : FieldRef} (hfield : part.field? = some field)
      (hpath : field.path = []) : Unsayable part
  | key {part : Condition} {field : FieldRef} {name : String} (hfield : part.field? = some field)
      (hstep : .key name ∈ field.path) : Unsayable part
  | indexer {part : Condition} {field : FieldRef} {indexer key : String}
      (hfield : part.field? = some field) (hstep : .index indexer key ∈ field.path) :
      Unsayable part

-- A path that a column has: there are steps, and all of them go to a member.
def HasColumn (path : FieldPath) : Prop :=
  path ≠ [] ∧ ∀ step ∈ path, ∃ name, step = .member name

theorem memberNames?_isSome_iff (path : FieldPath) :
    path.memberNames?.isSome = true ↔ ∀ step ∈ path, ∃ name, step = .member name := by
  induction path with
  | nil => simp [FieldPath.memberNames?]
  | cons step rest ih =>
      rw [List.forall_mem_cons, ← ih]
      cases step with
      | member name => cases hrest : FieldPath.memberNames? rest <;>
          simp [FieldPath.memberNames?, Step.memberName?, hrest]
      | key name => simp [FieldPath.memberNames?, Step.memberName?]
      | index indexer key => simp [FieldPath.memberNames?, Step.memberName?]

theorem Column.ofField_eq_ok_iff (field : FieldRef) (part : Condition) :
    (∃ column, Column.ofField field part = .ok column) ↔ HasColumn field.path := by
  rw [HasColumn, ← memberNames?_isSome_iff]
  cases hpath : field.path with
  | nil => simp [ofField, hpath, FieldPath.isElement]
  | cons step rest =>
      cases hnames : FieldPath.memberNames? (step :: rest) <;>
        simp [ofField, hpath, hnames, FieldPath.isElement]

-- Where there is no column, the error is about the part that asks for it.
theorem Column.of_ofField_eq_error {field : FieldRef} {part : Condition} {e : TranslationError}
    (h : Column.ofField field part = .error e) :
    e.target = .sql ∧ e.expression = part.render := by
  rw [ofField] at h
  split at h
  · cases h
    exact ⟨rfl, rfl⟩
  · split at h
    · cases h
      exact ⟨rfl, rfl⟩
    · cases h

-- The error of a part that has no form whatever it is made of.
def refusal? (part : Condition) : Option TranslationError :=
  match part with
  | .constant _ | .all _ | .any _ | .not _ => none
  | .anyElement _ _ => some (.of .sql .quantifier part)
  | .custom _ _ _ => some (.of .sql .customTest part)
  | .isEmpty _ .collection => some (.of .sql .collectionLength part)
  | .isEmpty field .text => error? (Column.ofField field part)
  | .compare field _ _ | .oneOf field _ | .between field _ _ | .text field _ _ | .isNull field =>
    error? (Column.ofField field part)

section Read

variable {part : Condition} {field : FieldRef}

theorem unsayable_of_not_hasColumn (hfield : part.field? = some field)
    (hcolumn : ¬HasColumn field.path) : Unsayable part := by
  by_cases hpath : field.path = []
  · exact .element hfield hpath
  · have hstep : ¬∀ step ∈ field.path, ∃ name, step = .member name :=
      fun hsteps => hcolumn ⟨hpath, hsteps⟩
    simp only [not_forall] at hstep
    obtain ⟨step, hmem, hmember⟩ := hstep
    cases step with
    | member name => exact absurd ⟨name, rfl⟩ hmember
    | key name => exact .key hfield hmem
    | index indexer key => exact .indexer hfield hmem

-- A test of a column has a form if there is the column.
theorem unsayable_iff_not_hasColumn (hfield : part.field? = some field)
    (hcustom : ∀ field name test, part ≠ .custom field name test)
    (hlength : ∀ field, part ≠ .isEmpty field .collection) :
    Unsayable part ↔ ¬HasColumn field.path := by
  refine ⟨fun hpart hcolumn => ?_, unsayable_of_not_hasColumn hfield⟩
  obtain ⟨hne, hsteps⟩ := hcolumn
  cases hpart with
  | quantifier => cases hfield
  | customTest => exact hcustom _ _ _ rfl
  | collectionLength => exact hlength _ rfl
  | element hother hpath =>
      rw [hfield, Option.some.injEq] at hother
      subst hother
      exact hne hpath
  | key hother hstep =>
      rw [hfield, Option.some.injEq] at hother
      subst hother
      obtain ⟨name, hname⟩ := hsteps _ hstep
      cases hname
  | indexer hother hstep =>
      rw [hfield, Option.some.injEq] at hother
      subst hother
      obtain ⟨name, hname⟩ := hsteps _ hstep
      cases hname

theorem error?_ofField_isSome_iff (hfield : part.field? = some field)
    (hcustom : ∀ field name test, part ≠ .custom field name test)
    (hlength : ∀ field, part ≠ .isEmpty field .collection) :
    (error? (Column.ofField field part)).isSome = true ↔ Unsayable part := by
  rw [unsayable_iff_not_hasColumn hfield hcustom hlength, ← Column.ofField_eq_ok_iff field part,
    ← Outcome.error?_eq_none, Option.isSome_iff_ne_none]

end Read

theorem not_unsayable_of_field?_eq_none {part : Condition} (hfield : part.field? = none)
    (hquantifier : ∀ collection inner, part ≠ .anyElement collection inner) : ¬Unsayable part := by
  intro hpart
  cases hpart with
  | quantifier => exact hquantifier _ _ rfl
  | customTest => cases hfield
  | collectionLength => cases hfield
  | element hother | key hother | indexer hother =>
      rw [hfield] at hother
      cases hother

theorem refusal?_isSome_iff (part : Condition) :
    (refusal? part).isSome = true ↔ Unsayable part := by
  cases part with
  | constant _ | all _ | any _ | not _ =>
      constructor
      · intro h
        cases h
      · intro hpart
        exact absurd hpart (not_unsayable_of_field?_eq_none rfl (by simp))
  | anyElement collection inner => exact ⟨fun _ => .quantifier _ _, fun _ => rfl⟩
  | custom field name test => exact ⟨fun _ => .customTest _ _ _, fun _ => rfl⟩
  | isEmpty field target =>
      cases target with
      | text => exact error?_ofField_isSome_iff rfl (by simp) (by simp)
      | collection => exact ⟨fun _ => .collectionLength _, fun _ => rfl⟩
  | compare _ _ _ | oneOf _ _ | between _ _ _ | text _ _ _ | isNull _ =>
      exact error?_ofField_isSome_iff rfl (by simp) (by simp)

-- The error of a part shows the text of that part.
theorem of_refusal?_eq_some {part : Condition} {e : TranslationError} (h : refusal? part = some e) :
    e.target = .sql ∧ e.expression = part.render := by
  cases part with
  | constant _ | all _ | any _ | not _ => cases h
  | anyElement _ _ | custom _ _ _ =>
      cases h
      exact ⟨rfl, rfl⟩
  | isEmpty field target =>
      cases target with
      | text => exact Column.of_ofField_eq_error (Outcome.error?_eq_some.mp h)
      | collection =>
          cases h
          exact ⟨rfl, rfl⟩
  | compare _ _ _ | oneOf _ _ | between _ _ _ | text _ _ _ | isNull _ =>
      exact Column.of_ofField_eq_error (Outcome.error?_eq_some.mp h)

namespace Clause

theorem error?_ofParts {conditions : List Condition}
    (h : ∀ part ∈ conditions, error? (ofCondition part) = part.parts.findSome? refusal?) :
    error? (ofParts conditions) = (partsOf conditions).findSome? refusal? := by
  induction conditions with
  | nil => rfl
  | cons first rest ih =>
      rw [List.forall_mem_cons] at h
      rw [ofParts, partsOf, List.findSome?_append, ← h.1, ← ih h.2]
      exact Outcome.error?_bind_cons id _ _

-- The parts are gone through from the outside to the inside and from left to right, up to the first
-- that has no form.
theorem error?_ofCondition (condition : Condition) :
    error? (ofCondition condition) = condition.parts.findSome? refusal? := by
  induction condition using treeInduction with
  | constant b => rfl
  | all conditions ih | any conditions ih =>
      rw [parts, List.findSome?_cons_of_isNone (by rfl), ← error?_ofParts ih]
      cases conditions with
      | nil => rfl
      | cons first rest => rw [ofCondition, Outcome.error?_map]
  | not inner ih =>
      rw [parts, List.findSome?_cons_of_isNone (by rfl), ← ih, ofCondition, Outcome.error?_map]
  | anyElement collection inner => rfl
  | custom field name test => rfl
  | isEmpty field target =>
      rw [parts_of_field? rfl, List.findSome?_singleton]
      cases target with
      | text => exact Outcome.error?_map _ _
      | collection => rfl
  | compare _ _ _ | oneOf _ _ | between _ _ _ | text _ _ _ | isNull _ =>
      rw [parts_of_field? rfl, List.findSome?_singleton]
      exact Outcome.error?_map _ _

end Clause

theorem Fragment.error?_ofCondition (d : Dialect) (condition : Condition) :
    error? (Fragment.ofCondition d condition) = condition.parts.findSome? refusal? := by
  rw [ofCondition, ofConditionAfter, Outcome.error?_map, Clause.error?_ofCondition]

-- A statement is made of all conditions but those that have a part without a form somewhere. It is
-- the same conditions for all dialects, and the error shows the text of the first such part.
theorem ofCondition_error_iff_and_first (condition : Condition) :
    (∀ d, (∃ e, Fragment.ofCondition d condition = .error e) ↔
      ∃ part ∈ condition.parts, Unsayable part) ∧
    (∀ d d', (∃ fragment, Fragment.ofCondition d condition = .ok fragment) ↔
      ∃ fragment, Fragment.ofCondition d' condition = .ok fragment) ∧
    ∀ d e, Fragment.ofCondition d condition = .error e →
      ∃ before part after, condition.parts = before ++ part :: after ∧
        (∀ other ∈ before, ¬Unsayable other) ∧ Unsayable part ∧
        e.target = .sql ∧ e.expression = part.render := by
  refine ⟨fun d => ?_, fun d d' => ?_, fun d e herror => ?_⟩
  · simp only [← Outcome.error?_eq_some, ← Option.isSome_iff_exists, ← refusal?_isSome_iff,
      Fragment.error?_ofCondition, List.findSome?_isSome_iff]
  · rw [← Outcome.error?_eq_none, ← Outcome.error?_eq_none, Fragment.error?_ofCondition,
      Fragment.error?_ofCondition]
  · rw [← Outcome.error?_eq_some, Fragment.error?_ofCondition, List.findSome?_eq_some_iff] at herror
    obtain ⟨before, part, after, hsplit, hpart, hbefore⟩ := herror
    refine ⟨before, part, after, hsplit, ?_, ?_, of_refusal?_eq_some hpart⟩
    · intro other hother hunsayable
      rw [← refusal?_isSome_iff, hbefore other hother] at hunsayable
      cases hunsayable
    · exact (refusal?_isSome_iff part).mp (Option.isSome_of_eq_some hpart)

private def title : FieldRef := { path := [.member "book", .member "title"], kind := .string }

private def shelfMark : FieldRef := { path := [.member "marks", .key "shelf"], kind := .string }

private def pages : FieldRef := { path := [.member "pages"], kind := .string }

private def unshelved : Condition :=
  .all [.isNull title, .not (.any [.isNull shelfMark, .anyElement pages (.isNull shelfMark)])]

-- What stands before the key in the text is sayable, and the quantifier behind it is not reported.
theorem unshelved_refused_for_key :
    Fragment.ofCondition .mysql unshelved =
      .error ⟨.sql, .keyOrIndexer, "(marks[\"shelf\"] IS NULL)"⟩ ∧
    ∃ before part after, unshelved.parts = before ++ part :: after ∧
      (∀ other ∈ before, ¬Unsayable other) ∧ Unsayable part ∧
      part.render = "(marks[\"shelf\"] IS NULL)" := by
  have herror : Fragment.ofCondition .mysql unshelved =
      .error ⟨.sql, .keyOrIndexer, "(marks[\"shelf\"] IS NULL)"⟩ := rfl
  obtain ⟨before, part, after, hsplit, hbefore, hpart, -, hrender⟩ :=
    (ofCondition_error_iff_and_first unshelved).2.2 .mysql _ herror
  exact ⟨herror, before, part, after, hsplit, hbefore, hpart, hrender.symm⟩

end Sieve.Sql

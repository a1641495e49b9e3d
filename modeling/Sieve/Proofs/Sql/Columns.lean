import Mathlib.Tactic.Cases
import Sieve.Evaluation
import Sieve.Proofs.Condition.Tests
import Sieve.Proofs.Sql.Formula

namespace Sieve

theorem FieldPath.eq_of_memberNames? {path : FieldPath} {names : List String}
    (h : path.memberNames? = some names) : path = names.map .member := by
  induction path generalizing names with
  | nil =>
      cases h
      rfl
  | cons step rest ih =>
      cases step with
      | member name =>
          obtain ⟨others, hothers, rfl⟩ : ∃ others, FieldPath.memberNames? rest = some others ∧
              name :: others = names := by
            simpa [FieldPath.memberNames?, Step.memberName?, Option.bind_eq_some_iff] using h
          rw [List.map_cons, ih hothers]
      | key name => simp [FieldPath.memberNames?, Step.memberName?] at h
      | index indexer key => simp [FieldPath.memberNames?, Step.memberName?] at h

namespace Sql

-- How the column of a field is looked at.
def View.ofField (field : FieldRef) : View :=
  if field.fold then .lower else if field.dayOnly then .day else .plain

theorem Column.eq_of_ofField {field : FieldRef} {part : Condition} {column : Column}
    (h : ofField field part = .ok column) :
    field.path = column.names.map .member ∧ column.view = View.ofField field := by
  rw [ofField] at h
  split at h
  · cases h
  · split at h
    · cases h
    · rename_i names hnames
      cases h
      exact ⟨FieldPath.eq_of_memberNames? hnames, rfl⟩

-- The row that a record is stored as. Only scalars have a column.
def Row.ofRecord (record : Datum) : Row := fun names =>
  match record.walk (names.map .member) with
  | .scalar value => some value
  | _ => none

-- The column that a test reads holds NULL, or a value that has an order with each literal of the
-- test. It is the value that is looked at: a day has an order with dates alone.
def Comparable (record : Datum) (test : Condition) : Prop :=
  ∀ field ∈ test.field?, record.walk field.path = .null ∨
    ∃ value, record.walk field.path = .scalar value ∧
      ∀ literal ∈ test.literals, ((View.ofField field).see value).compare? literal ≠ none

-- What a test reads of a field, and what the column shows of it. A timestamp may be shown by its
-- day.
inductive Shows : Datum → Option Value → Prop where
  | nothing : Shows .null none
  | same (value : Value) : Shows (.scalar value) (some value)
  | day (t : DateTime) : Shows (.scalar (.datetime t)) (some (.date t.date))

theorem View.shows_see {field : FieldRef} (value : Value) :
    Shows (if field.fold then (Datum.scalar value).foldCase else .scalar value)
      (some ((View.ofField field).see value)) := by
  rw [View.ofField]
  by_cases hfold : field.fold = true
  · rw [if_pos hfold, if_pos hfold]
    exact .same _
  · rw [if_neg hfold, if_neg hfold]
    by_cases hday : field.dayOnly = true
    · rw [if_pos hday]
      cases value <;> first | exact .day _ | exact .same _
    · rw [if_neg hday]
      exact .same _

-- Reading a field that is not coerced gives what its column shows.
theorem read_shows {field : FieldRef} {part test : Condition} {column : Column} {record : Datum}
    (hcolumn : Column.ofField field part = .ok column) (hcoerce : field.coerce = false)
    (htest : field ∈ test.field?) (hrecord : Comparable record test) (coercer : Coercer)
    (operator : String) :
    ∃ datum, field.read coercer operator record = .ok datum ∧
      Shows datum (column.see (Row.ofRecord record)) ∧
      ∀ shown ∈ column.see (Row.ofRecord record), ∀ literal ∈ test.literals,
        shown.compare? literal ≠ none := by
  obtain ⟨hpath, hview⟩ := Column.eq_of_ofField hcolumn
  have hread : field.read coercer operator record =
      .ok (if field.fold then (record.walk field.path).foldCase else record.walk field.path) := by
    simp [FieldRef.read, hcoerce, bind, Except.bind, pure, Except.pure]
  rw [hread]
  refine ⟨_, rfl, ?_⟩
  rcases hrecord field htest with hnull | ⟨value, hvalue, hliterals⟩
  · have hsee : column.see (Row.ofRecord record) = none := by
      rw [Column.see, Row.ofRecord, ← hpath, hnull]
      rfl
    rw [hsee, hnull]
    constructor
    · split <;> exact .nothing
    · intro shown hshown
      cases hshown
  · have hsee : column.see (Row.ofRecord record) = some ((View.ofField field).see value) := by
      rw [Column.see, Row.ofRecord, ← hpath, hvalue, hview]
      rfl
    rw [hsee, hvalue]
    refine ⟨View.shows_see value, ?_⟩
    intro shown hshown
    cases hshown
    exact hliterals

namespace Shows

variable {datum : Datum} {shown : Option Value}

theorem holds_compared (h : Shows datum shown) (op : Comparison) (literal : Value)
    (hliteral : ∀ value ∈ shown, value.compare? literal ≠ none) :
    (Test.compared shown op literal).holds = datum.passes op literal := by
  cases h with
  | nothing => rfl
  | same value =>
      simp only [Test.compared, Datum.passes, Datum.compare?, Option.bind_some]
      cases value.compare? literal <;> rfl
  | day t =>
      have hdate := hliteral _ rfl
      cases literal with
      | date d => rfl
      | _ => exact absurd rfl hdate

theorem eq_string (h : Shows datum shown) {pattern : String}
    (hliteral : ∀ value ∈ shown, value.compare? (.string pattern) ≠ none) :
    (datum = .null ∧ shown = none) ∨
      ∃ s, datum = .scalar (.string s) ∧ shown = some (.string s) := by
  cases h with
  | nothing => exact .inl ⟨rfl, rfl⟩
  | same value =>
      have hstring := hliteral _ rfl
      cases value with
      | string s => exact .inr ⟨s, rfl, rfl⟩
      | _ => exact absurd rfl hstring
  | day t => exact absurd rfl (hliteral _ rfl)

end Shows

end Sql

end Sieve

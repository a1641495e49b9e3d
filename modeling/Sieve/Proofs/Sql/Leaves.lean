import Sieve.Proofs.Condition.Tests
import Sieve.Proofs.Outcome
import Sieve.Sql.Clause

-- Conditions with other literals or other names, and what becomes of their clauses.
namespace Sieve

namespace Condition

mutual

-- Changes what the tests of a condition are about and leaves their form.
def mapLeaves (onField : FieldRef → FieldRef) (onValue : Value → Value)
    (onPattern : String → String) : Condition → Condition
  | constant b => constant b
  | all parts => all (mapParts onField onValue onPattern parts)
  | any parts => any (mapParts onField onValue onPattern parts)
  | not inner => not (inner.mapLeaves onField onValue onPattern)
  | compare field op value => compare (onField field) op (onValue value)
  | oneOf field values => oneOf (onField field) (values.map onValue)
  | between field low high => between (onField field) (onValue low) (onValue high)
  | text field test pattern => text (onField field) test (onPattern pattern)
  | isNull field => isNull (onField field)
  | isEmpty field target => isEmpty (onField field) target
  | anyElement collection inner =>
    anyElement (onField collection) (inner.mapLeaves onField onValue onPattern)
  | custom field name test => custom (onField field) name test

def mapParts (onField : FieldRef → FieldRef) (onValue : Value → Value)
    (onPattern : String → String) : List Condition → List Condition
  | [] => []
  | part :: rest =>
    part.mapLeaves onField onValue onPattern :: mapParts onField onValue onPattern rest

end

-- The same condition with one literal everywhere.
def withoutLiterals (condition : Condition) : Condition :=
  condition.mapLeaves id (fun _ => .boolean false) fun _ => ""

end Condition

def Step.withoutName : Step → Step
  | member _ => member ""
  | step => step

def FieldRef.withoutNames (field : FieldRef) : FieldRef :=
  { field with path := field.path.map Step.withoutName }

-- The same condition with one name for all members.
def Condition.withoutNames (condition : Condition) : Condition :=
  condition.mapLeaves FieldRef.withoutNames id id

namespace Sql

-- The same column with one name for all members.
def Column.withoutNames (column : Column) : Column :=
  { column with names := column.names.map fun _ => "" }

namespace Clause

mutual

def mapLeaves (onColumn : Column → Column) (onValue : Value → Value)
    (onPattern : String → String) : Clause → Clause
  | truth b => truth b
  | joined combinator clauses => joined combinator (mapParts onColumn onValue onPattern clauses)
  | not inner => not (inner.mapLeaves onColumn onValue onPattern)
  | compare column op value => compare (onColumn column) op (onValue value)
  | oneOf column values => oneOf (onColumn column) (values.map onValue)
  | between column low high => between (onColumn column) (onValue low) (onValue high)
  | like column pattern => like (onColumn column) (onPattern pattern)
  | isNull column => isNull (onColumn column)
  | isBlank column => isBlank (onColumn column)

def mapParts (onColumn : Column → Column) (onValue : Value → Value)
    (onPattern : String → String) : List Clause → List Clause
  | [] => []
  | clause :: rest =>
    clause.mapLeaves onColumn onValue onPattern :: mapParts onColumn onValue onPattern rest

end

theorem toOption_ofParts_cons (part : Condition) (rest : List Condition) :
    (ofParts (part :: rest)).toOption = (ofCondition part).toOption.bind fun clause =>
      (ofParts rest).toOption.map (clause :: ·) := by
  rw [ofParts]
  cases ofCondition part <;> cases ofParts rest <;> rfl

section Changes

variable {onField : FieldRef → FieldRef} {onColumn : Column → Column} {onValue : Value → Value}
  {onPattern onLike : String → String}

-- A change of fields that is one of their columns.
def Follows (onField : FieldRef → FieldRef) (onColumn : Column → Column) : Prop :=
  ∀ field part part', (Column.ofField (onField field) part').toOption =
    (Column.ofField field part).toOption.map onColumn

theorem ofField_mapLeaves (hcolumn : Follows onField onColumn) {build build' : Column → Clause}
    (hbuild : ∀ column, (build' (onColumn column)).mapLeaves id onValue onLike =
      (build column).mapLeaves onColumn onValue onLike)
    (field : FieldRef) (part part' : Condition) :
    ((Column.ofField (onField field) part').map build').toOption.map
        (mapLeaves id onValue onLike) =
      ((Column.ofField field part).map build).toOption.map (mapLeaves onColumn onValue onLike) := by
  rw [Outcome.toOption_map, Outcome.toOption_map, hcolumn field part part']
  cases (Column.ofField field part).toOption with
  | none => rfl
  | some column => exact congrArg some (hbuild column)

mutual

-- A change of a condition is seen in its clause, up to what is changed in all clauses.
theorem ofCondition_mapLeaves (hcolumn : Follows onField onColumn)
    (hvalue : ∀ value, onValue (onValue value) = onValue value)
    (hpattern : ∀ test pattern, onLike (likePattern test (onPattern pattern)) =
      onLike (likePattern test pattern))
    (condition : Condition) :
    (ofCondition (condition.mapLeaves onField onValue onPattern)).toOption.map
        (mapLeaves id onValue onLike) =
      (ofCondition condition).toOption.map (mapLeaves onColumn onValue onLike) := by
  match condition with
  | .constant b => rfl
  | .all [] => rfl
  | .any [] => rfl
  | .all (part :: rest) =>
      have hparts := ofParts_mapParts hcolumn hvalue hpattern (part :: rest)
      have hjoined := congrArg (Option.map (joined .and)) hparts
      simpa [ofCondition, Condition.mapLeaves, Condition.mapParts, Outcome.toOption_map, mapLeaves,
        Option.map_map, Function.comp_def] using hjoined
  | .any (part :: rest) =>
      have hparts := ofParts_mapParts hcolumn hvalue hpattern (part :: rest)
      have hjoined := congrArg (Option.map (joined .or)) hparts
      simpa [ofCondition, Condition.mapLeaves, Condition.mapParts, Outcome.toOption_map, mapLeaves,
        Option.map_map, Function.comp_def] using hjoined
  | .not inner =>
      have hinner := congrArg (Option.map not) (ofCondition_mapLeaves hcolumn hvalue hpattern inner)
      simpa [ofCondition, Condition.mapLeaves, Outcome.toOption_map, mapLeaves, Option.map_map,
        Function.comp_def] using hinner
  | .compare field op value => exact ofField_mapLeaves hcolumn (by simp [mapLeaves, hvalue]) ..
  | .oneOf field values => exact ofField_mapLeaves hcolumn (by simp [mapLeaves, hvalue]) ..
  | .between field low high => exact ofField_mapLeaves hcolumn (by simp [mapLeaves, hvalue]) ..
  | .text field test pattern => exact ofField_mapLeaves hcolumn (by simp [mapLeaves, hpattern]) ..
  | .isNull field => exact ofField_mapLeaves hcolumn (fun _ => rfl) ..
  | .isEmpty field .text => exact ofField_mapLeaves hcolumn (fun _ => rfl) ..
  | .isEmpty field .collection => rfl
  | .anyElement collection inner => rfl
  | .custom field name test => rfl

theorem ofParts_mapParts (hcolumn : Follows onField onColumn)
    (hvalue : ∀ value, onValue (onValue value) = onValue value)
    (hpattern : ∀ test pattern, onLike (likePattern test (onPattern pattern)) =
      onLike (likePattern test pattern))
    (parts : List Condition) :
    (ofParts (Condition.mapParts onField onValue onPattern parts)).toOption.map
        (mapParts id onValue onLike) =
      (ofParts parts).toOption.map (mapParts onColumn onValue onLike) := by
  match parts with
  | [] => rfl
  | part :: rest =>
      have hpart := ofCondition_mapLeaves hcolumn hvalue hpattern part
      have hrest := ofParts_mapParts hcolumn hvalue hpattern rest
      have hcons (x : Option Clause) (y : Option (List Clause)) (onColumn : Column → Column) :
          (x.bind fun clause => y.map (clause :: ·)).map (mapParts onColumn onValue onLike) =
            (x.map (mapLeaves onColumn onValue onLike)).bind fun clause =>
              (y.map (mapParts onColumn onValue onLike)).map (clause :: ·) := by
        cases x <;> cases y <;> rfl
      rw [Condition.mapParts, toOption_ofParts_cons, toOption_ofParts_cons, hcons, hcons, hpart,
        hrest]

end

end Changes

mutual

theorem mapLeaves_id (clause : Clause) : clause.mapLeaves id id id = clause := by
  match clause with
  | joined combinator clauses => rw [mapLeaves, mapParts_id]
  | not inner => rw [mapLeaves, mapLeaves_id]
  | oneOf column values => rw [mapLeaves, List.map_id]; rfl
  | truth b | compare column op value | between column low high | like column pattern
    | isNull column | isBlank column => rfl

theorem mapParts_id (clauses : List Clause) : mapParts id id id clauses = clauses := by
  match clauses with
  | [] => rfl
  | clause :: rest => rw [mapParts, mapLeaves_id, mapParts_id]

end

theorem follows_id : Follows id id := by
  intro field part part'
  rw [id, Column.ofField, Column.ofField, Option.map_id]
  split
  · rfl
  · split <;> rfl

theorem memberNames?_withoutName (path : FieldPath) :
    FieldPath.memberNames? (path.map Step.withoutName) =
      (FieldPath.memberNames? path).map (List.map fun _ => "") := by
  induction path with
  | nil => rfl
  | cons step rest ih =>
      cases step with
      | member name =>
          rw [List.map_cons, FieldPath.memberNames?, ih, FieldPath.memberNames?]
          cases FieldPath.memberNames? rest <;> rfl
      | key name => rfl
      | index indexer key => rfl

theorem follows_withoutNames : Follows FieldRef.withoutNames Column.withoutNames := by
  intro field part part'
  have hnames := memberNames?_withoutName field.path
  have helement : FieldPath.isElement (field.path.map Step.withoutName) =
      FieldPath.isElement field.path := List.isEmpty_map
  rw [Column.ofField, Column.ofField, FieldRef.withoutNames, hnames, helement]
  split
  · rfl
  · cases FieldPath.memberNames? field.path <;> rfl

theorem toOption_withoutNames (condition : Condition) :
    (ofCondition condition.withoutNames).toOption =
      (ofCondition condition).toOption.map (mapLeaves Column.withoutNames id id) := by
  have hchange := @ofCondition_mapLeaves FieldRef.withoutNames Column.withoutNames id id id
    follows_withoutNames (fun _ => rfl) (fun _ _ => rfl) condition
  have hid : mapLeaves id id id = id := funext mapLeaves_id
  rwa [hid, Option.map_id] at hchange

-- The same clause with one literal everywhere.
def withoutLiterals (clause : Clause) : Clause :=
  clause.mapLeaves id (fun _ => .boolean false) fun _ => ""

theorem toOption_withoutLiterals (condition : Condition) :
    (ofCondition condition.withoutLiterals).toOption.map withoutLiterals =
      (ofCondition condition).toOption.map withoutLiterals :=
  @ofCondition_mapLeaves id id (fun _ => .boolean false) (fun _ => "") (fun _ => "") follows_id
    (fun _ => rfl) (fun _ _ => rfl) condition

end Clause

end Sql

end Sieve

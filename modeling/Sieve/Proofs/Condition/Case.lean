import Sieve.Proofs.Condition.Typing
import Sieve.Proofs.Plan.Verdict

-- Conditions to which upper and lower case make no difference.
namespace Sieve

mutual

-- The same datum, up to texts in it that have the same lower case.
inductive Datum.SameButCase : Datum → Datum → Prop where
  | null : SameButCase .null .null
  | scalar (value : Value) : SameButCase (.scalar value) (.scalar value)
  | text {s t : String} (h : Text.lower s = Text.lower t) :
      SameButCase (.scalar (.string s)) (.scalar (.string t))
  | record {members members' indexed indexed' : List (String × Datum)}
      (hmembers : Datum.SameEntries members members')
      (hindexed : Datum.SameEntries indexed indexed') :
      SameButCase (.record members indexed) (.record members' indexed')
  | list {items items' : List Datum} (h : List.Forall₂ SameButCase items items') :
      SameButCase (.list items) (.list items')
  | map {entries entries' : List (String × Datum)} (h : Datum.SameEntries entries entries') :
      SameButCase (.map entries) (.map entries')

-- The same under the same names.
inductive Datum.SameEntries : List (String × Datum) → List (String × Datum) → Prop where
  | nil : SameEntries [] []
  | cons {name : String} {a b : Datum} {rest rest' : List (String × Datum)}
      (h : Datum.SameButCase a b) (hrest : Datum.SameEntries rest rest') :
      SameEntries ((name, a) :: rest) ((name, b) :: rest')

end

namespace Datum

variable {a b : Datum}

theorem SameEntries.lookup {entries entries' : List (String × Datum)}
    (h : SameEntries entries entries') (key : String) :
    SameButCase ((entries.lookup key).getD null) ((entries'.lookup key).getD null) := by
  induction entries generalizing entries' with
  | nil =>
      cases h
      exact .null
  | cons entry rest ih =>
      cases h with
      | cons hdatum hrest =>
          rw [List.lookup_cons, List.lookup_cons]
          split
          · exact hdatum
          · exact ih hrest

theorem isNull_foldCase (datum : Datum) : datum.foldCase.isNull = datum.isNull := by
  cases datum <;> rfl

namespace SameButCase

theorem step (h : a.SameButCase b) (step : Step) : (a.step step).SameButCase (b.step step) := by
  cases h with
  | record hmembers hindexed =>
      cases step with
      | member name => exact hmembers.lookup name
      | index indexer key => exact hindexed.lookup key
      | key name => exact .null
  | map h =>
      cases step with
      | key name => exact h.lookup name
      | _ => exact .null
  | _ => exact .null

theorem walk (h : a.SameButCase b) (path : FieldPath) :
    (a.walk path).SameButCase (b.walk path) := by
  induction path generalizing a b with
  | nil => exact h
  | cons step path ih => exact ih (h.step step)

-- What tests see of two such data, and of both in lower case.

theorem passes_eq (h : a.SameButCase b) (op : Comparison) {literal : Value}
    (hkind : literal.kind ≠ .string) : a.passes op literal = b.passes op literal := by
  cases h with
  | text h =>
      cases literal with
      | string s => exact absurd rfl hkind
      | _ => rfl
  | _ => rfl

theorem passes_foldCase_eq (h : a.SameButCase b) (op : Comparison) (literal : Value) :
    a.foldCase.passes op literal = b.foldCase.passes op literal := by
  cases h with
  | text h => simp only [foldCase, Value.foldCase, h]
  | _ => rfl

theorem passesText_foldCase_eq (h : a.SameButCase b) (test : TextTest) (pattern : String) :
    a.foldCase.passesText test pattern = b.foldCase.passesText test pattern := by
  cases h with
  | text h => simp only [foldCase, Value.foldCase, h]
  | _ => rfl

theorem isNull_eq (h : a.SameButCase b) : a.isNull = b.isNull := by
  cases h <;> rfl

theorem isEmptyAs_collection_eq (h : a.SameButCase b) :
    a.isEmptyAs .collection = b.isEmptyAs .collection := by
  cases h with
  | list h => cases h <;> rfl
  | _ => rfl

theorem isEmptyAs_foldCase_eq (h : a.SameButCase b) (target : EmptyTarget) :
    a.foldCase.isEmptyAs target = b.foldCase.isEmptyAs target := by
  cases h with
  | text h => simp only [foldCase, Value.foldCase, h]
  | list h => cases h <;> cases target <;> rfl
  | _ => rfl

end SameButCase

end Datum

variable {field : FieldRef} {literals : List Value} {coercer : Coercer} {a b : Datum}

-- A field that is read as it is stored and folded if it is held against texts.
structure FieldRef.IgnoresCase (field : FieldRef) (literals : List Value) : Prop where
  stored : field.coerce = false
  folds : field.fold = false → ∀ literal ∈ literals, literal.kind ≠ .string

-- What a test makes of a field is the same for data that it cannot tell apart, be it as they are
-- or in lower case.
theorem FieldRef.map_read_eq {operator : String} {test : Datum → Bool}
    (hstored : field.coerce = false) (h : a.SameButCase b)
    (hplain : field.fold = false → ∀ {a b : Datum}, a.SameButCase b → test a = test b)
    (hfolded : ∀ {a b : Datum}, a.SameButCase b → test a.foldCase = test b.foldCase) :
    (field.read coercer operator a).map test = (field.read coercer operator b).map test := by
  have hwalk := h.walk field.path
  rw [read_of_stored hstored, read_of_stored hstored]
  cases hfold : field.fold with
  | false => exact congrArg Except.ok (hplain hfold hwalk)
  | true => exact congrArg Except.ok (hfolded hwalk)

namespace Condition

-- A condition that holds of a datum or not however the texts in it are capitalised.
inductive IgnoresCase : Condition → Prop where
  | constant (b : Bool) : IgnoresCase (.constant b)
  | all {parts : List Condition} (h : ∀ part ∈ parts, IgnoresCase part) : IgnoresCase (.all parts)
  | any {parts : List Condition} (h : ∀ part ∈ parts, IgnoresCase part) : IgnoresCase (.any parts)
  | not {inner : Condition} (h : IgnoresCase inner) : IgnoresCase (.not inner)
  | compare {field : FieldRef} {op : Comparison} {value : Value} (h : field.IgnoresCase [value]) :
      IgnoresCase (.compare field op value)
  | oneOf {field : FieldRef} {values : List Value} (h : field.IgnoresCase values) :
      IgnoresCase (.oneOf field values)
  | between {field : FieldRef} {low high : Value} (h : field.IgnoresCase [low, high]) :
      IgnoresCase (.between field low high)
  | text {field : FieldRef} {test : TextTest} {pattern : String}
      (h : field.IgnoresCase [.string pattern]) : IgnoresCase (.text field test pattern)
  | isNull {field : FieldRef} (hstored : field.coerce = false) : IgnoresCase (.isNull field)
  | isEmptyText {field : FieldRef} (h : field.IgnoresCase [.string ""]) :
      IgnoresCase (.isEmpty field .text)
  | isEmptyCollection {field : FieldRef} (hstored : field.coerce = false) :
      IgnoresCase (.isEmpty field .collection)
  | anyElement {collection : FieldRef} {inner : Condition} (h : IgnoresCase inner) :
      IgnoresCase (.anyElement collection inner)

theorem IgnoresCase.negate {condition : Condition} (h : condition.IgnoresCase) :
    condition.negate.IgnoresCase := by
  cases condition with
  | constant b => exact .constant !b
  | _ => exact .not h

theorem IgnoresCase.combine {combinator : Combinator} {parts : List Condition}
    (h : ∀ part ∈ parts, part.IgnoresCase) : (combine combinator parts).IgnoresCase := by
  match parts, combinator with
  | [part], _ => exact h part (.head _)
  | [], .and => exact .constant true
  | [], .or => exact .constant false
  | _ :: _ :: _, .and => exact .all h
  | _ :: _ :: _, .or => exact .any h

theorem IgnoresCase.quantify {condition : Condition} (h : condition.IgnoresCase)
    (collections : List FieldRef) : (condition.quantify collections).IgnoresCase := by
  induction collections with
  | nil => exact h
  | cons collection rest ih => exact .anyElement ih

theorem eval_eq_of_sameButCase {condition : Condition} (hcondition : condition.IgnoresCase)
    (h : a.SameButCase b) : condition.eval coercer a = condition.eval coercer b := by
  induction hcondition generalizing a b with
  | constant _ => rfl
  | all _ ih =>
      rw [eval, eval, evalAll_eq_decide, evalAll_eq_decide]
      exact congrArg _ (List.map_congr_left fun part hpart => ih part hpart h)
  | any _ ih =>
      rw [eval, eval, evalAny_eq_decide, evalAny_eq_decide]
      exact congrArg _ (List.map_congr_left fun part hpart => ih part hpart h)
  | not _ ih => rw [eval, eval, ih h]
  | compare hfield =>
      refine FieldRef.map_read_eq hfield.stored h (fun hfold _ _ h => ?_) fun h => ?_
      · exact h.passes_eq _ (hfield.folds hfold _ (.head _))
      · exact h.passes_foldCase_eq _ _
  | oneOf hfield =>
      refine FieldRef.map_read_eq hfield.stored h (fun hfold _ _ h => ?_) fun h => ?_
      · exact Outcome.any_congr_of_mem fun value hvalue =>
          h.passes_eq _ (hfield.folds hfold value hvalue)
      · simp only [h.passes_foldCase_eq]
  | between hfield =>
      refine FieldRef.map_read_eq hfield.stored h (fun hfold _ _ h => ?_) fun h => ?_
      · rw [h.passes_eq _ (hfield.folds hfold _ (.head _)),
          h.passes_eq _ (hfield.folds hfold _ (.tail _ (.head _)))]
      · simp only [h.passes_foldCase_eq]
  | text hfield =>
      refine FieldRef.map_read_eq hfield.stored h (fun hfold _ _ h => ?_) fun h => ?_
      · exact absurd rfl (hfield.folds hfold _ (.head _))
      · exact h.passesText_foldCase_eq _ _
  | isNull hstored =>
      refine FieldRef.map_read_eq hstored h (fun _ _ _ h => h.isNull_eq) fun h => ?_
      rw [Datum.isNull_foldCase, Datum.isNull_foldCase, h.isNull_eq]
  | isEmptyText hfield =>
      refine FieldRef.map_read_eq hfield.stored h (fun hfold _ _ h => ?_) fun h => ?_
      · exact absurd rfl (hfield.folds hfold _ (.head _))
      · exact h.isEmptyAs_foldCase_eq _
  | isEmptyCollection hstored =>
      refine FieldRef.map_read_eq hstored h (fun hfold _ _ h => ?_) fun h => ?_
      · exact h.isEmptyAs_collection_eq
      · exact h.isEmptyAs_foldCase_eq _
  | @anyElement collection inner _ ih =>
      rw [eval, eval]
      have hwalk := h.walk collection.path
      generalize a.walk collection.path = x at hwalk
      generalize b.walk collection.path = y at hwalk
      cases hwalk with
      | list hitems => exact Outcome.anyM_eq_of_forall₂ hitems fun _ _ hitem => ih hitem
      | _ => rfl

end Condition

end Sieve

import Sieve.Document.Conversion
import Sieve.Proofs.Condition.Fields

-- When a condition can be translated, and to what.
namespace Sieve

-- A path that documents have a name for: one that goes through no indexer.
def FieldPath.Nameable (path : FieldPath) : Prop :=
  ∀ indexer key, .index indexer key ∉ path

theorem FieldPath.nameable_cons_iff {step : Step} {rest : FieldPath} :
    Nameable (step :: rest) ↔ step.name?.isSome ∧ rest.Nameable := by
  cases step <;> simp [Nameable, Step.name?, forall_and]

namespace Document

variable {part : Condition} {path : FieldPath} {name : String} {names : List String}

-- Whether a path has a name, and which, does not depend on what asks for it.
theorem fieldName_eq_ok_iff :
    fieldName part path = .ok names ↔ path.Nameable ∧ path.names = names := by
  induction path generalizing names with
  | nil => simp [fieldName, FieldPath.Nameable, FieldPath.names]
  | cons step rest ih =>
      rw [FieldPath.nameable_cons_iff]
      cases step with
      | member name | key name =>
          simp [fieldName, Outcome.map_eq_ok, ih, FieldPath.names, Step.name?]
      | index indexer key => simp [fieldName, Step.name?]

theorem dottedName_eq_ok_iff :
    dottedName part path = .ok name ↔ path.Nameable ∧ ".".intercalate path.names = name := by
  simp [dottedName, Outcome.map_eq_ok, fieldName_eq_ok_iff, and_assoc]

namespace Selector

variable {part : Condition} {field : FieldRef} {selector test : Selector}

theorem onField_eq_ok (h : onField part field test = .ok selector) :
    (field.path = [] ∧ selector = test) ∨
      (field.path ≠ [] ∧ ∃ name, dottedName part field.path = .ok name ∧
        selector = inField name test) := by
  unfold onField at h
  split at h
  · rename_i helement
    cases h
    exact .inl ⟨List.isEmpty_iff.mp helement, rfl⟩
  · rename_i helement
    obtain ⟨name, hname, rfl⟩ := Outcome.map_eq_ok.mp h
    exact .inr ⟨fun hnil => helement (List.isEmpty_iff.mpr hnil), name, hname, rfl⟩

theorem exists_onField_iff :
    (∃ selector, onField part field test = .ok selector) ↔ field.path.Nameable := by
  by_cases hnil : field.path = []
  · simp [onField, FieldPath.isElement, FieldPath.Nameable, hnil]
  · simp [onField, FieldPath.isElement, hnil, Outcome.map_eq_ok, dottedName_eq_ok_iff]

-- However a field is compared, an empty list is asked of it as such.
theorem ofMembership_nil : ofMembership part field [] = onField part field (oneOf []) := by
  cases hday : field.dayOnly <;> cases hfold : field.fold <;>
    simp [ofMembership, days?, hday, hfold]

-- A list of days makes a document for each of them, which no element is asked for.
theorem ofMembership_days_eq_ok_iff {first : Date} {rest : List Date} {values : List Value}
    (hday : field.dayOnly = true) (hvalues : days? values = some (first :: rest)) :
    ofMembership part field values = .ok selector ↔
      field.path ≠ [] ∧ ∃ name, dottedName part field.path = .ok name ∧
        any ((first :: rest).map fun day => inField name (ofDay .equal day)) = selector := by
  rw [ofMembership, hday, hvalues]
  by_cases hnil : field.path = []
  · simp [FieldPath.isElement, hnil]
  · simp [FieldPath.isElement, hnil, Outcome.map_eq_ok]

variable {onElement : Bool}

-- Conjunctions and disjunctions have no form as a test of one element.
theorem ofCondition_all_eq_ok {parts : List Condition}
    (h : ofCondition onElement (.all parts) = .ok selector) :
    onElement = false ∧ ∃ selectors, ofParts parts = .ok selectors ∧ selector = all selectors := by
  rw [ofCondition] at h
  split at h
  · cases h
  · rename_i helement
    obtain ⟨selectors, hselectors, rfl⟩ := Outcome.map_eq_ok.mp h
    exact ⟨Bool.eq_false_iff.mpr helement, selectors, hselectors, rfl⟩

theorem ofCondition_any_eq_ok {parts : List Condition}
    (h : ofCondition onElement (.any parts) = .ok selector) :
    onElement = false ∧ ∃ selectors, ofParts parts = .ok selectors ∧ selector = any selectors := by
  rw [ofCondition] at h
  split at h
  · cases h
  · rename_i helement
    obtain ⟨selectors, hselectors, rfl⟩ := Outcome.map_eq_ok.mp h
    exact ⟨Bool.eq_false_iff.mpr helement, selectors, hselectors, rfl⟩

theorem ofCondition_isEmpty_eq_ok
    (h : ofCondition onElement (.isEmpty field .collection) = .ok selector) :
    field.path ≠ [] ∧ ∃ name, dottedName (.isEmpty field .collection) field.path = .ok name ∧
      selector = any [inField name missing, inField name (size 0)] := by
  rw [ofCondition] at h
  split at h
  · cases h
  · rename_i helement
    obtain ⟨name, hname, rfl⟩ := Outcome.map_eq_ok.mp h
    exact ⟨fun hnil => helement (List.isEmpty_iff.mpr hnil), name, hname, rfl⟩

theorem ofCondition_anyElement_eq_ok {collection : FieldRef} {inner : Condition}
    (h : ofCondition onElement (.anyElement collection inner) = .ok selector) :
    ∃ test, ofCondition (readsElement inner) inner = .ok test ∧
      onField (.anyElement collection inner) collection (elementMatch test) = .ok selector := by
  rw [ofCondition] at h
  split at h
  · cases h
  · split at h
    · rename_i test htest
      exact ⟨test, htest, h⟩
    · cases h

end Selector

end Document

end Sieve

import Sieve.Proofs.Condition.Fields
import Sieve.Proofs.Document.Conversion
import Sieve.Proofs.Document.Json

-- Selectors that are written in JSON in a place where the store reads them as they are meant.
namespace Sieve.Document.Selector

variable {catalog : Catalog} {words : List String}

-- Selectors in their places: those of a whole, and tests of one value. No name is one of the
-- store's own.
inductive Suits : Bool → Selector → Prop where
  | everything : Suits false everything
  | nothing : Suits false nothing
  | all {parts : List Selector} (h : ∀ part ∈ parts, Suits false part) : Suits false (all parts)
  | any {parts : List Selector} (h : ∀ part ∈ parts, Suits false part) : Suits false (any parts)
  | noneOf {part : Selector} (h : Suits false part) : Suits false (noneOf part)
  | inField {name : String} {test : Selector} (hname : name.toList.head? ≠ some '$')
      (h : Suits true test) : Suits false (inField name test)
  | missingField {name : String} (hname : name.toList.head? ≠ some '$') :
      Suits false (inField name missing)
  | not {test : Selector} (h : Suits true test) : Suits true (not test)
  | compares {test : Comparison × Operand} {rest : List (Comparison × Operand)} :
      Suits true (compares (test :: rest))
  | oneOf {operands : List Operand} : Suits true (oneOf operands)
  | regex {r : Regex} : Suits true (regex r)
  | size {n : Nat} : Suits true (size n)
  | elementMatch {onElement : Bool} {test : Selector} (h : Suits onElement test) :
      Suits true (elementMatch test)

theorem Suits.isTest {onElement : Bool} {selector : Selector} (h : Suits onElement selector) :
    isTest selector.toJson = onElement := by
  cases h with
  | inField hname h => simp [toJson, Document.isTest, Key.read?_of_ne hname]
  | missingField hname => simp [toJson, Document.isTest, Key.read?_of_ne hname]
  | @compares test rest =>
      obtain ⟨op, operand⟩ := test
      cases op <;> rfl
  | @regex r =>
      obtain ⟨atStart, literal, atEnd, ignoreCase⟩ := r
      cases ignoreCase <;> rfl
  | _ => rfl

theorem selectsAll_toJsonParts {parts : List Selector} {stored : Stored}
    (h : ∀ part ∈ parts, selects part.toJson stored = part.holds stored) :
    selectsAll (toJsonParts parts) stored = holdsAll parts stored := by
  induction parts with
  | nil => rfl
  | cons part rest ih =>
      rw [List.forall_mem_cons] at h
      rw [toJsonParts, selectsAll, holdsAll, h.1, ih h.2]

theorem selectsAny_toJsonParts {parts : List Selector} {stored : Stored}
    (h : ∀ part ∈ parts, selects part.toJson stored = part.holds stored) :
    selectsAny (toJsonParts parts) stored = holdsAny parts stored := by
  induction parts with
  | nil => rfl
  | cons part rest ih =>
      rw [List.forall_mem_cons] at h
      rw [toJsonParts, selectsAny, holdsAny, h.1, ih h.2]

-- The document of a selector selects what the selector holds of.
theorem Suits.toJson_eq_holds {onElement : Bool} {selector : Selector}
    (h : Suits onElement selector) (stored : Stored) :
    (if onElement then tests selector.toJson stored else selects selector.toJson stored) =
      selector.holds stored := by
  induction h generalizing stored with
  | everything => rfl
  | nothing => exact selects_expr stored false
  | all h ih =>
      refine (selects_and stored _).trans (selectsAll_toJsonParts fun part hpart => ?_)
      exact ih part hpart stored
  | any h ih =>
      refine (selects_or stored _).trans (selectsAny_toJsonParts fun part hpart => ?_)
      exact ih part hpart stored
  | noneOf h ih =>
      refine (selects_nor stored _).trans ?_
      rw [selectsAny, selectsAny, Bool.or_false]
      exact congrArg _ (ih stored)
  | inField hname h ih => exact (selects_field hname _ stored).trans (ih _)
  | missingField hname =>
      refine (selects_field hname _ stored).trans ?_
      rw [toJson, tests_of_readOperand rfl, holds, holds]
      cases stored.dotted _ <;> rfl
  | not h ih => exact (tests_not stored _).trans (congrArg _ (ih stored))
  | @compares test rest =>
      obtain ⟨op, operand⟩ := test
      refine (tests_object (Operation.read?_comparisonKey op) stored).trans ?_
      exact testsMembers_compares ((op, operand) :: rest) stored
  | @oneOf operands =>
      refine (tests_in stored _).trans ?_
      rw [List.any_map, holds]
      rfl
  | @regex r =>
      rw [if_pos rfl, holds, toJson, tests_of_readOperand (readOperand_regex r),
        readOperand_regex, Option.any_some]
  | size => exact tests_size stored _
  | @elementMatch onElement test h ih =>
      refine (tests_elemMatch stored _).trans ?_
      rw [h.isTest]
      cases stored with
      | array items => exact congrArg (List.any items) (funext ih)
      | _ => rfl

theorem suits_ofDay (op : Comparison) (day : Date) : Suits true (ofDay op day) := by
  unfold ofDay
  split <;> first | exact .compares | exact .oneOf | exact .not .compares

theorem suits_ofDays (low : Value) (high : Date) : Suits true (ofDays low high) := by
  unfold ofDays
  split <;> exact .compares

variable {type last : FieldType} {part : Condition} {field : FieldRef} {selector test : Selector}

theorem head?_intercalate {name : String} {rest : List String}
    (h : (".".intercalate (name :: rest)).toList.head? = some '$') :
    name.toList.head? = some '$' := by
  have hlist : (".".intercalate (name :: rest)).toList =
      ['.'].intercalate ((name :: rest).map String.toList) :=
    String.toList_intercalate
  rw [hlist] at h
  cases rest with
  | nil => simpa using h
  | cons next rest =>
      rw [List.map_cons, List.map_cons, List.intercalate_cons_cons] at h
      cases hname : name.toList with
      | nil =>
          rw [hname] at h
          cases h
      | cons c cs =>
          rw [hname] at h
          exact h

-- Names of which none is one of the store's own.
def Unreserved (names : List String) : Prop :=
  ∀ name ∈ names, name.toList.head? ≠ some '$'

theorem Unreserved.mono {names others : List String} (h : Unreserved others)
    (hsubset : names ⊆ others) : Unreserved names :=
  fun name hname => h name (hsubset hname)

theorem Unreserved.ofField {condition : Condition} (h : Unreserved condition.pathNames)
    (hfield : condition.readField? = some field) : Unreserved field.path.names :=
  h.mono (Condition.pathNames_subset_of_readField? hfield)

section Field

variable (hdollar : Unreserved field.path.names)

include hdollar

-- A dotted name begins like the first name in it.
theorem head?_dottedName {name : String} (hname : dottedName part field.path = .ok name) :
    name.toList.head? ≠ some '$' := by
  obtain ⟨-, rfl⟩ := dottedName_eq_ok_iff.mp hname
  generalize field.path.names = names at hdollar
  cases names with
  | nil => exact nofun
  | cons first rest =>
      intro hhead
      exact hdollar first (.head _) (head?_intercalate hhead)

theorem suits_onField (htest : Suits true test) (h : onField part field test = .ok selector) :
    Suits field.path.isElement selector := by
  rcases onField_eq_ok h with ⟨hnil, rfl⟩ | ⟨hne, name, hname, rfl⟩
  · rw [hnil]
    exact htest
  · rw [FieldPath.isElement, List.isEmpty_eq_false_iff.mpr hne]
    exact .inField (head?_dottedName hdollar hname) htest

theorem suits_ofCompare {op : Comparison} {value : Value}
    (h : ofCompare part field op value = .ok selector) : Suits field.path.isElement selector := by
  unfold ofCompare at h
  split at h
  · exact suits_onField hdollar (suits_ofDay op _) h
  · split at h
    · split at h
      · exact suits_onField hdollar .regex h
      · exact suits_onField hdollar (.not .regex) h
      · cases h
    · exact suits_onField hdollar .compares h

theorem suits_ofMembership {values : List Value}
    (h : ofMembership part field values = .ok selector) : Suits field.path.isElement selector := by
  unfold ofMembership at h
  split at h
  · exact suits_onField hdollar .oneOf h
  · split at h
    · cases h
    · rename_i helement
      obtain ⟨name, hname, rfl⟩ := Outcome.map_eq_ok.mp h
      rw [Bool.eq_false_iff.mpr helement]
      refine .any (List.forall_mem_map.mpr fun day _ => ?_)
      exact .inField (head?_dottedName hdollar hname) (suits_ofDay .equal day)
  · split at h <;> exact suits_onField hdollar .oneOf h

theorem suits_ofRange {low high : Value} (h : ofRange part field low high = .ok selector) :
    Suits field.path.isElement selector := by
  unfold ofRange at h
  split at h
  · cases h
  · split at h
    · exact suits_onField hdollar (suits_ofDays low _) h
    · exact suits_onField hdollar .compares h

end Field

theorem suits_ofParts {parts : List Condition} {selectors : List Selector}
    (hparts : ∀ part ∈ parts, ∀ selector, ofCondition false part = .ok selector →
      Suits false selector)
    (hselectors : ofParts parts = .ok selectors) :
    ∀ selector ∈ selectors, Suits false selector := by
  induction parts generalizing selectors with
  | nil =>
      cases hselectors
      exact nofun
  | cons part rest ih =>
      rw [List.forall_mem_cons] at hparts
      obtain ⟨selector, others, hselector, hothers, rfl⟩ :=
        (Outcome.bind_cons_eq_ok id).mp hselectors
      exact List.forall_mem_cons.mpr ⟨hparts.1 selector hselector, ih hparts.2 hothers⟩

theorem readsElement_of_mem {parts : List Condition} (h : readsElementAny parts = false) :
    ∀ part ∈ parts, readsElement part = false := by
  induction parts with
  | nil => exact nofun
  | cons part rest ih =>
      rw [readsElementAny, Bool.or_eq_false_iff] at h
      exact List.forall_mem_cons.mpr ⟨h.1, ih h.2⟩

-- What a condition is translated to is in its place if it is translated for what it reads.
theorem suits_of_ofCondition {condition : Condition} {onElement : Bool}
    (hdollar : Unreserved condition.pathNames)
    (hreads : readsElement condition = onElement)
    (h : ofCondition onElement condition = .ok selector) : Suits onElement selector := by
  induction condition using Condition.treeInduction generalizing onElement selector with
  | constant b =>
      subst hreads
      cases h
      cases b
      · exact .nothing
      · exact .everything
  | all conditions ih =>
      obtain ⟨rfl, selectors, hselectors, rfl⟩ := ofCondition_all_eq_ok h
      refine .all (suits_ofParts (fun part hpart selector hselector => ?_) hselectors)
      have hpartNames := Condition.pathNames_subset (Condition.parts_subset_all hpart)
      exact ih part hpart (hdollar.mono hpartNames) (readsElement_of_mem hreads part hpart)
        hselector
  | any conditions ih =>
      obtain ⟨rfl, selectors, hselectors, rfl⟩ := ofCondition_any_eq_ok h
      refine .any (suits_ofParts (fun part hpart selector hselector => ?_) hselectors)
      have hpartNames := Condition.pathNames_subset (Condition.parts_subset_any hpart)
      exact ih part hpart (hdollar.mono hpartNames) (readsElement_of_mem hreads part hpart)
        hselector
  | not inner ih =>
      obtain ⟨test, htest, rfl⟩ := Outcome.map_eq_ok.mp h
      have hinnerNames := Condition.pathNames_subset (Condition.parts_subset_not inner)
      have hsuits := ih (hdollar.mono hinnerNames) hreads htest
      cases onElement
      · exact .noneOf hsuits
      · exact .not hsuits
  | compare field op value =>
      subst hreads
      exact suits_ofCompare (hdollar.ofField rfl) h
  | oneOf field values =>
      subst hreads
      exact suits_ofMembership (hdollar.ofField rfl) h
  | between field low high =>
      subst hreads
      exact suits_ofRange (hdollar.ofField rfl) h
  | text field test pattern =>
      subst hreads
      exact suits_onField (hdollar.ofField rfl) .regex h
  | isNull field =>
      subst hreads
      exact suits_onField (hdollar.ofField rfl) .compares h
  | isEmpty field target =>
      subst hreads
      cases target with
      | text => exact suits_onField (hdollar.ofField rfl) .oneOf h
      | collection =>
          obtain ⟨hne, name, hname, rfl⟩ := ofCondition_isEmpty_eq_ok h
          have hhead := head?_dottedName (hdollar.ofField rfl) hname
          rw [readsElement, FieldPath.isElement, List.isEmpty_eq_false_iff.mpr hne]
          refine .any (List.forall_mem_cons.mpr ⟨.missingField hhead, ?_⟩)
          exact List.forall_mem_singleton.mpr (.inField hhead .size)
  | anyElement collection inner ih =>
      subst hreads
      obtain ⟨test, htest, hselector⟩ := ofCondition_anyElement_eq_ok h
      have hinnerNames :=
        Condition.pathNames_subset (Condition.parts_subset_anyElement collection inner)
      have hsuits := ih (hdollar.mono hinnerNames) rfl htest
      exact suits_onField (hdollar.ofField rfl) (.elementMatch hsuits) hselector
  | custom field name test => cases h

theorem isElement_eq_false {schema : Nat}
    (hpath : Leads catalog words (.object schema) field.path last)
    (hlast : last ≠ .object schema) : field.path.isElement = false := by
  generalize field.path = path at hpath
  cases hpath with
  | here => exact absurd rfl hlast
  | there hstep hpath => rfl

theorem readsElementAny_eq_false {parts : List Condition}
    (h : ∀ part ∈ parts, readsElement part = false) : readsElementAny parts = false := by
  induction parts with
  | nil => rfl
  | cons part rest ih =>
      rw [List.forall_mem_cons] at h
      rw [readsElementAny, h.1, ih h.2]
      rfl

-- Conditions on records read fields of them.
theorem readsElement_eq_false {condition : Condition} {schema : Nat}
    (h : condition.Fits catalog words (.object schema)) : readsElement condition = false := by
  generalize htype : FieldType.object schema = type at h
  induction h with
  | constant b => rfl
  | all h ih => exact readsElementAny_eq_false fun part hpart => ih part hpart htype
  | any h ih => exact readsElementAny_eq_false fun part hpart => ih part hpart htype
  | not h ih => exact ih htype
  | compare h | oneOf h | between h | text h | isEmptyText h =>
      subst htype
      obtain ⟨nullable, hpath⟩ := h.leads
      exact isElement_eq_false hpath nofun
  | isNull hpath hne => exact List.isEmpty_eq_false_iff.mpr hne
  | isEmptyCollection hpath | anyElement hpath =>
      subst htype
      exact isElement_eq_false hpath nofun

end Sieve.Document.Selector

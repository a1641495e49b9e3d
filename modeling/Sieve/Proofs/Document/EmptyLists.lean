import Sieve.Proofs.Condition.Parts
import Sieve.Proofs.Document.Places

-- Where a document combines no documents, and what becomes of memberships in no values.
namespace Sieve

-- The operators that combine documents.
def Json.combining : List String :=
  ["$and", "$or", "$nor"]

-- Somewhere in a document stands an empty list of documents to combine.
inductive Json.HasEmptyFork : Json → Prop where
  | here {key : String} {members : List (String × Json)} (hkey : key ∈ Json.combining)
      (h : (key, .array []) ∈ members) : HasEmptyFork (.object members)
  | member {key : String} {value : Json} {members : List (String × Json)}
      (h : (key, value) ∈ members) (hvalue : HasEmptyFork value) : HasEmptyFork (.object members)
  | item {item : Json} {items : List Json} (h : item ∈ items) (hitem : HasEmptyFork item) :
      HasEmptyFork (.array items)

namespace Json

theorem hasEmptyFork_object_iff {members : List (String × Json)} :
    (object members).HasEmptyFork ↔ ∃ member ∈ members,
      member.1 ∈ combining ∧ member.2 = .array [] ∨ member.2.HasEmptyFork := by
  constructor
  · intro h
    cases h with
    | here hkey h => exact ⟨_, h, .inl ⟨hkey, rfl⟩⟩
    | member h hvalue => exact ⟨_, h, .inr hvalue⟩
  · rintro ⟨⟨key, value⟩, hmember, ⟨hkey, rfl⟩ | hvalue⟩
    · exact .here hkey hmember
    · exact .member hmember hvalue

theorem hasEmptyFork_array_iff {items : List Json} :
    (array items).HasEmptyFork ↔ ∃ item ∈ items, item.HasEmptyFork := by
  constructor
  · intro h
    cases h with
    | item h hitem => exact ⟨_, h, hitem⟩
  · rintro ⟨item, hitem, h⟩
    exact .item hitem h

-- An object of one member that combines nothing itself.
theorem hasEmptyFork_single_iff {key : String} {value : Json}
    (h : key ∉ combining ∨ value ≠ .array []) :
    (object [(key, value)]).HasEmptyFork ↔ value.HasEmptyFork := by
  simp only [hasEmptyFork_object_iff, List.mem_singleton, exists_eq_left]
  rw [or_iff_right]
  rintro ⟨hkey, hvalue⟩
  exact h.elim (· hkey) (· hvalue)

theorem not_hasEmptyFork_texts {members : List (String × Json)}
    (h : ∀ member ∈ members, ∃ s, member.2 = .string s) : ¬ (object members).HasEmptyFork := by
  rw [hasEmptyFork_object_iff]
  rintro ⟨member, hmember, hfork⟩
  obtain ⟨s, hs⟩ := h member hmember
  rw [hs] at hfork
  obtain ⟨-, hfork⟩ | hfork := hfork <;> cases hfork

end Json

namespace Document

open Json (hasEmptyFork_object_iff hasEmptyFork_array_iff hasEmptyFork_single_iff
  not_hasEmptyFork_texts)

theorem Regex.not_hasEmptyFork_toJson (r : Regex) : ¬ r.toJson.HasEmptyFork := by
  rw [toJson]
  split <;> exact not_hasEmptyFork_texts (by simp)

theorem Regex.toJson_ne_array (r : Regex) (items : List Json) : r.toJson ≠ .array items := by
  rw [toJson]
  split <;> simp

theorem Operand.toJson_ne_array (operand : Operand) (items : List Json) :
    operand.toJson ≠ .array items := by
  cases operand with
  | null => simp [toJson]
  | value v =>
      cases v with
      | double x =>
          rw [toJson, valueJson]
          split <;> simp
      | _ => simp [toJson, valueJson]
  | regex r => exact r.toJson_ne_array items

theorem Operand.not_hasEmptyFork_toJson (operand : Operand) : ¬ operand.toJson.HasEmptyFork := by
  cases operand with
  | null => exact fun h => by cases h
  | value v =>
      cases v with
      | date _ | datetime _ | guid _ => exact not_hasEmptyFork_texts (by simp)
      | double x =>
          rw [toJson, valueJson]
          split <;> exact fun h => by cases h
      | integer _ | long _ | string _ | boolean _ => exact fun h => by cases h
  | regex r => exact r.not_hasEmptyFork_toJson

namespace Selector

theorem toJson_ne_array (selector : Selector) (items : List Json) :
    selector.toJson ≠ .array items := by
  cases selector with
  | regex r => exact r.toJson_ne_array items
  | _ => simp [toJson]

theorem toJsonParts_eq_map (parts : List Selector) : toJsonParts parts = parts.map toJson := by
  induction parts with
  | nil => rfl
  | cons part rest ih => rw [toJsonParts, ih, List.map_cons]

-- Selectors are combined in an array of their own.
theorem hasEmptyFork_combined_iff {key : String} (hkey : key ∈ Json.combining)
    (parts : List Selector) :
    (Json.object [(key, .array (toJsonParts parts))]).HasEmptyFork ↔
      parts = [] ∨ ∃ part ∈ parts, part.toJson.HasEmptyFork := by
  simp [hasEmptyFork_object_iff, hasEmptyFork_array_iff, toJsonParts_eq_map, hkey]

theorem hasEmptyFork_noneOf_iff (part : Selector) :
    (noneOf part).toJson.HasEmptyFork ↔ part.toJson.HasEmptyFork := by
  rw [toJson, hasEmptyFork_single_iff (.inr (by simp)), hasEmptyFork_array_iff]
  simp

theorem hasEmptyFork_inField_iff (name : String) (test : Selector) :
    (inField name test).toJson.HasEmptyFork ↔ test.toJson.HasEmptyFork :=
  hasEmptyFork_single_iff (.inr (toJson_ne_array test []))

theorem hasEmptyFork_not_iff (test : Selector) :
    (not test).toJson.HasEmptyFork ↔ test.toJson.HasEmptyFork :=
  hasEmptyFork_single_iff (.inl (by decide))

theorem hasEmptyFork_elementMatch_iff (test : Selector) :
    (elementMatch test).toJson.HasEmptyFork ↔ test.toJson.HasEmptyFork :=
  hasEmptyFork_single_iff (.inl (by decide))

theorem not_hasEmptyFork_compares (tests : List (Comparison × Operand)) :
    ¬ (compares tests).toJson.HasEmptyFork := by
  rw [toJson, hasEmptyFork_object_iff]
  rintro ⟨member, hmember, hfork⟩
  obtain ⟨⟨op, operand⟩, -, rfl⟩ := List.mem_map.mp hmember
  rcases hfork with ⟨-, hempty⟩ | hfork
  · exact operand.toJson_ne_array [] hempty
  · exact operand.not_hasEmptyFork_toJson hfork

theorem not_hasEmptyFork_oneOf (operands : List Operand) :
    ¬ (oneOf operands).toJson.HasEmptyFork := by
  rw [toJson, hasEmptyFork_single_iff (.inl (by decide)), hasEmptyFork_array_iff]
  rintro ⟨item, hitem, hfork⟩
  obtain ⟨operand, -, rfl⟩ := List.mem_map.mp hitem
  exact operand.not_hasEmptyFork_toJson hfork

theorem not_hasEmptyFork_regex (r : Regex) : ¬ (regex r).toJson.HasEmptyFork :=
  r.not_hasEmptyFork_toJson

theorem not_hasEmptyFork_size (n : Nat) : ¬ (size n).toJson.HasEmptyFork := by
  rw [toJson, hasEmptyFork_single_iff (.inl (by decide))]
  exact fun h => by cases h

theorem not_hasEmptyFork_ofDay (op : Comparison) (day : Date) :
    ¬ (ofDay op day).toJson.HasEmptyFork := by
  cases hnext : day.next? with
  | some next =>
      cases op with
      | notEqual =>
          simp only [ofDay, hnext, hasEmptyFork_not_iff]
          exact not_hasEmptyFork_compares _
      | _ =>
          simp only [ofDay, hnext]
          exact not_hasEmptyFork_compares _
  | none =>
      cases op with
      | greater =>
          simp only [ofDay, hnext]
          exact not_hasEmptyFork_oneOf []
      | _ =>
          simp only [ofDay, hnext]
          exact not_hasEmptyFork_compares _

section Leaf

variable {condition : Condition} {field : FieldRef} {selector test : Selector}

theorem hasEmptyFork_onField_iff (h : onField condition field test = .ok selector) :
    selector.toJson.HasEmptyFork ↔ test.toJson.HasEmptyFork := by
  rcases onField_eq_ok h with ⟨-, rfl⟩ | ⟨-, name, -, rfl⟩
  · rfl
  · exact hasEmptyFork_inField_iff name test

theorem not_hasEmptyFork_onField (htest : ¬ test.toJson.HasEmptyFork)
    (h : onField condition field test = .ok selector) : ¬ selector.toJson.HasEmptyFork :=
  mt (hasEmptyFork_onField_iff h).mp htest

theorem not_hasEmptyFork_ofCompare {op : Comparison} {value : Value}
    (h : ofCompare condition field op value = .ok selector) : ¬ selector.toJson.HasEmptyFork := by
  unfold ofCompare at h
  split at h
  · exact not_hasEmptyFork_onField (not_hasEmptyFork_ofDay op _) h
  · split at h
    · split at h
      · exact not_hasEmptyFork_onField (not_hasEmptyFork_regex _) h
      · refine not_hasEmptyFork_onField ?_ h
        exact mt (hasEmptyFork_not_iff _).mp (not_hasEmptyFork_regex _)
      · cases h
    · exact not_hasEmptyFork_onField (not_hasEmptyFork_compares _) h

-- Only where there are days to choose from are they tested one by one.
theorem not_hasEmptyFork_ofMembership {values : List Value}
    (h : ofMembership condition field values = .ok selector) :
    ¬ selector.toJson.HasEmptyFork := by
  unfold ofMembership at h
  split at h
  · exact not_hasEmptyFork_onField (not_hasEmptyFork_oneOf []) h
  · split at h
    · cases h
    · rename_i days hdays _ _ _
      obtain ⟨name, -, rfl⟩ := Outcome.map_eq_ok.mp h
      rw [toJson, hasEmptyFork_combined_iff (by decide)]
      rintro (hnil | ⟨part, hpart, hfork⟩)
      · exact hdays (List.map_eq_nil_iff.mp hnil)
      · obtain ⟨day, -, rfl⟩ := List.mem_map.mp hpart
        exact not_hasEmptyFork_ofDay _ day ((hasEmptyFork_inField_iff name _).mp hfork)
  · split at h <;> exact not_hasEmptyFork_onField (not_hasEmptyFork_oneOf _) h

theorem not_hasEmptyFork_ofRange {low high : Value}
    (h : ofRange condition field low high = .ok selector) : ¬ selector.toJson.HasEmptyFork := by
  unfold ofRange at h
  split at h
  · cases h
  · split at h
    · refine not_hasEmptyFork_onField ?_ h
      unfold ofDays
      split <;> exact not_hasEmptyFork_compares _
    · exact not_hasEmptyFork_onField (not_hasEmptyFork_compares _) h

theorem not_hasEmptyFork_ofLength {onElement : Bool}
    (h : ofCondition onElement (.isEmpty field .collection) = .ok selector) :
    ¬ selector.toJson.HasEmptyFork := by
  obtain ⟨-, name, -, rfl⟩ := ofCondition_isEmpty_eq_ok h
  rw [toJson, hasEmptyFork_combined_iff (by decide)]
  rintro (hnil | ⟨part, hpart, hfork⟩)
  · cases hnil
  · rw [List.mem_cons, List.mem_singleton] at hpart
    rcases hpart with rfl | rfl
    · cases (hasEmptyFork_inField_iff name missing).mp hfork
    · exact not_hasEmptyFork_size 0 ((hasEmptyFork_inField_iff name (size 0)).mp hfork)

end Leaf

theorem hasEmptyFork_ofParts_iff {conditions : List Condition} {selectors : List Selector}
    (hparts : ∀ part ∈ conditions, ∀ selector, ofCondition false part = .ok selector →
      (selector.toJson.HasEmptyFork ↔ .all [] ∈ part.parts ∨ .any [] ∈ part.parts))
    (h : ofParts conditions = .ok selectors) :
    (selectors = [] ↔ conditions = []) ∧
      ((∃ selector ∈ selectors, selector.toJson.HasEmptyFork) ↔
        .all [] ∈ Condition.partsOf conditions ∨ .any [] ∈ Condition.partsOf conditions) := by
  induction conditions generalizing selectors with
  | nil =>
      cases h
      simp [Condition.partsOf]
  | cons part rest ih =>
      rw [List.forall_mem_cons] at hparts
      obtain ⟨selector, others, hselector, hothers, rfl⟩ := (Outcome.bind_cons_eq_ok id).mp h
      obtain ⟨-, hrest⟩ := ih hparts.2 hothers
      have hfirst := hparts.1 selector hselector
      refine ⟨by simp, ?_⟩
      simp only [id, List.mem_cons, exists_eq_or_imp, hfirst, hrest, Condition.partsOf,
        List.mem_append, or_or_or_comm]

-- A document combines nothing just where a condition has nothing to join.
theorem hasEmptyFork_iff {condition : Condition} {onElement : Bool} {selector : Selector}
    (h : ofCondition onElement condition = .ok selector) :
    selector.toJson.HasEmptyFork ↔
      .all [] ∈ condition.parts ∨ .any [] ∈ condition.parts := by
  induction condition using Condition.treeInduction generalizing onElement selector with
  | all conditions ih =>
      obtain ⟨-, selectors, hselectors, rfl⟩ := ofCondition_all_eq_ok h
      obtain ⟨hnil, hparts⟩ :=
        hasEmptyFork_ofParts_iff (fun part hpart _ => ih part hpart) hselectors
      rw [toJson, hasEmptyFork_combined_iff (by decide), hnil, hparts]
      simp [Condition.parts, or_assoc, eq_comm]
  | any conditions ih =>
      obtain ⟨-, selectors, hselectors, rfl⟩ := ofCondition_any_eq_ok h
      obtain ⟨hnil, hparts⟩ :=
        hasEmptyFork_ofParts_iff (fun part hpart _ => ih part hpart) hselectors
      rw [toJson, hasEmptyFork_combined_iff (by decide), hnil, hparts]
      simp [Condition.parts, or_left_comm, eq_comm]
  | not inner ih =>
      obtain ⟨test, htest, rfl⟩ := Outcome.map_eq_ok.mp h
      have hinner := ih htest
      cases onElement with
      | true => simpa [Condition.parts, hasEmptyFork_not_iff] using hinner
      | false => simpa [Condition.parts, hasEmptyFork_noneOf_iff] using hinner
  | anyElement collection inner ih =>
      obtain ⟨test, htest, hfield⟩ := ofCondition_anyElement_eq_ok h
      rw [hasEmptyFork_onField_iff hfield, hasEmptyFork_elementMatch_iff, ih htest]
      simp [Condition.parts]
  | constant b =>
      rw [ofCondition] at h
      split at h
      · cases h
      · cases h
        refine iff_of_false ?_ (by simp [Condition.parts])
        cases b with
        | true => exact not_hasEmptyFork_texts (by simp)
        | false =>
            rw [if_neg Bool.false_ne_true, toJson, hasEmptyFork_single_iff (.inl (by decide))]
            exact fun h => by cases h
  | compare field op value =>
      exact iff_of_false (not_hasEmptyFork_ofCompare h) (by simp [Condition.parts])
  | oneOf field values =>
      exact iff_of_false (not_hasEmptyFork_ofMembership h) (by simp [Condition.parts])
  | between field low high =>
      exact iff_of_false (not_hasEmptyFork_ofRange h) (by simp [Condition.parts])
  | text field test pattern =>
      refine iff_of_false ?_ (by simp [Condition.parts])
      exact not_hasEmptyFork_onField (not_hasEmptyFork_regex _) h
  | isNull field =>
      refine iff_of_false ?_ (by simp [Condition.parts])
      exact not_hasEmptyFork_onField (not_hasEmptyFork_compares _) h
  | isEmpty field target =>
      refine iff_of_false ?_ (by simp [Condition.parts])
      cases target with
      | text => exact not_hasEmptyFork_onField (not_hasEmptyFork_oneOf _) h
      | collection => exact not_hasEmptyFork_ofLength h
  | custom field name test => cases h

-- Selectors that hold of the same.
def Alike (selector other : Selector) : Prop :=
  ∀ stored, selector.holds stored = other.holds stored

theorem exists_onField_alike {condition : Condition} {field : FieldRef}
    {test test' selector : Selector} (h : onField condition field test = .ok selector)
    (halike : Alike test test') (other : Condition) :
    ∃ selector', onField other field test' = .ok selector' ∧ Alike selector selector' := by
  rcases onField_eq_ok h with ⟨hnil, rfl⟩ | ⟨hne, name, hname, rfl⟩
  · exact ⟨test', by rw [onField, hnil]; rfl, halike⟩
  · refine ⟨inField name test', ?_, fun stored => halike (stored.dotted name)⟩
    have hother : dottedName other field.path = .ok name :=
      dottedName_eq_ok_iff.mpr (dottedName_eq_ok_iff.mp hname)
    rw [onField, if_neg (by simpa [FieldPath.isElement] using hne), hother]
    rfl

-- Nothing is among no values.
theorem holds_ofMembership_nil {condition : Condition} {field : FieldRef} {selector : Selector}
    (h : ofMembership condition field [] = .ok selector) (stored : Stored) :
    selector.holds stored = false := by
  rw [ofMembership_nil] at h
  rcases onField_eq_ok h with ⟨-, rfl⟩ | ⟨-, name, -, rfl⟩ <;> rfl

open Condition (emptyMembership? settleAll)

theorem readsElementAny_settleAll {conditions : List Condition}
    (hparts : ∀ part ∈ conditions, readsElement part = false →
      readsElement (part.settle emptyMembership?) = false)
    (h : readsElementAny conditions = false) :
    readsElementAny (settleAll emptyMembership? conditions) = false := by
  induction conditions with
  | nil => exact h
  | cons part rest ih =>
      rw [List.forall_mem_cons] at hparts
      rw [readsElementAny, Bool.or_eq_false_iff] at h
      rw [settleAll, readsElementAny, hparts.1 h.1, ih hparts.2 h.2]
      rfl

-- A constant reads no element.
theorem readsElement_settle {condition : Condition} (h : readsElement condition = false) :
    readsElement (condition.settle emptyMembership?) = false := by
  induction condition using Condition.treeInduction with
  | all conditions ih => exact readsElementAny_settleAll ih h
  | any conditions ih => exact readsElementAny_settleAll ih h
  | not inner ih => exact ih h
  | oneOf field values =>
      cases values with
      | nil => rfl
      | cons first rest => exact h
  | constant _ | anyElement _ _ | compare _ _ _ | between _ _ _ | text _ _ _ | isNull _
    | isEmpty _ _ | custom _ _ _ => exact h

theorem exists_ofParts_alike {conditions : List Condition} {selectors : List Selector}
    (hparts : ∀ part ∈ conditions, ∀ selector, ofCondition false part = .ok selector →
      ∃ other, ofCondition false (part.settle emptyMembership?) = .ok other ∧ Alike selector other)
    (h : ofParts conditions = .ok selectors) :
    ∃ others, ofParts (settleAll emptyMembership? conditions) = .ok others ∧
      List.Forall₂ Alike selectors others := by
  induction conditions generalizing selectors with
  | nil =>
      cases h
      exact ⟨[], rfl, .nil⟩
  | cons part rest ih =>
      rw [List.forall_mem_cons] at hparts
      obtain ⟨selector, selectors, hselector, hselectors, rfl⟩ := (Outcome.bind_cons_eq_ok id).mp h
      obtain ⟨other, hother, halike⟩ := hparts.1 selector hselector
      obtain ⟨others, hothers, hrest⟩ := ih hparts.2 hselectors
      refine ⟨other :: others, (Outcome.bind_cons_eq_ok id).mpr ?_, .cons halike hrest⟩
      exact ⟨other, others, hother, hothers, rfl⟩

theorem alike_all {selectors others : List Selector} (h : List.Forall₂ Alike selectors others) :
    Alike (all selectors) (all others) := by
  intro stored
  induction h with
  | nil => rfl
  | cons halike _ ih => exact congrArg₂ (· && ·) (halike stored) ih

theorem alike_any {selectors others : List Selector} (h : List.Forall₂ Alike selectors others) :
    Alike (any selectors) (any others) := by
  intro stored
  induction h with
  | nil => rfl
  | cons halike _ ih => exact congrArg₂ (· || ·) (halike stored) ih

-- A membership in no values selects in its place what a constant selects. An element that only it
-- reads is then no longer read.
theorem exists_settled_alike {condition : Condition} {onElement : Bool} {selector : Selector}
    (helement : onElement = true → readsElement condition = true)
    (h : ofCondition onElement condition = .ok selector) :
    ∃ other, ofCondition (onElement && readsElement (condition.settle emptyMembership?))
      (condition.settle emptyMembership?) = .ok other ∧ Alike selector other := by
  induction condition using Condition.treeInduction generalizing onElement selector with
  | all conditions ih =>
      obtain ⟨rfl, selectors, hselectors, rfl⟩ := ofCondition_all_eq_ok h
      obtain ⟨others, hothers, halike⟩ :=
        exists_ofParts_alike (fun part hpart _ => ih part hpart (by simp)) hselectors
      exact ⟨all others, Outcome.map_eq_ok.mpr ⟨others, hothers, rfl⟩, alike_all halike⟩
  | any conditions ih =>
      obtain ⟨rfl, selectors, hselectors, rfl⟩ := ofCondition_any_eq_ok h
      obtain ⟨others, hothers, halike⟩ :=
        exists_ofParts_alike (fun part hpart _ => ih part hpart (by simp)) hselectors
      exact ⟨any others, Outcome.map_eq_ok.mpr ⟨others, hothers, rfl⟩, alike_any halike⟩
  | not inner ih =>
      obtain ⟨test, htest, rfl⟩ := Outcome.map_eq_ok.mp h
      obtain ⟨other, hother, halike⟩ := ih helement htest
      refine ⟨_, Outcome.map_eq_ok.mpr ⟨other, hother, rfl⟩, fun stored => ?_⟩
      have hnot : (!test.holds stored) = !other.holds stored := by rw [halike stored]
      cases onElement <;> cases readsElement (inner.not.settle emptyMembership?) <;> exact hnot
  | anyElement collection inner ih =>
      rw [ofCondition] at h
      split at h
      · cases h
      · rename_i hcollection
        split at h
        · rename_i test htest
          obtain ⟨other, hother, halike⟩ := ih id htest
          have hreads : (readsElement inner && readsElement (inner.settle emptyMembership?)) =
              readsElement (inner.settle emptyMembership?) := by
            cases hinner : readsElement inner with
            | true => rfl
            | false => exact (readsElement_settle hinner).symm
          have hmatch : Alike (elementMatch test) (elementMatch other) := by
            intro stored
            cases stored with
            | array items => exact congrArg items.any (funext halike)
            | _ => rfl
          obtain ⟨selector', hselector', halike'⟩ := exists_onField_alike h hmatch
            (.anyElement collection (inner.settle emptyMembership?))
          refine ⟨selector', ?_, halike'⟩
          change ofCondition _ (.anyElement collection (inner.settle emptyMembership?)) = _
          rw [ofCondition, if_neg hcollection, ← hreads, hother]
          exact hselector'
        · cases h
  | oneOf field values =>
      cases values with
      | nil =>
          refine ⟨nothing, ?_, holds_ofMembership_nil h⟩
          cases onElement <;> rfl
      | cons first rest => exact ⟨selector, h, fun _ => rfl⟩
  | constant b =>
      rw [ofCondition] at h
      split at h
      · cases h
      · rename_i hflag
        rw [Bool.eq_false_iff.mpr hflag]
        exact ⟨selector, h, fun _ => rfl⟩
  | isEmpty field target => cases target <;> exact ⟨selector, h, fun _ => rfl⟩
  | compare _ _ _ | between _ _ _ | text _ _ _ | isNull _ =>
      exact ⟨selector, h, fun _ => rfl⟩
  | custom field name test => cases h

end Selector

end Document

end Sieve

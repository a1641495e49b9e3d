import Mathlib.Data.List.Induction
import Sieve.Document.Query
import Sieve.Proofs.Document.Conversion
import Sieve.Proofs.Document.Json

-- Queries of documents that are asked for one condition after the other.
namespace Sieve

-- The document that asks for nothing.
def Json.isEmptyObject : Json → Bool
  | .object [] => true
  | _ => false

theorem Json.isEmptyObject_iff {json : Json} : json.isEmptyObject = true ↔ json = .object [] := by
  unfold isEmptyObject
  split
  · simp
  · rename_i h
    exact iff_of_false Bool.false_ne_true h

namespace Document

namespace Selector

variable {condition : Condition} {selector test : Selector}

theorem toJson_compares_ne_empty (first : Comparison × Operand)
    (rest : List (Comparison × Operand)) : (compares (first :: rest)).toJson ≠ .object [] := by
  simp [toJson]

theorem toJson_regex_ne_empty (r : Regex) : (regex r).toJson ≠ .object [] := by
  rw [toJson, Regex.toJson]
  split <;> simp

theorem toJson_ofDay_ne_empty (op : Comparison) (day : Date) :
    (ofDay op day).toJson ≠ .object [] := by
  unfold ofDay
  split <;> simp [toJson]

theorem toJson_onField_ne_empty {field : FieldRef} (htest : test.toJson ≠ .object [])
    (h : onField condition field test = .ok selector) : selector.toJson ≠ .object [] := by
  rcases onField_eq_ok h with ⟨-, rfl⟩ | ⟨-, name, -, rfl⟩
  · exact htest
  · simp [toJson]

theorem toJson_ofCompare_ne_empty {field : FieldRef} {op : Comparison} {value : Value}
    (h : ofCompare condition field op value = .ok selector) : selector.toJson ≠ .object [] := by
  unfold ofCompare at h
  split at h
  · exact toJson_onField_ne_empty (toJson_ofDay_ne_empty op _) h
  · split at h
    · split at h
      · exact toJson_onField_ne_empty (toJson_regex_ne_empty _) h
      · exact toJson_onField_ne_empty (by simp [toJson]) h
      · cases h
    · exact toJson_onField_ne_empty (toJson_compares_ne_empty _ _) h

theorem toJson_ofMembership_ne_empty {field : FieldRef} {values : List Value}
    (h : ofMembership condition field values = .ok selector) : selector.toJson ≠ .object [] := by
  unfold ofMembership at h
  split at h
  · exact toJson_onField_ne_empty (by simp [toJson]) h
  · split at h
    · cases h
    · obtain ⟨name, -, rfl⟩ := Outcome.map_eq_ok.mp h
      simp [toJson]
  · split at h <;> exact toJson_onField_ne_empty (by simp [toJson]) h

theorem toJson_ofRange_ne_empty {field : FieldRef} {low high : Value}
    (h : ofRange condition field low high = .ok selector) : selector.toJson ≠ .object [] := by
  unfold ofRange at h
  split at h
  · cases h
  · split at h
    · refine toJson_onField_ne_empty ?_ h
      unfold ofDays
      split <;> exact toJson_compares_ne_empty _ _
    · exact toJson_onField_ne_empty (toJson_compares_ne_empty _ _) h

-- Of what conditions come to only the constant truth is the empty document.
theorem isEverything_eq_isEmptyObject {onElement : Bool}
    (h : ofCondition onElement condition = .ok selector) :
    selector.isEverything = selector.toJson.isEmptyObject := by
  have hne (hne : selector.toJson ≠ .object []) :
      selector.isEverything = selector.toJson.isEmptyObject := by
    rw [Bool.eq_false_iff.mpr (mt Json.isEmptyObject_iff.mp hne)]
    cases selector <;> first | rfl | exact absurd rfl hne
  cases condition with
  | constant b =>
      rw [ofCondition] at h
      split at h
      · cases h
      · cases h
        cases b <;> rfl
  | all parts =>
      obtain ⟨-, selectors, -, rfl⟩ := ofCondition_all_eq_ok h
      rfl
  | any parts =>
      obtain ⟨-, selectors, -, rfl⟩ := ofCondition_any_eq_ok h
      rfl
  | not inner =>
      obtain ⟨test, -, rfl⟩ := Outcome.map_eq_ok.mp h
      cases onElement <;> rfl
  | anyElement collection inner =>
      obtain ⟨test, -, hfield⟩ := ofCondition_anyElement_eq_ok h
      exact hne (toJson_onField_ne_empty (by simp [toJson]) hfield)
  | compare field op value => exact hne (toJson_ofCompare_ne_empty h)
  | oneOf field values => exact hne (toJson_ofMembership_ne_empty h)
  | between field low high => exact hne (toJson_ofRange_ne_empty h)
  | text field test pattern => exact hne (toJson_onField_ne_empty (toJson_regex_ne_empty _) h)
  | isNull field => exact hne (toJson_onField_ne_empty (toJson_compares_ne_empty _ _) h)
  | isEmpty field target =>
      cases target with
      | text => exact hne (toJson_onField_ne_empty (by simp [toJson]) h)
      | collection =>
          obtain ⟨-, name, -, rfl⟩ := ofCondition_isEmpty_eq_ok h
          rfl
  | custom field name test => cases h

end Selector

-- Asks for what both documents ask for.
def joined (left right : Json) : Json :=
  .object [("$and", .array [left, right])]

-- Documents joined from the first on, each with all before it.
def conjoined : List Json → Json
  | [] => .object []
  | first :: rest => rest.foldl joined first

theorem conjoined_concat (documents : List Json) (document : Json) :
    conjoined (documents ++ [document]) =
      if documents = [] then document else joined (conjoined documents) document := by
  cases documents with
  | nil => rfl
  | cons first rest => exact List.foldl_concat ..

example (first second third : Json) :
    conjoined [first, second, third] = joined (joined first second) third := rfl

theorem conjoined_ne_empty {documents : List Json} (hne : documents ≠ [])
    (h : ∀ document ∈ documents, document ≠ .object []) : conjoined documents ≠ .object [] := by
  obtain ⟨before, last, rfl⟩ := (List.eq_nil_or_concat documents).resolve_left hne
  rw [List.concat_eq_append, conjoined_concat]
  split
  · exact h last (by simp)
  · simp [joined]

theorem selects_joined (left right : Json) (stored : Stored) :
    selects (joined left right) stored = (selects left stored && selects right stored) := by
  rw [joined, selects_and, selectsAll, selectsAll, selectsAll, Bool.and_true]

namespace Query

-- The document that a condition comes to, if it has a form in documents.
def document? (condition : Condition) : Option Json :=
  ((Selector.ofCondition false condition).map Selector.toJson).toOption

-- A condition that is refused leaves the query as it was.
def attempt (query : Query) (condition : Condition) : Query :=
  (query.andWhere condition).toOption.getD query

def attempts (query : Query) (conditions : List Condition) : Query :=
  conditions.foldl attempt query

-- The documents among some that ask for something.
def asking (documents : List Json) : List Json :=
  documents.filter fun document => !document.isEmptyObject

-- A query that has been asked for some documents.
structure Conjoins (documents : List Json) (query : Query) : Prop where
  toJson_eq : query.selector.toJson = conjoined (asking documents)
  isEverything : query.selector.isEverything = (asking documents).isEmpty
  selects_eq : ∀ stored,
    selects query.selector.toJson stored = documents.all fun document => selects document stored

namespace Conjoins

variable {documents : List Json} {query : Query} {condition : Condition} {selector : Selector}

theorem new (collection : String) : Conjoins [] (new collection) where
  toJson_eq := rfl
  isEverything := rfl
  selects_eq := fun _ => rfl

theorem asking_concat_of_isEmptyObject {document : Json} (h : document.isEmptyObject = true) :
    asking (documents ++ [document]) = asking documents := by
  simp [asking, h]

theorem asking_concat {document : Json} (h : document.isEmptyObject = false) :
    asking (documents ++ [document]) = asking documents ++ [document] := by
  simp [asking, h]

-- The document of a condition that asks for nothing leaves the query as it is.
theorem skip (h : Conjoins documents query) {document : Json}
    (hdocument : document.isEmptyObject = true) : Conjoins (documents ++ [document]) query where
  toJson_eq := by rw [asking_concat_of_isEmptyObject hdocument, h.toJson_eq]
  isEverything := by rw [asking_concat_of_isEmptyObject hdocument, h.isEverything]
  selects_eq := by
    intro stored
    rw [Json.isEmptyObject_iff.mp hdocument, List.all_append, ← h.selects_eq]
    exact (Bool.and_true _).symm

-- The first document that asks for something takes the place of the one that asks for nothing.
theorem start (h : Conjoins documents query) (hquery : query.selector.isEverything = true)
    (hselector : selector.isEverything = false) (hempty : selector.toJson.isEmptyObject = false) :
    Conjoins (documents ++ [selector.toJson]) { query with selector } := by
  have hnone : asking documents = [] := List.isEmpty_iff.mp (h.isEverything ▸ hquery)
  refine ⟨?_, ?_, fun stored => ?_⟩
  · rw [asking_concat hempty, hnone]
    rfl
  · rw [asking_concat hempty, hselector]
    simp
  · rw [List.all_append, ← h.selects_eq, h.toJson_eq, hnone]
    simp [conjoined, selects, selectsMembers]

-- A further one is joined to those that are there.
theorem join (h : Conjoins documents query) (hquery : query.selector.isEverything = false)
    (hempty : selector.toJson.isEmptyObject = false) :
    Conjoins (documents ++ [selector.toJson])
      { query with selector := .all [query.selector, selector] } := by
  have hsome : asking documents ≠ [] := fun hnil => by simp [h.isEverything, hnil] at hquery
  have hjoined : (Selector.all [query.selector, selector]).toJson =
      joined query.selector.toJson selector.toJson := rfl
  refine ⟨?_, ?_, fun stored => ?_⟩
  · rw [asking_concat hempty, conjoined_concat, if_neg hsome, ← h.toJson_eq, hjoined]
  · simp [asking_concat hempty, Selector.isEverything]
  · rw [hjoined, selects_joined, h.selects_eq, List.all_append]
    simp

-- A query that is asked for one more condition has been asked for its document too, if it has one.
theorem attempt (h : Conjoins documents query) (condition : Condition) :
    Conjoins (documents ++ (document? condition).toList) (query.attempt condition) := by
  rw [Query.attempt, andWhere, document?]
  cases hcondition : Selector.ofCondition false condition with
  | error e =>
      change Conjoins (documents ++ []) query
      rwa [List.append_nil]
  | ok selector =>
      have hempty := Selector.isEverything_eq_isEmptyObject hcondition
      cases hselector : selector.isEverything with
      | true =>
          rw [hselector] at hempty
          simpa [Except.map, Except.toOption, hselector] using h.skip hempty.symm
      | false =>
          rw [hselector] at hempty
          cases hquery : query.selector.isEverything with
          | true =>
              simpa [Except.map, Except.toOption, hselector] using
                h.start hquery hselector hempty.symm
          | false =>
              simpa [Except.map, Except.toOption, hselector] using h.join hquery hempty.symm

theorem attempts (h : Conjoins documents query) (conditions : List Condition) :
    Conjoins (documents ++ conditions.filterMap document?) (query.attempts conditions) := by
  induction conditions using List.reverseRecOn with
  | nil => simpa [Query.attempts] using h
  | append_singleton conditions condition ih =>
      have hlast : [condition].filterMap document? = (document? condition).toList := by
        cases hdocument : document? condition <;> simp [hdocument]
      rw [Query.attempts, List.foldl_concat, List.filterMap_append, ← List.append_assoc, hlast]
      exact ih.attempt condition

end Conjoins

theorem collection_attempt (query : Query) (condition : Condition) :
    (query.attempt condition).collection = query.collection := by
  rw [attempt, andWhere]
  cases Selector.ofCondition false condition with
  | error e => rfl
  | ok selector =>
      simp only [Except.map, Except.toOption, Option.getD_some]
      split <;> rfl

theorem collection_attempts (query : Query) (conditions : List Condition) :
    (query.attempts conditions).collection = query.collection := by
  induction conditions generalizing query with
  | nil => rfl
  | cons condition rest ih => exact (ih _).trans (collection_attempt query condition)

theorem conjoined_asking_eq_empty_iff {documents : List Json} :
    conjoined (asking documents) = .object [] ↔ ∀ document ∈ documents, document = .object [] := by
  have hnone : (∀ document ∈ documents, document = .object []) ↔ asking documents = [] := by
    simp [asking, List.filter_eq_nil_iff, Json.isEmptyObject_iff]
  rw [hnone]
  constructor
  · intro h
    by_contra hne
    refine conjoined_ne_empty hne (fun document hdocument hempty => ?_) h
    have hasks := (List.mem_filter.mp hdocument).2
    rw [Json.isEmptyObject_iff.mpr hempty] at hasks
    cases hasks
  · rintro h
    rw [h]
    rfl

-- However many conditions a query is asked for, one after the other, its document is that of those
-- that have one: the documents that ask for something in order, each joined to all before it. It is
-- empty just where there is none, and it selects what every one of the documents selects.
theorem attempts_conjoin (collection : String) (conditions : List Condition) :
    let query := (new collection).attempts conditions
    let documents := conditions.filterMap document?
    query.collection = collection ∧
      (query.selector.toJson = .object [] ↔ ∀ document ∈ documents, document = .object []) ∧
      query.selector.toJson = conjoined (asking documents) ∧
      ∀ stored, selects query.selector.toJson stored =
        documents.all fun document => selects document stored := by
  intro query documents
  obtain ⟨hjson, -, hselects⟩ := (Conjoins.new collection).attempts conditions
  rw [List.nil_append] at hjson hselects
  refine ⟨collection_attempts _ conditions, ?_, hjson, hselects⟩
  rw [hjson, conjoined_asking_eq_empty_iff]

end Query

end Document

end Sieve

import Sieve.Proofs.Condition.Tests
import Sieve.Proofs.Schema.Conformance

namespace Sieve

variable {catalog : Catalog} {words : List String}

-- A field of scalars of a kind that is read as it is stored. The kind it is tested as accepts
-- theirs; it is reduced to its day if timestamps are tested as dates, and folded only as a text.
structure FieldRef.ReadsScalar (catalog : Catalog) (words : List String) (type : FieldType)
    (field : FieldRef) (kind : Kind) : Prop where
  leads : ∃ nullable, Leads catalog words type field.path (.scalar kind nullable)
  stored : field.coerce = false
  accepts : field.kind.accepts kind = true
  day : field.dayOnly = true ↔ field.kind = .date ∧ kind = .datetime
  text : field.fold = true → field.kind = .string

-- A condition that makes sense of places of a type: its fields lead somewhere on the schema, and
-- its literals are of the kinds that the fields are tested as. An element of a list is never asked
-- whether it is null.
inductive Condition.Fits (catalog : Catalog) (words : List String) :
    FieldType → Condition → Prop where
  | constant {type : FieldType} (b : Bool) : Fits catalog words type (.constant b)
  | all {type : FieldType} {parts : List Condition}
      (h : ∀ part ∈ parts, Fits catalog words type part) : Fits catalog words type (.all parts)
  | any {type : FieldType} {parts : List Condition}
      (h : ∀ part ∈ parts, Fits catalog words type part) : Fits catalog words type (.any parts)
  | not {type : FieldType} {inner : Condition} (h : Fits catalog words type inner) :
      Fits catalog words type (.not inner)
  | compare {type : FieldType} {field : FieldRef} {kind : Kind} {op : Comparison} {value : Value}
      (h : field.ReadsScalar catalog words type kind) (hop : op ≠ .notEqual)
      (hvalue : value.kind = field.kind) : Fits catalog words type (.compare field op value)
  | oneOf {type : FieldType} {field : FieldRef} {kind : Kind} {values : List Value}
      (h : field.ReadsScalar catalog words type kind)
      (hvalues : ∀ value ∈ values, value.kind = field.kind) :
      Fits catalog words type (.oneOf field values)
  | between {type : FieldType} {field : FieldRef} {kind : Kind} {low high : Value}
      (h : field.ReadsScalar catalog words type kind) (hlow : low.kind = field.kind)
      (hhigh : high.kind = field.kind) : Fits catalog words type (.between field low high)
  | text {type : FieldType} {field : FieldRef} {kind : Kind} {test : TextTest} {pattern : String}
      (h : field.ReadsScalar catalog words type kind) :
      Fits catalog words type (.text field test pattern)
  | isNull {type last : FieldType} {field : FieldRef}
      (hpath : Leads catalog words type field.path last) (hne : field.path ≠ [])
      (hstored : field.coerce = false) : Fits catalog words type (.isNull field)
  | isEmptyText {type : FieldType} {field : FieldRef} {kind : Kind}
      (h : field.ReadsScalar catalog words type kind) :
      Fits catalog words type (.isEmpty field .text)
  | isEmptyCollection {type element : FieldType} {field : FieldRef}
      (hpath : Leads catalog words type field.path (.list element))
      (hstored : field.coerce = false) : Fits catalog words type (.isEmpty field .collection)
  | anyElement {type element : FieldType} {collection : FieldRef} {inner : Condition}
      (hpath : Leads catalog words type collection.path (.list element))
      (h : Fits catalog words element inner) :
      Fits catalog words type (.anyElement collection inner)

theorem FieldRef.read_of_stored {field : FieldRef} (h : field.coerce = false) (coercer : Coercer)
    (operator : String) (datum : Datum) :
    field.read coercer operator datum =
      .ok (if field.fold then (datum.walk field.path).foldCase else datum.walk field.path) := by
  simp [FieldRef.read, h, bind, Except.bind, pure, Except.pure]

-- Such a field holds nothing, or a scalar of its kind.
theorem FieldRef.ReadsScalar.walk {type : FieldType} {field : FieldRef} {kind : Kind}
    {datum : Datum} (h : field.ReadsScalar catalog words type kind)
    (hdatum : Holds catalog type datum) :
    datum.walk field.path = .null ∨
      ∃ value, datum.walk field.path = .scalar value ∧ value.kind = kind := by
  obtain ⟨nullable, hpath⟩ := h.leads
  rcases hdatum.walk hpath with hnull | hconforms
  · exact .inl hnull
  · generalize datum.walk field.path = place at hconforms
    cases hconforms with
    | null h => exact .inl rfl
    | scalar hkind => exact .inr ⟨_, rfl, hkind⟩

end Sieve

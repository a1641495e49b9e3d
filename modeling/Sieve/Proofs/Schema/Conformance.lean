import Sieve.Evaluation
import Sieve.Schema

namespace Sieve

-- What a place of a type may hold. Members that are missing count as null, and so only where
-- that is allowed. Of a dynamic place nothing is known.
inductive Conforms (catalog : Catalog) : FieldType → Datum → Prop where
  | null {type : FieldType} (h : type.isNullable = true) : Conforms catalog type .null
  | scalar {kind : Kind} {nullable : Bool} {value : Value} (h : value.kind = kind) :
      Conforms catalog (.scalar kind nullable) (.scalar value)
  | list {element : FieldType} {items : List Datum}
      (h : ∀ item ∈ items, Conforms catalog element item) :
      Conforms catalog (.list element) (.list items)
  | object {schema : Nat} {members indexed : List (String × Datum)}
      (hfields : ∀ name type, (catalog.schema schema).field? name = some type →
        Conforms catalog type ((members.lookup name).getD .null))
      (hindexer : ∀ name type, (catalog.schema schema).indexer = some (name, type) →
        ∀ key datum, indexed.lookup key = some datum → Conforms catalog type datum) :
      Conforms catalog (.object schema) (.record members indexed)
  | map {value : FieldType} {entries : List (String × Datum)}
      (h : ∀ key datum, entries.lookup key = some datum → Conforms catalog value datum) :
      Conforms catalog (.map value) (.map entries)
  | dynamic (datum : Datum) : Conforms catalog .dynamic datum

-- A record conforms if each of its fields does.
theorem Conforms.of_fields {catalog : Catalog} {schema : Nat}
    {members indexed : List (String × Datum)}
    (h : ∀ field ∈ (catalog.schema schema).fields,
      Conforms catalog field.2 ((members.lookup field.1).getD .null))
    (hindexer : (catalog.schema schema).indexer = none) :
    Conforms catalog (.object schema) (.record members indexed) := by
  refine .object (fun name type hfield => ?_) fun name type hindexed => ?_
  · obtain ⟨before, after, hfields, -⟩ := List.lookup_eq_some_iff.mp hfield
    exact h (name, type) (by simp [hfields])
  · rw [hindexer] at hindexed
    cases hindexed

-- What a path of the type comes to: behind something missing all is null.
def Holds (catalog : Catalog) (type : FieldType) (datum : Datum) : Prop :=
  datum = .null ∨ Conforms catalog type datum

-- One step between places, with a name that is among the words of a path text.
inductive StepLeads (catalog : Catalog) (words : List String) :
    FieldType → Step → FieldType → Prop where
  | member {schema : Nat} {name : String} {type : FieldType}
      (h : (catalog.schema schema).field? name = some type) (hname : name ∈ words) :
      StepLeads catalog words (.object schema) (.member name) type
  | key {value : FieldType} {name : String} (hname : name ∈ words) :
      StepLeads catalog words (.map value) (.key name) value
  | index {schema : Nat} {name key : String} {type : FieldType}
      (h : (catalog.schema schema).indexer = some (name, type)) :
      StepLeads catalog words (.object schema) (.index name key) type

inductive Leads (catalog : Catalog) (words : List String) :
    FieldType → FieldPath → FieldType → Prop where
  | here {type : FieldType} : Leads catalog words type [] type
  | there {type next last : FieldType} {step : Step} {path : FieldPath}
      (hstep : StepLeads catalog words type step next)
      (hpath : Leads catalog words next path last) :
      Leads catalog words type (step :: path) last

variable {catalog : Catalog} {words : List String}

theorem Holds.of_lookup {type : FieldType} {found : Option Datum}
    (h : ∀ datum, found = some datum → Conforms catalog type datum) :
    Holds catalog type (found.getD .null) := by
  cases found with
  | none => exact .inl rfl
  | some datum => exact .inr (h datum rfl)

theorem Holds.step {type next : FieldType} {datum : Datum} {step : Step}
    (hstep : StepLeads catalog words type step next) (h : Holds catalog type datum) :
    Holds catalog next (datum.step step) := by
  rcases h with rfl | hconforms
  · exact .inl (by cases step <;> rfl)
  · cases hstep with
    | @member schema name type hfield hname =>
        cases hconforms with
        | null h => exact .inl rfl
        | object hfields hindexer => exact .inr (hfields name next hfield)
    | @key value name hname =>
        cases hconforms with
        | null h => exact .inl rfl
        | map hentries => exact .of_lookup (hentries name)
    | @index schema name key type hindexed =>
        cases hconforms with
        | null h => exact .inl rfl
        | object hfields hindexer => exact .of_lookup (hindexer name next hindexed key)

theorem Holds.walk {type last : FieldType} {datum : Datum} {path : FieldPath}
    (hpath : Leads catalog words type path last) (h : Holds catalog type datum) :
    Holds catalog last (datum.walk path) := by
  induction hpath generalizing datum with
  | here => exact h
  | there hstep hpath ih => exact ih (h.step hstep)

theorem StepLeads.mono {words' : List String} (hwords : words ⊆ words') {type next : FieldType}
    {step : Step} (h : StepLeads catalog words type step next) :
    StepLeads catalog words' type step next := by
  cases h with
  | member hfield hname => exact .member hfield (hwords hname)
  | key hname => exact .key (hwords hname)
  | index hindexer => exact .index hindexer

theorem Leads.mono {words' : List String} (hwords : words ⊆ words') {type last : FieldType}
    {path : FieldPath} (h : Leads catalog words type path last) :
    Leads catalog words' type path last := by
  induction h with
  | here => exact .here
  | there hstep hpath ih => exact .there (hstep.mono hwords) ih

theorem Leads.snoc {type next last : FieldType} {path : FieldPath} {step : Step}
    (hpath : Leads catalog words type path next) (hstep : StepLeads catalog words next step last) :
    Leads catalog words type (path ++ [step]) last := by
  induction hpath with
  | here => exact .there hstep .here
  | there hfirst hpath ih => exact .there hfirst (ih hstep)

end Sieve

import Sieve.Proofs.Condition.Parts
import Sieve.Proofs.Condition.Typing

-- The fields that a condition reads, and the names on the way to them.
namespace Sieve

-- The name that is looked up in one step, be it that of a member or a key of a map.
def Step.name? : Step → Option String
  | member name => some name
  | key name => some name
  | index _ _ => none

def FieldPath.names (path : FieldPath) : List String :=
  path.filterMap Step.name?

-- What a path goes through on a schema are words of its text.
theorem Leads.names_subset {catalog : Catalog} {words : List String} {type last : FieldType}
    {path : FieldPath} (h : Leads catalog words type path last) : path.names ⊆ words := by
  induction h with
  | here => exact List.nil_subset _
  | there hstep _ ih =>
      cases hstep with
      | member hfield hname => exact List.cons_subset.mpr ⟨hname, ih⟩
      | key hname => exact List.cons_subset.mpr ⟨hname, ih⟩
      | index hindexer => exact ih

namespace Condition

-- What a condition reads by itself: the field of a test, or the collection of a quantifier.
def readField? : Condition → Option FieldRef
  | anyElement collection _ => some collection
  | part => part.field?

-- The names on the paths of all fields, also of those that are read from elements.
def pathNames (condition : Condition) : List String :=
  (condition.parts.filterMap readField?).flatMap fun field => field.path.names

mutual

-- The fields that are read from what the condition is asked of, and not from its elements.
def ownFields : Condition → List FieldRef
  | all parts => ownFieldsOf parts
  | any parts => ownFieldsOf parts
  | not inner => inner.ownFields
  | part => part.readField?.toList

def ownFieldsOf : List Condition → List FieldRef
  | [] => []
  | first :: rest => first.ownFields ++ ownFieldsOf rest

end

theorem mem_ownFieldsOf {conditions : List Condition} {field : FieldRef} :
    field ∈ ownFieldsOf conditions ↔
      ∃ condition ∈ conditions, field ∈ condition.ownFields := by
  induction conditions with
  | nil => simp [ownFieldsOf]
  | cons first rest ih => simp [ownFieldsOf, ih]

theorem mem_parts_self (condition : Condition) : condition ∈ condition.parts := by
  cases condition <;> exact .head _

theorem parts_subset_all {conditions : List Condition} {part : Condition}
    (h : part ∈ conditions) : part.parts ⊆ (all conditions).parts :=
  fun _ hinner => .tail _ (mem_partsOf.mpr ⟨part, h, hinner⟩)

theorem parts_subset_any {conditions : List Condition} {part : Condition}
    (h : part ∈ conditions) : part.parts ⊆ (any conditions).parts :=
  fun _ hinner => .tail _ (mem_partsOf.mpr ⟨part, h, hinner⟩)

theorem parts_subset_not (inner : Condition) : inner.parts ⊆ (not inner).parts :=
  List.subset_cons_self _ _

theorem parts_subset_anyElement (collection : FieldRef) (inner : Condition) :
    inner.parts ⊆ (anyElement collection inner).parts :=
  List.subset_cons_self _ _

-- The parts of a part are parts.
theorem parts_subset_of_mem {condition part : Condition} (h : part ∈ condition.parts) :
    part.parts ⊆ condition.parts := by
  induction condition using treeInduction with
  | all conditions ih =>
      rcases List.mem_cons.mp h with rfl | hinner
      · exact List.Subset.refl _
      · obtain ⟨inner, hmem, hpart⟩ := mem_partsOf.mp hinner
        exact List.Subset.trans (ih inner hmem hpart) (parts_subset_all hmem)
  | any conditions ih =>
      rcases List.mem_cons.mp h with rfl | hinner
      · exact List.Subset.refl _
      · obtain ⟨inner, hmem, hpart⟩ := mem_partsOf.mp hinner
        exact List.Subset.trans (ih inner hmem hpart) (parts_subset_any hmem)
  | not inner ih =>
      rcases List.mem_cons.mp h with rfl | hinner
      · exact List.Subset.refl _
      · exact List.Subset.trans (ih hinner) (parts_subset_not inner)
  | anyElement collection inner ih =>
      rcases List.mem_cons.mp h with rfl | hinner
      · exact List.Subset.refl _
      · exact List.Subset.trans (ih hinner) (parts_subset_anyElement collection inner)
  | constant _ | compare _ _ _ | oneOf _ _ | between _ _ _ | text _ _ _ | isNull _ | isEmpty _ _
    | custom _ _ _ =>
      obtain rfl := List.mem_singleton.mp h
      exact List.Subset.refl _

theorem mem_pathNames {condition : Condition} {name : String} :
    name ∈ condition.pathNames ↔ ∃ part ∈ condition.parts, ∃ field,
      part.readField? = some field ∧ name ∈ field.path.names := by
  simp only [pathNames, List.mem_flatMap, List.mem_filterMap]
  constructor
  · rintro ⟨field, ⟨part, hpart, hfield⟩, hname⟩
    exact ⟨part, hpart, field, hfield, hname⟩
  · rintro ⟨part, hpart, field, hfield, hname⟩
    exact ⟨field, ⟨part, hpart, hfield⟩, hname⟩

theorem pathNames_subset {condition other : Condition} (h : condition.parts ⊆ other.parts) :
    condition.pathNames ⊆ other.pathNames := by
  intro name hname
  obtain ⟨part, hpart, hfield⟩ := mem_pathNames.mp hname
  exact mem_pathNames.mpr ⟨part, h hpart, hfield⟩

theorem pathNames_subset_of_readField? {condition : Condition} {field : FieldRef}
    (h : condition.readField? = some field) : field.path.names ⊆ condition.pathNames :=
  fun _ hname => mem_pathNames.mpr ⟨condition, mem_parts_self condition, field, h, hname⟩

-- A condition that makes sense of a schema goes through words of the text of its paths.
theorem Fits.pathNames_subset {catalog : Catalog} {words : List String} {type : FieldType}
    {condition : Condition} (h : condition.Fits catalog words type) :
    condition.pathNames ⊆ words := by
  intro name hname
  obtain ⟨part, hpart, field, hfield, hmem⟩ := mem_pathNames.mp hname
  suffices hleads : ∃ type last, Leads catalog words type field.path last by
    obtain ⟨_, _, hpath⟩ := hleads
    exact hpath.names_subset hmem
  clear hname hmem
  induction h with
  | constant b =>
      obtain rfl := List.mem_singleton.mp hpart
      cases hfield
  | all _ ih | any _ ih =>
      rcases List.mem_cons.mp hpart with rfl | hinner
      · cases hfield
      · obtain ⟨inner, hinner, hpart⟩ := mem_partsOf.mp hinner
        exact ih inner hinner hpart
  | not _ ih =>
      rcases List.mem_cons.mp hpart with rfl | hinner
      · cases hfield
      · exact ih hinner
  | anyElement hpath _ ih =>
      rcases List.mem_cons.mp hpart with rfl | hinner
      · cases hfield
        exact ⟨_, _, hpath⟩
      · exact ih hinner
  | compare h | oneOf h | between h | text h | isEmptyText h =>
      obtain rfl := List.mem_singleton.mp hpart
      cases hfield
      obtain ⟨nullable, hpath⟩ := h.leads
      exact ⟨_, _, hpath⟩
  | isNull hpath | isEmptyCollection hpath =>
      obtain rfl := List.mem_singleton.mp hpart
      cases hfield
      exact ⟨_, _, hpath⟩

end Condition

end Sieve

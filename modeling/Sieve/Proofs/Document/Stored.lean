import Mathlib.Data.List.Basic
import Sieve.Document.Conversion
import Sieve.Proofs.Outcome
import Sieve.Proofs.Schema.Conformance

namespace Sieve

-- A scalar as a store of documents holds it: integers have 64 bits, and a date is its midnight.
def Value.stored : Value → Value
  | .integer n => .long (Int64.ofInt n.toInt)
  | .date d => .datetime (.midnight d)
  | value => value

-- What a store holds: nothing, a scalar, a document with its members, or an array.
inductive Stored where
  | null
  | value (v : Value)
  | document (members : List (String × Stored))
  | array (items : List Stored)

namespace Datum

mutual

-- The stored form of a datum. Records and mappings become documents alike.
def stored : Datum → Stored
  | null => .null
  | scalar value => .value value.stored
  | record members _ => .document (storedMembers members)
  | list items => .array (storedItems items)
  | map entries => .document (storedMembers entries)

def storedItems : List Datum → List Stored
  | [] => []
  | item :: rest => item.stored :: storedItems rest

def storedMembers : List (String × Datum) → List (String × Stored)
  | [] => []
  | (name, datum) :: rest => (name, datum.stored) :: storedMembers rest

end

theorem storedItems_eq_map (items : List Datum) : storedItems items = items.map stored := by
  induction items with
  | nil => rfl
  | cons item rest ih => rw [storedItems, ih, List.map_cons]

theorem lookup_storedMembers (members : List (String × Datum)) (name : String) :
    ((storedMembers members).lookup name).getD .null =
      ((members.lookup name).getD .null).stored := by
  induction members with
  | nil => rfl
  | cons member rest ih =>
      obtain ⟨other, datum⟩ := member
      rw [storedMembers, List.lookup_cons, List.lookup_cons]
      cases name == other with
      | true => rfl
      | false => exact ih

end Datum

namespace Stored

def isNull : Stored → Bool
  | null => true
  | _ => false

-- A member that is missing reads as null, and so does one of anything that has no members.
def member (stored : Stored) (name : String) : Stored :=
  match stored with
  | document members => (members.lookup name).getD null
  | _ => null

def read (stored : Stored) (names : List String) : Stored :=
  names.foldl member stored

-- Reads behind a name with points in it.
def dotted (stored : Stored) (name : String) : Stored :=
  stored.read ((name.toList.splitOn '.').map String.ofList)

end Stored

namespace Document.Selector

variable {catalog : Catalog} {words : List String} {part : Condition} {path : FieldPath}

theorem stored_step {type next : FieldType} {step : Step} {datum : Datum} {name : String}
    (hstep : StepLeads catalog words type step next)
    (hname : step = .member name ∨ step = .key name)
    (h : Holds catalog type datum) :
    (datum.step step).stored = datum.stored.member name := by
  rcases h with rfl | hconforms
  · rcases hname with rfl | rfl <;> rfl
  · cases hconforms with
    | null h => rcases hname with rfl | rfl <;> rfl
    | scalar h => cases hstep
    | list h => cases hstep
    | dynamic datum => cases hstep
    | object hfields hindexer =>
        obtain rfl : step = .member name := by
          rcases hname with rfl | rfl
          · rfl
          · cases hstep
        exact (Datum.lookup_storedMembers _ name).symm
    | map hentries =>
        obtain rfl : step = .key name := by
          rcases hname with rfl | rfl
          · cases hstep
          · rfl
        exact (Datum.lookup_storedMembers _ name).symm

-- The names of a field lead through the stored form as its path does through the record.
theorem read_fieldName {type last : FieldType} {datum : Datum} {names : List String}
    (hnames : fieldName part path = .ok names) (hpath : Leads catalog words type path last)
    (h : Holds catalog type datum) :
    (datum.walk path).stored = datum.stored.read names ∧ names.length = path.length ∧
      names ⊆ words := by
  induction hpath generalizing datum names with
  | here =>
      cases hnames
      exact ⟨rfl, rfl, by simp⟩
  | @there type next last step path hstep hpath ih =>
      have hrest {name : String} (hname : step = .member name ∨ step = .key name)
          (hmem : name ∈ words)
          (hmap : (fieldName part path).map (name :: ·) = .ok names) :
          (datum.walk (step :: path)).stored = datum.stored.read names ∧
            names.length = (step :: path).length ∧ names ⊆ words := by
        obtain ⟨others, hothers, rfl⟩ := Outcome.map_eq_ok.mp hmap
        obtain ⟨hread, hlength, hsubset⟩ := ih hothers (h.step hstep)
        refine ⟨?_, by simp [hlength], List.cons_subset.mpr ⟨hmem, hsubset⟩⟩
        rw [Stored.read, List.foldl_cons, ← stored_step hstep hname h]
        exact hread
      cases hstep with
      | member hfield hmem => exact hrest (.inl rfl) hmem hnames
      | key hmem => exact hrest (.inr rfl) hmem hnames
      | index hindexer => cases hnames

theorem splitOn_intercalate {names : List String} (hne : names ≠ [])
    (hdots : ∀ name ∈ names, '.' ∉ name.toList) :
    ((".".intercalate names).toList.splitOn '.').map String.ofList = names := by
  have hlist : (".".intercalate names).toList = ['.'].intercalate (names.map String.toList) :=
    String.toList_intercalate
  rw [hlist, List.splitOn_intercalate '.' (by simpa using hdots) (by simpa using hne), List.map_map]
  simp

theorem dotted_dottedName {type last : FieldType} {datum : Datum} {name : String}
    (hname : dottedName part path = .ok name) (hne : path ≠ [])
    (hdots : ∀ word ∈ words, '.' ∉ word.toList)
    (hpath : Leads catalog words type path last) (h : Holds catalog type datum) :
    datum.stored.dotted name = (datum.walk path).stored := by
  obtain ⟨names, hnames, rfl⟩ := Outcome.map_eq_ok.mp hname
  obtain ⟨hread, hlength, hsubset⟩ := read_fieldName hnames hpath h
  have hnames : names ≠ [] := by
    rintro rfl
    exact hne (List.length_eq_zero_iff.mp hlength.symm)
  rw [Stored.dotted, splitOn_intercalate hnames fun name hname => hdots name (hsubset hname), hread]

end Document.Selector

end Sieve

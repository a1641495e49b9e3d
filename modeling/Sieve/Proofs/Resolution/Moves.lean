import Sieve.Proofs.Outcome
import Sieve.Resolution

-- What one segment of a path can do.
namespace Sieve.Resolution

-- The step that a segment stands for at a place of a type, the type of the place behind it, whether
-- nothing may lie there, and whether the segment that comes next is used up too.
inductive Move (catalog : Catalog) (segment : String) (next : Option String) :
    FieldType → Step → FieldType → Bool → Bool → Prop where
  | member {schema : Nat} {type : FieldType}
      (hfield : (catalog.schema schema).field? segment = some type) :
      Move catalog segment next (.object schema) (.member segment) type type.isNullable false
  | key {value : FieldType} : Move catalog segment next (.map value) (.key segment) value true false
  | index {schema : Nat} {name : String} {type : FieldType}
      (hfield : (catalog.schema schema).field? segment = none)
      (hindexer : (catalog.schema schema).indexer = some (name, type))
      (hnext : next = none ∨ segment ≠ name) :
      Move catalog segment next (.object schema) (.index name segment) type true false
  | named {schema : Nat} {name key : String} {type : FieldType}
      (hfield : (catalog.schema schema).field? segment = none)
      (hindexer : (catalog.schema schema).indexer = some (name, type))
      (hname : segment = name) (hnext : next = some key) :
      Move catalog segment next (.object schema) (.index name key) type true true

variable {catalog : Catalog} {settings : Settings} {field segment : String} {next : Option String}
  {w w' : Walk} {used : Bool}

theorem indexer?_eq_ok {schema : Schema} {name : String} {type : FieldType}
    (h : indexer? settings field segment schema = .ok (name, type)) :
    schema.indexer = some (name, type) := by
  unfold indexer? at h
  cases hindexer : schema.indexer with
  | none => simp [hindexer] at h
  | some entry =>
      simp only [hindexer] at h
      split at h
      · cases h
      · split at h
        · cases h
        · cases h
          rfl

-- A walk goes on by one step, from an element where a list is reached.
theorem advance_eq_ok (h : advance catalog settings field segment next w = .ok (w', used)) :
    ∃ step type missing, Move catalog segment next (w.enter w.type).type step type missing used ∧
      w' = (w.enter w.type).take step type missing := by
  unfold advance at h
  generalize w.enter w.type = entered at h ⊢
  dsimp only at h
  split at h
  · rename_i schema htype
    rw [htype]
    split at h
    · rename_i type hfield
      cases h
      exact ⟨_, _, _, .member hfield, rfl⟩
    · rename_i hfield
      obtain ⟨⟨name, type⟩, hindexer, hrest⟩ := Outcome.bind_eq_ok.mp h
      have hindexer := indexer?_eq_ok hindexer
      cases next with
      | none =>
          cases hrest
          exact ⟨_, _, _, .index hfield hindexer (.inl rfl), rfl⟩
      | some key =>
          dsimp only at hrest
          by_cases hname : segment = name
          · rw [if_pos (beq_iff_eq.mpr hname)] at hrest
            cases hrest
            exact ⟨_, _, _, .named hfield hindexer hname rfl, rfl⟩
          · rw [if_neg (by simpa using hname)] at hrest
            cases hrest
            exact ⟨_, _, _, .index hfield hindexer (.inr hname), rfl⟩
  · rename_i value htype
    rw [htype]
    cases h
    exact ⟨_, _, _, .key, rfl⟩
  · cases h

-- What holds at the start of a walk and is kept by each step, with the segments that are left, holds
-- at its end.
theorem walk_induction {motive : List String → Walk → Prop}
    (hadvance : ∀ {segment : String} {rest : List String} {w w' : Walk} {used : Bool},
      advance catalog settings field segment rest.head? w = .ok (w', used) →
        motive (segment :: rest) w → motive (if used then rest.tail else rest) w')
    {segments : List String} (h : walk catalog settings field segments used w = .ok w')
    (hw : motive (if used then segments.tail else segments) w) : motive [] w' := by
  induction segments generalizing used w with
  | nil =>
      cases h
      simpa using hw
  | cons segment rest ih =>
      cases used with
      | true => exact ih h hw
      | false =>
          rw [walk] at h
          split at h
          · rename_i next used hnext
            exact ih h (hadvance hnext hw)
          · cases h

end Sieve.Resolution

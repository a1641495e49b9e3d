import Sieve.Json.Fields
import Sieve.Proofs.Json.Value

-- The members of an object as the fields of a record.
namespace Sieve.Json

variable {names : List String} {filed : List (Nat × Source)}

-- The member for a field, if it is filled.
def member (name : String) (json : Option Json) : List (String × Json) :=
  (json.map fun json => (name, json)).toList

theorem mem_memberNumbers_member {name : String} {json : Option Json} {n : Number} :
    n ∈ memberNumbers (member name json) ↔ ∃ value ∈ json, n ∈ value.numbers := by
  cases json <;> simp [member, memberNumbers]

-- What is filed for a field, if it is filled.
def filedAs (place : Nat) (json : Option Json) : List (Nat × Source) :=
  (json.map fun json => (place, json.source)).toList

theorem lookup_filedAs (place other : Nat) (json : Option Json) (filed : List (Nat × Source)) :
    (filedAs place json ++ filed).lookup other =
      if other = place then (json.map source).or (filed.lookup other) else filed.lookup other := by
  cases json with
  | none => simp [filedAs]
  | some json =>
      by_cases h : other = place
      · simp [filedAs, h]
      · simp [filedAs, List.lookup_cons, h, beq_false_of_ne h]

-- A field that nothing was filed for yet is filed next.
theorem fileMembers?_member {name : String} {place : Nat} (hplace : placeOf? names name = some place)
    (hfresh : filed.lookup place = none) (json : Option Json) (members : List (String × Json)) :
    fileMembers? names filed (memberSources (member name json ++ members)) =
      fileMembers? names (filedAs place json ++ filed) (memberSources members) := by
  cases json with
  | none => rfl
  | some json => simp [member, filedAs, memberSources, fileMembers?, hplace, hfresh]

theorem sound_fileMembers? {members : List (Option String × Source)} {fields : List (Nat × Source)}
    (hmembers : ∀ member ∈ members, member.2.Sound) (hfiled : ∀ field ∈ filed, field.2.Sound)
    (h : fileMembers? names filed members = some fields) : ∀ field ∈ fields, field.2.Sound := by
  induction members generalizing filed with
  | nil =>
      obtain rfl := Option.some.inj h
      exact hfiled
  | cons member members ih =>
      obtain ⟨hmember, hrest⟩ := List.forall_mem_cons.mp hmembers
      rw [fileMembers?] at h
      obtain ⟨name, -, hnamed⟩ := Option.bind_eq_some_iff.mp h
      split at hnamed
      · exact ih hrest hfiled hnamed
      · split at hnamed
        · cases hnamed
        · exact ih hrest (List.forall_mem_cons.mpr ⟨hmember, hfiled⟩) hnamed

-- The fields of a sound source are sound.
theorem Source.Sound.lookup_fields? {source field : Source} (hsound : source.Sound)
    {fields : List (Nat × Source)} (h : source.fields? names = some fields) {place : Nat}
    (hfield : fields.lookup place = some field) : field.Sound := by
  have hmem : (place, field) ∈ fields := by
    obtain ⟨before, behind, rfl, -⟩ := List.lookup_eq_some_iff.mp hfield
    exact List.mem_append_right _ List.mem_cons_self
  cases hsound with
  | object members hmembers => exact sound_fileMembers? hmembers (by simp) h _ hmem
  | array items hitems =>
      rw [Source.fields?] at h
      split at h
      · obtain rfl := Option.some.inj h
        exact hitems field (List.of_mem_zip hmem).2
      · cases h
  | null => cases h
  | bool b => cases h
  | number n hn => cases h
  | string s => cases h

end Sieve.Json

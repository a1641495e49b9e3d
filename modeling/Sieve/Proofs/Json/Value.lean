import Mathlib.Data.List.Basic
import Mathlib.Data.String.Basic
import Sieve.Json.Source
import Sieve.Proofs.Json.Number

namespace Sieve.Json

-- A property of values that an array or an object has once what it holds has it.
@[elab_as_elim]
theorem valueInduction {motive : Json → Prop} (null : motive .null) (bool : ∀ b, motive (.bool b))
    (number : ∀ n, motive (.number n)) (string : ∀ s, motive (.string s))
    (array : ∀ items, (∀ item ∈ items, motive item) → motive (.array items))
    (object : ∀ members, (∀ member ∈ members, motive member.2) → motive (.object members))
    (json : Json) : motive json := by
  refine @Json.rec motive (fun items => ∀ item ∈ items, motive item)
    (fun members => ∀ member ∈ members, motive member.2) (fun member => motive member.2)
    null bool number string array object ?_ ?_ ?_ ?_ ?_ json
  · intro item hitem
    cases hitem
  · intro head tail hhead htail item hitem
    cases hitem with
    | head => exact hhead
    | tail _ hmem => exact htail item hmem
  · intro member hmember
    cases hmember
  · intro head tail hhead htail member hmember
    cases hmember with
    | head => exact hhead
    | tail _ hmem => exact htail member hmem
  · intro name value hvalue
    exact hvalue

mutual

-- The numbers of a value, as often as they occur.
def numbers : Json → List Number
  | .number n => [n]
  | .array items => itemNumbers items
  | .object members => memberNumbers members
  | _ => []

def itemNumbers : List Json → List Number
  | [] => []
  | item :: rest => item.numbers ++ itemNumbers rest

def memberNumbers : List (String × Json) → List Number
  | [] => []
  | (_, value) :: rest => value.numbers ++ memberNumbers rest

end

theorem mem_itemNumbers {items : List Json} {n : Number} :
    n ∈ itemNumbers items ↔ ∃ item ∈ items, n ∈ item.numbers := by
  induction items with
  | nil => simp [itemNumbers]
  | cons item items ih => simp [itemNumbers, ih]

theorem mem_memberNumbers {members : List (String × Json)} {n : Number} :
    n ∈ memberNumbers members ↔ ∃ member ∈ members, n ∈ member.2.numbers := by
  induction members with
  | nil => simp [memberNumbers]
  | cons member members ih => simp [memberNumbers, ih]

theorem memberNumbers_append (front back : List (String × Json)) :
    memberNumbers (front ++ back) = memberNumbers front ++ memberNumbers back := by
  induction front with
  | nil => rfl
  | cons member front ih => rw [List.cons_append, memberNumbers, memberNumbers, ih, List.append_assoc]

-- Whether all the numbers that a source gives are sound.
inductive Source.Sound : Source → Prop where
  | null : Sound .null
  | bool (b : Bool) : Sound (.bool b)
  | number (n : Option Number) (h : ∀ m ∈ n, m.Sound) : Sound (.number n)
  | string (s : Option String) : Sound (.string s)
  | array (items : List Source) (h : ∀ item ∈ items, item.Sound) : Sound (.array items)
  | object (members : List (Option String × Source)) (h : ∀ member ∈ members, member.2.Sound) :
      Sound (.object members)

-- Members in the order of their names

variable {name : String} {value : Json} {members : List (String × Json)}

-- Whether members stand in the order of their names, each name once.
def Ordered (members : List (String × Json)) : Prop :=
  members.Pairwise fun a b => a.1 < b.1

theorem mem_insertMember {member : String × Json} (h : member ∈ insertMember name value members) :
    member = (name, value) ∨ member ∈ members := by
  induction members with
  | nil => exact .inl (List.mem_singleton.mp h)
  | cons held members ih =>
      rw [insertMember] at h
      split at h
      · exact List.mem_cons.mp h
      · split at h
        · rcases List.mem_cons.mp h with hnew | hold
          · exact .inl hnew
          · exact .inr (List.mem_cons_of_mem _ hold)
        · rcases List.mem_cons.mp h with hheld | hrest
          · exact .inr (hheld ▸ List.mem_cons_self)
          · exact (ih hrest).imp_right (List.mem_cons_of_mem _)

theorem Ordered.insertMember (h : Ordered members) (name : String) (value : Json) :
    Ordered (insertMember name value members) := by
  induction members with
  | nil => exact List.pairwise_singleton _ _
  | cons held members ih =>
      obtain ⟨hheld, hrest⟩ := List.pairwise_cons.mp h
      rw [Json.insertMember]
      split
      · rename_i hlt
        refine List.pairwise_cons.mpr ⟨?_, h⟩
        intro other hother
        rcases List.mem_cons.mp hother with rfl | hmem
        · exact hlt
        · exact lt_trans hlt (hheld other hmem)
      · split
        · rename_i heq
          exact List.pairwise_cons.mpr ⟨fun other hother => heq ▸ hheld other hother, hrest⟩
        · rename_i hlt hne
          refine List.pairwise_cons.mpr ⟨?_, ih hrest⟩
          intro other hother
          rcases mem_insertMember hother with rfl | hmem
          · exact lt_of_le_of_ne (not_lt.mp hlt) (Ne.symm hne)
          · exact hheld other hmem

theorem insertMember_last (h : ∀ held ∈ members, held.1 < name) :
    insertMember name value members = members ++ [(name, value)] := by
  induction members with
  | nil => rfl
  | cons held members ih =>
      obtain ⟨hheld, hrest⟩ := List.forall_mem_cons.mp h
      rw [insertMember, if_neg (lt_asymm hheld), if_neg (ne_of_gt hheld), ih hrest]
      rfl

theorem ofMembers_of_ordered (h : Ordered members) : ofMembers members = .object members := by
  have hfold (sorted : List (String × Json)) (hsorted : Ordered (sorted ++ members)) :
      members.foldl (fun sorted member => insertMember member.1 member.2 sorted) sorted =
        sorted ++ members := by
    induction members generalizing sorted with
    | nil => simp
    | cons member members ih =>
        have hless : ∀ held ∈ sorted, held.1 < member.1 := by
          intro held hheld
          exact (List.pairwise_append.mp hsorted).2.2 held hheld member List.mem_cons_self
        rw [List.foldl_cons, insertMember_last hless]
        have hnext : Ordered ((sorted ++ [(member.1, member.2)]) ++ members) := by
          simpa using hsorted
        rw [ih (List.pairwise_cons.mp h).2 _ hnext]
        simp
  rw [ofMembers, hfold [] h]
  rfl

theorem ofMembers_eq (pairs : List (String × Json)) :
    ∃ members, ofMembers pairs = .object members ∧ Ordered members ∧
      ∀ member ∈ members, member ∈ pairs := by
  have hfold (sorted : List (String × Json)) (hsorted : Ordered sorted) :
      Ordered (pairs.foldl (fun sorted member => insertMember member.1 member.2 sorted) sorted) ∧
      ∀ member ∈ pairs.foldl (fun sorted member => insertMember member.1 member.2 sorted) sorted,
        member ∈ sorted ∨ member ∈ pairs := by
    induction pairs generalizing sorted with
    | nil => exact ⟨hsorted, fun member hmember => .inl hmember⟩
    | cons pair pairs ih =>
        obtain ⟨hordered, hmem⟩ := ih _ (hsorted.insertMember pair.1 pair.2)
        refine ⟨hordered, fun member hmember => ?_⟩
        rcases hmem member hmember with hinserted | hpairs
        · rcases mem_insertMember hinserted with rfl | hold
          · exact .inr List.mem_cons_self
          · exact .inl hold
        · exact .inr (List.mem_cons_of_mem _ hpairs)
  obtain ⟨hordered, hmem⟩ := hfold [] List.Pairwise.nil
  exact ⟨_, rfl, hordered, fun member hmember => (hmem member hmember).resolve_left (by simp)⟩

-- What a text can be read as

-- A value in which arrays and objects are nested at most so deep, with sound numbers and ordered
-- members.
inductive Settled : Nat → Json → Prop where
  | null (depth : Nat) : Settled depth .null
  | bool (depth : Nat) (b : Bool) : Settled depth (.bool b)
  | number (depth : Nat) {n : Number} (h : n.Sound) : Settled depth (.number n)
  | string (depth : Nat) (s : String) : Settled depth (.string s)
  | array {depth : Nat} {items : List Json} (h : ∀ item ∈ items, Settled depth item) :
      Settled (depth + 1) (.array items)
  | object {depth : Nat} {members : List (String × Json)} (hordered : Ordered members)
      (h : ∀ member ∈ members, Settled depth member.2) : Settled (depth + 1) (.object members)

theorem Settled.sound {depth : Nat} {json : Json} (h : Settled depth json) :
    ∀ n ∈ json.numbers, n.Sound := by
  induction h with
  | null depth => simp [numbers]
  | bool depth b => simp [numbers]
  | string depth s => simp [numbers]
  | number depth hsound => simpa [numbers] using hsound
  | array _ ih =>
      intro n hn
      obtain ⟨item, hitem, hmem⟩ := mem_itemNumbers.mp hn
      exact ih item hitem n hmem
  | object _ _ ih =>
      intro n hn
      obtain ⟨member, hmember, hmem⟩ := mem_memberNumbers.mp hn
      exact ih member hmember n hmem

-- Lists that are read item by item

section

variable {α β : Type}

theorem exists_of_mapM {read : α → Option β} {items : List α} {values : List β}
    (h : items.mapM read = some values) {value : β} (hvalue : value ∈ values) :
    ∃ item ∈ items, read item = some value := by
  induction items generalizing values with
  | nil =>
      obtain rfl := Option.some.inj h
      cases hvalue
  | cons item items ih =>
      rw [List.mapM_cons] at h
      obtain ⟨first, hfirst, hrest⟩ := Option.bind_eq_some_iff.mp h
      obtain ⟨others, hothers, hresult⟩ := Option.bind_eq_some_iff.mp hrest
      obtain rfl := Option.some.inj hresult
      cases hvalue with
      | head => exact ⟨item, List.mem_cons_self, hfirst⟩
      | tail _ hmem =>
          obtain ⟨other, hother, heq⟩ := ih hothers hmem
          exact ⟨other, List.mem_cons_of_mem _ hother, heq⟩

theorem mapM_map_eq_some {write : α → β} {read : β → Option α} {items : List α}
    (h : ∀ item ∈ items, read (write item) = some item) :
    (items.map write).mapM read = some items := by
  induction items with
  | nil => rfl
  | cons item items ih =>
      obtain ⟨hitem, hitems⟩ := List.forall_mem_cons.mp h
      rw [List.map_cons, List.mapM_cons, hitem, ih hitems]
      rfl

end

theorem sources_eq_map (items : List Json) : sources items = items.map source := by
  induction items with
  | nil => rfl
  | cons item items ih => rw [sources, ih, List.map_cons]

theorem memberSources_eq_map (members : List (String × Json)) :
    memberSources members = members.map fun member => (some member.1, member.2.source) := by
  induction members with
  | nil => rfl
  | cons member members ih => rw [memberSources, ih, List.map_cons]

theorem values?_eq_mapM (depth : Nat) (items : List Source) :
    Source.values? depth items = items.mapM fun item => item.value? depth := by
  induction items with
  | nil => cases depth <;> rfl
  | cons item items ih => rw [Source.values?, ih, List.mapM_cons]

-- The value of a member, under its name.
def memberValue? (depth : Nat) (member : Option String × Source) : Option (String × Json) :=
  member.1.bind fun name => (member.2.value? depth).map fun value => (name, value)

theorem memberValues?_eq_mapM (depth : Nat) (members : List (Option String × Source)) :
    Source.memberValues? depth members = members.mapM (memberValue? depth) := by
  induction members with
  | nil => cases depth <;> rfl
  | cons member members ih =>
      obtain ⟨name, item⟩ := member
      rw [Source.memberValues?, ih, List.mapM_cons, memberValue?]
      rcases name with _ | name
      · rfl
      · cases item.value? depth <;> simp

-- The value of a sound source is settled.
theorem settled_of_value? {source : Source} (hsound : source.Sound) {depth : Nat} {json : Json}
    (h : source.value? depth = some json) : Settled depth json := by
  induction hsound generalizing depth json with
  | null =>
      cases h
      exact .null depth
  | bool b =>
      cases h
      exact .bool depth b
  | number n hn =>
      obtain ⟨m, hm, rfl⟩ := Option.map_eq_some_iff.mp h
      exact .number depth (hn m hm)
  | string s =>
      obtain ⟨text, -, rfl⟩ := Option.map_eq_some_iff.mp h
      exact .string depth text
  | array items _ ih =>
      cases depth with
      | zero => cases h
      | succ depth =>
          obtain ⟨values, hvalues, rfl⟩ := Option.map_eq_some_iff.mp h
          rw [values?_eq_mapM] at hvalues
          refine .array fun value hvalue => ?_
          obtain ⟨item, hitem, heq⟩ := exists_of_mapM hvalues hvalue
          exact ih item hitem heq
  | object members _ ih =>
      cases depth with
      | zero => cases h
      | succ depth =>
          obtain ⟨pairs, hpairs, rfl⟩ := Option.map_eq_some_iff.mp h
          rw [memberValues?_eq_mapM] at hpairs
          obtain ⟨sorted, hsorted, hordered, hmem⟩ := ofMembers_eq pairs
          rw [hsorted]
          refine .object hordered fun member hmember => ?_
          obtain ⟨item, hitem, heq⟩ := exists_of_mapM hpairs (hmem member hmember)
          obtain ⟨name, -, hnamed⟩ := Option.bind_eq_some_iff.mp heq
          obtain ⟨value, hvalue, rfl⟩ := Option.map_eq_some_iff.mp hnamed
          exact ih item hitem hvalue

-- What a settled value says is that value.
theorem Settled.value?_source {depth : Nat} {json : Json} (h : Settled depth json) :
    json.source.value? depth = some json := by
  induction h with
  | null depth => cases depth <;> rfl
  | bool depth b => cases depth <;> rfl
  | number depth hsound => cases depth <;> rfl
  | string depth s => cases depth <;> rfl
  | array _ ih =>
      rw [source, Source.value?, values?_eq_mapM, sources_eq_map, mapM_map_eq_some ih]
      rfl
  | @object depth members hordered _ ih =>
      have hmembers : ∀ member ∈ members,
          memberValue? depth (some member.1, member.2.source) = some member := by
        intro member hmember
        rw [memberValue?, Option.bind_some, ih member hmember]
        rfl
      rw [source, Source.value?, memberValues?_eq_mapM, memberSources_eq_map,
        mapM_map_eq_some hmembers, Option.map_some, ofMembers_of_ordered hordered]

end Sieve.Json

import Sieve.Proofs.Document.Places

-- Which keys stand where in the document of a condition.
namespace Sieve.Document

-- The members of an object that stands somewhere in a text.
inductive Inside (members : List (String × Json)) : Json → Prop where
  | here : Inside members (.object members)
  | member {others : List (String × Json)} {key : String} {json : Json}
      (hmember : (key, json) ∈ others) (h : Inside members json) :
      Inside members (.object others)
  | item {items : List Json} {json : Json} (hitem : json ∈ items) (h : Inside members json) :
      Inside members (.array items)

-- Operators with a literal, literals, a text or a number behind them.
def plainOperatorKeys : List String :=
  ["$eq", "$ne", "$gt", "$gte", "$lt", "$lte", "$in", "$regex", "$options", "$size"]

def operatorKeys : List String := "$not" :: "$elemMatch" :: plainOperatorKeys

def combinationKeys : List String := ["$and", "$or", "$nor"]

def IsFieldName (key : String) : Prop :=
  key.toList.head? ≠ some '$'

instance (key : String) : Decidable (IsFieldName key) :=
  inferInstanceAs (Decidable (key.toList.head? ≠ some '$'))

-- Keys of a document that is asked of a whole record or element.
def IsWholeKey (key : String) : Prop :=
  IsFieldName key ∨ key ∈ combinationKeys ∨ key = "$expr"

-- The keys of a document in its place.
def IsKey : Bool → String → Prop
  | true, key => key ∈ operatorKeys
  | false, key => IsWholeKey key

-- An object with no other keys.
def HoldsOnly (allowed : String → Prop) (json : Json) : Prop :=
  ∃ members, json = .object members ∧ ∀ member ∈ members, allowed member.1

-- The documents of a condition and of the predicates in it are in scope: what is asked of a field or
-- of scalar elements are operators, and what is asked of a record or of record elements are fields
-- and combinations. Elements are asked as scalars by a predicate that reads the element itself.
structure WellScoped (condition : Condition) (document : Json) : Prop where
  whole : HoldsOnly IsWholeKey document
  unmixed : ∀ members, Inside members document → ∀ member ∈ members, ∀ other ∈ members,
    member.1 ∈ operatorKeys → ¬IsWholeKey other.1
  ofField : ∀ members, Inside members document → ∀ name operand, (name, operand) ∈ members →
    IsFieldName name → operand = .null ∨ HoldsOnly (· ∈ operatorKeys) operand
  ofNegation : ∀ members, Inside members document → ∀ operand, ("$not", operand) ∈ members →
    HoldsOnly (· ∈ operatorKeys) operand
  ofCombination : ∀ members, Inside members document → ∀ key operand, (key, operand) ∈ members →
    key ∈ combinationKeys →
      ∃ documents, operand = .array documents ∧ ∀ inner ∈ documents, HoldsOnly IsWholeKey inner
  ofElements : ∀ members, Inside members document → ∀ body, ("$elemMatch", body) ∈ members →
    ∃ collection inner test, .anyElement collection inner ∈ condition.parts ∧
      Selector.ofCondition (Selector.readsElement inner) inner = .ok test ∧ body = test.toJson ∧
      ((∃ field ∈ inner.ownFields, field.path = []) → HoldsOnly (· ∈ operatorKeys) body) ∧
      ((∀ field ∈ inner.ownFields, field.path ≠ []) → HoldsOnly IsWholeKey body)

theorem not_isWholeKey_of_mem_operatorKeys {key : String} (h : key ∈ operatorKeys) :
    ¬IsWholeKey key := by
  have hnone : ∀ key ∈ operatorKeys,
      ¬IsFieldName key ∧ key ∉ combinationKeys ∧ key ≠ "$expr" := by
    decide
  obtain ⟨hfield, hcombination, hexpr⟩ := hnone key h
  rintro (hname | hkey | hkey)
  · exact hfield hname
  · exact hcombination hkey
  · exact hexpr hkey

namespace Selector

-- What a selector asks of elements somewhere.
inductive Asks : Selector → Selector → Prop where
  | here {body : Selector} : Asks (elementMatch body) body
  | all {parts : List Selector} {part body : Selector} (hpart : part ∈ parts)
      (h : Asks part body) : Asks (all parts) body
  | any {parts : List Selector} {part body : Selector} (hpart : part ∈ parts)
      (h : Asks part body) : Asks (any parts) body
  | noneOf {part body : Selector} (h : Asks part body) : Asks (noneOf part) body
  | inField {name : String} {test body : Selector} (h : Asks test body) :
      Asks (inField name test) body
  | not {test body : Selector} (h : Asks test body) : Asks (not test) body
  | elementMatch {test body : Selector} (h : Asks test body) : Asks (elementMatch test) body

end Selector

-- The objects in the document of a selector by what they are for.
inductive Formed (selector : Selector) : List (String × Json) → Prop where
  | everything : Formed selector []
  | constant (b : Bool) : Formed selector [("$expr", .bool b)]
  | combination {key : String} {documents : List Json} (hkey : key ∈ combinationKeys)
      (h : ∀ inner ∈ documents, HoldsOnly IsWholeKey inner) :
      Formed selector [(key, .array documents)]
  | field {name : String} {operand : Json} (hname : IsFieldName name)
      (h : operand = .null ∨ HoldsOnly (· ∈ operatorKeys) operand) :
      Formed selector [(name, operand)]
  | negation {test : Json} (h : HoldsOnly (· ∈ operatorKeys) test) :
      Formed selector [("$not", test)]
  | elements {body : Selector} (h : selector.Asks body) :
      Formed selector [("$elemMatch", body.toJson)]
  | operands {members : List (String × Json)}
      (h : ∀ member ∈ members, member.1 ∈ plainOperatorKeys) : Formed selector members
  | literal {key text : String} (hkey : key = "$date" ∨ key = "$uuid") :
      Formed selector [(key, .string text)]

theorem comparisonKey_mem (op : Comparison) : comparisonKey op ∈ plainOperatorKeys := by
  cases op <;> decide

theorem mem_operatorKeys_of_plain {key : String} (h : key ∈ plainOperatorKeys) :
    key ∈ operatorKeys :=
  .tail _ (.tail _ h)

-- A regular expression is an object of operators on texts.
theorem Regex.exists_members (r : Regex) :
    ∃ members, r.toJson = .object members ∧
      ∀ member ∈ members, member.1 ∈ plainOperatorKeys ∧ ∃ text, member.2 = .string text := by
  have hregex : "$regex" ∈ plainOperatorKeys := by decide
  have hoptions : "$options" ∈ plainOperatorKeys := by decide
  rw [toJson]
  split
  · refine ⟨_, rfl, List.forall_mem_cons.mpr ⟨⟨hoptions, _, rfl⟩, ?_⟩⟩
    exact List.forall_mem_singleton.mpr ⟨hregex, _, rfl⟩
  · exact ⟨_, rfl, List.forall_mem_singleton.mpr ⟨hregex, _, rfl⟩⟩

namespace Inside

variable {members : List (String × Json)} {key : String} {json : Json}

theorem singleton (h : Inside members (.object [(key, json)])) :
    members = [(key, json)] ∨ Inside members json := by
  cases h with
  | here => exact .inl rfl
  | member hmember h =>
      cases List.mem_singleton.mp hmember
      exact .inr h

theorem parts {parts : List Selector} (h : Inside members (.array (Selector.toJsonParts parts))) :
    ∃ part ∈ parts, Inside members part.toJson := by
  cases h with
  | item hitem h =>
      induction parts with
      | nil => cases hitem
      | cons first rest ih =>
          rcases List.mem_cons.mp hitem with rfl | hrest
          · exact ⟨first, .head _, h⟩
          · obtain ⟨part, hpart, h⟩ := ih hrest
            exact ⟨part, .tail _ hpart, h⟩

end Inside

namespace Formed

variable {selector : Selector} {members : List (String × Json)}

theorem mono {other : Selector} (hbody : ∀ body, other.Asks body → selector.Asks body)
    (h : Formed other members) : Formed selector members := by
  cases h with
  | everything => exact .everything
  | constant b => exact .constant b
  | combination hkey h => exact .combination hkey h
  | field hname h => exact .field hname h
  | negation h => exact .negation h
  | elements h => exact .elements (hbody _ h)
  | operands h => exact .operands h
  | literal hkey => exact .literal hkey

-- Keys that no document stands behind.
private def leafKeys : List String := "$expr" :: "$date" :: "$uuid" :: plainOperatorKeys

private theorem distinct_of_mem_leafKeys {key : String} (h : key ∈ leafKeys) :
    ¬IsFieldName key ∧ key ∉ combinationKeys ∧ key ≠ "$not" ∧ key ≠ "$elemMatch" := by
  have hall : ∀ key ∈ leafKeys,
      ¬IsFieldName key ∧ key ∉ combinationKeys ∧ key ≠ "$not" ∧ key ≠ "$elemMatch" := by
    decide
  exact hall key h

private theorem distinct_of_mem_combinationKeys {key : String} (h : key ∈ combinationKeys) :
    ¬IsFieldName key ∧ key ≠ "$not" ∧ key ≠ "$elemMatch" := by
  have hall : ∀ key ∈ combinationKeys,
      ¬IsFieldName key ∧ key ≠ "$not" ∧ key ≠ "$elemMatch" := by
    decide
  exact hall key h

-- What stands behind a key.
private theorem placed {key : String} {operand : Json} (h : Formed selector members)
    (hmember : (key, operand) ∈ members) :
    (IsFieldName key ∧ (operand = .null ∨ HoldsOnly (· ∈ operatorKeys) operand)) ∨
    (key ∈ combinationKeys ∧
      ∃ documents, operand = .array documents ∧ ∀ inner ∈ documents, HoldsOnly IsWholeKey inner) ∨
    (key = "$not" ∧ HoldsOnly (· ∈ operatorKeys) operand) ∨
    (key = "$elemMatch" ∧ ∃ body, selector.Asks body ∧ operand = body.toJson) ∨
    key ∈ leafKeys := by
  cases h with
  | everything => cases hmember
  | constant b =>
      cases List.mem_singleton.mp hmember
      exact .inr (.inr (.inr (.inr (by decide))))
  | combination hkey h =>
      cases List.mem_singleton.mp hmember
      exact .inr (.inl ⟨hkey, _, rfl, h⟩)
  | field hname h =>
      cases List.mem_singleton.mp hmember
      exact .inl ⟨hname, h⟩
  | negation h =>
      cases List.mem_singleton.mp hmember
      exact .inr (.inr (.inl ⟨rfl, h⟩))
  | elements h =>
      cases List.mem_singleton.mp hmember
      exact .inr (.inr (.inr (.inl ⟨rfl, _, h, rfl⟩)))
  | operands h =>
      exact .inr (.inr (.inr (.inr (.tail _ (.tail _ (.tail _ (h _ hmember)))))))
  | literal hkey =>
      cases List.mem_singleton.mp hmember
      rcases hkey with rfl | rfl <;> exact .inr (.inr (.inr (.inr (by decide))))

theorem ofField {name : String} {operand : Json} (h : Formed selector members)
    (hmember : (name, operand) ∈ members) (hname : IsFieldName name) :
    operand = .null ∨ HoldsOnly (· ∈ operatorKeys) operand := by
  rcases h.placed hmember with ⟨-, hoperand⟩ | ⟨hkey, -⟩ | ⟨rfl, -⟩ | ⟨rfl, -⟩ | hkey
  · exact hoperand
  · exact absurd hname (distinct_of_mem_combinationKeys hkey).1
  · exact absurd hname (by decide)
  · exact absurd hname (by decide)
  · exact absurd hname (distinct_of_mem_leafKeys hkey).1

theorem ofNegation {operand : Json} (h : Formed selector members)
    (hmember : ("$not", operand) ∈ members) : HoldsOnly (· ∈ operatorKeys) operand := by
  rcases h.placed hmember with ⟨hname, -⟩ | ⟨hkey, -⟩ | ⟨-, hoperand⟩ | ⟨hkey, -⟩ | hkey
  · exact absurd hname (by decide)
  · exact absurd rfl (distinct_of_mem_combinationKeys hkey).2.1
  · exact hoperand
  · exact absurd hkey (by decide)
  · exact absurd rfl (distinct_of_mem_leafKeys hkey).2.2.1

theorem ofCombination {key : String} {operand : Json} (h : Formed selector members)
    (hmember : (key, operand) ∈ members) (hcombination : key ∈ combinationKeys) :
    ∃ documents, operand = .array documents ∧ ∀ inner ∈ documents, HoldsOnly IsWholeKey inner := by
  obtain ⟨hfield, hnot, helements⟩ := distinct_of_mem_combinationKeys hcombination
  rcases h.placed hmember with ⟨hname, -⟩ | ⟨-, hoperand⟩ | ⟨hkey, -⟩ | ⟨hkey, -⟩ | hkey
  · exact absurd hname hfield
  · exact hoperand
  · exact absurd hkey hnot
  · exact absurd hkey helements
  · exact absurd hcombination (distinct_of_mem_leafKeys hkey).2.1

theorem ofElements {operand : Json} (h : Formed selector members)
    (hmember : ("$elemMatch", operand) ∈ members) :
    ∃ body, selector.Asks body ∧ operand = body.toJson := by
  rcases h.placed hmember with ⟨hname, -⟩ | ⟨hkey, -⟩ | ⟨hkey, -⟩ | ⟨-, hbody⟩ | hkey
  · exact absurd hname (by decide)
  · exact absurd rfl (distinct_of_mem_combinationKeys hkey).2.2
  · exact absurd hkey (by decide)
  · exact hbody
  · exact absurd rfl (distinct_of_mem_leafKeys hkey).2.2.2

theorem unmixed {member other : String × Json} (h : Formed selector members)
    (hmember : member ∈ members) (hother : other ∈ members) (hoperator : member.1 ∈ operatorKeys) :
    ¬IsWholeKey other.1 := by
  cases h with
  | everything => cases hmember
  | operands hkeys =>
      exact not_isWholeKey_of_mem_operatorKeys (mem_operatorKeys_of_plain (hkeys other hother))
  | _ =>
      cases List.mem_singleton.mp hmember
      cases List.mem_singleton.mp hother
      exact not_isWholeKey_of_mem_operatorKeys hoperator

theorem regex {r : Regex} (h : Inside members r.toJson) : Formed selector members := by
  obtain ⟨own, hown, hkeys⟩ := r.exists_members
  rw [hown] at h
  cases h with
  | here => exact .operands fun member hmember => (hkeys member hmember).1
  | member hmember h =>
      obtain ⟨-, text, htext⟩ := hkeys _ hmember
      obtain rfl : _ = Json.string text := htext
      cases h

theorem ofOperand {operand : Operand} (h : Inside members operand.toJson) :
    Formed selector members := by
  cases operand with
  | null => cases h
  | regex r => exact regex h
  | value v =>
      cases v with
      | date d =>
          rcases h.singleton with rfl | h
          · exact .literal (.inl rfl)
          · cases h
      | datetime t =>
          rcases h.singleton with rfl | h
          · exact .literal (.inl rfl)
          · cases h
      | guid g =>
          rcases h.singleton with rfl | h
          · exact .literal (.inr rfl)
          · cases h
      | double x =>
          rw [Operand.toJson, valueJson] at h
          split at h <;> cases h
      | _ => cases h

end Formed

namespace Selector

theorem Suits.holdsOnly {onElement : Bool} {selector : Selector} (h : Suits onElement selector) :
    HoldsOnly (IsKey onElement) selector.toJson := by
  cases h with
  | everything => exact ⟨_, rfl, nofun⟩
  | nothing => exact ⟨_, rfl, List.forall_mem_singleton.mpr (.inr (.inr rfl))⟩
  | all h =>
      have hkey : "$and" ∈ combinationKeys := by decide
      exact ⟨_, rfl, List.forall_mem_singleton.mpr (.inr (.inl hkey))⟩
  | any h =>
      have hkey : "$or" ∈ combinationKeys := by decide
      exact ⟨_, rfl, List.forall_mem_singleton.mpr (.inr (.inl hkey))⟩
  | noneOf h =>
      have hkey : "$nor" ∈ combinationKeys := by decide
      exact ⟨_, rfl, List.forall_mem_singleton.mpr (.inr (.inl hkey))⟩
  | inField hname h => exact ⟨_, rfl, List.forall_mem_singleton.mpr (.inl hname)⟩
  | missingField hname => exact ⟨_, rfl, List.forall_mem_singleton.mpr (.inl hname)⟩
  | compares =>
      refine ⟨_, rfl, List.forall_mem_map.mpr fun test _ => ?_⟩
      exact mem_operatorKeys_of_plain (comparisonKey_mem test.1)
  | @regex r =>
      obtain ⟨members, hmembers, hkeys⟩ := r.exists_members
      exact ⟨members, hmembers, fun member hmember =>
        mem_operatorKeys_of_plain (hkeys member hmember).1⟩
  | not h =>
      have hkey : "$not" ∈ operatorKeys := by decide
      exact ⟨_, rfl, List.forall_mem_singleton.mpr hkey⟩
  | oneOf =>
      have hkey : "$in" ∈ operatorKeys := by decide
      exact ⟨_, rfl, List.forall_mem_singleton.mpr hkey⟩
  | size =>
      have hkey : "$size" ∈ operatorKeys := by decide
      exact ⟨_, rfl, List.forall_mem_singleton.mpr hkey⟩
  | elementMatch h =>
      have hkey : "$elemMatch" ∈ operatorKeys := by decide
      exact ⟨_, rfl, List.forall_mem_singleton.mpr hkey⟩

theorem holdsOnly_toJsonParts {parts : List Selector} (h : ∀ part ∈ parts, Suits false part) :
    ∀ json ∈ toJsonParts parts, HoldsOnly IsWholeKey json := by
  induction parts with
  | nil => exact nofun
  | cons first rest ih =>
      rw [List.forall_mem_cons] at h
      exact List.forall_mem_cons.mpr ⟨h.1.holdsOnly, ih h.2⟩

variable {members : List (String × Json)}

-- All objects in the document of a selector are of one of the forms.
theorem Suits.formed {onElement : Bool} {selector : Selector} (h : Suits onElement selector)
    (hinside : Inside members selector.toJson) : Formed selector members := by
  induction h with
  | everything =>
      cases hinside with
      | here => exact .everything
      | member hmember _ => cases hmember
  | nothing =>
      rcases hinside.singleton with rfl | hinside
      · exact .constant false
      · cases hinside
  | all h ih =>
      rcases hinside.singleton with rfl | hinside
      · exact .combination (by decide) (holdsOnly_toJsonParts h)
      · obtain ⟨part, hpart, hinside⟩ := hinside.parts
        exact (ih part hpart hinside).mono fun _ hbody => .all hpart hbody
  | any h ih =>
      rcases hinside.singleton with rfl | hinside
      · exact .combination (by decide) (holdsOnly_toJsonParts h)
      · obtain ⟨part, hpart, hinside⟩ := hinside.parts
        exact (ih part hpart hinside).mono fun _ hbody => .any hpart hbody
  | noneOf h ih =>
      rcases hinside.singleton with rfl | hinside
      · exact .combination (by decide) (List.forall_mem_singleton.mpr h.holdsOnly)
      · cases hinside with
        | item hitem hinside =>
            obtain rfl := List.mem_singleton.mp hitem
            exact (ih hinside).mono fun _ hbody => .noneOf hbody
  | inField hname h ih =>
      rcases hinside.singleton with rfl | hinside
      · exact .field hname (.inr h.holdsOnly)
      · exact (ih hinside).mono fun _ hbody => .inField hbody
  | missingField hname =>
      rcases hinside.singleton with rfl | hinside
      · exact .field hname (.inl rfl)
      · cases hinside
  | not h ih =>
      rcases hinside.singleton with rfl | hinside
      · exact .negation h.holdsOnly
      · exact (ih hinside).mono fun _ hbody => .not hbody
  | @compares test rest =>
      rw [toJson] at hinside
      cases hinside with
      | here => exact .operands (List.forall_mem_map.mpr fun _ _ => comparisonKey_mem _)
      | member hmember hinside =>
          obtain ⟨⟨op, operand⟩, -, hpair⟩ := List.mem_map.mp hmember
          cases hpair
          exact .ofOperand hinside
  | @oneOf operands =>
      have hkey : "$in" ∈ plainOperatorKeys := by decide
      rcases hinside.singleton with rfl | hinside
      · exact .operands (List.forall_mem_singleton.mpr hkey)
      · cases hinside with
        | item hitem hinside =>
            obtain ⟨operand, -, rfl⟩ := List.mem_map.mp hitem
            exact .ofOperand hinside
  | regex => exact .regex hinside
  | size =>
      have hkey : "$size" ∈ plainOperatorKeys := by decide
      rcases hinside.singleton with rfl | hinside
      · exact .operands (List.forall_mem_singleton.mpr hkey)
      · cases hinside
  | elementMatch h ih =>
      rcases hinside.singleton with rfl | hinside
      · exact .elements .here
      · exact (ih hinside).mono fun _ hbody => .elementMatch hbody

variable {part : Condition} {field : FieldRef} {selector test body : Selector}

theorem asks_of_onField (h : onField part field test = .ok selector)
    (hbody : selector.Asks body) : test.Asks body := by
  rcases onField_eq_ok h with ⟨-, rfl⟩ | ⟨-, name, -, rfl⟩
  · exact hbody
  · cases hbody with
    | inField hbody => exact hbody

theorem not_asks_ofDay (op : Comparison) (day : Date) : ¬(ofDay op day).Asks body := by
  intro hbody
  unfold ofDay at hbody
  split at hbody <;> try cases hbody
  rename_i hbody
  cases hbody

theorem not_asks_ofDays (low : Value) (high : Date) : ¬(ofDays low high).Asks body := by
  intro hbody
  unfold ofDays at hbody
  split at hbody <;> cases hbody

theorem not_asks_ofCompare {op : Comparison} {value : Value}
    (h : ofCompare part field op value = .ok selector) : ¬selector.Asks body := by
  intro hbody
  unfold ofCompare at h
  split at h
  · exact not_asks_ofDay op _ (asks_of_onField h hbody)
  · split at h
    · split at h
      · cases asks_of_onField h hbody
      · cases asks_of_onField h hbody with
        | not hbody => cases hbody
      · cases h
    · cases asks_of_onField h hbody

theorem not_asks_ofMembership {values : List Value}
    (h : ofMembership part field values = .ok selector) : ¬selector.Asks body := by
  intro hbody
  unfold ofMembership at h
  split at h
  · cases asks_of_onField h hbody
  · split at h
    · cases h
    · obtain ⟨name, hname, rfl⟩ := Outcome.map_eq_ok.mp h
      cases hbody with
      | any hpart hbody =>
          obtain ⟨day, -, rfl⟩ := List.mem_map.mp hpart
          cases hbody with
          | inField hbody => exact not_asks_ofDay .equal day hbody
  · split at h <;> cases asks_of_onField h hbody

theorem not_asks_ofRange {low high : Value} (h : ofRange part field low high = .ok selector) :
    ¬selector.Asks body := by
  intro hbody
  unfold ofRange at h
  split at h
  · cases h
  · split at h
    · exact not_asks_ofDays low _ (asks_of_onField h hbody)
    · cases asks_of_onField h hbody

-- A selector asks of elements what a quantifier of its condition does.
def Comes (condition : Condition) (body : Selector) : Prop :=
  ∃ collection inner, .anyElement collection inner ∈ condition.parts ∧
    ofCondition (readsElement inner) inner = .ok body

theorem Comes.mono {condition : Condition} (h : Comes part body)
    (hparts : part.parts ⊆ condition.parts) : Comes condition body := by
  obtain ⟨collection, inner, hmem, hinner⟩ := h
  exact ⟨collection, inner, hparts hmem, hinner⟩

theorem exists_of_mem_ofParts {conditions : List Condition} {selectors : List Selector}
    (h : ofParts conditions = .ok selectors) (hmem : selector ∈ selectors) :
    ∃ part ∈ conditions, ofCondition false part = .ok selector := by
  induction conditions generalizing selectors with
  | nil =>
      cases h
      cases hmem
  | cons first rest ih =>
      obtain ⟨own, others, hown, hothers, rfl⟩ := (Outcome.bind_cons_eq_ok id).mp h
      rcases List.mem_cons.mp hmem with rfl | hmem
      · exact ⟨first, .head _, hown⟩
      · obtain ⟨part, hpart, hselector⟩ := ih hothers hmem
        exact ⟨part, .tail _ hpart, hselector⟩

theorem comes_of_asks {condition : Condition} {onElement : Bool}
    (h : ofCondition onElement condition = .ok selector) (hbody : selector.Asks body) :
    Comes condition body := by
  induction condition using Condition.treeInduction generalizing onElement selector with
  | constant b =>
      rw [ofCondition] at h
      split at h
      · cases h
      · cases h
        cases b <;> cases hbody
  | all conditions ih =>
      obtain ⟨-, selectors, hselectors, rfl⟩ := ofCondition_all_eq_ok h
      cases hbody with
      | all hmem hbody =>
          obtain ⟨part, hpart, hselector⟩ := exists_of_mem_ofParts hselectors hmem
          exact (ih part hpart hselector hbody).mono (Condition.parts_subset_all hpart)
  | any conditions ih =>
      obtain ⟨-, selectors, hselectors, rfl⟩ := ofCondition_any_eq_ok h
      cases hbody with
      | any hmem hbody =>
          obtain ⟨part, hpart, hselector⟩ := exists_of_mem_ofParts hselectors hmem
          exact (ih part hpart hselector hbody).mono (Condition.parts_subset_any hpart)
  | not inner ih =>
      obtain ⟨test, htest, rfl⟩ := Outcome.map_eq_ok.mp h
      refine (ih htest ?_).mono (Condition.parts_subset_not inner)
      cases onElement <;> cases hbody <;> assumption
  | compare field op value => exact absurd hbody (not_asks_ofCompare h)
  | oneOf field values => exact absurd hbody (not_asks_ofMembership h)
  | between field low high => exact absurd hbody (not_asks_ofRange h)
  | text field test pattern => cases asks_of_onField h hbody
  | isNull field => cases asks_of_onField h hbody
  | isEmpty field target =>
      cases target with
      | text => cases asks_of_onField h hbody
      | collection =>
          obtain ⟨-, name, -, rfl⟩ := ofCondition_isEmpty_eq_ok h
          cases hbody with
          | any hmem hbody =>
              rcases List.mem_cons.mp hmem with rfl | hmem
              · cases hbody with
                | inField hbody => cases hbody
              · obtain rfl := List.mem_singleton.mp hmem
                cases hbody with
                | inField hbody => cases hbody
  | anyElement collection inner ih =>
      obtain ⟨test, htest, hselector⟩ := ofCondition_anyElement_eq_ok h
      cases asks_of_onField hselector hbody with
      | here => exact ⟨collection, inner, Condition.mem_parts_self _, htest⟩
      | elementMatch hbody =>
          exact (ih htest hbody).mono (Condition.parts_subset_anyElement collection inner)
  | custom field name test => cases h

theorem readsElementAny_iff {conditions : List Condition} :
    readsElementAny conditions = true ↔ ∃ part ∈ conditions, readsElement part = true := by
  induction conditions with
  | nil => simp [readsElementAny]
  | cons first rest ih => simp [readsElementAny, ih]

-- A condition is translated as a test of an element if one of its own fields is the element.
theorem readsElement_iff (condition : Condition) :
    readsElement condition = true ↔ ∃ field ∈ condition.ownFields, field.path = [] := by
  induction condition using Condition.treeInduction with
  | constant b => simp [readsElement, Condition.ownFields, Condition.readField?, Condition.field?]
  | all conditions ih | any conditions ih =>
      rw [readsElement, readsElementAny_iff, Condition.ownFields]
      simp only [Condition.mem_ownFieldsOf]
      constructor
      · rintro ⟨part, hpart, hreads⟩
        obtain ⟨field, hfield, hpath⟩ := (ih part hpart).mp hreads
        exact ⟨field, ⟨part, hpart, hfield⟩, hpath⟩
      · rintro ⟨field, ⟨part, hpart, hfield⟩, hpath⟩
        exact ⟨part, hpart, (ih part hpart).mpr ⟨field, hfield, hpath⟩⟩
  | not inner ih => exact ih
  | _ =>
      simp [readsElement, Condition.ownFields, Condition.readField?, Condition.field?,
        FieldPath.isElement]

end Selector

-- Of a condition that reads no element but inside a predicate on elements, and no field with a name
-- of the store's own, the document is in scope.
theorem wellScoped_of_ofCondition {condition : Condition} {selector : Selector}
    (hown : ∀ field ∈ condition.ownFields, field.path ≠ [])
    (hnames : ∀ name ∈ condition.pathNames, name.toList.head? ≠ some '$')
    (h : Selector.ofCondition false condition = .ok selector) :
    WellScoped condition selector.toJson := by
  have hreads : Selector.readsElement condition = false := by
    rw [Bool.eq_false_iff, ne_eq, Selector.readsElement_iff]
    rintro ⟨field, hfield, hpath⟩
    exact hown field hfield hpath
  have hsuits := Selector.suits_of_ofCondition hnames hreads h
  have hformed := fun members (hinside : Inside members selector.toJson) => hsuits.formed hinside
  constructor
  case whole => exact hsuits.holdsOnly
  case unmixed =>
    intro members hinside member hmember other hother hoperator
    exact (hformed members hinside).unmixed hmember hother hoperator
  case ofField =>
    intro members hinside name operand hmember hname
    exact (hformed members hinside).ofField hmember hname
  case ofNegation =>
    intro members hinside operand hmember
    exact (hformed members hinside).ofNegation hmember
  case ofCombination =>
    intro members hinside key operand hmember hkey
    exact (hformed members hinside).ofCombination hmember hkey
  case ofElements =>
    intro members hinside operand hmember
    obtain ⟨body, hbody, rfl⟩ := (hformed members hinside).ofElements hmember
    obtain ⟨collection, inner, hquantifier, hinner⟩ := Selector.comes_of_asks h hbody
    -- The names in a predicate are names of the whole condition.
    have hparts : inner.parts ⊆ condition.parts :=
      List.Subset.trans (Condition.parts_subset_anyElement collection inner)
        (Condition.parts_subset_of_mem hquantifier)
    have hbodySuits := Selector.suits_of_ofCondition
      (Selector.Unreserved.mono hnames (Condition.pathNames_subset hparts)) rfl hinner
    have hkeys := hbodySuits.holdsOnly
    refine ⟨collection, inner, body, hquantifier, hinner, rfl, fun helement => ?_, fun hfields => ?_⟩
    · rw [(Selector.readsElement_iff inner).mpr helement] at hkeys
      exact hkeys
    · have hreadsInner : Selector.readsElement inner = false := by
        rw [Bool.eq_false_iff, ne_eq, Selector.readsElement_iff]
        rintro ⟨field, hfield, hpath⟩
        exact hfields field hfield hpath
      rw [hreadsInner] at hkeys
      exact hkeys

private def tags : FieldRef := { path := [.member "tags"], kind := .string }

private def lines : FieldRef := { path := [.member "lines"], kind := .string }

private def codes : FieldRef := { path := [.member "codes", .key "own"], kind := .string }

private def count : FieldRef := { path := [.member "count"], kind := .integer }

-- Some tag is not "new", and some line counts more than three or has one of its own codes known.
private def restocked : Condition :=
  .all [
    .anyElement tags (.not (.compare (.element .string) .equal (.string "new"))),
    .not (.anyElement lines (.any [
      .compare count .greater (.integer 3),
      .anyElement codes (.oneOf (.element .string) [.string "A", .string "B"])]))]

theorem restocked_wellScoped :
    (∀ field ∈ restocked.ownFields, field.path ≠ []) ∧
      (∀ name ∈ restocked.pathNames, name.toList.head? ≠ some '$') ∧
      WellScoped restocked (.object [("$and", .array [
        .object [("tags", .object [("$elemMatch", .object [("$not",
          .object [("$eq", .string "new")])])])],
        .object [("$nor", .array [.object [("lines", .object [("$elemMatch",
          .object [("$or", .array [
            .object [("count", .object [("$gt", .number (.integer 3))])],
            .object [("codes.own", .object [("$elemMatch",
              .object [("$in", .array [.string "A", .string "B"])])])]])])])]])]])]) := by
  have hown : ∀ field ∈ restocked.ownFields, field.path ≠ [] := by decide
  have hnames : ∀ name ∈ restocked.pathNames, name.toList.head? ≠ some '$' := by decide
  exact ⟨hown, hnames, wellScoped_of_ofCondition hown hnames rfl⟩

end Sieve.Document

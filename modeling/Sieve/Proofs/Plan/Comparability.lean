import Sieve.Proofs.Condition.Asked
import Sieve.Proofs.Plan.Complement
import Sieve.Proofs.Plan.Reach
import Sieve.Proofs.Value.Order

-- What the tests of a leaf read from a conforming record stands somewhere relative to the literals
-- of the leaf.
namespace Sieve

variable {catalog : Catalog} {words : List String} {declared : Kind} {values : List Value}

namespace Datum

def isList : Datum → Bool
  | list _ => true
  | _ => false

-- Whether a datum is a double that is no number.
def isNaN : Datum → Bool
  | scalar value => value.isNaN
  | _ => false

end Datum

-- A conforming record holds conforming data in the places that a path comes to.
section Places

variable {type last : FieldType} {hops : List FieldPath} {path : FieldPath} {datum : Datum}

theorem Holds.items {element : FieldType} (h : Holds catalog (.list element) datum) :
    ∀ item ∈ datum.items, Holds catalog element item := by
  rcases h with rfl | hconforms
  · exact nofun
  · cases hconforms with
    | null h => exact nofun
    | list h => exact fun item hitem => .inr (h item hitem)

theorem Reaches.holds (h : Reaches catalog words type hops path last)
    (hdatum : Holds catalog type datum) :
    ∀ element ∈ datum.elementsAlong hops, Holds catalog last (element.walk path) := by
  induction h generalizing datum with
  | last hpath =>
      rintro element hmem
      obtain rfl := List.mem_singleton.mp hmem
      exact hdatum.walk hpath
  | hop hhop hrest ih =>
      intro element hmem
      obtain ⟨item, hitem, hmem⟩ := List.mem_flatMap.mp hmem
      exact ih ((hdatum.walk hhop).items item hitem) element hmem

theorem Place.holds_of_mem_spread {place : Place} (h : Holds catalog type datum)
    (hplace : place ∈ spread type path datum) : Holds catalog place.type place.datum := by
  induction type generalizing path datum with
  | list element ih =>
      rw [spread_list] at hplace
      obtain ⟨item, hitem, hmem⟩ := List.mem_flatMap.mp hplace
      exact ih (h.items item hitem) hmem
  | _ =>
      obtain rfl := List.mem_singleton.mp hplace
      exact h

-- The elements of a collection of scalars are places of its element type.
theorem Place.type_of_mem_opened {place inner : Place}
    (hscalar : Test.isScalar place.type.element = true) (h : inner ∈ place.opened) :
    inner.type = place.type.element := by
  unfold opened at h
  cases htype : place.type with
  | list element =>
      have helement : Test.isScalar element = true := by rwa [htype] at hscalar
      rw [htype, spread_list] at h
      obtain ⟨item, -, hmem⟩ := List.mem_flatMap.mp h
      rw [spread_of_isScalar helement] at hmem
      obtain rfl := List.mem_singleton.mp hmem
      rfl
  | _ =>
      rw [htype] at h
      obtain rfl := List.mem_singleton.mp h
      rfl

end Places

-- A stored datum that is no list comes to nothing or to a value that a rule of the kind may test.
theorem Coercer.coerceDatum_eq_ok {c : Coercer} {datum stored : Datum} {kind : Kind}
    (hlist : datum.isList = false) (h : c.coerceDatum datum kind = .ok stored) :
    stored = .null ∨ ∃ value, stored = .scalar value ∧ kind.accepts value.kind = true := by
  cases datum with
  | null =>
      cases h
      exact .inl rfl
  | list items => cases hlist
  | scalar value =>
      unfold coerceDatum at h
      dsimp only at h
      split at h
      · rename_i hfits
        cases h
        exact .inr ⟨value, rfl, fits_eq_accepts value kind ▸ hfits⟩
      · split at h
        · rename_i coerced hparse
          cases h
          exact .inr ⟨coerced, rfl, by simp [kind_of_parse hparse, Kind.accepts]⟩
        · cases h
  | _ => cases h

-- A place of scalars, dynamic or of a kind that the declared one accepts, is read as nothing or as
-- a value of such a kind.
theorem Place.read_eq_ok {coercer : Coercer} {operator : String} {fold : Bool} {place : Place}
    {stored : Datum} (hscalar : Test.isScalar place.type = true)
    (hholds : Holds catalog place.type place.datum)
    (hkind : ∀ kind nullable, place.type = .scalar kind nullable → declared.accepts kind = true)
    (hlist : place.type = .dynamic → place.datum.isList = false)
    (h : place.read coercer operator declared fold = .ok stored) :
    stored = .null ∨ ∃ value, stored = .scalar value ∧ declared.accepts value.kind = true := by
  obtain ⟨datum, hdatum, hstored⟩ : ∃ datum, (datum = .null ∨
      ∃ value, datum = .scalar value ∧ declared.accepts value.kind = true) ∧
      (if fold then datum.foldCase else datum) = stored := by
    cases htype : place.type with
    | dynamic =>
        simp only [read, htype, FieldType.element, if_true] at h
        obtain ⟨datum, hdatum, hstored⟩ := Outcome.bind_eq_ok.mp h
        refine ⟨datum, ?_, Except.ok.inj hstored⟩
        exact Coercer.coerceDatum_eq_ok (hlist htype) (Outcome.mapError_eq_ok.mp hdatum)
    | scalar kind nullable =>
        simp only [read, htype, FieldType.element, reduceCtorEq, if_false] at h
        refine ⟨place.datum, ?_, Except.ok.inj h⟩
        rw [htype] at hholds
        rcases hholds with hnull | hconforms
        · exact .inl hnull
        · generalize place.datum = datum at hconforms
          cases hconforms with
          | null h => exact .inl rfl
          | scalar hvalue => exact .inr ⟨_, rfl, hvalue ▸ hkind kind nullable htype⟩
    | _ =>
        rw [htype] at hscalar
        cases hscalar
  subst hstored
  rcases hdatum with rfl | ⟨value, rfl, haccepts⟩
  · exact .inl (by cases fold <;> rfl)
  · cases fold with
    | false => exact .inr ⟨value, rfl, haccepts⟩
    | true => exact .inr ⟨value.foldCase, rfl, by rwa [Value.kind_foldCase]⟩

namespace Test

variable {test : Test}

theorem ne_of_takesValue (h : test.takesValue = true) : test ≠ .isNull ∧ test ≠ .isEmpty := by
  constructor <;> rintro rfl <;> cases h

-- A datum that a test with these literals can make something of. It stands somewhere relative to
-- each literal, unless one of the two is no number; for a test of texts it is a text.
def Suits (test : Test) (literals : List Value) (stored : Datum) : Prop :=
  (∀ literal ∈ literals,
    stored.compare? literal = none ↔ stored.isNaN = true ∨ literal.isNaN = true) ∧
  ∀ text, test = .text text → ∃ s, stored.string? = some s

theorem suits_of_accepts {type : FieldType} {value : Value}
    (hmisuse : test.misuse? type declared = none)
    (hkinds : ∀ literal ∈ values, literal.kind = declared)
    (haccepts : declared.accepts value.kind = true) : test.Suits values (.scalar value) := by
  constructor
  · intro literal hliteral
    have hnone : (Datum.scalar value).compare? literal = none ↔ _ :=
      Value.compare?_eq_none_iff
    rwa [hkinds literal hliteral, haccepts, Bool.true_eq_false, false_or] at hnone
  · rintro text rfl
    obtain rfl := string_of_misuse? hmisuse
    cases value <;> first | exact ⟨_, rfl⟩ | cases haccepts

end Test

namespace Resolution

variable {r : Resolution} {test : Test} {fold : Bool} {element : Datum}

-- A test of values asks for the place that its field leads to, or for each element of the
-- collection there.
theorem asked_build (hnull : test ≠ .isNull) (hempty : test ≠ .isEmpty)
    (htakes : test.Takes values) (hmisuse : test.misuse? r.type declared = none)
    {asked : Condition} {scope : Datum}
    (h : (asked, scope) ∈ (test.build (r.fieldRef declared fold) r.type.isCollection r.nullable
      values).asked element) :
    ∃ place ∈ Place.opened ⟨r.type, r.path, element.walk r.path⟩,
      scope.walk place.path = place.datum ∧
        asked = test.onValue { r.fieldRef declared fold with path := place.path } values := by
  have hsingle (field : FieldRef) (datum : Datum)
      (h : (asked, scope) ∈ (test.onValue field values).asked datum) :
      asked = test.onValue field values ∧ scope = datum := by
    rw [(Condition.onValue_of_takes hnull hempty htakes field).2.2, List.mem_singleton] at h
    exact Prod.mk.inj h
  have hscalar := Test.isScalar_of_misuse? hnull hempty hmisuse
  rw [Test.build_of_value hnull hempty] at h
  cases htype : r.type with
  | list inner =>
      rw [htype] at h
      have hinner : Test.isScalar inner = true := by rwa [htype] at hscalar
      have h : (asked, scope) ∈ (element.walk r.path).items.flatMap fun item =>
          (test.onValue (Test.elementOf (r.fieldRef declared fold)) values).asked item := h
      obtain ⟨item, hitem, hmem⟩ := List.mem_flatMap.mp h
      rw [elementOf_fieldRef] at hmem
      obtain ⟨rfl, rfl⟩ := hsingle _ _ hmem
      refine ⟨⟨inner, [], scope⟩, ?_, rfl, rfl⟩
      rw [Place.opened, Place.spread_list]
      refine List.mem_flatMap.mpr ⟨scope, hitem, ?_⟩
      rw [Place.spread_of_isScalar hinner]
      exact List.mem_singleton.mpr rfl
  | _ =>
      rw [htype] at h
      obtain ⟨rfl, rfl⟩ := hsingle _ _ h
      exact ⟨⟨_, r.path, scope.walk r.path⟩, List.mem_singleton.mpr rfl, rfl, rfl⟩

end Resolution

section Leaf

variable {record : RecordType} {options : Options} {leaf : Rule} {op : Operator}

-- Each test that the condition of a leaf asks reads nothing, or what suits it.
theorem LeafPlan.suits_of_asked {plan : LeafPlan} {datum scope : Datum} {asked : Condition}
    (hplan : Plan.ofLeaf record options leaf = .ok plan) (hbinding : plan.binding = .builtin op)
    (hvalue : op.test.takesValue = true)
    (hvalues : plan.values op options.toSettings options.coercer leaf.value = .ok values)
    (hconforms : Conforms record.catalog (.object record.root) datum)
    (hlist : ∀ place ∈ (plan.resolution.places datum).flatMap Place.opened,
      place.type = .dynamic → place.datum.isList = false)
    (hasked : (asked, scope) ∈ (plan.positive op.test values).asked datum) :
    ∃ ref, asked.field? = some ref ∧ asked.literals = values ∧
      ∀ coercer operator stored, ref.read coercer operator scope = .ok stored →
        stored = .null ∨ op.test.Suits values stored := by
  obtain ⟨hnull, hempty⟩ := Test.ne_of_takesValue hvalue
  obtain ⟨-, -, -, hresolve, hkind, -, -⟩ := Plan.ofLeaf_eq_ok hplan
  have hmisuse := misuse?_of_ofLeaf hplan hbinding
  have htakes := takes_of_values hplan hbinding hvalues
  have hscalar := Test.isScalar_of_misuse? hnull hempty hmisuse
  rw [positive, Resolution.hopRefs, Condition.asked_quantify] at hasked
  obtain ⟨element, helement, hasked⟩ := List.mem_flatMap.mp hasked
  obtain ⟨place, hplace, hwalk, rfl⟩ := Resolution.asked_build hnull hempty htakes hmisuse hasked
  have htype := Place.type_of_mem_opened hscalar hplace
  rw [← htype] at hscalar
  have helementType : place.type.element = plan.resolution.type.element :=
    (FieldType.element_of_isScalar hscalar).trans htype
  obtain ⟨hfield, hliterals, -⟩ := Condition.onValue_of_takes hnull hempty htakes
    { plan.target with path := place.path }
  refine ⟨_, hfield, hliterals, fun coercer operator stored hread => ?_⟩
  rw [target, Resolution.read_fieldRef (string_of_fold hplan) helementType, hwalk] at hread
  have hholds : Holds record.catalog place.type place.datum := by
    refine Place.holds_of_mem_spread ?_ hplace
    exact (Resolution.reaches_of_resolve hresolve).1.holds (.inr hconforms) element helement
  have hdynamic := hlist place
    (List.mem_flatMap.mpr ⟨_, List.mem_map_of_mem helement, hplace⟩)
  have hread := Place.read_eq_ok hscalar hholds
    (fun kind nullable h => Resolution.checkKind_eq_ok hkind (htype ▸ h)) hdynamic hread
  refine hread.imp_right ?_
  rintro ⟨value, rfl, haccepts⟩
  exact Test.suits_of_accepts hmisuse (kind_of_values hvalues) haccepts

namespace Filter

-- A leaf with an operator on values is decided by the tests that it asks, and none of them fails
-- only since stored and literal kinds do not go together: for a conforming record without lists in
-- the dynamic places that the path comes to, every read of the field fails, or yields nothing, or
-- yields what can be held against each literal of the leaf.
theorem asked_suits {field : String} {filter : Filter} (hleaf : leaf.isLeaf = true)
    (hfield : leaf.field = some field) (hname : leaf.operator = some op.name)
    (hbuiltin : options.operator? op.name = none) (hvalue : op.test.takesValue = true)
    (h : build record options (some leaf) = .ok filter) :
    ∃ declared literals, leaf.type.bind Kind.read = some declared ∧
      options.coercer.coerceAll declared op.name field (op.tokens options.locale leaf.value) =
        .ok literals ∧
      ∀ datum, Conforms record.catalog (.object record.root) datum →
        (∀ place ∈ (record.reached field datum).flatMap Place.opened,
          place.type = .dynamic → place.datum.isList = false) →
        filter.evaluate datum =
          ((filter.condition.asked datum).anyM fun (asked : Condition × Datum) =>
            asked.1.eval options.coercer asked.2).map (op.isNegated != ·) ∧
        ∀ test scope, (test, scope) ∈ filter.condition.asked datum →
          ∃ ref, test.field? = some ref ∧
            test.literals =
              (if options.folds declared then literals.map Value.foldCase else literals) ∧
            ∀ operator stored, ref.read options.coercer operator scope = .ok stored →
              stored = .null ∨ op.test.Suits test.literals stored := by
  obtain ⟨hcompile, hcoercer⟩ := build_eq_ok.mp h
  obtain ⟨plan, values, hplan, hvalues, hcondition⟩ :=
    (compile_builtin_eq_ok hleaf hname hbuiltin).mp hcompile
  obtain ⟨hplanField, hdeclared, -, hresolve, -, -, hfold⟩ := Plan.ofLeaf_eq_ok hplan
  obtain rfl : field = plan.field := Option.some.inj (hfield.symm.trans hplanField)
  have hbinding := Plan.binding_of_ofLeaf hname hbuiltin hplan
  obtain ⟨hnull, hempty⟩ := Test.ne_of_takesValue hvalue
  obtain ⟨-, literals, hliterals, hbound⟩ := LeafPlan.values_eq_ok.mp hvalues
  refine ⟨plan.declared, literals, hdeclared, hliterals, fun datum hconforms hlist => ?_⟩
  have hone : (plan.positive op.test values).AsksForOne :=
    (Condition.AsksForOne.build_of_value hnull hempty _ _ _ _).quantify _
  have hasked : filter.condition.asked datum = (plan.positive op.test values).asked datum := by
    rw [← hcondition]
    split
    · exact Condition.asked_negate _ datum
    · rfl
  constructor
  · rw [evaluate, hasked, ← hone, hcoercer, ← hcondition]
    cases op.isNegated with
    | true => simp only [if_true, Condition.eval_negate, Bool.true_bne]
    | false =>
        simp only [Bool.false_eq_true, if_false, Bool.false_bne]
        cases (plan.positive op.test values).eval options.coercer datum <;> rfl
  · intro test scope hmem
    rw [hasked] at hmem
    rw [Resolution.reached_eq_places hresolve] at hlist
    obtain ⟨ref, href, hheld, hread⟩ :=
      LeafPlan.suits_of_asked hplan hbinding hvalue hvalues hconforms hlist hmem
    refine ⟨ref, href, ?_, fun operator stored => ?_⟩
    · rw [hheld, ← hfold, hbound]
    · rw [hheld]
      exact hread _ operator stored

private def voyages : RecordType :=
  ⟨[⟨"Voyage", [("legs", .list (.object 1))], none⟩, ⟨"Leg", [("left", .dynamic)], none⟩], 0⟩

private def idle : Rule :=
  .leaf "legs.left" "not_in" "date" (some (.text "[2024-03-01, 2024-03-05]"))

private def firstOfMarch : Date := ⟨2024, 3, 1, by decide⟩

private def fifthOfMarch : Date := ⟨2024, 3, 5, by decide⟩

private def leg (left : Datum) : Datum :=
  .record [("left", left)] []

private def crossing : Datum :=
  .record [("legs", .list ([.scalar (.string "2024-03-04"), .null,
    .scalar (.datetime (.midnight fifthOfMarch)), .scalar (.long 7)].map leg))] []

-- Of what lies in a dynamic place, texts and timestamps can be held against days, and a number
-- cannot be read as one.
theorem idle_held_against_days :
    ∃ filter, build voyages {} (some idle) = .ok filter ∧
      (filter.condition.asked crossing).length = 4 ∧
      ∀ test scope, (test, scope) ∈ filter.condition.asked crossing →
        ∃ ref, test.field? = some ref ∧
          test.literals = [.date firstOfMarch, .date fifthOfMarch] ∧
          ∀ operator stored, ref.read {} operator scope = .ok stored →
            stored = .null ∨ Test.oneOf.Suits test.literals stored := by
  have hlength : (build voyages {} (some idle)).map (fun filter =>
      (filter.condition.asked crossing).length) = .ok 4 := by
    decide +kernel
  obtain ⟨filter, h, hlength⟩ := Outcome.map_eq_ok.mp hlength
  obtain ⟨declared, literals, hdeclared, hliterals, hasked⟩ :=
    asked_suits rfl rfl (show idle.operator = some Operator.notOneOf.name from rfl) rfl
      (by decide) h
  have hdate : idle.type.bind Kind.read = some .date := by decide +kernel
  obtain rfl : Kind.date = declared := Option.some.inj (hdate.symm.trans hdeclared)
  have hdays : (({} : Options).coercer.coerceAll .date Operator.notOneOf.name "legs.left"
      (Operator.notOneOf.tokens ({} : Options).locale idle.value)) =
      .ok [.date firstOfMarch, .date fifthOfMarch] := by
    decide +kernel
  obtain rfl : [Value.date firstOfMarch, .date fifthOfMarch] = literals :=
    Except.ok.inj (hdays.symm.trans hliterals)
  have hleg (left : Datum) : Conforms voyages.catalog (.object 1) (leg left) :=
    .of_fields (List.forall_mem_singleton.mpr (.dynamic left)) rfl
  have hconforms : Conforms voyages.catalog (.object voyages.root) crossing := by
    refine .of_fields (List.forall_mem_singleton.mpr (.list ?_)) rfl
    rw [List.forall_mem_map]
    exact fun left _ => hleg left
  obtain ⟨-, hreads⟩ := hasked crossing hconforms (by decide +kernel)
  exact ⟨filter, h, hlength, hreads⟩

end Filter

end Leaf

end Sieve

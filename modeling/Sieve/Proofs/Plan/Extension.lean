import Sieve.Proofs.Plan.Complement
import Sieve.Proofs.Plan.Folding

-- An operator that the caller brings along and that accepts the values of its literal, next to the
-- built-in one that does.
namespace Sieve

variable {record : RecordType} {options : Options} {leaf : Rule} {plan : LeafPlan}
  {texts : List String} {literals : List Value}

-- The same leaf with the operator of a name.
def Rule.calling (leaf : Rule) (name : String) : Rule :=
  { leaf with operator := some name }

namespace CustomOperator

-- An operator that accepts the values of its literal, as it is given them, and no others.
def AcceptsValues (op : CustomOperator) : Prop :=
  ∀ context, op.build context = do
    let values ← context.values
    return .oneOf context.field values

theorem anyOf_acceptsValues (name : String) (id : Nat) : (anyOf name id).AcceptsValues :=
  fun _ => rfl

end CustomOperator

theorem Value.map_foldCase_string (texts : List String) :
    (texts.map Value.string).map Value.foldCase = (texts.map Text.lower).map .string := by
  simp only [List.map_map]
  rfl

namespace Test

variable {type : FieldType} {datum : Datum}

theorem accepts_texts_iff :
    oneOf.accepts (texts.map .string) type datum = true ↔
      ∃ s ∈ texts, datum = .scalar (.string s) := by
  simp only [accepts, List.any_map, List.any_eq_true, Function.comp_apply,
    Datum.passes_equal_string_iff]

-- Of stored texts in lower case, those that are among some texts are among the same texts in lower
-- case.
theorem accepts_lower_texts
    (h : oneOf.accepts (texts.map .string) type datum.foldCase = true) :
    oneOf.accepts ((texts.map .string).map Value.foldCase) type datum.foldCase = true := by
  rw [Value.map_foldCase_string, accepts_texts_iff]
  obtain ⟨s, hs, hdatum⟩ := accepts_texts_iff.mp h
  obtain ⟨t, -, rfl⟩ := Datum.foldCase_eq_string_iff.mp hdatum
  exact ⟨Text.lower t, List.mem_map.mpr ⟨_, hs, Text.lower_lower t⟩, hdatum⟩

theorem accepts_lower_texts_iff (hlower : ∀ s ∈ texts, Text.lower s ∈ texts) :
    oneOf.accepts ((texts.map .string).map Value.foldCase) type datum.foldCase = true ↔
      oneOf.accepts (texts.map .string) type datum.foldCase = true := by
  refine ⟨fun h => ?_, accepts_lower_texts⟩
  rw [Value.map_foldCase_string] at h
  obtain ⟨_, hmem, hdatum⟩ := accepts_texts_iff.mp h
  obtain ⟨s, hs, rfl⟩ := List.mem_map.mp hmem
  exact accepts_texts_iff.mpr ⟨_, hlower s hs, hdatum⟩

end Test

theorem Place.ask_lower {coercer : Coercer} {op : Operator} {declared : Kind} {values : List Value}
    {place : Place} :
    place.ask coercer op declared true values =
      (place.read coercer op.name declared false).map fun datum =>
        op.test.accepts values place.type datum.foldCase := by
  rw [ask, read_folded]
  cases place.read coercer op.name declared false <;> rfl

namespace Resolution

variable {r : Resolution} (coercer : Coercer)

-- Stored texts in lower case that are found among texts as they are given are found among the same
-- texts in lower case.
theorem anyM_ask_lower_of_texts (datum : Datum)
    (h : (Operator.oneOf.targets (r.places datum)).anyM
      (Place.ask coercer .oneOf .string true (texts.map .string)) = .ok true) :
    (Operator.oneOf.targets (r.places datum)).anyM
      (Place.ask coercer .oneOf .string true ((texts.map .string).map Value.foldCase)) =
        .ok true := by
  refine Outcome.anyM_mono (fun place _ b hask => ?_) h
  rw [Place.ask_lower] at hask
  obtain ⟨stored, hread, rfl⟩ := Outcome.map_eq_ok.mp hask
  rw [Place.ask_lower, hread]
  exact ⟨_, rfl, Test.accepts_lower_texts⟩

-- It makes no difference whether the texts are taken as they are given or in lower case, if and only
-- if the lower case of each is among them.
theorem anyM_ask_texts_eq_iff (hscalar : Test.isScalar r.type.element = true) :
    (∀ datum,
      (Operator.oneOf.targets (r.places datum)).anyM
          (Place.ask coercer .oneOf .string true (texts.map .string)) =
        (Operator.oneOf.targets (r.places datum)).anyM
          (Place.ask coercer .oneOf .string true ((texts.map .string).map Value.foldCase))) ↔
      ∀ s ∈ texts, Text.lower s ∈ texts := by
  constructor
  · intro hsame s hs
    have hempty : Operator.oneOf.test ≠ .isEmpty := by decide
    obtain ⟨datum, hask⟩ := exists_asks_text hempty hscalar s
    have hfound := hsame datum
    rw [hask, hask] at hfound
    have haccepts : Test.oneOf.accepts ((texts.map .string).map Value.foldCase) r.type.element
        (.scalar (.string (Text.lower s))) = true := by
      rw [Value.map_foldCase_string]
      exact Test.accepts_texts_iff.mpr ⟨_, List.mem_map_of_mem hs, rfl⟩
    obtain ⟨t, ht, hst⟩ := Test.accepts_texts_iff.mp ((Except.ok.inj hfound).trans haccepts)
    cases hst
    exact ht
  · intro hlower datum
    refine Outcome.anyM_congr fun place _ => ?_
    rw [Place.ask_lower, Place.ask_lower]
    congr 1
    funext stored
    exact Bool.eq_iff_iff.mpr (Test.accepts_lower_texts_iff hlower).symm

end Resolution

theorem Coercer.coerceAll_eq_ok_of_operator {c : Coercer} {kind : Kind} {name field : String}
    {tokens : List String} (other : String) (h : c.coerceAll kind name field tokens = .ok literals) :
    c.coerceAll kind other field tokens = .ok literals := by
  have hsame := coerceAll_withOperator c kind name other field tokens
  rw [h] at hsame
  exact Outcome.mapError_eq_ok.mp hsame

-- On a field that is no list, such an operator puts the values as they are read to the field.
theorem LeafPlan.bind_acceptsValues {custom : CustomOperator} {name : String} {catalog : Catalog}
    (haccepts : custom.AcceptsValues) (hbinding : plan.binding = .custom custom)
    (hfield : leaf.field = some plan.field) (hname : leaf.operator = some name)
    (hlist : plan.resolution.type.isCollection = false)
    (hliterals : options.coercer.coerceAll plan.declared name plan.field
      (Operator.oneOf.tokens options.locale leaf.value) = .ok literals) :
    plan.bind catalog options leaf = .ok (plan.positive .oneOf literals) := by
  have hpositive : plan.positive .oneOf literals =
      (Condition.oneOf plan.target literals).quantify (plan.resolution.hopRefs plan.declared) := by
    rw [positive, hlist]
    rfl
  let context : OperatorContext :=
    { rule := leaf
      catalog := catalog
      fieldType := plan.resolution.type
      field := plan.target
      tokens := Literal.canonicalize leaf.value true options.locale
      settings := options.toSettings }
  have hvalues : context.values = .ok literals := by
    refine Outcome.mapError_eq_ok.mpr ?_
    simp only [context, hfield, hname, Option.getD_some]
    exact hliterals
  have hbuild : custom.build context = .ok (.oneOf plan.target literals) := by
    rw [haccepts, hvalues]
    rfl
  unfold LeafPlan.bind
  simp only [hbinding]
  exact (congrArg (· >>= _) hbuild).trans (congrArg Except.ok hpositive.symm)

section Extended

variable {operators : List CustomOperator} {custom : CustomOperator} {name : String}
  (hcustom : ({ options with operators } : Options).operator? name = some custom)
include hcustom

-- Where a leaf can be planned with a built-in operator it can be with one of the caller's.
theorem Plan.ofLeaf_custom {op : Operator}
    (hplan : ofLeaf record options (leaf.asking op) = .ok plan) :
    ofLeaf record { options with operators } (leaf.calling name) =
      .ok { plan with binding := .custom custom } := by
  obtain ⟨hfield, hdeclared, -, hresolve, hkind, -, hfold⟩ := ofLeaf_eq_ok hplan
  have hbinding : findOperator { options with operators } name = .ok (.custom custom) := by
    rw [findOperator, hcustom]
  have hfield : (leaf.calling name).field = some plan.field := hfield
  have hplanned := ofLeaf_eq hfield hdeclared rfl hbinding hresolve
  rw [hkind] at hplanned
  rw [hplanned]
  obtain ⟨field, declared, binding, r, fold⟩ := plan
  obtain rfl : fold = options.folds declared := hfold
  rfl

-- With an operator that accepts its values, it compiles to the test of the values as they are read.
theorem compile_custom (hleaf : leaf.isLeaf = true) (haccepts : custom.AcceptsValues)
    (hplan : Plan.ofLeaf record options (leaf.asking .oneOf) = .ok plan)
    (hlist : plan.resolution.type.isCollection = false)
    (hliterals : options.coercer.coerceAll plan.declared Operator.oneOf.name plan.field
      (Operator.oneOf.tokens options.locale leaf.value) = .ok literals) :
    compile record { options with operators } (some (leaf.calling name)) =
      .ok (plan.positive .oneOf literals) := by
  obtain ⟨hfield, -⟩ := Plan.ofLeaf_eq_ok hplan
  have hcalling : (leaf.calling name).isLeaf = true := hleaf
  have hfield : (leaf.calling name).field = some plan.field := hfield
  have hcoerced := Coercer.coerceAll_eq_ok_of_operator name hliterals
  have hbind : ({ plan with binding := .custom custom } : LeafPlan).bind record.catalog
      { options with operators } (leaf.calling name) = .ok (plan.positive .oneOf literals) :=
    LeafPlan.bind_acceptsValues haccepts rfl hfield rfl hlist hcoerced
  rw [compile_leaf hcalling, Plan.ofLeaf_custom hcustom hplan]
  exact hbind

end Extended

namespace Filter

section Field

variable {operators : List CustomOperator} {custom : CustomOperator} {name field : String}
  {r : Resolution} {filter : Filter} (hleaf : leaf.isLeaf = true)
  (hfield : leaf.field = some field)
  (hresolve : Resolution.resolve record options.toSettings field = .ok r)
  (hlist : r.type.isCollection = false)
  (hbuiltin : options.operator? Operator.oneOf.name = none)
  (hcustom : ({ options with operators } : Options).operator? name = some custom)
  (haccepts : custom.AcceptsValues)
  (h : build record options (some (leaf.asking .oneOf)) = .ok filter)
include hleaf hfield hresolve hlist hbuiltin hcustom haccepts h

-- Both filters ask the same places and read them alike. What they read is held against the values of
-- the leaf, with the built-in operator in lower case where that is what is read.
theorem exists_build_custom :
    ∃ own declared literals,
      build record { options with operators } (some (leaf.calling name)) = .ok own ∧
      leaf.type.bind Kind.read = some declared ∧ Test.isScalar r.type.element = true ∧
      options.coercer.coerceAll declared Operator.oneOf.name field
        (Operator.oneOf.tokens options.locale leaf.value) = .ok literals ∧
      (∀ datum, own.evaluate datum = (Operator.oneOf.targets (r.places datum)).anyM
        (Place.ask options.coercer .oneOf declared (options.folds declared) literals)) ∧
      ∀ datum, filter.evaluate datum = (Operator.oneOf.targets (r.places datum)).anyM
        (Place.ask options.coercer .oneOf declared (options.folds declared)
          (if options.folds declared then literals.map Value.foldCase else literals)) := by
  obtain ⟨hcompile, hcoercer⟩ := build_eq_ok.mp h
  obtain ⟨plan, values, hplan, hvalues, hcondition⟩ :=
    (compile_builtin_eq_ok (show (leaf.asking .oneOf).isLeaf = true from hleaf) rfl hbuiltin).mp
      hcompile
  obtain ⟨-, literals, hliterals, rfl⟩ := LeafPlan.values_eq_ok.mp hvalues
  obtain ⟨hplanField, hdeclared, -, hplanResolve, -, -, hfold⟩ := Plan.ofLeaf_eq_ok hplan
  obtain rfl : field = plan.field := Option.some.inj (hfield.symm.trans hplanField)
  obtain rfl : r = plan.resolution := Except.ok.inj (hresolve.symm.trans hplanResolve)
  have hmisuse := LeafPlan.misuse?_of_ofLeaf hplan (Plan.binding_of_ofLeaf rfl hbuiltin hplan)
  have heval (values : List Value) (datum : Datum) :
      (plan.positive .oneOf values).eval options.coercer datum =
        (Operator.oneOf.targets (plan.resolution.places datum)).anyM
          (Place.ask options.coercer .oneOf plan.declared plan.fold values) := by
    have hnull : Operator.oneOf.test ≠ .isNull := by decide
    exact LeafPlan.eval_positive_of_takes rfl hnull trivial hmisuse (LeafPlan.string_of_fold hplan)
      options.coercer datum
  refine ⟨⟨plan.positive .oneOf literals, options.coercer⟩, plan.declared, literals,
    build_eq_ok.mpr ⟨compile_custom hcustom hleaf haccepts hplan hlist hliterals, rfl⟩, hdeclared,
    Test.isScalar_of_misuse? (by decide) (by decide) hmisuse, hliterals, ?_, ?_⟩
  · rw [← hfold]
    exact heval literals
  · intro datum
    rw [evaluate, hcoercer, ← hcondition, ← hfold]
    exact heval _ datum

-- A leaf on a field that is no list, with an operator that accepts its values in place of the
-- built-in one, compiles where that does. It accepts no more records. It comes to the same for all
-- records unless texts are compared in lower case, and then if the leaf gives the lower case of each
-- of its texts along with it.
theorem custom_agrees_iff :
    ∃ own, build record { options with operators } (some (leaf.calling name)) = .ok own ∧
      (∀ datum, own.evaluate datum = .ok true → filter.evaluate datum = .ok true) ∧
      ((∀ datum, own.evaluate datum = filter.evaluate datum) ↔
        (leaf.type.bind Kind.read = some .string → options.caseSensitive = false →
          ∀ s ∈ Operator.oneOf.tokens options.locale leaf.value,
            Text.lower s ∈ Operator.oneOf.tokens options.locale leaf.value)) := by
  obtain ⟨own, declared, literals, hown, hdeclared, hscalar, hliterals, howned, hheld⟩ :=
    exists_build_custom hleaf hfield hresolve hlist hbuiltin hcustom haccepts h
  refine ⟨own, hown, ?_⟩
  simp only [howned, hheld]
  by_cases hfold : options.folds declared = true
  · obtain ⟨hstring, hcase⟩ := Bool.and_eq_true_iff.mp hfold
    obtain rfl : declared = .string := beq_iff_eq.mp hstring
    have hcase : options.caseSensitive = false := by simpa using hcase
    rw [Coercer.coerceAll_string] at hliterals
    obtain rfl := Except.ok.inj hliterals
    simp only [hfold, if_true, hdeclared, hcase, forall_const]
    exact ⟨Resolution.anyM_ask_lower_of_texts options.coercer,
      Resolution.anyM_ask_texts_eq_iff options.coercer hscalar⟩
  · refine ⟨by simp [hfold], ?_⟩
    have hexact : leaf.type.bind Kind.read = some .string → options.caseSensitive ≠ false := by
      intro hstring hcase
      obtain rfl := Option.some.inj (hdeclared.symm.trans hstring)
      exact hfold (by rw [Options.folds, hcase]; rfl)
    simp only [hfold, Bool.false_eq_true, if_false, implies_true, true_iff]
    exact fun hstring hcase => absurd hcase (hexact hstring)

end Field

private def among : CustomOperator := .anyOf "among" 0

private def withAmong : Options := { operators := [among] }

private def wardrobes : RecordType :=
  ⟨[⟨"Wardrobe", [("coats", .list (.object 1))], none⟩,
    ⟨"Coat", [("colour", .scalar .string true)], none⟩], 0⟩

private def red : Rule := .leaf "coats.colour" "in" "string" (some (.text "[Red, red]"))

-- A colour in lower case next to the same in another spelling.
theorem red_agrees_with_among :
    ∃ filter own, build wardrobes withAmong (some red) = .ok filter ∧
      build wardrobes withAmong (some (red.calling "among")) = .ok own ∧
      ∀ datum, own.evaluate datum = filter.evaluate datum := by
  obtain ⟨filter, h⟩ := Outcome.exists_ok_of_isOk
    (show (build wardrobes withAmong (some red)).isOk = true by decide +kernel)
  have hresolve : Resolution.resolve wardrobes withAmong.toSettings "coats.colour" =
      .ok ⟨[[.member "coats"]], [.member "colour"], .scalar .string true, true⟩ := by
    decide +kernel
  have hamong : withAmong.operator? "among" = some among := rfl
  obtain ⟨own, hown, -, hagrees⟩ := custom_agrees_iff (show red.isLeaf = true from rfl) rfl hresolve
    rfl rfl hamong (CustomOperator.anyOf_acceptsValues "among" 0) h
  have hlower : ∀ s ∈ Operator.oneOf.tokens withAmong.locale red.value,
      Text.lower s ∈ Operator.oneOf.tokens withAmong.locale red.value := by
    decide +kernel
  exact ⟨filter, own, h, hown, hagrees.mpr fun _ _ => hlower⟩

private def members : RecordType := ⟨[⟨"T", [("name", .scalar .string false)], none⟩], 0⟩

private def adaAlone : Rule := .leaf "name" "in" "string" (some (.text "Ada"))

private def ada : Datum := .record [("name", .scalar (.string "Ada"))] []

-- The name is read in lower case and held against the text as it is given.
theorem ada_not_among :
    ∃ filter own, build members withAmong (some adaAlone) = .ok filter ∧
      build members withAmong (some (adaAlone.calling "among")) = .ok own ∧
      filter.evaluate ada = .ok true ∧ own.evaluate ada = .ok false := by
  have hfilter : (build members withAmong (some adaAlone)).map (·.evaluate ada) =
      .ok (.ok true) := by
    decide +kernel
  have hown : (build members withAmong (some (adaAlone.calling "among"))).map
      (·.evaluate ada) = .ok (.ok false) := by
    decide +kernel
  obtain ⟨filter, h, hfound⟩ := Outcome.map_eq_ok.mp hfilter
  obtain ⟨own, h', hmissed⟩ := Outcome.map_eq_ok.mp hown
  exact ⟨filter, own, h, h', hfound, hmissed⟩

end Filter

end Sieve

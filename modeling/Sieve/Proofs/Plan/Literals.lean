import Sieve.Proofs.Condition.Asked
import Sieve.Proofs.Plan.Reach

-- The condition of a leaf carries the texts of the leaf's literal, each of them read as the declared
-- kind, and nothing else.
namespace Sieve

namespace Condition

-- A condition without the quantifiers around it.
def unquantified : Condition → Condition
  | anyElement _ inner => inner.unquantified
  | condition => condition

-- A condition without a negation around it and without the quantifiers inside that.
def core : Condition → Condition
  | not inner => inner.unquantified
  | condition => condition.unquantified

theorem unquantified_quantify (inner : Condition) (collections : List FieldRef) :
    (inner.quantify collections).unquantified = inner.unquantified := by
  induction collections with
  | nil => rfl
  | cons collection rest ih => exact ih

-- A test keeps its form under quantifiers and a negation around them.
theorem core_quantify {test : Condition} {field : FieldRef} (h : test.field? = some field)
    (collections : List FieldRef) (negated : Bool) :
    (if negated then (test.quantify collections).negate else test.quantify collections).core =
      test := by
  have htest : test.unquantified = test := by
    cases test <;> first | rfl | cases h
  have hquantified := unquantified_quantify test collections
  rw [htest] at hquantified
  cases collections with
  | nil => cases negated <;> cases test <;> first | rfl | cases h
  | cons collection rest => cases negated <;> exact hquantified

-- A constant is flipped where no quantifier stands between it and the negation.
theorem core_quantify_constant (collections : List FieldRef) (negated : Bool) :
    (if negated then ((constant false).quantify collections).negate
      else (constant false).quantify collections).core =
      constant (negated && collections.isEmpty) := by
  cases collections with
  | nil => cases negated <;> rfl
  | cons collection rest =>
      rw [List.isEmpty_cons, Bool.and_false]
      cases negated <;> exact unquantified_quantify (constant false) rest

end Condition

-- A text of a literal as a condition carries it.
def Coercer.literal? (c : Coercer) (declared : Kind) (fold : Bool) (token : String) :
    Option Value :=
  (c.parse token declared).map fun value => if fold then value.foldCase else value

-- The condition that an operator comes to on the field of a resolution, negation and quantifiers
-- aside, given the texts of its literal and how they are read. `subject` is what tests of values
-- look at: the field, or an element of the collection there.
inductive Operator.Carries (read : String → Option Value) (r : Resolution)
    (field subject : FieldRef) (op : Operator) : List String → Condition → Prop
  | compare {comparison : Comparison} {token : String} {value : Value}
      (hop : op.test = .compare comparison) (hvalue : read token = some value) :
      Carries read r field subject op [token] (.compare subject comparison value)
  | oneOf {tokens : List String} {values : List Value} (hop : op.test = .oneOf)
      (hsome : tokens ≠ [])
      (hvalues : List.Forall₂ (fun token value => read token = some value) tokens values) :
      Carries read r field subject op tokens (.oneOf subject values)
  | between {first second : String} {low high : Value} (hop : op.test = .between)
      (hlow : read first = some low) (hhigh : read second = some high) :
      Carries read r field subject op [first, second] (.between subject low high)
  | text {test : TextTest} {token pattern : String} (hop : op.test = .text test)
      (hpattern : read token = some (.string pattern)) :
      Carries read r field subject op [token] (.text subject test pattern)
  | isNull (hop : op.test = .isNull) (hnullable : r.nullable = true) :
      Carries read r field subject op [] (.isNull field)
  | neverNull (hop : op.test = .isNull) (hnullable : r.nullable = false) :
      Carries read r field subject op [] (.constant (op.isNegated && r.hops.isEmpty))
  | isEmpty (hop : op.test = .isEmpty) :
      Carries read r field subject op []
        (.isEmpty field (if r.type.isCollection then .collection else .text))

variable {record : RecordType} {options : Options} {leaf : Rule} {op : Operator}

theorem Coercer.forall₂_literal? {c : Coercer} {kind : Kind} {operator field : String}
    {tokens : List String} {literals : List Value} (fold : Bool)
    (h : c.coerceAll kind operator field tokens = .ok literals) :
    List.Forall₂ (fun token value => c.literal? kind fold token = some value) tokens
      (if fold then literals.map Value.foldCase else literals) := by
  induction tokens generalizing literals with
  | nil =>
      cases h
      cases fold <;> exact .nil
  | cons token rest ih =>
      obtain ⟨value, others, hvalue, hothers, rfl⟩ := (Outcome.bind_cons_eq_ok id).mp h
      have hparse : c.parse token kind = some value := by
        unfold coerce at hvalue
        split at hvalue
        · rename_i hparse
          rw [hparse, Except.ok.inj hvalue]
        · cases hvalue
      have hrest := ih hothers
      cases fold with
      | false => exact .cons (by simp [literal?, hparse]) hrest
      | true => exact .cons (by simp [literal?, hparse]) hrest

namespace LeafPlan

variable {plan : LeafPlan} {values : List Value}

def subject (plan : LeafPlan) : FieldRef :=
  if plan.resolution.type.isCollection then Test.elementOf plan.target else plan.target

-- The test of one value, as a condition that is built for the field of a plan.
private theorem carries_onValue {tokens : List String} {read : String → Option Value}
    (hnull : op.test ≠ .isNull) (hempty : op.test ≠ .isEmpty)
    (harity : op.test.arity.accepts tokens.length = true) (htakes : op.test.Takes values)
    (hread : List.Forall₂ (fun token value => read token = some value) tokens values) :
    op.Carries read plan.resolution plan.target plan.subject tokens
      (op.test.onValue plan.subject values) := by
  cases htest : op.test with
  | isNull => exact absurd htest hnull
  | isEmpty => exact absurd htest hempty
  | compare comparison =>
      rw [htest] at htakes
      obtain ⟨value, rfl⟩ := htakes
      obtain - | ⟨hvalue, hnil⟩ := hread
      cases hnil
      exact .compare htest hvalue
  | between =>
      rw [htest] at htakes
      obtain ⟨low, high, rfl⟩ := htakes
      obtain - | ⟨hlow, hrest⟩ := hread
      obtain - | ⟨hhigh, hnil⟩ := hrest
      cases hnil
      exact .between htest hlow hhigh
  | text test =>
      rw [htest] at htakes
      obtain ⟨pattern, rfl⟩ := htakes
      obtain - | ⟨hpattern, hnil⟩ := hread
      cases hnil
      exact .text htest hpattern
  | oneOf =>
      refine .oneOf htest ?_ hread
      rintro rfl
      rw [htest] at harity
      cases harity

-- A test of values is asked of an element of each list on the way, and of the one at its end.
private theorem positive_of_value (hnull : op.test ≠ .isNull) (hempty : op.test ≠ .isEmpty) :
    ∃ collections, plan.positive op.test values =
      (op.test.onValue plan.subject values).quantify collections := by
  rw [positive, Test.build_of_value hnull hempty, subject]
  split
  · refine ⟨plan.resolution.hopRefs plan.declared ++ [plan.target], ?_⟩
    rw [Condition.quantify, Condition.quantify, List.foldr_append]
    rfl
  · exact ⟨_, rfl⟩

-- The condition of a leaf, be it negated or not, without what stands around its one test.
theorem carries_core (hplan : Plan.ofLeaf record options leaf = .ok plan)
    (hbinding : plan.binding = .builtin op)
    (hvalues : plan.values op options.toSettings options.coercer leaf.value = .ok values) :
    op.Carries (options.coercer.literal? plan.declared plan.fold) plan.resolution plan.target
      plan.subject (op.tokens options.locale leaf.value)
      (if op.isNegated then (plan.positive op.test values).negate
        else plan.positive op.test values).core := by
  have htokens : op.test.takesValue = false → op.tokens options.locale leaf.value = [] := by
    intro h
    rw [Operator.tokens, h, if_neg Bool.false_ne_true]
  by_cases hnull : op.test = .isNull
  · rw [htokens (by rw [hnull]; rfl), positive, hnull, Test.build]
    cases hnullable : plan.resolution.nullable with
    | true =>
        rw [if_pos rfl, Condition.core_quantify rfl]
        exact .isNull hnull hnullable
    | false =>
        have hhops : (plan.resolution.hopRefs plan.declared).isEmpty =
            plan.resolution.hops.isEmpty := List.isEmpty_map
        rw [if_neg Bool.false_ne_true, Condition.core_quantify_constant, hhops]
        exact .neverNull hnull hnullable
  by_cases hempty : op.test = .isEmpty
  · rw [htokens (by rw [hempty]; rfl), positive, hempty, Test.build, Condition.core_quantify rfl]
    exact .isEmpty hempty
  have htakes := takes_of_values hplan hbinding hvalues
  obtain ⟨harity, literals, hliterals, rfl⟩ := values_eq_ok.mp hvalues
  have hread := Coercer.forall₂_literal? plan.fold hliterals
  obtain ⟨collections, hpositive⟩ := positive_of_value hnull hempty
  obtain ⟨hfield, -, -⟩ := Condition.onValue_of_takes hnull hempty htakes plan.subject
  rw [hpositive, Condition.core_quantify hfield]
  exact carries_onValue hnull hempty harity htakes hread

end LeafPlan

namespace Filter

-- A leaf becomes one test of its field, with a negation and quantifiers around it at most, that
-- carries each text of its literal once and in order, read as the declared kind and lower-cased if
-- texts are folded. Only a test for null may be settled beforehand. Texts are searched for the text
-- of their literal as it is.
theorem core_carries_literals {filter : Filter} (hleaf : leaf.isLeaf = true)
    (hname : leaf.operator = some op.name) (hbuiltin : options.operator? op.name = none)
    (h : build record options (some leaf) = .ok filter) :
    ∃ path declared r, leaf.field = some path ∧ leaf.type.bind Kind.read = some declared ∧
      Resolution.resolve record options.toSettings path = .ok r ∧
      op.Carries (options.coercer.literal? declared (options.folds declared)) r
        (r.fieldRef declared (options.folds declared))
        (if r.type.isCollection then Test.elementOf (r.fieldRef declared (options.folds declared))
          else r.fieldRef declared (options.folds declared))
        (op.tokens options.locale leaf.value) filter.condition.core ∧
      ∀ test, op.test = .text test → ∀ token,
        options.coercer.literal? declared (options.folds declared) token =
          some (.string (if options.folds declared then Text.lower token else token)) := by
  obtain ⟨hcompile, -⟩ := build_eq_ok.mp h
  obtain ⟨plan, values, hplan, hvalues, hcondition⟩ :=
    (compile_builtin_eq_ok hleaf hname hbuiltin).mp hcompile
  have hbinding := Plan.binding_of_ofLeaf hname hbuiltin hplan
  have hcarries := LeafPlan.carries_core hplan hbinding hvalues
  have hmisuse := LeafPlan.misuse?_of_ofLeaf hplan hbinding
  obtain ⟨hfield, hdeclared, -, hresolve, -, -, hfold⟩ := Plan.ofLeaf_eq_ok hplan
  rw [hcondition, LeafPlan.subject, LeafPlan.target, hfold] at hcarries
  refine ⟨plan.field, plan.declared, plan.resolution, hfield, hdeclared, hresolve, hcarries, ?_⟩
  intro test htest token
  rw [htest] at hmisuse
  rw [Test.string_of_misuse? hmisuse]
  cases options.folds .string <;> rfl

private def shelves : RecordType :=
  ⟨[⟨"Room", [("shelves", .list (.object 1))], none⟩,
    ⟨"Shelf", [("names", .list (.scalar .string false))], none⟩], 0⟩

private def unnamedShelves : Rule :=
  .leaf "shelves.names" "not_in" "string" (some (.text "[Ab, \"C,d\"]"))

private def shelfNames : Resolution where
  hops := [[.member "shelves"]]
  path := [.member "names"]
  type := .list (.scalar .string false)
  nullable := true

-- Two names in brackets, one of them in quotes, under a negation and two quantifiers.
theorem unnamedShelves_carries_names :
    ∃ filter, build shelves {} (some unnamedShelves) = .ok filter ∧
      Operator.notOneOf.Carries (({} : Options).coercer.literal? .string true) shelfNames
        (shelfNames.fieldRef .string true) (Test.elementOf (shelfNames.fieldRef .string true))
        ["Ab", "C,d"] filter.condition.core := by
  obtain ⟨filter, h⟩ := Outcome.exists_ok_of_isOk
    (show (build shelves {} (some unnamedShelves)).isOk = true by decide +kernel)
  obtain ⟨path, declared, r, hpath, hdeclared, hresolve, hcarries, -⟩ := core_carries_literals rfl
    (show unnamedShelves.operator = some Operator.notOneOf.name from rfl) rfl h
  obtain rfl : "shelves.names" = path := Option.some.inj hpath
  have hstring : unnamedShelves.type.bind Kind.read = some .string := by decide +kernel
  obtain rfl : Kind.string = declared := Option.some.inj (hstring.symm.trans hdeclared)
  have hnames : Resolution.resolve shelves ({} : Options).toSettings "shelves.names" =
      .ok shelfNames := by decide +kernel
  obtain rfl : shelfNames = r := Except.ok.inj (hnames.symm.trans hresolve)
  have htokens : Operator.notOneOf.tokens ({} : Options).locale unnamedShelves.value =
      ["Ab", "C,d"] := by decide +kernel
  rw [htokens] at hcarries
  exact ⟨filter, h, hcarries⟩

end Filter

end Sieve

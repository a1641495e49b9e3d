import Sieve.Proofs.Plan.Complement
import Sieve.Proofs.Plan.Literals

-- One leaf with several operators that compare values, and with several literals: what each of them
-- is compiled to, and which records it lets pass.
namespace Sieve

variable {record : RecordType} {options : Options} {leaf : Rule} {op other : Operator}

-- A leaf with another operator and another literal.
def Rule.testing (leaf : Rule) (op : Operator) (raw : RawValue) : Rule :=
  { leaf.asking op with value := some raw }

-- Whether a rule becomes a filter that lets a record pass.
def Accepts (record : RecordType) (options : Options) (rule : Rule) (datum : Datum) : Prop :=
  ∃ filter, Filter.build record options (some rule) = .ok filter ∧
    filter.evaluate datum = .ok true

theorem accepts_iff {rule : Rule} {datum : Datum} :
    Accepts record options rule datum ↔
      (Filter.build record options (some rule)).map (·.evaluate datum) = .ok (.ok true) :=
  Outcome.map_eq_ok.symm

namespace Operator

-- The operators that compare values, their negations aside.
def comparing : List Operator :=
  [equal, oneOf, less, lessOrEqual, greater, greaterOrEqual, between]

theorem isNegated_of_mem_comparing (h : op ∈ comparing) : op.isNegated = false := by
  revert h
  cases op <;> decide

theorem ne_of_mem_comparing (h : op ∈ comparing) : op.test ≠ .isNull ∧ op.test ≠ .isEmpty := by
  revert h
  cases op <;> decide

-- All of them can be applied to the same fields.
theorem misuse?_of_mem_comparing (h : op ∈ comparing) :
    op.test.misuse? = Operator.equal.test.misuse? := by
  funext type declared
  cases op <;> first | rfl | exact absurd h (by decide)

theorem tokens_of_mem_comparing (h : op ∈ comparing) (locale : Locale) (raw : RawValue) :
    op.tokens locale (some raw) = Literal.tokens locale op.test.splitsText raw := by
  cases op <;> first | rfl | exact absurd h (by decide)

end Operator

namespace Coercer

variable {c : Coercer} {declared : Kind} {fold : Bool} {raw : RawValue} {value : Value}

-- The value of a literal that consists of one text, as a condition carries it.
def single? (c : Coercer) (declared : Kind) (fold : Bool) (raw : RawValue) : Option Value :=
  match Literal.tokens c.locale false raw with
  | [token] => c.literal? declared fold token
  | _ => none

theorem single?_eq_some :
    c.single? declared fold raw = some value ↔
      ∃ token, Literal.tokens c.locale false raw = [token] ∧
        c.literal? declared fold token = some value := by
  unfold single?
  split
  · rename_i token htokens
    simp [htokens]
  · rename_i htokens
    simp only [reduceCtorEq, false_iff]
    rintro ⟨token, htoken, -⟩
    exact htokens token htoken

theorem kind_of_literal? {token : String} (h : c.literal? declared fold token = some value) :
    value.kind = declared := by
  obtain ⟨parsed, hparsed, rfl⟩ := Option.map_eq_some_iff.mp h
  cases fold with
  | false => exact kind_of_parse hparsed
  | true => exact (Value.kind_foldCase parsed).trans (kind_of_parse hparsed)

-- Texts that can be read one by one can be read together.
theorem exists_coerceAll {operator field : String} {tokens : List String} {values : List Value}
    (h : List.Forall₂ (fun token value => c.literal? declared fold token = some value) tokens
      values) :
    ∃ literals, c.coerceAll declared operator field tokens = .ok literals ∧
      (if fold then literals.map Value.foldCase else literals) = values := by
  induction h with
  | nil => exact ⟨[], rfl, by cases fold <;> rfl⟩
  | @cons token value tokens values htoken _ ih =>
      obtain ⟨literals, hliterals, rfl⟩ := ih
      obtain ⟨literal, hparse, rfl⟩ := Option.map_eq_some_iff.mp htoken
      have hcoerce : c.coerce declared operator field token = .ok literal := by
        rw [coerce, hparse]
      refine ⟨literal :: literals, (Outcome.bind_cons_eq_ok id).mpr ?_, by cases fold <;> rfl⟩
      exact ⟨literal, literals, hcoerce, hliterals, rfl⟩

-- Literals of one text each, put in a list, are the texts of that list.
theorem forall₂_itemTokens {items : List RawValue} {values : List Value}
    (h : List.Forall₂ (fun item value => c.single? declared fold item = some value) items values) :
    List.Forall₂ (fun token value => c.literal? declared fold token = some value)
      (Literal.itemTokens c.locale items) values := by
  induction h with
  | nil => exact .nil
  | @cons item value items values hitem _ ih =>
      obtain ⟨token, htoken, hvalue⟩ := single?_eq_some.mp hitem
      rw [Literal.itemTokens, htoken]
      exact .cons hvalue ih

end Coercer

namespace LeafPlan

variable {plan : LeafPlan} {raw : RawValue} {values : List Value}

-- The values of a leaf are its texts, each read alone, as many as the operator takes.
theorem values_eq_ok_iff_forall₂ (hop : op ∈ Operator.comparing) :
    plan.values op options.toSettings options.coercer (some raw) = .ok values ↔
      op.test.arity.accepts
        (Literal.tokens options.locale op.test.splitsText raw).length = true ∧
      List.Forall₂
        (fun token value => options.coercer.literal? plan.declared plan.fold token = some value)
        (Literal.tokens options.locale op.test.splitsText raw) values := by
  rw [values_eq_ok, Operator.tokens_of_mem_comparing hop]
  refine and_congr_right fun _ => ?_
  constructor
  · rintro ⟨literals, hliterals, rfl⟩
    exact Coercer.forall₂_literal? plan.fold hliterals
  · exact Coercer.exists_coerceAll

-- A single comparison takes a literal of one text.
theorem values_compare_eq_ok {comparison : Comparison} (hop : op ∈ Operator.comparing)
    (htest : op.test = .compare comparison) :
    plan.values op options.toSettings options.coercer (some raw) = .ok values ↔
      ∃ value, options.coercer.single? plan.declared plan.fold raw = some value ∧
        values = [value] := by
  rw [values_eq_ok_iff_forall₂ hop, htest]
  change _ ∧ List.Forall₂ _ (Literal.tokens options.coercer.locale false raw) values ↔ _
  constructor
  · rintro ⟨harity, hvalues⟩
    obtain ⟨token, htoken⟩ := List.length_eq_one_iff.mp (beq_iff_eq.mp harity)
    change Literal.tokens options.coercer.locale false raw = [token] at htoken
    rw [htoken] at hvalues
    obtain - | ⟨hvalue, hnil⟩ := hvalues
    cases hnil
    exact ⟨_, Coercer.single?_eq_some.mpr ⟨token, htoken, hvalue⟩, rfl⟩
  · rintro ⟨value, hvalue, rfl⟩
    obtain ⟨token, htoken, hvalue⟩ := Coercer.single?_eq_some.mp hvalue
    refine ⟨?_, htoken ▸ .cons hvalue .nil⟩
    exact beq_iff_eq.mpr (congrArg List.length htoken)

-- A range takes two of them.
theorem values_between_eq_ok {low high : RawValue} {lowValue : Value}
    (hlow : options.coercer.single? plan.declared plan.fold low = some lowValue) :
    plan.values .between options.toSettings options.coercer (some (.list [low, high])) =
        .ok values ↔
      ∃ highValue, options.coercer.single? plan.declared plan.fold high = some highValue ∧
        values = [lowValue, highValue] := by
  rw [values_eq_ok_iff_forall₂ (by decide)]
  obtain ⟨first, hfirst, hlowValue⟩ := Coercer.single?_eq_some.mp hlow
  have htokens : Literal.tokens options.locale Operator.between.test.splitsText
      (.list [low, high]) = first :: Literal.tokens options.coercer.locale false high := by
    change Literal.tokens options.locale false low = [first] at hfirst
    change Literal.tokens options.locale false low ++
      (Literal.tokens options.locale false high ++ []) = _
    rw [hfirst, List.append_nil]
    rfl
  rw [htokens]
  constructor
  · rintro ⟨harity, hvalues⟩
    obtain ⟨second, hsecond⟩ : ∃ second,
        Literal.tokens options.coercer.locale false high = [second] :=
      List.length_eq_one_iff.mp (by simpa [Operator.test, Test.arity, Arity.accepts] using harity)
    rw [hsecond] at hvalues
    obtain - | ⟨hfirstValue, hrest⟩ := hvalues
    obtain - | ⟨hsecondValue, hnil⟩ := hrest
    cases hnil
    cases hlowValue.symm.trans hfirstValue
    exact ⟨_, Coercer.single?_eq_some.mpr ⟨second, hsecond, hsecondValue⟩, rfl⟩
  · rintro ⟨highValue, hhigh, rfl⟩
    obtain ⟨second, hsecond, hhighValue⟩ := Coercer.single?_eq_some.mp hhigh
    rw [hsecond]
    exact ⟨rfl, .cons hlowValue (.cons hhighValue .nil)⟩

-- A list takes any number of them but none.
theorem values_oneOf {items : List RawValue} (hne : items ≠ [])
    (h : List.Forall₂ (fun item value =>
      options.coercer.single? plan.declared plan.fold item = some value) items values) :
    plan.values .oneOf options.toSettings options.coercer (some (.list items)) = .ok values := by
  have htokens := Coercer.forall₂_itemTokens h
  refine (values_eq_ok_iff_forall₂ (by decide)).mpr ⟨?_, htokens⟩
  have hlength : (Literal.itemTokens options.locale items).length = items.length :=
    htokens.length_eq.trans h.length_eq.symm
  rw [Literal.tokens, hlength]
  exact decide_eq_true (List.length_pos_of_ne_nil hne)

end LeafPlan

namespace Plan

variable {plan : LeafPlan} {raw : RawValue} {field : String} {declared : Kind} {r : Resolution}

-- A plan for one of the operators fits the others, whatever the literal.
theorem ofLeaf_testing (hop : op ∈ Operator.comparing) (hother : other ∈ Operator.comparing)
    (hbuiltin : ∀ op ∈ Operator.comparing, options.operator? op.name = none)
    (h : ofLeaf record options (leaf.testing op raw) = .ok plan) (otherRaw : RawValue) :
    ofLeaf record options (leaf.testing other otherRaw) =
      .ok { plan with binding := .builtin other } := by
  have hmisuse : other.test.misuse? = op.test.misuse? := by
    rw [Operator.misuse?_of_mem_comparing hop, Operator.misuse?_of_mem_comparing hother]
  have h : ofLeaf record options (leaf.asking op) = .ok plan := h
  change ofLeaf record options (leaf.asking other) = _
  rw [ofLeaf_asking hmisuse (hbuiltin op hop) (hbuiltin other hother), h]
  rfl

theorem eq_of_ofLeaf_testing (hfield : leaf.field = some field)
    (hdeclared : leaf.type.bind Kind.read = some declared)
    (hresolve : Resolution.resolve record options.toSettings field = .ok r)
    (h : ofLeaf record options (leaf.testing op raw) = .ok plan) :
    plan.declared = declared ∧ plan.resolution = r ∧ plan.fold = options.folds declared ∧
      r.checkKind field declared = .ok () := by
  obtain ⟨hplanField, hplanDeclared, -, hplanResolve, hkind, -, hfold⟩ := ofLeaf_eq_ok h
  obtain rfl : field = plan.field := Option.some.inj (hfield.symm.trans hplanField)
  obtain rfl : declared = plan.declared := Option.some.inj (hdeclared.symm.trans hplanDeclared)
  obtain rfl : r = plan.resolution := Except.ok.inj (hresolve.symm.trans hplanResolve)
  exact ⟨rfl, rfl, hfold, hkind⟩

end Plan

section Leaf

variable {plan : LeafPlan} {raw : RawValue} {datum : Datum} (hleaf : leaf.isLeaf = true)
  (hbuiltin : ∀ op ∈ Operator.comparing, options.operator? op.name = none)
include hleaf hbuiltin

theorem compile_testing_eq_ok {condition : Condition} (hop : op ∈ Operator.comparing) :
    compile record options (some (leaf.testing op raw)) = .ok condition ↔
      ∃ plan values, Plan.ofLeaf record options (leaf.testing op raw) = .ok plan ∧
        plan.values op options.toSettings options.coercer (some raw) = .ok values ∧
        plan.positive op.test values = condition := by
  rw [compile_builtin_eq_ok (show (leaf.testing op raw).isLeaf = true from hleaf) rfl
    (hbuiltin op hop), Operator.isNegated_of_mem_comparing hop]
  exact Iff.rfl

theorem compiles_testing (hop : op ∈ Operator.comparing)
    (hplan : Plan.ofLeaf record options (leaf.testing op raw) = .ok plan) :
    Compiles record options (leaf.testing op raw) ↔
      ∃ values, plan.values op options.toSettings options.coercer (some raw) = .ok values := by
  simp only [Compiles, compile_testing_eq_ok hleaf hbuiltin hop, hplan]
  constructor
  · rintro ⟨_, _, values, ⟨⟩, hvalues, -⟩
    exact ⟨values, hvalues⟩
  · rintro ⟨values, hvalues⟩
    exact ⟨_, plan, values, rfl, hvalues, rfl⟩

theorem Plan.exists_ofLeaf_testing (hop : op ∈ Operator.comparing)
    (h : Compiles record options (leaf.testing op raw)) :
    ∃ plan, ofLeaf record options (leaf.testing op raw) = .ok plan := by
  obtain ⟨condition, hcondition⟩ := h
  obtain ⟨plan, -, hplan, -⟩ := (compile_testing_eq_ok hleaf hbuiltin hop).mp hcondition
  exact ⟨plan, hplan⟩

-- A leaf lets a record pass if one of the places that its path comes to passes.
theorem accepts_testing (hop : op ∈ Operator.comparing)
    (hplan : Plan.ofLeaf record options (leaf.testing op raw) = .ok plan) :
    Accepts record options (leaf.testing op raw) datum ↔
      ∃ values, plan.values op options.toSettings options.coercer (some raw) = .ok values ∧
        ((plan.resolution.places datum).flatMap Place.opened).anyM
          (Place.ask options.coercer op plan.declared plan.fold values) = .ok true := by
  have hbinding := Plan.binding_of_ofLeaf rfl (hbuiltin op hop) hplan
  obtain ⟨hnull, hempty⟩ := Operator.ne_of_mem_comparing hop
  have heval {values : List Value}
      (hvalues : plan.values op options.toSettings options.coercer (some raw) = .ok values) :
      (plan.positive op.test values).eval options.coercer datum =
        ((plan.resolution.places datum).flatMap Place.opened).anyM
          (Place.ask options.coercer op plan.declared plan.fold values) := by
    rw [LeafPlan.eval_positive hplan hbinding (Operator.isNegated_of_mem_comparing hop) hnull
      hvalues, Operator.targets, if_neg hempty]
  simp only [Accepts, Filter.build_eq_ok, compile_testing_eq_ok hleaf hbuiltin hop, hplan]
  constructor
  · rintro ⟨⟨_, _⟩, ⟨⟨_, values, ⟨⟩, hvalues, rfl⟩, rfl⟩, hpasses⟩
    exact ⟨values, hvalues, (heval hvalues).symm.trans hpasses⟩
  · rintro ⟨values, hvalues, hpasses⟩
    exact ⟨⟨plan.positive op.test values, options.coercer⟩, ⟨⟨plan, values, rfl, hvalues, rfl⟩, rfl⟩,
      (heval hvalues).trans hpasses⟩

-- One comparison is made with a literal of one text.
theorem accepts_compare {comparison : Comparison} (hop : op ∈ Operator.comparing)
    (htest : op.test = .compare comparison)
    (hplan : Plan.ofLeaf record options (leaf.testing op raw) = .ok plan) :
    Accepts record options (leaf.testing op raw) datum ↔
      ∃ value, options.coercer.single? plan.declared plan.fold raw = some value ∧
        ((plan.resolution.places datum).flatMap Place.opened).anyM
          (Place.ask options.coercer op plan.declared plan.fold [value]) = .ok true := by
  rw [accepts_testing hleaf hbuiltin hop hplan]
  simp only [LeafPlan.values_compare_eq_ok hop htest]
  constructor
  · rintro ⟨_, ⟨value, hvalue, rfl⟩, hpasses⟩
    exact ⟨value, hvalue, hpasses⟩
  · rintro ⟨value, hvalue, hpasses⟩
    exact ⟨_, ⟨value, hvalue, rfl⟩, hpasses⟩

end Leaf

-- A leaf with one comparison holds what lies in the places that its path comes to against its
-- literal.
theorem Filter.evaluate_compare {comparison : Comparison} {field : String} {declared : Kind}
    {r : Resolution} {filter : Filter} (hleaf : leaf.isLeaf = true)
    (hfield : leaf.field = some field) (hdeclared : leaf.type.bind Kind.read = some declared)
    (hname : leaf.operator = some op.name) (hbuiltin : options.operator? op.name = none)
    (hop : op ∈ Operator.comparing) (htest : op.test = .compare comparison)
    (hresolve : Resolution.resolve record options.toSettings field = .ok r)
    (h : build record options (some leaf) = .ok filter) :
    ∃ literal, leaf.value.bind (options.coercer.single? declared (options.folds declared)) =
        some literal ∧
      ∀ datum, filter.evaluate datum = (op.targets (r.places datum)).anyM
        (Place.ask options.coercer op declared (options.folds declared) [literal]) := by
  obtain ⟨hcompile, hcoercer⟩ := build_eq_ok.mp h
  obtain ⟨plan, values, hplan, hvalues, hcondition⟩ :=
    (compile_builtin_eq_ok hleaf hname hbuiltin).mp hcompile
  have hpositive := Operator.isNegated_of_mem_comparing hop
  rw [hpositive, if_neg Bool.false_ne_true] at hcondition
  obtain ⟨hplanField, hplanDeclared, -, hplanResolve, -, -, hfold⟩ := Plan.ofLeaf_eq_ok hplan
  obtain rfl : field = plan.field := Option.some.inj (hfield.symm.trans hplanField)
  obtain rfl : declared = plan.declared :=
    Option.some.inj (hdeclared.symm.trans hplanDeclared)
  obtain rfl : r = plan.resolution := Except.ok.inj (hresolve.symm.trans hplanResolve)
  obtain ⟨literal, hliteral, rfl⟩ : ∃ literal, leaf.value.bind
      (options.coercer.single? plan.declared plan.fold) = some literal ∧ values = [literal] := by
    cases hraw : leaf.value with
    | some raw => exact (LeafPlan.values_compare_eq_ok hop htest).mp (hraw ▸ hvalues)
    | none =>
        obtain ⟨harity, -⟩ := LeafPlan.values_eq_ok.mp (hraw ▸ hvalues)
        rw [htest, Operator.tokens, htest] at harity
        cases harity
  rw [hfold] at hliteral
  refine ⟨literal, hliteral, fun datum => ?_⟩
  have heval := LeafPlan.eval_positive hplan (Plan.binding_of_ofLeaf hname hbuiltin hplan)
    hpositive (Operator.ne_of_mem_comparing hop).1 hvalues datum
  rw [evaluate, hcoercer, ← hcondition, heval, hfold]

end Sieve

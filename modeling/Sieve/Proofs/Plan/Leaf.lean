import Sieve.Filter
import Sieve.Proofs.Plan.Typing

-- What a leaf compiles to that stands alone.
namespace Sieve

variable {record : RecordType} {options : Options} {leaf : Rule}

theorem compile_leaf (hleaf : leaf.isLeaf = true) :
    compile record options (some leaf) =
      Plan.ofLeaf record options leaf >>= fun plan => plan.bind record.catalog options leaf := by
  rw [compile, Plan.ofRule?, Rule.isEmpty_of_isLeaf hleaf, Plan.ofRule_of_isLeaf hleaf]
  cases Plan.ofLeaf record options leaf <;> rfl

-- The texts that an operator takes from a literal.
def Operator.tokens (op : Operator) (locale : Locale) (value : Option RawValue) : List String :=
  if op.test.takesValue then Literal.canonicalize value op.test.splitsText locale else []

theorem Coercer.length_of_coerceAll {c : Coercer} {kind : Kind} {operator field : String}
    {tokens : List String} {values : List Value}
    (h : c.coerceAll kind operator field tokens = .ok values) : values.length = tokens.length := by
  induction tokens generalizing values with
  | nil =>
      cases h
      rfl
  | cons token rest ih =>
      obtain ⟨value, others, -, hothers, rfl⟩ := (Outcome.bind_cons_eq_ok id).mp h
      simp [ih hothers]

namespace LeafPlan

variable {plan : LeafPlan} {op : Operator} {settings : Settings} {coercer : Coercer}
  {raw : Option RawValue} {values : List Value}

-- The literals of a leaf are its texts, as many as the operator takes, read as the declared kind.
theorem values_eq :
    plan.values op settings coercer raw =
      if op.test.arity.accepts (op.tokens settings.locale raw).length then
        ((coercer.coerceAll plan.declared op.name plan.field
          (op.tokens settings.locale raw)).mapError .coercion).map fun literals =>
            if plan.fold then literals.map Value.foldCase else literals
      else
        .error (.configuration (.arity op.name plan.field op.test.arity
          (op.tokens settings.locale raw).length)) := by
  unfold LeafPlan.values Operator.tokens
  dsimp only
  generalize (if op.test.takesValue = true then
    Literal.canonicalize raw op.test.splitsText settings.locale else []) = tokens
  cases op.test.arity.accepts tokens.length with
  | false => rfl
  | true =>
      simp only [Bool.not_true, Bool.false_eq_true, if_false, if_true]
      cases coercer.coerceAll plan.declared op.name plan.field tokens <;> rfl

theorem values_eq_ok :
    plan.values op settings coercer raw = .ok values ↔
      op.test.arity.accepts (op.tokens settings.locale raw).length = true ∧
        ∃ literals, coercer.coerceAll plan.declared op.name plan.field
            (op.tokens settings.locale raw) = .ok literals ∧
          (if plan.fold then literals.map Value.foldCase else literals) = values := by
  rw [values_eq]
  split
  · rename_i harity
    simp only [harity, true_and, Outcome.map_eq_ok, Outcome.mapError_eq_ok]
  · rename_i harity
    simp [harity]

-- The condition of a leaf with a test, the negation of its operator aside.
def positive (plan : LeafPlan) (test : Test) (values : List Value) : Condition :=
  let onElement :=
    test.build plan.target plan.resolution.type.isCollection plan.resolution.nullable values
  onElement.quantify (plan.resolution.hopRefs plan.declared)

theorem bind_builtin {catalog : Catalog} (h : plan.binding = .builtin op) :
    plan.bind catalog options leaf =
      (plan.values op options.toSettings options.coercer leaf.value).map fun values =>
        if op.isNegated then (plan.positive op.test values).negate
        else plan.positive op.test values := by
  unfold LeafPlan.bind
  simp only [h]
  cases plan.values op options.toSettings options.coercer leaf.value <;> rfl

end LeafPlan

theorem Operator.ofName?_name (op : Operator) : ofName? op.name = some op := by
  cases op <;> decide

theorem Plan.findOperator_name {op : Operator} (h : options.operator? op.name = none) :
    findOperator options op.name = .ok (.builtin op) := by
  rw [findOperator, h, Operator.ofName?_name]

theorem Plan.binding_of_ofLeaf {op : Operator} {plan : LeafPlan}
    (hname : leaf.operator = some op.name) (hbuiltin : options.operator? op.name = none)
    (h : ofLeaf record options leaf = .ok plan) : plan.binding = .builtin op := by
  obtain ⟨-, -, ⟨name, hnamed, hfound⟩, -⟩ := ofLeaf_eq_ok h
  obtain rfl : op.name = name := Option.some.inj (hname.symm.trans hnamed)
  exact (Except.ok.inj ((findOperator_name hbuiltin).symm.trans hfound)).symm

-- A leaf compiles to the test of its operator, or the negation of that, if its plan can be made and
-- its literals can be read.
theorem compile_builtin_eq_ok {op : Operator} {condition : Condition} (hleaf : leaf.isLeaf = true)
    (hname : leaf.operator = some op.name) (hbuiltin : options.operator? op.name = none) :
    compile record options (some leaf) = .ok condition ↔
      ∃ plan values, Plan.ofLeaf record options leaf = .ok plan ∧
        plan.values op options.toSettings options.coercer leaf.value = .ok values ∧
        (if op.isNegated then (plan.positive op.test values).negate
          else plan.positive op.test values) = condition := by
  rw [compile_leaf hleaf, Outcome.bind_eq_ok]
  constructor
  · rintro ⟨plan, hplan, hbind⟩
    rw [LeafPlan.bind_builtin (Plan.binding_of_ofLeaf hname hbuiltin hplan)] at hbind
    obtain ⟨values, hvalues, hcondition⟩ := Outcome.map_eq_ok.mp hbind
    exact ⟨plan, values, hplan, hvalues, hcondition⟩
  · rintro ⟨plan, values, hplan, hvalues, hcondition⟩
    refine ⟨plan, hplan, ?_⟩
    rw [LeafPlan.bind_builtin (Plan.binding_of_ofLeaf hname hbuiltin hplan)]
    exact Outcome.map_eq_ok.mpr ⟨values, hvalues, hcondition⟩

end Sieve

import Sieve.Literal.Tokens
import Sieve.Plan.Basic

namespace Sieve

namespace Condition

-- The opposite condition; a constant just changes its value.
def negate : Condition → Condition
  | constant b => constant !b
  | condition => not condition

-- Joins the children of a fork. One child stands for itself, no child for what the combinator
-- leaves unchanged.
def combine (combinator : Combinator) (parts : List Condition) : Condition :=
  match parts, combinator with
  | [part], _ => part
  | [], .and => constant true
  | [], .or => constant false
  | parts, .and => all parts
  | parts, .or => any parts

end Condition

namespace LeafPlan

def target (plan : LeafPlan) : FieldRef :=
  plan.resolution.fieldRef plan.declared plan.fold

-- The literal of a leaf as the values that its operator takes.
def values (plan : LeafPlan) (op : Operator) (settings : Settings) (coercer : Coercer)
    (value : Option RawValue) : Except RuleError (List Value) := do
  let tokens :=
    if op.test.takesValue then
      Literal.canonicalize value op.test.splitsText settings.locale
    else []
  if !op.test.arity.accepts tokens.length then
    throw (.configuration (.arity op.name plan.field op.test.arity tokens.length))
  let values ←
    (coercer.coerceAll plan.declared op.name plan.field tokens).mapError .coercion
  return if plan.fold then values.map Value.foldCase else values

-- The condition of a leaf. A negated operator denies that any of the values that the path
-- reaches passes the test.
def bind (plan : LeafPlan) (catalog : Catalog) (options : Options) (rule : Rule) :
    Except RuleError Condition := do
  let hops := plan.resolution.hopRefs plan.declared
  match plan.binding with
  | .builtin op =>
    let values ← plan.values op options.toSettings options.coercer rule.value
    let test :=
      op.test.build plan.target plan.resolution.type.isCollection plan.resolution.nullable values
    let positive := test.quantify hops
    return if op.isNegated then positive.negate else positive
  | .custom op =>
    let test ← op.build {
      rule := rule
      catalog := catalog
      fieldType := plan.resolution.type
      field := plan.target
      tokens := Literal.canonicalize rule.value true options.locale
      settings := options.toSettings }
    return test.quantify hops

end LeafPlan

namespace Plan

mutual

-- Puts the literals of a tree into a plan for trees like it.
def bind (catalog : Catalog) (options : Options) : Plan → Rule → Except RuleError Condition
  | everything, _ => .ok (.constant true)
  | leaf plan, rule => plan.bind catalog options rule
  | fork combinator children, rule =>
    (bindChildren catalog options children rule.rules).map (Condition.combine combinator)

def bindChildren (catalog : Catalog) (options : Options) :
    List (Nat × Plan) → List Rule → Except RuleError (List Condition)
  | [], _ => .ok []
  | (place, plan) :: rest, rules =>
    match rules[place]? with
    | none => .error (.configuration (.incompleteRule .child))
    | some rule => do
      let part ← bind catalog options plan rule
      let parts ← bindChildren catalog options rest rules
      return part :: parts

end

-- As `bind`, for a tree that may be missing. Only a plan that lets everything pass fits no tree.
def bind? (catalog : Catalog) (options : Options) (plan : Plan) (rule : Option Rule) :
    Except RuleError Condition :=
  match plan, rule with
  | everything, _ => .ok (.constant true)
  | plan, some rule => plan.bind catalog options rule
  | _, none => .error (.configuration (.incompleteRule .child))

end Plan

-- The condition that a rule tree stands for. Faults of the tree come before faults of literals.
def compile (record : RecordType) (options : Options) (rule : Option Rule) :
    Except RuleError Condition := do
  let plan ← Plan.ofRule? record options rule
  plan.bind? record.catalog options rule

end Sieve

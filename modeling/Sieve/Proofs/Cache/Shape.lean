import Sieve.Cache.Key
import Sieve.Proofs.Plan.Assembly
import Sieve.Proofs.Resolution.Typing

namespace Sieve

-- The options that planning looks at; locale and time zone as they are without a word about them.
def Options.forPlanning (options : Options) : Options where
  caseSensitive := options.caseSensitive
  useIndexer := options.useIndexer
  indexerName := options.indexerName
  operators := options.operators

namespace Plan

theorem ofLeaf_forPlanning (record : RecordType) (options : Options) (rule : Rule) :
    ofLeaf record options.forPlanning rule = ofLeaf record options rule := by
  have hresolve (field : String) :
      Resolution.resolve record options.forPlanning.toSettings field =
        Resolution.resolve record options.toSettings field :=
    Resolution.resolve_congr (by rfl) (by rfl) field
  simp only [ofLeaf, hresolve]
  rfl

mutual

-- The plan for every tree of a shape.
def ofShape (record : RecordType) (options : Options) : Cache.Shape → Except RuleError Plan
  | .empty => .ok everything
  | .leaf field operator type =>
    (ofLeaf record options { field := field, operator := operator, type := type }).map leaf
  | .fork combinator children => (ofBranches record options children).map (fork combinator)

def ofBranches (record : RecordType) (options : Options) :
    Cache.Branches → Except RuleError (List (Nat × Plan))
  | .nil => .ok []
  | .cons place shape rest => do
    let plan ← ofShape record options shape
    let plans ← ofBranches record options rest
    return (place, plan) :: plans

end

variable (record : RecordType) (options : Options)

private theorem ofBranches_ofRules (rules : List Rule) (place : Nat)
    (ih : ∀ rule ∈ rules, ofShape record options.forPlanning (Cache.Shape.ofRule rule) =
      ofRule record options rule) :
    ofBranches record options.forPlanning (Cache.Branches.ofRules place rules) =
      ofChildren record options place rules := by
  induction rules generalizing place with
  | nil => simp [Cache.Branches.ofRules, ofBranches, ofChildren]
  | cons first rest ihrest =>
      have hrest := ihrest (place + 1) fun rule hrule => ih rule (List.mem_cons_of_mem _ hrule)
      rw [Cache.Branches.ofRules, ofChildren]
      cases first.isEmpty with
      | true => exact hrest
      | false =>
          simp only [Bool.false_eq_true, if_false, ofBranches]
          rw [ih first (by simp), hrest]

-- Planning a tree looks at nothing but its shape and the options for planning.
theorem ofShape_ofRule (rule : Rule) :
    ofShape record options.forPlanning (Cache.Shape.ofRule rule) = ofRule record options rule := by
  induction rule using Rule.treeInduction with
  | node rule ih =>
      obtain ⟨condition, field, operator, type, value, rules⟩ := rule
      cases rules with
      | nil =>
          cases field with
          | none => simp [Cache.Shape.ofRule, ofShape, ofRule]
          | some field =>
              simp only [Cache.Shape.ofRule, ofShape, ofRule, Option.isSome_some, if_true,
                ofLeaf_forPlanning]
              rfl
      | cons first rest =>
          simp only [Cache.Shape.ofRule, ofShape, ofRule]
          rw [ofBranches_ofRules record options (first :: rest) 0 ih]

theorem ofShape_ofRule? (rule : Option Rule) :
    ofShape record options.forPlanning (Cache.Shape.ofRule? rule) =
      ofRule? record options rule := by
  cases rule with
  | none => rfl
  | some rule =>
      rw [Cache.Shape.ofRule?, ofRule?]
      cases rule.isEmpty with
      | true => rfl
      | false => exact ofShape_ofRule record options rule

variable {record options} {record' : RecordType} {options' : Options} {rule rule' : Option Rule}

-- Trees that are looked up by the same key have the same plan, or the same fault.
theorem ofRule?_eq_of_key
    (hkey : Cache.Key.of record options rule = Cache.Key.of record' options' rule')
    (hoperators : options.operators = options'.operators) :
    ofRule? record options rule = ofRule? record' options' rule' := by
  obtain ⟨hrecord, hshape, hcase, huse, hname, -⟩ := Cache.Key.mk.inj hkey
  have hplanning : options.forPlanning = options'.forPlanning := by
    simp only [Options.forPlanning, hcase, huse, hname, hoperators]
  rw [← ofShape_ofRule?, ← ofShape_ofRule?, hrecord, hplanning, hshape]

end Plan

end Sieve

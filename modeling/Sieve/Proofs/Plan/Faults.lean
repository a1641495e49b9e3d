import Sieve.Proofs.Plan.Leaf
import Sieve.Proofs.Plan.Verdict

-- Which fault of a tree decides its error. A tree is gone through twice: first for the faults of its
-- leaves that show without their literals, then for the others.
namespace Sieve

open Outcome (error?)

variable {record : RecordType} {options : Options}

namespace Plan

theorem ofRule_of_isBare {rule : Rule} (h : rule.isBare = true) :
    ofRule record options rule = .ok everything := by
  obtain ⟨condition, field, operator, type, value, rules⟩ := rule
  obtain ⟨rfl, rfl⟩ : rules = [] ∧ field = none := by simpa [Rule.isBare] using h
  simp [ofRule]

-- Faults of the children from a place on, given those of each child.
private theorem error?_ofChildren (rules : List Rule) (place : Nat)
    (ih : ∀ rule ∈ rules, error? (ofRule record options rule) =
      rule.leaves.findSome? fun leaf => error? (ofLeaf record options leaf)) :
    error? (ofChildren record options place rules) =
      (Rule.leavesOf rules).findSome? fun leaf => error? (ofLeaf record options leaf) := by
  induction rules generalizing place with
  | nil => rfl
  | cons first rest ihrest =>
      rw [List.forall_mem_cons] at ih
      have htail := ihrest (place + 1) ih.2
      rw [Rule.leavesOf, List.findSome?_append]
      cases hempty : first.isEmpty with
      | true =>
          rw [ofChildren, if_pos hempty, (Rule.isEmpty_iff_leaves_eq_nil first).mp hempty, htail]
          rfl
      | false =>
          simp only [ofChildren, hempty, Bool.false_eq_true, if_false]
          rw [Outcome.error?_bind_cons (Prod.mk place), ih.1, htail]

theorem error?_ofRule (rule : Rule) :
    error? (ofRule record options rule) =
      rule.leaves.findSome? fun leaf => error? (ofLeaf record options leaf) := by
  induction rule using Rule.treeInduction with
  | node rule ih =>
      rcases Rule.leaf_or_fork_or_bare rule with hleaf | hfork | hbare
      · rw [ofRule_of_isLeaf hleaf, Outcome.error?_map, Rule.leaves_of_isLeaf hleaf,
          List.findSome?_singleton]
      · rw [ofRule_of_isFork hfork, Outcome.error?_map, Rule.leaves_of_isFork hfork]
        exact error?_ofChildren rule.rules 0 ih
      · rw [ofRule_of_isBare hbare, Rule.leaves_of_isBare hbare]
        rfl

-- Faults of binding the children from a place on, where `rules` are those children.
private theorem error?_bindChildren (all rules : List Rule) (place : Nat)
    (hall : all.drop place = rules)
    (ih : ∀ rule ∈ rules, ∀ plan, ofRule record options rule = .ok plan →
      error? (plan.bind record.catalog options rule) =
        rule.leaves.findSome? fun leaf => error? (compile record options (some leaf)))
    (children : List (Nat × Plan)) (hplans : ofChildren record options place rules = .ok children) :
    error? (bindChildren record.catalog options children all) =
      (Rule.leavesOf rules).findSome? fun leaf => error? (compile record options (some leaf)) := by
  induction rules generalizing place children with
  | nil =>
      cases hplans
      rfl
  | cons first rest ihrest =>
      have hrest : all.drop (place + 1) = rest := by
        rw [← List.tail_drop, hall, List.tail_cons]
      rw [List.forall_mem_cons] at ih
      rw [Rule.leavesOf, List.findSome?_append]
      cases hempty : first.isEmpty with
      | true =>
          rw [ofChildren, if_pos hempty] at hplans
          rw [(Rule.isEmpty_iff_leaves_eq_nil first).mp hempty,
            ihrest (place + 1) hrest ih.2 children hplans]
          rfl
      | false =>
          have hplace : all[place]? = some first := by
            rw [← List.head?_drop, hall, List.head?_cons]
          obtain ⟨plan, plans, hplan, hothers, rfl⟩ := (ofChildren_cons_eq_ok hempty).mp hplans
          simp only [bindChildren, hplace]
          refine (Outcome.error?_bind_cons id _ _).trans ?_
          rw [ih.1 plan hplan, ihrest (place + 1) hrest ih.2 plans hothers]

theorem error?_bind (rule : Rule) (plan : Plan) (hplan : ofRule record options rule = .ok plan) :
    error? (plan.bind record.catalog options rule) =
      rule.leaves.findSome? fun leaf => error? (compile record options (some leaf)) := by
  induction rule using Rule.treeInduction generalizing plan with
  | node rule ih =>
      rcases Rule.leaf_or_fork_or_bare rule with hleaf | hfork | hbare
      · rw [ofRule_of_isLeaf hleaf] at hplan
        obtain ⟨own, hown, rfl⟩ := Outcome.map_eq_ok.mp hplan
        rw [Rule.leaves_of_isLeaf hleaf, List.findSome?_singleton, compile_leaf hleaf, hown]
        rfl
      · rw [ofRule_of_isFork hfork] at hplan
        obtain ⟨children, hchildren, rfl⟩ := Outcome.map_eq_ok.mp hplan
        rw [bind, Outcome.error?_map, Rule.leaves_of_isFork hfork]
        exact error?_bindChildren rule.rules rule.rules 0 rfl ih children hchildren
      · rw [ofRule_of_isBare hbare] at hplan
        cases hplan
        rw [Rule.leaves_of_isBare hbare]
        rfl

end Plan

-- The error of a tree is that of the first leaf whose plan cannot be made, or else that of the first
-- leaf that does not compile.
theorem error?_compile (rule : Option Rule) :
    error? (compile record options rule) =
      ((Rule.leavesOf rule.toList).findSome? fun leaf =>
        error? (Plan.ofLeaf record options leaf)).or
      ((Rule.leavesOf rule.toList).findSome? fun leaf =>
        error? (compile record options (some leaf))) := by
  cases rule with
  | none => rfl
  | some rule =>
      have hleaves : Rule.leavesOf (some rule).toList = rule.leaves := by simp [Rule.leavesOf]
      rw [hleaves]
      cases hempty : rule.isEmpty with
      | true =>
          rw [compile, Plan.ofRule?, if_pos hempty,
            (Rule.isEmpty_iff_leaves_eq_nil rule).mp hempty]
          rfl
      | false =>
          have hcompile : compile record options (some rule) =
              Plan.ofRule record options rule >>= fun plan =>
                plan.bind record.catalog options rule := by
            simp only [compile, Plan.ofRule?, hempty, Plan.bind?_some, Bool.false_eq_true, if_false]
          rw [← Plan.error?_ofRule, hcompile]
          cases hplan : Plan.ofRule record options rule with
          | error e => rfl
          | ok plan => exact Plan.error?_bind rule plan hplan

-- What a tree compiles to depends on nothing but its leaves and the shape in which they are joined.
theorem compile_congr {rule other : Rule} (hleaves : rule.leaves = other.leaves)
    (hfold : rule.fold (ownCondition record options) Condition.combine =
      other.fold (ownCondition record options) Condition.combine) :
    compile record options (some rule) = compile record options (some other) := by
  have hsame : Rule.leavesOf (some rule).toList = Rule.leavesOf (some other).toList := by
    simp [Rule.leavesOf, hleaves]
  cases hcompile : compile record options (some rule) with
  | error e =>
      have herror : error? (compile record options (some other)) = some e := by
        rw [error?_compile, ← hsame, ← error?_compile, hcompile]
        rfl
      exact (Outcome.error?_eq_some.mp herror).symm
  | ok condition =>
      obtain ⟨hcompiles, hcondition⟩ := (compile_eq_ok_iff (some rule) condition).mp hcompile
      rw [hsame] at hcompiles
      rw [Option.bind_some, hfold] at hcondition
      exact ((compile_eq_ok_iff (some other) condition).mpr ⟨hcompiles, hcondition⟩).symm

namespace Rule

-- A leaf that can be planned: none of its faults shows before its literal is looked at.
def Plans (record : RecordType) (options : Options) (leaf : Rule) : Prop :=
  ∃ plan, Plan.ofLeaf record options leaf = .ok plan

end Rule

namespace Filter

theorem error?_build (rule : Option Rule) :
    error? (build record options rule) = error? (compile record options rule) :=
  Outcome.error?_map _ _

-- The fault for which a leaf cannot be planned is the one that it has by itself.
theorem build_leaf_eq_error_iff {leaf : Rule} (hleaf : leaf.isLeaf = true) (e : RuleError) :
    Plan.ofLeaf record options leaf = .error e ↔
      build record options (some leaf) = .error e ∧ ¬leaf.Plans record options := by
  rw [build, Outcome.map_eq_error, compile_leaf hleaf, Rule.Plans]
  cases Plan.ofLeaf record options leaf with
  | error other => simp [bind, Except.bind]
  | ok plan => simp

-- A tree fails with the error of its first leaf that cannot be planned. Only where all leaves can be
-- planned does it fail with that of its first leaf with a fault.

private def tally : RecordType := ⟨[⟨"Tally", [("total", .scalar .long false)], none⟩], 0⟩

private def unreadable : Rule := .leaf "total" "equal" "long" (some (.text "x"))

private def unnamed : Rule := .leaf "total" "near" "long" (some (.int 1))

-- A literal that cannot be read comes second to the name of an operator in a leaf behind it: the
-- error of the tree is not that of its first leaf with a fault.

end Filter

end Sieve

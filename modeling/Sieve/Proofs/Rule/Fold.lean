import Mathlib.Data.List.Basic
import Sieve.Proofs.Rule.Tree

namespace Sieve.Rule

variable {α β : Type}

-- What a fork comes to if its children come to `parts`. Without any it comes to nothing.
def joined (join : Combinator → List α → α) (combinator : Combinator) : List α → Option α
  | [] => none
  | part :: rest => some (join combinator (part :: rest))

mutual

-- What a tree comes to, given what its leaves come to and how a fork joins its children. A tree
-- without a leaf comes to nothing, and a fork passes over such children.
def fold (leaf : Rule → α) (join : Combinator → List α → α) : Rule → Option α
  | ⟨condition, field, operator, type, value, rules⟩ =>
    match rules with
    | [] => if field.isSome then some (leaf ⟨condition, field, operator, type, value, []⟩) else none
    | rule :: rest => joined join (condition.getD .and) (foldAll leaf join (rule :: rest))

def foldAll (leaf : Rule → α) (join : Combinator → List α → α) : List Rule → List α
  | [] => []
  | rule :: rest => (fold leaf join rule).toList ++ foldAll leaf join rest

end

variable {leaf : Rule → α} {join : Combinator → List α → α}

theorem fold_of_isLeaf {rule : Rule} (h : rule.isLeaf = true) :
    rule.fold leaf join = some (leaf rule) := by
  obtain ⟨condition, field, operator, type, value, rules⟩ := rule
  obtain ⟨hrules, hfield⟩ : rules = [] ∧ field.isSome = true := by simpa [isLeaf] using h
  subst hrules
  simp [fold, hfield]

theorem fold_of_isBare {rule : Rule} (h : rule.isBare = true) : rule.fold leaf join = none := by
  obtain ⟨condition, field, operator, type, value, rules⟩ := rule
  obtain ⟨rfl, rfl⟩ : rules = [] ∧ field = none := by simpa [isBare] using h
  simp [fold]

theorem fold_of_isFork {rule : Rule} (h : rule.isFork = true) :
    rule.fold leaf join = joined join rule.combinator (foldAll leaf join rule.rules) := by
  obtain ⟨condition, field, operator, type, value, rules⟩ := rule
  cases rules with
  | nil => simp [isFork] at h
  | cons first rest => simp [fold, combinator]

theorem foldAll_eq_filterMap (rules : List Rule) :
    foldAll leaf join rules = rules.filterMap (fold leaf join) := by
  induction rules with
  | nil => rfl
  | cons first rest ih =>
      rw [foldAll, ih, List.filterMap_cons]
      cases fold leaf join first <;> rfl

theorem joined_eq_none {combinator : Combinator} {parts : List α} :
    joined join combinator parts = none ↔ parts = [] := by
  cases parts <;> simp [joined]

-- Only trees without a leaf come to nothing.
theorem fold_eq_none_iff (rule : Rule) : rule.fold leaf join = none ↔ rule.isEmpty = true := by
  induction rule using treeInduction with
  | node rule ih =>
      rcases leaf_or_fork_or_bare rule with hleaf | hfork | hbare
      · simp [fold_of_isLeaf hleaf, isEmpty_of_isLeaf hleaf]
      · rw [fold_of_isFork hfork, isEmpty_of_isFork hfork, joined_eq_none, foldAll_eq_filterMap,
          List.filterMap_eq_nil_iff, allEmpty_iff]
        exact forall₂_congr ih
      · simp [fold_of_isBare hbare, isEmpty_of_isBare hbare]

-- A map that goes through every joining goes through the fold.
theorem map_fold (f : α → β) (join' : Combinator → List β → β)
    (hjoin : ∀ combinator part rest,
      f (join combinator (part :: rest)) = join' combinator ((part :: rest).map f)) (rule : Rule) :
    (rule.fold leaf join).map f = rule.fold (fun r => f (leaf r)) join' := by
  induction rule using treeInduction with
  | node rule ih =>
      rcases leaf_or_fork_or_bare rule with hleaf | hfork | hbare
      · simp [fold_of_isLeaf hleaf]
      · have hparts : (foldAll leaf join rule.rules).map f =
            foldAll (fun r => f (leaf r)) join' rule.rules := by
          rw [foldAll_eq_filterMap, foldAll_eq_filterMap, List.map_filterMap]
          exact List.filterMap_congr ih
        rw [fold_of_isFork hfork, fold_of_isFork hfork, ← hparts]
        cases foldAll leaf join rule.rules with
        | nil => rfl
        | cons part rest => simp [joined, hjoin]
      · simp [fold_of_isBare hbare]

-- The fold only looks at what the leaves of the tree come to.
theorem fold_congr {leaf' : Rule → α} (rule : Rule)
    (h : ∀ r ∈ rule.leaves, leaf r = leaf' r) :
    rule.fold leaf join = rule.fold leaf' join := by
  induction rule using treeInduction with
  | node rule ih =>
      rcases leaf_or_fork_or_bare rule with hleaf | hfork | hbare
      · rw [fold_of_isLeaf hleaf, fold_of_isLeaf hleaf, h rule (by simp [leaves_of_isLeaf hleaf])]
      · rw [leaves_of_isFork hfork] at h
        rw [fold_of_isFork hfork, fold_of_isFork hfork, foldAll_eq_filterMap,
          foldAll_eq_filterMap]
        congr 1
        apply List.filterMap_congr
        intro child hchild
        exact ih child hchild fun r hr => h r (mem_leavesOf.mpr ⟨child, hchild, hr⟩)
      · rw [fold_of_isBare hbare, fold_of_isBare hbare]

-- What the leaves come to and every joining keeps, the tree comes to as well.
theorem fold_induction {motive : α → Prop} (rule : Rule)
    (hjoin : ∀ combinator parts, (∀ part ∈ parts, motive part) → motive (join combinator parts))
    (hleaf : ∀ r ∈ rule.leaves, motive (leaf r)) : ∀ a ∈ rule.fold leaf join, motive a := by
  induction rule using treeInduction with
  | node rule ih =>
      rcases leaf_or_fork_or_bare rule with h | h | h
      · rw [leaves_of_isLeaf h] at hleaf
        simpa [fold_of_isLeaf h] using hleaf
      · rw [leaves_of_isFork h] at hleaf
        have hparts : ∀ part ∈ foldAll leaf join rule.rules, motive part := by
          intro part hpart
          rw [foldAll_eq_filterMap] at hpart
          obtain ⟨child, hchild, hfold⟩ := List.mem_filterMap.mp hpart
          refine ih child hchild (fun r hr => hleaf r ?_) part hfold
          exact mem_leavesOf.mpr ⟨child, hchild, hr⟩
        rw [fold_of_isFork h]
        cases hfold : foldAll leaf join rule.rules with
        | nil => simp [joined]
        | cons part rest => simpa [joined] using hjoin rule.combinator _ (hfold ▸ hparts)
      · simp [fold_of_isBare h]

end Sieve.Rule

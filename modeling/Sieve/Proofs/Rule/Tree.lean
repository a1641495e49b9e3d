import Mathlib.Logic.Basic
import Sieve.Rule.Basic

namespace Sieve.Rule

-- A property of trees that every node has once its children have it.
@[elab_as_elim]
theorem treeInduction {motive : Rule → Prop}
    (node : ∀ rule : Rule, (∀ child ∈ rule.rules, motive child) → motive rule) (rule : Rule) :
    motive rule := by
  refine @Rule.rec motive (fun rules => ∀ child ∈ rules, motive child) ?_ ?_ ?_ rule
  · intro condition field operator type value rules ih
    exact node _ ih
  · intro child hchild
    cases hchild
  · intro head tail hhead htail child hchild
    cases hchild with
    | head => exact hhead
    | tail _ hmem => exact htail child hmem

mutual

-- The leaves of a tree from left to right.
def leaves : Rule → List Rule
  | ⟨condition, field, operator, type, value, rules⟩ =>
    match rules with
    | [] => if field.isSome then [⟨condition, field, operator, type, value, []⟩] else []
    | rule :: rest => rule.leaves ++ leavesOf rest

def leavesOf : List Rule → List Rule
  | [] => []
  | rule :: rest => rule.leaves ++ leavesOf rest

end

-- A node without children and without a field, which says nothing.
def isBare (rule : Rule) : Bool :=
  rule.rules.isEmpty && rule.field.isNone

-- A node is a leaf, or a fork, or says nothing.
theorem leaf_or_fork_or_bare (rule : Rule) :
    rule.isLeaf = true ∨ rule.isFork = true ∨ rule.isBare = true := by
  cases hrules : rule.rules <;> cases hfield : rule.field <;>
    simp [isLeaf, isFork, isBare, hrules, hfield]

theorem leaves_of_isLeaf {rule : Rule} (h : rule.isLeaf = true) : rule.leaves = [rule] := by
  obtain ⟨condition, field, operator, type, value, rules⟩ := rule
  obtain ⟨hrules, hfield⟩ : rules = [] ∧ field.isSome = true := by simpa [isLeaf] using h
  subst hrules
  simp [leaves, hfield]

theorem leaves_of_isBare {rule : Rule} (h : rule.isBare = true) : rule.leaves = [] := by
  obtain ⟨condition, field, operator, type, value, rules⟩ := rule
  obtain ⟨rfl, rfl⟩ : rules = [] ∧ field = none := by simpa [isBare] using h
  simp [leaves]

theorem leaves_of_isFork {rule : Rule} (h : rule.isFork = true) :
    rule.leaves = leavesOf rule.rules := by
  obtain ⟨condition, field, operator, type, value, rules⟩ := rule
  cases rules with
  | nil => simp [isFork] at h
  | cons first rest => simp [leaves, leavesOf]

theorem mem_leavesOf {rules : List Rule} {leaf : Rule} :
    leaf ∈ leavesOf rules ↔ ∃ rule ∈ rules, leaf ∈ rule.leaves := by
  induction rules with
  | nil => simp [leavesOf]
  | cons first rest ih => simp [leavesOf, ih]

theorem isEmpty_of_isLeaf {rule : Rule} (h : rule.isLeaf = true) : rule.isEmpty = false := by
  obtain ⟨condition, field, operator, type, value, rules⟩ := rule
  obtain ⟨hrules, hfield⟩ : rules = [] ∧ field.isSome = true := by simpa [isLeaf] using h
  subst hrules
  cases field <;> simp [isEmpty] at hfield ⊢

theorem isEmpty_of_isBare {rule : Rule} (h : rule.isBare = true) : rule.isEmpty = true := by
  obtain ⟨condition, field, operator, type, value, rules⟩ := rule
  obtain ⟨rfl, rfl⟩ : rules = [] ∧ field = none := by simpa [isBare] using h
  simp [isEmpty]

theorem allEmpty_iff {rules : List Rule} :
    allEmpty rules = true ↔ ∀ rule ∈ rules, rule.isEmpty = true := by
  induction rules with
  | nil => simp [allEmpty]
  | cons first rest ih => simp [allEmpty, ih]

theorem isEmpty_of_isFork {rule : Rule} (h : rule.isFork = true) :
    rule.isEmpty = allEmpty rule.rules := by
  obtain ⟨condition, field, operator, type, value, rules⟩ := rule
  cases rules with
  | nil => simp [isFork] at h
  | cons first rest => simp [isEmpty, allEmpty]

-- A tree is empty just when it has no leaf.
theorem isEmpty_iff_leaves_eq_nil (rule : Rule) : rule.isEmpty = true ↔ rule.leaves = [] := by
  induction rule using treeInduction with
  | node rule ih =>
      rcases leaf_or_fork_or_bare rule with hleaf | hfork | hbare
      · simp [isEmpty_of_isLeaf hleaf, leaves_of_isLeaf hleaf]
      · rw [isEmpty_of_isFork hfork, leaves_of_isFork hfork, allEmpty_iff,
          List.eq_nil_iff_forall_not_mem]
        simp only [mem_leavesOf]
        constructor
        · rintro h leaf ⟨child, hchild, hmem⟩
          rw [(ih child hchild).mp (h child hchild)] at hmem
          cases hmem
        · intro h child hchild
          rw [ih child hchild, List.eq_nil_iff_forall_not_mem]
          exact fun leaf hmem => h leaf ⟨child, hchild, hmem⟩
      · simp [isEmpty_of_isBare hbare, leaves_of_isBare hbare]

theorem isLeaf_of_mem_leaves {rule leaf : Rule} (h : leaf ∈ rule.leaves) :
    leaf.isLeaf = true := by
  induction rule using treeInduction with
  | node rule ih =>
      rcases leaf_or_fork_or_bare rule with hleaf | hfork | hbare
      · rw [leaves_of_isLeaf hleaf, List.mem_singleton] at h
        exact h ▸ hleaf
      · rw [leaves_of_isFork hfork] at h
        obtain ⟨child, hchild, hmem⟩ := mem_leavesOf.mp h
        exact ih child hchild hmem
      · rw [leaves_of_isBare hbare] at h
        cases h

end Sieve.Rule

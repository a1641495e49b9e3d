import Sieve.Plan.Binding
import Sieve.Proofs.Outcome
import Sieve.Proofs.Rule.Fold

namespace Sieve

namespace Plan

variable {record : RecordType} {options : Options}

theorem ofRule_of_isLeaf {rule : Rule} (h : rule.isLeaf = true) :
    ofRule record options rule = (ofLeaf record options rule).map leaf := by
  obtain ⟨condition, field, operator, type, value, rules⟩ := rule
  obtain ⟨hrules, hfield⟩ : rules = [] ∧ field.isSome = true := by simpa [Rule.isLeaf] using h
  subst hrules
  simp [ofRule, hfield]

theorem ofRule_of_isFork {rule : Rule} (h : rule.isFork = true) :
    ofRule record options rule =
      (ofChildren record options 0 rule.rules).map (fork rule.combinator) := by
  obtain ⟨condition, field, operator, type, value, rules⟩ := rule
  cases rules with
  | nil => simp [Rule.isFork] at h
  | cons first rest => simp [ofRule, Rule.combinator]

theorem ofChildren_cons_eq_ok {place : Nat} {first : Rule} {rest : List Rule}
    (h : first.isEmpty = false) {children : List (Nat × Plan)} :
    ofChildren record options place (first :: rest) = .ok children ↔
      ∃ plan plans, ofRule record options first = .ok plan ∧
        ofChildren record options (place + 1) rest = .ok plans ∧
        children = (place, plan) :: plans := by
  simp only [ofChildren, h, Bool.false_eq_true, if_false]
  exact Outcome.bind_cons_eq_ok (Prod.mk place)

theorem bindChildren_cons_eq_ok {catalog : Catalog} {place : Nat} {plan : Plan}
    {plans : List (Nat × Plan)} {rules : List Rule} {rule : Rule} (h : rules[place]? = some rule)
    {parts : List Condition} :
    bindChildren catalog options ((place, plan) :: plans) rules = .ok parts ↔
      ∃ part rest, plan.bind catalog options rule = .ok part ∧
        bindChildren catalog options plans rules = .ok rest ∧ parts = part :: rest := by
  simp only [bindChildren, h]
  exact Outcome.bind_cons_eq_ok id

-- Only the absence of a tree tells `bind?` from `bind`.
theorem bind?_some (catalog : Catalog) (plan : Plan) (rule : Rule) :
    plan.bind? catalog options (some rule) = plan.bind catalog options rule := by
  cases plan <;> simp [bind?, bind]

end Plan

section Assembly

variable (record : RecordType) (options : Options)

def Compiles (leaf : Rule) : Prop :=
  ∃ condition, compile record options (some leaf) = .ok condition

-- The condition that a leaf stands for, taken by itself.
def ownCondition (leaf : Rule) : Condition :=
  match compile record options (some leaf) with
  | .ok condition => condition
  | .error _ => .constant true

variable {record options}

theorem compile_some_eq_ok {rule : Rule} (h : rule.isEmpty = false) {condition : Condition} :
    compile record options (some rule) = .ok condition ↔
      ∃ plan, Plan.ofRule record options rule = .ok plan ∧
        plan.bind record.catalog options rule = .ok condition := by
  simp only [compile, Plan.ofRule?, h, Outcome.bind_eq_ok, Plan.bind?_some, Bool.false_eq_true,
    if_false]

theorem compile_eq_ok_iff_own {leaf : Rule} {condition : Condition} :
    compile record options (some leaf) = .ok condition ↔
      Compiles record options leaf ∧ ownCondition record options leaf = condition := by
  constructor
  · intro h
    exact ⟨⟨condition, h⟩, by simp [ownCondition, h]⟩
  · rintro ⟨⟨other, h⟩, rfl⟩
    simp [ownCondition, h]

-- Planning and binding one child after the other, where `rules` are the children from `place` on.
private theorem bindChildren_ofChildren (all : List Rule) (rules : List Rule) (place : Nat)
    (hall : all.drop place = rules)
    (ih : ∀ rule ∈ rules, rule.isEmpty = false → ∀ condition,
      (∃ plan, Plan.ofRule record options rule = .ok plan ∧
        plan.bind record.catalog options rule = .ok condition) ↔
      (∀ leaf ∈ rule.leaves, Compiles record options leaf) ∧
        rule.fold (ownCondition record options) Condition.combine = some condition)
    (parts : List Condition) :
    (∃ children, Plan.ofChildren record options place rules = .ok children ∧
      Plan.bindChildren record.catalog options children all = .ok parts) ↔
      (∀ leaf ∈ Rule.leavesOf rules, Compiles record options leaf) ∧
        Rule.foldAll (ownCondition record options) Condition.combine rules = parts := by
  induction rules generalizing place parts with
  | nil => simp [Plan.ofChildren, Plan.bindChildren, Rule.leavesOf, Rule.foldAll]
  | cons first rest ihrest =>
      have hrest : all.drop (place + 1) = rest := by
        rw [← List.tail_drop, hall, List.tail_cons]
      have htail := ihrest (place + 1) hrest fun rule hrule =>
        ih rule (List.mem_cons_of_mem _ hrule)
      cases hempty : first.isEmpty with
      | true =>
          have hleaves := (Rule.isEmpty_iff_leaves_eq_nil first).mp hempty
          have hfold : first.fold (ownCondition record options) Condition.combine = none :=
            (Rule.fold_eq_none_iff first).mpr hempty
          simp only [Plan.ofChildren, hempty, if_true, Rule.leavesOf, hleaves, List.nil_append,
            Rule.foldAll, hfold, Option.toList_none]
          exact htail parts
      | false =>
          have hplace : all[place]? = some first := by
            rw [← List.head?_drop, hall, List.head?_cons]
          have hfirst := ih first (by simp) hempty
          simp only [Plan.ofChildren_cons_eq_ok hempty, Rule.leavesOf, Rule.foldAll,
            List.mem_append]
          constructor
          · rintro ⟨children, ⟨plan, plans, hplan, hplans, rfl⟩, hbind⟩
            obtain ⟨part, others, hpart, hothers, rfl⟩ :=
              (Plan.bindChildren_cons_eq_ok hplace).mp hbind
            obtain ⟨hown, hfold⟩ := (hfirst part).mp ⟨plan, hplan, hpart⟩
            obtain ⟨howns, hfolds⟩ := (htail others).mp ⟨plans, hplans, hothers⟩
            refine ⟨fun leaf hleaf => hleaf.elim (hown leaf) (howns leaf), ?_⟩
            rw [hfold, hfolds]
            rfl
          · rintro ⟨hown, rfl⟩
            obtain ⟨part, hfold⟩ : ∃ part, first.fold (ownCondition record options)
                Condition.combine = some part := by
              apply Option.ne_none_iff_exists'.mp
              rw [ne_eq, Rule.fold_eq_none_iff, hempty]
              decide
            obtain ⟨plan, hplan, hpart⟩ :=
              (hfirst part).mpr ⟨fun leaf hleaf => hown leaf (.inl hleaf), hfold⟩
            obtain ⟨plans, hplans, hothers⟩ :=
              (htail _).mpr ⟨fun leaf hleaf => hown leaf (.inr hleaf), rfl⟩
            refine ⟨_, ⟨plan, plans, hplan, hplans, rfl⟩, ?_⟩
            rw [Plan.bindChildren_cons_eq_ok hplace]
            exact ⟨part, _, hpart, hothers, by rw [hfold]; rfl⟩

-- Planning a tree and then binding it succeeds just when it does for every leaf, and then puts
-- the conditions of the leaves together in the shape of the tree.
theorem bind_ofRule_eq_ok (rule : Rule) (h : rule.isEmpty = false) (condition : Condition) :
    (∃ plan, Plan.ofRule record options rule = .ok plan ∧
      plan.bind record.catalog options rule = .ok condition) ↔
      (∀ leaf ∈ rule.leaves, Compiles record options leaf) ∧
        rule.fold (ownCondition record options) Condition.combine = some condition := by
  induction rule using Rule.treeInduction generalizing condition with
  | node rule ih =>
      rcases Rule.leaf_or_fork_or_bare rule with hleaf | hfork | hbare
      · rw [← compile_some_eq_ok h, compile_eq_ok_iff_own, Rule.leaves_of_isLeaf hleaf,
          Rule.fold_of_isLeaf hleaf]
        simp
      · have hchildren := bindChildren_ofChildren rule.rules rule.rules 0 rfl
          fun child hchild hc => ih child hchild hc
        rw [Rule.leaves_of_isFork hfork, Rule.fold_of_isFork hfork]
        simp only [Plan.ofRule_of_isFork hfork, Outcome.map_eq_ok]
        constructor
        · rintro ⟨_, ⟨children, hplans, rfl⟩, hbind⟩
          obtain ⟨parts, hparts, rfl⟩ := Outcome.map_eq_ok.mp hbind
          obtain ⟨hown, hfold⟩ := (hchildren parts).mp ⟨children, hplans, hparts⟩
          refine ⟨hown, ?_⟩
          cases parts with
          | nil =>
              rw [Rule.foldAll_eq_filterMap, List.filterMap_eq_nil_iff] at hfold
              simp only [Rule.fold_eq_none_iff] at hfold
              rw [Rule.isEmpty_of_isFork hfork, Rule.allEmpty_iff.mpr hfold] at h
              cases h
          | cons part rest => rw [hfold]; rfl
        · rintro ⟨hown, hfold⟩
          obtain ⟨children, hplans, hparts⟩ := (hchildren _).mpr ⟨hown, rfl⟩
          refine ⟨_, ⟨children, hplans, rfl⟩, ?_⟩
          rw [Plan.bind, hparts]
          cases hall : Rule.foldAll (ownCondition record options) Condition.combine rule.rules with
          | nil => simp [hall, Rule.joined] at hfold
          | cons part rest => simpa [hall, Rule.joined, Except.map] using hfold
      · rw [Rule.isEmpty_of_isBare hbare] at h
        cases h

-- The condition of a tree, or of its absence, from the conditions of its leaves.
theorem compile_eq_ok_iff (rule : Option Rule) (condition : Condition) :
    compile record options rule = .ok condition ↔
      (∀ leaf ∈ Rule.leavesOf rule.toList, Compiles record options leaf) ∧
        (rule.bind (Rule.fold (ownCondition record options) Condition.combine)).getD
          (.constant true) = condition := by
  cases rule with
  | none => simp [compile, Plan.ofRule?, Plan.bind?, bind, Except.bind, Rule.leavesOf]
  | some rule =>
      have hleaves : Rule.leavesOf (some rule).toList = rule.leaves := by simp [Rule.leavesOf]
      rw [hleaves]
      cases hempty : rule.isEmpty with
      | true =>
          have hfold : rule.fold (ownCondition record options) Condition.combine = none :=
            (Rule.fold_eq_none_iff rule).mpr hempty
          have hnone := (Rule.isEmpty_iff_leaves_eq_nil rule).mp hempty
          simp [compile, Plan.ofRule?, hempty, Plan.bind?, bind, Except.bind, hfold, hnone]
      | false =>
          rw [compile_some_eq_ok hempty, bind_ofRule_eq_ok rule hempty]
          have hsome : rule.fold (ownCondition record options) Condition.combine ≠ none := by
            rw [ne_eq, Rule.fold_eq_none_iff, hempty]
            decide
          obtain ⟨own, hown⟩ := Option.ne_none_iff_exists'.mp hsome
          simp [hown]

-- What the conditions of all leaves have, and what every joining of conditions keeps, the condition
-- of a tree has.
theorem compile_induction {motive : Condition → Prop} {rule : Option Rule} {condition : Condition}
    (hconstant : motive (.constant true))
    (hcombine : ∀ combinator parts, (∀ part ∈ parts, motive part) →
      motive (Condition.combine combinator parts))
    (hleaf : ∀ leaf ∈ Rule.leavesOf rule.toList, ∀ condition,
      compile record options (some leaf) = .ok condition → motive condition)
    (h : compile record options rule = .ok condition) : motive condition := by
  obtain ⟨hcompiles, rfl⟩ := (compile_eq_ok_iff rule condition).mp h
  have hown : ∀ leaf ∈ Rule.leavesOf rule.toList, motive (ownCondition record options leaf) :=
    fun leaf hmem => hleaf leaf hmem _ (compile_eq_ok_iff_own.mpr ⟨hcompiles leaf hmem, rfl⟩)
  cases rule with
  | none => exact hconstant
  | some rule =>
      have hfold : ∀ own ∈ rule.fold (ownCondition record options) Condition.combine, motive own :=
        Rule.fold_induction rule hcombine fun leaf hmem =>
          hown leaf (by simpa [Rule.leavesOf] using hmem)
      rw [Option.bind_some]
      cases hrule : rule.fold (ownCondition record options) Condition.combine with
      | none => exact hconstant
      | some own => exact hfold own hrule

end Assembly

end Sieve

import Mathlib.Logic.Relation
import Sieve.Proofs.Plan.Faults

-- Nodes without a leaf, and forks around a single node, say nothing: a tree with them becomes the
-- filter that it becomes without them.
namespace Sieve

namespace Rule

variable {α : Type} {leaf : Rule → α} {join : Combinator → List α → α}

-- One edit that leaves what a tree says as it is. Nodes without a leaf come in among the children of
-- a node, a node with a leaf gets a fork around it, in which no other child has a leaf, or a child
-- is edited so.
inductive Padding : Rule → Rule → Prop
  | insert {rule : Rule} {before added after : List Rule} (hleaf : rule.isLeaf = false)
      (hrules : rule.rules = before ++ after) (hadded : ∀ other ∈ added, other.isEmpty = true) :
      Padding rule { rule with rules := before ++ added ++ after }
  | wrap {rule fork : Rule} {before after : List Rule} (hrule : rule.isEmpty = false)
      (hrules : fork.rules = before ++ rule :: after)
      (hbefore : ∀ other ∈ before, other.isEmpty = true)
      (hafter : ∀ other ∈ after, other.isEmpty = true) : Padding rule fork
  | inside {rule child edited : Rule} {before after : List Rule}
      (hrules : rule.rules = before ++ child :: after) (hedit : Padding child edited) :
      Padding rule { rule with rules := before ++ edited :: after }

theorem isLeaf_of_rules_ne_nil {rule : Rule} (h : rule.rules ≠ []) : rule.isLeaf = false := by
  simp [isLeaf, h]

-- A node that is no leaf is made up of its children.
theorem leaves_eq_leavesOf {rule : Rule} (h : rule.isLeaf = false) :
    rule.leaves = leavesOf rule.rules := by
  rcases leaf_or_fork_or_bare rule with hleaf | hfork | hbare
  · rw [hleaf] at h
    cases h
  · exact leaves_of_isFork hfork
  · have hrules : rule.rules = [] := by simp [isBare] at hbare; exact hbare.1
    rw [leaves_of_isBare hbare, hrules, leavesOf]

theorem fold_eq_joined {rule : Rule} (h : rule.isLeaf = false) :
    rule.fold leaf join = joined join rule.combinator (rule.rules.filterMap (fold leaf join)) := by
  rw [← foldAll_eq_filterMap]
  rcases leaf_or_fork_or_bare rule with hleaf | hfork | hbare
  · rw [hleaf] at h
    cases h
  · exact fold_of_isFork hfork
  · have hrules : rule.rules = [] := by simp [isBare] at hbare; exact hbare.1
    rw [fold_of_isBare hbare, hrules, foldAll, joined]

theorem isLeaf_inserted {rule : Rule} {before after : List Rule} (h : rule.isLeaf = false)
    (hrules : rule.rules = before ++ after) (added : List Rule) :
    { rule with rules := before ++ added ++ after }.isLeaf = false := by
  by_cases hnone : before ++ added ++ after = []
  · simp only [List.append_eq_nil_iff] at hnone
    simp_all [isLeaf]
  · exact isLeaf_of_rules_ne_nil hnone

theorem leavesOf_append (rules others : List Rule) :
    leavesOf (rules ++ others) = leavesOf rules ++ leavesOf others := by
  induction rules with
  | nil => rfl
  | cons first rest ih => rw [List.cons_append, leavesOf, leavesOf, ih, List.append_assoc]

theorem leavesOf_eq_nil {rules : List Rule} (h : ∀ rule ∈ rules, rule.isEmpty = true) :
    leavesOf rules = [] := by
  rw [List.eq_nil_iff_forall_not_mem]
  intro leaf hleaf
  obtain ⟨rule, hrule, hmem⟩ := mem_leavesOf.mp hleaf
  rw [(isEmpty_iff_leaves_eq_nil rule).mp (h rule hrule)] at hmem
  cases hmem

theorem filterMap_fold_eq_nil {rules : List Rule} (h : ∀ rule ∈ rules, rule.isEmpty = true) :
    rules.filterMap (fold leaf join) = [] :=
  List.filterMap_eq_nil_iff.mpr fun rule hrule => (fold_eq_none_iff rule).mpr (h rule hrule)

namespace Padding

variable {rule padded : Rule}

theorem leaves_eq (h : Padding rule padded) : padded.leaves = rule.leaves := by
  induction h with
  | @insert rule before added after hleaf hrules hadded =>
      rw [leaves_eq_leavesOf hleaf, leaves_eq_leavesOf (isLeaf_inserted hleaf hrules added), hrules]
      simp only [leavesOf_append, leavesOf_eq_nil hadded, List.append_nil]
  | @wrap rule fork before after hrule hrules hbefore hafter =>
      have hfork : fork.rules ≠ [] := by simp [hrules]
      rw [leaves_eq_leavesOf (isLeaf_of_rules_ne_nil hfork), hrules, leavesOf_append, leavesOf,
        leavesOf_eq_nil hbefore, leavesOf_eq_nil hafter, List.nil_append, List.append_nil]
  | @inside rule child edited before after hrules hedit ih =>
      have hrule : rule.rules ≠ [] := by simp [hrules]
      have hedited : before ++ edited :: after ≠ [] := by simp
      rw [leaves_eq_leavesOf (isLeaf_of_rules_ne_nil hrule),
        leaves_eq_leavesOf (isLeaf_of_rules_ne_nil hedited), hrules]
      simp only [leavesOf_append, leavesOf, ih]

-- Joining has to leave a single part as it is.
theorem fold_eq (hjoin : ∀ combinator part, join combinator [part] = part)
    (h : Padding rule padded) : padded.fold leaf join = rule.fold leaf join := by
  induction h with
  | @insert rule before added after hleaf hrules hadded =>
      rw [fold_eq_joined hleaf, fold_eq_joined (isLeaf_inserted hleaf hrules added), hrules]
      simp only [List.filterMap_append, filterMap_fold_eq_nil hadded, List.append_nil]
      rfl
  | @wrap rule fork before after hrule hrules hbefore hafter =>
      have hfork : fork.rules ≠ [] := by simp [hrules]
      obtain ⟨part, hpart⟩ : ∃ part, rule.fold leaf join = some part := by
        apply Option.ne_none_iff_exists'.mp
        rw [ne_eq, fold_eq_none_iff, hrule]
        decide
      rw [fold_eq_joined (isLeaf_of_rules_ne_nil hfork), hrules, List.filterMap_append,
        List.filterMap_cons_some hpart, filterMap_fold_eq_nil hbefore,
        filterMap_fold_eq_nil hafter, hpart]
      exact congrArg some (hjoin _ part)
  | @inside rule child edited before after hrules hedit ih =>
      have hrule : rule.rules ≠ [] := by simp [hrules]
      have hedited : before ++ edited :: after ≠ [] := by simp
      rw [fold_eq_joined (isLeaf_of_rules_ne_nil hrule),
        fold_eq_joined (isLeaf_of_rules_ne_nil hedited), hrules]
      simp only [List.filterMap_append, List.filterMap_cons, ih]
      rfl

end Padding

end Rule

theorem Condition.combine_singleton (combinator : Combinator) (part : Condition) :
    combine combinator [part] = part := by
  cases combinator <;> rfl

namespace Filter

-- Any number of such edits, anywhere in a tree, leave its filter or its error as it is.
theorem build_eq_of_padding (record : RecordType) (options : Options) {rule padded : Rule}
    (h : Relation.ReflTransGen Rule.Padding rule padded) :
    build record options (some padded) = build record options (some rule) := by
  induction h with
  | refl => rfl
  | tail _ hedit ih =>
      rw [← ih, build, build, compile_congr hedit.leaves_eq
        (hedit.fold_eq Condition.combine_singleton)]

private def parcels : RecordType :=
  ⟨[⟨"Parcel", [("weight", .scalar .long false), ("label", .scalar .string true)], none⟩], 0⟩

private def light : Rule := .leaf "weight" "less" "long" (some (.int 3))

private def labelled : Rule := .leaf "label" "is_not_null" "string" none

private def lightOrLabelled : Rule := .fork .or [light, labelled]

private def hollow : Rule := .fork .and [{}, .fork .or [{}]]

private def muffled : Rule :=
  .fork .and [hollow, .fork .or [{}, .fork .and [light, hollow], labelled]]

-- A leaf gets a fork around it, a node without a leaf comes before it, and the whole tree gets a fork
-- of the other kind.
theorem muffled_builds_lightOrLabelled :
    Relation.ReflTransGen Rule.Padding lightOrLabelled muffled ∧
    build parcels {} (some muffled) = build parcels {} (some lightOrLabelled) ∧
    ∃ filter, build parcels {} (some lightOrLabelled) = .ok filter := by
  have hhollow : ∀ other ∈ [hollow], other.isEmpty = true := by decide
  have hnone : ∀ other ∈ ([] : List Rule), other.isEmpty = true := by simp
  have hlight : Rule.Padding light (.fork .and [light, hollow]) :=
    @Rule.Padding.wrap light _ [] [hollow] rfl rfl hnone hhollow
  have hinner : Rule.Padding lightOrLabelled (.fork .or [.fork .and [light, hollow], labelled]) :=
    @Rule.Padding.inside lightOrLabelled light _ [] [labelled] rfl hlight
  have hbefore : Rule.Padding (.fork .or [.fork .and [light, hollow], labelled])
      (.fork .or [{}, .fork .and [light, hollow], labelled]) :=
    @Rule.Padding.insert (.fork .or [.fork .and [light, hollow], labelled]) [] [{}] _ rfl rfl
      (by decide)
  have houter : Rule.Padding (.fork .or [{}, .fork .and [light, hollow], labelled]) muffled :=
    @Rule.Padding.wrap _ muffled [hollow] [] rfl rfl hhollow hnone
  have hmuffled : Relation.ReflTransGen Rule.Padding lightOrLabelled muffled :=
    ((Relation.ReflTransGen.single hinner).tail hbefore).tail houter
  exact ⟨hmuffled, build_eq_of_padding parcels {} hmuffled, _, rfl⟩

end Filter

end Sieve

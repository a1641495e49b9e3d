import Mathlib.Tactic.Cases
import Sieve.Filter
import Sieve.Proofs.Plan.Assembly

namespace Sieve

variable {ε : Type}

namespace Combinator

-- What a part comes to that leaves a fork undecided.
def neutral : Combinator → Bool
  | and => true
  | or => false

-- What a fork comes to. The outcomes of its parts count from left to right, up to the first one
-- that decides it.
def decide (combinator : Combinator) : List (Except ε Bool) → Except ε Bool
  | [] => .ok combinator.neutral
  | .ok b :: rest => if b = combinator.neutral then decide combinator rest else .ok b
  | .error e :: _ => .error e

-- One part alone decides for its fork.
theorem decide_singleton (combinator : Combinator) (outcome : Except ε Bool) :
    combinator.decide [outcome] = outcome := by
  cases outcome with
  | error e => rfl
  | ok b =>
      simp only [decide]
      split
      · rename_i h
        rw [h]
      · rfl

end Combinator

namespace Condition

variable (coercer : Coercer)

theorem evalAll_eq_decide (parts : List Condition) (scope : Datum) :
    evalAll coercer parts scope =
      Combinator.and.decide (parts.map fun part => part.eval coercer scope) := by
  induction parts with
  | nil => simp [evalAll, Combinator.decide, Combinator.neutral]
  | cons part rest ih =>
      rw [evalAll, ih, List.map_cons]
      rcases part.eval coercer scope with e | (_ | _) <;> rfl

theorem evalAny_eq_decide (parts : List Condition) (scope : Datum) :
    evalAny coercer parts scope =
      Combinator.or.decide (parts.map fun part => part.eval coercer scope) := by
  induction parts with
  | nil => simp [evalAny, Combinator.decide, Combinator.neutral]
  | cons part rest ih =>
      rw [evalAny, ih, List.map_cons]
      rcases part.eval coercer scope with e | (_ | _) <;> rfl

-- A fork is evaluated as its parts decide it, also where its only part stands for it.
theorem eval_combine (combinator : Combinator) (part : Condition) (rest : List Condition)
    (scope : Datum) :
    (combine combinator (part :: rest)).eval coercer scope =
      combinator.decide ((part :: rest).map fun part => part.eval coercer scope) := by
  cases rest with
  | nil =>
      rw [List.map_cons, List.map_nil, Combinator.decide_singleton]
      cases combinator <;> rfl
  | cons next others =>
      cases combinator with
      | and =>
          change (all (part :: next :: others)).eval coercer scope = _
          rw [eval, evalAll_eq_decide]
      | or =>
          change (any (part :: next :: others)).eval coercer scope = _
          rw [eval, evalAny_eq_decide]

end Condition

namespace Rule

-- What a tree comes to, given what its leaves come to. Without a leaf everything passes.
def verdict (leaf : Rule → Except ε Bool) (rule : Option Rule) : Except ε Bool :=
  (rule.bind (fold leaf Combinator.decide)).getD (.ok true)

-- A leaf of a tree whose turn comes: the children before it leave every fork around it undecided.
inductive Reached (leaf : Rule → Except ε Bool) : Rule → Rule → Prop where
  | here {rule : Rule} (hleaf : rule.isLeaf = true) : Reached leaf rule rule
  | deeper {rule child target : Rule} {before after : List Rule}
      (hrules : rule.rules = before ++ child :: after)
      (hbefore : ∀ other ∈ before, ∀ outcome, other.fold leaf Combinator.decide = some outcome →
        outcome = .ok rule.combinator.neutral)
      (htarget : Reached leaf child target) : Reached leaf rule target

-- A child whose turn comes: the children before it leave their fork undecided.
def HasTurn (combinator : Combinator) (outcome : Rule → Option (Except ε Bool)) (rules : List Rule)
    (child : Rule) : Prop :=
  ∃ before after, rules = before ++ child :: after ∧
    ∀ other ∈ before, ∀ o, outcome other = some o → o = .ok combinator.neutral

-- It is the turn of the first child, and of others once the first leaves the fork undecided.
theorem hasTurn_cons {combinator : Combinator} {outcome : Rule → Option (Except ε Bool)}
    {first : Rule} {rest : List Rule} {child : Rule} :
    HasTurn combinator outcome (first :: rest) child ↔
      child = first ∨ (∀ o, outcome first = some o → o = .ok combinator.neutral) ∧
        HasTurn combinator outcome rest child := by
  constructor
  · rintro ⟨before, after, hrules, hbefore⟩
    cases before with
    | nil => exact .inl (List.cons.inj hrules).1.symm
    | cons other before =>
        obtain ⟨rfl, rfl⟩ := List.cons.inj hrules
        rw [List.forall_mem_cons] at hbefore
        exact .inr ⟨hbefore.1, before, after, rfl, hbefore.2⟩
  · rintro (rfl | ⟨hfirst, before, after, rfl, hbefore⟩)
    · exact ⟨[], rest, rfl, by simp⟩
    · exact ⟨first :: before, after, rfl, List.forall_mem_cons.mpr ⟨hfirst, hbefore⟩⟩

-- An error comes out of a fork just when it is the turn of a child that comes to it.
theorem decide_filterMap_eq_error (combinator : Combinator)
    (outcome : Rule → Option (Except ε Bool)) (rules : List Rule) (e : ε) :
    combinator.decide (rules.filterMap outcome) = .error e ↔
      ∃ child, HasTurn combinator outcome rules child ∧ outcome child = some (.error e) := by
  induction rules with
  | nil => simp [Combinator.decide, HasTurn]
  | cons first rest ih =>
      simp only [hasTurn_cons, or_and_right, exists_or, exists_eq_left, and_assoc, exists_and_left]
      rw [← ih]
      cases hfirst : outcome first with
      | none => simp [hfirst]
      | some o =>
          rw [List.filterMap_cons_some hfirst]
          cases o with
          | error e' => simp [Combinator.decide]
          | ok b =>
              by_cases hb : b = combinator.neutral
              · simp [Combinator.decide, hb]
              · simp [Combinator.decide, hb]

theorem fold_decide_eq_error_iff (leaf : Rule → Except ε Bool) (rule : Rule) (e : ε) :
    rule.fold leaf Combinator.decide = some (.error e) ↔
      ∃ target, Reached leaf rule target ∧ leaf target = .error e := by
  induction rule using treeInduction with
  | node rule ih =>
      rcases leaf_or_fork_or_bare rule with hleaf | hfork | hbare
      · rw [fold_of_isLeaf hleaf, Option.some.injEq]
        constructor
        · exact fun h => ⟨rule, .here hleaf, h⟩
        · rintro ⟨target, hreached | ⟨hrules, -, -⟩, htarget⟩
          · exact htarget
          · simp [isLeaf, hrules] at hleaf
      · have hjoined : ∀ outcomes : List (Except ε Bool),
            joined Combinator.decide rule.combinator outcomes = some (.error e) ↔
              rule.combinator.decide outcomes = .error e := by
          rintro (_ | ⟨first, rest⟩) <;> simp [joined, Combinator.decide]
        rw [fold_of_isFork hfork, hjoined, foldAll_eq_filterMap, decide_filterMap_eq_error]
        constructor
        · rintro ⟨child, ⟨before, after, hrules, hbefore⟩, hchild⟩
          obtain ⟨target, hreached, htarget⟩ := (ih child (by simp [hrules])).mp hchild
          exact ⟨target, .deeper hrules hbefore hreached, htarget⟩
        · rintro ⟨target, hleaf | ⟨hrules, hbefore, hreached⟩, htarget⟩
          · simp [isLeaf, isFork] at hleaf hfork
            exact absurd hleaf.1 hfork
          · refine ⟨_, ⟨_, _, hrules, hbefore⟩, ?_⟩
            exact (ih _ (by simp [hrules])).mpr ⟨target, hreached, htarget⟩
      · rw [fold_of_isBare hbare]
        constructor
        · intro h
          cases h
        · rintro ⟨target, hleaf | ⟨hrules, -, -⟩, -⟩
          · simp only [isBare, isLeaf, Bool.and_eq_true] at hbare hleaf
            simp [Option.isNone_iff_eq_none.mp hbare.2] at hleaf
          · simp [isBare, hrules] at hbare

end Rule

namespace Filter

variable {record : RecordType} {options : Options}

theorem build_eq_ok {rule : Option Rule} {filter : Filter} :
    build record options rule = .ok filter ↔
      compile record options rule = .ok filter.condition ∧ filter.coercer = options.coercer := by
  obtain ⟨condition, coercer⟩ := filter
  rw [build, Outcome.map_eq_ok]
  constructor
  · rintro ⟨_, h, ⟨⟩⟩
    exact ⟨h, rfl⟩
  · rintro ⟨h, rfl⟩
    exact ⟨condition, h, rfl⟩

theorem exists_build_iff {rule : Option Rule} :
    (∃ filter, build record options rule = .ok filter) ↔
      ∃ condition, compile record options rule = .ok condition := by
  constructor
  · rintro ⟨filter, h⟩
    exact ⟨_, (build_eq_ok.mp h).1⟩
  · rintro ⟨condition, h⟩
    exact ⟨⟨condition, options.coercer⟩, build_eq_ok.mpr ⟨h, rfl⟩⟩

-- A tree becomes a filter just when each of its leaves does. The filter then comes to what the
-- filters of the leaves come to, taken from left to right as far as the forks are undecided; its
-- errors are those of the leaves that are reached.
theorem build_iff_leaves_and_evaluate_eq_verdict (record : RecordType) (options : Options)
    (rule : Option Rule) :
    ((∃ filter, build record options rule = .ok filter) ↔
      ∀ leaf ∈ Rule.leavesOf rule.toList,
        ∃ filter, build record options (some leaf) = .ok filter) ∧
    ∀ (filter : Filter) (own : Rule → Filter), build record options rule = .ok filter →
      (∀ leaf ∈ Rule.leavesOf rule.toList, build record options (some leaf) = .ok (own leaf)) →
      ∀ datum : Datum,
        filter.evaluate datum = Rule.verdict (fun leaf => (own leaf).evaluate datum) rule ∧
        ∀ e : CoercionError, filter.evaluate datum = .error e ↔
          ∃ root ∈ rule, ∃ leaf,
            Rule.Reached (fun leaf => (own leaf).evaluate datum) root leaf ∧
              (own leaf).evaluate datum = .error e := by
  constructor
  · simp only [exists_build_iff]
    constructor
    · rintro ⟨condition, h⟩
      exact ((compile_eq_ok_iff rule condition).mp h).1
    · exact fun h => ⟨_, (compile_eq_ok_iff rule _).mpr ⟨h, rfl⟩⟩
  · intro filter own hfilter hown datum
    obtain ⟨hcompile, hcoercer⟩ := build_eq_ok.mp hfilter
    obtain ⟨-, hcondition⟩ := (compile_eq_ok_iff rule filter.condition).mp hcompile
    have hleaf : ∀ leaf ∈ Rule.leavesOf rule.toList,
        (ownCondition record options leaf).eval options.coercer datum =
          (own leaf).evaluate datum := by
      intro leaf hleaf
      obtain ⟨hc, hco⟩ := build_eq_ok.mp (hown leaf hleaf)
      rw [(compile_eq_ok_iff_own.mp hc).2, evaluate, hco]
    have hverdict : filter.evaluate datum =
        Rule.verdict (fun leaf => (own leaf).evaluate datum) rule := by
      rw [evaluate, hcoercer, ← hcondition]
      cases rule with
      | none => simp [Rule.verdict, Condition.eval]
      | some root =>
          have hfold : (root.fold (ownCondition record options) Condition.combine).map
              (fun condition => condition.eval options.coercer datum) =
              root.fold (fun leaf => (own leaf).evaluate datum) Combinator.decide := by
            rw [Rule.map_fold _ Combinator.decide fun combinator part rest =>
              Condition.eval_combine _ combinator part rest datum]
            exact Rule.fold_congr root fun leaf h => hleaf leaf (by simpa [Rule.leavesOf] using h)
          simp only [Option.bind_some, Rule.verdict, ← hfold]
          cases root.fold (ownCondition record options) Condition.combine with
          | none => simp [Condition.eval]
          | some condition => rfl
    refine ⟨hverdict, fun e => ?_⟩
    rw [hverdict]
    cases rule with
    | none => simp [Rule.verdict]
    | some root =>
        simp only [Option.mem_some_iff, exists_eq_left', ← Rule.fold_decide_eq_error_iff,
          Rule.verdict, Option.bind_some]
        cases root.fold (fun leaf => (own leaf).evaluate datum) Combinator.decide with
        | none => simp
        | some outcome => simp

private def orders : RecordType :=
  ⟨[⟨"Order", [("total", .scalar .long false), ("note", .dynamic)], none⟩], 0⟩

private def small : Rule := .leaf "total" "less" "long" (some (.int 3))

private def noted : Rule := .leaf "note" "equal" "integer" (some (.text "7"))

private def flagged : Rule := .fork .or [{}, small, .fork .and [{}, noted]]

private def misfiled : Datum :=
  .record [("total", .scalar (.long 5)), ("note", .scalar (.string "x"))] []

private def ownFilter (leaf : Rule) : Filter := ⟨ownCondition orders {} leaf, {}⟩

-- The first leaf fails, so the second one is reached, and its field holds no number.
theorem flagged_reaches_misfiled_note :
    (∃ filter, build orders {} (some flagged) = .ok filter) ∧
    (∀ leaf ∈ Rule.leavesOf [flagged], build orders {} (some leaf) = .ok (ownFilter leaf)) ∧
    ∃ root ∈ some flagged, ∃ leaf,
      Rule.Reached (fun leaf => (ownFilter leaf).evaluate misfiled) root leaf ∧
        (ownFilter leaf).evaluate misfiled = .error ⟨"equal", "note", .integer, "x"⟩ := by
  have hleaves : ∀ leaf ∈ Rule.leavesOf [flagged],
      build orders {} (some leaf) = .ok (ownFilter leaf) := by
    have hflagged : Rule.leavesOf [flagged] = [small, noted] := rfl
    rw [hflagged]
    simp only [List.forall_mem_cons]
    exact ⟨rfl, rfl, by simp⟩
  refine ⟨⟨_, rfl⟩, hleaves, ?_⟩
  have h := (build_iff_leaves_and_evaluate_eq_verdict orders {} (some flagged)).2 _ ownFilter rfl
    hleaves misfiled
  exact (h.2 _).mp rfl

end Filter

end Sieve

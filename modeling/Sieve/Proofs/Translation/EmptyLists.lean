import Sieve.Proofs.Document.EmptyLists
import Sieve.Proofs.Sql.EmptyLists
import Sieve.Proofs.Sql.Meaning

-- What becomes of conjunctions and disjunctions of nothing, and of memberships in no values.
namespace Sieve.Condition

open Document (Selector)

-- SQL has an empty list just where a condition has a membership in no values, and a document just
-- where it has a conjunction or a disjunction of nothing. The others become in their place what
-- the constants become that they come to: the same text in SQL, a selector of the same in
-- documents.
theorem translations_of_empty_lists (condition : Condition) :
    (∀ known? ∈ [emptyFork?, emptyMembership?], ∀ coercer datum outcome,
      condition.eval coercer datum = .ok outcome →
        (condition.settle known?).eval coercer datum = .ok outcome) ∧
    (∀ d fragment, Sql.Fragment.ofCondition d condition = .ok fragment →
      (∃ tokens, Sql.lex d fragment.sql = some tokens ∧
        ([.word "IN", .sign '(', .sign ')'] <:+: tokens ↔
          ∃ field, oneOf field [] ∈ condition.parts)) ∧
      Sql.Fragment.ofCondition d (condition.settle emptyFork?) = .ok fragment) ∧
    (∀ selector, Selector.ofCondition false condition = .ok selector →
      (selector.toJson.HasEmptyFork ↔ all [] ∈ condition.parts ∨ any [] ∈ condition.parts) ∧
      ∃ other, Selector.ofCondition false (condition.settle emptyMembership?) = .ok other ∧
        ∀ stored, selector.holds stored = other.holds stored) ∧
    ∀ b, (∀ d, ∃ formula : Sql.Formula,
        Sql.Fragment.ofCondition d (constant b) = .ok (formula.print d) ∧
          ∀ row, formula.value row = some b) ∧
      ∃ selector, Selector.ofCondition false (constant b) = .ok selector ∧
        ∀ stored, selector.holds stored = b := by
  refine ⟨?_, fun d fragment h => ?_, fun selector h => ?_, fun b => ⟨fun d => ?_, ?_⟩⟩
  · rw [List.forall_mem_cons, List.forall_mem_singleton]
    exact ⟨fun _ _ _ => eval_settle known_emptyFork? condition,
      fun _ _ _ => eval_settle known_emptyMembership? condition⟩
  · obtain ⟨clause, hclause, rfl⟩ := Outcome.map_eq_ok.mp h
    refine ⟨⟨_, (clause.says_pieces.solid 0).lex, Sql.Clause.emptyList_infix_iff hclause 0⟩, ?_⟩
    exact Outcome.map_eq_ok.mpr ⟨clause, Sql.Clause.ofCondition_settle hclause, rfl⟩
  · exact ⟨Selector.hasEmptyFork_iff h, Selector.exists_settled_alike (by simp) h⟩
  · have hrenders := Sql.Renders.ofConstant (d := d) b
    refine ⟨.tests (.unit b) [], ?_, fun row => by cases b <;> rfl⟩
    rw [Sql.Formula.print, hrenders.pieces.1, hrenders.pieces.2]
    rfl
  · exact ⟨if b then .everything else .nothing, rfl, fun stored => by cases b <;> rfl⟩

private def shelf : FieldRef := { path := [.member "shelf"], kind := .long }

private def nowhere : Condition := .oneOf shelf []

private def somewhere : Condition := .any [.all [.any [], .isNull shelf], .not nowhere]

theorem somewhere_left_empty :
    somewhere.eval {} (.record [] []) = .ok true ∧
    (somewhere.settle emptyMembership?).eval {} (.record [] []) = .ok true ∧
    (∃ fragment tokens, Sql.Fragment.ofCondition .mysql somewhere = .ok fragment ∧
      Sql.lex .mysql fragment.sql = some tokens ∧
      [.word "IN", .sign '(', .sign ')'] <:+: tokens) ∧
    ∃ selector, Selector.ofCondition false somewhere = .ok selector ∧
      selector.toJson.HasEmptyFork := by
  obtain ⟨heval, hsql, hdocument, -⟩ := translations_of_empty_lists somewhere
  refine ⟨rfl, heval emptyMembership? (by simp) {} _ true rfl, ?_, ?_⟩
  · obtain ⟨⟨tokens, htokens, hempty⟩, -⟩ := hsql .mysql _ rfl
    refine ⟨_, tokens, rfl, htokens, hempty.mpr ⟨shelf, ?_⟩⟩
    simp [somewhere, nowhere, parts, partsOf]
  · obtain ⟨hempty, -⟩ := hdocument _ rfl
    exact ⟨_, rfl, hempty.mpr (.inr (by simp [somewhere, nowhere, parts, partsOf]))⟩

-- Both kinds of empty list are written.
theorem empty_lists_are_written :
    (¬ ∀ d condition fragment tokens, Sql.Fragment.ofCondition d condition = .ok fragment →
      Sql.lex d fragment.sql = some tokens →
        ¬ [.word "IN", .sign '(', .sign ')'] <:+: tokens) ∧
    ¬ ∀ condition selector, Selector.ofCondition false condition = .ok selector →
      ¬ selector.toJson.HasEmptyFork := by
  constructor
  · intro h
    have htokens : Sql.lex .postgres "(\"shelf\" IN ())" = some [.sign '(', .identifier "shelf",
        .word "IN", .sign '(', .sign ')', .sign ')'] := by decide
    exact h .postgres nowhere ⟨"(\"shelf\" IN ())", []⟩ _ rfl htokens
      ⟨[.sign '(', .identifier "shelf"], [.sign ')'], rfl⟩
  · intro h
    exact h (.all []) (.all []) rfl (.here (by decide) (.head _))

end Sieve.Condition

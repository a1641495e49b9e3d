import Mathlib.Data.List.TakeDrop
import Sieve.Filter
import Sieve.Proofs.Outcome

-- What the calls of `next` on some items give one after the other, and which items they evaluate.
namespace Sieve

-- The answers of some calls in a row.
def Selection.answers {m : Type → Type} [Monad m] {ε α : Type} (evaluate : α → m (Except ε Bool)) :
    Nat → Selection α → m (List (Option (Except ε α)))
  | 0, _ => return []
  | count + 1, selection => do
    let (answer, selection) ← selection.next evaluate
    return answer :: (← answers evaluate count selection)

namespace Filter

variable {α : Type} (filter : Filter) (record : α → Datum)

-- Evaluates an item and adds it to those that were.
def logged (item : α) : StateM (List α) (Except CoercionError Bool) := do
  modify (· ++ [item])
  return filter.evaluate (record item)

def answers : Nat → Selection α → List (Option (Except CoercionError α))
  | 0, _ => []
  | count + 1, selection =>
    let (answer, selection) := filter.next record selection
    answer :: answers count selection

-- The items that are evaluated in the course of some calls.
def evaluated (count : Nat) (items : List α) : List α :=
  ((Selection.answers (filter.logged record) count { rest := items }).run []).2

def fault? (item : α) : Option CoercionError :=
  Outcome.error? (filter.evaluate (record item))

def accepts (item : α) : Bool :=
  (filter.evaluate (record item)).toOption.getD false

-- The items that pass, up to the first that cannot be evaluated, and the error of that one.
def outcomes (items : List α) : List (Except CoercionError α) :=
  ((items.takeWhile (filter.fault? record · |>.isNone)).filter (filter.accepts record)).map .ok ++
    (items.findSome? (filter.fault? record)).toList.map .error

-- The items up to the first that cannot be evaluated, with that one.
def reached (items : List α) : List α :=
  items.take ((items.takeWhile (filter.fault? record · |>.isNone)).length + 1)

variable {filter record} {item : α} {rest items log seen : List α} {selection : Selection α}

theorem outcomes_error {e : CoercionError} (h : filter.evaluate (record item) = .error e) :
    filter.outcomes record (item :: rest) = [.error e] := by
  simp [outcomes, fault?, h, Outcome.error?]

theorem outcomes_ok {b : Bool} (h : filter.evaluate (record item) = .ok b) :
    filter.outcomes record (item :: rest) =
      (if b then [.ok item] else []) ++ filter.outcomes record rest := by
  cases b <;> simp [outcomes, fault?, accepts, h, Outcome.error?, Except.toOption]

theorem reached_error {e : CoercionError} (h : filter.evaluate (record item) = .error e) :
    filter.reached record (item :: rest) = [item] := by
  simp [reached, fault?, h, Outcome.error?]

theorem reached_ok {b : Bool} (h : filter.evaluate (record item) = .ok b) :
    filter.reached record (item :: rest) = item :: filter.reached record rest := by
  simp [reached, fault?, h, Outcome.error?]

-- What is still to come out of a selection, and the items that are to be evaluated for that.
def pending (filter : Filter) (record : α → Datum) (selection : Selection α) :
    List (Except CoercionError α) :=
  if selection.failed then [] else filter.outcomes record selection.rest

def due (filter : Filter) (record : α → Datum) (selection : Selection α) : List α :=
  if selection.failed then [] else filter.reached record selection.rest

-- A call gives the next of what is pending, and evaluates the next of what is due. Nothing is left
-- after an answer that is no item.
structure Advances (filter : Filter) (record : α → Datum) (selection : Selection α)
    (seen : List α) (answer : Option (Except CoercionError α)) (left : Selection α) : Prop where
  pending_eq : filter.pending record selection = answer.toList ++ filter.pending record left
  due_eq : filter.due record selection = seen ++ filter.due record left
  ended : (∀ item, answer ≠ some (.ok item)) →
    filter.pending record left = [] ∧ filter.due record left = []

theorem run_search_cons (item : α) (rest log : List α) :
    (Selection.search (filter.logged record) (item :: rest)).run log =
      match filter.evaluate (record item) with
      | .ok true => ((some (.ok item), { rest }), log ++ [item])
      | .ok false => (Selection.search (filter.logged record) rest).run (log ++ [item])
      | .error e => ((some (.error e), { rest, failed := true }), log ++ [item]) := by
  rw [Selection.search]
  simp only [logged, StateT.run_bind]
  cases filter.evaluate (record item) with
  | error e => rfl
  | ok b => cases b <;> rfl

theorem next_cons (item : α) (rest : List α) :
    filter.next record { rest := item :: rest } =
      match filter.evaluate (record item) with
      | .ok true => (some (.ok item), { rest })
      | .ok false => filter.next record { rest }
      | .error e => (some (.error e), { rest, failed := true }) := by
  simp only [next, Selection.next, Selection.search]
  cases filter.evaluate (record item) with
  | error e => rfl
  | ok b => cases b <;> rfl

theorem exists_search_eq (items log : List α) :
    ∃ seen, (Selection.search (filter.logged record) items).run log =
        (filter.next record { rest := items }, log ++ seen) ∧
      Advances filter record { rest := items } seen (filter.next record { rest := items }).1
        (filter.next record { rest := items }).2 := by
  induction items generalizing log with
  | nil => exact ⟨[], by simp; rfl, rfl, rfl, fun _ => ⟨rfl, rfl⟩⟩
  | cons item rest ih =>
      rw [run_search_cons, next_cons]
      cases h : filter.evaluate (record item) with
      | error e =>
          exact ⟨[item], rfl, outcomes_error h, reached_error h, fun _ => ⟨rfl, rfl⟩⟩
      | ok b =>
          cases b with
          | true =>
              exact ⟨[item], rfl, outcomes_ok h, reached_ok h, fun hends => absurd rfl (hends item)⟩
          | false =>
              obtain ⟨seen, hrun, hpending, hdue, hended⟩ := ih (log ++ [item])
              refine ⟨item :: seen, by simpa using hrun, ?_, ?_, hended⟩
              · exact (outcomes_ok h).trans hpending
              · exact (reached_ok h).trans (congrArg (item :: ·) hdue)

-- One call with a log.
theorem exists_next_eq (filter : Filter) (record : α → Datum) (selection : Selection α)
    (log : List α) :
    ∃ seen, (selection.next (filter.logged record)).run log =
        (filter.next record selection, log ++ seen) ∧
      Advances filter record selection seen (filter.next record selection).1
        (filter.next record selection).2 := by
  obtain ⟨rest, failed⟩ := selection
  cases failed with
  | true => exact ⟨[], by simp; rfl, rfl, rfl, fun _ => ⟨rfl, rfl⟩⟩
  | false => exact exists_search_eq rest log

-- Several calls: the answers are what is pending and then nothing, and of what is due a part is
-- evaluated, which is all as soon as an answer is no item.
theorem exists_answers_eq (filter : Filter) (record : α → Datum) (count : Nat)
    (selection : Selection α) (log : List α) :
    ∃ seen, (Selection.answers (filter.logged record) count selection).run log =
        (filter.answers record count selection, log ++ seen) ∧
      filter.answers record count selection =
        ((filter.pending record selection).map some).takeD count none ∧
      seen <+: filter.due record selection ∧
      ((∃ answer ∈ filter.answers record count selection, ∀ item, answer ≠ some (.ok item)) →
        seen = filter.due record selection) := by
  induction count generalizing selection log with
  | zero => exact ⟨[], by simp [Selection.answers]; rfl, by simp [answers], by simp [answers]⟩
  | succ count ih =>
      obtain ⟨seen, hrun, hpending, hdue, hended⟩ := exists_next_eq filter record selection log
      obtain ⟨later, hlater, hanswers, hprefix, hall⟩ :=
        ih (filter.next record selection).2 (log ++ seen)
      have hcons : filter.answers record (count + 1) selection =
          (filter.next record selection).1 ::
            filter.answers record count (filter.next record selection).2 := rfl
      have hstep : (Selection.answers (filter.logged record) (count + 1) selection).run log =
          ((Selection.answers (filter.logged record) count (filter.next record selection).2).run
            (log ++ seen)).map ((filter.next record selection).1 :: ·) id := by
        rw [Selection.answers, StateT.run_bind, hrun]
        rfl
      refine ⟨seen ++ later, ?_, ?_, ?_, ?_⟩
      · rw [hstep, hlater, hcons, ← List.append_assoc]
        rfl
      · rw [hcons, hanswers, hpending]
        cases hanswer : (filter.next record selection).1 with
        | none =>
            rw [(hended (by simp [hanswer])).1]
            simp
        | some outcome => simp
      · rw [hdue]
        exact (List.prefix_append_right_inj seen).mpr hprefix
      · rintro ⟨answer, hmem, hends⟩
        rw [hcons] at hmem
        rcases List.mem_cons.mp hmem with rfl | hmem
        · rw [(hended hends).2] at hprefix
          rw [hdue, (hended hends).2, List.prefix_nil.mp hprefix]
        · rw [hdue, hall ⟨answer, hmem, hends⟩]

theorem take_eq (count : Nat) (selection : Selection α) :
    filter.take record count selection = (filter.pending record selection).take count := by
  induction count generalizing selection with
  | zero => simp [take]
  | succ count ih =>
      obtain ⟨-, -, hpending, -, hended⟩ := exists_next_eq filter record selection []
      rw [take, hpending]
      split
      · rename_i outcome left hnext
        rw [hnext, ih]
        rfl
      · rename_i left hnext
        rw [(hended (by simp [hnext])).1, hnext]
        rfl

theorem length_outcomes_le (items : List α) :
    (filter.outcomes record items).length ≤ items.length := by
  induction items with
  | nil => exact Nat.le_refl _
  | cons item rest ih =>
      cases h : filter.evaluate (record item) with
      | error e => simp [outcomes_error h]
      | ok b =>
          rw [outcomes_ok h]
          cases b
          · simp
            omega
          · simpa using ih

theorem select_eq (items : List α) : filter.select record items = filter.outcomes record items := by
  rw [select, take_eq]
  exact List.take_of_length_le (length_outcomes_le items)

-- Calls of `next` in a row give the items that pass, up to the first that cannot be evaluated, then
-- its error, and then nothing. Items are evaluated in order and at most once, none behind that one,
-- and none at all any more once an answer is no item.
theorem answers_eq_outcomes (filter : Filter) (record : α → Datum) (items : List α) (count : Nat) :
    filter.answers record count { rest := items } =
        ((filter.outcomes record items).map some).takeD count none ∧
      filter.evaluated record count items <+: filter.reached record items ∧
      ((∃ answer ∈ filter.answers record count { rest := items },
          ∀ item, answer ≠ some (.ok item)) →
        filter.evaluated record count items = filter.reached record items) ∧
      filter.select record items = filter.outcomes record items := by
  obtain ⟨seen, hrun, hanswers, hprefix, hall⟩ :=
    exists_answers_eq filter record count { rest := items } []
  have hseen : filter.evaluated record count items = seen := by
    rw [evaluated, hrun, List.nil_append]
  rw [hseen]
  exact ⟨hanswers, hprefix, hall, select_eq items⟩

private def large : Filter where
  condition := .compare { path := [.member "size"], kind := .integer, coerce := true } .greater
    (.integer 1)
  coercer := {}

private def sized (size : String) : Datum := .record [("size", .scalar (.string size))] []

private def huge : CoercionError := ⟨"greater", "size", .integer, "huge"⟩

-- One size passes, one does not, the next is no number, and the last is not looked at.
theorem sizes_up_to_huge :
    large.answers sized 4 { rest := ["3", "0", "huge", "9"] } =
        [some (.ok "3"), some (.error huge), none, none] ∧
      large.evaluated sized 4 ["3", "0", "huge", "9"] = ["3", "0", "huge"] ∧
      large.select sized ["3", "0", "huge", "9"] = [.ok "3", .error huge] := by
  have houtcomes : large.outcomes sized ["3", "0", "huge", "9"] = [.ok "3", .error huge] := by
    rfl
  obtain ⟨hanswers, -, hevaluated, hselect⟩ :=
    answers_eq_outcomes large sized ["3", "0", "huge", "9"] 4
  rw [houtcomes] at hanswers hselect
  refine ⟨hanswers, ?_, hselect⟩
  rw [hevaluated ⟨none, by simp [hanswers], nofun⟩]
  rfl

end Filter

end Sieve

import Sieve.Proofs.Document.Matching

-- Days as ranges of timestamps.
namespace Sieve.Document.Selector

theorem readOperand_date (d : Date) :
    readOperand (Operand.toJson (.value (.date d))) = some (.value (.datetime (.midnight d))) :=
  readOperand_valueJson (.date d) trivial

theorem compares_cons (test : Comparison × Operand) (tests : List (Comparison × Operand))
    (stored : Stored) :
    (compares (test :: tests)).holds stored =
      ((compares [test]).holds stored && (compares tests).holds stored) := by
  simp [holds]

-- A midnight separates the days before it from the others.
theorem compares_atLeast (t : DateTime) (d : Date) :
    (compares [atLeast d]).holds (.value (.datetime t)) =
      Comparison.greaterOrEqual.holds (compare t.date d) := by
  have hlt := DateTime.compare_midnight_eq_lt_iff t d
  simp only [holds, atLeast, List.all_cons, List.all_nil, Bool.and_true, readOperand_date,
    Option.any_some, Stored.compares, Value.compare?, Option.map_some, Option.getD_some,
    Comparison.holds]
  rw [Bool.eq_iff_iff, bne_iff_ne, bne_iff_ne, Ne, Ne, hlt]

theorem compares_before (t : DateTime) (d : Date) :
    (compares [before d]).holds (.value (.datetime t)) =
      Comparison.less.holds (compare t.date d) := by
  have hlt := DateTime.compare_midnight_eq_lt_iff t d
  simp only [holds, before, List.all_cons, List.all_nil, Bool.and_true, readOperand_date,
    Option.any_some, Stored.compares, Value.compare?, Option.map_some, Option.getD_some,
    Comparison.holds]
  rw [Bool.eq_iff_iff, beq_iff_eq, beq_iff_eq, hlt]

theorem compares_notNull (value : Value) :
    (compares [(.notEqual, .null)]).holds (.value value) = true := rfl

section Next

variable {day next : Date} (h : day.next? = some next) (t : DateTime)

include h

theorem compares_before_next :
    (compares [before next]).holds (.value (.datetime t)) =
      Comparison.lessOrEqual.holds (compare t.date day) := by
  rw [compares_before, Comparison.holds, Comparison.holds, Bool.eq_iff_iff, beq_iff_eq,
    bne_iff_ne, Date.compare_next_eq_lt_iff h]

theorem compares_atLeast_next :
    (compares [atLeast next]).holds (.value (.datetime t)) =
      Comparison.greater.holds (compare t.date day) := by
  rw [compares_atLeast, Comparison.holds, Comparison.holds, Bool.eq_iff_iff, beq_iff_eq,
    bne_iff_ne, Ne, Date.compare_next_eq_lt_iff h, not_not]

end Next

-- The window of a day holds the timestamps whose day stands to it as asked for.
theorem holds_ofDay (op : Comparison) (day : Date) (t : DateTime) :
    (ofDay op day).holds (.value (.datetime t)) = op.holds (compare t.date day) := by
  cases hnext : day.next? with
  | some next =>
      have hday : (compares [atLeast day, before next]).holds (.value (.datetime t)) =
          Comparison.equal.holds (compare t.date day) := by
        rw [compares_cons, compares_atLeast, compares_before_next hnext]
        cases compare t.date day <;> rfl
      cases op with
      | equal => simpa only [ofDay, hnext] using hday
      | notEqual =>
          simp only [ofDay, hnext]
          rw [holds, hday]
          cases compare t.date day <;> rfl
      | greater => simp only [ofDay, hnext, compares_atLeast_next hnext]
      | greaterOrEqual => simp only [ofDay, hnext, compares_atLeast]
      | less => simp only [ofDay, hnext, compares_before]
      | lessOrEqual => simp only [ofDay, hnext, compares_before_next hnext]
  | none =>
      have hlast := Date.compare_ne_gt_of_next?_eq_none hnext t.date
      have hatLeast := compares_atLeast t day
      have hbefore := compares_before t day
      generalize compare t.date day = order at hlast hatLeast hbefore
      cases op with
      | equal =>
          simp only [ofDay, hnext, hatLeast]
          cases order <;> first | rfl | exact absurd rfl hlast
      | notEqual =>
          simp only [ofDay, hnext, hbefore]
          cases order <;> first | rfl | exact absurd rfl hlast
      | greater =>
          simp only [ofDay, hnext]
          cases order <;> first | rfl | exact absurd rfl hlast
      | greaterOrEqual => simp only [ofDay, hnext, hatLeast]
      | less => simp only [ofDay, hnext, hbefore]
      | lessOrEqual =>
          simp only [ofDay, hnext, compares_notNull]
          cases order <;> first | rfl | exact absurd rfl hlast

theorem holds_compares_null {op : Comparison} (hop : op ≠ .notEqual) (d : Date)
    (tests : List (Comparison × Operand)) :
    (compares ((op, .value (.date d)) :: tests)).holds .null = false := by
  rw [compares_cons]
  simp only [holds, List.all_cons, List.all_nil, Bool.and_true, readOperand_date, Option.any_some]
  cases op <;> first | rfl | exact absurd rfl hop

theorem holds_atLeast_null (d : Date) (tests : List (Comparison × Operand)) :
    (compares (atLeast d :: tests)).holds .null = false :=
  holds_compares_null (by decide) d tests

theorem holds_before_null (d : Date) (tests : List (Comparison × Operand)) :
    (compares (before d :: tests)).holds .null = false :=
  holds_compares_null (by decide) d tests

-- Null is in no window, except in that of all days but one.
theorem holds_ofDay_null {op : Comparison} (hop : op ≠ .notEqual) (day : Date) :
    (ofDay op day).holds .null = false := by
  cases hnext : day.next? with
  | some next =>
      cases op with
      | notEqual => exact absurd rfl hop
      | equal | greaterOrEqual | greater => simp only [ofDay, hnext, holds_atLeast_null]
      | less | lessOrEqual => simp only [ofDay, hnext, holds_before_null]
  | none =>
      cases op with
      | notEqual => exact absurd rfl hop
      | equal | greaterOrEqual => simp only [ofDay, hnext, holds_atLeast_null]
      | less => simp only [ofDay, hnext, holds_before_null]
      | greater | lessOrEqual =>
          simp only [ofDay, hnext]
          rfl

theorem holds_ofDays (low high : Date) (t : DateTime) :
    (ofDays (.date low) high).holds (.value (.datetime t)) =
      (Comparison.greaterOrEqual.holds (compare t.date low) &&
        Comparison.lessOrEqual.holds (compare t.date high)) := by
  cases hnext : high.next? with
  | some next =>
      simp only [ofDays, hnext]
      change (compares [atLeast low, before next]).holds _ = _
      rw [compares_cons, compares_atLeast, compares_before_next hnext]
  | none =>
      have hlast := Date.compare_ne_gt_of_next?_eq_none hnext t.date
      simp only [ofDays, hnext]
      change (compares [atLeast low]).holds _ = _
      have hhigh : Comparison.lessOrEqual.holds (compare t.date high) = true :=
        bne_iff_ne.mpr hlast
      rw [compares_atLeast, hhigh, Bool.and_true]

theorem holds_ofDays_null (low high : Date) : (ofDays (.date low) high).holds .null = false := by
  cases hnext : high.next? with
  | some next =>
      simp only [ofDays, hnext]
      exact holds_atLeast_null low [before next]
  | none =>
      simp only [ofDays, hnext]
      exact holds_atLeast_null low []

end Sieve.Document.Selector

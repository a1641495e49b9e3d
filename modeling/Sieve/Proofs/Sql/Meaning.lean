import Sieve.Proofs.Outcome
import Sieve.Proofs.Sql.Columns
import Sieve.Proofs.Sql.Pieces

namespace Sieve.Sql

open Piece (Alike)

variable {d : Dialect}

-- A formula that is written as a clause is and is known to be true just when the condition of the
-- clause holds.
structure Renders (d : Dialect) (condition : Condition) (clause : Clause) (formula : Formula) :
    Prop where
  pieces : Alike d (formula.pieces d) (clause.pieces d)
  value : ∀ (coercer : Coercer) (record : Datum), (∀ test ∈ condition.tests, Comparable record test) →
    condition.eval coercer record = .ok (formula.value (.ofRecord record)).holds

theorem boundList_cons (value : Value) (rest : List Value) :
    Clause.boundList (value :: rest) =
      .bound value :: rest.flatMap fun value => [.text ", ", .bound value] := by
  induction rest generalizing value with
  | nil => rfl
  | cons next rest ih =>
      rw [Clause.boundList, ih, List.flatMap_cons]
      · rfl
      · exact List.cons_ne_nil _ _

theorem piecesJoined_cons (separator : String) (clause : Clause) (rest : List Clause) :
    Clause.piecesJoined d separator (clause :: rest) =
      clause.pieces d ++ rest.flatMap fun clause => .text separator :: clause.pieces d := by
  induction rest generalizing clause with
  | nil => simp [Clause.piecesJoined]
  | cons next rest ih =>
      rw [Clause.piecesJoined, ih, List.flatMap_cons]
      · rfl
      · exact List.cons_ne_nil _ _

namespace Renders

-- A test of a field that is one test between parentheses.
theorem ofTest {condition : Condition} {clause : Clause} (test : Test)
    (htests : condition.tests = [condition])
    (hpieces : Alike d (.text "(" :: test.pieces d ++ [.text ")"]) (clause.pieces d))
    (hvalue : ∀ (coercer : Coercer) (record : Datum), Comparable record condition →
      condition.eval coercer record = .ok (test.value (.ofRecord record)).holds) :
    Renders d condition clause (.tests test []) where
  pieces := by simpa [Formula.pieces] using hpieces
  value := by
    intro coercer record hrecord
    rw [hvalue coercer record (hrecord condition (by simp [htests])), Formula.value,
      Truth.holds_joined_or]
    simp

theorem ofCompare {field : FieldRef} {op : Comparison} {literal : Value} {part : Condition}
    {column : Column} (hcolumn : Column.ofField field part = .ok column)
    (hcoerce : field.coerce = false) :
    Renders d (.compare field op literal) (.compare column op literal)
      (.tests (.compare column op literal) []) := by
  apply ofTest (.compare column op literal) rfl
  · constructor
    · rfl
    · intro place
      simp [Piece.render, Test.pieces, Clause.pieces, String.append_assoc]
  · intro coercer record hrecord
    obtain ⟨datum, hread, hshows, hliterals⟩ :=
      read_shows hcolumn hcoerce rfl hrecord coercer op.operatorName
    rw [Condition.eval, hread, Test.value, hshows.holds_compared op literal fun shown hshown =>
      hliterals shown hshown literal (by simp [Condition.literals])]
    rfl

theorem ofOneOf {field : FieldRef} {first : Value} {rest : List Value} {part : Condition}
    {column : Column} (hcolumn : Column.ofField field part = .ok column)
    (hcoerce : field.coerce = false) :
    Renders d (.oneOf field (first :: rest)) (.oneOf column (first :: rest))
      (.tests (.isIn column first rest) []) := by
  apply ofTest (.isIn column first rest) rfl
  · rw [Clause.pieces, boundList_cons]
    have hhead : Alike d [.text "(", .text (column.render d ++ " IN (")]
        [.text ("(" ++ column.render d ++ " IN (")] := by
      constructor
      · rfl
      · intro place
        simp [Piece.render, String.append_assoc]
    have hrest := Alike.refl (d := d)
      (.bound first :: rest.flatMap fun value => [.text ", ", .bound value])
    have hend : Alike d [.text ")", .text ")"] [.text "))"] := ⟨rfl, fun _ => rfl⟩
    simpa [Test.pieces] using hhead.append (hrest.append hend)
  · intro coercer record hrecord
    obtain ⟨datum, hread, hshows, hliterals⟩ :=
      read_shows hcolumn hcoerce rfl hrecord coercer "in"
    have hany : ((first :: rest).map (Test.compared (column.see (.ofRecord record)) .equal)).any
        Truth.holds = (first :: rest).any (datum.passes .equal ·) := by
      rw [List.any_map, Bool.eq_iff_iff, List.any_eq_true, List.any_eq_true]
      refine exists_congr fun value => and_congr_right fun hvalue => ?_
      rw [Function.comp_apply, hshows.holds_compared .equal value fun shown hshown =>
        hliterals shown hshown value hvalue]
    rw [Condition.eval, hread, Test.value, Truth.holds_joined_or, hany]
    rfl

theorem ofBetween {field : FieldRef} {low high : Value} {part : Condition} {column : Column}
    (hcolumn : Column.ofField field part = .ok column) (hcoerce : field.coerce = false) :
    Renders d (.between field low high) (.between column low high)
      (.tests (.between column low high) []) := by
  apply ofTest (.between column low high) rfl
  · constructor
    · rfl
    · intro place
      simp [Piece.render, Test.pieces, Clause.pieces, String.append_assoc]
  · intro coercer record hrecord
    obtain ⟨datum, hread, hshows, hliterals⟩ :=
      read_shows hcolumn hcoerce rfl hrecord coercer "between"
    have hlow := hshows.holds_compared .greaterOrEqual low fun shown hshown =>
      hliterals shown hshown low (by simp [Condition.literals])
    have hhigh := hshows.holds_compared .lessOrEqual high fun shown hshown =>
      hliterals shown hshown high (by simp [Condition.literals])
    rw [Condition.eval, hread, Test.value, Truth.holds_and, hlow, hhigh]
    rfl

theorem ofText {field : FieldRef} {test : TextTest} {pattern : String} {part : Condition}
    {column : Column} (hcolumn : Column.ofField field part = .ok column)
    (hcoerce : field.coerce = false) :
    Renders d (.text field test pattern) (.like column (Clause.likePattern test pattern))
      (.tests (.like column (Clause.likePattern test pattern) Clause.escapeChar) []) := by
  apply ofTest (.like column (Clause.likePattern test pattern) Clause.escapeChar) rfl
  · constructor
    · rfl
    · intro place
      simp [Piece.render, Test.pieces, Clause.pieces, String.append_assoc]
      rfl
  · intro coercer record hrecord
    obtain ⟨datum, hread, hshows, hliterals⟩ :=
      read_shows hcolumn hcoerce rfl hrecord coercer test.operatorName
    have hstring := hshows.eq_string fun shown hshown =>
      hliterals shown hshown (.string pattern) (by simp [Condition.literals])
    rw [Condition.eval, hread, Test.value]
    rcases hstring with ⟨rfl, hshown⟩ | ⟨s, rfl, hshown⟩
    · rw [hshown]
      rfl
    · rw [hshown]
      exact congrArg Except.ok (isLike_likePattern test pattern s).symm

theorem ofIsNull {field : FieldRef} {part : Condition} {column : Column}
    (hcolumn : Column.ofField field part = .ok column) (hcoerce : field.coerce = false) :
    Renders d (.isNull field) (.isNull column) (.tests (.isNull column) []) := by
  apply ofTest (.isNull column) rfl
  · constructor
    · rfl
    · intro place
      simp [Piece.render, Test.pieces, Clause.pieces, String.append_assoc]
  · intro coercer record hrecord
    obtain ⟨datum, hread, hshows, -⟩ :=
      read_shows hcolumn hcoerce rfl hrecord coercer "is_null"
    rw [Condition.eval, hread, Test.value]
    generalize column.see (.ofRecord record) = shown at hshows
    cases hshows <;> rfl

theorem ofIsEmpty {field : FieldRef} {part : Condition} {column : Column}
    (hcolumn : Column.ofField field part = .ok column) (hcoerce : field.coerce = false) :
    Renders d (.isEmpty field .text) (.isBlank column)
      (.tests (.isNull column) [.emptyText column]) where
  pieces := by
    constructor
    · rfl
    · intro place
      simp [Piece.render, Formula.pieces, Test.pieces, Clause.pieces, String.append_assoc]
      rw [← String.append_assoc]
      rfl
  value := by
    intro coercer record hrecord
    have htest : field ∈ (Condition.isEmpty field .text).field? := rfl
    obtain ⟨datum, hread, hshows, hliterals⟩ := read_shows hcolumn hcoerce htest
      (hrecord (.isEmpty field .text) (by simp [Condition.tests])) coercer "is_empty"
    have hstring := hshows.eq_string fun shown hshown =>
      hliterals shown hshown (.string "") (by simp [Condition.literals])
    rw [Condition.eval, hread, Formula.value, Truth.holds_joined_or]
    rcases hstring with ⟨rfl, hshown⟩ | ⟨s, rfl, hshown⟩
    · simp only [List.map_cons, List.map_nil, Test.value, hshown]
      rfl
    · have hempty : (compare s "" == .eq) = s.isEmpty := by
        rw [Bool.eq_iff_iff]
        simp
      simp only [List.map_cons, List.map_nil, Test.value, hshown, Test.compared, Option.bind_some,
        Value.compare?, Option.map_some, Comparison.holds, hempty]
      change Except.ok s.isEmpty = _
      cases s.isEmpty <;> rfl

theorem ofConstant (b : Bool) :
    Renders d (.constant b) (.truth b) (.tests (.unit b) []) where
  pieces := by cases b <;> exact ⟨rfl, fun _ => rfl⟩
  value := by
    intro coercer record hrecord
    cases b <;> rfl

theorem ofNot {condition : Condition} {clause : Clause} {formula : Formula}
    (h : Renders d condition clause formula) :
    Renders d (.not condition) (.not clause) (.not (.orFalse formula)) where
  pieces := by
    have hopen : Alike d [.text "(NOT ", .text "COALESCE("] [.text "(NOT COALESCE("] :=
      ⟨rfl, fun _ => rfl⟩
    have hclose : Alike d [.text ", FALSE)", .text ")"] [.text ", FALSE))"] := ⟨rfl, fun _ => rfl⟩
    simpa [Formula.pieces, Clause.pieces] using hopen.append (h.pieces.append hclose)
  value := by
    intro coercer record hrecord
    rw [Condition.eval, h.value coercer record hrecord]
    rfl

end Renders

-- The same of several parts, one by one.
inductive RendersAll (d : Dialect) : List Condition → List Clause → List Formula → Prop where
  | nil : RendersAll d [] [] []
  | cons {part : Condition} {clause : Clause} {formula : Formula} {parts : List Condition}
      {clauses : List Clause} {formulas : List Formula} (h : Renders d part clause formula)
      (hrest : RendersAll d parts clauses formulas) :
      RendersAll d (part :: parts) (clause :: clauses) (formula :: formulas)

namespace RendersAll

variable {parts : List Condition} {clauses : List Clause} {formulas : List Formula}

theorem pieces (h : RendersAll d parts clauses formulas) (separator : String) :
    Alike d (Formula.furtherPieces d separator formulas)
      (clauses.flatMap fun clause => .text separator :: clause.pieces d) := by
  induction h with
  | nil => exact .refl _
  | cons h hrest ih =>
      have happend := ((Alike.refl [.text separator]).append h.pieces).append ih
      simpa [Formula.furtherPieces] using happend

theorem evalAll (h : RendersAll d parts clauses formulas) (coercer : Coercer) (record : Datum)
    (hrecord : ∀ test ∈ Condition.testsOf parts, Comparable record test) :
    Condition.evalAll coercer parts record =
      .ok ((Formula.values (.ofRecord record) formulas).all Truth.holds) := by
  induction h with
  | nil => rfl
  | @cons part clause formula _ _ _ h hrest ih =>
      simp only [Condition.testsOf, List.mem_append, or_imp, forall_and] at hrecord
      rw [Condition.evalAll, h.value coercer record hrecord.1, ih hrecord.2, Formula.values,
        List.all_cons]
      cases (formula.value (.ofRecord record)).holds <;> rfl

theorem evalAny (h : RendersAll d parts clauses formulas) (coercer : Coercer) (record : Datum)
    (hrecord : ∀ test ∈ Condition.testsOf parts, Comparable record test) :
    Condition.evalAny coercer parts record =
      .ok ((Formula.values (.ofRecord record) formulas).any Truth.holds) := by
  induction h with
  | nil => rfl
  | @cons part clause formula _ _ _ h hrest ih =>
      simp only [Condition.testsOf, List.mem_append, or_imp, forall_and] at hrecord
      rw [Condition.evalAny, h.value coercer record hrecord.1, ih hrecord.2, Formula.values,
        List.any_cons]
      cases (formula.value (.ofRecord record)).holds <;> rfl

-- Parts behind each other are written with the combinator between them.
theorem alike_joined {clause : Clause} {formula : Formula}
    (h : RendersAll d parts (clause :: clauses) (formula :: formulas))
    (combinator : Combinator) :
    Alike d ((Formula.joined combinator formula formulas).pieces d)
      ((Clause.joined combinator (clause :: clauses)).pieces d) := by
  obtain - | ⟨hfirst, hrest⟩ := h
  have hparts := hfirst.pieces.append (hrest.pieces (" " ++ combinator.symbol ++ " "))
  have hparenthesised := (Alike.refl [.text "("]).append (hparts.append (.refl [.text ")"]))
  simpa [Formula.pieces, Clause.pieces, piecesJoined_cons] using hparenthesised

end RendersAll

namespace Renders

theorem ofAll {parts : List Condition} {clause : Clause} {clauses : List Clause}
    {formula : Formula} {formulas : List Formula}
    (h : RendersAll d parts (clause :: clauses) (formula :: formulas)) :
    Renders d (.all parts) (.joined .and (clause :: clauses)) (.joined .and formula formulas) where
  pieces := h.alike_joined .and
  value := by
    intro coercer record hrecord
    rw [Condition.eval, h.evalAll coercer record hrecord, Formula.value, Truth.holds_joined_and]
    rfl

theorem ofAny {parts : List Condition} {clause : Clause} {clauses : List Clause}
    {formula : Formula} {formulas : List Formula}
    (h : RendersAll d parts (clause :: clauses) (formula :: formulas)) :
    Renders d (.any parts) (.joined .or (clause :: clauses)) (.joined .or formula formulas) where
  pieces := h.alike_joined .or
  value := by
    intro coercer record hrecord
    rw [Condition.eval, h.evalAny coercer record hrecord, Formula.value, Truth.holds_joined_or]
    rfl

end Renders

-- Tests that SQL can ask of the stored values themselves, and lists that it can write.
def Stored (condition : Condition) : Prop :=
  ∀ test ∈ condition.tests,
    (∀ field ∈ test.field?, field.coerce = false) ∧ ∀ field, test ≠ .oneOf field []

theorem Stored.parts {condition : Condition} {parts : List Condition} (h : Stored condition)
    (hparts : condition.tests = Condition.testsOf parts) : ∀ part ∈ parts, Stored part := by
  intro part hpart test htest
  apply h
  rw [hparts]
  exact Condition.mem_testsOf.mpr ⟨part, hpart, htest⟩

theorem exists_rendersAll {parts : List Condition} {clauses : List Clause}
    (hparts : ∀ part ∈ parts, ∀ clause, Clause.ofCondition part = .ok clause → Stored part →
      ∃ formula, Renders d part clause formula)
    (h : Clause.ofParts parts = .ok clauses) (hstored : ∀ part ∈ parts, Stored part) :
    ∃ formulas, RendersAll d parts clauses formulas := by
  induction parts generalizing clauses with
  | nil =>
      cases h
      exact ⟨[], .nil⟩
  | cons part rest ih =>
      rw [List.forall_mem_cons] at hparts hstored
      obtain ⟨clause, others, hclause, hothers, rfl⟩ := (Outcome.bind_cons_eq_ok id).mp h
      obtain ⟨formula, hformula⟩ := hparts.1 clause hclause hstored.1
      obtain ⟨formulas, hformulas⟩ := ih hparts.2 hothers hstored.2
      exact ⟨formula :: formulas, .cons hformula hformulas⟩

theorem exists_renders (condition : Condition) {clause : Clause}
    (h : Clause.ofCondition condition = .ok clause) (hstored : Stored condition) :
    ∃ formula, Renders d condition clause formula := by
  induction condition using Condition.treeInduction generalizing clause with
  | constant b =>
      cases h
      exact ⟨_, .ofConstant b⟩
  | all parts ih =>
      cases parts with
      | nil =>
          cases h
          exact ⟨.tests (.unit true) [], (Renders.ofConstant true).pieces, fun _ _ _ => rfl⟩
      | cons first rest =>
          obtain ⟨clauses, hclauses, rfl⟩ := Outcome.map_eq_ok.mp h
          obtain ⟨formulas, hformulas⟩ :=
            exists_rendersAll (fun part hpart _ => ih part hpart) hclauses (hstored.parts rfl)
          obtain - | ⟨hformula, hrest⟩ := hformulas
          exact ⟨_, .ofAll (.cons hformula hrest)⟩
  | any parts ih =>
      cases parts with
      | nil =>
          cases h
          exact ⟨.tests (.unit false) [], (Renders.ofConstant false).pieces, fun _ _ _ => rfl⟩
      | cons first rest =>
          obtain ⟨clauses, hclauses, rfl⟩ := Outcome.map_eq_ok.mp h
          obtain ⟨formulas, hformulas⟩ :=
            exists_rendersAll (fun part hpart _ => ih part hpart) hclauses (hstored.parts rfl)
          obtain - | ⟨hformula, hrest⟩ := hformulas
          exact ⟨_, .ofAny (.cons hformula hrest)⟩
  | not inner ih =>
      obtain ⟨clause, hclause, rfl⟩ := Outcome.map_eq_ok.mp h
      obtain ⟨formula, hformula⟩ := ih hclause hstored
      exact ⟨_, hformula.ofNot⟩
  | anyElement collection inner => cases h
  | compare field op value =>
      obtain ⟨column, hcolumn, rfl⟩ := Outcome.map_eq_ok.mp h
      exact ⟨_, .ofCompare hcolumn ((hstored _ (.head _)).1 field rfl)⟩
  | oneOf field values =>
      obtain ⟨column, hcolumn, rfl⟩ := Outcome.map_eq_ok.mp h
      obtain ⟨hcoerce, hvalues⟩ := hstored _ (.head _)
      cases values with
      | nil => exact absurd rfl (hvalues field)
      | cons first rest => exact ⟨_, .ofOneOf hcolumn (hcoerce field rfl)⟩
  | between field low high =>
      obtain ⟨column, hcolumn, rfl⟩ := Outcome.map_eq_ok.mp h
      exact ⟨_, .ofBetween hcolumn ((hstored _ (.head _)).1 field rfl)⟩
  | text field test pattern =>
      obtain ⟨column, hcolumn, rfl⟩ := Outcome.map_eq_ok.mp h
      exact ⟨_, .ofText hcolumn ((hstored _ (.head _)).1 field rfl)⟩
  | isNull field =>
      obtain ⟨column, hcolumn, rfl⟩ := Outcome.map_eq_ok.mp h
      exact ⟨_, .ofIsNull hcolumn ((hstored _ (.head _)).1 field rfl)⟩
  | isEmpty field target =>
      cases target with
      | text =>
          obtain ⟨column, hcolumn, rfl⟩ := Outcome.map_eq_ok.mp h
          exact ⟨_, .ofIsEmpty hcolumn ((hstored _ (.head _)).1 field rfl)⟩
      | collection => cases h
  | custom field name test => cases h

-- The text of a condition is that of a formula which is true on the rows of just those records
-- that meet the condition. Elsewhere it may be false or unknown.
theorem exists_formula_true_iff_eval (d : Dialect) (condition : Condition) (fragment : Fragment)
    (h : Fragment.ofCondition d condition = .ok fragment) (hstored : Stored condition) :
    ∃ formula : Formula, fragment = formula.print d ∧
      ∀ (coercer : Coercer) (record : Datum),
        (∀ test ∈ condition.tests, Comparable record test) →
          (formula.value (.ofRecord record) = some true ↔
            condition.eval coercer record = .ok true) := by
  obtain ⟨clause, hclause, rfl⟩ := Outcome.map_eq_ok.mp h
  obtain ⟨formula, hpieces, hvalue⟩ := exists_renders condition hclause hstored
  refine ⟨formula, ?_, ?_⟩
  · rw [Formula.print, hpieces.1, hpieces.2]
  · intro coercer record hrecord
    rw [hvalue coercer record hrecord, Except.ok.injEq, Truth.holds_eq_true_iff]

private def name : FieldRef := { path := [.member "name"], kind := .string, fold := true }

private def seen : FieldRef := { path := [.member "seen"], kind := .date, dayOnly := true }

private def leapDay : Date := ⟨2024, 2, 29, by decide⟩

private def unlikely : Condition :=
  .not (.any [.text name .contains "a_", .compare seen .less (.date leapDay)])

-- Nothing is known of the name, and the day is not before the one asked for.
private def visitor : Datum :=
  .record [("name", .null), ("seen", .scalar (.datetime (.midnight leapDay)))] []

private def unlikelyFragment : Fragment where
  sql := "(NOT COALESCE(((LOWER(\"name\") LIKE ? ESCAPE '!') OR (DATE(\"seen\") < ?)), FALSE))"
  params := [.string "%a!_%", .date leapDay]

theorem unlikely_true_of_visitor :
    Fragment.ofCondition .sqlite unlikely = .ok unlikelyFragment ∧ Stored unlikely ∧
      (∀ test ∈ unlikely.tests, Comparable visitor test) ∧
      ∃ formula : Formula, unlikelyFragment = formula.print .sqlite ∧
        formula.value (.ofRecord visitor) = some true := by
  have htests : unlikely.tests =
    [.text name .contains "a_", .compare seen .less (.date leapDay)] := rfl
  have hfragment : Fragment.ofCondition .sqlite unlikely = .ok unlikelyFragment := rfl
  have hstored : Stored unlikely := by
    simp [Stored, htests, Condition.field?, name, seen]
  have hcomparable : ∀ test ∈ unlikely.tests, Comparable visitor test := by
    rw [htests, List.forall_mem_cons, List.forall_mem_singleton]
    constructor
    · rintro field ⟨⟩
      exact .inl rfl
    · rintro field ⟨⟩
      refine .inr ⟨_, rfl, ?_⟩
      simp [Condition.literals, View.ofField, seen, View.see, Value.compare?]
  obtain ⟨formula, hprint, htrue⟩ :=
    exists_formula_true_iff_eval .sqlite unlikely unlikelyFragment hfragment hstored
  exact ⟨hfragment, hstored, hcomparable, formula, hprint, (htrue {} visitor hcomparable).mpr rfl⟩

end Sieve.Sql

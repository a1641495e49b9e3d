import Sieve.Proofs.Sql.Like
import Sieve.Sql.Fragment

-- Conditions of SQL as a tree of their own, with the text they are written as and the truth value
-- they have on a row.
namespace Sieve.Sql

-- A truth value, or NULL where it is unknown.
abbrev Truth := Option Bool

namespace Truth

def and : Truth → Truth → Truth
  | some false, _ => some false
  | _, some false => some false
  | some true, some true => some true
  | _, _ => none

def or : Truth → Truth → Truth
  | some true, _ => some true
  | _, some true => some true
  | some false, some false => some false
  | _, _ => none

def not : Truth → Truth :=
  Option.map (!·)

def joined : Combinator → List Truth → Truth
  | .and, parts => parts.foldr and (some true)
  | .or, parts => parts.foldr or (some false)

-- Whether a row with this truth value is kept.
def holds (truth : Truth) : Bool :=
  truth.getD false

theorem holds_eq_true_iff {truth : Truth} : truth.holds = true ↔ truth = some true := by
  rcases truth with _ | _ | _ <;> simp [holds]

theorem holds_and (a b : Truth) : (and a b).holds = (a.holds && b.holds) := by
  rcases a with _ | _ | _ <;> rcases b with _ | _ | _ <;> rfl

theorem holds_or (a b : Truth) : (or a b).holds = (a.holds || b.holds) := by
  rcases a with _ | _ | _ <;> rcases b with _ | _ | _ <;> rfl

theorem holds_joined_and (parts : List Truth) :
    (joined .and parts).holds = parts.all holds := by
  induction parts with
  | nil => rfl
  | cons part rest ih =>
      simp only [joined] at ih
      rw [joined, List.foldr_cons, holds_and, ih, List.all_cons]

theorem holds_joined_or (parts : List Truth) :
    (joined .or parts).holds = parts.any holds := by
  induction parts with
  | nil => rfl
  | cons part rest ih =>
      simp only [joined] at ih
      rw [joined, List.foldr_cons, holds_or, ih, List.any_cons]

end Truth

-- What a row holds in a column of this name; NULL is nothing.
abbrev Row := List String → Option Value

-- The value that is seen of a stored one.
def View.see : View → Value → Value
  | .plain, value => value
  | .lower, value => value.foldCase
  | .day, .datetime t => .date t.date
  | .day, value => value

def Column.see (column : Column) (row : Row) : Option Value :=
  (row column.names).map column.view.see

-- What stands between parentheses without any inside. `emptyText` compares with the text literal
-- that is empty; all other values are bound.
inductive Test where
  | unit (b : Bool)
  | compare (column : Column) (op : Comparison) (value : Value)
  | isIn (column : Column) (first : Value) (rest : List Value)
  | between (column : Column) (low high : Value)
  | like (column : Column) (pattern : String) (escape : Char)
  | isNull (column : Column)
  | emptyText (column : Column)

namespace Test

-- Comparing NULL is unknown, and so is comparing what has no order.
def compared (stored : Option Value) (op : Comparison) (value : Value) : Truth :=
  stored.bind fun v => (v.compare? value).map op.holds

def value (row : Row) : Test → Truth
  | unit b => some b
  | compare column op value => compared (column.see row) op value
  | isIn column first rest =>
    .joined .or ((first :: rest).map (compared (column.see row) .equal))
  | between column low high =>
    .and (compared (column.see row) .greaterOrEqual low)
      (compared (column.see row) .lessOrEqual high)
  | like column pattern escape =>
    (column.see row).bind fun
      | .string s => some (isLike escape pattern s)
      | _ => none
  | isNull column => some (column.see row).isNone
  | emptyText column => compared (column.see row) .equal (.string "")

def pieces (d : Dialect) : Test → List Piece
  | unit b => [.text (if b then "1 = 1" else "1 = 0")]
  | compare column op value =>
    [.text (column.render d ++ " " ++ comparisonSign op ++ " "), .bound value]
  | isIn column first rest =>
    .text (column.render d ++ " IN (") :: .bound first ::
      (rest.flatMap fun value => [.text ", ", .bound value]) ++ [.text ")"]
  | between column low high =>
    [.text (column.render d ++ " BETWEEN "), .bound low, .text " AND ", .bound high]
  | like column pattern escape =>
    [.text (column.render d ++ " LIKE "), .bound (.string pattern),
      .text (" ESCAPE '" ++ String.singleton escape ++ "'")]
  | isNull column => [.text (column.render d ++ " IS NULL")]
  | emptyText column => [.text (column.render d ++ " = ''")]

end Test

-- A condition in which every part stands in parentheses of its own, tests aside that are joined
-- by OR. `orFalse` is COALESCE with FALSE.
inductive Formula where
  | tests (first : Test) (rest : List Test)
  | joined (combinator : Combinator) (first : Formula) (rest : List Formula)
  | not (inner : Formula)
  | orFalse (inner : Formula)

namespace Formula

mutual

def value (row : Row) : Formula → Truth
  | tests first rest => .joined .or ((first :: rest).map (Test.value row))
  | joined combinator first rest => .joined combinator (first.value row :: values row rest)
  | not inner => .not (inner.value row)
  | orFalse inner => some (inner.value row).holds

def values (row : Row) : List Formula → List Truth
  | [] => []
  | part :: rest => part.value row :: values row rest

end

mutual

def pieces (d : Dialect) : Formula → List Piece
  | tests first rest =>
    .text "(" :: first.pieces d ++ (rest.flatMap fun test => .text " OR " :: test.pieces d) ++
      [.text ")"]
  | joined combinator first rest =>
    .text "(" :: first.pieces d ++ furtherPieces d (" " ++ combinator.symbol ++ " ") rest ++
      [.text ")"]
  | not inner => .text "(NOT " :: inner.pieces d ++ [.text ")"]
  | orFalse inner => .text "COALESCE(" :: inner.pieces d ++ [.text ", FALSE)"]

def furtherPieces (d : Dialect) (separator : String) : List Formula → List Piece
  | [] => []
  | part :: rest => .text separator :: part.pieces d ++ furtherPieces d separator rest

end

-- The text of a formula and the values for its placeholders.
def print (d : Dialect) (formula : Formula) : Fragment where
  sql := Piece.render d 0 (formula.pieces d)
  params := Piece.params (formula.pieces d)

end Formula

end Sieve.Sql

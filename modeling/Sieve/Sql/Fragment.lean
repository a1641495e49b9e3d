import Sieve.Sql.Clause
import Sieve.Sql.Dialect

namespace Sieve.Sql

-- A piece of a statement: text, or the place of a parameter.
inductive Piece where
  | text (s : String)
  | bound (value : Value)

namespace Piece

-- The text of the pieces, the parameters counted from `place` on.
def render (d : Dialect) (place : Nat) : List Piece → String
  | [] => ""
  | text s :: rest => s ++ render d place rest
  | bound _ :: rest => d.placeholder place ++ render d (place + 1) rest

def param? : Piece → Option Value
  | text _ => none
  | bound value => some value

def params (pieces : List Piece) : List Value :=
  pieces.filterMap param?

end Piece

def Column.render (d : Dialect) (column : Column) : String :=
  let name := ".".intercalate (column.names.map d.quote)
  match column.view with
  | .plain => name
  | .lower => "LOWER(" ++ name ++ ")"
  | .day => d.dayOf name

def comparisonSign : Comparison → String
  | .equal => "="
  | .notEqual => "<>"
  | .greater => ">"
  | .greaterOrEqual => ">="
  | .less => "<"
  | .lessOrEqual => "<="

namespace Clause

-- Parameters with commas between them.
def boundList : List Value → List Piece
  | [] => []
  | [value] => [.bound value]
  | value :: rest => .bound value :: .text ", " :: boundList rest

mutual

-- Writes a clause with parentheses around every part. What is unknown because a column holds
-- nothing counts as false before it is negated.
def pieces (d : Dialect) : Clause → List Piece
  | truth b => [.text (if b then "(1 = 1)" else "(1 = 0)")]
  | joined combinator parts =>
    [.text "("] ++ piecesJoined d (" " ++ combinator.symbol ++ " ") parts ++ [.text ")"]
  | not inner => [.text "(NOT COALESCE("] ++ inner.pieces d ++ [.text ", FALSE))"]
  | compare column op value =>
    [.text ("(" ++ column.render d ++ " " ++ comparisonSign op ++ " "), .bound value, .text ")"]
  | oneOf column values =>
    [.text ("(" ++ column.render d ++ " IN (")] ++ boundList values ++ [.text "))"]
  | between column low high =>
    [.text ("(" ++ column.render d ++ " BETWEEN "), .bound low, .text " AND ", .bound high,
      .text ")"]
  | like column pattern =>
    [.text ("(" ++ column.render d ++ " LIKE "), .bound (.string pattern), .text " ESCAPE '!')"]
  | isNull column => [.text ("(" ++ column.render d ++ " IS NULL)")]
  | isBlank column =>
    [.text ("(" ++ column.render d ++ " IS NULL OR " ++ column.render d ++ " = '')")]

def piecesJoined (d : Dialect) (separator : String) : List Clause → List Piece
  | [] => []
  | [part] => part.pieces d
  | part :: rest => part.pieces d ++ .text separator :: piecesJoined d separator rest

end

end Clause

-- A statement, or a part of one, with the values for its placeholders in order.
structure Fragment where
  sql : String
  params : List Value

-- The text of a condition for use behind `WHERE`, in a statement that has a number of parameters
-- already.
def Fragment.ofConditionAfter (d : Dialect) (place : Nat) (condition : Condition) :
    Except TranslationError Fragment :=
  (Clause.ofCondition condition).map fun clause =>
    ⟨Piece.render d place (clause.pieces d), Piece.params (clause.pieces d)⟩

def Fragment.ofCondition (d : Dialect) (condition : Condition) :
    Except TranslationError Fragment :=
  ofConditionAfter d 0 condition

end Sieve.Sql

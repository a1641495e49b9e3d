import Sieve.Rule.Basic
import Sieve.Translation

namespace Sieve.Sql

-- How a column is looked at.
inductive View where
  | plain
  | lower
  | day
  deriving DecidableEq

-- A column by its qualified name.
structure Column where
  names : List String
  view : View
  deriving DecidableEq

namespace Column

-- The column that a field is stored in; `part` is what asks for it.
def ofField (field : FieldRef) (part : Condition) : Except TranslationError Column :=
  if field.path.isElement then .error (.of .sql .element part)
  else
    match FieldPath.memberNames? field.path with
    | none => .error (.of .sql .keyOrIndexer part)
    | some names =>
      .ok ⟨names, if field.fold then .lower else if field.dayOnly then .day else .plain⟩

end Column

-- A condition on a row. Patterns of `like` use `!` to escape. `isBlank` asks for nothing or an
-- empty text.
inductive Clause where
  | truth (b : Bool)
  | joined (combinator : Combinator) (parts : List Clause)
  | not (inner : Clause)
  | compare (column : Column) (op : Comparison) (value : Value)
  | oneOf (column : Column) (values : List Value)
  | between (column : Column) (low high : Value)
  | like (column : Column) (pattern : String)
  | isNull (column : Column)
  | isBlank (column : Column)

namespace Clause

def escapeChar : Char := '!'

def isWildcard (c : Char) : Bool :=
  c = '%' || c = '_'

def escapeLike (cs : List Char) : List Char :=
  cs.flatMap fun c => if isWildcard c || c = escapeChar then [escapeChar, c] else [c]

-- The pattern that exactly the texts which pass a test are like.
def likePattern (test : TextTest) (pattern : String) : String :=
  let escaped := escapeLike pattern.toList
  String.ofList
    (match test with
      | .beginsWith => escaped ++ ['%']
      | .contains => ['%'] ++ escaped ++ ['%']
      | .endsWith => ['%'] ++ escaped)

mutual

def ofCondition : Condition → Except TranslationError Clause
  | .constant b => .ok (truth b)
  | .all [] => .ok (truth true)
  | .any [] => .ok (truth false)
  | .all (part :: rest) => (ofParts (part :: rest)).map (joined .and)
  | .any (part :: rest) => (ofParts (part :: rest)).map (joined .or)
  | .not inner => (ofCondition inner).map not
  | .compare field op value =>
    (Column.ofField field (.compare field op value)).map fun column => compare column op value
  | .oneOf field values =>
    (Column.ofField field (.oneOf field values)).map fun column => oneOf column values
  | .between field low high =>
    (Column.ofField field (.between field low high)).map fun column => between column low high
  | .text field test pattern =>
    (Column.ofField field (.text field test pattern)).map fun column =>
      like column (likePattern test pattern)
  | .isNull field => (Column.ofField field (.isNull field)).map isNull
  | .isEmpty field .text => (Column.ofField field (.isEmpty field .text)).map isBlank
  | .isEmpty field .collection => .error (.of .sql .collectionLength (.isEmpty field .collection))
  | .anyElement collection inner => .error (.of .sql .quantifier (.anyElement collection inner))
  | .custom field name test => .error (.of .sql .customTest (.custom field name test))

def ofParts : List Condition → Except TranslationError (List Clause)
  | [] => .ok []
  | part :: rest => do
    let clause ← ofCondition part
    let clauses ← ofParts rest
    return clause :: clauses

end

end Clause

end Sieve.Sql

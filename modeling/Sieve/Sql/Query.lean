import Sieve.Sql.Fragment
import Sieve.Text.Blank

namespace Sieve.Sql

-- A statement, the values for its placeholders in order, and whether it asks for something of the
-- rows already.
structure Query where
  sql : String
  params : List Value
  dialect : Dialect
  hasWhere : Bool

namespace Query

-- Blanks at the end of the statement are dropped.
def new (base : String) (dialect : Dialect) : Query where
  sql := String.ofList (Text.trimEnd base.toList)
  params := []
  dialect := dialect
  hasWhere := false

-- What is constantly true asks for nothing more.
def isTrivial : Condition → Bool
  | .constant b => b
  | _ => false

-- Asks for a further condition, its placeholders numbered on from the parameters that are there.
-- A condition without a form in SQL leaves no query.
def andWhere (query : Query) (condition : Condition) : Except TranslationError Query :=
  if isTrivial condition then .ok query
  else
    (Fragment.ofConditionAfter query.dialect query.params.length condition).map fun fragment =>
      { query with
        sql := query.sql ++ (if query.hasWhere then " AND " else " WHERE ") ++ fragment.sql
        params := query.params ++ fragment.params
        hasWhere := true }

end Query

end Sieve.Sql

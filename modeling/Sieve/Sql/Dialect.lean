import Sieve.Decimal.Integer

namespace Sieve.Sql

inductive Dialect where
  | postgres
  | mysql
  | sqlite
  deriving DecidableEq

namespace Dialect

def name : Dialect → String
  | postgres => "PostgreSQL"
  | mysql => "MySQL"
  | sqlite => "SQLite"

-- The character around quoted identifiers.
def delimiter : Dialect → Char
  | postgres | sqlite => '"'
  | mysql => '\x60'

-- A quoted identifier. The delimiter stands twice where the name has it.
def quote (d : Dialect) (name : String) : String :=
  String.ofList
    ([d.delimiter] ++
      (name.toList.flatMap fun c => if c = d.delimiter then [c, c] else [c]) ++ [d.delimiter])

-- The placeholder for the parameter at a place counted from zero.
def placeholder (d : Dialect) (place : Nat) : String :=
  match d with
  | postgres => "$" ++ Decimal.renderNat (place + 1)
  | mysql | sqlite => "?"

-- The day of a column that holds timestamps.
def dayOf (d : Dialect) (column : String) : String :=
  match d with
  | postgres | mysql => "CAST(" ++ column ++ " AS DATE)"
  | sqlite => "DATE(" ++ column ++ ")"

end Dialect

end Sieve.Sql

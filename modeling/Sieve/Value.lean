import Sieve.Calendar.DateTime
import Sieve.Decimal.Layout
import Sieve.Guid
import Sieve.Kind
import Sieve.Text.LowerCase

namespace Sieve

-- A scalar of one of the eight kinds.
inductive Value where
  | integer (n : Int32)
  | long (n : Int64)
  | double (x : Float)
  | string (s : String)
  | date (d : Date)
  | datetime (t : DateTime)
  | boolean (b : Bool)
  | guid (g : Guid)
  deriving DecidableEq

namespace Value

def kind : Value → Kind
  | integer _ => .integer
  | long _ => .long
  | double _ => .double
  | string _ => .string
  | date _ => .date
  | datetime _ => .datetime
  | boolean _ => .boolean
  | guid _ => .guid

-- A number of any kind, integers exactly.
inductive Numeric where
  | whole (n : Int)
  | real (x : Float)

def numeric? : Value → Option Numeric
  | integer n => some (.whole n.toInt)
  | long n => some (.whole n.toInt)
  | double x => some (.real x)
  | _ => none

-- Doubles are ordered except where one of them is no number.
def compareFloats (x y : Float) : Option Ordering :=
  if x < y then some .lt
  else if y < x then some .gt
  else if x == y then some .eq
  else none

-- Integers are compared exactly among each other, and through their nearest double with doubles.
def Numeric.compare? : Numeric → Numeric → Option Ordering
  | .whole a, .whole b => some (compare a b)
  | .real x, .real y => compareFloats x y
  | .whole a, .real y => compareFloats (Float.ofInt a) y
  | .real x, .whole b => compareFloats x (Float.ofInt b)

-- Where a stored value stands relative to a literal. Numbers are compared across their kinds,
-- a stored timestamp with a literal date by its day, and else only values of one kind.
def compare? (stored literal : Value) : Option Ordering :=
  match stored, literal with
  | string s, string t => some (compare s t)
  | date d, date e => some (compare d e)
  | datetime t, datetime u => some (compare t u)
  | datetime t, date d => some (compare t.date d)
  | boolean a, boolean b => some (compare a b)
  | guid a, guid b => some (compare a b)
  | _, _ =>
    match stored.numeric?, literal.numeric? with
    | some a, some b => a.compare? b
    | _, _ => none

def foldCase : Value → Value
  | string s => string (Text.lower s)
  | v => v

-- The text of the value alone, strings as they are.
def scalarText : Value → String
  | integer n => Decimal.renderInt n.toInt
  | long n => Decimal.renderInt n.toInt
  | double x => Decimal.renderFloat x
  | string s => s
  | date d => d.render
  | datetime t => t.render
  | boolean b => if b then "true" else "false"
  | guid g => g.render

-- As `scalarText`, strings in quotes.
def render : Value → String
  | string s => "\"" ++ s ++ "\""
  | v => v.scalarText

end Value

end Sieve

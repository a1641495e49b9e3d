import Sieve.Decimal.Integer

namespace Sieve

namespace Date

def isLeapYear (year : Int) : Bool :=
  year % 4 == 0 && (year % 100 != 0 || year % 400 == 0)

-- Zero for a number that names no month.
def daysInMonth (year : Int) (month : Nat) : Nat :=
  match month with
  | 2 => if isLeapYear year then 29 else 28
  | 4 | 6 | 9 | 11 => 30
  | 1 | 3 | 5 | 7 | 8 | 10 | 12 => 31
  | _ => 0

def minYear : Int := -262143

def maxYear : Int := 262142

def Valid (year : Int) (month day : Nat) : Prop :=
  minYear ≤ year ∧ year ≤ maxYear ∧ 1 ≤ day ∧ day ≤ daysInMonth year month

instance (year : Int) (month day : Nat) : Decidable (Valid year month day) :=
  inferInstanceAs (Decidable (_ ∧ _))

end Date

-- A day of the Gregorian calendar, extended to all years from `Date.minYear` to `Date.maxYear`.
structure Date where
  year : Int
  month : Nat
  day : Nat
  valid : Date.Valid year month day
  deriving DecidableEq

namespace Date

def of? (year : Int) (month day : Nat) : Option Date :=
  if h : Valid year month day then some ⟨year, month, day, h⟩ else none

-- One day on: a later day of the month, else the first of the next month, else of the next year.
def next? (d : Date) : Option Date :=
  of? d.year d.month (d.day + 1) <|> of? d.year (d.month + 1) 1 <|> of? (d.year + 1) 1 1

def previous? (d : Date) : Option Date :=
  of? d.year d.month (d.day - 1)
    <|> of? d.year (d.month - 1) (daysInMonth d.year (d.month - 1))
    <|> of? (d.year - 1) 12 31

instance : Ord Date where
  compare a b :=
    ((compare a.year b.year).then (compare a.month b.month)).then (compare a.day b.day)

-- Four digits, with a sign in front for a year that is negative or needs more.
def yearDigits (year : Int) : List Char :=
  let digits := Decimal.paddedDigits 4 year.natAbs
  if year < 0 then '-' :: digits else if 9999 < year then '+' :: digits else digits

def digits (d : Date) : List Char :=
  yearDigits d.year ++ ['-'] ++ Decimal.paddedDigits 2 d.month ++ ['-'] ++
    Decimal.paddedDigits 2 d.day

def render (d : Date) : String :=
  String.ofList d.digits

end Date

end Sieve

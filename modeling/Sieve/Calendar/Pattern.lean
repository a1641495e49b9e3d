import Sieve.Calendar.DateTime
import Sieve.Text.Blank

namespace Sieve.Calendar

-- What a pattern asks for next in a text.
inductive PatternItem where
  | year
  | month
  | day
  | hour
  | minute
  | second
  | fraction
  | literal (c : Char)
  | blanks
  deriving DecidableEq

abbrev Pattern := List PatternItem

-- The numbers read so far. A pattern that asks for no time of day leaves midnight.
structure Fields where
  year : Int := 0
  month : Nat := 0
  day : Nat := 0
  hour : Nat := 0
  minute : Nat := 0
  second : Nat := 0
  nano : Nat := 0

-- Takes one to `width` digits, as many as there are, from the front.
def takeNumber (width : Nat) (cs : List Char) : Option (Nat × List Char) :=
  let digits := (cs.take width).takeWhile Decimal.isDigit
  if digits.isEmpty then none
  else some (Nat.ofDigitChars 10 digits 0, cs.drop digits.length)

-- A year has one to four digits, or a sign and any number of them.
def takeYear (cs : List Char) : Option (Int × List Char) :=
  match cs with
  | '-' :: rest => (takeNumber rest.length rest).map fun (n, rest) => (-(n : Int), rest)
  | '+' :: rest => (takeNumber rest.length rest).map fun (n, rest) => ((n : Int), rest)
  | _ => (takeNumber 4 cs).map fun (n, rest) => ((n : Int), rest)

-- The digits after a point as nanoseconds; those after the ninth are dropped.
def nanosOf (digits : List Char) : Nat :=
  Nat.ofDigitChars 10 (digits.take 9) 0 * Nat.pow 10 (9 - digits.length)

-- Takes a point and one or more digits off the front; without a point there is nothing to take.
def takeFraction (cs : List Char) : Option (Nat × List Char) :=
  match cs with
  | '.' :: rest =>
    let digits := rest.takeWhile Decimal.isDigit
    if digits.isEmpty then none else some (nanosOf digits, rest.dropWhile Decimal.isDigit)
  | _ => some (0, cs)

-- Takes a number in a given range, blanks before it passed over.
def takeWithin (low high : Nat) (cs : List Char) : Option (Nat × List Char) :=
  match takeNumber 2 (Text.trimStart cs) with
  | some (n, rest) => if low ≤ n ∧ n ≤ high then some (n, rest) else none
  | none => none

def PatternItem.take (item : PatternItem) (f : Fields) (cs : List Char) :
    Option (Fields × List Char) :=
  match item with
  | .year => (takeYear (Text.trimStart cs)).map fun (n, rest) => ({ f with year := n }, rest)
  | .month => (takeWithin 1 12 cs).map fun (n, rest) => ({ f with month := n }, rest)
  | .day => (takeWithin 1 31 cs).map fun (n, rest) => ({ f with day := n }, rest)
  | .hour => (takeWithin 0 23 cs).map fun (n, rest) => ({ f with hour := n }, rest)
  | .minute => (takeWithin 0 59 cs).map fun (n, rest) => ({ f with minute := n }, rest)
  | .second => (takeWithin 0 60 cs).map fun (n, rest) => ({ f with second := n }, rest)
  | .fraction => (takeFraction cs).map fun (n, rest) => ({ f with nano := n }, rest)
  | .literal c =>
    match cs with
    | first :: rest => if first = c then some (f, rest) else none
    | [] => none
  | .blanks => some (f, Text.trimStart cs)

-- Reads a whole text.
def Pattern.read : Pattern → Fields → List Char → Option Fields
  | [], f, cs => if cs.isEmpty then some f else none
  | item :: rest, f, cs => (item.take f cs).bind fun (f, cs) => Pattern.read rest f cs

def Fields.date? (f : Fields) : Option Date :=
  Date.of? f.year f.month f.day

def Fields.dateTime? (f : Fields) : Option DateTime :=
  f.date?.bind fun date => DateTime.ofClock? date f.hour f.minute f.second f.nano

def Pattern.dateTime? (p : Pattern) (cs : List Char) : Option DateTime :=
  (Pattern.read p {} cs).bind Fields.dateTime?

-- Year, month and day with dashes.
def isoDate : Pattern :=
  [.year, .literal '-', .month, .literal '-', .day]

def hourMinute : Pattern :=
  [.hour, .literal ':', .minute]

def hourMinuteSecond : Pattern :=
  hourMinute ++ [.literal ':', .second]

-- The forms of a timestamp without an offset, each with a `T` or blanks before the time.
def isoPatterns : List Pattern := [
  isoDate ++ [.literal 'T'] ++ hourMinuteSecond ++ [.fraction],
  isoDate ++ [.blanks] ++ hourMinuteSecond ++ [.fraction],
  isoDate ++ [.literal 'T'] ++ hourMinute,
  isoDate ++ [.blanks] ++ hourMinute,
  isoDate
]

end Sieve.Calendar

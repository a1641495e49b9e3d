import Sieve.Calendar.Offset
import Sieve.Datum
import Sieve.Decimal.Reading
import Sieve.Error
import Sieve.Locale

namespace Sieve

-- Turns texts into values of a kind, by the culture they are written in. Timestamps with an
-- offset are taken to UTC, or keep the time they show.
structure Coercer where
  locale : Locale := .invariant
  utc : Bool := false

namespace Coercer

def integerWithin (locale : Locale) (low high : Int) (cs : List Char) : Option Int := do
  let plain ← locale.normalizeNumber cs
  let n ← Decimal.readInt plain
  if low ≤ n ∧ n ≤ high then return n else none

def parseInteger (locale : Locale) (cs : List Char) : Option Int32 :=
  (integerWithin locale (-2147483648) 2147483647 cs).map Int32.ofInt

def parseLong (locale : Locale) (cs : List Char) : Option Int64 :=
  (integerWithin locale (-9223372036854775808) 9223372036854775807 cs).map Int64.ofInt

def parseDouble (locale : Locale) (cs : List Char) : Option Float :=
  (locale.normalizeNumber cs).bind Decimal.readFloat

def parseBoolean (cs : List Char) : Option Bool :=
  let word := (Text.trim cs).map Char.toLower
  if word == ['t', 'r', 'u', 'e'] || word == ['1'] || word == ['y', 'e', 's'] then some true
  else if word == ['f', 'a', 'l', 's', 'e'] || word == ['0'] || word == ['n', 'o'] then some false
  else none

def datePattern (order : DateOrder) (separator : Char) : Calendar.Pattern :=
  match order with
  | .dayMonthYear => [.day, .literal separator, .month, .literal separator, .year]
  | .monthDayYear => [.month, .literal separator, .day, .literal separator, .year]
  | .yearMonthDay => [.year, .literal separator, .month, .literal separator, .day]

-- The forms of a date in the locale's order, alone or with a time of day.
def localPatterns (order : DateOrder) : List Calendar.Pattern :=
  ['/', '-', '.'].flatMap fun separator =>
    [datePattern order separator,
      datePattern order separator ++ [.blanks] ++ Calendar.hourMinuteSecond,
      datePattern order separator ++ [.blanks] ++ Calendar.hourMinute]

-- A timestamp with an offset comes first, then the forms that put the year first, then those of
-- the locale. The first form that fits the whole text counts.
def parseDateTime (c : Coercer) (cs : List Char) : Option DateTime :=
  let text := Text.trim cs
  match Calendar.OffsetDateTime.read text with
  | some t => if c.utc then t.utc? else some t.written
  | none =>
    (Calendar.isoPatterns ++ localPatterns c.locale.dateOrder).findSome? (·.dateTime? text)

-- Reads one text as a value of a kind.
def parse (c : Coercer) (token : String) (kind : Kind) : Option Value :=
  let cs := token.toList
  match kind with
  | .integer => (parseInteger c.locale cs).map .integer
  | .long => (parseLong c.locale cs).map .long
  | .double => (parseDouble c.locale cs).map .double
  | .string => some (.string token)
  | .date => (c.parseDateTime cs).map fun t => .date t.date
  | .datetime => (c.parseDateTime cs).map .datetime
  | .boolean => (parseBoolean cs).map .boolean
  | .guid => (Guid.read (Text.trim cs)).map .guid

-- As `parse`, a failure naming the operator and the field.
def coerce (c : Coercer) (kind : Kind) (operator field token : String) :
    Except CoercionError Value :=
  match c.parse token kind with
  | some value => .ok value
  | none => .error { operator, field, kind, token }

-- The values of several texts, or the first failure.
def coerceAll (c : Coercer) (kind : Kind) (operator field : String) :
    List String → Except CoercionError (List Value)
  | [] => .ok []
  | token :: rest => do
    let value ← c.coerce kind operator field token
    let values ← c.coerceAll kind operator field rest
    return value :: values

-- Whether a stored value can be compared as one of a kind just as it is.
def fits (value : Value) (kind : Kind) : Bool :=
  match value with
  | .integer _ | .long _ | .double _ => kind.isNumeric
  | .datetime _ => kind == .date || kind == .datetime
  | value => value.kind == kind

-- Brings a stored datum to a kind. Nothing stays nothing and a list stays a list; a scalar that
-- does not fit is read again from its text. A failure gives the text that could not be read.
def coerceDatum (c : Coercer) (datum : Datum) (kind : Kind) : Except String Datum :=
  match datum with
  | .null => .ok .null
  | .list items => .ok (.list items)
  | .scalar value =>
    if fits value kind then .ok (.scalar value)
    else
      match c.parse value.scalarText kind with
      | some coerced => .ok (.scalar coerced)
      | none => .error value.scalarText
  | datum => .error datum.inspect

end Coercer

end Sieve

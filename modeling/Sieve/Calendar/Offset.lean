import Sieve.Calendar.Pattern

namespace Sieve.Calendar

-- A timestamp as written on the spot, and how many minutes the clocks there are ahead of UTC.
structure OffsetDateTime where
  written : DateTime
  ahead : Int

-- Takes exactly `width` digits off the front.
def takeDigits (width : Nat) (cs : List Char) : Option (Nat × List Char) :=
  let digits := cs.take width
  if digits.length = width ∧ digits.all Decimal.isDigit then
    some (Nat.ofDigitChars 10 digits 0, cs.drop width)
  else none

def takeOneOf (allowed : List Char) (cs : List Char) : Option (List Char) :=
  match cs with
  | c :: rest => if allowed.contains c then some rest else none
  | [] => none

-- The offset at the end of a timestamp: `Z`, or a sign, hours and minutes.
def readOffset (cs : List Char) : Option Int :=
  match cs with
  | ['Z'] => some 0
  | ['z'] => some 0
  | sign :: rest => do
    let (hours, rest) ← takeDigits 2 rest
    let rest ← takeOneOf [':'] rest
    let (minutes, rest) ← takeDigits 2 rest
    if !rest.isEmpty || 23 < hours || 59 < minutes then none
    let minutes : Int := 60 * hours + minutes
    if sign = '+' then some minutes
    else if sign = '-' ∨ sign = '−' then some (-minutes)
    else none
  | [] => none

-- Reads a timestamp in full: four, two and two digits of the date, a `T` or a space, two digits
-- each of the time, perhaps a fraction, and the offset.
def OffsetDateTime.read (cs : List Char) : Option OffsetDateTime := do
  let (year, cs) ← takeDigits 4 cs
  let cs ← takeOneOf ['-'] cs
  let (month, cs) ← takeDigits 2 cs
  let cs ← takeOneOf ['-'] cs
  let (day, cs) ← takeDigits 2 cs
  let cs ← takeOneOf ['T', 't', ' '] cs
  let (hour, cs) ← takeDigits 2 cs
  let cs ← takeOneOf [':'] cs
  let (minute, cs) ← takeDigits 2 cs
  let cs ← takeOneOf [':'] cs
  let (second, cs) ← takeDigits 2 cs
  let (nano, cs) ← takeFraction cs
  let ahead ← readOffset cs
  let date ← Date.of? year month day
  let written ← DateTime.ofClock? date hour minute second nano
  return ⟨written, ahead⟩

-- The same moment on a clock that shows UTC.
def OffsetDateTime.utc? (t : OffsetDateTime) : Option DateTime :=
  t.written.shiftMinutes? (-t.ahead)

end Sieve.Calendar
